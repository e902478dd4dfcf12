import Mathlib
import Reconcile.Proofs.Courses
import Reconcile.Proofs.Exactness

/-!
# The accounts of a run

What a run tells of itself in the end is held against its course. The state is not
always the last one that was seen. It is kept with the report of a pass, and a pass
that sees something and then fails to act on it makes no report.

The numbers of the passes and of the tokens are right. That of the failures is kept
in 32 bits, as the number of the passes is. This is not enough where all the passes
fail that 32 bits can number, and the deletion after them.
-/

namespace Reconcile

/-- The program went through. -/
def Ending.isFinished {α : Type} : Ending α → Bool
  | .finished _ => true
  | _ => false

/-! ## The deletion in the end -/

namespace Schedule

variable [DurationReader] {σ : Type} (c : Schedule) (h : Host σ) (p : Project) (s : σ)

/-- The deletion in the end is asked for and still wanted. -/
def reachesDeletion : Bool :=
  c.delete && !h.isCancelled (c.afterPasses h p s).host

/-- How the deletion in the end goes, if the run comes to it. -/
def deletion? : Option (Ending Unit) :=
  if c.reachesDeletion h p s then
    some (h.attempt (c.afterPasses h p s).project.delete (c.afterPasses h p s).host).1
  else none

/-- The deletion in the end went through. -/
def deletes : Bool :=
  (c.deletion? h p s).any (·.isFinished)

/-- The deletion in the end was tried in vain. -/
def failsToDelete : Bool :=
  (c.deletion? h p s).any (!·.isFinished)

/-- The steps of a run: those of its passes, and then those of the deletion. -/
def steps : List Step :=
  (c.passesOf h p s).flatMap (·.steps h) ++
    if c.reachesDeletion h p s then
      h.steps (c.afterPasses h p s).project.delete.run (c.afterPasses h p s).host
    else []

variable {c h p s}

/-- The deletion is booked after the passes. -/
theorem summary_run : (c.run h p s).summary =
    { (c.afterPasses h p s).summary with
      failures :=
        if c.failsToDelete h p s then Word.next32 (c.afterPasses h p s).summary.failures
        else (c.afterPasses h p s).summary.failures
      state := if c.deletes h p s then .notExists
        else (c.afterPasses h p s).summary.state } := by
  change (c.finish h (c.afterPasses h p s)).summary = _
  rw [deletes, failsToDelete, deletion?, reachesDeletion, finish]
  cases c.delete with
  | false => rfl
  | true =>
      cases h.isCancelled (c.afterPasses h p s).host with
      | true => rfl
      | false =>
          obtain ⟨⟨_⟩ | failure | _, s'⟩ := h.attempt
            (c.afterPasses h p s).project.delete (c.afterPasses h p s).host <;> rfl

/-- **The mishaps of a run are counted**, as far as the counter reaches. -/
theorem failures_run : (c.run h p s).summary.failures =
    (((c.passesOf h p s).countP fun x => (x.ending h).isMishap) +
      if c.failsToDelete h p s then 1 else 0) % Word.limit32 := by
  have hpasses : (c.afterPasses h p s).summary.failures =
      ((c.passesOf h p s).countP fun x => (x.ending h).isMishap) % Word.limit32 := by
    rw [afterPasses, summary_runPasses, failures_bookAll _ _ _ (Nat.zero_mod _).symm,
      Nat.zero_add]
    rfl
  rw [summary_run]
  dsimp only
  rw [hpasses]
  split
  · exact Word.next32_mod _
  · rfl

end Schedule

/-- A deletion asks for no tokens. -/
theorem Project.issuedIn_delete {p : Project} {steps : List Step}
    {outcome : Option (Except Failure Unit)}
    (path : p.delete.run.Path steps outcome) : issuedIn steps = [] := by
  rw [Project.delete] at path
  cases named : p.externalName with
  | none =>
      rw [named] at path
      obtain ⟨rfl, _⟩ := Attempt.path_done path
      rfl
  | some name =>
      rw [named] at path
      rcases Attempt.path_call_bind path with stop | ⟨answer, _, rfl, onward⟩
      · exact stop.issuedIn_eq
      · rcases answer with refusal | ⟨⟨⟩⟩
        · dsimp only at onward
          split at onward <;>
          · obtain ⟨rfl, _⟩ := Attempt.path_done onward
            rfl
        · cases onward with
          | noted rest =>
              obtain ⟨rfl, _⟩ := Attempt.path_done rest
              rfl

namespace Schedule

variable {σ : Type} {c : Schedule} {h : Host σ} {p : Project} {s : σ}

/-- Only the passes bring tokens. -/
theorem issuedIn_steps [DurationReader] : issuedIn (c.steps h p s) =
    (c.passesOf h p s).flatMap fun x => issuedIn (x.steps h) := by
  have hdelete : issuedIn (if c.reachesDeletion h p s then
      h.steps (c.afterPasses h p s).project.delete.run (c.afterPasses h p s).host
      else []) = [] := by
    split
    · exact Project.issuedIn_delete (h.path _ _)
    · rfl
  rw [steps, issuedIn, List.filterMap_append]
  change _ ++ issuedIn _ = _
  rw [hdelete, List.append_nil, List.filterMap_flatMap]
  rfl

end Schedule

/-! ## What is told and what was seen -/

theorem Sighting.state_ne_unknown (sighting : Sighting) : sighting.state ≠ .unknown := by
  rw [Sighting.state]
  split
  · nofun
  · split <;> nofun

namespace PassStart

variable [DurationReader] {σ : Type} {h : Host σ} {x : PassStart σ}

/-- The state that the pass sees, if its observation goes through. -/
def seen? (x : PassStart σ) (h : Host σ) : Option ResourceState :=
  (x.sighting? h).map Sighting.state

/-- What is done about a state is reported under this state. -/
theorem state?_settle {p : Project} {state told : ResourceState} {s : σ}
    (reported : (h.settle p state s).1.state? = some told) : state = told := by
  cases state with
  | notExists =>
      rw [h.settle_notExists_eq] at reported
      split at reported
      · exact Option.some.inj reported
      · cases reported
      · cases reported
  | drifted =>
      rw [h.settle_drifted_eq] at reported
      split at reported
      · exact Option.some.inj reported
      · cases reported
      · cases reported
  | upToDate => exact Option.some.inj reported
  | unknown => exact Option.some.inj reported

/-- **A pass reports what it has seen**, if it goes through. -/
theorem seen?_of_told? {state : ResourceState} (told : x.told? h = some state) :
    x.seen? h = some state := by
  rw [told?] at told
  generalize hobserved : h.run x.project.observe.run x.host = observed
  obtain ⟨_ | failure | ⟨sighting, seen⟩, s⟩ := observed
  · rw [ending, Host.pass, h.attempt_eq, hobserved] at told
    cases told
  · rw [ending_eq_of_failed hobserved] at told
    cases told
  · rw [ending_eq hobserved] at told
    rw [seen?, sighting?_eq hobserved]
    exact congrArg some (state?_settle told)

theorem seen?_ne_unknown : x.seen? h ≠ some .unknown := by
  rw [seen?, ne_eq, Option.map_eq_some_iff]
  rintro ⟨sighting, _, hstate⟩
  exact sighting.state_ne_unknown hstate

end PassStart

namespace Schedule

variable [DurationReader] {σ : Type} (c : Schedule) (h : Host σ) (p : Project) (s : σ)

/-- The state that the last observation to go through has seen. -/
def lastSeen? : Option ResourceState :=
  ((c.passesOf h p s).filterMap (·.seen? h)).getLast?

/-- The state that the last pass to go through has reported. -/
def lastTold? : Option ResourceState :=
  ((c.passesOf h p s).filterMap (·.told? h)).getLast?

/-- Nothing interrupts the passes of a run: all of their calls are answered, and
the work is still wanted when they are over. -/
structure Uninterrupted : Prop where
  answered : ∀ x ∈ c.passesOf h p s, ∀ step ∈ x.steps h, step.isAnswered
  wanted : h.isCancelled (c.afterPasses h p s).host = false

variable {c h p s}

theorem lastSeen?_ne_unknown : c.lastSeen? h p s ≠ some .unknown := by
  intro hlast
  obtain ⟨x, _, hx⟩ := List.mem_filterMap.mp (List.mem_of_getLast? hlast)
  exact PassStart.seen?_ne_unknown hx

theorem lastTold?_ne_unknown : c.lastTold? h p s ≠ some .unknown := by
  intro hlast
  obtain ⟨x, _, hx⟩ := List.mem_filterMap.mp (List.mem_of_getLast? hlast)
  exact PassStart.seen?_ne_unknown (PassStart.seen?_of_told? hx)

end Schedule

/-- States that are known are told apart by the state that stands for none. -/
theorem getD_unknown_inj {a b : Option ResourceState} (ha : a ≠ some .unknown)
    (hb : b ≠ some .unknown) : a.getD .unknown = b.getD .unknown ↔ a = b := by
  cases a <;> cases b <;> simp_all [eq_comm]

/-- **When the state is the last one that was seen.** Under every host and
however a run goes, its summary tells that there is no project if the run has
deleted it in the end, and otherwise the state that the last pass to go through
has reported. This is the state that the last observation to go through has seen,
exactly if these two passes agree or the project was deleted. -/
theorem state_is_last_seen_iff [DurationReader] {σ : Type} (c : Schedule) (h : Host σ) (p : Project)
    (s : σ) :
    (c.run h p s).summary.state =
      (if c.deletes h p s then .notExists else (c.lastTold? h p s).getD .unknown) ∧
    ((c.run h p s).summary.state =
        (if c.deletes h p s then .notExists else (c.lastSeen? h p s).getD .unknown) ↔
      c.deletes h p s = true ∨ c.lastSeen? h p s = c.lastTold? h p s) := by
  have hstate : (c.run h p s).summary.state =
      if c.deletes h p s then .notExists else (c.lastTold? h p s).getD .unknown := by
    rw [Schedule.summary_run, Schedule.afterPasses, Schedule.summary_runPasses,
      Schedule.state_bookAll]
    rfl
  refine ⟨hstate, ?_⟩
  rw [hstate]
  cases c.deletes h p s with
  | true => simp
  | false =>
      simp only [Bool.false_eq_true, if_false, false_or]
      rw [getD_unknown_inj Schedule.lastTold?_ne_unknown Schedule.lastSeen?_ne_unknown,
        eq_comm]

/-- A project that wants a token. -/
def breakwater : Project :=
  Project.declare "shop" { roles := [{ name := "ci", tokens := [{ id := "a" }] }] }

/-- A control plane that refuses to update it. -/
def breakwaterStart : ControlPlane × Int :=
  (({} : ControlPlane).fail .update ⟨.unavailable, "down"⟩, 1700000000)

/-- Two passes, and no deletion. -/
def twoPasses : Schedule := { passes := 2 }

/-- The first pass creates the project. The second one sees that it has drifted
and fails to update it, and so what is told is that there is no project. -/
theorem drift_of_breakwater_is_not_told :
    twoPasses.Uninterrupted (ticking "x") breakwater breakwaterStart ∧
    twoPasses.deletion? (ticking "x") breakwater breakwaterStart = none ∧
    twoPasses.lastSeen? (ticking "x") breakwater breakwaterStart = some .drifted ∧
    (twoPasses.run (ticking "x") breakwater breakwaterStart).summary.state =
      .notExists := by
  refine ⟨⟨?_, ?_⟩, rfl, ?_, ?_⟩
  · decide +kernel
  · decide +kernel
  · decide +kernel
  · decide +kernel

/-! ## The numbers -/

namespace Schedule

variable [DurationReader] {σ : Type} (c : Schedule) (h : Host σ) (p : Project) (s : σ)

/-- How many passes of a run failed, and its deletion with them. -/
def failed : Nat :=
  ((c.passesOf h p s).countP fun x => (x.ending h).isFailed) +
    if c.failsToDelete h p s then 1 else 0

/-- There is one failure more than 32 bits can count. As many passes are run as
they can number, all of them fail, and the deletion fails after them. -/
structure Overflows : Prop where
  full : c.passes + 1 = Word.limit32
  run : (c.passesOf h p s).length = c.passes
  failing : ∀ x ∈ c.passesOf h p s, (x.ending h).isFailed
  standing : c.failsToDelete h p s

/-- The summary of a run is right about its numbers. -/
structure Accounts (summary : Summary) : Prop where
  /-- The first pass starts from what the run is given. -/
  begun : ∀ first ∈ (c.passesOf h p s).head?, first = ⟨p, s⟩
  /-- Every other pass starts from what the one before has left. -/
  onward : (c.passesOf h p s).IsChain fun before after => after = before.next h c
  /-- The passes that were started are counted. -/
  passes : summary.passes = (c.passesOf h p s).length
  asked : summary.passes ≤ c.passes
  /-- There are fewer of them than asked for only if the last one saw that there
  is nothing to do. -/
  early : summary.passes < c.passes → c.keepGoing = false ∧
    ∃ x, (c.passesOf h p s).getLast? = some x ∧ x.seen? h = some .upToDate
  /-- The passes that failed are counted, and the deletion if that failed, as far as
  the counter reaches. -/
  failures : summary.failures = c.failed h p s % Word.limit32
  /-- Nothing fails that was not tried. -/
  few : c.failed h p s ≤ c.passes + 1
  /-- Where the number of passes fits 32 bits, that of the failures is right but for
  one case. -/
  counted : c.passes < Word.limit32 →
    (summary.failures = c.failed h p s ↔ ¬ c.Overflows h p s)
  /-- The calls of the run that brought a token are counted. -/
  tokensIssued : summary.tokensIssued = (issuedIn (c.steps h p s)).length

variable {c h p s}

/-- A pass is the last one if it came to an end of its own and saw that there is
nothing to do. -/
theorem seen?_of_isLast {x : PassStart σ} (last : c.isLast (x.ending h) = true)
    (own : (x.ending h).IsOwn) : c.keepGoing = false ∧ x.seen? h = some .upToDate := by
  generalize hending : x.ending h = ending at last own
  cases ending with
  | timedOut => cases last
  | failed failure =>
      cases failure with
      | cancelled => exact absurd rfl own.2
      | _ => cases last
  | finished report =>
      obtain ⟨hstate, hstops⟩ := (c.isLast_finished report).mp last
      refine ⟨hstops, PassStart.seen?_of_told? ?_⟩
      rw [PassStart.told?, hending, Ending.state?, hstate]

theorem countP_isFailed_le :
    ((c.passesOf h p s).countP fun x => (x.ending h).isFailed) ≤
      (c.passesOf h p s).length ∧ (c.passesOf h p s).length ≤ c.passes :=
  ⟨List.countP_le_length, length_course_le _ _⟩

theorem failed_le : c.failed h p s ≤ c.passes + 1 := by
  obtain ⟨hcount, hlength⟩ := countP_isFailed_le (c := c) (h := h) (p := p) (s := s)
  rw [failed]
  split <;> omega

/-- **Only one case has too many failures.** -/
theorem failed_lt_iff (sized : c.passes < Word.limit32) :
    c.failed h p s < Word.limit32 ↔ ¬ c.Overflows h p s := by
  obtain ⟨hcount, hlength⟩ := countP_isFailed_le (c := c) (h := h) (p := p) (s := s)
  constructor
  · rintro small ⟨full, run, failing, standing⟩
    rw [failed, List.countP_eq_length.mpr failing, run, if_pos standing, full] at small
    exact Nat.lt_irrefl _ small
  · intro fits
    by_contra large
    rw [failed] at large
    split at large
    · rename_i standing
      refine fits ⟨by omega, by omega, List.countP_eq_length.mp ?_, standing⟩
      omega
    · omega

/-- **The failures are counted**, where nothing is cut short. -/
theorem failures_of_own (own : ∀ x ∈ c.passesOf h p s, (x.ending h).IsOwn) :
    (c.run h p s).summary.failures = c.failed h p s % Word.limit32 := by
  rw [failures_run, failed]
  refine congrArg (fun n => (n + _) % Word.limit32) (List.countP_congr fun x hx => ?_)
  rw [(own x hx).isMishap_eq]

/-- **The accounts of a run are right, but for one case.** Let nothing interrupt the
passes of a run, and let no two keys that are planned in one pass have the same
text. Then the summary tells how many passes were started, one from what the other
has left. These are no more than were asked for, and fewer only if the schedule does
not keep going and the last of them saw the project up to date. It tells how many
calls of the run brought a token, those of failed passes included. And it tells how
many passes failed, and counts the deletion in the end if that failed too, unless
these are more than 32 bits can count. That is so in one case only, and then the
counter has started again. -/
theorem accounts_are_exact (uninterrupted : c.Uninterrupted h p s)
    (distinct : ∀ x ∈ c.passesOf h p s, ∀ plan ∈ x.plan? h,
      (plan.keys.map TokenKey.text).Nodup) :
    c.Accounts h p s (c.run h p s).summary := by
  have heach : ∀ x ∈ c.passesOf h p s, (x.ending h).IsOwn ∧
      (x.ending h).issued = (issuedIn (x.steps h)).length :=
    fun x hx => PassStart.of_answered (uninterrupted.answered x hx) (distinct x hx)
  have hbooked : (c.afterPasses h p s).summary =
      c.bookAll h 1 (c.passesOf h p s) {} := c.summary_runPasses _ _ _
  have hpasses : (c.run h p s).summary.passes = (c.passesOf h p s).length := by
    rw [summary_run, hbooked]
    exact (passes_bookAll _ 1 {} rfl).trans (Nat.zero_add _)
  have hfailures : (c.run h p s).summary.failures = c.failed h p s % Word.limit32 :=
    failures_of_own fun x hx => (heach x hx).1
  obtain ⟨honward, hbegun⟩ := course_isChain (c := c) (h := h) c.passes ⟨p, s⟩
  refine ⟨hbegun, honward, hpasses, ?_, ?_, hfailures, failed_le, ?_, ?_⟩
  · rw [hpasses]
    exact length_course_le _ _
  · intro short
    rw [hpasses] at short
    obtain ⟨x, hx, last⟩ :=
      (goes_course c.passes 1 ⟨p, s, {}, []⟩).exists_last uninterrupted.wanted short
    have hown := (heach x (List.mem_of_getLast? hx)).1
    obtain ⟨hstops, hseen⟩ := seen?_of_isLast last hown
    exact ⟨hstops, x, hx, hseen⟩
  · intro sized
    rw [hfailures, ← failed_lt_iff sized]
    exact Nat.mod_eq_iff_lt (by decide)
  · rw [summary_run, hbooked, issuedIn_steps, List.length_flatMap]
    refine (tokensIssued_bookAll _ _ _).trans ?_
    rw [Nat.zero_add]
    exact congrArg List.sum (List.map_congr_left fun x hx => (heach x hx).2)

end Schedule

/-- A project that wants two tokens. -/
def chandlery : Project :=
  Project.declare "shop" { roles := [
    { name := "ci", tokens := [{ id := "a" }, { id := "b" }] }] }

/-- A control plane that refuses one of them, and every deletion. -/
def chandleryStart : ControlPlane × Int :=
  ((({} : ControlPlane).failToken ⟨"ci", "a"⟩ ⟨.unavailable, "down"⟩).fail .delete
    ⟨.unavailable, "down"⟩, 1700000000)

/-- Three passes, and a deletion in the end. -/
def threeAndDelete : Schedule := { passes := 3, delete := true }

theorem accounts_are_exact_at_chandlery :
    threeAndDelete.Uninterrupted (ticking "x") chandlery chandleryStart ∧
    threeAndDelete.Accounts (ticking "x") chandlery chandleryStart
      (threeAndDelete.run (ticking "x") chandlery chandleryStart).summary ∧
    (threeAndDelete.run (ticking "x") chandlery chandleryStart).summary =
      ⟨3, 3, 1, .notExists⟩ := by
  have uninterrupted :
      threeAndDelete.Uninterrupted (ticking "x") chandlery chandleryStart := by
    constructor
    · decide +kernel
    · decide +kernel
  refine ⟨uninterrupted, Schedule.accounts_are_exact uninterrupted ?_, ?_⟩
  · decide +kernel
  · decide +kernel

/-! ## A project that is out of reach -/

/-- The project has a name, but fetching and deleting it are refused. -/
structure Project.OutOfReach (p : Project) (cp : ControlPlane) (refusal : Refusal) :
    Prop where
  named : p.externalName.isSome
  unfetched : cp.failures .get = some refusal
  undeleted : cp.failures .delete = some refusal

namespace Host.Serves

variable {σ : Type} {h : Host σ} {plane : σ → ControlPlane} {moment : σ → Moment}
  (serves : h.Serves plane moment) {refusal : Refusal}
  (present : refusal.isNotFound = false) {p : Project} {s : σ}

include serves present

/-- A deletion does not get beyond its call. -/
theorem run_delete_of_outOfReach (beyond : p.OutOfReach (plane s) refusal) :
    (h.run p.delete.run s).1 = some (.error (.delete refusal)) := by
  obtain ⟨name, named⟩ := Option.isSome_iff_exists.mp beyond.named
  rw [Project.delete, named]
  dsimp only
  rw [(serves.reaches_call (ControlPlane.serve_refused beyond.undeleted _) _).run]
  dsimp only
  rw [present]
  rfl

variable [DurationReader]

/-- An observation does not get beyond its first call. -/
theorem run_observe_of_outOfReach (beyond : p.OutOfReach (plane s) refusal) :
    ∃ s', h.run p.observe.run s = (some (.error (.get refusal)), s') ∧
      p.OutOfReach (plane s') refusal := by
  obtain ⟨name, named⟩ := Option.isSome_iff_exists.mp beyond.named
  refine ⟨(h.serve (.get name) s).2, ?_, beyond.named, ?_, ?_⟩
  · rw [Project.observe, named]
    dsimp only
    rw [(serves.reaches_call (ControlPlane.serve_refused beyond.unfetched _) _).run]
    dsimp only
    rw [present]
    rfl
  · rw [serves.failures_serve]
    exact beyond.unfetched
  · rw [serves.failures_serve]
    exact beyond.undeleted

/-- Nor does a pass. It plans nothing, and leaves the project out of reach. -/
theorem pass_of_outOfReach (beyond : p.OutOfReach (plane s) refusal) :
    (PassStart.mk p s).ending h = .failed (.get refusal) ∧
    (PassStart.mk p s).plan? h = none ∧
    (∀ step ∈ (PassStart.mk p s).steps h, step.isAnswered) ∧
    (h.pass p s).2.1.OutOfReach (plane (h.pass p s).2.2) refusal := by
  obtain ⟨s', hrun, hstays⟩ := serves.run_observe_of_outOfReach present beyond
  refine ⟨PassStart.ending_eq_of_failed hrun, ?_, ?_, ?_⟩
  · rw [PassStart.plan?, h.attempt_eq, hrun]
    rfl
  · rw [PassStart.steps_eq_of_failed hrun]
    exact Host.isAnswered_of_mem_steps serves.wanted
      (fun r s => by rw [serves.answered]; rfl) _ _
  · rw [Host.pass, h.attempt_eq, hrun]
    exact hstays

/-- The deletion fails, if it is asked for. -/
theorem failsToDelete_of_outOfReach {c : Schedule}
    (beyond : (c.afterPasses h p s).project.OutOfReach
      (plane (c.afterPasses h p s).host) refusal) :
    c.failsToDelete h p s = c.delete := by
  rw [Schedule.failsToDelete, Schedule.deletion?, Schedule.reachesDeletion,
    serves.wanted, h.attempt_eq, serves.run_delete_of_outOfReach present beyond]
  cases c.delete <;> rfl

/-- **A run fails throughout on a project that is out of reach.** All the passes are
run that the schedule asks for. All of them fail, and so does the deletion. -/
theorem failed_of_outOfReach (c : Schedule)
    (paused : ∀ n s, plane (h.pause n s) = plane s)
    (beyond : p.OutOfReach (plane s) refusal) :
    c.Uninterrupted h p s ∧
    (∀ x ∈ c.passesOf h p s, (x.ending h).IsOwn ∧ x.plan? h = none) ∧
    c.failed h p s = c.passes + if c.delete then 1 else 0 := by
  have hpaused (q : Project) (s : σ) (beyond : q.OutOfReach (plane s) refusal) :
      q.OutOfReach (plane (h.pause c.interval s)) refusal := by
    rw [paused]
    exact beyond
  have hpassed (q : Project) (s : σ) (beyond : q.OutOfReach (plane s) refusal) :=
    (serves.pass_of_outOfReach present beyond).2.2.2
  have honward (q : Project) (s : σ) (beyond : q.OutOfReach (plane s) refusal) :
      h.isCancelled s = false ∧ c.isLast ((PassStart.mk q s).ending h) = false := by
    rw [(serves.pass_of_outOfReach present beyond).1]
    exact ⟨serves.wanted s, rfl⟩
  obtain ⟨hlength, hall⟩ :=
    Schedule.course_of_kept hpassed hpaused honward c.passes beyond
  have hafter := (Schedule.goes_course c.passes 1 ⟨p, s, {}, []⟩).kept hpassed hpaused beyond
  have hstanding : c.failsToDelete h p s = c.delete :=
    serves.failsToDelete_of_outOfReach present hafter
  have heach := fun x hx => serves.pass_of_outOfReach present (hall x hx)
  refine ⟨⟨fun x hx => (heach x hx).2.2.1, serves.wanted _⟩,
    fun x hx => ⟨?_, (heach x hx).2.1⟩, ?_⟩
  · rw [(heach x hx).1]
    exact Ending.isOwn_failed nofun
  · have hfailed : ∀ x ∈ c.passesOf h p s, (x.ending h).isFailed := by
      intro x hx
      rw [(heach x hx).1]
      rfl
    rw [Schedule.failed, List.countP_eq_length.mpr hfailed, hstanding]
    exact congrArg (· + _) hlength

end Host.Serves

/-- A project that is there, with nothing to be done about it. -/
def lightship : Project := (Project.declare "shop" {}).setExternalName "shop"

/-- A control plane that refuses to fetch and to delete. -/
def lightshipStart : ControlPlane × Int :=
  ((({} : ControlPlane).fail .get ⟨.unavailable, "down"⟩).fail .delete
    ⟨.unavailable, "down"⟩, 1700000000)

/-- As many passes as 32 bits can number, and a deletion in the end. -/
def fullAndDelete : Schedule := { passes := 4294967295, delete := true }

/-- All of it fails, and none of it is told. The counter has run through, and the
deletion brings it back to nothing. -/
theorem failures_of_lightship_are_lost :
    fullAndDelete.Uninterrupted (ticking "x") lightship lightshipStart ∧
    (∀ x ∈ fullAndDelete.passesOf (ticking "x") lightship lightshipStart,
      ∀ plan ∈ x.plan? (ticking "x"), (plan.keys.map TokenKey.text).Nodup) ∧
    fullAndDelete.failed (ticking "x") lightship lightshipStart = 4294967296 ∧
    (fullAndDelete.run (ticking "x") lightship lightshipStart).summary.failures = 0 := by
  have beyond : lightship.OutOfReach lightshipStart.1 ⟨.unavailable, "down"⟩ :=
    ⟨by decide +kernel, rfl, rfl⟩
  obtain ⟨uninterrupted, heach, hfailed⟩ :=
    (ticking_serves "x").failed_of_outOfReach (by rfl) fullAndDelete (fun _ _ => rfl) beyond
  refine ⟨uninterrupted, ?_, hfailed, ?_⟩
  · intro x hx plan hplan
    rw [(heach x hx).2] at hplan
    cases hplan
  · rw [Schedule.failures_of_own fun x hx => (heach x hx).1, hfailed]
    rfl

end Reconcile
