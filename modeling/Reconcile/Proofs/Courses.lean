import Mathlib
import Reconcile.Proofs.Calls
import Reconcile.Proofs.Passes
import Reconcile.Proofs.Observing

/-!
# The course of a run

A run of a schedule starts one pass after the other, each on what the last has
left. `Schedule.course` lists the passes that it starts, with the resource and
the host that each of them finds. What a pass saw, what it planned, which steps
it took and how it ended is told of a single pass, and so does not depend on
what the schedule makes of it.

A run goes along this list (`Schedule.Goes`), and what is true of all of its passes
is proved by induction on that. The summary of a run is what comes of booking these
passes in turn (`summary_runPasses`). Each of its entries is read off the course from
this.
-/

namespace Reconcile

/-! ## Endings -/

/-- The ending of a program with a given outcome. -/
def Ending.ofOutcome {α : Type} : Option (Except Failure α) → Ending α
  | some (.ok a) => .finished a
  | some (.error failure) => .failed failure
  | none => .timedOut

theorem Host.attempt_eq {σ α : Type} (h : Host σ) (program : Attempt α) (s : σ) :
    h.attempt program s =
      (.ofOutcome (h.run program.run s).1, (h.run program.run s).2) := by
  unfold Host.attempt
  rcases h.run program.run s with ⟨_ | _ | a, s'⟩ <;> rfl

namespace Ending

/-- The number of tokens that a pass brought, as far as its ending tells. -/
def issued : Ending PassReport → Nat
  | .finished report => report.action.issued
  | .failed failure => failure.issued
  | .timedOut => 0

/-- The state that a pass reports, if it goes through. -/
def state? : Ending PassReport → Option ResourceState
  | .finished report => some report.state
  | _ => none

/-- A program came to an end, and this was a failure. -/
def isFailed {α : Type} : Ending α → Bool
  | .failed _ => true
  | _ => false

/-- The pass ran into its time limit or failed, and not for being withdrawn. -/
def isMishap : Ending PassReport → Bool
  | .finished _ => false
  | .failed failure => failure ≠ .cancelled
  | .timedOut => true

/-- Nothing kept the program from coming to an end of its own. -/
def IsOwn {α : Type} (ending : Ending α) : Prop :=
  ending ≠ .timedOut ∧ ending ≠ .failed .cancelled

theorem isOwn_finished {α : Type} (a : α) : (Ending.finished a).IsOwn :=
  ⟨nofun, nofun⟩

theorem isOwn_failed {α : Type} {failure : Failure} (own : failure ≠ .cancelled) :
    (Ending.failed failure : Ending α).IsOwn := by
  refine ⟨nofun, ?_⟩
  rintro ⟨⟩
  exact own rfl

theorem IsOwn.isMishap_eq {ending : Ending PassReport} (own : ending.IsOwn) :
    ending.isMishap = ending.isFailed := by
  cases ending with
  | finished report => rfl
  | failed failure => exact decide_eq_true fun hcut => own.2 (congrArg _ hcut)
  | timedOut => exact absurd rfl own.1

end Ending

/-! ## A single pass -/

/-- Where a pass starts: the resource and the host. -/
structure PassStart (σ : Type) where
  project : Project
  host : σ

namespace PassStart

variable [DurationReader] {σ : Type} (x : PassStart σ) (h : Host σ)

/-- How the pass ends. -/
def ending : Ending PassReport :=
  (h.pass x.project x.host).1

/-- Where the next pass starts, after the pause. -/
def next (c : Schedule) : PassStart σ :=
  ⟨(h.pass x.project x.host).2.1, h.pause c.interval (h.pass x.project x.host).2.2⟩

/-- The state that the pass reports, if it goes through. -/
def told? : Option ResourceState :=
  (x.ending h).state?

/-- What the pass sees, if its observation goes through. -/
def sighting? : Option Sighting :=
  match (h.attempt x.project.observe x.host).1 with
  | .finished (sighting, _) => some sighting
  | _ => none

/-- The steps of the pass: those of its observation, and then those of what it
does about its sighting. -/
def steps : List Step :=
  h.steps x.project.observe.run x.host ++
    match h.attempt x.project.observe x.host with
    | (.finished (sighting, seen), s) =>
      match sighting.state with
      | .notExists => h.steps seen.create.run s
      | .drifted => h.steps seen.update.run s
      | .upToDate | .unknown => []
    | _ => []

/-- The tokens that the pass plans to issue, if it comes to update. -/
def plan? : Option TokenPlan :=
  match h.attempt x.project.observe x.host with
  | (.finished (sighting, seen), s) =>
    match sighting.state with
    | .drifted => seen.planAlong (h.steps seen.update.run s)
    | _ => none
  | _ => none

end PassStart

/-! ## The course -/

namespace Schedule

variable {σ : Type} (c : Schedule) (h : Host σ)

/-- The passes that are started, the first of them here and not more than
`left`. -/
def course [DurationReader] : (left : Nat) → PassStart σ → List (PassStart σ)
  | 0, _ => []
  | left + 1, x =>
    if h.isCancelled x.host then []
    else x :: if c.isLast (x.ending h) then [] else course left (x.next h c)

/-- The passes that a run starts. -/
def passesOf [DurationReader] (p : Project) (s : σ) : List (PassStart σ) :=
  c.course h c.passes ⟨p, s⟩

/-- A run once its passes are over. -/
def afterPasses [DurationReader] (p : Project) (s : σ) : ScheduleRun σ :=
  c.runPasses h c.passes 1 ⟨p, s, {}, []⟩

/-- Books passes in turn, the first of them under a number. -/
def bookAll [DurationReader] : (pass : Nat) → List (PassStart σ) → Summary → Summary
  | _, [], summary => summary
  | pass, x :: rest, summary =>
    bookAll (pass + 1) rest (c.book pass (x.ending h) summary).1

/-- A run once its next pass is over. -/
def passed [DurationReader] (pass : Nat) (run : ScheduleRun σ) : ScheduleRun σ :=
  let (ending, project, s) := h.pass run.project run.host
  let (summary, event) := c.book pass ending run.summary
  { project, host := s, summary, log := run.log ++ [event] }

/-- How passes follow one another. Up to `left` of them are to go and the next one is
numbered `pass`: the passes that are started lead from one run to the other. -/
inductive Goes [DurationReader] :
    (left pass : Nat) → ScheduleRun σ → List (PassStart σ) → ScheduleRun σ → Prop
  | stop {left pass : Nat} {run : ScheduleRun σ}
      (stops : left = 0 ∨ h.isCancelled run.host = true) : Goes left pass run [] run
  | last {left pass : Nat} {run : ScheduleRun σ} (wanted : h.isCancelled run.host = false)
      (ends : left = 0 ∨ c.isLast (PassStart.ending ⟨run.project, run.host⟩ h) = true) :
      Goes (left + 1) pass run [⟨run.project, run.host⟩] (c.passed h pass run)
  | onward {left pass : Nat} {run ended : ScheduleRun σ} {rest : List (PassStart σ)}
      (wanted : h.isCancelled run.host = false)
      (goes : Goes left (pass + 1)
        { c.passed h pass run with
          host := h.pause c.interval (c.passed h pass run).host } rest ended) :
      Goes (left + 1) pass run (⟨run.project, run.host⟩ :: rest) ended

/-- A pass that goes through is the last one if it found nothing to do and the
schedule does not keep going. -/
theorem isLast_finished (report : PassReport) :
    c.isLast (.finished report) = true ↔
      report.state = .upToDate ∧ c.keepGoing = false := by
  simp [isLast]

variable {c h}

theorem course_of_wanted [DurationReader] {left : Nat} {x : PassStart σ}
    (wanted : h.isCancelled x.host = false) :
    c.course h (left + 1) x =
      x :: if c.isLast (x.ending h) then [] else c.course h left (x.next h c) := by
  rw [course, wanted, if_neg Bool.false_ne_true]

theorem runPasses_of_cancelled [DurationReader] (left pass : Nat) {run : ScheduleRun σ}
    (cancelled : h.isCancelled run.host = true) : c.runPasses h left pass run = run := by
  cases left with
  | zero => rfl
  | succ left => rw [runPasses, if_pos cancelled]

theorem runPasses_of_last [DurationReader] {left pass : Nat} {run : ScheduleRun σ}
    (wanted : h.isCancelled run.host = false)
    (last : c.isLast (PassStart.ending ⟨run.project, run.host⟩ h) = true) :
    c.runPasses h (left + 1) pass run = c.passed h pass run := by
  rw [runPasses, wanted, if_neg Bool.false_ne_true]
  exact if_pos last

/-- A pass that is not the last one is followed by the others, if any are left. -/
theorem runPasses_of_not_last [DurationReader] {left pass : Nat} {run : ScheduleRun σ}
    (wanted : h.isCancelled run.host = false)
    (onward : ¬ c.isLast (PassStart.ending ⟨run.project, run.host⟩ h) = true) :
    c.runPasses h (left + 1) pass run =
      if left = 0 then c.passed h pass run
      else c.runPasses h left (pass + 1)
        { c.passed h pass run with
          host := h.pause c.interval (c.passed h pass run).host } := by
  rw [runPasses, wanted, if_neg Bool.false_ne_true]
  exact if_neg onward

/-- **A pass starts from what the one before has left.** -/
theorem course_isChain [DurationReader] (left : Nat) (x : PassStart σ) :
    (c.course h left x).IsChain (fun before after => after = before.next h c) ∧
      ∀ first ∈ (c.course h left x).head?, first = x := by
  induction left generalizing x with
  | zero => exact ⟨.nil, nofun⟩
  | succ left ih =>
      cases wanted : h.isCancelled x.host with
      | true =>
          rw [course, wanted, if_pos rfl]
          exact ⟨.nil, nofun⟩
      | false =>
          rw [course_of_wanted wanted]
          refine ⟨List.isChain_cons.mpr ⟨?_, ?_⟩, ?_⟩
          · split
            · nofun
            · exact (ih (x.next h c)).2
          · split
            · exact .nil
            · exact (ih (x.next h c)).1
          · rintro _ ⟨⟩
            rfl

/-- **The passes go along the course.** -/
theorem goes_course [DurationReader] (left pass : Nat) (run : ScheduleRun σ) :
    c.Goes h left pass run (c.course h left ⟨run.project, run.host⟩)
      (c.runPasses h left pass run) := by
  induction left generalizing pass run with
  | zero => exact .stop (.inl rfl)
  | succ left ih =>
      cases wanted : h.isCancelled run.host with
      | true =>
          rw [runPasses_of_cancelled _ _ wanted, course, if_pos wanted]
          exact .stop (.inr wanted)
      | false =>
          rw [course_of_wanted wanted]
          by_cases last : c.isLast (PassStart.ending ⟨run.project, run.host⟩ h) = true
          · rw [runPasses_of_last wanted last, if_pos last]
            exact .last wanted (.inr last)
          · rw [runPasses_of_not_last wanted last, if_neg last]
            split
            · rename_i hleft
              subst hleft
              exact .last wanted (.inl rfl)
            · exact .onward wanted (ih (pass + 1) _)

/-- **The summary books the passes that were started.** -/
theorem Goes.summary_eq [DurationReader] {left pass : Nat} {run ended : ScheduleRun σ}
    {xs : List (PassStart σ)} (goes : c.Goes h left pass run xs ended) :
    ended.summary = c.bookAll h pass xs run.summary := by
  induction goes with
  | stop _ => rfl
  | last _ _ => rfl
  | onward _ _ ih => exact ih

theorem summary_runPasses [DurationReader] (left pass : Nat) (run : ScheduleRun σ) :
    (c.runPasses h left pass run).summary =
      c.bookAll h pass (c.course h left ⟨run.project, run.host⟩) run.summary :=
  (goes_course left pass run).summary_eq

/-! ## The entries of the summary -/

section Booking

variable (c) (pass : Nat) (ending : Ending PassReport) (summary : Summary)

theorem passes_book : (c.book pass ending summary).1.passes = pass := by
  cases ending with
  | finished report => rfl
  | failed failure => cases failure <;> rfl
  | timedOut => rfl

theorem state_book :
    (c.book pass ending summary).1.state = ending.state?.getD summary.state := by
  cases ending with
  | finished report => rfl
  | failed failure => cases failure <;> rfl
  | timedOut => rfl

theorem tokensIssued_book :
    (c.book pass ending summary).1.tokensIssued = summary.tokensIssued + ending.issued := by
  cases ending with
  | finished report => rfl
  | failed failure => cases failure <;> rfl
  | timedOut => rfl

theorem failures_book :
    (c.book pass ending summary).1.failures =
      if ending.isMishap then Word.next32 summary.failures else summary.failures := by
  cases ending with
  | finished report => rfl
  | failed failure => cases failure <;> rfl
  | timedOut => rfl

end Booking

section Entries

variable [DurationReader] (xs : List (PassStart σ)) (pass : Nat) (summary : Summary)

/-- **Every pass is counted.** -/
theorem passes_bookAll (hnumber : pass = summary.passes + 1) :
    (c.bookAll h pass xs summary).passes = summary.passes + xs.length := by
  induction xs generalizing pass summary with
  | nil => rfl
  | cons x rest ih =>
      have hbook := c.passes_book pass (x.ending h) summary
      rw [bookAll, ih _ _ (by rw [hbook]), hbook, List.length_cons]
      omega

/-- **What the passes brought is added up.** -/
theorem tokensIssued_bookAll :
    (c.bookAll h pass xs summary).tokensIssued =
      summary.tokensIssued + (xs.map fun x => (x.ending h).issued).sum := by
  induction xs generalizing pass summary with
  | nil => rfl
  | cons x rest ih =>
      rw [bookAll, ih, tokensIssued_book, List.map_cons, List.sum_cons]
      omega

/-- **The mishaps are counted**, behind `n` others, as far as the counter reaches. -/
theorem failures_bookAll {n : Nat} (counted : summary.failures = n % Word.limit32) :
    (c.bookAll h pass xs summary).failures =
      (n + xs.countP fun x => (x.ending h).isMishap) % Word.limit32 := by
  induction xs generalizing pass summary n with
  | nil => exact counted
  | cons x rest ih =>
      have hbook := c.failures_book pass (x.ending h) summary
      rw [bookAll, List.countP_cons]
      cases hmishap : (x.ending h).isMishap with
      | true =>
          rw [hmishap, if_pos rfl, counted, Word.next32_mod] at hbook
          rw [ih _ _ hbook, if_pos rfl, Nat.add_assoc, Nat.add_comm 1]
      | false =>
          rw [hmishap, if_neg Bool.false_ne_true, counted] at hbook
          rw [ih _ _ hbook, if_neg Bool.false_ne_true, Nat.add_zero]

/-- **The state is the one that the last pass to go through reports.** -/
theorem state_bookAll :
    (c.bookAll h pass xs summary).state =
      (xs.filterMap (·.told? h)).getLast?.getD summary.state := by
  induction xs generalizing pass summary with
  | nil => rfl
  | cons x rest ih =>
      rw [bookAll, ih, state_book]
      change _ = ((x :: rest).filterMap (·.told? h)).getLast?.getD _
      cases htold : x.told? h with
      | none =>
          have hstate : (x.ending h).state? = none := htold
          simp only [List.filterMap_cons, htold, hstate, Option.getD_none]
      | some state =>
          have hstate : (x.ending h).state? = some state := htold
          simp only [List.filterMap_cons, htold, hstate, List.getLast?_cons,
            Option.getD_some]

end Entries

/-! ## What every pass keeps -/

section Kept

variable [DurationReader] {Q : Project → σ → Prop} {p : Project} {s : σ}
  (passed : ∀ p s, Q p s → Q (h.pass p s).2.1 (h.pass p s).2.2)
  (paused : ∀ p s, Q p s → Q p (h.pause c.interval s))

include passed paused

/-- **What every pass keeps holds before each pass of a course.** If it rules out
that the work is withdrawn or that a pass is the last one, all passes are run. -/
theorem course_of_kept (onward : ∀ p s, Q p s → h.isCancelled s = false ∧
      c.isLast (PassStart.ending ⟨p, s⟩ h) = false) (left : Nat) (kept : Q p s) :
    (c.course h left ⟨p, s⟩).length = left ∧
      ∀ x ∈ c.course h left ⟨p, s⟩, Q x.project x.host := by
  induction left generalizing p s with
  | zero => exact ⟨rfl, List.forall_mem_nil _⟩
  | succ left ih =>
      obtain ⟨wanted, last⟩ := onward p s kept
      obtain ⟨hlength, hrest⟩ := ih (paused _ _ (passed p s kept))
      rw [course_of_wanted wanted, last, if_neg Bool.false_ne_true]
      exact ⟨congrArg (· + 1) hlength, List.forall_mem_cons.mpr ⟨kept, hrest⟩⟩

/-- **It holds once the passes are over.** -/
theorem Goes.kept {left pass : Nat} {run ended : ScheduleRun σ} {xs : List (PassStart σ)}
    (goes : c.Goes h left pass run xs ended) (kept : Q run.project run.host) :
    Q ended.project ended.host := by
  induction goes with
  | stop _ => exact kept
  | last _ _ => exact passed _ _ kept
  | onward _ _ ih => exact ih (paused _ _ (passed _ _ kept))

end Kept

/-! ## Runs that nothing interrupts -/

theorem length_course_le [DurationReader] (left : Nat) (x : PassStart σ) :
    (c.course h left x).length ≤ left := by
  induction left generalizing x with
  | zero => exact Nat.le_refl 0
  | succ left ih =>
      rw [course]
      split
      · exact Nat.zero_le _
      · split
        · exact Nat.le_add_left 1 left
        · exact Nat.succ_le_succ (ih (x.next h c))

/-- **The passes end early only after a last one**, if the work is still wanted
when they are over. -/
theorem Goes.exists_last [DurationReader] {left pass : Nat} {run ended : ScheduleRun σ}
    {xs : List (PassStart σ)} (goes : c.Goes h left pass run xs ended)
    (wanted : h.isCancelled ended.host = false) (short : xs.length < left) :
    ∃ x, xs.getLast? = some x ∧ c.isLast (x.ending h) = true := by
  induction goes with
  | stop stops =>
      rcases stops with rfl | cancelled
      · exact absurd short (Nat.not_lt_zero _)
      · rw [cancelled] at wanted
        cases wanted
  | last _ ends =>
      rcases ends with rfl | hlast
      · exact absurd short (Nat.lt_irrefl _)
      · exact ⟨_, rfl, hlast⟩
  | onward _ _ ih =>
      obtain ⟨x, hx, hlast⟩ := ih wanted (Nat.lt_of_succ_lt_succ short)
      refine ⟨x, ?_, hlast⟩
      rw [List.getLast?_cons, hx]
      rfl

end Schedule

/-! ## Passes whose calls are all answered -/

/-- The failure is the operation's own, and nothing was issued before it. -/
def Failure.BringsNothing (failure : Failure) : Prop :=
  failure ≠ .cancelled ∧ failure.issued = 0

theorem Failure.BringsNothing.of_create (refusal : Refusal) :
    (Failure.create refusal).BringsNothing :=
  ⟨nofun, rfl⟩

theorem Failure.AboutDuration.bringsNothing {failure : Failure}
    (about : failure.AboutDuration) : failure.BringsNothing := by
  obtain ⟨_, _, ⟨_, rfl⟩ | rfl⟩ := about <;> exact ⟨nofun, rfl⟩

/-- What cannot be judged cannot be planned for. -/
theorem evaluate_error [DurationReader] {p : Parameters} {name : String} {live : Live.Project}
    {observation : Observation} {now : Instant} {failure : Failure}
    (failed : p.evaluate name live observation now = .error failure) :
    failure.AboutDuration :=
  planTokens_error (evaluate_eq_error_iff.mp failed)

theorem Project.UpdateTrace.ne_cancelled [DurationReader] {p : Project} {steps : List Step}
    {result : Except Failure Secrets} (trace : p.UpdateTrace steps result) :
    result ≠ .error .cancelled := by
  cases trace with
  | unplanned _ failed =>
      rintro ⟨⟩
      exact (planTokens_error failed).bringsNothing.1 rfl
  | issuing => split <;> nofun
  | _ => nofun

/-- A failed update tells how many secrets it hands back. -/
theorem size_handedBack_eq_issued (failure : Failure) :
    ((handedBack? (.error failure)).getD ∅).size = failure.issued := by
  cases failure <;> rfl

section Answered

variable {p : Project} {steps : List Step} (answered : ∀ step ∈ steps, step.isAnswered)

include answered

theorem ObservePath.of_answered [DurationReader]
    {outcome : Option (Except Failure (Sighting × Project))}
    (path : ObservePath p steps outcome) :
    issuedIn steps = [] ∧ ∃ result, outcome = some result ∧
      ∀ failure, result = .error failure → failure.BringsNothing := by
  cases path with
  | unnamed _ => exact ⟨rfl, _, rfl, nofun⟩
  | unfetched _ stop => exact absurd answered stop.not_answered
  | missing _ _ => exact ⟨rfl, _, rfl, nofun⟩
  | refused _ =>
      refine ⟨rfl, _, rfl, ?_⟩
      rintro _ ⟨⟩
      exact ⟨nofun, rfl⟩
  | unjudged _ failed =>
      refine ⟨rfl, _, rfl, ?_⟩
      rintro _ ⟨⟩
      exact (evaluate_error failed).bringsNothing
  | judged _ _ => exact ⟨rfl, _, rfl, nofun⟩

theorem Project.create_of_answered {outcome : Option (Except Failure Project)}
    (path : p.create.run.Path steps outcome) :
    issuedIn steps = [] ∧ ∃ result, outcome = some result ∧
      ∀ failure, result = .error failure → failure.BringsNothing := by
  rw [Project.create] at path
  rcases Attempt.path_call_bind path with stop | ⟨answer, _, rfl, onward⟩
  · exact absurd answered stop.not_answered
  · cases answer with
    | error refusal =>
        obtain ⟨rfl, rfl⟩ := Attempt.path_done onward
        refine ⟨rfl, _, rfl, ?_⟩
        rintro _ ⟨⟩
        exact .of_create refusal
    | ok created =>
        obtain ⟨_, rfl, noted⟩ := Attempt.path_note_bind onward
        obtain ⟨rfl, rfl⟩ := Attempt.path_done noted
        refine ⟨rfl, _, rfl, ?_⟩
        rintro _ ⟨⟩

/-- **An update hands back one secret for each token that it was given**, if no
two planned keys have one text. -/
theorem Project.update_of_answered [DurationReader] {outcome : Option (Except Failure Secrets)}
    (path : p.update.run.Path steps outcome)
    (distinct : ∀ plan ∈ p.planAlong steps, (plan.keys.map TokenKey.text).Nodup) :
    ∃ result, outcome = some result ∧ result ≠ .error .cancelled ∧
      ((handedBack? result).getD ∅).size = (issuedIn steps).length := by
  obtain ⟨result, rfl, trace⟩ := Project.updateTrace_of_path path answered
  obtain ⟨hplan, hend⟩ := Project.update_secrets path
  have hown := trace.ne_cancelled
  refine ⟨result, rfl, hown, ?_⟩
  rcases hend with (hbroken | hbroken) | ⟨_, hresult, _, hfile⟩
  · cases hbroken
  · exact absurd (Option.some.inj hbroken) hown
  · cases hresult
    rw [hfile]
    have hsize := (Secrets.size_file_eq_iff (issuedIn steps) ∅).mpr
    rw [Std.ExtTreeMap.size_empty, Nat.zero_add] at hsize
    refine hsize ⟨fun _ _ => Std.ExtTreeMap.not_mem_empty, ?_⟩
    rcases hplan with hnil | ⟨plan, hplan, hsub⟩
    · rw [hnil]
      exact List.nodup_nil
    · have hnodup := (hsub.map TokenKey.text).nodup (distinct plan hplan)
      rwa [List.map_map] at hnodup

end Answered

/-! ## A pass and its parts -/

namespace Host

variable {σ : Type} (h : Host σ) (p : Project) (s : σ)

theorem settle_notExists_eq [DurationReader] : (h.settle p .notExists s).1 =
    match (h.run p.create.run s).1 with
    | some (.ok _) => .finished ⟨.notExists, .created⟩
    | some (.error failure) => .failed failure
    | none => .timedOut := by
  rw [settle, h.attempt_eq]
  rcases (h.run p.create.run s).1 with _ | _ | created <;> rfl

theorem settle_drifted_eq [DurationReader] : (h.settle p .drifted s).1 =
    match (h.run p.update.run s).1 with
    | some (.ok issued) => .finished ⟨.drifted, .updated issued.size⟩
    | some (.error failure) => .failed failure
    | none => .timedOut := by
  rw [settle, h.attempt_eq]
  rcases (h.run p.update.run s).1 with _ | _ | issued <;> rfl

end Host

theorem Failure.BringsNothing.ending {failure : Failure}
    (nothing : failure.BringsNothing) :
    (Ending.failed failure : Ending PassReport).IsOwn ∧
      (Ending.failed failure).issued = 0 :=
  ⟨Ending.isOwn_failed nothing.1, nothing.2⟩

namespace PassStart

variable {σ : Type} {h : Host σ} {x : PassStart σ} {s : σ}

section Parts

variable [DurationReader] {sighting : Sighting} {seen : Project}
  (observed : h.run x.project.observe.run x.host = (some (.ok (sighting, seen)), s))

include observed

theorem sighting?_eq : x.sighting? h = some sighting := by
  rw [sighting?, h.attempt_eq, observed]
  rfl

theorem steps_eq : x.steps h =
    h.steps x.project.observe.run x.host ++
      match sighting.state with
      | .notExists => h.steps seen.create.run s
      | .drifted => h.steps seen.update.run s
      | .upToDate | .unknown => [] := by
  rw [steps, h.attempt_eq, observed]
  rfl

theorem plan?_eq : x.plan? h =
    match sighting.state with
    | .drifted => seen.planAlong (h.steps seen.update.run s)
    | _ => none := by
  rw [plan?, h.attempt_eq, observed]
  rfl

theorem ending_eq : x.ending h = (h.settle seen sighting.state s).1 := by
  rw [ending, Host.pass, h.attempt_eq, observed]
  rfl

end Parts

section Failed

variable [DurationReader] {failure : Failure}
  (failed : h.run x.project.observe.run x.host = (some (.error failure), s))

include failed

theorem steps_eq_of_failed : x.steps h = h.steps x.project.observe.run x.host := by
  rw [steps, h.attempt_eq, failed]
  exact List.append_nil _

theorem ending_eq_of_failed : x.ending h = .failed failure := by
  rw [ending, Host.pass, h.attempt_eq, failed]
  rfl

end Failed

/-- **A pass tells how many tokens it was given**, if its calls are all answered
and no two planned keys have one text; and then it comes to an end of its own. -/
theorem of_answered [DurationReader] (answered : ∀ step ∈ x.steps h, step.isAnswered)
    (distinct : ∀ plan ∈ x.plan? h, (plan.keys.map TokenKey.text).Nodup) :
    (x.ending h).IsOwn ∧ (x.ending h).issued = (issuedIn (x.steps h)).length := by
  have hobserve : ∀ step ∈ h.steps x.project.observe.run x.host, step.isAnswered :=
    fun step hstep => answered step (List.mem_append_left _ hstep)
  obtain ⟨hnone, result, hresult, hfailure⟩ :=
    (observePath_of_path (h.path x.project.observe.run x.host)).of_answered hobserve
  generalize hs : (h.run x.project.observe.run x.host).2 = s
  have hrun : h.run x.project.observe.run x.host = (some result, s) :=
    Prod.ext hresult hs
  rcases result with failure | ⟨sighting, seen⟩
  · -- the pass has failed before it came to do anything
    rw [ending_eq_of_failed hrun, steps_eq_of_failed hrun, hnone]
    exact (hfailure failure rfl).ending
  · rw [steps_eq hrun] at answered ⊢
    rw [plan?_eq hrun] at distinct
    rw [ending_eq hrun, issuedIn, List.filterMap_append]
    change _ ∧ _ = (issuedIn _ ++ issuedIn _).length
    rw [hnone, List.nil_append]
    have hrest := fun step hstep => answered step (List.mem_append_right _ hstep)
    cases hstate : sighting.state with
    | unknown => exact ⟨Ending.isOwn_finished _, rfl⟩
    | upToDate => exact ⟨Ending.isOwn_finished _, rfl⟩
    | notExists =>
        rw [hstate] at hrest
        obtain ⟨hsteps, created, hcreated, hfailure⟩ :=
          Project.create_of_answered hrest (h.path seen.create.run s)
        rw [h.settle_notExists_eq, hcreated]
        dsimp only
        rw [hsteps]
        rcases created with failure | created
        · exact (hfailure failure rfl).ending
        · exact ⟨Ending.isOwn_finished _, rfl⟩
    | drifted =>
        rw [hstate] at hrest distinct
        obtain ⟨updated, hupdated, hown, hissued⟩ :=
          Project.update_of_answered hrest (h.path seen.update.run s) distinct
        rw [h.settle_drifted_eq, hupdated]
        dsimp only
        rw [← hissued]
        rcases updated with failure | issued
        · have hfailure : failure ≠ .cancelled := by
            rintro rfl
            exact hown rfl
          exact ⟨Ending.isOwn_failed hfailure, (size_handedBack_eq_issued failure).symm⟩
        · exact ⟨Ending.isOwn_finished _, rfl⟩

end PassStart

end Reconcile
