import Mathlib
import Reconcile.Rehearsal
import Reconcile.Proofs.Accounts
import Reconcile.Proofs.Writing

/-!
# Withdrawn work

The work may be withdrawn at any time: before a run, while a call is served,
while a note is kept, or in the pause between two passes. A withdrawal is final.
Here a whole run is laid out as a row of moments, each with the state that the
host is in, and from the first moment on that finds the work withdrawn nothing
is started any more: no call, no pass, and no deletion in the end.

The row is put together from the traces of the programs, and `Onward` says of
each part what is needed of the whole, so that parts can be joined: the work
stays withdrawn, and no moment starts anything on withdrawn work.
-/

namespace Reconcile

/-! ## The moments of a run -/

/-- What happens at a moment of a run. -/
inductive Happening where
  | opens
  | passBegins
  | step (step : Step)
  | passEnds (ending : Ending PassReport)
  | deletionBegins
  | closes

/-- Something is started: a call, a pass, or the deletion in the end. -/
def Happening.starts : Happening → Bool
  | .passBegins | .deletionBegins => true
  | .step taken => taken.isCall
  | _ => false

/-- The steps of a program's run, as moments. -/
def Host.moments {σ α : Type} (h : Host σ) (program : Program α) (s : σ) :
    List (σ × Happening) :=
  (h.trace program s).map fun moment => (moment.1, .step moment.2)

namespace PassStart

variable {σ : Type} (x : PassStart σ) (h : Host σ)

/-- The steps of a pass, as moments. -/
def moments [DurationReader] : List (σ × Happening) :=
  h.moments x.project.observe.run x.host ++
    match h.attempt x.project.observe x.host with
    | (.finished (sighting, seen), s) =>
      match sighting.state with
      | .notExists => h.moments seen.create.run s
      | .drifted => h.moments seen.update.run s
      | .upToDate | .unknown => []
    | _ => []

/-- A pass from its beginning to its end. -/
def timeline [DurationReader] : List (σ × Happening) :=
  (x.host, .passBegins) :: x.moments h ++
    [((h.pass x.project x.host).2.2, .passEnds (x.ending h))]

end PassStart

/-- A run from its opening to its close. -/
def Schedule.timeline [DurationReader]
    {σ : Type} (c : Schedule) (h : Host σ) (p : Project) (s : σ) :
    List (σ × Happening) :=
  (s, .opens) :: ((c.passesOf h p s).flatMap (·.timeline h) ++
    ((if c.reachesDeletion h p s then
        ((c.afterPasses h p s).host, .deletionBegins) ::
          h.moments (c.afterPasses h p s).project.delete.run (c.afterPasses h p s).host
      else []) ++
    [((c.run h p s).host, .closes)]))

/-! ## The steps on a timeline are those of the run -/

/-- The step that happens at a moment. -/
def Happening.step? : Happening → Option Step
  | .step taken => some taken
  | _ => none

/-- The steps on a row of moments. -/
def stepsOn {σ : Type} (row : List (σ × Happening)) : List Step :=
  row.filterMap (·.2.step?)

section StepsOn

variable {σ α : Type} {h : Host σ}

theorem stepsOn_append (row rest : List (σ × Happening)) :
    stepsOn (row ++ rest) = stepsOn row ++ stepsOn rest :=
  List.filterMap_append

theorem stepsOn_moments (program : Program α) (s : σ) :
    stepsOn (h.moments program s) = h.steps program s := by
  rw [stepsOn, Host.moments, List.filterMap_map, ← h.map_snd_trace]
  exact congrFun List.filterMap_eq_map _

theorem stepsOn_pass [DurationReader] (x : PassStart σ) : stepsOn (x.timeline h) = x.steps h := by
  have htimeline : stepsOn (x.timeline h) = stepsOn (x.moments h) ++ [] :=
    stepsOn_append (_ :: x.moments h) _
  rw [htimeline, List.append_nil, PassStart.moments, PassStart.steps, stepsOn_append,
    stepsOn_moments]
  refine congrArg (_ ++ ·) ?_
  obtain ⟨⟨sighting, seen⟩ | _ | _, s⟩ := h.attempt x.project.observe x.host
  · dsimp only
    cases sighting.state with
    | notExists => exact stepsOn_moments _ _
    | drifted => exact stepsOn_moments _ _
    | upToDate => rfl
    | unknown => rfl
  · rfl
  · rfl

/-- **The steps on the timeline of a run are the steps of the run.** -/
theorem stepsOn_timeline [DurationReader] (c : Schedule) (p : Project) (s : σ) :
    stepsOn (c.timeline h p s) = c.steps h p s := by
  have hopen : ∀ row : List (σ × Happening),
      stepsOn ((s, .opens) :: row) = stepsOn row := fun _ => rfl
  have hclose : stepsOn [((c.run h p s).host, .closes)] = [] := rfl
  have hpasses : ∀ xs : List (PassStart σ),
      stepsOn (xs.flatMap (·.timeline h)) = xs.flatMap (·.steps h) := by
    intro xs
    induction xs with
    | nil => rfl
    | cons x rest ih =>
        rw [List.flatMap_cons, List.flatMap_cons, stepsOn_append, ih, stepsOn_pass]
  rw [Schedule.timeline, Schedule.steps, hopen, stepsOn_append, stepsOn_append, hclose,
    List.append_nil, hpasses]
  refine congrArg (_ ++ ·) ?_
  split
  · exact stepsOn_moments _ _
  · rfl

end StepsOn

/-! ## Going on -/

/-- Nobody takes a withdrawal back. Nothing is asked here of the serving of a
call, since calls are not served once the work is withdrawn. -/
structure Host.StaysWithdrawn {σ : Type} (h : Host σ) : Prop where
  note : ∀ e s, h.isCancelled s = true → h.isCancelled (h.note e s) = true
  pause : ∀ n s, h.isCancelled s = true → h.isCancelled (h.pause n s) = true

/-- Along a row of moments from one state to another the work stays withdrawn
once it is, and nothing is then started. -/
inductive Onward {σ : Type} (h : Host σ) : σ → List (σ × Happening) → σ → Prop where
  | nil {s t : σ} (later : h.isCancelled s = true → h.isCancelled t = true) :
      Onward h s [] t
  | cons {s t u : σ} {happening : Happening} {rest : List (σ × Happening)}
      (later : h.isCancelled s = true → h.isCancelled t = true)
      (idle : h.isCancelled t = true → happening.starts = false)
      (onward : Onward h t rest u) : Onward h s ((t, happening) :: rest) u

namespace Onward

variable {σ : Type} {h : Host σ} {s t u : σ} {l m : List (σ × Happening)}

theorem refl (s : σ) : Onward h s [] s :=
  .nil id

/-- A row may begin earlier. -/
theorem after (earlier : h.isCancelled s = true → h.isCancelled t = true)
    (onward : Onward h t l u) : Onward h s l u := by
  cases onward with
  | nil later => exact .nil (later ∘ earlier)
  | cons later idle onward => exact .cons (later ∘ earlier) idle onward

/-- Rows are joined where the one ends and the other begins. -/
theorem append (first : Onward h s l t) (second : Onward h t m u) :
    Onward h s (l ++ m) u := by
  induction first with
  | nil later => exact second.after later
  | cons later idle _ ih => exact .cons later idle (ih second)

/-- A moment that starts nothing. -/
theorem single {happening : Happening} (idle : happening.starts = false) :
    Onward h s [(s, happening)] s :=
  .cons id (fun _ => idle) (refl s)

/-- **Nothing follows a withdrawal.** On a row that goes on, each moment from the
first on that finds the work withdrawn finds it so and starts nothing. -/
theorem quiet {before after : List (σ × Happening)} {moment : σ × Happening}
    (onward : Onward h s (before ++ moment :: after) u)
    (withdrawn : h.isCancelled moment.1 = true) :
    ∀ later ∈ moment :: after,
      h.isCancelled later.1 = true ∧ later.2.starts = false := by
  induction before generalizing s with
  | cons _ before ih =>
      cases onward with
      | cons _ _ onward => exact ih onward
  | nil =>
      rw [List.nil_append] at onward
      generalize hrow : moment :: after = row at onward
      induction onward generalizing moment after with
      | nil => cases hrow
      | cons _ idle onward ih =>
          cases hrow
          refine List.forall_mem_cons.mpr ⟨⟨withdrawn, idle withdrawn⟩, ?_⟩
          cases onward with
          | nil =>
              intro _ hmem
              cases hmem
          | cons later _ _ => exact ih (later withdrawn) rfl

end Onward

section Runs

variable {σ α : Type} {h : Host σ}

/-- **A program makes no call on withdrawn work**, whatever it goes on to do. -/
theorem onward_moments (stays : h.StaysWithdrawn) (program : Program α) (s : σ) :
    Onward h s (h.moments program s) (h.run program s).2 := by
  induction program generalizing s with
  | done a => exact .refl s
  | ask r next ih =>
      rw [Host.moments, Host.trace, Host.run]
      by_cases hc : h.isCancelled s
      · rw [if_pos hc, if_pos hc]
        exact .cons id (fun _ => rfl) (ih none s)
      · rw [if_neg hc, if_neg hc]
        -- a call is made here, since the work is still wanted
        obtain ⟨answer, s'⟩ : Option r.Answer × σ := h.serve r s
        cases answer with
        | some answer =>
            exact .cons id (absurd · hc) ((ih (some answer) s').after (absurd · hc))
        | none =>
            dsimp only
            by_cases hc' : h.isCancelled s'
            · simp only [hc', if_true]
              exact .cons id (absurd · hc) ((ih none s').after (absurd · hc))
            · simp only [hc']
              exact .cons id (absurd · hc) (.nil (absurd · hc))
  | look next ih => exact .cons id (fun _ => rfl) (ih _ s)
  | note e next ih =>
      exact .cons id (fun _ => rfl) ((ih _).after (stays.note e s))

/-- The same of the moments of a pass. -/
theorem onward_pass_moments [DurationReader] (stays : h.StaysWithdrawn) (x : PassStart σ) :
    Onward h x.host (x.moments h) (h.pass x.project x.host).2.2 := by
  have hobserve := onward_moments stays x.project.observe.run x.host
  rw [PassStart.moments, Host.pass, h.attempt_eq]
  generalize h.run x.project.observe.run x.host = observed at hobserve ⊢
  obtain ⟨_ | _ | ⟨sighting, seen⟩, s⟩ := observed
  · exact hobserve.append (.refl s)
  · exact hobserve.append (.refl s)
  · refine hobserve.append ?_
    dsimp only [Ending.ofOutcome]
    cases sighting.state with
    | notExists =>
        have hcreate := onward_moments stays seen.create.run s
        rw [Host.settle, h.attempt_eq]
        generalize h.run seen.create.run s = created at hcreate ⊢
        obtain ⟨_ | _ | _, s'⟩ := created <;> exact hcreate
    | drifted =>
        have hupdate := onward_moments stays seen.update.run s
        rw [Host.settle, h.attempt_eq]
        generalize h.run seen.update.run s = updated at hupdate ⊢
        obtain ⟨_ | _ | _, s'⟩ := updated <;> exact hupdate
    | upToDate => exact .refl s
    | unknown => exact .refl s

theorem onward_pass [DurationReader] (stays : h.StaysWithdrawn) (x : PassStart σ)
    (wanted : h.isCancelled x.host = false) :
    Onward h x.host (x.timeline h) (h.pass x.project x.host).2.2 := by
  have hc : ¬ h.isCancelled x.host = true := Bool.eq_false_iff.mp wanted
  rw [PassStart.timeline, List.cons_append]
  exact .cons id (absurd · hc) ((onward_pass_moments stays x).append (.single rfl))

end Runs

namespace Schedule

variable [DurationReader] {σ : Type} {c : Schedule} {h : Host σ}

/-- **No pass begins on withdrawn work**, and the passes go on from one to the
next. -/
theorem Goes.onward_timeline (stays : h.StaysWithdrawn) {left pass : Nat}
    {run ended : ScheduleRun σ} {xs : List (PassStart σ)}
    (goes : c.Goes h left pass run xs ended) :
    Onward h run.host (xs.flatMap (·.timeline h)) ended.host := by
  induction goes with
  | stop _ => exact .refl _
  | @last _ _ run wanted _ =>
      rw [List.flatMap_singleton]
      exact onward_pass stays ⟨run.project, run.host⟩ wanted
  | @onward _ _ run _ _ wanted _ ih =>
      rw [List.flatMap_cons]
      exact (onward_pass stays ⟨run.project, run.host⟩ wanted).append
        (ih.after (stays.pause c.interval _))

theorem onward_timeline (stays : h.StaysWithdrawn) (p : Project) (s : σ) :
    Onward h s (c.timeline h p s) (c.run h p s).host := by
  have hdeletion : Onward h (c.afterPasses h p s).host
      (if c.reachesDeletion h p s then
        ((c.afterPasses h p s).host, .deletionBegins) ::
          h.moments (c.afterPasses h p s).project.delete.run (c.afterPasses h p s).host
      else []) (c.run h p s).host := by
    change Onward h _ _ (c.finish h (c.afterPasses h p s)).host
    rw [reachesDeletion, finish]
    cases c.delete with
    | false => exact .refl _
    | true =>
        cases wanted : h.isCancelled (c.afterPasses h p s).host with
        | true => exact .refl _
        | false =>
            have hc : ¬ h.isCancelled (c.afterPasses h p s).host = true :=
              Bool.eq_false_iff.mp wanted
            have hdelete := onward_moments stays
              (c.afterPasses h p s).project.delete.run (c.afterPasses h p s).host
            rw [h.attempt_eq]
            exact .cons id (absurd · hc) hdelete
  refine .cons id (fun _ => rfl) ?_
  exact ((goes_course c.passes 1 ⟨p, s, {}, []⟩).onward_timeline stays).append
    (hdeletion.append (.single rfl))

/-- A pass that was withdrawn is the last one. -/
theorem getLast?_of_cancelled {left : Nat} {x y : PassStart σ}
    (started : y ∈ c.course h left x)
    (withdrawn : y.ending h = .failed .cancelled) :
    (c.course h left x).getLast? = some y := by
  induction left generalizing x with
  | zero => cases started
  | succ left ih =>
      cases wanted : h.isCancelled x.host with
      | true =>
          rw [course, if_pos wanted] at started
          cases started
      | false =>
          rw [course_of_wanted wanted] at started ⊢
          rcases List.mem_cons.mp started with rfl | started
          · rw [withdrawn]
            rfl
          · split at started
            · cases started
            · rename_i onward
              rw [if_neg onward, List.getLast?_cons, ih started]
              rfl

end Schedule

/-! ## Withdrawn before the first call -/

section Withdrawn

variable {σ α : Type} {h : Host σ} {s : σ} (withdrawn : h.isCancelled s = true)

include withdrawn

theorem run_call_of_withdrawn (r : Request) (f : r.Answer → Attempt α) :
    h.run (Attempt.call r >>= f).run s = (some (.error .cancelled), s) := by
  rw [Attempt.run_call_bind, Host.run, if_pos withdrawn]
  rfl

theorem steps_call_of_withdrawn (r : Request) (f : r.Answer → Attempt α) :
    h.steps (Attempt.call r >>= f).run s = [.withheld r] := by
  rw [Attempt.run_call_bind, Host.steps, if_pos withdrawn]
  rfl

/-- **A pass over withdrawn work does nothing.** It makes no call, leaves the
resource alone and ends as withdrawn. -/
theorem pass_of_withdrawn [DurationReader] (p : Project) :
    h.pass p s = (.failed .cancelled, p, s) ∧
      ∀ step ∈ PassStart.steps ⟨p, s⟩ h, step.isCall = false := by
  have withheld : ∀ r, ∀ step ∈ [Step.withheld r], step.isCall = false := by
    intro r step hstep
    rw [List.mem_singleton.mp hstep]
    rfl
  rw [Host.pass, PassStart.steps, h.attempt_eq, Project.observe]
  cases named : p.externalName with
  | none =>
      -- there is nothing to look for, and so the first call is the creation
      have hcreate : h.run p.create.run s = (some (.error .cancelled), s) :=
        run_call_of_withdrawn withdrawn _ _
      have hsteps : h.steps p.create.run s = [.withheld _] :=
        steps_call_of_withdrawn withdrawn _ _
      constructor
      · change h.settle p .notExists s = _
        rw [Host.settle, h.attempt_eq, hcreate]
        rfl
      · change ∀ step ∈ h.steps p.create.run s, step.isCall = false
        rw [hsteps]
        exact withheld _
  | some name =>
      dsimp only
      rw [run_call_of_withdrawn withdrawn, steps_call_of_withdrawn withdrawn]
      exact ⟨rfl, withheld _⟩

theorem steps_delete_of_withdrawn (p : Project) :
    ∀ step ∈ h.steps p.delete.run s, step.isCall = false := by
  rw [Project.delete]
  cases p.externalName with
  | none =>
      intro step hstep
      cases hstep
  | some name =>
      dsimp only
      rw [steps_call_of_withdrawn withdrawn]
      intro step hstep
      rw [List.mem_singleton.mp hstep]
      rfl

end Withdrawn

/-- The failure that an operation ended in, if any. -/
def Report.failure? : Report → Option Failure
  | .observed (.error failure) | .created (.error failure)
  | .updated (.error failure) | .deleted (.error failure) => some failure
  | _ => none

/-- An operation that fails writes nothing. -/
theorem eq_of_written_of_failed {p q : Project} {task : Task} {report : Report}
    (written : p.Written task report q) {failure : Failure}
    (failed : report.failure? = some failure) : q = p := by
  cases written with
  | nothing => rfl
  | seen _ _ _ => cases failed
  | named _ => cases failed

/-! ## Nothing is started any more -/

/-- A run heeds the withdrawal of its work. -/
structure Schedule.Heeds [DurationReader] {σ : Type} (c : Schedule) (h : Host σ) (p : Project)
    (s : σ) : Prop where
  /-- The timeline shows all steps of the run. -/
  steps : stepsOn (c.timeline h p s) = c.steps h p s
  /-- The passes on the timeline are the ones that the run counts. -/
  passes : (c.run h p s).summary.passes = (c.passesOf h p s).length
  /-- From the first moment on that finds the work withdrawn, it stays so, and no
  call, no pass and no deletion begins. -/
  quiet : ∀ before moment after, c.timeline h p s = before ++ moment :: after →
    h.isCancelled moment.1 = true → ∀ later ∈ moment :: after,
      h.isCancelled later.1 = true ∧ later.2.starts = false
  /-- What is withdrawn when the passes are over is not deleted. -/
  undeleted : h.isCancelled (c.afterPasses h p s).host = true →
    c.run h p s = c.afterPasses h p s
  /-- A withdrawn pass is the last one, and is not among the failures. -/
  last : ∀ x ∈ c.passesOf h p s, x.ending h = .failed .cancelled →
    (c.passesOf h p s).getLast? = some x
  failures : (c.run h p s).summary.failures =
    (((c.passesOf h p s).countP fun x => (x.ending h).isMishap) +
      if c.failsToDelete h p s then 1 else 0) % Word.limit32

/-- **Nothing is started once the work is withdrawn.** Whatever the host does and
whenever it withdraws the work, a run heeds it. This is so as well if the work is
withdrawn at the last moment, when a pass or the deletion has already begun and
has made no call: then it makes none, and the pass leaves the resource alone and
ends as withdrawn. And an operation that ends as withdrawn has written nothing to
the resource, even though it writes in place. -/
theorem nothing_starts_once_withdrawn [DurationReader] {σ : Type} (h : Host σ)
    (stays : h.StaysWithdrawn) :
    (∀ c p s, Schedule.Heeds c h p s) ∧
    (∀ p s, h.isCancelled s = true →
      h.pass p s = (.failed .cancelled, p, s) ∧
      (∀ step ∈ PassStart.steps ⟨p, s⟩ h, step.isCall = false) ∧
      ∀ step ∈ h.steps p.delete.run s, step.isCall = false) ∧
    ∀ task p s report left,
      (h.run ((Project.performInPlace task).run p) s).1 = some (report, left) →
        report.failure? = some .cancelled → left = p := by
  refine ⟨fun c p s => ?_, fun p s withdrawn => ?_, ?_⟩
  · have hbooked : (c.afterPasses h p s).summary =
        c.bookAll h 1 (c.passesOf h p s) {} := c.summary_runPasses _ _ _
    constructor
    · exact stepsOn_timeline c p s
    · rw [Schedule.summary_run, hbooked]
      exact (Schedule.passes_bookAll _ 1 {} rfl).trans (Nat.zero_add _)
    · intro before moment after hsplit withdrawn
      have onward := Schedule.onward_timeline (c := c) stays p s
      rw [hsplit] at onward
      exact onward.quiet withdrawn
    · intro withdrawn
      change c.finish h (c.afterPasses h p s) = _
      rw [Schedule.finish, withdrawn, Bool.or_true, if_pos rfl]
    · exact fun x hx withdrawn => Schedule.getLast?_of_cancelled hx withdrawn
    · exact Schedule.failures_run
  · obtain ⟨hpass, hsteps⟩ := pass_of_withdrawn withdrawn p
    exact ⟨hpass, hsteps, steps_delete_of_withdrawn withdrawn p⟩
  · intro task p s report left ran failed
    rw [Project.performInPlace_run] at ran
    exact eq_of_written_of_failed (Project.written_of_perform ran) failed

/-- A project that wants a token. -/
def drydock : Project :=
  Project.declare "shop" { roles := [{ name := "ci", tokens := [{ id := "a" }] }] }

/-- A rehearsal that withdraws the work while an update is served. -/
def drydockStage : Rehearsal where
  clock := 1700000000
  hooks := [{ operation := .update, action := .cancel }]
  tail := "x"

/-- Five passes, and a deletion in the end. -/
def fiveAndDelete : Schedule := { passes := 5, delete := true }

/-- The first pass creates the project. The second one is withdrawn while it
updates it, and neither the token is asked for nor the project deleted. -/
theorem drydock_is_left_standing :
    Rehearsal.host.StaysWithdrawn ∧
    fiveAndDelete.Heeds Rehearsal.host drydock drydockStage ∧
    (fiveAndDelete.run Rehearsal.host drydock drydockStage).summary =
      ⟨2, 0, 0, .notExists⟩ ∧
    (fiveAndDelete.steps Rehearsal.host drydock drydockStage).getLast? =
      some (.withheld (.issue { project := "shop", role := "ci", id := "a" })) := by
  have stays : Rehearsal.host.StaysWithdrawn :=
    ⟨fun _ _ withdrawn => withdrawn, fun _ _ withdrawn => withdrawn⟩
  refine ⟨stays, ?_, ?_, ?_⟩
  · exact (nothing_starts_once_withdrawn Rehearsal.host stays).1 _ _ _
  · decide +kernel
  · decide +kernel

end Reconcile
