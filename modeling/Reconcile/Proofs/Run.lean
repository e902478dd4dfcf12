import Mathlib
import Reconcile.Program

/-!
# Runs, step by step

`Host.run` tells how a program ends. `Host.steps` tells what happened on the
way: every call with its answer, every look at the clock and every note, in
order. A call that was never made because the work had been withdrawn is told
apart from a call that was made and got no answer.

A program that can fail is written with `do`. The laws of the first section
turn it into the calls it makes, so that the laws of a run apply to it.
-/

namespace Reconcile

/-! ## Programs that can fail, call by call -/

namespace Attempt

variable {α β : Type}

/-- A call goes on with its answer, and fails if it is cut short. -/
theorem run_call_bind (r : Request) (f : r.Answer → Attempt α) :
    (call r >>= f).run = .ask r fun
      | some answer => (f answer).run
      | none => .done (.error .cancelled) := by
  change Program.ask r _ = _
  congr 1
  funext answer
  cases answer <;> rfl

theorem run_now_bind (f : Instant → Attempt α) :
    (now >>= f).run = .look fun t => (f t).run := rfl

theorem run_note_bind (e : AuditEvent) (f : Unit → Attempt α) :
    (note e >>= f).run = .note e (f ()).run := rfl

theorem run_settled_bind_ok (b : β) (f : β → Attempt α) :
    (settled (.ok b) >>= f).run = (f b).run := rfl

theorem run_settled_bind_error (failure : Failure) (f : β → Attempt α) :
    (settled (.error failure) >>= f).run = .done (.error failure) := rfl

end Attempt

/-! ## The steps of a run -/

instance (r : Request) : DecidableEq r.Answer :=
  match r with
  | .get _ | .create _ _ | .update _ =>
    inferInstanceAs (DecidableEq (Except Refusal Live.Project))
  | .delete _ => inferInstanceAs (DecidableEq (Except Refusal Unit))
  | .issue _ => inferInstanceAs (DecidableEq (Except Refusal String))

/-- What happens at one step of a run. -/
inductive Step where
  /-- A call that is not made, since the work has been withdrawn. -/
  | withheld (request : Request)
  /-- A call that is made, with its answer; `none` if it stays open. -/
  | asked (request : Request) (answer : Option request.Answer)
  | looked (now : Instant)
  | noted (event : AuditEvent)
deriving DecidableEq

/-- A call that is made. -/
def Step.isCall : Step → Bool
  | .asked _ _ => true
  | _ => false

namespace Host

variable {σ α : Type} (h : Host σ)

/-- The steps of a program's run, up to its value or to the call that stays
open. -/
def steps : Program α → σ → List Step
  | .done _, _ => []
  | .ask r next, s =>
    if h.isCancelled s then .withheld r :: steps (next none) s
    else
      match h.serve r s with
      | (some answer, s) =>
        .asked r (some answer) :: steps (next (some answer)) s
      | (none, s) =>
        .asked r none :: if h.isCancelled s then steps (next none) s else []
  | .look next, s => .looked (h.clock s) :: steps (next (h.clock s)) s
  | .note e next, s => .noted e :: steps next (h.note e s)

end Host

namespace Host

variable {σ α : Type} (h : Host σ)

/-- The steps of a program's run, each with the state of the host that it was
made in. -/
def trace : Program α → σ → List (σ × Step)
  | .done _, _ => []
  | .ask r next, s =>
    if h.isCancelled s then (s, .withheld r) :: trace (next none) s
    else
      match h.serve r s with
      | (some answer, s') =>
        (s, .asked r (some answer)) :: trace (next (some answer)) s'
      | (none, s') =>
        (s, .asked r none) :: if h.isCancelled s' then trace (next none) s' else []
  | .look next, s => (s, .looked (h.clock s)) :: trace (next (h.clock s)) s
  | .note e next, s => (s, .noted e) :: trace next (h.note e s)

/-- Without the states the trace is the row of steps. -/
theorem map_snd_trace (program : Program α) (s : σ) :
    (h.trace program s).map Prod.snd = h.steps program s := by
  induction program generalizing s with
  | done a => rfl
  | ask r next ih =>
      rw [trace, steps]
      by_cases hc : h.isCancelled s
      · rw [if_pos hc, if_pos hc, List.map_cons, ih]
      · rw [if_neg hc, if_neg hc]
        obtain ⟨_ | answer, s'⟩ := h.serve r s
        · dsimp only
          by_cases hc' : h.isCancelled s'
          · simp only [hc', if_true, List.map_cons, ih]
          · simp only [hc', Bool.false_eq_true, if_false, List.map_cons, List.map_nil]
        · dsimp only
          rw [List.map_cons, ih]
  | look next ih => exact congrArg (Step.looked _ :: ·) (ih _ s)
  | note e next ih => exact congrArg (Step.noted e :: ·) (ih _)

end Host

/-! ## One program after another -/

theorem Program.bind_bind {α β γ : Type} (program : Program α) (f : α → Program β)
    (g : β → Program γ) :
    (program.bind f).bind g = program.bind fun a => (f a).bind g := by
  induction program with
  | done a => rfl
  | ask r next ih => exact congrArg (Program.ask r) (funext ih)
  | look next ih => exact congrArg Program.look (funext ih)
  | note e next ih => exact congrArg (Program.note e) ih

namespace Host

variable {σ α β : Type} (h : Host σ)

theorem run_bind (program : Program α) (next : α → Program β) (s : σ) :
    h.run (program.bind next) s =
      match h.run program s with
      | (some a, s) => h.run (next a) s
      | (none, s) => (none, s) := by
  induction program generalizing s with
  | done a => rfl
  | ask r rest ih =>
      simp only [Program.bind, run]
      by_cases hc : h.isCancelled s
      · simp only [hc, if_true]
        exact ih none s
      · simp only [hc, Bool.false_eq_true, if_false]
        obtain ⟨_ | answer, s'⟩ := h.serve r s
        · dsimp only
          by_cases hc' : h.isCancelled s'
          · simp only [hc', if_true]
            exact ih none s'
          · simp only [hc', Bool.false_eq_true, if_false]
        · exact ih (some answer) s'
  | look rest ih => exact ih _ s
  | note e rest ih => exact ih _

/-- Where one program after another comes to an end, both of them do. -/
theorem exists_of_run_bind {program : Program α} {next : α → Program β} {s : σ} {b : β}
    (ran : (h.run (program.bind next) s).1 = some b) :
    ∃ a s', h.run program s = (some a, s') ∧ (h.run (next a) s').1 = some b := by
  rw [run_bind] at ran
  generalize h.run program s = finished at ran ⊢
  obtain ⟨_ | a, s'⟩ := finished
  · cases ran
  · exact ⟨a, s', rfl, ran⟩

theorem steps_bind (program : Program α) (next : α → Program β) (s : σ) :
    h.steps (program.bind next) s = h.steps program s ++
      match h.run program s with
      | (some a, s) => h.steps (next a) s
      | (none, _) => [] := by
  induction program generalizing s with
  | done a => rfl
  | ask r rest ih =>
      simp only [Program.bind, run, steps]
      by_cases hc : h.isCancelled s
      · simp only [hc, if_true, List.cons_append]
        rw [ih none s]
      · simp only [hc, Bool.false_eq_true, if_false]
        obtain ⟨_ | answer, s'⟩ := h.serve r s
        · dsimp only
          by_cases hc' : h.isCancelled s'
          · simp only [hc', if_true, List.cons_append]
            rw [ih none s']
          · simp only [hc', Bool.false_eq_true, if_false, List.append_nil]
        · simp only [List.cons_append]
          rw [ih (some answer) s']
  | look rest ih => exact congrArg (Step.looked _ :: ·) (ih _ s)
  | note e rest ih => exact congrArg (Step.noted e :: ·) (ih _)

section Answered

variable {r : Request} {s s' : σ} {answer : r.Answer}
  (wanted : h.isCancelled s = false) (hserve : h.serve r s = (some answer, s'))

include wanted hserve

/-- A call that is answered goes on with its answer. -/
theorem run_ask (next : Option r.Answer → Program α) :
    h.run (.ask r next) s = h.run (next (some answer)) s' := by
  rw [run, hserve, wanted]
  rfl

theorem trace_ask (next : Option r.Answer → Program α) :
    h.trace (.ask r next) s = (s, .asked r (some answer)) :: h.trace (next (some answer)) s' := by
  rw [trace, hserve, wanted]
  rfl

theorem steps_ask (next : Option r.Answer → Program α) :
    h.steps (.ask r next) s = .asked r (some answer) :: h.steps (next (some answer)) s' := by
  rw [steps, hserve, wanted]
  rfl

theorem run_call_bind (f : r.Answer → Attempt α) :
    h.run (Attempt.call r >>= f).run s = h.run (f answer).run s' := by
  rw [Attempt.run_call_bind, h.run_ask wanted hserve]

end Answered

end Host

/-! ## Paths: what any host can do

A host decides nothing but the answers, the time and the moment of withdrawal.
What a program does under every host is therefore a property of its paths, and
`Host.path` carries it over to runs. -/

/-- The program can go through these steps and come to this end; the end is
missing if the last call stays open. -/
inductive Program.Path {α : Type} :
    Program α → List Step → Option α → Prop where
  | done (a : α) : Path (.done a) [] (some a)
  | withheld {r : Request} {next : Option r.Answer → Program α}
      {steps : List Step} {outcome : Option α}
      (rest : Path (next none) steps outcome) :
      Path (.ask r next) (.withheld r :: steps) outcome
  | answered {r : Request} {next : Option r.Answer → Program α}
      {steps : List Step} {outcome : Option α} (answer : r.Answer)
      (rest : Path (next (some answer)) steps outcome) :
      Path (.ask r next) (.asked r (some answer) :: steps) outcome
  | cut {r : Request} {next : Option r.Answer → Program α}
      {steps : List Step} {outcome : Option α}
      (rest : Path (next none) steps outcome) :
      Path (.ask r next) (.asked r none :: steps) outcome
  | stalled {r : Request} {next : Option r.Answer → Program α} :
      Path (.ask r next) [.asked r none] none
  | looked {next : Instant → Program α}
      {steps : List Step} {outcome : Option α} (now : Instant)
      (rest : Path (next now) steps outcome) :
      Path (.look next) (.looked now :: steps) outcome
  | noted {e : AuditEvent} {next : Program α}
      {steps : List Step} {outcome : Option α}
      (rest : Path next steps outcome) :
      Path (.note e next) (.noted e :: steps) outcome

/-- **Every run follows a path.** Its steps and its end are a path of the
program, whoever the host is. -/
theorem Host.path {σ α : Type} (h : Host σ) (program : Program α) (s : σ) :
    program.Path (h.steps program s) (h.run program s).1 := by
  induction program generalizing s with
  | done a => exact .done a
  | ask r next ih =>
      rw [Host.steps, Host.run]
      by_cases hc : h.isCancelled s
      · rw [if_pos hc, if_pos hc]
        exact .withheld (ih none s)
      · rw [if_neg hc, if_neg hc]
        obtain ⟨answer, s'⟩ : Option r.Answer × σ := h.serve r s
        cases answer with
        | some answer => exact .answered answer (ih (some answer) s')
        | none =>
            by_cases hc' : h.isCancelled s'
            · simp only [hc', if_true]
              exact .cut (ih none s')
            · simp only [hc']
              exact .stalled
  | look next ih => exact .looked _ (ih _ s)
  | note e next ih => exact .noted (ih _)

/-! ## Paths of programs that can fail -/

/-- The run ends at a call that is not answered: the call is cut short, or it
stays open for ever. -/
def Interrupted {α : Type} (r : Request) (steps : List Step)
    (outcome : Option (Except Failure α)) : Prop :=
  (steps = [.withheld r] ∧ outcome = some (.error .cancelled)) ∨
  (steps = [.asked r none] ∧
    (outcome = some (.error .cancelled) ∨ outcome = none))

theorem Interrupted.outcome_eq {α : Type} {r : Request} {steps : List Step}
    {outcome : Option (Except Failure α)} (h : Interrupted r steps outcome) :
    outcome = none ∨ outcome = some (.error .cancelled) := by
  rcases h with ⟨_, h⟩ | ⟨_, h | h⟩
  · exact Or.inr h
  · exact Or.inr h
  · exact Or.inl h

theorem Interrupted.result_eq {α : Type} {r : Request} {steps : List Step}
    {result : Except Failure α} (h : Interrupted r steps (some result)) :
    result = .error .cancelled := by
  rcases h.outcome_eq with hnone | hcut
  · cases hnone
  · exact Option.some.inj hcut

/-- A run that ends at a call makes it at most once. -/
theorem Interrupted.calls_eq {α : Type} {r : Request} {steps : List Step}
    {outcome : Option (Except Failure α)} (h : Interrupted r steps outcome) :
    steps.filter Step.isCall = [] ∨ steps.filter Step.isCall = [.asked r none] := by
  rcases h with ⟨rfl, _⟩ | ⟨rfl, _⟩
  · exact Or.inl rfl
  · exact Or.inr rfl

namespace Attempt

variable {α β : Type} {steps : List Step} {outcome : Option (Except Failure α)}

theorem path_done {result : Except Failure α}
    (path : (Program.done result).Path steps outcome) :
    steps = [] ∧ outcome = some result := by
  cases path
  exact ⟨rfl, rfl⟩

/-- A call is either answered, and the run goes on, or the run ends there. -/
theorem path_call_bind {r : Request} {f : r.Answer → Attempt α}
    (path : (call r >>= f).run.Path steps outcome) :
    Interrupted r steps outcome ∨
      ∃ answer rest, steps = .asked r (some answer) :: rest ∧
        (f answer).run.Path rest outcome := by
  rw [run_call_bind] at path
  cases path with
  | withheld rest =>
      obtain ⟨rfl, rfl⟩ := path_done rest
      exact Or.inl (Or.inl ⟨rfl, rfl⟩)
  | answered answer rest => exact Or.inr ⟨answer, _, rfl, rest⟩
  | cut rest =>
      obtain ⟨rfl, rfl⟩ := path_done rest
      exact Or.inl (Or.inr ⟨rfl, Or.inl rfl⟩)
  | stalled => exact Or.inl (Or.inr ⟨rfl, Or.inr rfl⟩)

theorem path_now_bind {f : Instant → Attempt α}
    (path : (now >>= f).run.Path steps outcome) :
    ∃ t rest, steps = .looked t :: rest ∧ (f t).run.Path rest outcome := by
  rw [run_now_bind] at path
  cases path with
  | looked t rest => exact ⟨t, _, rfl, rest⟩

theorem path_note_bind {e : AuditEvent} {f : Unit → Attempt α}
    (path : (note e >>= f).run.Path steps outcome) :
    ∃ rest, steps = .noted e :: rest ∧ (f ()).run.Path rest outcome := by
  rw [run_note_bind] at path
  cases path with
  | noted rest => exact ⟨_, rfl, rest⟩

/-- What has been worked out takes no step; a failure of it ends the run. -/
theorem path_settled_bind {a : Except Failure β} {f : β → Attempt α}
    (path : (settled a >>= f).run.Path steps outcome) :
    (∃ failure, a = .error failure ∧ steps = [] ∧
      outcome = some (.error failure)) ∨
      ∃ b, a = .ok b ∧ (f b).run.Path steps outcome := by
  cases a with
  | error failure =>
      rw [run_settled_bind_error] at path
      exact Or.inl ⟨failure, rfl, path_done path⟩
  | ok b => exact Or.inr ⟨b, rfl, path⟩

end Attempt

end Reconcile
