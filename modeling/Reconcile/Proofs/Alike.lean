import Mathlib
import Reconcile.Proofs.Session

/-!
# Blind to versions

A lifecycle operation never looks at the version of a project. It carries the
version of the project that it has fetched into the update that it sends, and
that is all. So when its calls are answered alike but for versions, it does the
same, but for the version that it sends and the tails of the secrets that it
hands on.

`Program.Alike` says this of two programs, step by step. It also tells which
versions the two may send at any time: those of the projects that they were last
given, and none once a call has written since. The relation is closed under
composition, so it is shown for every operation and holds of whole sessions.
-/

namespace Reconcile

/-! ## Alike but for versions and tails -/

/-- Which version of one run stands for which version of another. -/
abbrev Pairing : Type := String → String → Prop

/-- One project under versions that stand for each other. -/
inductive Live.Project.Alike (V : Pairing) : Live.Project → Live.Project → Prop where
  | mk (p : Live.Project) {v v' : String} (paired : V v v') :
      Alike V { p with version := v } { p with version := v' }

theorem Live.Project.alike_self (p : Live.Project) : p.Alike Eq p :=
  .mk p rfl

/-- Secrets of one request, whatever their tails. -/
def SameButTail (x y : String) : Prop :=
  ∃ t tail tail', x = ControlPlane.secretFor tail t ∧ y = ControlPlane.secretFor tail' t

/-- Under every key there are secrets of one request, or none. -/
def Secrets.Alike (x y : Secrets) : Prop :=
  ∀ key : String, Option.Rel SameButTail x[key]? y[key]?

/-- Reports that differ in the tails of secrets at most. -/
inductive Report.Alike : Report → Report → Prop where
  | same (report : Report) : Alike report report
  | issued {x y : Secrets} (secrets : x.Alike y) :
      Alike (.updated (.ok x)) (.updated (.ok y))
  | partly (failures : List TokenFailure) {x y : Secrets} (secrets : x.Alike y) :
      Alike (.updated (.error (.tokens failures x))) (.updated (.error (.tokens failures y)))

/-- Calls that differ in the version of an update at most. -/
inductive Request.Alike (V : Pairing) : Request → Request → Prop where
  | get (name : String) : Alike V (.get name) (.get name)
  | create (p : Live.Project) (upsert : Bool) : Alike V (.create p upsert) (.create p upsert)
  | update {p p' : Live.Project} (sent : p.Alike V p') : Alike V (.update p) (.update p')
  | delete (name : String) : Alike V (.delete name) (.delete name)
  | issue (t : TokenRequest) : Alike V (.issue t) (.issue t)

/-- The name that a call is about. -/
def Request.address : Request → String
  | .get name | .delete name => name
  | .create p _ | .update p => p.name
  | .issue t => t.project

/-- Answers to calls of one kind that differ in versions and tails at most. -/
inductive SameAnswers (V : Pairing) :
    (r : Request) → r.Answer → (r' : Request) → r'.Answer → Prop where
  | refused {r r' : Request} (refusal : Refusal) :
      SameAnswers V r (.error refusal) r' (.error refusal)
  | fetched {name : String} {p p' : Live.Project} (given : p.Alike V p') :
      SameAnswers V (.get name) (.ok p) (.get name) (.ok p')
  | created {sent p p' : Live.Project} {upsert : Bool} (kept : p.name = sent.name)
      (given : p.Alike V p') :
      SameAnswers V (.create sent upsert) (.ok p) (.create sent upsert) (.ok p')
  | updated {sent sent' p p' : Live.Project} (given : p.Alike V p') :
      SameAnswers V (.update sent) (.ok p) (.update sent') (.ok p')
  | deleted {name : String} : SameAnswers V (.delete name) (.ok ()) (.delete name) (.ok ())
  | issued (t : TokenRequest) (tail tail' : String) :
      SameAnswers V (.issue t) (.ok (ControlPlane.secretFor tail t))
        (.issue t) (.ok (ControlPlane.secretFor tail' t))

/-- Steps that differ in versions and tails at most. -/
inductive Step.Alike (V : Pairing) : Step → Step → Prop where
  | asked {r r' : Request} {answer : r.Answer} {answer' : r'.Answer}
      (request : r.Alike V r') (same : SameAnswers V r answer r' answer') :
      Alike V (.asked r (some answer)) (.asked r' (some answer'))
  | looked (now : Instant) : Alike V (.looked now) (.looked now)
  | noted (e : AuditEvent) : Alike V (.noted e) (.noted e)

section Mono

variable {V W : Pairing} (grown : V ≤ W)

include grown

theorem Live.Project.Alike.mono {p p' : Live.Project} (h : p.Alike V p') :
    p.Alike W p' := by
  cases h with
  | mk p paired => exact .mk p (grown _ _ paired)

theorem Request.Alike.mono {r r' : Request} (h : r.Alike V r') : r.Alike W r' := by
  cases h with
  | get name => exact .get name
  | create p upsert => exact .create p upsert
  | update sent => exact .update (sent.mono grown)
  | delete name => exact .delete name
  | issue t => exact .issue t

theorem SameAnswers.mono {r r' : Request} {answer : r.Answer} {answer' : r'.Answer}
    (h : SameAnswers V r answer r' answer') : SameAnswers W r answer r' answer' := by
  cases h with
  | refused refusal => exact .refused refusal
  | fetched given => exact .fetched (given.mono grown)
  | created kept given => exact .created kept (given.mono grown)
  | updated given => exact .updated (given.mono grown)
  | deleted => exact .deleted
  | issued t tail tail' => exact .issued t tail tail'

end Mono

theorem Request.Alike.operation_eq {V : Pairing} {r r' : Request} (h : r.Alike V r') :
    r'.operation = r.operation := by
  cases h <;> rfl

/-! ## Programs that do the same -/

namespace Program

variable {α β : Type} {name : String} {R : α → α → Prop} {κ κ' : Pairing}

/-- Two programs that make the same calls for one name, but for versions, as long
as the answers are the same but for versions and tails. The pairing tells which
versions the two may send before the next call. -/
inductive Alike (name : String) (R : α → α → Prop) :
    Pairing → Program α → Program α → Prop where
  | done {κ : Pairing} {a a' : α} (related : R a a') :
      Alike name R κ (.done a) (.done a')
  | ask {κ : Pairing} {r r' : Request} {next : Option r.Answer → Program α}
      {next' : Option r'.Answer → Program α} (request : r.Alike κ r')
      (here : r.address = name)
      (answered : ∀ κ' answer answer', SameAnswers κ' r answer r' answer' →
        Alike name R κ' (next (some answer)) (next' (some answer'))) :
      Alike name R κ (.ask r next) (.ask r' next')
  | look {κ : Pairing} {next next' : Instant → Program α}
      (looked : ∀ now, Alike name R κ (next now) (next' now)) :
      Alike name R κ (.look next) (.look next')
  | note {κ : Pairing} {e : AuditEvent} {next next' : Program α}
      (noted : Alike name R κ next next') :
      Alike name R κ (.note e next) (.note e next')

/-- **Programs that do the same, one after the other, do the same.** -/
theorem Alike.bind {S : β → β → Prop} {a a' : Program α} {f f' : α → Program β}
    (first : Alike name R κ a a')
    (rest : ∀ x x' κ', R x x' → Alike name S κ' (f x) (f' x')) :
    Alike name S κ (a.bind f) (a'.bind f') := by
  induction first with
  | done related => exact rest _ _ _ related
  | ask request here _ ih =>
      exact .ask request here fun κ' answer answer' same => ih κ' answer answer' same
  | look _ ih => exact .look ih
  | note _ ih => exact .note ih

end Program

namespace Attempt

variable {α : Type} {name : String} {R : Except Failure α → Except Failure α → Prop}
  {κ : Pairing}

theorem alike_call {r r' : Request} {f : r.Answer → Attempt α} {f' : r'.Answer → Attempt α}
    (request : r.Alike κ r') (here : r.address = name)
    (answered : ∀ κ' answer answer', SameAnswers κ' r answer r' answer' →
      Program.Alike name R κ' (f answer).run (f' answer').run) :
    Program.Alike name R κ (call r >>= f).run (call r' >>= f').run := by
  rw [run_call_bind, run_call_bind]
  exact .ask request here answered

end Attempt

/-! ## The lifecycle operations -/

theorem sameButTail_secretFor (t : TokenRequest) (tail tail' : String) :
    SameButTail (ControlPlane.secretFor tail t) (ControlPlane.secretFor tail' t) :=
  ⟨t, tail, tail', rfl, rfl⟩

theorem secretsAlike_empty : Secrets.Alike ∅ ∅ := by
  intro key
  rw [Std.ExtTreeMap.getElem?_empty]
  exact .none

theorem Secrets.Alike.insert {x y : Secrets} (h : x.Alike y) (key : String)
    {secret secret' : String} (same : SameButTail secret secret') :
    Secrets.Alike (x.insert key secret) (y.insert key secret') := by
  intro other
  rw [Std.ExtTreeMap.getElem?_insert, Std.ExtTreeMap.getElem?_insert]
  split
  · exact .some same
  · exact h other

namespace Project

open Attempt

variable {κ : Pairing} (p : Project)

/-- The versions play no part in an observation. -/
theorem alike_observe [DurationReader] :
    Program.Alike p.address (fun x y => x = y ∧ (p.leftBy x).2.address = p.address)
      κ p.observe.run p.observe.run := by
  rw [observe]
  cases named : p.externalName with
  | none => exact .done ⟨rfl, rfl⟩
  | some name =>
      refine alike_call (.get name) (address_of_named named).symm ?_
      intro κ' answer answer' same
      cases same with
      | refused refusal =>
          dsimp only
          by_cases hmissing : refusal.isNotFound = true
          · rw [if_pos hmissing]
            exact .done ⟨rfl, rfl⟩
          · rw [if_neg hmissing]
            exact .done ⟨rfl, rfl⟩
      | fetched given =>
          obtain ⟨live, _⟩ := given
          apply Program.Alike.look
          intro now
          show Program.Alike _ _ _
            (settled (p.parameters.evaluate name live live.observation now) >>= _).run
            (settled (p.parameters.evaluate name live live.observation now) >>= _).run
          cases p.parameters.evaluate name live live.observation now with
          | error failure => exact .done ⟨rfl, rfl⟩
          | ok verdict => exact .done ⟨rfl, address_seeing p live now⟩

/-- A created project has the name that it was sent under. -/
theorem alike_create :
    Program.Alike p.address
      (fun x y => x = y ∧ ∀ created, x = .ok created → created.address = p.address)
      κ p.create.run p.create.run := by
  rw [create]
  refine alike_call (.create _ false) rfl ?_
  intro κ' answer answer' same
  cases same with
  | refused refusal =>
      apply Program.Alike.done
      refine ⟨rfl, ?_⟩
      rintro _ ⟨⟩
  | created kept given =>
      obtain ⟨created, _⟩ := given
      have hname : created.name = p.address := kept
      apply Program.Alike.note
      apply Program.Alike.done
      refine ⟨rfl, ?_⟩
      rintro _ ⟨⟩
      show (p.setExternalName created.name).address = p.address
      rw [hname, address_setExternalName]

/-- Issuing tokens for one project, each secret under its key. -/
theorem alike_issueTokens {name : String} {entries : List (TokenKey × TokenRequest)}
    (here : ∀ entry ∈ entries, entry.2.project = name) {issued issued' : Secrets}
    (secrets : issued.Alike issued') (failures : List TokenFailure) :
    Program.Alike name (fun x y => Report.Alike (.updated x) (.updated y)) κ
      (issueTokens name entries issued failures).run
      (issueTokens name entries issued' failures).run := by
  induction entries generalizing issued issued' failures κ with
  | nil =>
      unfold issueTokens
      by_cases hnone : failures = []
      · rw [if_pos hnone, if_pos hnone]
        exact .done (.issued secrets)
      · rw [if_neg hnone, if_neg hnone]
        exact .done (.partly failures secrets)
  | cons entry rest ih =>
      obtain ⟨key, t⟩ := entry
      obtain ⟨ht, hrest⟩ := List.forall_mem_cons.mp here
      unfold issueTokens
      refine alike_call (.issue t) ht ?_
      intro κ' answer answer' same
      cases same with
      | refused refusal => exact ih hrest secrets _
      | issued t tail tail' =>
          apply Program.Alike.note
          exact ih hrest (secrets.insert key.text (sameButTail_secretFor t tail tail')) _

/-- An update sends the version that it has fetched, and asks for tokens of the
one project. -/
theorem alike_update [DurationReader] :
    Program.Alike p.address (fun x y => Report.Alike (.updated x) (.updated y)) κ
      p.update.run p.update.run := by
  rw [update]
  cases named : p.externalName with
  | none => exact .done (.same _)
  | some name =>
      have hname := address_of_named named
      refine alike_call (.get name) hname.symm ?_
      intro κ' answer answer' same
      cases same with
      | refused refusal => exact .done (.same _)
      | fetched given =>
          obtain ⟨live, paired⟩ := given
          apply Program.Alike.look
          intro now
          show Program.Alike _ _ _
            (settled (planTokens name p.parameters.roles live.observation now) >>= _).run
            (settled (planTokens name p.parameters.roles live.observation now) >>= _).run
          cases hplan : planTokens name p.parameters.roles live.observation now with
          | error failure => exact .done (.same _)
          | ok plan =>
              show Program.Alike _ _ _
                (settled (p.parameters.isUpToDate live live.observation now) >>= _).run
                (settled (p.parameters.isUpToDate live live.observation now) >>= _).run
              cases p.parameters.isUpToDate live live.observation now with
              | error failure => exact .done (.same _)
              | ok upToDate =>
                  refine alike_call (.update (.mk (p.updated name live) paired)) hname.symm ?_
                  intro κ'' answer answer' same
                  cases same with
                  | refused refusal => exact .done (.same _)
                  | updated given =>
                      apply Program.Alike.note
                      rw [hname]
                      refine alike_issueTokens ?_ secretsAlike_empty []
                      intro entry hentry
                      exact (ControlPlane.placed_of_planned hplan entry hentry).2.1

theorem alike_delete :
    Program.Alike p.address Eq κ p.delete.run p.delete.run := by
  rw [delete]
  cases named : p.externalName with
  | none => exact .done rfl
  | some name =>
      refine alike_call (.delete name) (address_of_named named).symm ?_
      intro κ' answer answer' same
      cases same with
      | refused refusal =>
          dsimp only
          by_cases hmissing : refusal.isNotFound = true
          · rw [if_pos hmissing]
            exact .done rfl
          · rw [if_neg hmissing]
            exact .done rfl
      | deleted => exact .note (.done rfl)

/-- What an operation ends in and what it makes of the resource. -/
def SameTurn (x y : Report × Project) : Prop :=
  x.1.Alike y.1 ∧ x.2 = y.2

theorem alike_perform [DurationReader] (task : Task) :
    Program.Alike p.address (fun x y => SameTurn x y ∧ x.2.address = p.address) κ
      (p.perform task) (p.perform task) := by
  cases task with
  | observe =>
      apply p.alike_observe.bind
      rintro result _ κ' ⟨rfl, kept⟩
      exact .done ⟨⟨.same _, rfl⟩, kept⟩
  | create =>
      apply p.alike_create.bind
      rintro result _ κ' ⟨rfl, kept⟩
      cases result with
      | error failure => exact .done ⟨⟨.same _, rfl⟩, rfl⟩
      | ok created => exact .done ⟨⟨.same _, rfl⟩, kept created rfl⟩
  | update =>
      apply p.alike_update.bind
      intro result result' κ' alike
      exact .done ⟨⟨alike, rfl⟩, rfl⟩
  | delete =>
      apply p.alike_delete.bind
      rintro result _ κ' rfl
      exact .done ⟨⟨.same _, rfl⟩, rfl⟩

/-- **A session does the same, whatever the versions and the tails.** -/
theorem alike_session [DurationReader] (tasks : List Task) :
    Program.Alike p.address (List.Forall₂ SameTurn) κ (p.session tasks)
      (p.session tasks) := by
  induction tasks generalizing p κ with
  | nil => exact .done .nil
  | cons task rest ih =>
      apply (p.alike_perform task).bind
      rintro ⟨report, left⟩ ⟨report', left'⟩ κ' ⟨⟨alike, hleft⟩, kept⟩
      dsimp only at hleft kept
      subst hleft
      rw [← kept]
      apply (ih left).bind
      intro reports reports' κ'' others
      exact .done (.cons ⟨alike, rfl⟩ others)

end Project

end Reconcile
