import Mathlib
import Reconcile.Proofs.Twins

/-!
# Resources do not interfere

Two resources are for projects of different names. A session is performed on one
of them, beside a session on the other, against one control plane that serves one
call after the other. All that a program does between two of its calls, it does
by itself, so an interleaving is told by how many calls of the other program come
before each call of this one, and after the last.

What the session does and what it leaves behind is what it would have done alone,
but for the versions, since these are counted for all projects together, and for
the tails of secrets. One step of the other session leaves the two control planes
twins, since it is about another name. One call of this session is answered alike
by twins. The whole run follows by induction on the session as a program that is
blind to versions.
-/

namespace Reconcile

/-- A call writes no project but the one that it is about. -/
theorem Request.address_of_target {r : Request} {name : String}
    (h : r.target = some name) : r.address = name := by
  cases r <;> cases h <;> rfl

/-! ## A control plane shared by two programs -/

/-- A control plane with another program that uses it, and how many calls this
one makes before each of the following calls. -/
structure Shared (β : Type) where
  plane : ControlPlane
  other : Program β
  gaps : List Nat

namespace ControlPlane

section Hosts

variable {β : Type} (now : Instant) (tail : ControlPlane → String)

/-- A program goes on up to its next call, if there is one, and has it served. -/
def advance : Program β → ControlPlane → Program β × ControlPlane
  | .done b, cp => (.done b, cp)
  | .ask r next, cp =>
    let (answer, cp') := cp.serve ⟨now.seconds, tail cp⟩ r
    (next (some answer), cp')
  | .look next, cp => advance (next now) cp
  | .note _ next, cp => advance next cp

/-- The other program makes its next call. -/
def turn (s : Shared β) : Shared β :=
  let (other, plane) := advance now tail s.other s.plane
  { s with other, plane }

/-- A control plane that serves one program beside another, at a time that does
not pass. Before each call the other program makes as many as the gaps tell. -/
def beside : Host (Shared β) where
  isCancelled _ := false
  clock _ := now
  serve r s :=
    let met := (turn now tail)^[s.gaps.headD 0] s
    let (answer, plane) := met.plane.serve ⟨now.seconds, tail met.plane⟩ r
    (some answer, { met with plane, gaps := s.gaps.tail })
  note _ s := s
  pause _ s := s

end Hosts

/-! ## The other program -/

/-- A project that is created has the name that it was sent under, and a secret is
one of its request. -/
theorem Performed.sameAnswers {cp cp' : ControlPlane} {m : Moment} {r : Request}
    {answer : r.Answer} (h : cp.Performed m r answer cp') :
    SameAnswers Eq r answer r answer := by
  cases h with
  | refused r refusal => exact .refused refusal
  | found held => exact .fetched (Live.Project.alike_self _)
  | created free => exact .created rfl (Live.Project.alike_self _)
  | updated held current => exact .updated (Live.Project.alike_self _)
  | deleted held => exact .deleted
  | unplaced t refusal => exact .refused refusal
  | issued held placed => exact .issued _ m.tail m.tail

section Other

variable {β : Type} (now : Instant) (tail : ControlPlane → String) {name away : String}
  {R : β → β → Prop} {κ : Pairing}

/-- **A program for another name leaves the project alone**, and goes on being
for the other name. -/
theorem advance_away (apart : away ≠ name) {b : Program β}
    (alike : Program.Alike away R κ b b) (cp : ControlPlane) :
    (∃ κ', Program.Alike away R κ' (advance now tail b cp).1 (advance now tail b cp).1) ∧
      cp.SameFaults (advance now tail b cp).2 ∧
      (advance now tail b cp).2.project? name = cp.project? name ∧
      cp.version ≤ (advance now tail b cp).2.version := by
  induction b generalizing κ with
  | done b => exact ⟨⟨κ, alike⟩, .refl cp, rfl, le_rfl⟩
  | ask r next _ =>
      cases alike with
      | ask _ here answered =>
          have same := (cp.served ⟨now.seconds, tail cp⟩ r).sameAnswers
          have faults := cp.sameFaults_serve ⟨now.seconds, tail cp⟩ r
          have change := cp.change_serve ⟨now.seconds, tail cp⟩ r
          refine ⟨⟨Eq, answered Eq _ _ same⟩, faults, change.project?_eq ?_,
            change.version_le⟩
          intro hwritten
          rw [writtenBy, Option.ite_none_right_eq_some] at hwritten
          exact apart (here.symm.trans (Request.address_of_target hwritten.2))
  | look next ih =>
      cases alike with
      | look looked => exact ih now (looked now)
  | note e next ih =>
      cases alike with
      | note noted => exact ih noted

/-- What a control plane alone and one beside another program have in common: they
are twins, and the other program is for another name. -/
structure Abreast (name away : String) (R : β → β → Prop) (V : Pairing)
    (c : ControlPlane) (s : Shared β) : Prop where
  twins : Twins name V c s.plane
  elsewhere : ∃ κ, Program.Alike away R κ s.other s.other

variable {V : Pairing} {c : ControlPlane} {s : Shared β}

/-- However many calls the other program makes, it leaves the two abreast and the
project as it was. -/
theorem Abreast.turns (h : Abreast name away R V c s) (apart : away ≠ name) (k : Nat) :
    Abreast name away R V c ((turn now tail)^[k] s) ∧
      ((turn now tail)^[k] s).plane.project? name = s.plane.project? name := by
  induction k generalizing s with
  | zero => exact ⟨h, rfl⟩
  | succ k ih =>
      obtain ⟨κ, alike⟩ := h.elsewhere
      obtain ⟨elsewhere, faults, hproject, hversion⟩ :=
        advance_away now tail apart alike s.plane
      have hnext : Abreast name away R V c (turn now tail s) := by
        refine ⟨h.twins.kept (h.twins.faults.trans faults) ?_ le_rfl hversion, elsewhere⟩
        have stored := h.twins.stored
        rw [← hproject] at stored
        exact stored
      obtain ⟨hlast, hsame⟩ := ih hnext
      exact ⟨hlast, hsame.trans hproject⟩

end Other

/-! ## Two runs side by side -/

/-- The project of the name is the same in both but for the version, and stays so
however many calls the other program makes. -/
def SameProject {β : Type} (now : Instant) (tail : ControlPlane → String) (name : String)
    (V : Pairing) (c : ControlPlane) (s : Shared β) : Prop :=
  ∀ k, Option.Rel (Live.Project.Alike V) (c.project? name)
    (((turn now tail)^[k] s).plane.project? name)

/-- A step of either run, and the control planes that it is made in. -/
def SameStep {β : Type} (now : Instant) (tail : ControlPlane → String) (name : String)
    (V : Pairing) (x : ControlPlane × Step) (y : Shared β × Step) : Prop :=
  SameProject now tail name V x.1 y.1 ∧ x.2.Alike V y.2

section Runs

variable {α β : Type} {now : Instant} {tail tail' : ControlPlane → String}
  {name away : String} {R : α → α → Prop} {S : β → β → Prop} {κ V W : Pairing}
  {c : ControlPlane} {s : Shared β}

theorem SameProject.mono (grown : V ≤ W) (h : SameProject now tail name V c s) :
    SameProject now tail name W c s := by
  intro k
  have hk := h k
  generalize c.project? name = x at hk ⊢
  generalize ((turn now tail)^[k] s).plane.project? name = y at hk ⊢
  cases hk with
  | none => exact .none
  | some alike => exact .some (alike.mono grown)

theorem Abreast.sameProject (h : Abreast name away S V c s) (apart : away ≠ name) :
    SameProject now tail name V c s :=
  fun k => (h.turns now tail apart k).1.twins.stored

section Running

variable (now tail tail')

/-- **A call is answered alike**, once the other program has made its calls. The
pairing may have grown, and the versions that were given are current. -/
theorem Abreast.serve (h : Abreast name away S V c s) (apart : away ≠ name)
    {r r' : Request} (request : r.Alike κ r') (here : r.address = name)
    (sent : κ ≤ current name c s.plane) :
    ∃ W answer answer' c' s', V ≤ W ∧
      (undisturbed now tail).serve r c = (some answer, c') ∧
      (beside now tail').serve r' s = (some answer', s') ∧
      Abreast name away S W c' s' ∧ r.Alike W r' ∧
      SameAnswers (current name c' s'.plane) r answer r' answer' := by
  let met := (turn now tail')^[s.gaps.headD 0] s
  obtain ⟨hmet, hproject⟩ := h.turns now tail' apart (s.gaps.headD 0)
  -- the version that is sent is current still
  have hcurrent : κ ≤ current name c met.plane := by
    intro v v' paired
    obtain ⟨hv, hv'⟩ := sent v v' paired
    exact ⟨hv, hproject ▸ hv'⟩
  have served : ServedAlike name V r r' (c.serve ⟨now.seconds, tail c⟩ r)
      (met.plane.serve ⟨now.seconds, tail' met.plane⟩ r') :=
    hmet.twins.serve (request.mono hcurrent) here rfl
  obtain ⟨W, grown, twins, same⟩ := served
  have hpaired : κ ≤ W := (hcurrent.trans hmet.twins.current_le).trans grown
  exact ⟨W, _, _, _, _, grown, rfl, rfl, ⟨twins, hmet.elsewhere⟩, request.mono hpaired, same⟩

/-- **Programs that do the same run alike**, the one alone and the other beside a
program for another name. -/
theorem Abreast.run (apart : away ≠ name) {a a' : Program α}
    (alike : Program.Alike name R κ a a') (h : Abreast name away S V c s)
    (sent : κ ≤ current name c s.plane) :
    ∃ W x x' c' s', V ≤ W ∧ (undisturbed now tail).run a c = (some x, c') ∧
      (beside now tail').run a' s = (some x', s') ∧ R x x' ∧
      Abreast name away S W c' s' ∧
      List.Forall₂ (SameStep now tail' name W) ((undisturbed now tail).trace a c)
        ((beside now tail').trace a' s) := by
  induction alike generalizing V c s with
  | done related => exact ⟨V, _, _, c, s, le_rfl, rfl, rfl, related, h, .nil⟩
  | ask request here _ ih =>
      obtain ⟨W, answer, answer', c₁, s₁, grown, hserve, hserve', h₁, asked, same⟩ :=
        h.serve now tail tail' apart request here sent
      obtain ⟨X, x, x', c', s', more, hrun, hrun', related, hend, hsteps⟩ :=
        ih _ answer answer' same h₁ le_rfl
      rw [Host.run_ask _ rfl hserve, Host.run_ask _ rfl hserve',
        Host.trace_ask _ rfl hserve, Host.trace_ask _ rfl hserve']
      refine ⟨X, x, x', c', s', grown.trans more, hrun, hrun', related, hend,
        .cons ⟨(h.sameProject apart).mono (grown.trans more), ?_⟩ hsteps⟩
      exact .asked (asked.mono more) (same.mono (h₁.twins.current_le.trans more))
  | look _ ih =>
      obtain ⟨W, x, x', c', s', grown, hrun, hrun', related, hend, hsteps⟩ := ih now h sent
      exact ⟨W, x, x', c', s', grown, hrun, hrun', related, hend,
        .cons ⟨(h.sameProject apart).mono grown, .looked now⟩ hsteps⟩
  | @note κ e _ _ _ ih =>
      obtain ⟨W, x, x', c', s', grown, hrun, hrun', related, hend, hsteps⟩ := ih h sent
      exact ⟨W, x, x', c', s', grown, hrun, hrun', related, hend,
        .cons ⟨(h.sameProject apart).mono grown, .noted e⟩ hsteps⟩

end Running

end Runs

/-! ## Sessions of two resources -/

/-- A control plane is its own twin. -/
theorem twins_standing (events : List Event) (n : Nat) (name : String) :
    ∃ V, Twins name V (standing events n) (standing events n) := by
  refine ⟨fun v v' => v = v' ∧ ∃ p, (standing events n).project? name = some p ∧ p.version = v,
    .refl _, ?_, ?_, ?_, ?_⟩
  · cases held : (standing events n).project? name with
    | none => exact .none
    | some p => exact .some (.mk p ⟨rfl, p, rfl, rfl⟩)
  · rintro v _ ⟨rfl, p, held, rfl⟩
    obtain ⟨k, _, hcounted, hversion⟩ := (writtenSince_zero events n name).later p held
    exact ⟨⟨k, hcounted, hversion⟩, k, hcounted, hversion⟩
  · rintro a b c ⟨rfl, _⟩ ⟨rfl, _⟩
    rfl
  · rintro a b c ⟨rfl, _⟩ ⟨rfl, _⟩
    rfl

/-- **Resources do not interfere.** A session is performed on a resource, once
alone and once beside any session on a resource of another address, from any
control plane that has come about, at a time that does not pass. However the calls
of the two sessions are interleaved, both runs end, and they are alike: the same
operations end in the same, with the same resource after each of them; the same
calls are made and answered; and at every step and in the end the same project is
stored, however many calls the other session goes on to make. The tails of secrets
may differ, and so may versions, though two versions are one in the one run just
when they are one in the other. -/
theorem resources_do_not_interfere [DurationReader] (events : List Event) (n : Nat) (now : Instant)
    (tail tail' : ControlPlane → String) (p q : Project) (tasks others : List Task)
    (gaps : List Nat) (apart : p.address ≠ q.address) :
    ∃ V reports reports' cp s, Relator.BiUnique V ∧
      (undisturbed now tail).run (p.session tasks) (standing events n) =
        (some reports, cp) ∧
      (beside now tail').run (p.session tasks)
        ⟨standing events n, q.session others, gaps⟩ = (some reports', s) ∧
      List.Forall₂ Project.SameTurn reports reports' ∧
      List.Forall₂ (SameStep now tail' p.address V)
        ((undisturbed now tail).trace (p.session tasks) (standing events n))
        ((beside now tail').trace (p.session tasks)
          ⟨standing events n, q.session others, gaps⟩) ∧
      SameProject now tail' p.address V cp s := by
  obtain ⟨V, twins⟩ := twins_standing events n p.address
  have start : Abreast p.address q.address (List.Forall₂ Project.SameTurn) V
      (standing events n) ⟨standing events n, q.session others, gaps⟩ :=
    ⟨twins, ⊥, q.alike_session others⟩
  obtain ⟨W, reports, reports', cp, s, _, hrun, hrun', related, hend, hsteps⟩ :=
    start.run now tail tail' apart.symm (p.alike_session tasks) bot_le
  exact ⟨W, reports, reports', cp, s, hend.twins.oneToOne, hrun, hrun', related, hsteps,
    hend.sameProject apart.symm⟩

/-- A resource with one role and one token. -/
def berth (name : String) : Project :=
  Project.declare name { roles := [{ name := "crane", tokens := [{ id := "lift" }] }] }

/-- Between the calls for the one berth the other is created, and later deleted
again. In the end the project of the first is stored under another version than
it would have been alone. -/
theorem resources_do_not_interfere_at_berths :
    ∃ V reports reports' cp s, Relator.BiUnique V ∧
      (undisturbed .epoch fun _ => "x").run
        ((berth "east").session [.create, .observe, .update, .observe]) {} =
          (some reports, cp) ∧
      (beside .epoch fun _ => "y").run
        ((berth "east").session [.create, .observe, .update, .observe])
        ⟨{}, (berth "west").session [.create, .update, .delete], [1, 0, 3, 0, 1]⟩ =
          (some reports', s) ∧
      List.Forall₂ Project.SameTurn reports reports' ∧ V "3" "6" ∧
      (cp.project? "east").map (·.version) = some "3" ∧
      (s.plane.project? "east").map (·.version) = some "6" := by
  have apart : (berth "east").address ≠ (berth "west").address := by decide +kernel
  obtain ⟨V, reports, reports', cp, s, oneToOne, hrun, hrun', alike, _, hend⟩ :=
    resources_do_not_interfere [] 0 .epoch (fun _ => "x") (fun _ => "y") (berth "east")
      (berth "west") [.create, .observe, .update, .observe] [.create, .update, .delete]
      [1, 0, 3, 0, 1] apart
  have hcp : (((undisturbed .epoch fun _ => "x").run
      ((berth "east").session [.create, .observe, .update, .observe])
      (standing [] 0)).2.project? "east").map (·.version) = some "3" := by decide +kernel
  have hs : (((beside .epoch fun _ => "y").run
      ((berth "east").session [.create, .observe, .update, .observe])
      ⟨standing [] 0, (berth "west").session [.create, .update, .delete],
        [1, 0, 3, 0, 1]⟩).2.plane.project? "east").map (·.version) = some "6" := by
    decide +kernel
  rw [hrun] at hcp
  rw [hrun'] at hs
  have hpaired : V "3" "6" := by
    have stored : Option.Rel (Live.Project.Alike V) (cp.project? "east")
      (s.plane.project? "east") := hend 0
    generalize cp.project? "east" = x at stored hcp
    generalize s.plane.project? "east" = y at stored hs
    cases stored with
    | none => cases hcp
    | some alike =>
        obtain ⟨p, paired⟩ := alike
        cases hcp
        cases hs
        exact paired
  exact ⟨V, reports, reports', cp, s, oneToOne, hrun, hrun', alike, hpaired, hcp, hs⟩

end ControlPlane

end Reconcile
