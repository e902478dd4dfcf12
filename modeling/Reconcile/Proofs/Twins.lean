import Mathlib
import Reconcile.Proofs.Alike
import Reconcile.Proofs.Storing

/-!
# Two control planes that hold the same project

Two control planes have seen different calls, and have counted different
versions. Under one name they hold the same project all the same, and what is set
to fail is the same in both. `ControlPlane.Twins` says so, with the pairing of the
versions that the project has had in the two.

A call for the name that sends the current version is then answered alike by
both, and leaves twins behind. A project that is stored gets a version that is
new on both sides, so the pairing grows by one pair and stays one to one.
-/

namespace Reconcile

/-! ## Pairings that grow -/

/-- The pairing with one more pair. -/
def Pairing.extend (V : Pairing) (v v' : String) : Pairing :=
  fun w w' => V w w' ∨ (w = v ∧ w' = v')

/-- The pairs are numbers that have been counted on either side. -/
def Pairing.CountedTo (V : Pairing) (m m' : Nat) : Prop :=
  ∀ v v', V v v' → (∃ k ≤ m, v = toString k) ∧ ∃ k ≤ m', v' = toString k

namespace Pairing

variable {V : Pairing} {m m' n n' : Nat}

theorem le_extend (V : Pairing) (v v' : String) : V ≤ V.extend v v' :=
  fun _ _ paired => Or.inl paired

theorem toString_ne_of_lt (h : m < n) : toString m ≠ toString n := by
  intro heq
  exact absurd (Nat.repr_inj.mp heq) (Nat.ne_of_lt h)

theorem CountedTo.mono (h : V.CountedTo m m') (hle : m ≤ n) (hle' : m' ≤ n') :
    V.CountedTo n n' := by
  intro v v' paired
  obtain ⟨⟨k, hk, rfl⟩, k', hk', rfl⟩ := h v v' paired
  exact ⟨⟨k, hk.trans hle, rfl⟩, k', hk'.trans hle', rfl⟩

theorem CountedTo.next (h : V.CountedTo m m') :
    (V.extend (toString (m + 1)) (toString (m' + 1))).CountedTo (m + 1) (m' + 1) := by
  rintro v v' (paired | ⟨rfl, rfl⟩)
  · exact h.mono (Nat.le_succ m) (Nat.le_succ m') v v' paired
  · exact ⟨⟨m + 1, le_rfl, rfl⟩, m' + 1, le_rfl, rfl⟩

/-- **The next versions are new on both sides**, so they can be paired. -/
theorem CountedTo.biUnique_next (h : V.CountedTo m m') (oneToOne : Relator.BiUnique V) :
    Relator.BiUnique (V.extend (toString (m + 1)) (toString (m' + 1))) := by
  have hleft : ∀ v', ¬ V (toString (m + 1)) v' := by
    intro v' paired
    obtain ⟨⟨k, hk, heq⟩, _⟩ := h _ _ paired
    exact toString_ne_of_lt (Nat.lt_succ_of_le hk) heq.symm
  have hright : ∀ v, ¬ V v (toString (m' + 1)) := by
    intro v paired
    obtain ⟨_, k, hk, heq⟩ := h _ _ paired
    exact toString_ne_of_lt (Nat.lt_succ_of_le hk) heq.symm
  constructor
  · rintro a b c (ha | ⟨rfl, rfl⟩) (hb | ⟨rfl, hc⟩)
    · exact oneToOne.1 ha hb
    · subst hc
      exact absurd ha (hright a)
    · exact absurd hb (hright b)
    · rfl
  · rintro a b c (hb | ⟨rfl, rfl⟩) (hc | ⟨ha, rfl⟩)
    · exact oneToOne.2 hb hc
    · subst ha
      exact absurd hb (hleft b)
    · exact absurd hc (hleft c)
    · rfl

end Pairing

namespace ControlPlane

/-! ## Twins -/

/-- What is set to fail is the same in both. Under the name they hold the same
project, or none, under versions of the pairing. The pairing is one to one, and
its versions have been counted. -/
structure Twins (name : String) (V : Pairing) (c d : ControlPlane) : Prop where
  faults : c.SameFaults d
  stored : Option.Rel (Live.Project.Alike V) (c.project? name) (d.project? name)
  counted : V.CountedTo c.version d.version
  oneToOne : Relator.BiUnique V

/-- The versions under which the two hold the project now. -/
def current (name : String) (c d : ControlPlane) : Pairing := fun v v' =>
  (c.project? name).map (·.version) = some v ∧ (d.project? name).map (·.version) = some v'

/-- Two ways to serve a call that answer alike and leave twins. The pairing may
have grown. -/
def ServedAlike (name : String) (V : Pairing) (r r' : Request) (x : r.Answer × ControlPlane)
    (y : r'.Answer × ControlPlane) : Prop :=
  ∃ W, V ≤ W ∧ Twins name W x.2 y.2 ∧ SameAnswers (current name x.2 y.2) r x.1 r' y.1

section Twins

variable {name : String} {V : Pairing} {c c' d d' : ControlPlane} {r r' : Request}
  {m m' : Moment}

/-- Both hold nothing, or both hold the same under paired versions. -/
theorem Twins.stored_cases (twins : Twins name V c d) :
    (c.project? name = none ∧ d.project? name = none) ∨
    ∃ (p : Live.Project) (v v' : String), V v v' ∧
      c.project? name = some { p with version := v } ∧
      d.project? name = some { p with version := v' } := by
  have stored := twins.stored
  generalize c.project? name = x at stored ⊢
  generalize d.project? name = y at stored ⊢
  cases stored with
  | none => exact Or.inl ⟨rfl, rfl⟩
  | some alike =>
      obtain ⟨p, paired⟩ := alike
      exact Or.inr ⟨p, _, _, paired, rfl, rfl⟩

/-- What is held now has been paired. -/
theorem Twins.current_le (twins : Twins name V c d) : current name c d ≤ V := by
  rintro v v' ⟨hv, hv'⟩
  rcases twins.stored_cases with ⟨hc, _⟩ | ⟨p, w, w', paired, hc, hd⟩
  · rw [hc] at hv
    cases hv
  · rw [hc] at hv
    rw [hd] at hv'
    cases hv
    cases hv'
    exact paired

/-- Twins stay twins as long as they hold the same of the old versions. -/
theorem Twins.kept (twins : Twins name V c d) (faults : c'.SameFaults d')
    (stored : Option.Rel (Live.Project.Alike V) (c'.project? name) (d'.project? name))
    (hc : c.version ≤ c'.version) (hd : d.version ≤ d'.version) :
    Twins name V c' d' :=
  ⟨faults, stored, twins.counted.mono hc hd, twins.oneToOne⟩

theorem Twins.recorded (twins : Twins name V c d) (r r' : Request) :
    Twins name V (c.recorded r) (d.recorded r') :=
  twins.kept ⟨twins.faults.failures, twins.faults.tokenFailures⟩ twins.stored le_rfl le_rfl

/-- A project that both hold is held under the current versions. -/
theorem alike_current {p : Live.Project} {v v' : String}
    (hc : c.project? name = some { p with version := v })
    (hd : d.project? name = some { p with version := v' }) :
    Live.Project.Alike (current name c d) { p with version := v } { p with version := v' } :=
  .mk p ⟨by rw [hc]; rfl, by rw [hd]; rfl⟩

theorem ServedAlike.of_left {answer : r.Answer} {answer' : r'.Answer}
    (left : ∃ W, V ≤ W ∧ Twins name W c d)
    (same : SameAnswers (current name c d) r answer r' answer') :
    ServedAlike name V r r' (answer, c) (answer', d) := by
  obtain ⟨W, grown, twins⟩ := left
  exact ⟨W, grown, twins, same⟩

/-- A refusal leaves everything as it was. -/
theorem Twins.refused (twins : Twins name V c d) (refusal : Refusal) :
    ServedAlike name V r r' (.error refusal, c) (.error refusal, d) :=
  .of_left ⟨V, le_rfl, twins⟩ (.refused refusal)

/-- **A project that both store gets a version that is new to both.** -/
theorem Twins.written (twins : Twins name V c d) (p : Live.Project)
    (faults : c'.SameFaults d')
    (hc : c'.project? name = some { p with version := toString (c.version + 1) })
    (hd : d'.project? name = some { p with version := toString (d.version + 1) })
    (counted : c'.version = c.version + 1) (counted' : d'.version = d.version + 1) :
    ∃ W, V ≤ W ∧ Twins name W c' d' := by
  refine ⟨V.extend _ _, V.le_extend _ _, faults, ?_, ?_,
    twins.counted.biUnique_next twins.oneToOne⟩
  · rw [hc, hd]
    exact .some (.mk p (Or.inr ⟨rfl, rfl⟩))
  · rw [counted, counted']
    exact twins.counted.next

/-! ## Single calls -/

/-- One project, sent to be stored under any versions. -/
theorem Twins.store (twins : Twins name V c d) (p : Live.Project) (v v' : String)
    (here : p.name = name) :
    ∃ W, V ≤ W ∧
      Twins name W (c.store { p with version := v }).2 (d.store { p with version := v' }).2 :=
  twins.written p.reindex ⟨twins.faults.failures, twins.faults.tokenFailures⟩
    (here ▸ c.project?_store { p with version := v })
    (here ▸ d.project?_store { p with version := v' }) rfl rfl

theorem Twins.get (twins : Twins name V c d) :
    ServedAlike name V (.get name) (.get name) (c.perform m (.get name))
      (d.perform m' (.get name)) := by
  rcases twins.stored_cases with ⟨hc, hd⟩ | ⟨p, v, v', _, hc, hd⟩
  · simp only [perform, hc, hd]
    exact twins.refused _
  · simp only [perform, hc, hd]
    exact .of_left ⟨V, le_rfl, twins⟩ (.fetched (alike_current hc hd))

/-- A project is created in both, or in neither. -/
theorem Twins.create (twins : Twins name V c d) (p : Live.Project) (upsert : Bool)
    (here : p.name = name) :
    ServedAlike name V (.create p upsert) (.create p upsert)
      (c.perform m (.create p upsert)) (d.perform m' (.create p upsert)) := by
  have hthere : (c.project? p.name).isSome = (d.project? p.name).isSome := by
    rw [here]
    rcases twins.stored_cases with ⟨hc, hd⟩ | ⟨q, v, v', _, hc, hd⟩
    · rw [hc, hd]
    · rw [hc, hd]
      rfl
  show ServedAlike name V (.create p upsert) (.create p upsert) (c.create p upsert)
    (d.create p upsert)
  unfold ControlPlane.create
  rw [hthere]
  split
  · exact twins.refused _
  · exact .of_left (twins.store p p.version p.version here)
      (.created rfl (alike_current (here ▸ c.project?_store p) (here ▸ d.project?_store p)))

/-- An update under the versions that are held now. -/
theorem Twins.update (twins : Twins name V c d) {p p' : Live.Project}
    (sent : p.Alike (current name c d) p') (here : p.name = name) :
    ServedAlike name V (.update p) (.update p') (c.perform m (.update p))
      (d.perform m' (.update p')) := by
  obtain ⟨p, hv, hv'⟩ := sent
  change p.name = name at here
  subst here
  rcases twins.stored_cases with ⟨hc, _⟩ | ⟨q, v, v', _, hc, hd⟩
  · rw [hc] at hv
    cases hv
  · rw [hc] at hv
    rw [hd] at hv'
    cases hv
    cases hv'
    simp only [perform, ControlPlane.update, hc, hd, ne_eq, not_true_eq_false, if_false]
    exact .of_left (twins.store p v v' rfl)
      (.updated (alike_current (c.project?_store _) (d.project?_store _)))

theorem Twins.delete (twins : Twins name V c d) :
    ServedAlike name V (.delete name) (.delete name) (c.perform m (.delete name))
      (d.perform m' (.delete name)) := by
  show ServedAlike name V (.delete name) (.delete name) (ControlPlane.delete c name)
    (ControlPlane.delete d name)
  unfold ControlPlane.delete
  rcases twins.stored_cases with ⟨hc, hd⟩ | ⟨p, v, v', paired, hc, hd⟩
  · rw [hc, hd]
    exact twins.refused _
  · rw [hc, hd]
    refine ⟨V, le_rfl, twins.kept ⟨twins.faults.failures, twins.faults.tokenFailures⟩
      ?_ le_rfl le_rfl, .deleted⟩
    unfold project?
    rw [Std.ExtTreeMap.getElem?_erase_self, Std.ExtTreeMap.getElem?_erase_self]
    exact .none

/-- A token is issued by both, or by neither. -/
theorem Twins.issue (twins : Twins name V c d) (t : TokenRequest) (here : t.project = name)
    (same : m.seconds = m'.seconds) :
    ServedAlike name V (.issue t) (.issue t) (c.perform m (.issue t))
      (d.perform m' (.issue t)) := by
  have htoken : tokenFor m.seconds t = tokenFor m'.seconds t := by rw [same]
  have hfaults : d.tokenFailures t.key = c.tokenFailures t.key :=
    congrFun twins.faults.tokenFailures t.key
  -- a version is used up on both sides before the project is looked for
  have hused : Twins name V { c with version := c.version + 1 }
      { d with version := d.version + 1 } :=
    twins.kept ⟨twins.faults.failures, twins.faults.tokenFailures⟩ twins.stored
      (Nat.le_succ _) (Nat.le_succ _)
  show ServedAlike name V (.issue t) (.issue t) (c.issue m t) (d.issue m' t)
  unfold ControlPlane.issue
  rw [hfaults, htoken]
  cases c.tokenFailures t.key with
  | some refusal => exact twins.refused refusal
  | none =>
      rcases hused.stored_cases with ⟨hc, hd⟩ | ⟨p, v, v', _, hc, hd⟩
      · simp only [here, hc, hd]
        exact hused.refused _
      · simp only [here, hc, hd]
        cases hput : (tokenFor m'.seconds t).putInRole? t.role p.spec.roles with
        | none => exact hused.refused _
        | some roles =>
            exact .of_left
              (twins.written { p with spec.roles := roles }.reindex
                ⟨twins.faults.failures, twins.faults.tokenFailures⟩
                Std.ExtTreeMap.getElem?_insert_self Std.ExtTreeMap.getElem?_insert_self
                rfl rfl)
              (.issued t m.tail m'.tail)

/-- **Twins answer alike and stay twins.** -/
theorem Twins.serve (twins : Twins name V c d) (request : r.Alike (current name c d) r')
    (here : r.address = name) (same : m.seconds = m'.seconds) :
    ServedAlike name V r r' (c.serve m r) (d.serve m' r') := by
  have hfailures : d.failures r'.operation = c.failures r.operation := by
    rw [request.operation_eq, twins.faults.failures]
  have noted := twins.recorded r r'
  cases hc : c.failures r.operation with
  | some refusal =>
      rw [serve_refused hc, serve_refused (hfailures.trans hc)]
      exact noted.refused refusal
  | none =>
      rw [serve_admitted hc, serve_admitted (hfailures.trans hc)]
      cases request with
      | get _ =>
          cases here
          exact noted.get
      | create p upsert => exact noted.create p upsert here
      | update sent => exact noted.update sent here
      | delete _ =>
          cases here
          exact noted.delete
      | issue t => exact noted.issue t here same

end Twins

end ControlPlane

end Reconcile
