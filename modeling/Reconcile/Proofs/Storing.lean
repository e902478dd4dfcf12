import Mathlib
import Reconcile.Proofs.Sharing

/-!
# What is stored

Whatever happens to a control plane, from an empty one on, its store stays in
order in three ways. Every project is stored under its own name. The versions
are numbers that have been counted, and no two projects have the same. And the
index of a project lists what its roles have, as long as the project was last
written by a call; only one that was stored from outside has the index that came
with it.

The first two are kept by every single event. The third is what a granted call
leaves behind, and it lasts until the name is written again.
-/

namespace Reconcile

/-! ## The index, role by role -/

namespace Live

/-- The tokens of the last role of a name that has any. -/
def lastTokens? (roles : List Role) (name : String) : Option (List Token) :=
  (roles.reverse.find? fun r => r.name = name ∧ r.tokens ≠ []).map (·.tokens)

/-- **The index lists for each name the tokens of the last role that has any**,
and nothing for a name without such a role. -/
theorem tokenIndex_eq_lastTokens? (roles : List Role) (name : String) :
    (tokenIndex roles)[name]? = lastTokens? roles name := by
  -- a later role overrides an earlier one, so roles are added at the end
  induction roles using List.reverseRecOn with
  | nil => exact Std.ExtTreeMap.getElem?_empty
  | append_singleton roles r ih =>
      have hstep : tokenIndex (roles ++ [r]) = enter (tokenIndex roles) r := by
        rw [tokenIndex, List.foldl_append]
        rfl
      rw [hstep, lastTokens?, List.reverse_append, List.reverse_singleton,
        List.singleton_append, List.find?_cons]
      by_cases hname : r.name = name
      · subst hname
        by_cases hnil : r.tokens = []
        · have hskipped : decide (r.name = r.name ∧ r.tokens ≠ []) = false := by
            simp [hnil]
          rw [enter, if_pos hnil, ih, hskipped]
          rfl
        · have hfound : decide (r.name = r.name ∧ r.tokens ≠ []) = true := by
            simp [hnil]
          rw [enter, if_neg hnil, Std.ExtTreeMap.getElem?_insert_self, hfound]
          rfl
      · have hskipped : decide (r.name = name ∧ r.tokens ≠ []) = false := by
          simp [hname]
        rw [getElem?_enter_of_ne hname, ih, hskipped]
        rfl

end Live

namespace ControlPlane

/-! ## Names -/

/-- Every project is stored under its own name. -/
def Named (cp : ControlPlane) : Prop :=
  ∀ name p, cp.project? name = some p → p.name = name

/-- Under a name there is nothing, or a project of this name with its tokens
indexed. -/
def Indexed (cp : ControlPlane) (name : String) : Prop :=
  ∀ p, cp.project? name = some p →
    p.name = name ∧ p.tokensByRole = Live.tokenIndex p.spec.roles

section Calls

variable {cp : ControlPlane} {name : String}

theorem indexed_insert {projects : Dict Live.Project} {p : Live.Project}
    (stored : cp.projects = projects.insert name p.reindex) (hname : p.name = name) :
    cp.Indexed name := by
  intro q hq
  rw [project?, stored, Std.ExtTreeMap.getElem?_insert_self] at hq
  obtain rfl := Option.some.inj hq
  exact ⟨hname, rfl⟩

/-- What is stored is indexed, and what is deleted is gone. A token is issued for
the project of its name, which keeps this name. -/
theorem Performed.indexed (named : cp.Named) {cp' : ControlPlane} {m : Moment}
    {r : Request} {answer : r.Answer} (h : cp.Performed m r answer cp')
    (written : (if Except.isOk answer then r.target else none) = some name) :
    cp'.Indexed name := by
  cases h with
  | refused r refusal => cases written
  | found held => cases written
  | created free =>
      cases written
      exact indexed_insert rfl rfl
  | updated held current =>
      cases written
      exact indexed_insert rfl rfl
  | deleted held =>
      cases written
      intro q hq
      rw [project?, Std.ExtTreeMap.getElem?_erase_self] at hq
      cases hq
  | unplaced t refusal => cases written
  | @issued t p roles held placed =>
      cases written
      have hname : p.name = t.project := named t.project p held
      exact indexed_insert rfl hname

/-- **What a granted call leaves under the name that it writes** is indexed. -/
theorem indexed_serve (named : cp.Named) {m : Moment} {r : Request}
    (written : cp.writtenBy m r = some name) : (cp.serve m r).2.Indexed name := by
  -- recording the call has left the projects alone
  have hnamed : (cp.recorded r).Named := named
  exact (cp.served m r).indexed hnamed written

end Calls

/-- **Every event keeps the projects under their names.** -/
theorem Named.apply {cp : ControlPlane} (h : cp.Named) (e : Event) :
    (cp.apply e).Named := by
  intro name p hp
  by_cases hwritten : cp.written? e = some name
  · cases e with
    | insert q =>
        obtain rfl := Option.some.inj hwritten
        have hq : (cp.insert q).project? q.name = some p := hp
        rw [insert, project?, Std.ExtTreeMap.getElem?_insert_self] at hq
        obtain rfl := Option.some.inj hq
        rfl
    | call client m r heard => exact (indexed_serve h hwritten p hp).1
    | fail op refusal => cases hwritten
    | failToken key refusal => cases hwritten
    | heal => cases hwritten
    | clearCalls => cases hwritten
  · rw [(cp.change_apply e).project?_eq hwritten] at hp
    exact h name p hp

/-! ## Numbers -/

/-- The versions are numbers that have been counted, and no two projects have
the same. -/
def Numbered (cp : ControlPlane) : Prop :=
  ∃ number : String → Nat,
    (∀ name p, cp.project? name = some p →
      p.version = toString (number name) ∧
        1 ≤ number name ∧ number name ≤ cp.version) ∧
    ∀ a b p q, cp.project? a = some p → cp.project? b = some q →
      number a = number b → a = b

/-- What is found after a project was stored is this one, or one from before. -/
theorem project?_of_insert {cp cp' : ControlPlane} {target name : String}
    {stored p : Live.Project} (projects : cp'.projects = cp.projects.insert target stored)
    (hp : cp'.project? name = some p) :
    name = target ∧ p = stored ∨ name ≠ target ∧ cp.project? name = some p := by
  rw [project?, projects, Std.ExtTreeMap.getElem?_insert] at hp
  by_cases hname : name = target
  · subst hname
    rw [if_pos (by simp)] at hp
    exact Or.inl ⟨rfl, (Option.some.inj hp).symm⟩
  · rw [if_neg (by simpa using Ne.symm hname)] at hp
    exact Or.inr ⟨hname, hp⟩

/-- **Every change keeps the versions apart.** A new one is later than all
others. -/
theorem Numbered.change {cp cp' : ControlPlane} {target : Option String}
    (h : cp.Numbered) (change : cp.Change cp' target) : cp'.Numbered := by
  obtain ⟨number, hcounted, hdistinct⟩ := h
  cases change with
  | kept projects version =>
      have hsame : cp'.project? = cp.project? := by
        funext name
        rw [project?, project?, projects]
      refine ⟨number, ?_, ?_⟩
      · intro name p hp
        rw [hsame] at hp
        obtain ⟨hversion, hlow, hhigh⟩ := hcounted name p hp
        exact ⟨hversion, hlow, le_trans hhigh version⟩
      · rw [hsame]
        exact hdistinct
  | @stored target stored projects version fresh =>
      have hstored : ∀ name p, cp'.project? name = some p →
          name = target ∧ p = stored ∨ name ≠ target ∧ cp.project? name = some p :=
        fun _ _ => project?_of_insert projects
      refine ⟨Function.update number target cp'.version, ?_, ?_⟩
      · intro name p hp
        rcases hstored name p hp with ⟨rfl, rfl⟩ | ⟨hname, hbefore⟩
        · rw [Function.update_self]
          exact ⟨fresh, by omega, le_rfl⟩
        · obtain ⟨hversion, hlow, hhigh⟩ := hcounted name p hbefore
          rw [Function.update_of_ne hname]
          exact ⟨hversion, hlow, by omega⟩
      · intro a b p q ha hb heq
        rcases hstored a p ha with ⟨rfl, rfl⟩ | ⟨hane, habefore⟩
        · rcases hstored b q hb with ⟨rfl, rfl⟩ | ⟨hbne, hbbefore⟩
          · rfl
          · rw [Function.update_self, Function.update_of_ne hbne] at heq
            have hhigh := (hcounted b q hbbefore).2.2
            omega
        · rcases hstored b q hb with ⟨rfl, rfl⟩ | ⟨hbne, hbbefore⟩
          · rw [Function.update_self, Function.update_of_ne hane] at heq
            have hhigh := (hcounted a p habefore).2.2
            omega
          · rw [Function.update_of_ne hane, Function.update_of_ne hbne] at heq
            exact hdistinct a b p q habefore hbbefore heq
  | @removed target projects version =>
      have hkept : ∀ name p, cp'.project? name = some p → cp.project? name = some p := by
        intro name p hp
        rw [project?, projects, Std.ExtTreeMap.getElem?_erase,
          Option.ite_none_left_eq_some] at hp
        exact hp.2
      refine ⟨number, ?_, ?_⟩
      · intro name p hp
        rw [version]
        exact hcounted name p (hkept name p hp)
      · intro a b p q ha hb
        exact hdistinct a b p q (hkept a p ha) (hkept b q hb)

/-! ## Histories -/

/-- Of the first events, this one was the last that wrote the name. -/
def LastWrite (events : List Event) (n : Nat) (name : String) (e : Event) : Prop :=
  ∃ i < n, events[i]? = some e ∧ writtenAt events i = some name ∧
    ∀ k, i < k → k < n → writtenAt events k ≠ some name

section Histories

variable (events : List Event) (n : Nat)

theorem named_standing : (standing events n).Named := by
  induction n with
  | zero =>
      intro name p hp
      cases hp
  | succ n ih =>
      cases he : events[n]? with
      | none =>
          have hend : standing events (n + 1) = standing events n := by
            rw [standing, List.take_add_one, he, Option.toList_none, List.append_nil]
            rfl
          rw [hend]
          exact ih
      | some e =>
          rw [standing_succ he]
          exact ih.apply e

theorem numbered_standing : (standing events n).Numbered := by
  induction n with
  | zero =>
      refine ⟨fun _ => 0, ?_, ?_⟩
      · intro name p hp
        cases hp
      · intro a b p q hp
        cases hp
  | succ n ih => exact ih.change (change_standing events n)

/-- A project that was last written by a call has its tokens indexed. -/
theorem indexed_of_lastWrite {name : String} {client : Nat} {m : Moment}
    {r : Request} {heard : Bool}
    (last : LastWrite events n name (.call client m r heard)) :
    (standing events n).Indexed name := by
  obtain ⟨i, hin, he, hwritten, hlater⟩ := last
  have hleft : (standing events (i + 1)).Indexed name := by
    rw [writtenAt, he, Option.bind_some] at hwritten
    rw [standing_succ he]
    exact indexed_serve (named_standing events i) hwritten
  -- nothing has written the name since
  have hsame : (standing events n).project? name =
      (standing events (i + 1)).project? name :=
    project?_standing_eq hin fun k hik hkn => hlater k hik hkn
  intro p hp
  rw [hsame] at hp
  exact hleft p hp

/-- **The store stays in order.** After any events every project is stored under
its own name. The versions of the stored projects are numbers between 1 and the
count of versions, and no two projects have one version. And if a project was
last written by a call, its index lists under the name of a role the tokens of
the last role of this name that has any, and nothing if there is none. -/
theorem store_stays_in_order :
    (standing events n).Named ∧ (standing events n).Numbered ∧
    ∀ name p client m r heard, (standing events n).project? name = some p →
      LastWrite events n name (.call client m r heard) →
        ∀ role, p.tokensByRole[role]? = Live.lastTokens? p.spec.roles role := by
  refine ⟨named_standing events n, numbered_standing events n, ?_⟩
  intro name p client m r heard hp last role
  rw [(indexed_of_lastWrite events n last p hp).2]
  exact Live.tokenIndex_eq_lastTokens? p.spec.roles role

end Histories

/-- Two projects, one stored from outside and one created with two roles of one
name. A token is asked for in vain, which uses up a version, and another one is
issued. -/
def ledger : List Event := [
  .insert { name := "shop", spec.roles := [{ name := "ci", tokens := [⟨"old", 0, 0⟩] }] },
  .call 0 ⟨5, "x"⟩ (.create { name := "farm", spec.roles := [
    { name := "ci" }, { name := "ci", tokens := [⟨"b", 0, 0⟩] }] } false) true,
  .call 0 ⟨5, "x"⟩ (.issue { project := "farm", role := "cd", id := "a" }) true,
  .call 0 ⟨5, "x"⟩ (.issue { project := "farm", role := "ci", id := "a" }) true]

/-- The issued token goes to the first of the two roles, and the index lists the
second one. -/
theorem store_stays_in_order_in_ledger :
    ∃ p, (standing ledger 4).project? "farm" = some p ∧ p.version = "4" ∧
      p.spec.roles.map (·.tokens) = [[⟨"a", 5, 0⟩], [⟨"b", 0, 0⟩]] ∧
      p.tokensByRole["ci"]? = some [⟨"b", 0, 0⟩] := by
  have last : LastWrite ledger 4 "farm"
      (.call 0 ⟨5, "x"⟩ (.issue { project := "farm", role := "ci", id := "a" }) true) := by
    refine ⟨3, by decide, rfl, by decide +kernel, ?_⟩
    intro k hk hn
    omega
  obtain ⟨p, hp⟩ : ∃ p, (standing ledger 4).project? "farm" = some p :=
    Option.isSome_iff_exists.mp (by decide +kernel)
  have hversion : ((standing ledger 4).project? "farm").map (·.version) = some "4" := by
    decide +kernel
  have hroles : ((standing ledger 4).project? "farm").map (·.spec.roles) = some [
      { name := "ci", tokens := [⟨"a", 5, 0⟩] },
      { name := "ci", tokens := [⟨"b", 0, 0⟩] }] := by
    decide +kernel
  rw [hp, Option.map_some, Option.some.injEq] at hversion hroles
  have hindex := (store_stays_in_order ledger 4).2.2 "farm" p _ _ _ _ hp last "ci"
  rw [hroles] at hindex
  refine ⟨p, hp, hversion, ?_, hindex⟩
  rw [hroles]
  rfl

end ControlPlane

end Reconcile
