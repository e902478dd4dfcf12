import Mathlib
import Reconcile.Exchange

/-!
# How long a condition has lasted

A resource keeps one condition of a kind, with the time since which it has held.
A condition that says nothing new is not recorded, so this time is older than the
latest report. It is not the time of the report before either, since that one may
have said nothing new in its turn. Here the time is told from the whole history:
the condition that was first there, if there was one, and then all that were
reported. What is kept is the first of the reports that have agreed ever since.

Only one entry of the list takes part in this. Placing a condition comes to
`Condition.succeed` at the first entry of its kind, and the run lemma
`foldl_place_append` carries this over to a row of reports. What the one entry
holds in the end is `finalRun_foldl_succeed`, by induction on the row from its
end.
-/

namespace Reconcile

namespace Condition

/-! ## Agreement -/

theorem agrees_iff {c d : Condition} :
    c.agrees d = true ↔ c.kind = d.kind ∧ c.status = d.status ∧ c.reason = d.reason := by
  simp [agrees]

theorem agrees_symm {c d : Condition} (h : c.agrees d = true) : d.agrees c = true := by
  obtain ⟨kind, status, reason⟩ := agrees_iff.mp h
  exact agrees_iff.mpr ⟨kind.symm, status.symm, reason.symm⟩

theorem agrees_trans {c d e : Condition} (h : c.agrees d = true) (h' : d.agrees e = true) :
    c.agrees e = true := by
  obtain ⟨kind, status, reason⟩ := agrees_iff.mp h
  obtain ⟨kind', status', reason'⟩ := agrees_iff.mp h'
  exact agrees_iff.mpr ⟨kind.trans kind', status.trans status', reason.trans reason'⟩

/-- All the conditions agree with each other. -/
def AllAgree (conditions : List Condition) : Prop :=
  ∀ c ∈ conditions, ∀ d ∈ conditions, c.agrees d = true

theorem allAgree_singleton (c : Condition) : AllAgree [c] := by
  intro x hx y hy
  obtain rfl := List.mem_singleton.mp hx
  obtain rfl := List.mem_singleton.mp hy
  exact agrees_iff.mpr ⟨rfl, rfl, rfl⟩

theorem AllAgree.of_append {before after : List Condition} (h : AllAgree (before ++ after)) :
    AllAgree before := fun x hx y hy =>
  h x (List.mem_append_left _ hx) y (List.mem_append_left _ hy)

/-- Conditions that agree go on agreeing with one more if one of them does. -/
theorem AllAgree.concat {conditions : List Condition} (h : AllAgree conditions)
    {c d : Condition} (hc : c ∈ conditions) (hd : c.agrees d = true) :
    AllAgree (conditions ++ [d]) := by
  have onward : ∀ x ∈ conditions, x.agrees d = true :=
    fun x hx => agrees_trans (h x hx c hc) hd
  intro x hx y hy
  rcases List.mem_append.mp hx with old | new
  · rcases List.mem_append.mp hy with old' | new'
    · exact h x old y old'
    · obtain rfl := List.mem_singleton.mp new'
      exact onward x old
  · obtain rfl := List.mem_singleton.mp new
    rcases List.mem_append.mp hy with old' | new'
    · exact agrees_symm (onward y old')
    · exact allAgree_singleton x x new y new'

/-! ## Final runs -/

/-- The longest row at the end of a history whose conditions all agree. -/
structure FinalRun (history run : List Condition) : Prop where
  atEnd : run <:+ history
  agreeing : AllAgree run
  longest : ∀ longer, longer <:+ history → AllAgree longer → longer <:+ run

section FinalRun

variable {history run : List Condition} {c d : Condition}

/-- There is only one. -/
theorem FinalRun.unique {run' : List Condition} (h : FinalRun history run)
    (h' : FinalRun history run') : run = run' := by
  have below := h'.longest run h.atEnd h.agreeing
  have above := h.longest run' h'.atEnd h'.agreeing
  exact below.eq_of_length_le above.length_le

theorem finalRun_singleton (c : Condition) : FinalRun [c] [c] where
  atEnd := List.suffix_rfl
  agreeing := allAgree_singleton c
  longest _ atEnd _ := atEnd

/-- A report that agrees goes on with the run. -/
theorem FinalRun.goesOn (h : FinalRun history (c :: run)) (agrees : c.agrees d = true) :
    FinalRun (history ++ [d]) (c :: run ++ [d]) where
  atEnd := List.suffix_concat_iff.mpr (Or.inr ⟨c :: run, rfl, h.atEnd⟩)
  agreeing := h.agreeing.concat List.mem_cons_self agrees
  longest := by
    intro longer atEnd agreeing
    rcases List.suffix_concat_iff.mp atEnd with rfl | ⟨before, rfl, hbefore⟩
    · exact List.nil_suffix
    · have hrun := h.longest before hbefore agreeing.of_append
      exact List.suffix_concat_iff.mpr (Or.inr ⟨before, rfl, hrun⟩)

/-- A report that does not agree begins a run of its own. -/
theorem FinalRun.startsAnew (h : FinalRun history (c :: run)) (news : ¬ c.agrees d = true) :
    FinalRun (history ++ [d]) [d] where
  atEnd := List.suffix_append history [d]
  agreeing := allAgree_singleton d
  longest := by
    intro longer atEnd agreeing
    rcases List.suffix_concat_iff.mp atEnd with rfl | ⟨before, rfl, hbefore⟩
    · exact List.nil_suffix
    · cases before with
      | nil => exact List.suffix_rfl
      | cons x rest =>
          -- `x` is in the old run as well, so all of that run would agree with the report
          have hrun := h.longest (x :: rest) hbefore agreeing.of_append
          have hx : c.agrees x = true :=
            h.agreeing c List.mem_cons_self x (hrun.subset List.mem_cons_self)
          have hd : x.agrees d = true := agreeing x (by simp) d (by simp)
          exact absurd (agrees_trans hx hd) news

end FinalRun

/-! ## One entry -/

/-- What an entry holds once another condition is reported. -/
def succeed (held new : Condition) : Condition :=
  if held.agrees new then held else new

theorem kind_succeed {held new : Condition} (h : held.kind = new.kind) :
    (held.succeed new).kind = new.kind := by
  unfold succeed
  split
  · exact h
  · rfl

theorem kind_foldl_succeed {reports : List Condition} {kind : ConditionKind}
    (ofKind : ∀ c ∈ reports, c.kind = kind) {held : Condition} (h : held.kind = kind) :
    (reports.foldl succeed held).kind = kind := by
  induction reports generalizing held with
  | nil => exact h
  | cons new rest ih =>
      obtain ⟨hnew, hrest⟩ := List.forall_mem_cons.mp ofKind
      exact ih hrest ((kind_succeed (h.trans hnew.symm)).trans hnew)

/-- **An entry holds the first of its final run**, whatever was reported to it. -/
theorem finalRun_foldl_succeed (held : Condition) (reports : List Condition) :
    ∃ run, FinalRun (held :: reports) (reports.foldl succeed held :: run) := by
  induction reports using List.reverseRecOn with
  | nil => exact ⟨[], finalRun_singleton held⟩
  | append_singleton reports new ih =>
      obtain ⟨run, h⟩ := ih
      rw [List.foldl_append, List.foldl_cons, List.foldl_nil, succeed, ← List.cons_append]
      by_cases agreeing : (reports.foldl succeed held).agrees new = true
      · rw [if_pos agreeing]
        exact ⟨run ++ [new], h.goesOn agreeing⟩
      · rw [if_neg agreeing]
        exact ⟨[], h.startsAnew agreeing⟩

/-! ## One entry among others -/

section Placing

variable {before after : List Condition} {kind : ConditionKind}

/-- With no entry of its kind a condition goes to the end. -/
theorem place_of_absent {new : Condition} (absent : ∀ c ∈ before, c.kind ≠ new.kind) :
    new.place before = before ++ [new] := by
  induction before with
  | nil => rfl
  | cons c rest ih =>
      obtain ⟨hc, hrest⟩ := List.forall_mem_cons.mp absent
      rw [place, if_neg hc, ih hrest]
      rfl

/-- The first entry of the kind is succeeded, and no other is touched. -/
theorem place_append {held new : Condition} (absent : ∀ c ∈ before, c.kind ≠ new.kind)
    (here : held.kind = new.kind) :
    new.place (before ++ held :: after) = before ++ held.succeed new :: after := by
  induction before with
  | nil => exact if_pos here
  | cons c rest ih =>
      obtain ⟨hc, hrest⟩ := List.forall_mem_cons.mp absent
      rw [List.cons_append, place, if_neg hc, ih hrest]
      rfl

/-- **A row of reports is one entry's.** -/
theorem foldl_place_append {reports : List Condition} (ofKind : ∀ c ∈ reports, c.kind = kind)
    (absent : ∀ c ∈ before, c.kind ≠ kind) {held : Condition} (here : held.kind = kind) :
    reports.foldl (fun conditions c => c.place conditions) (before ++ held :: after) =
      before ++ reports.foldl succeed held :: after := by
  induction reports generalizing held with
  | nil => rfl
  | cons new rest ih =>
      obtain ⟨rfl, hrest⟩ := List.forall_mem_cons.mp ofKind
      rw [List.foldl_cons, place_append absent here, ih hrest (kind_succeed here),
        List.foldl_cons]

end Placing

end Condition

/-! ## The conditions of a resource -/

namespace Project

/-- Some conditions are reported, one after the other. -/
def setConditions (p : Project) (reports : List Condition) : Project :=
  reports.foldl setCondition p

/-- The place of the first condition of a kind, or the end of the list if there is
none. -/
def placeOf (p : Project) (kind : ConditionKind) : Nat :=
  p.conditions.findIdx (·.kind = kind)

/-- Reports are about the conditions, and leave all else about a resource alone. -/
theorem setConditions_eq (p : Project) (reports : List Condition) :
    p.setConditions reports = { p with
      conditions := reports.foldl (fun conditions c => c.place conditions) p.conditions } := by
  induction reports generalizing p with
  | nil => rfl
  | cons new rest ih => exact ih (p.setCondition new)

/-- The conditions that stand before the first one of a kind and those behind it. If
there is none of the kind, all stand before its place. -/
structure Around (p : Project) (kind : ConditionKind) (before after : List Condition) :
    Prop where
  split : p.conditions = before ++ (p.condition kind).toList ++ after
  absent : ∀ c ∈ before, c.kind ≠ kind
  atEnd : p.condition kind = none → after = []

theorem exists_around (p : Project) (kind : ConditionKind) :
    ∃ before after, p.Around kind before after := by
  cases hfirst : p.condition kind with
  | none =>
      have absent := List.find?_eq_none.mp hfirst
      exact ⟨p.conditions, [], by simp [hfirst], by simpa using absent, fun _ => rfl⟩
  | some held =>
      obtain ⟨_, before, after, split, absent⟩ := List.find?_eq_some_iff_append.mp hfirst
      have onward : p.condition kind = none → after = [] := by
        rw [hfirst]
        exact nofun
      exact ⟨before, after, by simpa [hfirst] using split,
        fun c hc => by simpa using absent c hc, onward⟩

/-- A condition that has none of its kind before it is the first one. -/
theorem around_of_conditions {p : Project} {kind : ConditionKind} {first : Condition}
    {before after : List Condition} (conditions : p.conditions = before ++ first :: after)
    (absent : ∀ c ∈ before, c.kind ≠ kind) (ofKind : first.kind = kind) :
    p.condition kind = some first ∧ p.Around kind before after := by
  have hfirst : p.condition kind = some first := by
    rw [condition, List.find?_eq_some_iff_append]
    exact ⟨decide_eq_true ofKind, before, after, conditions, by simpa using absent⟩
  refine ⟨hfirst, ?_, absent, ?_⟩
  · simpa [hfirst] using conditions
  · rw [hfirst]
    exact nofun

section Around

variable {p : Project} {kind : ConditionKind} {before after : List Condition}

theorem kind_of_condition {held : Condition} (h : p.condition kind = some held) :
    held.kind = kind := by
  obtain ⟨found, _⟩ := List.find?_eq_some_iff_append.mp h
  exact of_decide_eq_true found

theorem Around.placeOf_eq (h : p.Around kind before after) :
    p.placeOf kind = before.length := by
  have hbefore : before.findIdx (·.kind = kind) = before.length :=
    List.findIdx_eq_length_of_false fun c hc => decide_eq_false (h.absent c hc)
  rw [placeOf, h.split]
  cases hfirst : p.condition kind with
  | none => simpa [h.atEnd hfirst] using hbefore
  | some held =>
      have hkind := kind_of_condition hfirst
      rw [Option.toList_some, List.append_assoc, List.findIdx_append, hbefore,
        if_neg (lt_irrefl _), List.singleton_append, List.findIdx_cons, decide_eq_true hkind,
        cond_true, Nat.zero_add]

/-- With a condition put in its place, the list is longer only if there was none. -/
theorem Around.length_eq (h : p.Around kind before after) (first : Condition) :
    (before ++ first :: after).length =
      p.conditions.length + (if (p.condition kind).isSome then 0 else 1) := by
  rw [h.split]
  cases hheld : p.condition kind with
  | none => simp [h.atEnd hheld]
  | some held => simp

/-- With a condition put in its place, the others are where they were. -/
theorem Around.getElem?_eq (h : p.Around kind before after) (first : Condition) {i : Nat}
    (other : i ≠ before.length) : (before ++ first :: after)[i]? = p.conditions[i]? := by
  rw [h.split, List.append_assoc]
  rcases Nat.lt_or_gt_of_ne other with hlt | hgt
  · rw [List.getElem?_append_left hlt, List.getElem?_append_left hlt]
  · rw [List.getElem?_append_right hgt.le, List.getElem?_append_right hgt.le]
    obtain ⟨k, hk⟩ : ∃ k, i - before.length = k + 1 := ⟨i - before.length - 1, by omega⟩
    rw [hk]
    cases hheld : p.condition kind with
    | none => simp [h.atEnd hheld]
    | some held => simp

/-- **What reports of a kind come to.** In the place of the first condition of the
kind there is the first of the final run of the history. -/
theorem Around.setConditions (h : p.Around kind before after)
    {reports : List Condition} (reported : reports ≠ [])
    (ofKind : ∀ c ∈ reports, c.kind = kind) :
    ∃ first run, (p.setConditions reports).conditions = before ++ first :: after ∧
      first.kind = kind ∧
      Condition.FinalRun ((p.condition kind).toList ++ reports) (first :: run) := by
  rw [setConditions_eq, h.split]
  dsimp only
  cases hfirst : p.condition kind with
  | some held =>
      have hkind := kind_of_condition hfirst
      obtain ⟨run, hrun⟩ := Condition.finalRun_foldl_succeed held reports
      refine ⟨_, run, ?_, Condition.kind_foldl_succeed ofKind hkind, hrun⟩
      rw [Option.toList_some, List.append_assoc, List.singleton_append,
        Condition.foldl_place_append ofKind h.absent hkind]
  | none =>
      -- the first report is added, and from then on there is a condition of the kind
      obtain ⟨new, rest, rfl⟩ := List.exists_cons_of_ne_nil reported
      obtain ⟨hnew, hrest⟩ := List.forall_mem_cons.mp ofKind
      have hplace : new.place before = before ++ [new] :=
        Condition.place_of_absent (hnew ▸ h.absent)
      obtain ⟨run, hrun⟩ := Condition.finalRun_foldl_succeed new rest
      refine ⟨_, run, ?_, Condition.kind_foldl_succeed hrest hnew, hrun⟩
      rw [h.atEnd hfirst, Option.toList_none, List.append_nil, List.append_nil,
        List.foldl_cons, hplace, Condition.foldl_place_append hrest h.absent hnew]

end Around

end Project

/-- **A condition is as old as the reports that agree with it.** Let a resource have
any conditions, and let any number of conditions of one kind be reported, at least
one. Then the list is as long as before, or longer by one if there was none of the
kind. Every other entry is what it was and where it was, and so is all else about
the resource. The first entry of the kind stands where it stood, or at the end. It
has the status and the reason of the last report, and it is the earliest of the one
final run in the history of what was first there and then was reported, so its time
is the time of that one. -/
theorem condition_is_first_of_final_run (p : Project) {kind : ConditionKind}
    {reports : List Condition} (reported : reports ≠ [])
    (ofKind : ∀ c ∈ reports, c.kind = kind) :
    (p.setConditions reports).conditions.length =
      p.conditions.length + (if (p.condition kind).isSome then 0 else 1) ∧
    (∀ i, i ≠ p.placeOf kind →
      (p.setConditions reports).conditions[i]? = p.conditions[i]?) ∧
    p.setConditions reports =
      { p with conditions := (p.setConditions reports).conditions } ∧
    (p.setConditions reports).placeOf kind = p.placeOf kind ∧
    ∃ first run, (p.setConditions reports).condition kind = some first ∧
      (p.setConditions reports).conditions[p.placeOf kind]? = some first ∧
      first.status = (reports.getLast reported).status ∧
      first.reason = (reports.getLast reported).reason ∧
      Condition.FinalRun ((p.condition kind).toList ++ reports) (first :: run) ∧
      ∀ other, Condition.FinalRun ((p.condition kind).toList ++ reports) other →
        other = first :: run := by
  obtain ⟨before, after, around⟩ := p.exists_around kind
  obtain ⟨first, run, left, hkind, hrun⟩ := around.setConditions reported ofKind
  obtain ⟨hfirst, around'⟩ := Project.around_of_conditions left around.absent hkind
  have hplace := around.placeOf_eq
  have agrees : first.agrees (reports.getLast reported) = true := by
    have hlast : reports.getLast reported = (first :: run).getLast (by simp) := by
      rw [hrun.atEnd.getLast, List.getLast_append_of_ne_nil _ reported]
    exact hrun.agreeing first List.mem_cons_self _ (hlast ▸ List.getLast_mem _)
  obtain ⟨_, hstatus, hreason⟩ := Condition.agrees_iff.mp agrees
  refine ⟨?_, ?_, ?_, around'.placeOf_eq.trans hplace.symm, first, run, hfirst, ?_, hstatus,
    hreason, hrun, fun other hother => hother.unique hrun⟩
  · rw [left]
    exact around.length_eq first
  · intro i hi
    rw [hplace] at hi
    rw [left]
    exact around.getElem?_eq first hi
  · rw [Project.setConditions_eq]
  · rw [left, hplace]
    simp

/-- A condition that has been reported as gone since a second of the epoch. -/
def gone (seconds : Int) : Condition :=
  ⟨.ready, false, .unavailable, ⟨instantOfTimestamp seconds, false⟩⟩

/-- A resource with two conditions of one kind. -/
def lighthouse : Project :=
  { Project.declare "lighthouse" {} with
    conditions := [.available (instantOfTimestamp 100), gone 50] }

/-- It is still there at 200, gone at 300 and still so at 400 and 500. -/
def lighthouseReports : List Condition :=
  [.available (instantOfTimestamp 200), gone 300, gone 400, gone 500]

/-- So it has been gone since 300, and what stands behind the first entry stays. -/
theorem condition_is_first_of_final_run_at_lighthouse :
    (lighthouse.setConditions lighthouseReports).conditions[1]? = some (gone 50) ∧
    (lighthouse.setConditions lighthouseReports).condition .ready = some (gone 300) ∧
    ∃ run, Condition.FinalRun (.available (instantOfTimestamp 100) :: lighthouseReports)
      (gone 300 :: run) := by
  have ofKind : ∀ c ∈ lighthouseReports, c.kind = .ready := by decide +kernel
  obtain ⟨_, others, _, _, first, run, held, _, _, _, hrun, _⟩ :=
    condition_is_first_of_final_run lighthouse (List.cons_ne_nil _ _) ofKind
  have computed : (lighthouse.setConditions lighthouseReports).condition .ready =
      some (gone 300) := by decide +kernel
  obtain rfl := Option.some.inj (held.symm.trans computed)
  exact ⟨others 1 (by decide +kernel), held, run, hrun⟩

end Reconcile
