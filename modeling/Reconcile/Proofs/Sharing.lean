import Mathlib
import Reconcile.Proofs.Granting
import Reconcile.Proofs.Run

/-!
# A control plane shared by many clients

A control plane serves one call after the other, whoever makes them. In between
projects are stored from outside, and failures are set and healed. A history is
any sequence of such events, from an empty control plane on.

`ControlPlane.Change` says all that an event can do to the stored projects: leave
them alone, store one under a version that was never used before, or remove one.
What holds along a history follows from this and not from the single calls. Its
invariant is `ControlPlane.WrittenSince`: a name that was written since a moment
has a version later than every version of that moment, or no project at all.
-/

namespace Reconcile

/-- The name of the project that a call writes once it is granted. -/
def Request.target : Request → Option String
  | .get _ => none
  | .create p _ | .update p => some p.name
  | .delete name => some name
  | .issue t => some t.project

namespace ControlPlane

/-! ## Events -/

/-- What happens to a control plane. A client makes a call at some moment and
hears the answer or does not; everything else comes from outside. Every run of a
program is a client of its own. -/
inductive Event where
  | insert (p : Live.Project)
  | fail (op : Operation) (refusal : Refusal)
  | failToken (key : TokenKey) (refusal : Refusal)
  | heal
  | clearCalls
  | call (client : Nat) (moment : Moment) (request : Request) (heard : Bool)

/-- The control plane after an event. -/
def apply (cp : ControlPlane) : Event → ControlPlane
  | .insert p => cp.insert p
  | .fail op refusal => cp.fail op refusal
  | .failToken key refusal => cp.failToken key refusal
  | .heal => cp.heal
  | .clearCalls => cp.clearCalls
  | .call _ m r _ => (cp.serve m r).2

/-- The name of the project that a call writes here; a refused call writes
none. -/
def writtenBy (cp : ControlPlane) (m : Moment) (r : Request) : Option String :=
  if Except.isOk (cp.serve m r).1 then r.target else none

/-- The name of the project that an event writes. -/
def written? (cp : ControlPlane) : Event → Option String
  | .insert p => some p.name
  | .call _ m r _ => cp.writtenBy m r
  | _ => none

/-! ## What an event changes -/

/-- What an event can do to the stored projects, and which of them it writes. -/
inductive Change (cp cp' : ControlPlane) : Option String → Prop where
  /-- Nothing is written, though a version may have been used up. -/
  | kept (projects : cp'.projects = cp.projects)
      (version : cp.version ≤ cp'.version) : Change cp cp' none
  | stored {name : String} (p : Live.Project)
      (projects : cp'.projects = cp.projects.insert name p)
      (version : cp'.version = cp.version + 1)
      (fresh : p.version = toString cp'.version) : Change cp cp' (some name)
  | removed {name : String} (projects : cp'.projects = cp.projects.erase name)
      (version : cp'.version = cp.version) : Change cp cp' (some name)

theorem Change.of_recorded {cp cp' : ControlPlane} {r : Request}
    {target : Option String} (h : (cp.recorded r).Change cp' target) :
    cp.Change cp' target := by
  cases h with
  | kept projects version => exact .kept projects version
  | stored p projects version fresh => exact .stored p projects version fresh
  | removed projects version => exact .removed projects version

/-- What comes of a call changes what the call says, if it is granted. -/
theorem Performed.change {cp cp' : ControlPlane} {m : Moment} {r : Request}
    {answer : r.Answer} (h : cp.Performed m r answer cp') :
    cp.Change cp' (if Except.isOk answer then r.target else none) := by
  cases h with
  | refused r refusal => exact .kept rfl le_rfl
  | found held => exact .kept rfl le_rfl
  | created free => exact .stored _ rfl rfl rfl
  | updated held current => exact .stored _ rfl rfl rfl
  | deleted held => exact .removed rfl rfl
  | unplaced t refusal => exact .kept rfl (Nat.le_succ _)
  | issued held placed => exact .stored _ rfl rfl rfl

section Calls

variable (cp : ControlPlane)

theorem change_serve (m : Moment) (r : Request) :
    cp.Change (cp.serve m r).2 (cp.writtenBy m r) :=
  (cp.served m r).change.of_recorded

/-- **What an event changes** is what it says it writes. -/
theorem change_apply (e : Event) : cp.Change (cp.apply e) (cp.written? e) := by
  cases e with
  | insert p => exact .stored _ rfl rfl rfl
  | fail op refusal => exact .kept rfl le_rfl
  | failToken key refusal => exact .kept rfl le_rfl
  | heal => exact .kept rfl le_rfl
  | clearCalls => exact .kept rfl le_rfl
  | call client m r heard => exact cp.change_serve m r

end Calls

/-! ## Versions -/

/-- The project of a name was written since a moment: its version is later than
all that had been used up to then, unless the project is gone. -/
structure WrittenSince (cp : ControlPlane) (count : Nat) (name : String) :
    Prop where
  counted : count ≤ cp.version
  later : ∀ p, cp.project? name = some p →
    ∃ n, count < n ∧ n ≤ cp.version ∧ p.version = toString n

section Change

variable {cp cp' : ControlPlane} {target : Option String} {name : String}

theorem Change.version_le (h : cp.Change cp' target) :
    cp.version ≤ cp'.version := by
  cases h with
  | kept _ version => exact version
  | stored _ _ version _ => omega
  | removed _ version => omega

theorem Change.project?_eq (h : cp.Change cp' target)
    (unwritten : target ≠ some name) : cp'.project? name = cp.project? name := by
  unfold project?
  cases h with
  | kept projects _ => rw [projects]
  | @stored other p projects _ _ =>
      have hother : other ≠ name := fun heq => unwritten (congrArg some heq)
      rw [projects, Std.ExtTreeMap.getElem?_insert, if_neg (by simpa using hother)]
  | @removed other projects _ =>
      have hother : other ≠ name := fun heq => unwritten (congrArg some heq)
      rw [projects, Std.ExtTreeMap.getElem?_erase, if_neg (by simpa using hother)]

/-- A name that is written has a later version than any before, or is gone. -/
theorem Change.writtenSince (h : cp.Change cp' (some name)) :
    cp'.WrittenSince cp.version name := by
  refine ⟨h.version_le, ?_⟩
  intro p hp
  unfold project? at hp
  cases h with
  | stored q projects version fresh =>
      rw [projects, Std.ExtTreeMap.getElem?_insert_self] at hp
      obtain rfl := Option.some.inj hp
      exact ⟨cp'.version, by omega, le_rfl, fresh⟩
  | removed projects _ =>
      rw [projects, Std.ExtTreeMap.getElem?_erase_self] at hp
      cases hp

theorem WrittenSince.change {count : Nat} (h : cp.WrittenSince count name)
    (change : cp.Change cp' target) : cp'.WrittenSince count name := by
  have hgrown := change.version_le
  -- a new write is later still, and any other event leaves the project alone
  by_cases hwritten : target = some name
  · subst hwritten
    obtain ⟨_, later⟩ := change.writtenSince
    refine ⟨le_trans h.counted hgrown, ?_⟩
    intro p hp
    obtain ⟨n, hn, hle, hversion⟩ := later p hp
    exact ⟨n, lt_of_le_of_lt h.counted hn, hle, hversion⟩
  · refine ⟨le_trans h.counted hgrown, ?_⟩
    intro p hp
    rw [change.project?_eq hwritten] at hp
    obtain ⟨n, hn, hle, hversion⟩ := h.later p hp
    exact ⟨n, hn, le_trans hle hgrown, hversion⟩

end Change

/-! ## Histories -/

/-- The control plane before the event of an index, from an empty one on. -/
def standing (events : List Event) (i : Nat) : ControlPlane :=
  (events.take i).foldl apply {}

/-- The name of the project that the event of an index writes. -/
def writtenAt (events : List Event) (i : Nat) : Option String :=
  events[i]?.bind (standing events i).written?

section History

variable {events : List Event} {i j : Nat} {name : String}

theorem standing_succ {e : Event} (h : events[i]? = some e) :
    standing events (i + 1) = (standing events i).apply e := by
  rw [standing, List.take_add_one, h, Option.toList_some, List.foldl_append]
  rfl

theorem change_standing (events : List Event) (i : Nat) :
    (standing events i).Change (standing events (i + 1)) (writtenAt events i) := by
  rw [writtenAt]
  cases h : events[i]? with
  | none =>
      -- after the last event nothing changes any more
      have hend : standing events (i + 1) = standing events i := by
        rw [standing, List.take_add_one, h, Option.toList_none, List.append_nil]
        rfl
      rw [hend]
      exact .kept rfl le_rfl
  | some e =>
      rw [standing_succ h]
      exact (standing events i).change_apply e

theorem version_standing_le (hij : i ≤ j) :
    (standing events i).version ≤ (standing events j).version := by
  induction j, hij using Nat.le_induction with
  | base => exact le_rfl
  | succ j _ ih => exact le_trans ih (change_standing events j).version_le

theorem WrittenSince.standing {count : Nat}
    (h : (standing events i).WrittenSince count name) (hij : i ≤ j) :
    (ControlPlane.standing events j).WrittenSince count name := by
  induction j, hij using Nat.le_induction with
  | base => exact h
  | succ j _ ih => exact ih.change (change_standing events j)

/-- **All versions are numbers that have been counted.** -/
theorem writtenSince_zero (events : List Event) (i : Nat) (name : String) :
    (standing events i).WrittenSince 0 name := by
  -- in the beginning there is no project that could have a version
  have hempty : (standing events 0).WrittenSince 0 name := by
    refine ⟨le_rfl, ?_⟩
    intro p hp
    cases hp
  exact hempty.standing (Nat.zero_le i)

theorem writtenSince_of_writtenAt (hwritten : writtenAt events i = some name)
    (hij : i < j) :
    (standing events j).WrittenSince (standing events i).version name := by
  have hchange := change_standing events i
  rw [hwritten] at hchange
  exact hchange.writtenSince.standing hij

theorem project?_standing_eq (hij : i ≤ j)
    (unwritten : ∀ k, i ≤ k → k < j → writtenAt events k ≠ some name) :
    (standing events j).project? name = (standing events i).project? name := by
  induction j, hij using Nat.le_induction with
  | base => rfl
  | succ j hij ih =>
      have hstep := (change_standing events j).project?_eq
        (unwritten j hij (Nat.lt_succ_self j))
      rw [hstep]
      exact ih fun k hik hkj => unwritten k hik (Nat.lt_succ_of_lt hkj)

end History

/-! ## What one client sees -/

/-- What an event is to a client: a step, if the call is its own. -/
def stepOf (cp : ControlPlane) (client : Nat) : Event → Option Step
  | .call c m r heard =>
    if c = client then
      some (.asked r (if heard then some (cp.serve m r).1 else none))
    else none
  | _ => none

/-- The step that the event of an index is to a client. -/
def stepAt (events : List Event) (client i : Nat) : Option Step :=
  events[i]?.bind ((standing events i).stepOf client)

/-- The steps of a client among the first events. -/
def view (events : List Event) (client n : Nat) : List Step :=
  (List.range n).filterMap (stepAt events client)

/-- The client is on its way through a program: the calls that it has made so
far begin the calls of one path. -/
def Follows {α : Type} (events : List Event) (client : Nat) (program : Program α)
    (outcome : Option α) : Prop :=
  ∃ steps, program.Path steps outcome ∧
    view events client events.length <+: steps.filter Step.isCall

section View

variable {events : List Event} {client i n : Nat} {step : Step}

theorem view_succ (events : List Event) (client n : Nat) :
    view events client (n + 1) =
      view events client n ++ (stepAt events client n).toList := by
  unfold view
  rw [List.range_succ, List.filterMap_append]
  cases h : stepAt events client n with
  | none => simp [h]
  | some step => simp [h]

theorem view_isPrefix (h : i ≤ n) : view events client i <+: view events client n := by
  induction n, h using Nat.le_induction with
  | base => exact List.prefix_rfl
  | succ n _ ih =>
      rw [view_succ]
      exact ih.trans (List.prefix_append _ _)

/-- A step stands in the view right after the steps before it. -/
theorem view_concat_isPrefix (h : stepAt events client i = some step) (hin : i < n) :
    view events client i ++ [step] <+: view events client n := by
  have hnext : view events client (i + 1) = view events client i ++ [step] := by
    rw [view_succ, h, Option.toList_some]
  exact hnext ▸ view_isPrefix hin

theorem mem_view : step ∈ view events client n ↔
    ∃ i < n, stepAt events client i = some step := by
  simp only [view, List.mem_filterMap, List.mem_range]

theorem lt_length_of_stepAt (h : stepAt events client i = some step) :
    i < events.length := by
  rw [stepAt, Option.bind_eq_some_iff] at h
  obtain ⟨e, he, _⟩ := h
  exact (List.getElem?_eq_some_iff.mp he).1

end View

end ControlPlane

end Reconcile
