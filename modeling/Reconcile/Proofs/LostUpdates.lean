import Mathlib
import Reconcile.Proofs.Sharing
import Reconcile.Proofs.UpdatePath
import Reconcile.Rehearsal

/-!
# No update is lost

A client that updates a project sends the version that it fetched, and the
control plane refuses any other version than the stored one. As versions are
never used twice, an update that is granted finds the project as it was fetched:
nobody has written it in between, neither by deleting and creating it again, nor
by issuing a token for it. Of two updates that have both fetched before either
is granted, one is therefore refused. It fails, and it issues no token.
-/

namespace Reconcile.ControlPlane

/-! ## Served calls -/

/-- A client's call of this index is answered so by the control plane, and the
client hears the answer or does not. -/
def Served (events : List Event) (i client : Nat) (r : Request)
    (answer : r.Answer) (heard : Bool) : Prop :=
  ∃ m, events[i]? = some (.call client m r heard) ∧
    ((standing events i).serve m r).1 = answer

section Served

variable {events : List Event} {i client : Nat} {name : String}
  {live sent stored : Live.Project} {heard : Bool}

theorem Served.stepAt_eq {r : Request} {answer : r.Answer}
    (h : Served events i client r answer heard) :
    stepAt events client i =
      some (.asked r (if heard then some answer else none)) := by
  obtain ⟨m, he, rfl⟩ := h
  rw [stepAt, he, Option.bind_some, stepOf, if_pos rfl]

theorem exists_served_of_stepAt {r : Request} {answer : r.Answer}
    (h : stepAt events client i = some (.asked r (some answer))) :
    Served events i client r answer true := by
  rw [stepAt, Option.bind_eq_some_iff] at h
  obtain ⟨e, he, hstep⟩ := h
  cases e with
  | call c m request heard =>
      rw [stepOf, Option.ite_none_right_eq_some] at hstep
      obtain ⟨rfl, hstep⟩ := hstep
      cases heard with
      | true =>
          cases hstep
          exact ⟨m, he, rfl⟩
      | false => cases hstep
  | insert p => cases hstep
  | fail op refusal => cases hstep
  | failToken key refusal => cases hstep
  | heal => cases hstep
  | clearCalls => cases hstep

theorem Served.project?_eq (h : Served events i client (.get name) (.ok live) heard) :
    (standing events i).project? name = some live := by
  obtain ⟨m, _, hanswer⟩ := h
  have hserved := (standing events i).served m (.get name)
  rw [hanswer] at hserved
  generalize ((standing events i).serve m (.get name)).2 = after at hserved
  cases hserved with
  | found held => exact held

theorem Served.exists_version
    (h : Served events i client (.update sent) (.ok stored) heard) :
    ∃ current, (standing events i).project? sent.name = some current ∧
      current.version = sent.version := by
  obtain ⟨m, _, hanswer⟩ := h
  have hserved := (standing events i).served m (.update sent)
  rw [hanswer] at hserved
  generalize ((standing events i).serve m (.update sent)).2 = after at hserved
  cases hserved with
  | updated held current => exact ⟨_, held, current.symm⟩

theorem Served.writtenAt_eq
    (h : Served events i client (.update sent) (.ok stored) heard) :
    writtenAt events i = some sent.name := by
  obtain ⟨m, he, hanswer⟩ := h
  rw [writtenAt, he, Option.bind_some, written?, writtenBy, hanswer]
  rfl

end Served

/-! ## Between a fetch and its update -/

/-- From one index to another the project of a name is the same, and no event
writes it. -/
structure Untouched (events : List Event) (name : String) (live : Live.Project)
    (i j : Nat) : Prop where
  ordered : i ≤ j
  held : ∀ k, i ≤ k → k ≤ j → (standing events k).project? name = some live
  unwritten : ∀ k, i ≤ k → k < j → writtenAt events k ≠ some name

/-- **A version that comes back was never gone.** -/
theorem untouched_of_version_eq {events : List Event} {name : String}
    {live current : Live.Project} {i j : Nat} (hij : i ≤ j)
    (before : (standing events i).project? name = some live)
    (after : (standing events j).project? name = some current)
    (same : current.version = live.version) : Untouched events name live i j := by
  obtain ⟨n, _, hn, hversion⟩ := (writtenSince_zero events i name).later live before
  have hunwritten : ∀ k, i ≤ k → k < j → writtenAt events k ≠ some name := by
    intro k hik hkj hwritten
    -- the stored version would be later than all that there were at `k`
    have hsince := writtenSince_of_writtenAt hwritten hkj
    obtain ⟨n', hlater, _, hversion'⟩ := hsince.later current after
    have hcounted : (standing events i).version ≤ (standing events k).version :=
      version_standing_le hik
    have hnumber : n' = n :=
      Nat.repr_inj.mp (hversion'.symm.trans (same.trans hversion))
    omega
  refine ⟨hij, ?_, hunwritten⟩
  intro k hik hkj
  rw [project?_standing_eq hik fun l hil hlk => hunwritten l hil (by omega)]
  exact before

/-- A granted update finds its project as it was fetched. -/
theorem Served.untouched {events : List Event} {i j c d : Nat} {name : String}
    {live sent stored : Live.Project} {heard heard' : Bool} (hij : i < j)
    (fetched : Served events i c (.get name) (.ok live) heard)
    (granted : Served events j d (.update sent) (.ok stored) heard')
    (hname : sent.name = name) (hversion : sent.version = live.version) :
    Untouched events name live i j := by
  obtain ⟨current, hcurrent, hsame⟩ := granted.exists_version
  rw [hname] at hcurrent
  exact untouched_of_version_eq (le_of_lt hij) fetched.project?_eq hcurrent
    (hsame.trans hversion)

/-! ## One update among others -/

section Update

variable {events : List Event} {client j : Nat} {p : Project} {name : String}
  {sent : Live.Project} {answer : Except Refusal Live.Project} {heard : Bool}
  {outcome : Option (Except Failure Secrets)}

/-- **What an update sends was fetched before.** If it is refused it issues no
token, and once it hears of the refusal it ends with it. -/
theorem fetched_before_update [DurationReader]
    (follows : Follows events client p.update.run outcome)
    (named : p.externalName = some name)
    (sending : Served events j client (.update sent) answer heard) :
    (∃ i live, i < j ∧ Served events i client (.get name) (.ok live) true ∧
      sent = p.updated name live) ∧
    ∀ refusal, answer = .error refusal →
      (heard = true → outcome = some (.error (.update refusal))) ∧
      ∀ k t reply heard', ¬ Served events k client (.issue t) reply heard' := by
  obtain ⟨steps, path, hview⟩ := follows
  have hstep := sending.stepAt_eq
  have hplace := (view_concat_isPrefix hstep (lt_length_of_stepAt hstep)).trans hview
  -- the program tells what stands around the update in the client's view
  obtain ⟨live, hbefore, rfl, hafter⟩ :=
    (Project.updateCalls_of_path path named).around_sent hplace
  constructor
  · have hfirst : Step.asked (.get name) (some (.ok live)) ∈ view events client j := by
      rw [hbefore]
      exact List.mem_singleton_self _
    obtain ⟨i, hij, hi⟩ := mem_view.mp hfirst
    exact ⟨i, live, hij, exists_served_of_stepAt hi, rfl⟩
  · rintro refusal rfl
    rcases hafter with ⟨stored, hgranted⟩ | ⟨hends, hissues⟩
    · cases heard <;> cases hgranted
    · constructor
      · rintro rfl
        exact hends refusal rfl
      · intro k t reply heard' issued
        have hk := issued.stepAt_eq
        exact hissues t _ (hview.subset (mem_view.mpr ⟨k, lt_length_of_stepAt hk, hk⟩))

end Update

/-! ## Updates side by side -/

/-- None of these clients fetches a project once an update of any of them is
granted. -/
def FetchFirst (events : List Event) (clients : List Nat) : Prop :=
  ∀ c ∈ clients, ∀ d ∈ clients, ∀ i j name live sent stored heard heard',
    Served events i c (.get name) (.ok live) heard →
    Served events j d (.update sent) (.ok stored) heard' → i < j

section Both

variable {events : List Event} {c d j j' : Nat} {p q : Project} {name : String}
  {sent stored sent' stored' : Live.Project} {heard heard' : Bool}
  {outcome outcome' : Option (Except Failure Secrets)}

/-- An update that fetched before another one was granted is not granted
later. -/
theorem not_granted_later [DurationReader]
    (follows : Follows events d q.update.run outcome)
    (named : q.externalName = some name) (first : FetchFirst events [c, d])
    (granted : Served events j c (.update sent) (.ok stored) heard)
    (hname : sent.name = name) (hjj' : j < j') :
    ¬ Served events j' d (.update sent') (.ok stored') heard' := by
  intro granted'
  obtain ⟨i, live, hij', fetched, rfl⟩ :=
    (fetched_before_update follows named granted').1
  have hij : i < j :=
    first d (by simp) c (by simp) i j _ _ _ _ _ _ fetched granted
  have huntouched : Untouched events name live i j' :=
    fetched.untouched hij' granted' rfl rfl
  -- yet the other update has written it in between
  have hwritten : writtenAt events j = some name := hname ▸ granted.writtenAt_eq
  exact huntouched.unwritten j (le_of_lt hij) hjj' hwritten

theorem Served.client_eq {r r' : Request} {answer : r.Answer} {answer' : r'.Answer}
    (h : Served events j c r answer heard) (h' : Served events j d r' answer' heard') :
    c = d := by
  obtain ⟨_, he, _⟩ := h
  obtain ⟨_, he', _⟩ := h'
  rw [he] at he'
  cases he'
  rfl

/-- **At most one of two updates is granted** if both fetch before. -/
theorem not_both_granted [DurationReader] (distinct : c ≠ d)
    (follows : Follows events c p.update.run outcome)
    (follows' : Follows events d q.update.run outcome')
    (named : p.externalName = some name) (named' : q.externalName = some name)
    (first : FetchFirst events [c, d])
    (granted : Served events j c (.update sent) (.ok stored) heard) :
    ¬ Served events j' d (.update sent') (.ok stored') heard' := by
  intro granted'
  obtain ⟨_, live, _, _, hsent⟩ := (fetched_before_update follows named granted).1
  obtain ⟨_, live', _, _, hsent'⟩ := (fetched_before_update follows' named' granted').1
  have hname : sent.name = name := hsent ▸ rfl
  have hname' : sent'.name = name := hsent' ▸ rfl
  have first' : FetchFirst events [d, c] := by
    intro x hx y hy
    exact first x (by simpa [or_comm] using hx) y (by simpa [or_comm] using hy)
  -- the situation is symmetric, so either order is refused in the same way
  rcases lt_trichotomy j j' with hlt | rfl | hlt
  · exact not_granted_later follows' named' first granted hname hlt granted'
  · exact distinct (granted.client_eq granted')
  · exact not_granted_later follows named first' granted' hname' hlt granted

end Both

/-- **No update is lost.** Take any history of a control plane. An update that
carries the version that was fetched is granted only if nobody has written the
project since it was fetched. Hence of two updates under one name that both
fetch before either is granted, at most one is granted. The other one is
refused if it is sent at all, ends with the refusal once it hears of it, and
issues no token. -/
theorem no_update_is_lost [DurationReader] (events : List Event) :
    (∀ i j c d name live sent stored heard heard', i < j →
      Served events i c (.get name) (.ok live) heard →
      Served events j d (.update sent) (.ok stored) heard' →
      sent.name = name → sent.version = live.version →
      Untouched events name live i j) ∧
    ∀ c d (p q : Project) name outcome outcome', c ≠ d →
      p.externalName = some name → q.externalName = some name →
      Follows events c p.update.run outcome →
      Follows events d q.update.run outcome' →
      FetchFirst events [c, d] →
      ∀ j sent stored heard, Served events j c (.update sent) (.ok stored) heard →
      ∀ j' sent' answer heard', Served events j' d (.update sent') answer heard' →
        ∃ refusal, answer = .error refusal ∧
          (heard' = true → outcome' = some (.error (.update refusal))) ∧
          ∀ k t reply heard, ¬ Served events k d (.issue t) reply heard := by
  constructor
  · intro i j c d name live sent stored heard heard' hij fetched granted hname hversion
    exact fetched.untouched hij granted hname hversion
  · intro c d p q name outcome outcome' distinct named named' follows follows' first
      j sent stored heard granted j' sent' answer heard' sending
    cases answer with
    | ok stored' =>
        exact absurd sending
          (not_both_granted distinct follows follows' named named' first granted)
    | error refusal =>
        obtain ⟨_, hrefused⟩ := fetched_before_update follows' named' sending
        exact ⟨refusal, rfl, hrefused refusal rfl⟩

def described (text : String) : Project :=
  (Project.declare "shop" { description := some text }).setExternalName "shop"

/-- The live project that two clients fetch. -/
def shared : Live.Project := { name := "shop", version := "1" }

/-- Both clients fetch before either of them updates. -/
def race : List Event := [
  .insert shared,
  .call 0 ⟨0, "x"⟩ (.get "shop") true,
  .call 1 ⟨0, "x"⟩ (.get "shop") true,
  .call 0 ⟨0, "x"⟩ (.update ((described "a").updated "shop" shared)) true,
  .call 1 ⟨0, "x"⟩ (.update ((described "b").updated "shop" shared)) true]

def raceStage (hooks : List Hook) : Rehearsal where
  plane := ({} : ControlPlane).insert shared
  clock := 0
  hooks := hooks
  tail := "x"

/-- The project is written behind the client's back. -/
def overtaken : List Hook := [{ operation := .update, action := .insert shared }]

def raceRefusal : Refusal :=
  ⟨.conflict, "project shop was modified: version 1 != 2"⟩

theorem fetchFirst_race : FetchFirst race [0, 1] := by
  rintro c - d - i j _ _ _ _ _ _ ⟨_, hi, _⟩ ⟨_, hj, _⟩
  have hfetch : i ≤ 2 := by
    by_contra hlate
    have hlength : i < 5 := (List.getElem?_eq_some_iff.mp hi).1
    interval_cases i
    · simp [race] at hi
    · simp [race] at hi
  have hsend : 3 ≤ j := by
    by_contra hearly
    interval_cases j
    · simp [race] at hj
    · simp [race] at hj
    · simp [race] at hj
  omega

theorem first_of_race_follows :
    Follows race 0 (described "a").update.run (some (.ok ∅)) := by
  have houtcome : (Rehearsal.host.run (described "a").update.run (raceStage [])).1 =
      some (.ok ∅) := by decide +kernel
  rw [← houtcome]
  exact ⟨_, Rehearsal.host.path _ _, by decide +kernel⟩

theorem second_of_race_follows :
    Follows race 1 (described "b").update.run
      (some (.error (.update raceRefusal))) := by
  have houtcome : (Rehearsal.host.run (described "b").update.run
      (raceStage overtaken)).1 = some (.error (.update raceRefusal)) := by
    decide +kernel
  rw [← houtcome]
  exact ⟨_, Rehearsal.host.path _ _, by decide +kernel⟩

/-- The first of the two updates is granted, over the project as it was fetched,
and the second one is refused. -/
theorem no_update_is_lost_in_race :
    (∃ stored, Served race 3 0 (.update ((described "a").updated "shop" shared))
      (.ok stored) true) ∧
    Untouched race "shop" shared 1 3 ∧
    Served race 4 1 (.update ((described "b").updated "shop" shared))
      (.error raceRefusal) true ∧
    ∀ k t reply heard, ¬ Served race k 1 (.issue t) reply heard := by
  have hfetched : Served race 1 0 (.get "shop") (.ok shared) true :=
    ⟨⟨0, "x"⟩, rfl, by decide +kernel⟩
  obtain ⟨stored, hstored⟩ : ∃ stored, ((standing race 3).serve ⟨0, "x"⟩
      (.update ((described "a").updated "shop" shared))).1 = .ok stored :=
    ⟨{ (described "a").parameters.toLive "shop" ∅ with version := "2" },
      by decide +kernel⟩
  have hgranted : Served race 3 0
      (.update ((described "a").updated "shop" shared)) (.ok stored) true :=
    ⟨⟨0, "x"⟩, rfl, hstored⟩
  have hrefused : Served race 4 1
      (.update ((described "b").updated "shop" shared)) (.error raceRefusal) true :=
    ⟨⟨0, "x"⟩, rfl, by decide +kernel⟩
  obtain ⟨huntouched, hbeside⟩ := no_update_is_lost race
  obtain ⟨_, _, _, hissues⟩ := hbeside 0 1 (described "a") (described "b") "shop" _ _
    (by decide) (by decide +kernel) (by decide +kernel) first_of_race_follows
    second_of_race_follows fetchFirst_race 3 _ stored true hgranted 4 _ _ true hrefused
  refine ⟨⟨stored, hgranted⟩, ?_, hrefused, hissues⟩
  exact huntouched 1 3 0 0 "shop" shared _ stored true true (by decide) hfetched
    hgranted rfl rfl

end Reconcile.ControlPlane
