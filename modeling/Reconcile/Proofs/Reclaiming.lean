import Mathlib
import Reconcile.Proofs.Exactness
import Reconcile.Proofs.Session

/-!
# Reclaiming what was created

A creation sends the project under the address of the resource and records the
name that comes back. The later operations go by this record, and an empty record
counts as none. So a created project is found and deleted again exactly if its
name is not empty. Under the empty name it is created all the same, and then it
is lost: every later observation says that there is no project, and a deletion
has nothing to do.
-/

namespace Reconcile

/-! ## A project without tokens -/

section Tokenless

variable {roles : List Role}

theorem tokens_toLive_empty {r : Live.Role} (hr : r ∈ roles.map (·.toLive ∅)) :
    r.tokens = [] := by
  obtain ⟨declared, _, rfl⟩ := List.mem_map.mp hr
  rw [toLive_empty]

theorem tokenIndex_of_tokenless {lives : List Live.Role}
    (tokenless : ∀ r ∈ lives, r.tokens = []) : Live.tokenIndex lives = ∅ := by
  unfold Live.tokenIndex
  induction lives with
  | nil => rfl
  | cons r lives ih =>
      rw [List.foldl_cons, if_pos (tokenless r List.mem_cons_self)]
      exact ih fun x hx => tokenless x (List.mem_cons_of_mem _ hx)

/-- A project that is held as declared, without tokens, is the one that was sent
but for its version. -/
theorem ControlPlane.Holds.eq_sent {cp : ControlPlane} {p : Parameters} {name : String}
    (held : cp.Holds name (p.toLive name ∅) (p.roles.map (·.toLive ∅))) :
    ∃ version, cp.project? name = some { p.toLive name ∅ with version := version } := by
  obtain ⟨version, hproject⟩ := held
  have hindex : Live.tokenIndex (p.roles.map (·.toLive ∅)) = ∅ :=
    tokenIndex_of_tokenless fun _ hr => tokens_toLive_empty hr
  rw [Live.Project.reindex, hindex] at hproject
  exact ⟨version, hproject⟩

/-- Where no token is seen, a declaration can be judged if its durations can be
read. -/
theorem evaluate_isOk_of_readable [DurationReader]
    {p : Parameters} (readable : ∀ r ∈ p.roles, Readable r.tokens)
    (name : String) (live : Live.Project) (now : Instant) :
    ∃ verdict, p.evaluate name live ∅ now = .ok verdict := by
  have unseen : NoneSeen p.roles ∅ := by
    intro slot _
    rw [Observation.current, Std.ExtTreeMap.getElem?_empty]
    rfl
  have hspecs : ∀ slot ∈ specsOf p.roles, ∃ terms, slot.2.terms = .ok terms := by
    intro slot hslot
    obtain ⟨r, hr, _, hspec⟩ := mem_specsOf.mp hslot
    exact readable r hr slot.2 hspec
  obtain ⟨plan, planned⟩ := exists_plan_of_noneSeen hspecs unseen name now
  exact evaluate_isOk_of_planned planned

end Tokenless

/-! ## Operations of a served client -/

namespace Host.Serves

open ControlPlane

variable {σ : Type} {h : Host σ} {plane : σ → ControlPlane} {moment : σ → Moment}
  (serves : h.Serves plane moment) {p q : Project} {s s' : σ} {name : String}
  {live : Live.Project}

include serves

/-- A deletion removes the stored project. -/
theorem run_delete (named : p.externalName = some name)
    (held : (plane s).project? name = some live)
    (served : (plane s).failures .delete = none) :
    ∃ s', h.run p.delete.run s = (some (.ok ()), s') ∧ (plane s').project? name = none := by
  have hserve : (plane s).serve (moment s) (.delete name) =
      (.ok (), { (plane s).recorded (.delete name) with
        projects := (plane s).projects.erase name }) := by
    have hheld : ((plane s).recorded (.delete name)).project? name = some live := held
    rw [serve_admitted served, perform, ControlPlane.delete, hheld]
    rfl
  refine ⟨h.note (.deleted name) (h.serve (.delete name) s).2, ?_, ?_⟩
  · rw [Project.delete, named]
    dsimp only
    rw [(serves.reaches_call hserve _).run]
    rfl
  · rw [serves.noted, serves.plane_serve hserve]
    exact Std.ExtTreeMap.getElem?_erase_self

end Host.Serves

/-! ## Found and deleted again -/

section Reclaimed

variable {σ : Type} (h : Host σ) (plane : σ → ControlPlane)

/-- A deletion goes through, and leaves no project of the name. -/
def Host.Deletes (q : Project) (name : String) (s : σ) : Prop :=
  ∃ s', h.run q.delete.run s = (some (.ok ()), s') ∧ (plane s').project? name = none

/-- A resource that was created from a declaration leads back to its project. -/
structure Host.Reclaims [DurationReader]
    (declared : Parameters) (q : Project) (name : String) (s : σ) :
    Prop where
  recorded : q.externalName = some name
  /-- The project is stored as declared and without tokens. -/
  stored : ∃ live, (plane s).project? name = some live ∧
    live = { declared.toLive name ∅ with version := live.version } ∧
    ∀ r ∈ live.spec.roles, r.tokens = []
  deleted : h.Deletes plane q name s
  /-- An observation says that the project exists, unless a duration cannot be
  read. The project can be deleted afterwards in any case. -/
  observed : ∃ result seen s', h.run (q.perform .observe) s =
      (some (.observed result, seen), s') ∧
    ((∀ r ∈ declared.roles, Readable r.tokens) →
      ∃ sighting, result = .ok sighting ∧ sighting.found = true) ∧
    h.Deletes plane seen name s'

/-- A resource whose project is there and out of its reach: it records no name,
so that observing and deleting make no call. -/
structure Host.Loses [DurationReader] (declared : Parameters) (q : Project) (s : σ) : Prop where
  unrecorded : q.externalName = none
  stored : ∃ version, (plane s).project? "" =
    some { declared.toLive "" ∅ with version := version }
  unseen : h.run q.observe.run s = (some (.ok ({}, q)), s)
  kept : h.run q.delete.run s = (some (.ok ()), s)

variable {h plane} {moment : σ → Moment} {p q : Project} {s s' : σ}

/-- **Under a name that is not empty, what is created is found and deleted
again.** -/
theorem reclaims_of_created [DurationReader]
    (serves : h.Serves plane moment) {declared : Parameters}
    {name : String} (named : q.externalName = some name) (same : q.parameters = declared)
    (held : (plane s).Holds name (declared.toLive name ∅)
      (declared.roles.map (·.toLive ∅)))
    (unfailing : ∀ op, (plane s).failures op = none) :
    h.Reclaims plane declared q name s := by
  subst same
  obtain ⟨version, hproject⟩ := held.eq_sent
  generalize hlive : { q.parameters.toLive name ∅ with version := version } = live
    at hproject
  have htokens : ∀ r ∈ live.spec.roles, r.tokens = [] := by
    subst hlive
    exact fun _ hr => tokens_toLive_empty hr
  refine ⟨named, ⟨live, hproject, by subst hlive; rfl, htokens⟩,
    serves.run_delete named hproject (unfailing .delete), ?_⟩
  have hafter : (plane (h.serve (.get name) s).2).project? name = some live := by
    rw [serves.plane_serve (ControlPlane.serve_get hproject (unfailing .get) _)]
    exact hproject
  have hdelete : (plane (h.serve (.get name) s).2).failures .delete = none := by
    rw [serves.failures_serve, unfailing]
  have hperform : h.run (q.perform .observe) s = _ :=
    h.run_bind q.observe.run _ s
  rw [serves.run_observe named hproject (unfailing .get)] at hperform
  cases hjudged : q.parameters.evaluate name live live.observation
      (h.planningTime name s) with
  | ok verdict =>
      rw [hjudged] at hperform
      exact ⟨_, _, _, hperform, fun _ => ⟨_, rfl, rfl⟩,
        serves.run_delete (p := q.seeing live (h.planningTime name s)) named hafter hdelete⟩
  | error failure =>
      rw [hjudged] at hperform
      refine ⟨_, _, _, hperform, fun readable => ?_, serves.run_delete named hafter hdelete⟩
      have hunseen : live.observation = ∅ := by
        subst hlive
        rfl
      obtain ⟨verdict, hverdict⟩ := evaluate_isOk_of_readable readable name live
        (h.planningTime name s)
      rw [hunseen, hverdict] at hjudged
      cases hjudged

/-- **Under the empty name, what is created is lost.** -/
theorem loses_of_created [DurationReader] {declared : Parameters} (unnamed : q.externalName = none)
    (held : (plane s).Holds "" (declared.toLive "" ∅) (declared.roles.map (·.toLive ∅))) :
    h.Loses plane declared q s := by
  refine ⟨unnamed, held.eq_sent, ?_, ?_⟩
  · rw [Project.observe, unnamed]
    rfl
  · rw [Project.delete, unnamed]
    rfl

/-- **A created project is found and deleted again exactly if its name is not
empty.** Let a control plane serve one client and fail no call. After a creation
that goes through, the resource records the name that it created the project
under, the project is stored as declared and without tokens, an observation says
that it exists if the durations can be read, and a deletion goes through and
leaves no project of this name: all this exactly if the resource had a name, of
the live project or else of its own. Otherwise the project is stored under the
empty name, and no operation on the resource reaches it. -/
theorem created_is_reclaimed_iff [DurationReader] (serves : h.Serves plane moment)
    (unfailing : ∀ op, (plane s).failures op = none)
    (created : h.run p.create.run s = (some (.ok q), s')) :
    ((∃ name, h.Reclaims plane p.parameters q name s') ↔ p.address ≠ "") ∧
    (p.address = "" → h.Loses plane p.parameters q s') := by
  obtain ⟨_, hrecorded, hheld, hfaults⟩ := serves.create_cases created
  change q = p.setExternalName p.address at hrecorded
  change (plane s').Holds p.address (p.parameters.toLive p.address ∅) _ at hheld
  subst hrecorded
  have hunfailing : ∀ op, (plane s').failures op = none := by
    intro op
    rw [hfaults.failures, unfailing]
  refine ⟨⟨?_, ?_⟩, ?_⟩
  · rintro ⟨name, reclaims⟩ hempty
    have hrecorded := reclaims.recorded
    rw [hempty, externalName_setExternalName_empty] at hrecorded
    cases hrecorded
  · intro hne
    have hnamed := externalName_setExternalName_of_ne p hne
    exact ⟨p.address, reclaims_of_created serves hnamed rfl hheld hunfailing⟩
  · intro hempty
    rw [hempty] at hheld ⊢
    exact loses_of_created (externalName_setExternalName_empty p) hheld

end Reclaimed

/-- A resource that records an empty name, and so goes by its own. -/
def beacon : Project :=
  (Project.declare "shop" {
    description := some "lights"
    destinations := [{ server := some "https://10.0.0.1" }]
    roles := [{ name := "ci", tokens := [
      { id := "flash", expiresIn := some "1h", renewBefore := some "10m" }] }]
    }).setExternalName ""

/-- A control plane that holds another project and refuses a token. -/
def beaconStart : ControlPlane × Int := (foundryPlane, 1700000000)

theorem created_is_reclaimed_at_beacon :
    (∀ op, beaconStart.1.failures op = none) ∧ beacon.address ≠ "" ∧
    ∃ q s', (ticking "x").run beacon.create.run beaconStart = (some (.ok q), s') ∧
      ∃ name, (ticking "x").Reclaims Prod.fst beacon.parameters q name s' := by
  have unfailing : ∀ op, beaconStart.1.failures op = none := fun _ => rfl
  have hne : beacon.address ≠ "" := by decide
  have hcreated : ((ticking "x").run beacon.create.run beaconStart).1 =
      some (.ok (beacon.setExternalName "shop")) := by
    decide +kernel
  have ran : (ticking "x").run beacon.create.run beaconStart =
      (some (.ok (beacon.setExternalName "shop")), _) := Prod.ext hcreated rfl
  have reclaimed := created_is_reclaimed_iff (ticking_serves "x") unfailing ran
  exact ⟨unfailing, hne, _, _, ran, reclaimed.1.mpr hne⟩

/-- A resource without any name. -/
def nameless : Project := Project.declare "" {}

/-- Its creation goes through and stores a project. But then the resource records
no name, an observation finds nothing, and a deletion that goes through leaves
the project where it is. -/
theorem nameless_project_is_lost :
    ∃ q s', (ticking "x").run nameless.create.run ({}, 1700000000) =
        (some (.ok q), s') ∧
      q.externalName = none ∧
      (ticking "x").run q.observe.run s' = (some (.ok ({}, q)), s') ∧
      (ticking "x").run q.delete.run s' = (some (.ok ()), s') ∧
      s'.1.project? "" = some { name := "", version := "1" } := by
  have hcreated : ((ticking "x").run nameless.create.run ({}, 1700000000)).1 =
      some (.ok (nameless.setExternalName "")) := by
    decide +kernel
  have ran : (ticking "x").run nameless.create.run ({}, 1700000000) =
      (some (.ok (nameless.setExternalName "")), _) := Prod.ext hcreated rfl
  obtain ⟨_, _, hheld, _⟩ := (ticking_serves "x").create_cases ran
  have lost : (ticking "x").Loses Prod.fst nameless.parameters
      (nameless.setExternalName "") _ :=
    loses_of_created (externalName_setExternalName_empty nameless) hheld
  refine ⟨_, _, ran, lost.unrecorded, lost.unseen, lost.kept, ?_⟩
  decide +kernel

end Reconcile
