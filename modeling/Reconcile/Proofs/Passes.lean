import Mathlib
import Reconcile.Proofs.Undisturbed
import Reconcile.Schedule

/-!
# Passes that go through

A pass that runs alone against a control plane and goes through has done one of
three things. It has created the project where there was none, it has found the
project up to date, or it has updated it and every planned token was granted.
`ControlPlane.PassAlone` lists the three with what each of them found and what
it left behind. What holds along a row of passes follows from this.
-/

namespace Reconcile

/-- The resource once a pass has seen a live project. -/
def Project.seeing (p : Project) (live : Live.Project) (now : Instant) : Project :=
  Project.setCondition
    { p with
      parameters := p.parameters.fillFrom live
      observation := live.observation }
    (.available now)

section Naming

variable (p : Project)

/-- The name that was recorded is found again, unless it is empty. -/
theorem externalName_setExternalName (name : String) :
    (p.setExternalName name).externalName = (some name).filter (· ≠ "") := by
  rw [Project.externalName, Project.setExternalName,
    Std.ExtTreeMap.getElem?_insert_self]

theorem externalName_setExternalName_of_ne {name : String} (hne : name ≠ "") :
    (p.setExternalName name).externalName = some name := by
  rw [externalName_setExternalName]
  simp [hne]

theorem externalName_setExternalName_empty :
    (p.setExternalName "").externalName = none := by
  rw [externalName_setExternalName]
  rfl

end Naming

/-- **A judged project has been planned for**, and if it is up to date nothing
was planned. -/
theorem planned_of_evaluate [DurationReader] {p : Parameters} {name : String} {live : Live.Project}
    {observation : Observation} {now : Instant} {verdict : Verdict}
    (h : p.evaluate name live observation now = .ok verdict) :
    planTokens name p.roles observation now = .ok verdict.plan ∧
      (verdict.upToDate = true → verdict.plan = ∅) := by
  rw [Parameters.evaluate, Parameters.judge] at h
  obtain ⟨plan, hplan, h⟩ := bind_eq_ok.mp h
  dsimp only at h
  split at h
  · rename_i hempty
    obtain ⟨upToDate, _, h⟩ := bind_eq_ok.mp h
    cases h
    exact ⟨hplan, fun _ => Std.ExtTreeMap.isEmpty_iff.mp hempty⟩
  · cases h
    exact ⟨hplan, fun upToDate => absurd upToDate Bool.false_ne_true⟩

/-! ## Operations of a served client -/

namespace Host.Serves

open ControlPlane

variable {σ : Type} {h : Host σ} {plane : σ → ControlPlane} {moment : σ → Moment}
  (serves : h.Serves plane moment) {p p' : Project} {s s' : σ} {name : String}
  {live : Live.Project}

include serves

/-- An observation fetches the stored project and judges it. -/
theorem run_observe [DurationReader] (named : p.externalName = some name)
    (held : (plane s).project? name = some live)
    (served : (plane s).failures .get = none) :
    h.run p.observe.run s =
      (some ((p.parameters.evaluate name live live.observation
          (h.planningTime name s)).map fun verdict =>
        (⟨true, verdict.upToDate, verdict.lateInitialized⟩,
          p.seeing live (h.planningTime name s))),
        (h.serve (.get name) s).2) := by
  rw [Project.observe, named]
  dsimp only
  rw [(serves.reaches_call (serve_get held served _) _).run]
  dsimp only
  rw [(Host.reaches_now _).run]
  show h.run (Attempt.settled (p.parameters.evaluate name live live.observation
    (h.planningTime name s)) >>= _).run _ = _
  cases p.parameters.evaluate name live live.observation (h.planningTime name s) with
  | error failure => rfl
  | ok verdict => rfl

/-- A creation that goes through has found no project, and leaves one without
tokens. -/
theorem create_cases (ran : h.run p.create.run s = (some (.ok p'), s')) :
    (plane s).project? (p.externalName.getD p.metadata.name) = none ∧
      p' = p.setExternalName (p.externalName.getD p.metadata.name) ∧
      (plane s').Holds (p.externalName.getD p.metadata.name)
        (p.parameters.toLive (p.externalName.getD p.metadata.name) ∅)
        (p.parameters.roles.map (·.toLive ∅)) ∧
      (plane s).SameFaults (plane s') := by
  rw [Project.create] at ran
  generalize hserve : (plane s).serve (moment s) (.create _ false) = result
  obtain ⟨answer, cp⟩ := result
  rw [(serves.reaches_call hserve _).run] at ran
  have hfaults := (plane s).sameFaults_serve (moment s)
    (.create (p.parameters.toLive (p.externalName.getD p.metadata.name) ∅) false)
  rw [hserve] at hfaults
  cases answer with
  | error refusal => cases ran
  | ok created =>
      dsimp only at ran
      rw [(Host.reaches_note _ _).run] at ran
      cases ran
      obtain ⟨habsent, hname, hheld⟩ := holds_of_created hserve
      rw [serves.noted, serves.plane_serve hserve]
      exact ⟨habsent, by rw [hname]; rfl, hheld, hfaults⟩

end Host.Serves

namespace ControlPlane

section Alone

variable {now : Instant} {tail : ControlPlane → String} {cp cp' : ControlPlane}
  {p p' : Project} {name : String} {live : Live.Project}

/-! ## Observing alone -/

theorem run_observe_held [DurationReader] (tail : ControlPlane → String)
    (named : p.externalName = some name) (held : cp.project? name = some live)
    (served : cp.failures .get = none) :
    (undisturbed now tail).run p.observe.run cp =
      (some ((p.parameters.evaluate name live live.observation now).map fun verdict =>
        (⟨true, verdict.upToDate, verdict.lateInitialized⟩, p.seeing live now)),
        cp.recorded (.get name)) := by
  have hserve := serve_get held served ⟨now.seconds, tail cp⟩
  rw [(undisturbed_serves now tail).run_observe named held served]
  exact congrArg (Prod.mk _) (congrArg Prod.snd hserve)

/-- What an observation that goes through has found: nothing, or a stored
project that can be judged. -/
theorem observe_cases [DurationReader] {sighting : Sighting}
    (h : (undisturbed now tail).run p.observe.run cp =
      (some (.ok (sighting, p')), cp')) :
    (sighting = {} ∧ p' = p ∧ cp'.projects = cp.projects) ∨
    ∃ name live verdict, p.externalName = some name ∧
      cp.project? name = some live ∧ cp.failures .get = none ∧
      p.parameters.evaluate name live live.observation now = .ok verdict ∧
      sighting = ⟨true, verdict.upToDate, verdict.lateInitialized⟩ ∧
      p' = p.seeing live now ∧ cp' = cp.recorded (.get name) := by
  cases named : p.externalName with
  | none =>
      rw [Project.observe, named] at h
      cases h
      exact Or.inl ⟨rfl, rfl, rfl⟩
  | some name =>
      cases served : cp.failures .get with
      | some refusal =>
          rw [Project.observe, named] at h
          dsimp only at h
          rw [run_call_bind (serve_refused (r := .get name) served _)] at h
          dsimp only at h
          split at h
          · cases h
            exact Or.inl ⟨rfl, rfl, rfl⟩
          · cases h
      | none =>
          cases held : cp.project? name with
          | none =>
              rw [Project.observe, named] at h
              dsimp only at h
              rw [run_call_bind (serve_get_missing held served _)] at h
              cases h
              exact Or.inl ⟨rfl, rfl, rfl⟩
          | some live =>
              rw [run_observe_held tail named held served] at h
              cases judged : p.parameters.evaluate name live live.observation now with
              | error failure =>
                  rw [judged] at h
                  cases h
              | ok verdict =>
                  rw [judged] at h
                  cases h
                  exact Or.inr ⟨name, live, verdict, rfl, held, rfl, judged, rfl,
                    rfl, rfl⟩

/-! ## Updating alone -/

/-- An update that goes through was planned, and every planned token was
granted. -/
theorem update_cases [DurationReader] (named : p.externalName = some name)
    (held : cp.project? name = some live) {issued : Secrets}
    (h : (undisturbed now tail).run p.update.run cp = (some (.ok issued), cp')) :
    ∃ plan, planTokens name p.parameters.roles live.observation now = .ok plan ∧
      cp.refused plan.toList = [] ∧
      cp'.Holds name (p.parameters.toLive name live.observation)
        (cp.rolesAfter p live now plan) := by
  obtain ⟨served, sending, plan, planned⟩ :=
    (undisturbed_serves now tail).sent_of_handedBack named held h rfl
  have hplanned : planTokens name p.parameters.roles live.observation now = .ok plan :=
    planned
  obtain ⟨brought, cp₁, hrun, _, hheld, _⟩ :=
    run_update tail named held served sending hplanned
  -- a refused token would have ended the update in a failure
  rw [hrun, Prod.mk.injEq, Option.some.injEq] at h
  obtain ⟨hresult, rfl⟩ := h
  refine ⟨plan, planned, ?_, hheld⟩
  by_contra hfailed
  rw [Project.concluded, if_neg hfailed] at hresult
  cases hresult

/-! ## The pass -/

/-- What a pass that runs alone and goes through has done, with its report, the
resource and the control plane after it. -/
inductive PassAlone [DurationReader] (now : Instant) (p : Project) (cp : ControlPlane) :
    PassReport → Project → ControlPlane → Prop where
  /-- There was no project, and now there is one without tokens. -/
  | created {name : String} {cp' : ControlPlane}
      (hname : p.externalName.getD p.metadata.name = name)
      (absent : cp.project? name = none)
      (held : cp'.Holds name (p.parameters.toLive name ∅)
        (p.parameters.roles.map (·.toLive ∅))) :
      PassAlone now p cp ⟨.notExists, .created⟩ (p.setExternalName name) cp'
  /-- The project was up to date, and nothing was done. -/
  | settled {name : String} {live : Live.Project} {verdict : Verdict}
      {cp' : ControlPlane} (named : p.externalName = some name)
      (held : cp.project? name = some live)
      (judged : p.parameters.evaluate name live live.observation now = .ok verdict)
      (upToDate : verdict.upToDate = true) (same : cp'.projects = cp.projects) :
      PassAlone now p cp ⟨.upToDate, .nothing⟩ (p.seeing live now) cp'
  /-- The project was not up to date; it was updated, and all that was planned
  for it was granted. -/
  | updated {name : String} {live : Live.Project} {verdict : Verdict}
      {issued : Nat} {cp' : ControlPlane} (named : p.externalName = some name)
      (held : cp.project? name = some live)
      (judged : p.parameters.evaluate name live live.observation now = .ok verdict)
      (drifted : verdict.upToDate = false)
      (unrefused : cp.refused verdict.plan.toList = [])
      (left : cp'.Holds name
        ((p.seeing live now).parameters.toLive name live.observation)
        (cp.rolesAfter (p.seeing live now) live now verdict.plan)) :
      PassAlone now p cp ⟨.drifted, .updated issued⟩ (p.seeing live now) cp'

theorem attempt_eq_finished {σ α : Type} {h : Host σ} {program : Attempt α}
    {s s' : σ} {a : α} (hrun : h.attempt program s = (.finished a, s')) :
    h.run program.run s = (some (.ok a), s') := by
  rw [Host.attempt] at hrun
  split at hrun
  · cases hrun
  · rename_i heq
    cases hrun
    exact heq
  · cases hrun

theorem settle_notExists [DurationReader] {report : PassReport}
    (h : (undisturbed now tail).settle p .notExists cp = (.finished report, p', cp')) :
    report = ⟨.notExists, .created⟩ ∧
      (undisturbed now tail).run p.create.run cp = (some (.ok p'), cp') := by
  rw [Host.settle] at h
  split at h
  · rename_i hcreate
    cases h
    exact ⟨rfl, attempt_eq_finished hcreate⟩
  · cases h
  · cases h

theorem settle_drifted [DurationReader] {report : PassReport}
    (h : (undisturbed now tail).settle p .drifted cp = (.finished report, p', cp')) :
    ∃ issued : Secrets, report = ⟨.drifted, .updated issued.size⟩ ∧ p' = p ∧
      (undisturbed now tail).run p.update.run cp = (some (.ok issued), cp') := by
  rw [Host.settle] at h
  split at h
  · rename_i issued _ hupdate
    cases h
    exact ⟨issued, rfl, rfl, attempt_eq_finished hupdate⟩
  · cases h
  · cases h

/-- **There is nothing else that a pass can have done.** -/
theorem passAlone_of_pass [DurationReader] {report : PassReport}
    (h : (undisturbed now tail).pass p cp = (.finished report, p', cp')) :
    PassAlone now p cp report p' cp' := by
  rw [Host.pass] at h
  split at h
  · rename_i sighting seen cp₁ hattempt
    rcases observe_cases (attempt_eq_finished hattempt) with
      ⟨rfl, rfl, hprojects⟩ |
      ⟨name, live, ⟨upToDate, lateInitialized, plan⟩, named, held, served, judged,
        rfl, rfl, rfl⟩
    · -- nothing was seen: there is no name, or no project, or none is admitted
      obtain ⟨rfl, hcreate⟩ := settle_notExists h
      obtain ⟨habsent, rfl, hheld, _⟩ :=
        (undisturbed_serves now tail).create_cases hcreate
      change cp₁.projects[_]? = none at habsent
      rw [hprojects] at habsent
      exact .created rfl habsent hheld
    · cases upToDate with
      | true =>
          cases h
          exact .settled named held judged rfl rfl
      | false =>
          obtain ⟨issued, rfl, rfl, hupdate⟩ := settle_drifted h
          have hnamed : (p.seeing live now).externalName = some name := named
          have hheld : (cp.recorded (.get name)).project? name = some live := held
          obtain ⟨plan', hplanned, hrefused, hleft⟩ :=
            update_cases hnamed hheld hupdate
          -- both plan for the same tokens at the same time
          have hsame : plan' = plan :=
            Except.ok.inj (hplanned.symm.trans (planned_of_evaluate judged).1)
          subst hsame
          exact .updated named held judged rfl hrefused hleft
  · cases h
  · cases h

end Alone

end ControlPlane

end Reconcile
