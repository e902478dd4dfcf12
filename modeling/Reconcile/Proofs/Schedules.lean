import Mathlib
import Reconcile.Proofs.Courses
import Reconcile.Proofs.Ordering
import Reconcile.Proofs.Recording
import Reconcile.Proofs.Validity

/-!
# Schedules that start from nothing

A schedule is run over a project that nobody has created yet, alone with a
control plane that refuses nothing. Its passes create the project, have all of
its tokens issued, put these in order where the declaration wants another one
than that of their issue, and from then on find nothing to do.

What one pass hands to the next is `Poised`: the resource, the project that is
stored for it, and the verdict that the next pass will come to. There is one
lemma for every kind of pass, and the passes after the last change are followed
by induction.
-/

namespace Reconcile

open ControlPlane

/-- What a pass finds of a project that is held, and the tokens that it sees. -/
theorem ControlPlane.Holds.seen {cp : ControlPlane} {name : String}
    {base : Live.Project} {roles : List Live.Role} (held : cp.Holds name base roles)
    (distinct : (roles.map (·.name)).Nodup) :
    ∃ version live, cp.project? name = some live ∧
      live = Live.Project.reindex
        { base with version := version, spec.roles := roles } ∧
      SeesAfter live roles := by
  obtain ⟨live, hproject, sees⟩ := held.current distinct
  obtain ⟨version, hstored⟩ := held
  exact ⟨version, live, hproject, Option.some.inj (hproject.symm.trans hstored), sees⟩

/-! ## Between two passes -/

/-- What a declaration must be like so that it can be met for good: its keys and
their texts are distinct, no part of a destination is empty, and what it asks of
fresh tokens can be read and is sustainable. -/
structure Parameters.Attainable [DurationReader] (p : Parameters) (now : Instant) : Prop where
  distinct : DistinctTokens p.roles
  texts : ((specsOf p.roles).map fun slot => (slotKey slot).text).Nodup
  filled : ∀ d ∈ p.destinations, d.Filled
  sustainable : ∀ slot ∈ specsOf p.roles,
    ∃ terms, slot.2.terms = .ok terms ∧ terms.Sustainable now

/-- A resource and a control plane between two passes. The resource is named and
declares the parameters. The control plane refuses nothing, and what it holds
under the name is as it was sent and will get this verdict. -/
structure Poised [DurationReader] (p : Parameters) (name : String) (now : Instant)
    (live : Live.Project) (verdict : Verdict) (q : Project) (cp : ControlPlane) :
    Prop where
  named : q.externalName = some name
  declared : q.parameters = p
  served : ∀ op, cp.failures op = none
  granting : ∀ key, cp.tokenFailures key = none
  held : cp.project? name = some live
  sent : AsSent p live
  judged : p.evaluate name live live.observation now = .ok verdict

section Passes

variable {p : Parameters} {name : String} {now : Instant} {live : Live.Project}
  {verdict : Verdict} {q : Project} {cp cp' : ControlPlane}
  (tail : ControlPlane → String)

theorem attempt_eq {σ α : Type} {h : Host σ} {program : Attempt α} {s s' : σ} {a : α}
    (hrun : h.run program.run s = (some (.ok a), s')) :
    h.attempt program s = (.finished a, s') := by
  rw [Host.attempt, hrun]

namespace Poised

variable [DurationReader]

theorem unrefused (h : Poised p name now live verdict q cp) (key : TokenKey) :
    cp.refusal? key = none := by
  rw [refusal?, h.served, h.granting]
  rfl

theorem attempt_observe (h : Poised p name now live verdict q cp) :
    (undisturbed now tail).attempt q.observe cp =
      (.finished (⟨true, verdict.upToDate, verdict.lateInitialized⟩,
        q.seeing live now), cp.recorded (.get name)) := by
  have hjudged : q.parameters.evaluate name live live.observation now =
      .ok verdict := by
    rw [h.declared]
    exact h.judged
  refine attempt_eq ?_
  rw [run_observe_held tail h.named h.held (h.served .get), hjudged]
  rfl

/-- Having been seen does not change where a resource stands. -/
theorem seen (h : Poised p name now live verdict q cp)
    (filled : ∀ d ∈ p.destinations, d.Filled) :
    Poised p name now live verdict (q.seeing live now) (cp.recorded (.get name)) where
  named := h.named
  declared := by
    show q.parameters.fillFrom live = p
    rw [h.declared, h.sent.fillFrom_eq filled]
  served := h.served
  granting := h.granting
  held := h.held
  sent := h.sent
  judged := h.judged

/-- What is stored by a pass is what the next one finds. -/
theorem next (h : Poised p name now live verdict q cp)
    (filled : ∀ d ∈ p.destinations, d.Filled) (faults : cp.SameFaults cp')
    {live' : Live.Project} {verdict' : Verdict}
    (held : cp'.project? name = some live') (sent : AsSent p live')
    (judged : p.evaluate name live' live'.observation now = .ok verdict') :
    Poised p name now live' verdict' (q.seeing live now) cp' where
  named := h.named
  declared := (h.seen filled).declared
  served op := by rw [faults.failures, h.served]
  granting key := by rw [faults.tokenFailures, h.granting]
  held := held
  sent := sent
  judged := judged

/-- A pass that finds the project up to date does no more than fetch it. -/
theorem pass_upToDate (h : Poised p name now live verdict q cp)
    (upToDate : verdict.upToDate = true) :
    (undisturbed now tail).pass q cp =
      (.finished ⟨.upToDate, .nothing⟩, q.seeing live now, cp.recorded (.get name)) := by
  rw [Host.pass, h.attempt_observe tail, upToDate]
  rfl

/-- **A pass that finds the project drifted** fetches it twice, sends it, and has
every planned token issued. -/
theorem pass_drifted (h : Poised p name now live verdict q cp)
    (filled : ∀ d ∈ p.destinations, d.Filled) (drifted : verdict.upToDate = false) :
    ∃ brought cp', (undisturbed now tail).pass q cp =
        (.finished ⟨.drifted, .updated (Secrets.file ∅ brought).size⟩,
          q.seeing live now, cp') ∧
      brought.map Prod.fst = verdict.plan.keys ∧
      cp'.Holds name (p.toLive name live.observation)
        (cp.rolesAfter q live now verdict.plan) ∧
      cp.SameFaults cp' ∧
      cp'.calls = cp.calls ++ .get name :: .get name ::
        .update ((q.seeing live now).updated name live) ::
          verdict.plan.toList.map fun entry => .issue entry.2 := by
  have hseen := h.seen filled
  have hplanned : planTokens name (q.seeing live now).parameters.roles
      live.observation now = .ok verdict.plan := by
    rw [hseen.declared]
    exact (planned_of_evaluate h.judged).1
  obtain ⟨brought, cp', hrun, hbrought, hheld, hfaults⟩ :=
    run_update tail hseen.named hseen.held (hseen.served .get) (hseen.served .update)
      hplanned
  have hcalls := calls_update tail hseen.named hseen.held (hseen.served .get)
    (hseen.served .update) hplanned
  rw [hrun] at hcalls
  rw [granted_eq_self hseen.unrefused] at hbrought
  rw [refused_eq_nil hseen.unrefused] at hrun
  rw [hseen.declared] at hheld
  refine ⟨brought, cp', ?_, hbrought, hheld,
    (cp.sameFaults_recorded (.get name)).trans hfaults, ?_⟩
  · rw [Host.pass, h.attempt_observe tail, drifted]
    show (undisturbed now tail).settle (q.seeing live now) .drifted
      (cp.recorded (.get name)) = _
    rw [Host.settle, attempt_eq hrun]
  · show cp'.calls = _
    rw [hcalls]
    show (cp.calls ++ [Request.get name]) ++ _ = _
    rw [List.append_assoc]
    rfl

end Poised

end Passes

/-! ## The first pass -/

section Created

variable {now : Instant} {p : Project} {name : String} {live : Live.Project}

/-- A project is created where there is none. -/
theorem ControlPlane.serve_create {cp : ControlPlane} {sent : Live.Project}
    (missing : cp.project? sent.name = none) (served : cp.failures .create = none)
    (m : Moment) :
    ∃ stored cp', cp.serve m (.create sent false) = (.ok stored, cp') ∧
      stored.name = sent.name ∧ cp'.Holds sent.name sent sent.spec.roles ∧
      cp.SameFaults cp' := by
  have hperform : (cp.recorded (.create sent false)).create sent false =
      (cp.recorded (.create sent false)).store sent := by
    rw [create, project?_recorded, missing]
    rfl
  rw [serve_admitted served, perform, hperform]
  exact ⟨_, _, rfl, rfl, (cp.recorded _).holds_store sent, ⟨rfl, rfl⟩⟩

/-- **A creation makes one call**, and leaves the project without tokens. -/
theorem ControlPlane.run_create (now : Instant) (tail : ControlPlane → String)
    {cp : ControlPlane}
    (hname : p.externalName.getD p.metadata.name = name)
    (missing : cp.project? name = none) (served : cp.failures .create = none) :
    ∃ cp', (undisturbed now tail).run p.create.run cp =
        (some (.ok (p.setExternalName name)), cp') ∧
      cp'.Holds name (p.parameters.toLive name ∅)
        (p.parameters.roles.map (·.toLive ∅)) ∧
      cp.SameFaults cp' ∧
      cp'.calls = cp.calls ++ [.create (p.parameters.toLive name ∅) false] := by
  have hmissing : cp.project? (p.parameters.toLive name ∅).name = none := missing
  obtain ⟨stored, cp', hserve, hstored, hheld, hfaults⟩ :=
    serve_create hmissing served ⟨now.seconds, tail cp⟩
  have hcalls := calls_serve cp ⟨now.seconds, tail cp⟩
    (.create (p.parameters.toLive name ∅) false)
  rw [hserve] at hcalls
  refine ⟨cp', ?_, hheld, hfaults, hcalls⟩
  subst hname
  rw [Project.create, run_call_bind hserve]
  dsimp only
  rw [run_note_bind, hstored]
  rfl

/-- The pending tokens of a project are drift. -/
theorem evaluate_of_planned [DurationReader] {p : Parameters} {plan : TokenPlan}
    (sent : AsSent p live) (filled : ∀ d ∈ p.destinations, d.Filled)
    (planned : planTokens name p.roles live.observation now = .ok plan)
    (pending : plan ≠ ∅) :
    p.evaluate name live live.observation now = .ok ⟨false, false, plan⟩ := by
  have hsome : plan.isEmpty = false := by
    cases hempty : plan.isEmpty with
    | false => rfl
    | true => exact absurd (Std.ExtTreeMap.isEmpty_iff.mp hempty) pending
  rw [Parameters.evaluate, sent.fillFrom_eq filled, sent.hasGaps_eq_false,
    Parameters.judge, planned, ok_bind, hsome]
  rfl

theorem observation_nothing : ({ name := "" } : Live.Project).observation = ∅ := rfl

/-- A project that was just created is up to date if the declaration has no
tokens, and otherwise all of them are planned. -/
theorem judged_created [DurationReader] {version : String}
    (attainable : p.parameters.Attainable now) (nonneg : Instant.epoch ≤ now)
    (hlive : live = Live.Project.reindex { p.parameters.toLive name ∅ with
      version := version, spec.roles := p.parameters.roles.map (·.toLive ∅) })
    (unseen : NoneSeen p.parameters.roles live.observation) :
    ∃ plan, p.parameters.evaluate name live live.observation now =
      .ok ⟨(specsOf p.parameters.roles).isEmpty, false, plan⟩ := by
  cases hspecs : specsOf p.parameters.roles with
  | nil =>
      have hsettled : ∀ observation, Settled p.parameters.roles observation now := by
        intro observation slot hslot
        rw [hspecs] at hslot
        cases hslot
      rw [← observation_nothing] at hlive
      exact ⟨∅, evaluate_of_settled hlive (hsettled _) (hsettled _)
        attainable.distinct nonneg attainable.filled⟩
  | cons slot specs =>
      have hsent : AsSent p.parameters live := .of_reindex hlive
      have hreadable : ∀ slot ∈ specsOf p.parameters.roles, ∃ terms, slot.2.terms = .ok terms := by
        intro slot hslot
        obtain ⟨terms, hterms, _⟩ := attainable.sustainable slot hslot
        exact ⟨terms, hterms⟩
      obtain ⟨plan, hplanned⟩ := exists_plan_of_noneSeen hreadable unseen name now
      have hpending : plan ≠ ∅ := by
        rintro rfl
        have hkeys := (keys_perm_of_noneSeen attainable.distinct unseen hplanned).length_eq
        rw [hspecs] at hkeys
        cases hkeys
      exact ⟨plan, evaluate_of_planned hsent attainable.filled hplanned hpending⟩

/-- **The first pass creates the project**, and it is judged up to date exactly
if the declaration has no tokens. -/
theorem pass_create [DurationReader] (tail : ControlPlane → String)
    (attainable : p.parameters.Attainable now) (nonneg : Instant.epoch ≤ now)
    (unnamed : p.externalName = none) (hne : p.metadata.name ≠ "") :
    ∃ live plan cp', (undisturbed now tail).pass p {} =
        (.finished ⟨.notExists, .created⟩, p.setExternalName p.metadata.name, cp') ∧
      cp'.calls = [.create (p.parameters.toLive p.metadata.name ∅) false] ∧
      NoneSeen p.parameters.roles live.observation ∧
      Poised p.parameters p.metadata.name now live
        ⟨(specsOf p.parameters.roles).isEmpty, false, plan⟩
        (p.setExternalName p.metadata.name) cp' := by
  have hname : p.externalName.getD p.metadata.name = p.metadata.name := by
    rw [unnamed]
    rfl
  have hmissing : ({} : ControlPlane).project? p.metadata.name = none :=
    Std.ExtTreeMap.getElem?_empty
  obtain ⟨cp', hrun, hheld, hfaults, hcalls⟩ := run_create now tail hname hmissing rfl
  have hobserve : (undisturbed now tail).attempt p.observe {} =
      (.finished ({}, p), {}) := by
    rw [Host.attempt, Project.observe, unnamed]
    rfl
  have hpass : (undisturbed now tail).pass p {} =
      (.finished ⟨.notExists, .created⟩, p.setExternalName p.metadata.name, cp') := by
    rw [Host.pass, hobserve]
    show (undisturbed now tail).settle p .notExists {} = _
    rw [Host.settle, attempt_eq hrun]
  have hnamed : (p.setExternalName p.metadata.name).externalName =
      some p.metadata.name := externalName_setExternalName_of_ne p hne
  have hshown : ∀ slot ∈ specsOf p.parameters.roles,
      cp'.shown (p.setExternalName p.metadata.name) slot = none :=
    fun _ hslot => shown_created attainable.distinct hslot hheld
  obtain ⟨version, hproject⟩ := hheld
  generalize hlive : Live.Project.reindex _ = live at hproject
  have hunseen : NoneSeen p.parameters.roles live.observation := by
    intro slot hslot
    rw [← shown_of_held hnamed hproject]
    exact hshown slot hslot
  have hsent : AsSent p.parameters live := .of_reindex hlive.symm
  obtain ⟨plan, hjudged⟩ := judged_created attainable nonneg hlive.symm hunseen
  refine ⟨live, plan, cp', hpass, hcalls, hunseen, hnamed, rfl, ?_, ?_, hproject,
    hsent, hjudged⟩
  · intro op
    rw [hfaults.failures]
  · intro key
    rw [hfaults.tokenFailures]

end Created

/-! ## The passes that update -/

section Updates

variable [DurationReader] {now : Instant} {p : Parameters} {name : String} {live : Live.Project}
  {plan : TokenPlan} {q : Project} {cp : ControlPlane}

/-- Under keys of distinct texts every issued token is counted. -/
theorem size_file_of_noneSeen {brought : List (TokenKey × String)}
    (attainable : p.Attainable now)
    (hkeys : plan.keys.Perm ((specsOf p.roles).map slotKey))
    (hbrought : brought.map Prod.fst = plan.keys) :
    (Secrets.file ∅ brought).size = (specsOf p.roles).length := by
  have hlength : brought.length = (specsOf p.roles).length := by
    have h := hkeys.length_eq
    rw [← hbrought, List.length_map, List.length_map] at h
    exact h
  have hnodup : (brought.map (·.1.text)).Nodup := by
    have htexts := hkeys.map TokenKey.text
    rw [← hbrought, List.map_map, List.map_map] at htexts
    exact htexts.nodup_iff.mpr attainable.texts
  have hsize := (Secrets.size_file_eq_iff brought ∅).mpr
    ⟨fun entry _ => Std.ExtTreeMap.not_mem_empty, hnodup⟩
  rw [hsize, Std.ExtTreeMap.size_empty, Nat.zero_add, hlength]

/-- **The pass that issues the tokens** issues all of them. The project is up to
date then exactly if every role lists its ids in ascending order. -/
theorem Poised.pass_issue (h : Poised p name now live ⟨false, false, plan⟩ q cp)
    (tail : ControlPlane → String) (attainable : p.Attainable now)
    (whole : now.subsecond = 0) (nonneg : Instant.epoch ≤ now)
    (unseen : NoneSeen p.roles live.observation) :
    ∃ live' cp', (undisturbed now tail).pass q cp =
        (.finished ⟨.drifted, .updated (specsOf p.roles).length⟩,
          q.seeing live now, cp') ∧
      plan.keys.Perm ((specsOf p.roles).map slotKey) ∧
      cp'.calls = cp.calls ++ .get name :: .get name ::
        .update ((q.seeing live now).updated name live) ::
          plan.toList.map (fun entry => .issue entry.2) ∧
      Settled p.roles live'.observation now ∧
      Poised p name now live' ⟨decide (Ascending p.roles), false, ∅⟩
        (q.seeing live now) cp' := by
  obtain ⟨brought, cp', hpass, hbrought, hheld, hfaults, hcalls⟩ :=
    h.pass_drifted tail attainable.filled rfl
  obtain rfl := h.declared
  have hplanned := (planned_of_evaluate h.judged).1
  have hkeys := keys_perm_of_noneSeen attainable.distinct unseen hplanned
  rw [size_file_of_noneSeen attainable hkeys hbrought] at hpass
  have hnames : ((cp.rolesAfter q live now plan).map (·.name)).Nodup := by
    rw [names_rolesAfter]
    exact attainable.distinct.names
  obtain ⟨version, live', hproject, hlive', sees⟩ := hheld.seen hnames
  have hsettled : Settled q.parameters.roles live'.observation now := by
    refine settled_after_update attainable.distinct hplanned sees whole nonneg
      h.unrefused ?_ ?_
    · intro slot hslot terms hterms
      obtain ⟨terms', hterms', hsustainable⟩ := attainable.sustainable slot hslot
      cases hterms.symm.trans hterms'
      exact hsustainable
    · -- there is no token that is not planned
      intro slot hslot _ _ _ _ hcurrent
      rw [unseen slot hslot] at hcurrent
      cases hcurrent
  have hsent : AsSent q.parameters live' := .of_reindex hlive'
  have hjudged := evaluate_after_first_update h.unrefused unseen hplanned hlive'
    hsettled attainable.distinct attainable.filled
  exact ⟨live', cp', hpass, hkeys, hcalls, hsettled,
    h.next attainable.filled hfaults hproject hsent hjudged⟩

/-- **The pass that puts settled tokens in order** issues none, and leaves the
project up to date. -/
theorem Poised.pass_order (h : Poised p name now live ⟨false, false, ∅⟩ q cp)
    (tail : ControlPlane → String) (attainable : p.Attainable now)
    (nonneg : Instant.epoch ≤ now) (settled : Settled p.roles live.observation now) :
    ∃ live' cp', (undisturbed now tail).pass q cp =
        (.finished ⟨.drifted, .updated 0⟩, q.seeing live now, cp') ∧
      cp'.calls = cp.calls ++ .get name :: .get name ::
        .update ((q.seeing live now).updated name live) ::
          (∅ : TokenPlan).toList.map (fun entry => .issue entry.2) ∧
      Poised p name now live' ⟨true, false, ∅⟩ (q.seeing live now) cp' := by
  obtain ⟨brought, cp', hpass, hbrought, hheld, hfaults, hcalls⟩ :=
    h.pass_drifted tail attainable.filled rfl
  obtain rfl := h.declared
  have hnothing : brought = [] := List.map_eq_nil_iff.mp hbrought
  rw [hnothing] at hpass
  rw [rolesAfter_empty] at hheld
  have hnames : ((q.parameters.roles.map
      (·.toLive live.observation)).map (·.name)).Nodup := by
    rw [names_toLive]
    exact attainable.distinct.names
  obtain ⟨version, live', hproject, hlive', sees⟩ := hheld.seen hnames
  have hsettled' : Settled q.parameters.roles live'.observation now := by
    rw [← rolesAfter_empty cp q live now] at sees
    exact settled.after_update sees attainable.distinct nonneg
  have hsent : AsSent q.parameters live' := .of_reindex hlive'
  have hjudged := evaluate_of_settled hlive' settled hsettled' attainable.distinct
    nonneg attainable.filled
  exact ⟨live', cp', hpass, hcalls,
    h.next attainable.filled hfaults hproject hsent hjudged⟩

end Updates

/-! ## The passes of a schedule -/

/-- A run once a pass has gone through. -/
def ScheduleRun.completed {σ : Type} (run : ScheduleRun σ) (pass : Nat)
    (report : PassReport) (q : Project) (s : σ) : ScheduleRun σ where
  project := q
  host := s
  summary := { run.summary with
    passes := pass
    state := report.state
    tokensIssued := run.summary.tokensIssued + report.action.issued }
  log := run.log ++ [.passComplete pass report]

section Schedule

variable [DurationReader] {now : Instant} {tail : ControlPlane → String} (c : Schedule)
  {left pass : Nat} {run : ScheduleRun ControlPlane} {report : PassReport}
  {q : Project} {cp : ControlPlane}

/-- What a pass that goes through does to a run. -/
theorem runPasses_succ
    (hpass : (undisturbed now tail).pass run.project run.host =
      (.finished report, q, cp)) :
    c.runPasses (undisturbed now tail) (left + 1) pass run =
      if report.state = .upToDate ∧ c.keepGoing = false ∨ left = 0 then
        run.completed pass report q cp
      else c.runPasses (undisturbed now tail) left (pass + 1)
        (run.completed pass report q cp) := by
  have hending : PassStart.ending ⟨run.project, run.host⟩ (undisturbed now tail) =
      .finished report := congrArg Prod.fst hpass
  have hpassed : c.passed (undisturbed now tail) pass run =
      run.completed pass report q cp := by
    rw [Schedule.passed, hpass]
    rfl
  have hlast := c.isLast_finished report
  rw [← hending] at hlast
  by_cases last : report.state = .upToDate ∧ c.keepGoing = false
  · rw [if_pos (Or.inl last), Schedule.runPasses_of_last rfl (hlast.mpr last), hpassed]
  · rw [Schedule.runPasses_of_not_last rfl (mt hlast.mp last), hpassed]
    by_cases hleft : left = 0
    · rw [if_pos hleft, if_pos (Or.inr hleft)]
    · rw [if_neg hleft, if_neg (not_or.mpr ⟨last, hleft⟩)]
      rfl

/-- After a pass that was not the last one the schedule goes on. -/
theorem runPasses_onward
    (hpass : (undisturbed now tail).pass run.project run.host =
      (.finished report, q, cp)) (hstate : report.state ≠ .upToDate) :
    c.runPasses (undisturbed now tail) (left + 2) pass run =
      c.runPasses (undisturbed now tail) (left + 1) (pass + 1)
        (run.completed pass report q cp) := by
  rw [runPasses_succ c hpass, if_neg]
  rintro (⟨hupToDate, _⟩ | hleft)
  · exact hstate hupToDate
  · cases hleft

/-- Where nothing is deleted in the end, a run is what its passes make of it. -/
theorem run_of_kept {σ : Type} {h : Host σ} {p : Project} {s : σ}
    (kept : c.delete = false) :
    c.run h p s = c.runPasses h c.passes 1 ⟨p, s, {}, []⟩ := by
  rw [Schedule.run, Schedule.finish, kept, Bool.not_false, Bool.true_or, if_pos rfl]

/-- **Once up to date, always up to date.** The passes that follow issue nothing,
change nothing and ask for nothing but the project; the first of them is the last
one, unless the schedule keeps going. -/
theorem runPasses_settled {p : Parameters} {name : String} {live : Live.Project}
    {verdict : Verdict} (left : Nat)
    (h : Poised p name now live verdict run.project run.host)
    (filled : ∀ d ∈ p.destinations, d.Filled) (upToDate : verdict.upToDate = true) :
    ∃ fetched,
      (c.runPasses (undisturbed now tail) (left + 1) pass run).summary =
        { run.summary with
          passes := if c.keepGoing then pass + left else pass
          state := .upToDate } ∧
      (c.runPasses (undisturbed now tail) (left + 1) pass run).host.calls =
        run.host.calls ++ List.replicate fetched (.get name) := by
  have hpass := h.pass_upToDate tail upToDate
  induction left generalizing pass run with
  | zero =>
      rw [runPasses_succ c hpass, if_pos (Or.inr rfl), Nat.add_zero, ite_self]
      exact ⟨1, rfl, rfl⟩
  | succ left ih =>
      cases hgoing : c.keepGoing with
      | false =>
          rw [runPasses_succ c hpass, if_pos (Or.inl ⟨rfl, hgoing⟩)]
          exact ⟨1, rfl, rfl⟩
      | true =>
          have hstays : ¬ ((⟨.upToDate, .nothing⟩ : PassReport).state = .upToDate ∧
              c.keepGoing = false ∨ left + 1 = 0) := by
            rw [hgoing]
            simp
          have hseen := h.seen filled
          obtain ⟨fetched, hsummary, hcalls⟩ := @ih (pass + 1)
            (run.completed pass ⟨.upToDate, .nothing⟩
              (run.project.seeing live now) (run.host.recorded (.get name)))
            hseen (hseen.pass_upToDate tail upToDate)
          rw [runPasses_succ c hpass, if_neg hstays]
          refine ⟨fetched + 1, ?_, ?_⟩
          · rw [hsummary, hgoing, if_pos rfl, if_pos rfl, Nat.add_right_comm]
            rfl
          · rw [hcalls, List.replicate_succ, ← List.singleton_append,
              ← List.append_assoc]
            rfl

end Schedule

/-! ## The whole run -/

/-- The passes that it takes until a new project is found up to date. -/
def passesNeeded (roles : List Role) : Nat :=
  if (specsOf roles).isEmpty then 2 else if Ascending roles then 3 else 4

/-- What a run comes to that does each thing once. It ends up to date and without
failures, after as many passes as are needed or asked for, and has issued every
declared token. The control plane was asked once to create the project, at most
twice to update it, and once for each declared token. -/
structure EachOnce (c : Schedule) (roles : List Role)
    (run : ScheduleRun ControlPlane) : Prop where
  passes : run.summary.passes = if c.keepGoing then c.passes else passesNeeded roles
  failures : run.summary.failures = 0
  state : run.summary.state = .upToDate
  tokensIssued : run.summary.tokensIssued = (specsOf roles).length
  created : run.host.count .create = 1
  updated : run.host.count .update ≤ 2
  issued : (keysAsked run.host.calls).Perm ((specsOf roles).map slotKey)

section Whole

variable [DurationReader] {now : Instant} {tail : ControlPlane → String} {c : Schedule}

/-- A pass that is not the last one is followed by the next. -/
theorem EachOnce.of_onward {roles : List Role} {left pass : Nat}
    {run : ScheduleRun ControlPlane} {report : PassReport} {q : Project}
    {cp : ControlPlane}
    (hpass : (undisturbed now tail).pass run.project run.host =
      (.finished report, q, cp)) (hstate : report.state ≠ .upToDate)
    (h : EachOnce c roles (c.runPasses (undisturbed now tail) (left + 1) (pass + 1)
      (run.completed pass report q cp))) :
    EachOnce c roles (c.runPasses (undisturbed now tail) (left + 2) pass run) := by
  rw [runPasses_onward c hpass hstate]
  exact h

/-- A run that has done each thing once does none of them again. -/
theorem eachOnce_of_settled {p : Parameters} {name : String} {live : Live.Project}
    {verdict : Verdict} {left pass : Nat} {run : ScheduleRun ControlPlane}
    (h : Poised p name now live verdict run.project run.host)
    (filled : ∀ d ∈ p.destinations, d.Filled) (upToDate : verdict.upToDate = true)
    (needed : passesNeeded p.roles = pass) (asked : c.passes = pass + left)
    (failures : run.summary.failures = 0)
    (tokensIssued : run.summary.tokensIssued = (specsOf p.roles).length)
    {updates : Nat} {tokens : List TokenKey} (record : run.host.Asked 1 updates tokens)
    (few : updates ≤ 2) (each : tokens.Perm ((specsOf p.roles).map slotKey)) :
    EachOnce c p.roles
      (c.runPasses (undisturbed now tail) (left + 1) pass run) := by
  obtain ⟨fetched, hsummary, hcalls⟩ := runPasses_settled c left h filled upToDate
  have hrecord := record.fetch hcalls
  generalize c.runPasses (undisturbed now tail) (left + 1) _ run = final at *
  constructor
  · rw [hsummary, asked, needed]
  · rw [hsummary]
    exact failures
  · rw [hsummary]
  · rw [hsummary]
    exact tokensIssued
  · exact hrecord.creations
  · rw [hrecord.updates]
    exact few
  · rw [hrecord.tokens]
    exact each

/-- **A schedule that starts from nothing does each thing once.** Let a project
have a name but no external name, let its declaration be attainable, and let at
least four passes be asked for and no delete. Alone with an empty control plane,
at a whole second that is not before the epoch, the run ends as `EachOnce` says:
up to date and with every declared token issued, by one creation, at most two
updates and one call for each token, however many passes there are. Unless the
schedule keeps going, it stops after two passes if there are no tokens, after
three if every role lists its ids in ascending order, and after four if not. -/
theorem schedule_does_each_thing_once (tail : ControlPlane → String) (c : Schedule)
    (p : Project) (attainable : p.parameters.Attainable now)
    (whole : now.subsecond = 0) (nonneg : Instant.epoch ≤ now)
    (unnamed : p.externalName = none) (hne : p.metadata.name ≠ "")
    (enough : 4 ≤ c.passes) (kept : c.delete = false) :
    EachOnce c p.parameters.roles (c.run (undisturbed now tail) p {}) := by
  obtain ⟨left, asked⟩ : ∃ left, c.passes = left + 4 := ⟨c.passes - 4, by omega⟩
  rw [run_of_kept c kept, asked]
  -- the first pass creates the project
  obtain ⟨live₁, plan, cp₁, hpass₁, hcalls₁, unseen, hpoised₁⟩ :=
    pass_create tail attainable nonneg unnamed hne
  have hrecord₁ : cp₁.Asked 1 0 [] := by
    constructor
    · rw [count, hcalls₁]
      rfl
    · rw [count, hcalls₁]
      rfl
    · rw [hcalls₁]
      rfl
  refine .of_onward hpass₁ (by simp) ?_
  by_cases hspecs : (specsOf p.parameters.roles).isEmpty = true
  · have needed : passesNeeded p.parameters.roles = 2 := if_pos hspecs
    have hnil := List.isEmpty_iff.mp hspecs
    refine eachOnce_of_settled hpoised₁ attainable.filled hspecs needed
      (by omega) rfl ?_ hrecord₁ (Nat.zero_le 2) ?_
    · rw [hnil]
      rfl
    · rw [hnil]
      exact List.Perm.nil
  · rw [Bool.not_eq_true] at hspecs
    rw [hspecs] at hpoised₁
    -- the second pass has the tokens issued
    obtain ⟨live₂, cp₂, hpass₂, hkeys, hcalls₂, settled, hpoised₂⟩ :=
      hpoised₁.pass_issue tail attainable whole nonneg unseen
    have hplanned := (planned_of_evaluate hpoised₁.judged).1
    have hrecord₂ := hrecord₁.update (Project.keyed_of_planned hplanned) hcalls₂
    refine .of_onward hpass₂ (by simp) ?_
    by_cases hascending : Ascending p.parameters.roles
    · rw [decide_eq_true hascending] at hpoised₂
      have needed : passesNeeded p.parameters.roles = 3 := by
        rw [passesNeeded, hspecs, if_neg Bool.false_ne_true, if_pos hascending]
      exact eachOnce_of_settled hpoised₂ attainable.filled rfl needed
        (by omega) rfl (Nat.zero_add _) hrecord₂ (Nat.le_succ 1) hkeys
    · rw [decide_eq_false hascending] at hpoised₂
      have needed : passesNeeded p.parameters.roles = 4 := by
        rw [passesNeeded, hspecs, if_neg Bool.false_ne_true, if_neg hascending]
      -- the third pass puts the tokens in order
      obtain ⟨live₃, cp₃, hpass₃, hcalls₃, hpoised₃⟩ :=
        hpoised₂.pass_order tail attainable nonneg settled
      have hplanned₂ := (planned_of_evaluate hpoised₂.judged).1
      have hrecord₃ := hrecord₂.update (Project.keyed_of_planned hplanned₂) hcalls₃
      have hnone : (∅ : TokenPlan).keys = [] := rfl
      rw [hnone, List.append_nil] at hrecord₃
      refine .of_onward hpass₃ (by simp) ?_
      exact eachOnce_of_settled hpoised₃ attainable.filled rfl needed
        (by omega) rfl (Nat.zero_add _) hrecord₃ le_rfl hkeys

end Whole

/-- A project that nobody has created yet, with two tokens against the order of
their ids. -/
def bakery : Project :=
  Project.declare "shop" { roles := [
    { name := "ci", tokens := [
      { id := "b", expiresIn := some "1h", renewBefore := some "10m" },
      { id := "a" }] }] }

theorem bakery_attainable : bakery.parameters.Attainable .epoch where
  distinct := ⟨by decide, by decide⟩
  texts := by decide
  filled := nofun
  sustainable := by
    intro slot hslot
    have hspecs : specsOf bakery.parameters.roles = [
        ("ci", { id := "b", expiresIn := some "1h", renewBefore := some "10m" }),
        ("ci", { id := "a" })] := rfl
    rw [hspecs] at hslot
    rcases List.mem_cons.mp hslot with rfl | hslot
    · refine ⟨_, terms_workshop_b, ?_, ?_, nofun⟩
      · rintro _ ⟨⟩
        decide +kernel
      · rintro _ ⟨⟩ _ ⟨⟩
        decide +kernel
    · rw [List.mem_singleton.mp hslot]
      exact ⟨_, terms_workshop_a, nofun, nofun, nofun⟩

theorem bakery_is_done_after_four :
    bakery.externalName = none ∧ bakery.metadata.name ≠ "" ∧
    EachOnce { passes := 9 } bakery.parameters.roles
      (Schedule.run { passes := 9 } (undisturbed .epoch fun _ => "x") bakery {}) ∧
    (Schedule.run { passes := 9 } (undisturbed .epoch fun _ => "x")
      bakery {}).summary.passes = 4 := by
  have unnamed : bakery.externalName = none := by decide
  have hne : bakery.metadata.name ≠ "" := by decide
  have once := schedule_does_each_thing_once (fun _ => "x") { passes := 9 } bakery
    bakery_attainable (by decide) (by decide) unnamed hne (by decide) rfl
  exact ⟨unnamed, hne, once, once.passes⟩

end Reconcile
