import Mathlib
import Reconcile.Proofs.Passes
import Reconcile.Proofs.Settled

/-!
# Renewal leaves no gap

A token with a lifetime and a lead is renewed by the first pass that comes less
than the lead before its expiry. Here passes run alone, one after the other, and
each of them goes through. What a pass leaves of such a token expires only after
the lead has passed again, or after a whole lifetime. So as long as no gap between
two passes is longer than the lead, or as long as the lifetime, the next pass
finds the token alive. It is not planned again as missing or as expired.
-/

namespace Reconcile

open ControlPlane

/-! ## How long a token lasts -/

/-- The token expires only after a lead has passed or some seconds are over, if
it expires at all. -/
def ObservedToken.Outlasts (t : ObservedToken) (now : Instant) (lead : Span)
    (seconds : Int) : Prop :=
  ∀ expiry ∈ t.expiresAt, now.nanos + lead.nanos < expiry.nanos ∨
    now.nanos + seconds * nanosPerSecond ≤ expiry.nanos

section Outlasts

variable {t : ObservedToken} {now later : Instant} {lead : Span} {seconds : Int}

/-- What outlasts a lead and a lifetime is alive for as long as both. -/
theorem ObservedToken.Outlasts.isExpired_eq_false
    (h : t.Outlasts now lead seconds)
    (hlead : (later.since now).nanos ≤ lead.nanos)
    (hlifetime : (later.since now).nanos < seconds * nanosPerSecond) :
    t.isExpired later = false := by
  rw [ObservedToken.isExpired]
  cases hexpiry : t.expiresAt with
  | none => rfl
  | some expiry =>
      have hlate := h expiry hexpiry
      change later.nanos - now.nanos ≤ lead.nanos at hlead
      change later.nanos - now.nanos < seconds * nanosPerSecond at hlifetime
      rw [Option.any_some, decide_eq_false_iff_not, Instant.le_def]
      omega

/-- A token that the rules leave alone outlasts the lead. -/
theorem outlasts_of_left_alone {s : TokenSpec} {terms : TokenTerms}
    (h : s.issueReason terms (some t) now = .ok none)
    (hlead : terms.renewBefore = some lead) : t.Outlasts now lead seconds := by
  intro expiry hexpiry
  left
  rcases issueReason_eq_ok.mp h with ⟨_, hreason⟩ | ⟨_, before, hbefore, h⟩
  · cases hreason
  · have hearly : before.any (· ≤ now) = false := by
      rcases h with ⟨_, hreason⟩ | ⟨hearly, _⟩
      · cases hreason
      · exact hearly
    -- the renewal is not due, so the expiry is further away than the lead
    rw [TokenSpec.dueBeforeExpiry, hlead, hexpiry] at hbefore
    cases hdue : expiry.minus? lead with
    | none =>
        simp only [hdue] at hbefore
        cases hbefore
    | some due =>
        simp only [hdue, Except.ok.injEq] at hbefore
        subst hbefore
        rw [Option.any_some, decide_eq_false_iff_not, Instant.le_def,
          Instant.nanos_of_minus? hdue] at hearly
        omega

theorem outlasts_fresh {id : String}
    (representable : (now.plus? ⟨seconds * nanosPerSecond⟩).isSome) :
    (ObservedToken.fresh id now seconds).Outlasts now lead seconds := by
  intro expiry hexpiry
  right
  obtain ⟨due, hdue⟩ := Option.isSome_iff_exists.mp representable
  rw [expiresAt_fresh, seenExpiry, hdue] at hexpiry
  split at hexpiry
  · cases hexpiry
    exact le_of_eq (Instant.nanos_of_plus? hdue).symm
  · cases hexpiry

end Outlasts

/-! ## One pass -/

/-- The token of a declared spec that the control plane shows for a resource. -/
def ControlPlane.shown (cp : ControlPlane) (p : Project)
    (slot : String × TokenSpec) : Option ObservedToken :=
  p.externalName.bind fun name => (cp.project? name).bind fun live =>
    live.observation.current slot.1 slot.2.id

/-- A declared spec that asks for a lifetime of at least a second, and for a
renewal a lead before it ends. -/
structure Renewing [DurationReader] (roles : List Role) (slot : String × TokenSpec)
    (lifetime lead : Span) : Prop where
  declared : slot ∈ specsOf roles
  long : 1 ≤ lifetime.wholeSeconds
  terms : ∃ terms, slot.2.terms = .ok terms ∧ terms.expiresIn = some lifetime ∧
    terms.renewBefore = some lead

section Pass

variable {now : Instant} {cp cp' : ControlPlane} {p p' : Project}
  {report : PassReport} {slot : String × TokenSpec}

theorem shown_of_held {name : String} {live : Live.Project}
    (named : p.externalName = some name) (held : cp.project? name = some live) :
    cp.shown p slot = live.observation.current slot.1 slot.2.id := by
  rw [ControlPlane.shown, named, Option.bind_some, held, Option.bind_some]

theorem ControlPlane.PassAlone.roles_eq [DurationReader] (h : PassAlone now p cp report p' cp') :
    p'.parameters.roles = p.parameters.roles := by
  cases h with
  | created => rfl
  | settled => rfl
  | updated => rfl

/-- A pass depends on the projects that it leaves behind, and on nothing else of
the control plane. -/
theorem ControlPlane.PassAlone.congr [DurationReader] {cp'' : ControlPlane}
    (h : PassAlone now p cp report p' cp') (same : cp''.projects = cp'.projects) :
    PassAlone now p cp report p' cp'' := by
  have hsame : cp''.project? = cp'.project? := by
    funext name
    rw [project?, project?, same]
  cases h with
  | created hname absent held =>
      refine .created hname absent ?_
      rwa [Holds, hsame]
  | settled named held judged upToDate unchanged =>
      exact .settled named held judged upToDate (same.trans unchanged)
  | updated named held judged drifted unrefused left =>
      refine .updated named held judged drifted unrefused ?_
      rwa [Holds, hsame]

theorem eq_of_externalName_setExternalName {name other : String}
    (h : (p.setExternalName name).externalName = some other) : other = name := by
  rw [externalName_setExternalName, Option.filter_eq_some_iff] at h
  exact (Option.some.inj h.1).symm

theorem shown_absent {name : String}
    (hname : p.externalName.getD p.metadata.name = name)
    (absent : cp.project? name = none) : cp.shown p slot = none := by
  rw [ControlPlane.shown, Option.bind_eq_none_iff]
  intro other hother
  rw [hother, Option.getD_some] at hname
  rw [hname, absent, Option.bind_none]

theorem shown_created (distinct : DistinctTokens p.parameters.roles) {name : String}
    (hslot : slot ∈ specsOf p.parameters.roles)
    (held : cp'.Holds name (p.parameters.toLive name ∅)
      (p.parameters.roles.map (·.toLive ∅))) :
    cp'.shown (p.setExternalName name) slot = none := by
  rw [ControlPlane.shown, Option.bind_eq_none_iff]
  intro other hother
  obtain rfl := eq_of_externalName_setExternalName hother
  have hnames : ((p.parameters.roles.map (·.toLive ∅)).map (·.name)).Nodup := by
    rw [names_toLive]
    exact distinct.names
  obtain ⟨after, hafter, hcurrent⟩ := held.current hnames
  rw [hafter, Option.bind_some, hcurrent]
  have htoken := tokenIn_toLive distinct.names hslot ∅
  rw [slotKey] at htoken
  rw [htoken, Observation.current, Std.ExtTreeMap.getElem?_empty]
  rfl

/-- **A shown token is found by the pass.** -/
theorem ControlPlane.PassAlone.found [DurationReader] (h : PassAlone now p cp report p' cp')
    {t : ObservedToken} (hshown : cp.shown p slot = some t) :
    ∃ name live, p.externalName = some name ∧ cp.project? name = some live ∧
      live.observation.current slot.1 slot.2.id = some t ∧
      p' = p.seeing live now := by
  rw [ControlPlane.shown, Option.bind_eq_some_iff] at hshown
  obtain ⟨name, named, hshown⟩ := hshown
  rw [Option.bind_eq_some_iff] at hshown
  obtain ⟨live, held, hcurrent⟩ := hshown
  refine ⟨name, live, named, held, hcurrent, ?_⟩
  cases h with
  | created hname absent _ =>
      rw [named, Option.getD_some] at hname
      rw [hname, absent] at held
      cases held
  | settled named' held' =>
      obtain rfl := Option.some.inj (named'.symm.trans named)
      rw [Option.some.inj (held'.symm.trans held)]
  | updated named' held' =>
      obtain rfl := Option.some.inj (named'.symm.trans named)
      rw [Option.some.inj (held'.symm.trans held)]

theorem Renewing.expiresIn_eq [DurationReader] {roles : List Role} {lifetime lead : Span}
    (renewing : Renewing roles slot lifetime lead) {terms : TokenTerms}
    (hterms : slot.2.terms = .ok terms) :
    terms.seconds = lifetime.wholeSeconds ∧ terms.renewBefore = some lead := by
  obtain ⟨terms', hterms', hlifetime, hlead⟩ := renewing.terms
  obtain rfl := Except.ok.inj (hterms'.symm.trans hterms)
  rw [TokenTerms.seconds, hlifetime]
  exact ⟨rfl, hlead⟩

/-- An update that is granted all it plans leaves a renewing token that outlasts
the lead or its lifetime: a fresh one, or one that no rule asks to renew. -/
theorem outlasts_after_update [DurationReader] {name : String} {live after : Live.Project}
    {plan : TokenPlan} (distinct : DistinctTokens p.parameters.roles)
    {lifetime lead : Span}
    (renewing : Renewing p.parameters.roles slot lifetime lead)
    (planned : planTokens name p.parameters.roles live.observation now = .ok plan)
    (unrefused : cp.refused plan.toList = [])
    (sees : SeesAfter after (cp.rolesAfter p live now plan))
    (whole : now.subsecond = 0) (nonneg : Instant.epoch ≤ now)
    (representable :
      (now.plus? ⟨lifetime.wholeSeconds * nanosPerSecond⟩).isSome) :
    ∃ t, after.observation.current slot.1 slot.2.id = some t ∧
      t.Outlasts now lead lifetime.wholeSeconds := by
  have hslot := renewing.declared
  have hgrant := getElem?_granted_of_refused_eq_nil unrefused (slotKey slot)
  cases hrequest : plan[slotKey slot]? with
  | some t =>
      obtain ⟨terms, hterms, rfl⟩ := request_of_planned planned distinct hslot hrequest
      have hfresh := current_of_granted distinct planned sees hslot whole nonneg
        (hgrant.trans hrequest)
      rw [expiresIn_request, (renewing.expiresIn_eq hterms).1] at hfresh
      exact ⟨_, hfresh, outlasts_fresh representable⟩
  | none =>
      obtain ⟨terms, t, hterms, hcurrent, hreason⟩ :=
        left_alone_of_planned planned distinct hslot hrequest
      have hkept := current_of_not_granted distinct planned sees hslot
        (hgrant.trans hrequest)
      rw [hcurrent, Option.map_some,
        ofLive_toLive_of_left_alone nonneg hcurrent hreason] at hkept
      exact ⟨t, hkept, outlasts_of_left_alone hreason (renewing.expiresIn_eq hterms).2⟩

/-- **What a pass leaves of a renewing token.** Unless it has just created the
project, the token is there, and outlasts the lead or its lifetime. -/
theorem ControlPlane.PassAlone.leaves [DurationReader] (h : PassAlone now p cp report p' cp')
    (distinct : DistinctTokens p.parameters.roles) {lifetime lead : Span}
    (renewing : Renewing p.parameters.roles slot lifetime lead)
    (whole : now.subsecond = 0) (nonneg : Instant.epoch ≤ now)
    (representable :
      (now.plus? ⟨lifetime.wholeSeconds * nanosPerSecond⟩).isSome) :
    (cp.shown p slot = none ∧ cp'.shown p' slot = none) ∨
      ∃ t, cp'.shown p' slot = some t ∧ t.Outlasts now lead lifetime.wholeSeconds := by
  cases h with
  | created hname absent held =>
      -- a project is created without tokens, where there was none
      exact Or.inl ⟨shown_absent hname absent,
        shown_created distinct renewing.declared held⟩
  | @settled name live verdict _ named held judged upToDate same =>
      -- nothing was planned, so no rule asks to renew the token
      right
      obtain ⟨planned, hempty⟩ := planned_of_evaluate judged
      rw [hempty upToDate] at planned
      obtain ⟨terms, t, hterms, hcurrent, hreason⟩ := left_alone_of_planned planned
        distinct renewing.declared Std.ExtTreeMap.getElem?_empty
      have hheld : cp'.project? name = some live := by
        rwa [project?, same]
      have hshown : cp'.shown (p.seeing live now) slot =
          live.observation.current slot.1 slot.2.id := shown_of_held named hheld
      exact ⟨t, hshown.trans hcurrent,
        outlasts_of_left_alone hreason (renewing.expiresIn_eq hterms).2⟩
  | @updated name live verdict _ _ named _ judged _ unrefused left =>
      right
      have hnames : ((cp.rolesAfter (p.seeing live now) live now verdict.plan).map
          (·.name)).Nodup := by
        rw [names_rolesAfter]
        exact distinct.names
      obtain ⟨after, hafter, sees⟩ := left.current hnames
      have hshown : cp'.shown (p.seeing live now) slot =
          after.observation.current slot.1 slot.2.id := shown_of_held named hafter
      rw [hshown]
      exact outlasts_after_update (p := p.seeing live now) distinct renewing
        (planned_of_evaluate judged).1 unrefused sees whole nonneg representable

end Pass

/-! ## Passes in a row -/

/-- Passes that run alone, one after the other, at whole seconds of a clock that
never goes back, and all of which go through. Between two of them nobody writes,
though failures may be set and healed. -/
structure LonePasses [DurationReader] where
  /-- How many there are. -/
  passes : Nat
  /-- The time of each pass. -/
  clock : Nat → Instant
  /-- What makes the secrets of each pass unguessable. -/
  tail : Nat → ControlPlane → String
  /-- The resource before each pass. -/
  project : Nat → Project
  /-- The control plane before each pass. -/
  plane : Nat → ControlPlane
  whole : ∀ k < passes, (clock k).subsecond = 0
  start : Instant.epoch ≤ clock 0
  ordered : ∀ k, k + 1 < passes → clock k ≤ clock (k + 1)
  went : ∀ k < passes, ∃ report cp',
    (undisturbed (clock k) (tail k)).pass (project k) (plane k) =
        (.finished report, project (k + 1), cp') ∧
      (plane (k + 1)).projects = cp'.projects

namespace LonePasses

/-- A pass finds the token of a declared spec alive. It is there and has not
expired, the resource shows it from then on, and it is not planned again as
missing or as expired. -/
def FindsAlive [DurationReader] (run : LonePasses) (slot : String × TokenSpec) (j : Nat) : Prop :=
  ∃ name live t, (run.project j).externalName = some name ∧
    (run.plane j).project? name = some live ∧
    live.observation.current slot.1 slot.2.id = some t ∧
    t.isExpired (run.clock j) = false ∧
    (run.project (j + 1)).observation = live.observation ∧
    ∀ issue, decideIssue name live.observation (run.clock j) slot = .ok (some issue) →
      issue.reason ≠ .missing ∧ issue.reason ≠ .expired

theorem exists_passAlone [DurationReader] (run : LonePasses) {k : Nat} (hk : k < run.passes) :
    ∃ report, PassAlone (run.clock k) (run.project k) (run.plane k) report
      (run.project (k + 1)) (run.plane (k + 1)) := by
  obtain ⟨report, cp', hpass, hsame⟩ := run.went k hk
  exact ⟨report, (passAlone_of_pass hpass).congr hsame⟩

theorem epoch_le_clock [DurationReader] (run : LonePasses) {k : Nat} (hk : k < run.passes) :
    Instant.epoch ≤ run.clock k := by
  induction k with
  | zero => exact run.start
  | succ k ih => exact Int.le_trans (ih (by omega)) (run.ordered k hk)

theorem roles_eq [DurationReader] (run : LonePasses) {k : Nat} (hk : k ≤ run.passes) :
    (run.project k).parameters.roles = (run.project 0).parameters.roles := by
  induction k with
  | zero => rfl
  | succ k ih =>
      obtain ⟨report, hpass⟩ := run.exists_passAlone hk
      rw [hpass.roles_eq]
      exact ih (Nat.le_of_succ_le hk)

section Renewing

variable [DurationReader] {run : LonePasses} {slot : String × TokenSpec} {lifetime lead : Span}
  (distinct : DistinctTokens (run.project 0).parameters.roles)
  (renewing : Renewing (run.project 0).parameters.roles slot lifetime lead)
  (representable : ∀ k < run.passes,
    ((run.clock k).plus? ⟨lifetime.wholeSeconds * nanosPerSecond⟩).isSome)

include distinct renewing representable

/-- One pass of the row. A token that is there before it or after it outlasts the
lead or its lifetime. -/
theorem outlasts_of_shown {k : Nat} (hk : k < run.passes)
    (present : (run.plane k).shown (run.project k) slot ≠ none ∨
      (run.plane (k + 1)).shown (run.project (k + 1)) slot ≠ none) :
    ∃ t, (run.plane (k + 1)).shown (run.project (k + 1)) slot = some t ∧
      t.Outlasts (run.clock k) lead lifetime.wholeSeconds := by
  obtain ⟨report, hpass⟩ := run.exists_passAlone hk
  rw [← run.roles_eq (Nat.le_of_lt hk)] at distinct renewing
  rcases hpass.leaves distinct renewing (run.whole k hk) (run.epoch_le_clock hk)
    (representable k hk) with ⟨hbefore, hafter⟩ | hleft
  · exact absurd present (by simp [hbefore, hafter])
  · exact hleft

/-- **A token that is there after a pass is there after every later one**, and
outlasts the lead or its lifetime. -/
theorem outlasts_of_le {k j : Nat} (hkj : k ≤ j) (hj : j < run.passes)
    (present : (run.plane (k + 1)).shown (run.project (k + 1)) slot ≠ none) :
    ∃ t, (run.plane (j + 1)).shown (run.project (j + 1)) slot = some t ∧
      t.Outlasts (run.clock j) lead lifetime.wholeSeconds := by
  induction j, hkj using Nat.le_induction with
  | base => exact outlasts_of_shown distinct renewing representable hj (Or.inr present)
  | succ j _ ih =>
      -- what one pass leaves there is there before the next one
      obtain ⟨t, hshown, _⟩ := ih (Nat.lt_of_succ_lt hj)
      have hbefore : (run.plane (j + 1)).shown (run.project (j + 1)) slot ≠ none := by
        rw [hshown]
        exact nofun
      exact outlasts_of_shown distinct renewing representable hj (Or.inl hbefore)

end Renewing

/-- **Renewal leaves no gap in validity.** Let a declared token ask for a lifetime
and for a lead, let no gap between two passes be longer than the lead or as long
as the lifetime, and let the lifetime end in time whenever it starts at a pass.
Once a pass has left the token on the control plane, every later pass finds it
alive. -/
theorem renewal_leaves_no_gap [DurationReader] (run : LonePasses) {slot : String × TokenSpec}
    {lifetime lead : Span}
    (distinct : DistinctTokens (run.project 0).parameters.roles)
    (renewing : Renewing (run.project 0).parameters.roles slot lifetime lead)
    (near : ∀ k, k + 1 < run.passes →
      ((run.clock (k + 1)).since (run.clock k)).nanos ≤ lead.nanos ∧
      ((run.clock (k + 1)).since (run.clock k)).nanos <
        lifetime.wholeSeconds * nanosPerSecond)
    (representable : ∀ k < run.passes,
      ((run.clock k).plus? ⟨lifetime.wholeSeconds * nanosPerSecond⟩).isSome)
    {k : Nat} {t : ObservedToken}
    (present : (run.plane (k + 1)).shown (run.project (k + 1)) slot = some t)
    {j : Nat} (hkj : k < j) (hj : j < run.passes) : run.FindsAlive slot j := by
  obtain ⟨i, rfl⟩ : ∃ i, j = i + 1 := ⟨j - 1, by omega⟩
  have hthere : (run.plane (k + 1)).shown (run.project (k + 1)) slot ≠ none := by
    rw [present]
    exact nofun
  obtain ⟨u, hshown, hlasts⟩ := outlasts_of_le distinct renewing representable
    (Nat.le_of_lt_succ hkj) (Nat.lt_of_succ_lt hj) hthere
  have halive : u.isExpired (run.clock (i + 1)) = false :=
    hlasts.isExpired_eq_false (near i hj).1 (near i hj).2
  obtain ⟨report, hpass⟩ := run.exists_passAlone hj
  obtain ⟨name, live, named, held, hcurrent, hseen⟩ := hpass.found hshown
  refine ⟨name, live, u, named, held, hcurrent, halive, by rw [hseen]; rfl, ?_⟩
  intro issue hissue
  obtain ⟨terms, reason, _, hreason, hmade⟩ := decideIssue_eq_ok.mp hissue
  rw [hcurrent] at hreason
  cases reason with
  | none => cases hmade
  | some reason =>
      cases hmade
      exact reason_of_alive halive hreason

end LonePasses

/-- A project that wants a token for an hour, renewed half an hour before its
end. -/
def lease : Project :=
  Project.declare "shop" { roles := [
    { name := "ci", tokens := [
      { id := "deploy", expiresIn := some "1h", renewBefore := some "30m" }] }] }

/-- A pass every half hour. -/
def leaseClock (k : Nat) : Instant := instantOfTimestamp (1800 * k)

/-- The resource and the control plane after some passes, the first of which
creates the project. -/
def leaseAfter : Nat → Project × ControlPlane
  | 0 => (lease, {})
  | k + 1 =>
    let (p, cp) := leaseAfter k
    ((undisturbed (leaseClock k) fun _ => "x").pass p cp).2

def Ending.value? {α : Type} : Ending α → Option α
  | .finished a => some a
  | _ => none

theorem eq_finished_of_value? {α : Type} {ending : Ending α} {a : α}
    (h : ending.value? = some a) : ending = .finished a := by
  cases ending with
  | finished b =>
      cases h
      rfl
  | failed failure => cases h
  | timedOut => cases h

/-- Four passes: the project is created, its token issued, and renewed twice. -/
def leasePasses : LonePasses where
  passes := 4
  clock := leaseClock
  tail := fun _ _ => "x"
  project := fun k => (leaseAfter k).1
  plane := fun k => (leaseAfter k).2
  whole := by decide +kernel
  start := by decide +kernel
  ordered := by
    have hall : ∀ k < 3, leaseClock k ≤ leaseClock (k + 1) := by decide +kernel
    intro k hk
    exact hall k (Nat.lt_of_succ_lt_succ hk)
  went := by
    have hall : ∀ k < 4, ((undisturbed (leaseClock k) fun _ => "x").pass
        (leaseAfter k).1 (leaseAfter k).2).1.value?.isSome := by decide +kernel
    intro k hk
    obtain ⟨report, hreport⟩ := Option.isSome_iff_exists.mp (hall k hk)
    refine ⟨report, (leaseAfter (k + 1)).2, ?_, rfl⟩
    exact Prod.ext (eq_finished_of_value? hreport) rfl

/-- What the token's durations are read as. -/
def leaseLifetime : Span := ⟨3600 * nanosPerSecond⟩

def leaseLead : Span := ⟨1800 * nanosPerSecond⟩

def leaseSlot : String × TokenSpec :=
  ("ci", { id := "deploy", expiresIn := some "1h", renewBefore := some "30m" })

theorem renewing_lease :
    Renewing lease.parameters.roles leaseSlot leaseLifetime leaseLead where
  declared := List.mem_singleton_self _
  long := by decide +kernel
  terms := ⟨⟨some leaseLifetime, some leaseLead, none⟩, by decide +kernel, rfl, rfl⟩

theorem lease_leaves_no_gap :
    (leasePasses.plane 2).shown (leasePasses.project 2) leaseSlot ≠ none ∧
    ∀ j, 1 < j → j < 4 → leasePasses.FindsAlive leaseSlot j := by
  have hclock : leasePasses.clock = leaseClock := rfl
  have hpresent : (leasePasses.plane 2).shown (leasePasses.project 2) leaseSlot =
      some (ObservedToken.fresh "deploy" (leaseClock 1) 3600) := by
    decide +kernel
  have hnear : ∀ k < 3,
      ((leaseClock (k + 1)).since (leaseClock k)).nanos ≤ leaseLead.nanos ∧
      ((leaseClock (k + 1)).since (leaseClock k)).nanos <
        leaseLifetime.wholeSeconds * nanosPerSecond := by
    decide +kernel
  constructor
  · rw [hpresent]
    exact nofun
  · intro j hkj hj
    refine leasePasses.renewal_leaves_no_gap ⟨by decide, by decide⟩ renewing_lease
      ?_ (by decide +kernel) hpresent hkj hj
    intro k hk
    rw [hclock]
    exact hnear k (Nat.lt_of_succ_lt_succ hk)

end Reconcile
