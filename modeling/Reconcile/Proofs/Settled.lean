import Mathlib
import Reconcile.Proofs.Aftermath
import Reconcile.Proofs.Comparing

/-!
# Settled tokens

An observation is settled if every declared spec finds a token in it that is in
order: of the lifetime asked for, and with no rule that asks for another. Then
nothing is planned, an update changes no token, and the tokens that it sends
agree with the declaration position by position, whatever their order was
before.
-/

namespace Reconcile

open ControlPlane

/-! ## Tokens in order -/

/-- The token serves the spec, and no rule asks for another one. -/
structure InOrder [DurationReader] (now : Instant) (s : TokenSpec) (t : ObservedToken) : Prop where
  id : t.id = s.id
  served : ∃ terms, s.terms = .ok terms ∧
    s.issueReason terms (some t) now = .ok none ∧ terms.lifetimeMatches t = true

/-- A token for which no rule asks has not expired. -/
theorem isExpired_eq_false {s : TokenSpec} {terms : TokenTerms}
    {t : ObservedToken} {now : Instant}
    (h : s.issueReason terms (some t) now = .ok none) : t.isExpired now = false := by
  rcases issueReason_eq_ok.mp h with ⟨_, hreason⟩ | ⟨hlive, _⟩
  · cases hreason
  · exact hlive

/-- What has not expired does not seem to expire at the epoch. -/
theorem ofLive_toLive_of_not_expired {u : Live.Token} {now : Instant}
    (nonneg : Instant.epoch ≤ now)
    (h : (ObservedToken.ofLive u).isExpired now = false) :
    ObservedToken.ofLive (ObservedToken.ofLive u).toLive = ObservedToken.ofLive u := by
  apply ObservedToken.ofLive_toLive_ofLive
  intro hepoch
  rw [ObservedToken.isExpired, hepoch, Option.any_some, decide_eq_false_iff_not] at h
  exact h nonneg

/-- A seen token for which no rule asks travels unchanged. -/
theorem ofLive_toLive_of_left_alone {s : TokenSpec} {terms : TokenTerms}
    {live : Live.Project} {role : String} {t : ObservedToken} {now : Instant}
    (nonneg : Instant.epoch ≤ now)
    (hcurrent : live.observation.current role s.id = some t)
    (h : s.issueReason terms (some t) now = .ok none) :
    ObservedToken.ofLive t.toLive = t := by
  obtain ⟨_, _, u, _, rfl⟩ :=
    ObservedToken.mem_observation (List.mem_of_find?_eq_some hcurrent)
  exact ofLive_toLive_of_not_expired nonneg (isExpired_eq_false h)

/-- Every declared spec finds a token that is in order. -/
def Settled [DurationReader] (roles : List Role) (observation : Observation) (now : Instant) :
    Prop :=
  ∀ slot ∈ specsOf roles, ∃ t,
    observation.current slot.1 slot.2.id = some t ∧ InOrder now slot.2 t

section Settled

variable [DurationReader] {roles : List Role} {observation : Observation} {now : Instant}

/-- **Where all is settled nothing is planned.** -/
theorem Settled.planTokens_eq (h : Settled roles observation now)
    (project : String) : planTokens project roles observation now = .ok ∅ := by
  apply planTokens_eq_empty
  intro slot hslot
  obtain ⟨t, hcurrent, _, terms, hterms, hreason, _⟩ := h slot hslot
  rw [decideIssue_eq_ok]
  exact ⟨terms, none, hterms, hcurrent ▸ hreason, rfl⟩

/-- A settled token that was seen of a live project travels unchanged. -/
theorem Settled.current_stable {live : Live.Project}
    (h : Settled roles live.observation now) (nonneg : Instant.epoch ≤ now)
    {slot : String × TokenSpec} (hslot : slot ∈ specsOf roles) :
    (live.observation.current slot.1 slot.2.id).map
        (fun t => ObservedToken.ofLive t.toLive) =
      live.observation.current slot.1 slot.2.id := by
  obtain ⟨t, hcurrent, _, _, _, hreason, _⟩ := h slot hslot
  rw [hcurrent, Option.map_some,
    ofLive_toLive_of_left_alone nonneg hcurrent hreason]

/-! ## Agreement by position -/

/-- Tokens that are looked up spec by spec agree with the specs. -/
theorem tokensMatch_filterMap {find : TokenSpec → Option ObservedToken}
    {specs : List TokenSpec}
    (h : ∀ s ∈ specs, ∃ t, find s = some t ∧ InOrder now s t) :
    (specs.filterMap find).length = specs.length ∧
      tokensMatch now specs (specs.filterMap find) = .ok true := by
  induction specs with
  | nil => exact ⟨rfl, rfl⟩
  | cons s specs ih =>
      obtain ⟨t, hfind, hid, terms, hterms, hreason, hlifetime⟩ :=
        h s List.mem_cons_self
      obtain ⟨hlength, hmatch⟩ := ih fun x hx => h x (List.mem_cons_of_mem _ hx)
      have hpair : (decide (s.id = t.id) && terms.lifetimeMatches t &&
          !t.isExpired now) = true := by
        rw [hlifetime, isExpired_eq_false hreason, decide_eq_true hid.symm]
        rfl
      rw [List.filterMap_cons_some hfind]
      constructor
      · rw [List.length_cons, List.length_cons, hlength]
      · rw [tokensMatch_cons hterms, if_pos hpair]
        exact hmatch

/-- **The kept tokens of a settled role agree with its specs.** -/
theorem tokensAgree_keptTokens (h : Settled roles observation now) {r : Role}
    (hr : r ∈ roles) :
    tokensAgree r.tokens (r.keptTokens observation) now = .ok true := by
  have hfound : ∀ s ∈ r.tokens, ∃ t,
      (observation[r.name]?.getD []).find? (·.id = s.id) = some t ∧
        InOrder now s t :=
    fun s hs => h (r.name, s) (mem_specsOf.mpr ⟨r, hr, rfl, hs⟩)
  obtain ⟨hlength, hmatch⟩ := tokensMatch_filterMap hfound
  have hlength' : r.tokens.length = (r.keptTokens observation).length :=
    hlength.symm
  rw [tokensAgree, if_pos hlength']
  exact hmatch

/-- Settled tokens travel unchanged, all of a role together. -/
theorem map_keptTokens {live : Live.Project}
    (h : Settled roles live.observation now) (nonneg : Instant.epoch ≤ now)
    {r : Role} (hr : r ∈ roles) :
    ((r.keptTokens live.observation).map ObservedToken.toLive).map
        ObservedToken.ofLive = r.keptTokens live.observation := by
  rw [List.map_map]
  refine (List.map_congr_left ?_).trans (List.map_id _)
  intro t ht
  obtain ⟨s, hs, hfind⟩ := List.mem_filterMap.mp ht
  have hcurrent : live.observation.current r.name s.id = some t := hfind
  have hstable := h.current_stable nonneg (mem_specsOf.mpr ⟨r, hr, rfl, hs⟩ :
    (r.name, s) ∈ specsOf roles)
  rw [hcurrent, Option.map_some] at hstable
  exact Option.some.inj hstable

end Settled

/-! ## How tokens come to be settled -/

section Update

variable {cp : ControlPlane} {p : Project} {name : String}
  {live after : Live.Project} {plan : TokenPlan} {now : Instant}

/-- **An update settles the tokens.** Let nothing be refused, let the
declaration be sustainable, and let the tokens that are not planned have the
lifetime asked for. Then all tokens are settled. -/
theorem settled_after_update [DurationReader]
    (distinct : DistinctTokens p.parameters.roles)
    (planned : planTokens name p.parameters.roles live.observation now = .ok plan)
    (sees : SeesAfter after (cp.rolesAfter p live now plan))
    (whole : now.subsecond = 0) (nonneg : Instant.epoch ≤ now)
    (unrefused : ∀ key, cp.refusal? key = none)
    (sustainable : ∀ slot ∈ specsOf p.parameters.roles, ∀ terms,
      slot.2.terms = .ok terms → terms.Sustainable now)
    (lifetimes : ∀ slot ∈ specsOf p.parameters.roles,
      plan[slotKey slot]? = none → ∀ terms t, slot.2.terms = .ok terms →
        live.observation.current slot.1 slot.2.id = some t →
          terms.lifetimeMatches t = true) :
    Settled p.parameters.roles after.observation now := by
  intro slot hslot
  have hgrant := getElem?_granted_of_refused_eq_nil
    (refused_eq_nil unrefused plan.toList) (slotKey slot)
  cases hrequest : plan[slotKey slot]? with
  | some t =>
      obtain ⟨terms, hterms, rfl⟩ :=
        request_of_planned planned distinct hslot hrequest
      have hsustainable := sustainable slot hslot terms hterms
      have hreadable := terms_nonneg hterms
      refine ⟨_, current_of_granted distinct planned sees hslot whole nonneg
        (hgrant.trans hrequest), rfl, terms, hterms, ?_,
        lifetimeMatches_fresh hsustainable hreadable⟩
      exact issueReason_fresh_eq_none nonneg hreadable
        (hsustainable.dueAtOnce_eq_false hreadable)
        fun age hage => (hsustainable.age age hage).2
  | none =>
      obtain ⟨terms, t, hterms, hcurrent, hreason⟩ :=
        left_alone_of_planned planned distinct hslot hrequest
      have hid : t.id = slot.2.id := by simpa using List.find?_some hcurrent
      have hafter := current_of_not_granted distinct planned sees hslot
        (hgrant.trans hrequest)
      rw [hcurrent, Option.map_some,
        ofLive_toLive_of_left_alone nonneg hcurrent hreason] at hafter
      exact ⟨t, hafter, hid, terms, hterms, hreason,
        lifetimes slot hslot hrequest terms t hterms hcurrent⟩

/-- Settled tokens stay settled under an update that plans nothing. -/
theorem Settled.after_update [DurationReader] (h : Settled p.parameters.roles live.observation now)
    (sees : SeesAfter after (cp.rolesAfter p live now ∅))
    (distinct : DistinctTokens p.parameters.roles) (nonneg : Instant.epoch ≤ now) :
    Settled p.parameters.roles after.observation now := by
  intro slot hslot
  have hgranted : (cp.granted ∅)[slotKey slot]? = none := by
    rw [getElem?_granted, Std.ExtTreeMap.getElem?_empty]
    rfl
  -- nothing is planned under any name
  rw [current_of_not_granted distinct (h.planTokens_eq "") sees hslot hgranted,
    h.current_stable nonneg hslot]
  exact h slot hslot

end Update

end Reconcile
