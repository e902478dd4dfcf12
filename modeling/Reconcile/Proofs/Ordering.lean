import Mathlib
import Reconcile.Proofs.Agreement
import Reconcile.Proofs.Calls
import Reconcile.Proofs.Convergence
import Reconcile.Proofs.Placing

/-!
# Tokens in the order of their issue

A plan is worked off in the order of its keys, and a control plane puts a token
with a new id behind the others of its role. So a role that had no tokens has
them ordered by id afterwards, whatever the order of the declaration. A pass
compares tokens by position. What the first update of a new project leaves
behind is therefore up to date exactly if every role lists its ids in ascending
order.
-/

namespace Reconcile

open ControlPlane

/-- **A role without tokens gets the granted ones in the order of the grants**,
if no two of them have one key. -/
theorem Live.tokensIn_grantAll (seconds : Int) {requests : List TokenRequest}
    {roles : List Live.Role} {name : String}
    (distinct : (requests.map (·.key)).Nodup)
    (declared : ∀ t ∈ requests, t.role ∈ roles.map (·.name))
    (bare : Live.tokensIn roles name = []) :
    Live.tokensIn (Live.grantAll seconds roles requests) name =
      (requests.filter (·.role = name)).map (tokenFor seconds) := by
  have hkeys : ((requests.map (Grant.mk seconds)).map Grant.key).Nodup := by
    rw [List.map_map]
    exact distinct
  have hdeclared : ∀ g ∈ requests.map (Grant.mk seconds),
      g.request.role ∈ roles.map (·.name) := by
    intro g hg
    obtain ⟨t, ht, rfl⟩ := List.mem_map.mp hg
    exact declared t ht
  have hold : ((Live.tokensIn roles name).map (·.id)).Nodup := by
    rw [bare]
    exact List.nodup_nil
  rw [Live.grantAll_eq_grantEach, Live.tokensIn_grantEach hkeys hdeclared hold, bare,
    Live.grantsFor, List.filter_map, List.map_map]
  simp only [List.map_nil, List.nil_append, List.not_mem_nil, not_false_eq_true,
    decide_true, List.filter_true]
  rfl

/-! ## The plan of a new project -/

/-- None of the declared tokens is there. -/
def NoneSeen (roles : List Role) (observation : Observation) : Prop :=
  ∀ slot ∈ specsOf roles, observation.current slot.1 slot.2.id = none

section Planned

variable {name : String} {roles : List Role} {observation : Observation}
  {now : Instant} {plan : TokenPlan}

/-- What is not there is missing. -/
theorem decideIssue_of_none [DurationReader] {slot : String × TokenSpec} {terms : TokenTerms}
    (hterms : slot.2.terms = .ok terms)
    (hnone : observation.current slot.1 slot.2.id = none) :
    decideIssue name observation now slot =
      .ok (some ⟨.missing, slot.2.request terms name slot.1⟩) := by
  rw [decideIssue_eq_ok]
  refine ⟨terms, some .missing, hterms, ?_, rfl⟩
  rw [hnone]
  rfl

/-- A new project can be planned for if its durations can be read. -/
theorem exists_plan_of_noneSeen [DurationReader]
    (readable : ∀ slot ∈ specsOf roles, ∃ terms, slot.2.terms = .ok terms)
    (unseen : NoneSeen roles observation) (name : String) (now : Instant) :
    ∃ plan, planTokens name roles observation now = .ok plan := by
  refine ⟨_, planTokens_eq_ok_iff.mpr ⟨?_, rfl⟩⟩
  intro slot hslot
  obtain ⟨terms, hterms⟩ := readable slot hslot
  exact ⟨_, decideIssue_of_none hterms (unseen slot hslot)⟩

/-- **All declared tokens of a new project are planned, and no others.** -/
theorem keys_perm_of_noneSeen [DurationReader] (distinct : DistinctTokens roles)
    (unseen : NoneSeen roles observation)
    (planned : planTokens name roles observation now = .ok plan) :
    plan.keys.Perm ((specsOf roles).map slotKey) := by
  rw [List.perm_ext_iff_of_nodup Std.ExtTreeMap.nodup_keys distinct.slotKeys_nodup]
  intro key
  rw [Std.ExtTreeMap.mem_keys, List.mem_map]
  constructor
  · intro hmem
    have hrequest := Std.ExtTreeMap.getElem?_eq_some_getElem hmem
    obtain ⟨slot, hslot, _, _, hkey, _⟩ := exists_slot_of_planned planned hrequest
    exact ⟨slot, hslot, hkey⟩
  · rintro ⟨slot, hslot, rfl⟩
    obtain ⟨issue, hissue⟩ := (planTokens_eq_ok_iff.mp planned).1 slot hslot
    obtain ⟨terms, _, hterms, _⟩ := decideIssue_eq_ok.mp hissue
    have hmissing : decideIssue name observation now slot =
        .ok (some ⟨.missing, slot.2.request terms name slot.1⟩) :=
      decideIssue_of_none hterms (unseen slot hslot)
    rw [Std.ExtTreeMap.mem_iff_isSome_getElem?,
      getElem?_slotKey_of_planned planned distinct hslot hmissing]
    rfl

/-- The ids that are planned for a role. -/
def TokenPlan.idsIn (plan : TokenPlan) (role : String) : List String :=
  (plan.keys.filter (·.role = role)).map (·.id)

/-- Of keys in order those of one role have ascending ids. -/
theorem ids_ascending_of_before {keys : List TokenKey}
    (ordered : keys.Pairwise TokenKey.Before) (role : String) :
    ((keys.filter (·.role = role)).map (·.id)).Pairwise (· < ·) := by
  rw [List.pairwise_map, List.pairwise_filter]
  refine ordered.imp ?_
  intro a b hbefore ha hb
  have hsame : a.role = b.role :=
    (of_decide_eq_true ha).trans (of_decide_eq_true hb).symm
  rcases hbefore with hless | ⟨_, hless⟩
  · exact absurd hsame (ne_of_lt hless)
  · exact hless

/-- The ids planned for a role ascend. -/
theorem TokenPlan.idsIn_ascending (plan : TokenPlan) (role : String) :
    (plan.idsIn role).Pairwise (· < ·) := by
  rw [TokenPlan.idsIn, ← Std.ExtTreeMap.map_fst_toList_eq_keys]
  exact ids_ascending_of_before plan.ascending role

/-- The ids planned for a role of a new project are its declared ones. -/
theorem idsIn_perm (distinct : DistinctTokens roles)
    (hkeys : plan.keys.Perm ((specsOf roles).map slotKey)) {r : Role}
    (hr : r ∈ roles) : (plan.idsIn r.name).Perm (r.tokens.map (·.id)) := by
  have hnodup : (plan.idsIn r.name).Nodup := (plan.idsIn_ascending r.name).nodup
  rw [List.perm_ext_iff_of_nodup hnodup (distinct.ids r hr)]
  intro id
  have hplanned : id ∈ plan.idsIn r.name ↔ (⟨r.name, id⟩ : TokenKey) ∈ plan.keys := by
    simp only [TokenPlan.idsIn, List.mem_map, List.mem_filter, decide_eq_true_eq]
    constructor
    · rintro ⟨⟨role, id⟩, ⟨hmem, rfl⟩, rfl⟩
      exact hmem
    · intro hmem
      exact ⟨_, ⟨hmem, rfl⟩, rfl⟩
  rw [hplanned, hkeys.mem_iff, List.mem_map, List.mem_map]
  constructor
  · rintro ⟨slot, hslot, hkey⟩
    obtain ⟨other, hother, hname, hspec⟩ := mem_specsOf.mp hslot
    obtain ⟨hrole, hid⟩ := TokenKey.mk.inj hkey
    -- only one role has this name
    obtain rfl := List.inj_on_of_nodup_map distinct.names hother hr (hname.trans hrole)
    exact ⟨slot.2, hspec, hid⟩
  · rintro ⟨s, hs, rfl⟩
    exact ⟨(r.name, s), mem_specsOf.mpr ⟨r, hr, rfl, hs⟩, rfl⟩

/-- **The planned ids stand in the order of the declaration exactly if the
declared ones ascend.** -/
theorem idsIn_eq_iff (distinct : DistinctTokens roles)
    (hkeys : plan.keys.Perm ((specsOf roles).map slotKey)) {r : Role}
    (hr : r ∈ roles) :
    plan.idsIn r.name = r.tokens.map (·.id) ↔
      (r.tokens.map (·.id)).Pairwise (· < ·) := by
  constructor
  · intro heq
    rw [← heq]
    exact plan.idsIn_ascending r.name
  · intro hascending
    exact List.Perm.eq_of_pairwise (fun a b _ _ hab hba => absurd hba (lt_asymm hab))
      (plan.idsIn_ascending r.name) hascending (idsIn_perm distinct hkeys hr)

end Planned

/-! ## Comparing by position -/

section Positions

variable {now : Instant} {observation : Observation}

/-- Tokens that match have the ids of the specs, one by one. -/
theorem ids_eq_of_tokensMatch [DurationReader]
    {specs : List TokenSpec} {tokens : List ObservedToken}
    (hlength : specs.length = tokens.length)
    (h : tokensMatch now specs tokens = .ok true) :
    tokens.map (·.id) = specs.map (·.id) := by
  induction specs generalizing tokens with
  | nil =>
      have hnil : tokens = [] := List.eq_nil_of_length_eq_zero hlength.symm
      rw [hnil]
      rfl
  | cons s specs ih =>
      cases tokens with
      | nil => cases hlength
      | cons t tokens =>
          rw [tokensMatch] at h
          obtain ⟨terms, _, h⟩ := bind_eq_ok.mp h
          split at h
          · rename_i hpair
            have hid : s.id = t.id := by
              simp only [Bool.and_eq_true, decide_eq_true_eq] at hpair
              exact hpair.1.1
            rw [List.map_cons, List.map_cons, hid, ih (Nat.succ.inj hlength) h]
          · cases h

/-- Tokens that are looked up by their own ids are found in their own order. -/
theorem filterMap_find?_ids {tokens : List ObservedToken}
    (distinct : (tokens.map (·.id)).Nodup) :
    (tokens.map (·.id)).filterMap (fun id => tokens.find? (·.id = id)) = tokens := by
  have hfind : ∀ t ∈ tokens, tokens.find? (·.id = t.id) = some t :=
    fun _ ht => find?_key_of_mem distinct ht
  rw [List.filterMap_map]
  refine (List.filterMap_congr hfind).trans ?_
  exact List.filterMap_some

/-- Tokens that are seen in the order of the specs are just those that are
kept. -/
theorem keptTokens_of_ids {r : Role} (distinct : (r.tokens.map (·.id)).Nodup)
    (ids : (observation[r.name]?.getD []).map (·.id) = r.tokens.map (·.id)) :
    r.keptTokens observation = observation[r.name]?.getD [] := by
  rw [← ids] at distinct
  have hself := filterMap_find?_ids distinct
  rw [ids, List.filterMap_map] at hself
  exact hself

/-- **Settled tokens agree with the declaration exactly if they stand in its
order.** -/
theorem tokensAgree_of_settled [DurationReader] {roles : List Role} {r : Role}
    (settled : Settled roles observation now) (distinct : DistinctTokens roles)
    (hr : r ∈ roles)
    (complete : ((observation[r.name]?.getD []).map (·.id)).Perm
      (r.tokens.map (·.id))) :
    tokensAgree r.tokens (observation[r.name]?.getD []) now =
      .ok (decide ((observation[r.name]?.getD []).map (·.id) =
        r.tokens.map (·.id))) := by
  by_cases hids : (observation[r.name]?.getD []).map (·.id) = r.tokens.map (·.id)
  · have hagree := tokensAgree_keptTokens settled hr
    rw [keptTokens_of_ids (distinct.ids r hr) hids] at hagree
    rw [hagree, decide_eq_true hids]
  · have hlength : r.tokens.length = (observation[r.name]?.getD []).length := by
      have hlengths := complete.length_eq
      rw [List.length_map, List.length_map] at hlengths
      exact hlengths.symm
    have hreadable : Readable r.tokens := by
      intro s hs
      obtain ⟨_, _, _, terms, hterms, _⟩ :=
        settled (r.name, s) (mem_specsOf.mpr ⟨r, hr, rfl, hs⟩)
      exact ⟨terms, hterms⟩
    obtain ⟨agree, hmatch⟩ :=
      tokensMatch_isOk hreadable now (observation[r.name]?.getD [])
    rw [tokensAgree, if_pos hlength, hmatch, decide_eq_false hids]
    cases agree with
    | false => rfl
    | true => exact absurd (ids_eq_of_tokensMatch hlength hmatch) hids

/-- Roles that are as they are sent, tokens aside, match if their tokens
agree. -/
theorem rolesMatch_of_bare [DurationReader] {roles : List Role} {lives : List Live.Role}
    {agree : Role → Bool}
    (bare : lives.map Live.Role.bare = roles.map (·.toLive ∅))
    (h : ∀ r ∈ roles,
      tokensAgree r.tokens (observation[r.name]?.getD []) now = .ok (agree r)) :
    rolesMatch observation now roles lives = .ok (roles.all agree) := by
  induction roles generalizing lives with
  | nil =>
      have hnil : lives = [] := List.map_eq_nil_iff.mp bare
      rw [hnil]
      rfl
  | cons r roles ih =>
      cases lives with
      | nil => cases bare
      | cons live lives =>
          rw [List.map_cons, List.map_cons, List.cons.injEq] at bare
          have hmatch : r.matches live = true := matches_eq_true_iff.mpr bare.1
          have hrest := ih bare.2 fun x hx => h x (List.mem_cons_of_mem _ hx)
          rw [rolesMatch_cons (h r List.mem_cons_self), hmatch, Bool.true_and, hrest,
            List.all_cons]
          cases agree r <;> rfl

end Positions

/-! ## After the first update -/

/-- Every role lists its ids in ascending order. -/
def Ascending (roles : List Role) : Prop :=
  ∀ r ∈ roles, (r.tokens.map (·.id)).Pairwise (· < ·)

instance (roles : List Role) : Decidable (Ascending roles) :=
  inferInstanceAs (Decidable (∀ r ∈ roles, _))

section FirstUpdate

variable {cp : ControlPlane} {p : Project} {name version : String}
  {live after : Live.Project} {plan : TokenPlan} {now : Instant}

/-- Where nothing is refused, all that is planned is granted. -/
theorem granted_eq_self (unrefused : ∀ key, cp.refusal? key = none)
    (plan : TokenPlan) : cp.granted plan = plan :=
  Std.ExtTreeMap.ext_getElem?
    (getElem?_granted_of_refused_eq_nil (refused_eq_nil unrefused plan.toList))

/-- What is sent of roles is as it is sent without tokens, tokens aside. -/
theorem bare_toLive (roles : List Role) (observation : Observation) :
    (roles.map (·.toLive observation)).map Live.Role.bare = roles.map (·.toLive ∅) := by
  rw [List.map_map]
  refine List.map_congr_left ?_
  intro r _
  exact matches_eq_true_iff.mp (matches_toLive r observation)

/-- What is stored of the parameters is as they send it, whatever its roles. -/
theorem AsSent.of_reindex {p : Parameters} {observation : Observation}
    {roles : List Live.Role}
    (h : live = Live.Project.reindex
      { p.toLive name observation with version := version, spec.roles := roles }) :
    AsSent p live := by
  subst h
  exact ⟨rfl, rfl, rfl, rfl, rfl, rfl, rfl⟩

variable [DurationReader] (unrefused : ∀ key, cp.refusal? key = none)
  (unseen : NoneSeen p.parameters.roles live.observation)
  (planned : planTokens name p.parameters.roles live.observation now = .ok plan)

include unrefused unseen planned

/-- The first update leaves the tokens of a role in the order of the plan. -/
theorem tokensIn_rolesAfter
    (distinct : DistinctTokens p.parameters.roles) {r : Role}
    (hr : r ∈ p.parameters.roles) :
    (Live.tokensIn (cp.rolesAfter p live now plan) r.name).map (·.id) =
      plan.idsIn r.name := by
  have hplaced := placed_of_planned planned
  have hbare : Live.tokensIn (p.parameters.roles.map (·.toLive live.observation))
      r.name = [] := by
    have hkept : r.keptTokens live.observation = [] := by
      refine List.filterMap_eq_nil_iff.mpr ?_
      intro s hs
      exact unseen (r.name, s) (mem_specsOf.mpr ⟨r, hr, rfl, hs⟩)
    rw [tokensIn_toLive distinct.names hr, hkept]
    rfl
  have hkeys : (plan.toList.map (·.2)).map (·.key) = plan.keys := by
    rw [← Std.ExtTreeMap.map_fst_toList_eq_keys, List.map_map]
    exact List.map_congr_left fun entry he => (hplaced entry he).1
  have hdistinct : ((plan.toList.map (·.2)).map (·.key)).Nodup := by
    rw [hkeys]
    exact Std.ExtTreeMap.nodup_keys
  have hdeclared : ∀ t ∈ plan.toList.map (·.2), t.role ∈
      (p.parameters.roles.map (·.toLive live.observation)).map (·.name) := by
    intro t ht
    obtain ⟨entry, he, rfl⟩ := List.mem_map.mp ht
    obtain ⟨hkey, _, hrole⟩ := hplaced entry he
    rw [← hkey] at hrole
    exact hrole
  rw [rolesAfter, granted_eq_self unrefused,
    Live.tokensIn_grantAll now.seconds hdistinct hdeclared hbare, TokenPlan.idsIn,
    ← hkeys]
  generalize plan.toList.map (·.2) = requests
  rw [List.filter_map, List.map_map, List.map_map]
  rfl

/-- **The first update leaves no drift behind exactly if the ids ascend.** -/
theorem evaluate_after_first_update
    (hafter : after = Live.Project.reindex
      { p.parameters.toLive name live.observation with
        version := version,
        spec.roles := cp.rolesAfter p live now plan })
    (settled : Settled p.parameters.roles after.observation now)
    (distinct : DistinctTokens p.parameters.roles)
    (filled : ∀ d ∈ p.parameters.destinations, d.Filled) :
    p.parameters.evaluate name after after.observation now =
      .ok ⟨decide (Ascending p.parameters.roles), false, ∅⟩ := by
  have hsent : AsSent p.parameters after := .of_reindex hafter
  have hroles : after.spec.roles = cp.rolesAfter p live now plan := by
    subst hafter
    rfl
  have hbare : after.spec.roles.map Live.Role.bare =
      p.parameters.roles.map (·.toLive ∅) := by
    rw [hroles, rolesAfter, Live.bare_grantAll, bare_toLive]
  have hlength : p.parameters.roles.length = after.spec.roles.length := by
    have hlengths := congrArg List.length hbare
    rw [List.length_map, List.length_map] at hlengths
    exact hlengths.symm
  have hkeys := keys_perm_of_noneSeen distinct unseen planned
  have hagree : ∀ r ∈ p.parameters.roles,
      tokensAgree r.tokens (after.observation[r.name]?.getD []) now =
        .ok (decide ((r.tokens.map (·.id)).Pairwise (· < ·))) := by
    intro r hr
    have hnames : ((cp.rolesAfter p live now plan).map (·.name)).Nodup := by
      rw [names_rolesAfter]
      exact distinct.names
    have hids : (after.observation[r.name]?.getD []).map (·.id) =
        plan.idsIn r.name := by
      rw [← tokensIn_rolesAfter unrefused unseen planned distinct hr]
      subst hafter
      rw [Live.Project.observation_reindex hnames, List.map_map]
      rfl
    have hcomplete : ((after.observation[r.name]?.getD []).map (·.id)).Perm
        (r.tokens.map (·.id)) := by
      rw [hids]
      exact idsIn_perm distinct hkeys hr
    rw [tokensAgree_of_settled settled distinct hr hcomplete, hids]
    congr 1
    rw [decide_eq_decide]
    exact idsIn_eq_iff distinct hkeys hr
  have hupToDate : p.parameters.isUpToDate after after.observation now =
      .ok (decide (Ascending p.parameters.roles)) := by
    rw [Parameters.isUpToDate, hsent.fieldsMatch_eq_true filled]
    simp only [Bool.not_true, Bool.false_eq_true, if_false, hlength, ne_eq,
      not_true_eq_false]
    rw [rolesMatch_of_bare hbare hagree]
    congr 1
    rw [Bool.eq_iff_iff, List.all_eq_true, decide_eq_true_iff]
    simp only [decide_eq_true_eq]
    rfl
  rw [Parameters.evaluate, hsent.fillFrom_eq filled, hsent.hasGaps_eq_false,
    Parameters.judge, settled.planTokens_eq name, ok_bind, hupToDate]
  rfl

end FirstUpdate

end Reconcile
