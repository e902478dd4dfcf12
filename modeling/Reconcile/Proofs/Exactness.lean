import Mathlib
import Reconcile.Proofs.Ordering
import Reconcile.Proofs.Serving

/-!
# The exact tokens after an update

An update works on the tokens of a role in three steps. It sends those that are
still wanted, in the order of the declaration; a granted token takes the place
of the one with its id; and one with a new id goes behind the others, in the
order of the grants. `Role.tokensAfter` says what comes of this as one list: for
each declared id that was seen, in the order of the declaration, the token that
was granted for it or else the one that was seen; and then, by ascending id, the
tokens that were granted for the other ids. Which tokens are granted is left
open, and so is the time of each grant.
-/

namespace Reconcile

open ControlPlane

/-! ## The declared tokens after some grants -/

/-- The token that was granted for a key, if one was. -/
def granted? (grants : List Grant) (key : TokenKey) : Option Live.Token :=
  (grants.find? (·.key = key)).map Grant.token

/-- The declared tokens of a role that were seen, in the order of the
declaration, each as it was granted anew or else as it was seen. -/
def Role.seenTokens (r : Role) (observation : Observation) (grants : List Grant) :
    List Live.Token :=
  r.tokens.filterMap fun s =>
    (observation.current r.name s.id).map fun t =>
      (granted? grants ⟨r.name, s.id⟩).getD t.toLive

/-- The declared ids of a role that were not seen, in ascending order. -/
def Role.unseenIds (r : Role) (observation : Observation) : List String :=
  ((r.tokens.map (·.id)).filter fun id =>
    (observation.current r.name id).isNone).insertionSort (· ≤ ·)

/-- The tokens of a role once some were granted. -/
def Role.tokensAfter (r : Role) (observation : Observation) (grants : List Grant) :
    List Live.Token :=
  r.seenTokens observation grants ++
    (r.unseenIds observation).filterMap fun id => granted? grants ⟨r.name, id⟩

/-- The role once some tokens were granted: as it is declared, and with these
tokens. -/
def Role.after (r : Role) (observation : Observation) (grants : List Grant) :
    Live.Role where
  name := r.name
  description := r.description.getD ""
  policies := r.policies
  groups := r.groups
  tokens := r.tokensAfter observation grants

section Grants

variable {grants : List Grant}

/-! ## The tokens granted for a role -/

/-- The token granted for a role with an id is the one granted for their key. -/
theorem find?_grantsFor (grants : List Grant) (name id : String) :
    (Live.grantsFor name grants).find? (·.id = id) = granted? grants ⟨name, id⟩ := by
  have hkey : ∀ g : Grant,
      (g.request.role = name ∧ g.token.id = id) ↔ g.key = ⟨name, id⟩ := by
    intro g
    rw [Grant.key, TokenRequest.key, TokenKey.mk.injEq]
    rfl
  rw [Live.grantsFor, List.find?_map, List.find?_filter, granted?]
  simp only [Function.comp_def, decide_eq_true_eq, hkey]

theorem ids_grantsFor (grants : List Grant) (name : String) :
    (Live.grantsFor name grants).map (·.id) =
      ((grants.map Grant.key).filter (·.role = name)).map (·.id) := by
  rw [Live.grantsFor, List.filter_map, List.map_map, List.map_map]
  rfl

/-- Each of them is the one granted for its key, since no other has its id. -/
theorem granted?_of_mem_grantsFor (distinct : (grants.map Grant.key).Nodup)
    {name : String} {t : Live.Token} (ht : t ∈ Live.grantsFor name grants) :
    granted? grants ⟨name, t.id⟩ = some t := by
  rw [← find?_grantsFor]
  exact find?_key_of_mem (Live.ids_grantsFor_nodup distinct name) ht

/-! ## The two parts -/

section Parts

variable {roles : List Role} {observation : Observation} {r : Role}

/-- What is kept of a role has the declared ids that were seen. -/
theorem ids_keptTokens (r : Role) (observation : Observation) :
    (r.keptTokens observation).map (·.id) =
      (r.tokens.map (·.id)).filter fun id =>
        (observation.current r.name id).isSome := by
  show (r.tokens.filterMap fun s => observation.current r.name s.id).map (·.id) = _
  induction r.tokens with
  | nil => rfl
  | cons s specs ih =>
      rw [List.filterMap_cons, List.map_cons, List.filter_cons]
      cases hcurrent : observation.current r.name s.id with
      | none => exact ih
      | some t =>
          have hid : t.id = s.id := by simpa using List.find?_some hcurrent
          show t.id :: _ = s.id :: _
          rw [hid, ih]

/-- The unseen ids of a role ascend. -/
theorem unseenIds_ascending (distinct : (r.tokens.map (·.id)).Nodup)
    (observation : Observation) :
    (r.unseenIds observation).Pairwise (· < ·) := by
  have hnodup : (r.unseenIds observation).Nodup :=
    (List.perm_insertionSort _ _).nodup_iff.mpr (distinct.filter _)
  exact (List.sortedLE_insertionSort.sortedLT_of_nodup hnodup).pairwise

/-- **The tokens that are sent, replaced by those that were granted.** -/
theorem map_replacedBy_kept (grants : List Grant) (r : Role)
    (observation : Observation) :
    ((r.keptTokens observation).map ObservedToken.toLive).map
        (Live.Token.replacedBy (Live.grantsFor r.name grants)) =
      r.seenTokens observation grants := by
  rw [Role.seenTokens, Role.keptTokens, List.map_map, List.map_filterMap]
  refine List.filterMap_congr ?_
  intro s _
  show ((observation.current r.name s.id).map _) = _
  cases hcurrent : observation.current r.name s.id with
  | none => rfl
  | some t =>
      have hid : t.id = s.id := by simpa using List.find?_some hcurrent
      have htravels : t.toLive.id = s.id := hid
      rw [Option.map_some, Option.map_some, Function.comp_apply, Live.Token.replacedBy,
        find?_grantsFor, htravels]

/-- A token that was granted for a key is one of those granted for its role. -/
theorem mem_grantsFor_of_granted? {name id : String} {t : Live.Token}
    (h : granted? grants ⟨name, id⟩ = some t) :
    t ∈ Live.grantsFor name grants ∧ t.id = id := by
  rw [← find?_grantsFor] at h
  exact ⟨List.mem_of_find?_eq_some h, by simpa using List.find?_some h⟩

section Unseen

variable (distinct : DistinctTokens roles) (hr : r ∈ roles)
  (declared : ∀ g ∈ grants, ∃ slot ∈ specsOf roles, slotKey slot = g.key)

include distinct hr declared

/-- Only declared ids are granted tokens. -/
theorem declared_of_mem_grantsFor {t : Live.Token}
    (ht : t ∈ Live.grantsFor r.name grants) : t.id ∈ r.tokens.map (·.id) := by
  obtain ⟨g, hg, rfl⟩ := List.mem_map.mp ht
  obtain ⟨hg, hrole⟩ := List.mem_filter.mp hg
  obtain ⟨slot, hslot, hkey⟩ := declared g hg
  obtain ⟨other, hr', hname, hspec⟩ := mem_specsOf.mp hslot
  obtain ⟨hslotrole, hslotid⟩ := TokenKey.mk.inj hkey
  obtain rfl := List.inj_on_of_nodup_map distinct.names hr' hr
    (hname.trans (hslotrole.trans (of_decide_eq_true hrole)))
  exact List.mem_map.mpr ⟨slot.2, hspec, hslotid⟩

variable (ascending : (grants.map Grant.key).Pairwise TokenKey.Before)
  (single : (grants.map Grant.key).Nodup)

include ascending single

/-- The ids that were granted and had not been seen ascend on both sides, so it is
enough that they are the same. -/
theorem ids_grantsFor_unseen (observation : Observation) :
    ((Live.grantsFor r.name grants).filter fun t =>
        t.id ∉ (r.keptTokens observation).map (·.id)).map (·.id) =
      (r.unseenIds observation).filter fun id =>
        (granted? grants ⟨r.name, id⟩).isSome := by
  have hleft : (((Live.grantsFor r.name grants).filter fun t =>
      t.id ∉ (r.keptTokens observation).map (·.id)).map (·.id)).Pairwise (· < ·) := by
    have hall := ids_ascending_of_before ascending r.name
    rw [← ids_grantsFor] at hall
    exact hall.sublist (List.filter_sublist.map _)
  have hright := (unseenIds_ascending (distinct.ids r hr) observation).filter fun id =>
    (granted? grants ⟨r.name, id⟩).isSome
  refine List.Perm.eq_of_pairwise (fun a b _ _ hab hba => absurd hba (lt_asymm hab))
    hleft hright ?_
  rw [List.perm_ext_iff_of_nodup hleft.nodup hright.nodup]
  intro id
  rw [List.mem_filter, Role.unseenIds, List.mem_insertionSort, List.mem_filter,
    List.mem_map, ids_keptTokens]
  constructor
  · rintro ⟨t, ht, rfl⟩
    obtain ⟨hfound, hunseen⟩ := List.mem_filter.mp ht
    have hid := declared_of_mem_grantsFor distinct hr declared hfound
    have hsome := granted?_of_mem_grantsFor single hfound
    rw [decide_eq_true_iff, List.mem_filter, not_and] at hunseen
    exact ⟨⟨hid, by simpa using hunseen hid⟩, by rw [hsome]; rfl⟩
  · rintro ⟨⟨_, hnone⟩, hsome⟩
    obtain ⟨t, ht⟩ := Option.isSome_iff_exists.mp hsome
    obtain ⟨hfound, rfl⟩ := mem_grantsFor_of_granted? ht
    refine ⟨t, List.mem_filter.mpr ⟨hfound, ?_⟩, rfl⟩
    rw [decide_eq_true_iff, List.mem_filter, not_and]
    intro _
    simpa using hnone

/-- **The tokens that were granted for other ids** come by ascending id. -/
theorem grantsFor_unseen :
    ((Live.grantsFor r.name grants).filter fun t =>
        t.id ∉ (r.keptTokens observation).map (·.id)) =
      (r.unseenIds observation).filterMap fun id => granted? grants ⟨r.name, id⟩ := by
  have hids := ids_grantsFor_unseen distinct hr declared ascending single observation
  generalize hothers : (Live.grantsFor r.name grants).filter _ = others at hids ⊢
  have hgranted : ∀ t ∈ others, granted? grants ⟨r.name, t.id⟩ = some t := by
    intro t ht
    rw [← hothers] at ht
    exact granted?_of_mem_grantsFor single (List.mem_of_mem_filter ht)
  calc others
      = (others.map (·.id)).filterMap fun id => granted? grants ⟨r.name, id⟩ := by
        rw [List.filterMap_map]
        exact ((List.filterMap_congr hgranted).trans List.filterMap_some).symm
    _ = _ := by
        rw [hids, List.filterMap_filter]
        refine List.filterMap_congr ?_
        intro id _
        cases granted? grants ⟨r.name, id⟩ <;> rfl

end Unseen

/-- **The roles after some grants** are the declared ones with their tokens, and
no id occurs twice in one of them. -/
theorem grantEach_toLive (distinct : DistinctTokens roles)
    (ascending : (grants.map Grant.key).Pairwise TokenKey.Before)
    (single : (grants.map Grant.key).Nodup)
    (declared : ∀ g ∈ grants, ∃ slot ∈ specsOf roles, slotKey slot = g.key)
    (observation : Observation) :
    Live.grantEach (roles.map (·.toLive observation)) grants =
        roles.map (·.after observation grants) ∧
      ∀ r ∈ roles, ((r.tokensAfter observation grants).map (·.id)).Nodup := by
  have hroles : ∀ g ∈ grants, g.request.role ∈
      (roles.map (·.toLive observation)).map (·.name) := by
    intro g hg
    obtain ⟨slot, hslot, hkey⟩ := declared g hg
    obtain ⟨r, hr, hname, _⟩ := mem_specsOf.mp hslot
    rw [names_toLive]
    exact List.mem_map.mpr ⟨r, hr, hname.trans (TokenKey.mk.inj hkey).1⟩
  have hold : ∀ r ∈ roles,
      ((Live.tokensIn (roles.map (·.toLive observation)) r.name).map (·.id)) =
        (r.keptTokens observation).map (·.id) := by
    intro r hr
    rw [tokensIn_toLive distinct.names hr, List.map_map]
    rfl
  have hnodup : ∀ r ∈ roles,
      ((Live.tokensIn (roles.map (·.toLive observation)) r.name).map (·.id)).Nodup := by
    intro r hr
    rw [hold r hr, ids_keptTokens]
    exact (distinct.ids r hr).filter _
  have htokens : ∀ r ∈ roles,
      Live.tokensIn (Live.grantEach (roles.map (·.toLive observation)) grants) r.name =
        r.tokensAfter observation grants := by
    intro r hr
    rw [Live.tokensIn_grantEach single hroles (hnodup r hr), hold r hr,
      tokensIn_toLive distinct.names hr, map_replacedBy_kept,
      grantsFor_unseen distinct hr declared ascending single]
    rfl
  constructor
  · apply Live.eq_of_bare_eq
    · rw [List.map_map]
      exact distinct.names
    · rw [Live.bare_grantEach, bare_toLive, List.map_map]
      exact List.map_congr_left fun r _ => toLive_empty r
    · intro stored hstored
      obtain ⟨r, hr, rfl⟩ := List.mem_map.mp hstored
      exact htokens r hr
  · intro r hr
    rw [← htokens r hr, Live.tokensIn_grantEach_eq_foldl hroles]
    exact Live.ids_foldl_putIn_nodup (Live.ids_grantsFor_nodup single r.name)
      (hnodup r hr)

end Parts

end Grants

/-! ## The update -/

section Update

variable {σ : Type} {h : Host σ} {plane : σ → ControlPlane} {moment : σ → Moment}
  {p : Project} {name : String} {live : Live.Project}

/-- Granted requests have declared keys, and they are granted in their order. -/
theorem grants_of_planned [DurationReader] {cp : ControlPlane} {now : Instant} {plan : TokenPlan}
    {grants : List Grant}
    (planned : planTokens name p.parameters.roles live.observation now = .ok plan)
    (requests : grants.map Grant.request = (cp.granted plan).toList.map Prod.snd) :
    (grants.map Grant.key).Pairwise TokenKey.Before ∧ (grants.map Grant.key).Nodup ∧
      ∀ g ∈ grants, ∃ slot ∈ specsOf p.parameters.roles, slotKey slot = g.key := by
  have hplanned : ∀ entry ∈ (cp.granted plan).toList, entry ∈ plan.toList := by
    intro entry he
    rw [toList_granted] at he
    exact List.mem_of_mem_filter he
  have hkeys : grants.map Grant.key = (cp.granted plan).toList.map Prod.fst := by
    have hkeyed := (congrArg (List.map TokenRequest.key) requests)
    rw [List.map_map, List.map_map] at hkeyed
    refine hkeyed.trans (List.map_congr_left ?_)
    intro entry he
    exact Project.keyed_of_planned planned entry (hplanned entry he)
  refine ⟨?_, ?_, ?_⟩
  · rw [hkeys]
    exact (cp.granted plan).ascending
  · rw [hkeys, Std.ExtTreeMap.map_fst_toList_eq_keys]
    exact Std.ExtTreeMap.nodup_keys
  · intro g hg
    have hkey : g.key ∈ (cp.granted plan).toList.map Prod.fst :=
      hkeys ▸ List.mem_map.mpr ⟨g, hg, rfl⟩
    obtain ⟨entry, he, hentry⟩ := List.mem_map.mp hkey
    have hget := Std.ExtTreeMap.mem_toList_iff_getElem?_eq_some.mp (hplanned entry he)
    obtain ⟨slot, hslot, _, _, hslotkey, _⟩ := exists_slot_of_planned planned hget
    exact ⟨slot, hslot, hslotkey.trans hentry⟩

/-- **The exact tokens after an update.** Let a control plane hold a project and
serve one client, with any clocks and any tokens that it refuses to issue, and
let no two declared roles share a name and no two specs of a role an id. If an
update goes through, or ends with some tokens refused, then it was granted just
those of the planned tokens that are not refused. The project is stored with the
declared roles in their order, as they are declared. Each role has first, in the
order of the declaration, the declared tokens that were seen, as granted anew or
else as seen; and then, by ascending id, those that were granted and had not been
seen. No id occurs twice. -/
theorem tokens_exact_after_update [DurationReader] (serves : h.Serves plane moment) {s s' : σ}
    {result : Except Failure Secrets} (named : p.externalName = some name)
    (held : (plane s).project? name = some live)
    (distinct : DistinctTokens p.parameters.roles)
    (ran : h.run p.update.run s = (some result, s'))
    (ended : (handedBack? result).isSome) :
    ∃ plan grants stored,
      p.planAlong (h.steps p.update.run s) = some plan ∧
      grantsIn moment (h.trace p.update.run s) = grants ∧
      grants.map Grant.request = ((plane s).granted plan).toList.map Prod.snd ∧
      (plane s').project? name = some stored ∧
      stored.spec.roles = p.parameters.roles.map (·.after live.observation grants) ∧
      ∀ r ∈ stored.spec.roles, (r.tokens.map (·.id)).Nodup := by
  obtain ⟨served, sending, plan, planned⟩ := serves.sent_of_handedBack named held ran ended
  obtain ⟨brought, grants, s₁, hrun, halong, hgrants, _, hrequests, hheld, _⟩ :=
    serves.run_update named held served sending planned
  obtain ⟨ascending, single, declared⟩ := grants_of_planned planned hrequests
  obtain ⟨hroles, hids⟩ :=
    grantEach_toLive distinct ascending single declared live.observation
  obtain rfl : s₁ = s' := (Prod.mk.inj (hrun.symm.trans ran)).2
  obtain ⟨version, hstored⟩ := hheld
  refine ⟨plan, grants, _, halong, hgrants, hrequests, hstored, hroles, ?_⟩
  intro stored hmem
  have hafter : stored ∈ p.parameters.roles.map (·.after live.observation grants) :=
    hroles ▸ hmem
  obtain ⟨r, hr, rfl⟩ := List.mem_map.mp hafter
  exact hids r hr

end Update

/-- A host whose clock goes on by a second with every call. -/
def ticking (tail : String) : Host (ControlPlane × Int) where
  isCancelled _ := false
  clock s := instantOfTimestamp s.2
  serve r s := (some (s.1.serve ⟨s.2, tail⟩ r).1, ((s.1.serve ⟨s.2, tail⟩ r).2, s.2 + 1))
  note _ s := s
  pause n s := (s.1, s.2 + n)

theorem ticking_serves (tail : String) :
    (ticking tail).Serves Prod.fst fun s => ⟨s.2, tail⟩ :=
  ⟨fun _ => rfl, fun _ _ => rfl, fun _ _ => rfl, fun _ _ => rfl⟩

/-- A project that wants five tokens of one role, and one of another. -/
def foundry : Project :=
  (Project.declare "foundry" { roles := [
    { name := "ci", description := some "pipeline", tokens := [
      { id := "cast", expiresIn := some "1h" }, { id := "weld" },
      { id := "bore", expiresIn := some "2h" }, { id := "grind" }, { id := "anneal" }] },
    { name := "audit", policies := ["p, audit, get"], tokens := [{ id := "read" }] }]
    }).setExternalName "foundry"

/-- It holds one of them that has expired, one that has not, and one that nobody
wants any more, in a role under another description. -/
def foundryLive : Live.Project :=
  Live.Project.reindex { name := "foundry", spec.roles := [
    { name := "ci", description := "old", groups := ["smiths"], tokens := [
      ⟨"grind", 1600000000, 0⟩, ⟨"scrap", 1600000000, 0⟩,
      ⟨"cast", 1600000000, 1600003600⟩] }] }

/-- One of the tokens cannot be issued. -/
def foundryPlane : ControlPlane :=
  (({} : ControlPlane).insert foundryLive).failToken ⟨"ci", "bore"⟩
    ⟨.unavailable, "down"⟩

theorem tokens_exact_at_foundry :
    ∃ result plane seconds stored,
      (ticking "x").run foundry.update.run (foundryPlane, 1700000000) =
        (some result, (plane, seconds)) ∧
      (handedBack? result).map (·.size) = some 4 ∧
      plane.project? "foundry" = some stored ∧
      stored.spec.roles = [
        { name := "ci", description := "pipeline", tokens := [
          ⟨"cast", 1700000005, 1700003605⟩, ⟨"grind", 1600000000, 0⟩,
          ⟨"anneal", 1700000003, 0⟩, ⟨"weld", 1700000006, 0⟩] },
        { name := "audit", policies := ["p, audit, get"], tokens := [
          ⟨"read", 1700000002, 0⟩] }] := by
  have named : foundry.externalName = some "foundry" := by decide +kernel
  have held : foundryPlane.project? "foundry" =
      some { foundryLive with version := "1" } := by decide +kernel
  have distinct : DistinctTokens foundry.parameters.roles :=
    ⟨by decide, by decide⟩
  have hsize : ((ticking "x").run foundry.update.run
      (foundryPlane, 1700000000)).1.map (fun result => (handedBack? result).map (·.size)) =
        some (some 4) := by decide +kernel
  obtain ⟨⟨_ | result, plane, seconds⟩, ran⟩ : ∃ ending,
      (ticking "x").run foundry.update.run (foundryPlane, 1700000000) = ending := ⟨_, rfl⟩
  · rw [ran] at hsize
    cases hsize
  · rw [ran, Option.map_some, Option.some.injEq] at hsize
    have ended : (handedBack? result).isSome := by
      cases hback : handedBack? result with
      | none => rw [hback] at hsize; cases hsize
      | some secrets => rfl
    obtain ⟨_, _, stored, _, rfl, _, hstored, hroles, _⟩ :=
      tokens_exact_after_update (ticking_serves "x") named held distinct ran ended
    refine ⟨result, plane, seconds, stored, ran, hsize, hstored, hroles.trans ?_⟩
    decide +kernel

end Reconcile
