import Mathlib
import Reconcile.Proofs.Renewal
import Reconcile.Proofs.Undisturbed

/-!
# What a pass sees after an update

Once an update has run alone, the next pass finds a fresh token for each
request that was granted, and for every other declared spec the token that it
found before. From this follows what it decides: for a granted request whether
it is due at once, and for the others what was decided before.
-/

namespace Reconcile

open ControlPlane

/-- A pass sees of each role what an update has left there. -/
def SeesAfter (after : Live.Project) (roles : List Live.Role) : Prop :=
  ∀ role id, after.observation.current role id =
    (Live.tokenIn roles ⟨role, id⟩).map ObservedToken.ofLive

section Aftermath

variable [DurationReader] {cp : ControlPlane} {p : Project} {name : String}
  {live after : Live.Project} {plan : TokenPlan} {now : Instant}
  {slot : String × TokenSpec}
  (distinct : DistinctTokens p.parameters.roles)
  (planned : planTokens name p.parameters.roles live.observation now = .ok plan)
  (sees : SeesAfter after (cp.rolesAfter p live now plan))
  (hslot : slot ∈ specsOf p.parameters.roles)

include distinct planned sees hslot

/-- What a pass sees of a declared spec: what was granted for it, or else what
was sent. -/
theorem current_after_update :
    after.observation.current slot.1 slot.2.id =
      (((cp.granted plan)[slotKey slot]?.map (tokenFor now.seconds)).or
        ((live.observation.current slot.1 slot.2.id).map ObservedToken.toLive)).map
          ObservedToken.ofLive := by
  rw [sees, ← tokenIn_rolesAfter distinct.names planned hslot]
  rfl

/-- What was granted is seen as fresh. -/
theorem current_of_granted (whole : now.subsecond = 0)
    (nonneg : Instant.epoch ≤ now) {t : TokenRequest}
    (hgranted : (cp.granted plan)[slotKey slot]? = some t) :
    after.observation.current slot.1 slot.2.id =
      some (ObservedToken.fresh t.id now t.expiresIn) := by
  have hseconds : 0 ≤ now.seconds :=
    Int.ediv_nonneg nonneg (le_of_lt nanosPerSecond_pos)
  rw [current_after_update distinct planned sees hslot, hgranted, Option.map_some,
    Option.some_or, Option.map_some, ofLive_tokenFor whole hseconds]

/-- What was not granted is seen as it had travelled. -/
theorem current_of_not_granted
    (hgranted : (cp.granted plan)[slotKey slot]? = none) :
    after.observation.current slot.1 slot.2.id =
      (live.observation.current slot.1 slot.2.id).map fun t =>
        ObservedToken.ofLive t.toLive := by
  rw [current_after_update distinct planned sees hslot, hgranted, Option.map_none,
    Option.none_or, Option.map_map]
  rfl

/-- What was not granted is seen as before, if its timestamps can be read. -/
theorem current_eq_of_not_granted (readable : live.unrepresentable = [])
    (hgranted : (cp.granted plan)[slotKey slot]? = none) :
    after.observation.current slot.1 slot.2.id =
      live.observation.current slot.1 slot.2.id := by
  rw [current_of_not_granted distinct planned sees hslot hgranted]
  cases hcurrent : live.observation.current slot.1 slot.2.id with
  | none => rfl
  | some t =>
      have hmem := List.mem_of_find?_eq_some hcurrent
      rw [Option.map_some, Live.Project.ofLive_toLive_of_mem readable hmem]

/-- **A granted request is made again exactly if it is due at once.** -/
theorem decideIssue_of_granted (whole : now.subsecond = 0)
    (nonneg : Instant.epoch ≤ now) {t : TokenRequest}
    (hgranted : (cp.granted plan)[slotKey slot]? = some t)
    {again : Option TokenIssue}
    (hagain : decideIssue name after.observation now slot = .ok again) :
    again.map (·.request) = if slot.2.dueAtOnce now then some t else none := by
  have hplanned : plan[slotKey slot]? = some t := by
    rw [getElem?_granted, Option.filter_eq_some_iff] at hgranted
    exact hgranted.1
  obtain ⟨terms, hterms, rfl⟩ := request_of_planned planned distinct hslot hplanned
  obtain ⟨terms', reason, hterms', hreason, rfl⟩ := decideIssue_eq_ok.mp hagain
  cases hterms.symm.trans hterms'
  rw [current_of_granted distinct planned sees hslot whole nonneg hgranted,
    expiresIn_request] at hreason
  rw [dueAtOnce_eq hterms,
    ← isSome_issueReason_fresh nonneg (terms_nonneg hterms) hreason]
  cases reason <;> rfl

end Aftermath

end Reconcile
