import Mathlib
import Reconcile.Exchange

/-!
# Instants as timestamps

A token travels with its instants as whole seconds, an expiry of 0 standing
for none. This module says what survives the way there and back: a timestamp
that some instant has, and an instant that is a whole second. The only token
that comes back changed is one that seemed to expire at the epoch, which is
how an unreadable expiry is seen.
-/

namespace Reconcile

/-! ## Whole seconds -/

theorem nanosPerSecond_pos : (0 : Int) < nanosPerSecond := by decide

namespace Instant

theorem nanos_of_ofSeconds? {s : Int} {t : Instant} (h : ofSeconds? s = some t) :
    t.nanos = s * nanosPerSecond :=
  ofNanos?_eq_some_iff.mp h

theorem seconds_of_ofSeconds? {s : Int} {t : Instant}
    (h : ofSeconds? s = some t) : t.seconds = s := by
  rw [seconds, nanos_of_ofSeconds? h]
  exact Int.mul_ediv_cancel s (ne_of_gt nanosPerSecond_pos)

/-- An instant is a whole second if nothing is left past it. -/
theorem nanos_of_subsecond_eq_zero {t : Instant} (h : t.subsecond = 0) :
    t.nanos = t.seconds * nanosPerSecond := by
  rw [subsecond] at h
  have hnonneg := Int.emod_nonneg t.nanos (ne_of_gt nanosPerSecond_pos)
  have hrest : t.nanos % nanosPerSecond = 0 := by omega
  exact (Int.ediv_mul_cancel (Int.dvd_of_emod_eq_zero hrest)).symm

theorem ofSeconds?_seconds {t : Instant} (h : t.subsecond = 0) :
    ofSeconds? t.seconds = some t :=
  ofNanos?_eq_some_iff.mpr (nanos_of_subsecond_eq_zero h)

end Instant

/-! ## Instants of timestamps -/

theorem instantOfTimestamp_eq {s : Int} {t : Instant}
    (h : Instant.ofSeconds? s = some t) : instantOfTimestamp s = t := by
  rw [instantOfTimestamp, h]
  rfl

theorem instantOfTimestamp_eq_epoch {s : Int}
    (h : Instant.ofSeconds? s = none) : instantOfTimestamp s = .epoch := by
  rw [instantOfTimestamp, h]
  rfl

/-- A timestamp that some instant has is not lost on the way. -/
theorem seconds_instantOfTimestamp {s : Int}
    (h : (Instant.ofSeconds? s).isSome) : (instantOfTimestamp s).seconds = s := by
  obtain ⟨t, ht⟩ := Option.isSome_iff_exists.mp h
  rw [instantOfTimestamp_eq ht, Instant.seconds_of_ofSeconds? ht]

/-- A whole second is not lost on the way. -/
theorem instantOfTimestamp_seconds {t : Instant} (h : t.subsecond = 0) :
    instantOfTimestamp t.seconds = t :=
  instantOfTimestamp_eq (Instant.ofSeconds?_seconds h)

/-- Whatever a timestamp is seen as, travels back and is seen the same. -/
theorem instantOfTimestamp_seconds_instantOfTimestamp (s : Int) :
    instantOfTimestamp (instantOfTimestamp s).seconds = instantOfTimestamp s := by
  cases h : Instant.ofSeconds? s with
  | some t => rw [seconds_instantOfTimestamp (by rw [h]; rfl)]
  | none =>
      rw [instantOfTimestamp_eq_epoch h]
      decide

/-! ## Tokens there and back -/

namespace ObservedToken

theorem unrepresentable_eq_nil_iff {t : Live.Token} :
    t.unrepresentable = [] ↔ (Instant.ofSeconds? t.issued).isSome ∧
      (t.expiry = 0 ∨ (Instant.ofSeconds? t.expiry).isSome) := by
  rw [Live.Token.unrepresentable, List.append_eq_nil_iff]
  by_cases he : t.expiry = 0
  · simp [he, Option.isSome_iff_ne_none]
  · simp [he, Option.isSome_iff_ne_none]

/-- A token with timestamps that instants have travels back as it came. -/
theorem toLive_ofLive {t : Live.Token} (h : t.unrepresentable = []) :
    (ofLive t).toLive = t := by
  obtain ⟨hissued, hexpiry⟩ := unrepresentable_eq_nil_iff.mp h
  have hback : ((ofLive t).expiresAt.map Instant.seconds).getD 0 = t.expiry := by
    by_cases hzero : t.expiry = 0
    · rw [ofLive, if_pos hzero, hzero]
      rfl
    · rw [ofLive, if_neg hzero, Option.map_some, Option.getD_some]
      exact seconds_instantOfTimestamp (hexpiry.resolve_left hzero)
  rw [toLive, hback, ofLive, seconds_instantOfTimestamp hissued]

/-- **What was seen is seen again**, unless it seemed to expire at the
epoch. -/
theorem ofLive_toLive_ofLive {t : Live.Token}
    (h : (ofLive t).expiresAt ≠ some .epoch) :
    ofLive (ofLive t).toLive = ofLive t := by
  have hissued := instantOfTimestamp_seconds_instantOfTimestamp t.issued
  by_cases hzero : t.expiry = 0
  · simp only [ofLive, toLive, hzero, hissued, if_true, Option.map_none,
      Option.getD_none]
  · have hexpiry : (ofLive t).expiresAt = some (instantOfTimestamp t.expiry) :=
      if_neg hzero
    rw [hexpiry] at h
    have hback := instantOfTimestamp_seconds_instantOfTimestamp t.expiry
    have hne : (instantOfTimestamp t.expiry).seconds ≠ 0 := by
      intro hs
      rw [hs] at hback
      exact h (congrArg some (hback.symm.trans (by decide)))
    simp only [ofLive, toLive, if_neg hzero, Option.map_some, Option.getD_some,
      hissued, hback, if_neg hne]

/-- What a pass sees is a travelling token that was read. -/
theorem mem_observation {live : Live.Project} {role : String}
    {t : ObservedToken}
    (h : t ∈ live.observation[role]?.getD []) :
    ∃ tokens, live.tokensByRole[role]? = some tokens ∧
      ∃ u ∈ tokens, ofLive u = t := by
  rw [Live.Project.observation, Std.ExtTreeMap.getElem?_map] at h
  cases htokens : live.tokensByRole[role]? with
  | none =>
      rw [htokens] at h
      cases h
  | some tokens =>
      rw [htokens] at h
      exact ⟨tokens, rfl, List.mem_map.mp h⟩

end ObservedToken

/-- In a project without unreadable timestamps no listed token has one. -/
theorem Live.Project.unrepresentable_of_listed {live : Live.Project}
    (h : live.unrepresentable = []) {role : String} {tokens : List Live.Token}
    (listed : live.tokensByRole[role]? = some tokens) {t : Live.Token}
    (ht : t ∈ tokens) : t.unrepresentable = [] := by
  rw [Live.Project.unrepresentable, List.flatMap_eq_nil_iff] at h
  have hrole := h (role, tokens)
    (Std.ExtTreeMap.mem_toList_iff_getElem?_eq_some.mpr listed)
  exact List.flatMap_eq_nil_iff.mp hrole t ht

/-- In a project without unreadable timestamps every seen token travels back
as it came. -/
theorem Live.Project.ofLive_toLive_of_mem {live : Live.Project}
    (h : live.unrepresentable = []) {role : String} {t : ObservedToken}
    (ht : t ∈ live.observation[role]?.getD []) :
    ObservedToken.ofLive t.toLive = t := by
  obtain ⟨tokens, htokens, u, hu, rfl⟩ := ObservedToken.mem_observation ht
  rw [ObservedToken.toLive_ofLive (unrepresentable_of_listed h htokens hu)]

end Reconcile
