import Mathlib
import Reconcile.Proofs.Formats
import Reconcile.Resource.Format

/-!
# Resources, written and read

A resource is written as a JSON document and read back as it was. Each of its
records leaves some fields out and takes some values for being absent, and these
fit, structure by structure. Two things are lost in writing: the fraction of a
second of an observed instant, and that a stamp is a leap stamp. A resource
without them is read back unchanged (`resource_reads_back`), whatever texts, maps
and lists are in it.
-/

namespace Reconcile

open Json Json.Format

/-! ## Texts -/

theorem text_keeps (name s : String) : (required name text).Keeps s :=
  required_keeps name (text_readsBack s)

theorem maybe_text_keeps (name : String) (s : Option String) : (maybe name text).Keeps s :=
  maybe_keeps name fun b _ => ⟨text_readsBack b, nofun⟩

theorem texts_keep (name : String) (ss : List String) : (someOf name text).Keeps ss :=
  someOf_keeps name fun s _ => text_readsBack s

theorem labels_keep (name : String) (d : Dict String) : (entriesOf name text).Keeps d :=
  entriesOf_keeps name fun entry _ => text_readsBack entry.2

/-! ## The declared configuration -/

theorem tokenSpec_readsBack (s : TokenSpec) : TokenSpec.format.ReadsBack s := by
  apply carry_readsBack rfl
  apply record_readsBack
  · exact ⟨text_keeps _ _, maybe_text_keeps _ _, maybe_text_keeps _ _, maybe_text_keeps _ _,
      maybe_text_keeps _ _, trivial⟩
  · decide

theorem role_readsBack (r : Role) : Role.format.ReadsBack r := by
  apply carry_readsBack rfl
  apply record_readsBack
  · exact ⟨text_keeps _ _, maybe_text_keeps _ _, texts_keep _ _, texts_keep _ _,
      someOf_keeps _ fun s _ => tokenSpec_readsBack s, trivial⟩
  · decide

theorem destination_readsBack (d : Destination) : Destination.format.ReadsBack d := by
  apply carry_readsBack rfl
  apply record_readsBack
  · exact ⟨maybe_text_keeps _ _, maybe_text_keeps _ _, maybe_text_keeps _ _, trivial⟩
  · decide

theorem groupKind_readsBack (k : GroupKind) : GroupKind.format.ReadsBack k := by
  apply carry_readsBack rfl
  apply record_readsBack
  · exact ⟨defaulted_keeps _ (text_readsBack _), text_keeps _ _, trivial⟩
  · decide

theorem parameters_readsBack (p : Parameters) : Parameters.format.ReadsBack p := by
  apply carry_readsBack rfl
  apply record_readsBack
  · exact ⟨maybe_text_keeps _ _, labels_keep _ _, texts_keep _ _, texts_keep _ _,
      someOf_keeps _ fun d _ => destination_readsBack d,
      someOf_keeps _ fun k _ => groupKind_readsBack k,
      someOf_keeps _ fun k _ => groupKind_readsBack k,
      someOf_keeps _ fun r _ => role_readsBack r, trivial⟩
  · decide

/-! ## What passes have seen -/

/-- The instants of the token are whole seconds. -/
structure ObservedToken.Whole (t : ObservedToken) : Prop where
  issuedAt : t.issuedAt.subsecond = 0
  expiresAt : ∀ expiry ∈ t.expiresAt, expiry.subsecond = 0

theorem observedToken_readsBack {t : ObservedToken} (whole : t.Whole) :
    ObservedToken.format.ReadsBack t := by
  have hexpiry : (optional seconds).ReadsBack t.expiresAt := by
    cases hget : t.expiresAt with
    | none => exact optional_none_readsBack _
    | some expiry =>
        exact optional_some_readsBack (seconds_readsBack (whole.expiresAt expiry hget)) nofun
  apply carry_readsBack rfl
  apply record_readsBack
  · exact ⟨text_keeps _ _, required_keeps _ (seconds_readsBack whole.issuedAt),
      defaulted_keeps _ hexpiry, trivial⟩
  · decide

theorem observation_readsBack {observation : Observation}
    (whole : ∀ entry ∈ observation.toList, ∀ t ∈ entry.2, t.Whole) :
    Observation.format.ReadsBack observation := by
  apply carry_readsBack rfl
  apply record_readsBack
  · exact ⟨defaulted_keeps _ (dict_readsBack fun entry hentry =>
      list_readsBack fun t ht => observedToken_readsBack (whole entry hentry t ht)), trivial⟩
  · decide

theorem condition_readsBack {c : Condition} (plain : c.since.leap = false) :
    Condition.format.ReadsBack c := by
  have hkind : ConditionKind.names.lookup c.kind.name = some c.kind := by
    cases c.kind
    decide
  have hreason : ConditionReason.names.lookup c.reason.name = some c.reason := by
    cases c.reason <;> decide
  apply carry_readsBack rfl
  apply record_readsBack
  · exact ⟨required_keeps _ (variant_readsBack hkind), required_keeps _ (bool_readsBack _),
      required_keeps _ (variant_readsBack hreason), required_keeps _ (stamp_readsBack plain),
      trivial⟩
  · decide

/-! ## The resource -/

theorem metadata_readsBack (m : Metadata) : Metadata.format.ReadsBack m := by
  apply carry_readsBack rfl
  apply record_readsBack
  · exact ⟨text_keeps _ _, labels_keep _ _, labels_keep _ _, trivial⟩
  · decide

theorem spec_readsBack (p : Parameters) : Project.specFormat.ReadsBack p := by
  apply carry_readsBack rfl
  apply record_readsBack
  · exact ⟨defaulted_keeps _ (parameters_readsBack p), trivial⟩
  · decide

theorem status_readsBack {conditions : List Condition} {observation : Observation}
    (plain : ∀ c ∈ conditions, c.since.leap = false)
    (whole : ∀ entry ∈ observation.toList, ∀ t ∈ entry.2, t.Whole) :
    Project.statusFormat.ReadsBack (conditions, observation) := by
  apply carry_readsBack rfl
  apply record_readsBack
  · exact ⟨someOf_keeps _ fun c hc => condition_readsBack (plain c hc),
      defaulted_keeps _ (observation_readsBack whole), trivial⟩
  · decide

/-- **A resource is read back from what is written for it**, on one line or on
several, if its observed instants are whole seconds and none of its conditions
has held since a leap stamp. -/
theorem resource_reads_back (p : Project)
    (whole : ∀ (role : String) (tokens : List ObservedToken),
      p.observation[role]? = some tokens → ∀ t ∈ tokens, t.Whole)
    (plain : ∀ c ∈ p.conditions, c.since.leap = false) :
    Project.ofJson p.toJson.compact = .ok p ∧ Project.ofJson p.toJson.pretty = .ok p := by
  have hwhole : ∀ entry ∈ p.observation.toList, ∀ t ∈ entry.2, t.Whole := by
    rintro ⟨role, tokens⟩ hentry
    exact whole role tokens (Std.ExtTreeMap.mem_toList_iff_getElem?_eq_some.mp hentry)
  apply decode_write
  apply carry_readsBack rfl
  apply record_readsBack
  · exact ⟨defaulted_keeps _ (metadata_readsBack _), defaulted_keeps _ (spec_readsBack _),
      defaulted_keeps _ (status_readsBack plain hwhole), trivial⟩
  · decide

/-- Issued on a whole second, with the last one there is for its expiry. -/
def chartroomToken : ObservedToken where
  id := "a\n\"b\""
  issuedAt := ⟨-62135596801 * nanosPerSecond, by decide⟩
  expiresAt := some ⟨8210266876799 * nanosPerSecond, by decide⟩

/-- A resource with texts that need escapes and a text that is there but empty,
a condition to the nanosecond, and a token that expires on the last whole second. -/
def chartroom : Project where
  metadata := { name := "carte \"marée\"", annotations := (∅ : Dict String).insert "tide\t" "" }
  parameters := { description := some "", roles := [{ name := "ci" }] }
  conditions := [⟨.ready, true, .available, ⟨⟨123456789, by decide⟩, false⟩⟩]
  observation := (∅ : Observation).insert "ci" [chartroomToken]

/-- Its token is written in whole seconds, and its condition to the nanosecond. -/
theorem chartroom_reads_back :
    (∀ (role : String) (tokens : List ObservedToken),
      chartroom.observation[role]? = some tokens → ∀ t ∈ tokens, t.Whole) ∧
    (∀ c ∈ chartroom.conditions, c.since.leap = false) ∧
    Project.ofJson chartroom.toJson.compact = .ok chartroom ∧
    Project.ofJson chartroom.toJson.pretty = .ok chartroom := by
  have whole : ∀ (role : String) (tokens : List ObservedToken),
      chartroom.observation[role]? = some tokens → ∀ t ∈ tokens, t.Whole := by
    intro role tokens hseen
    rw [chartroom, Std.ExtTreeMap.getElem?_insert] at hseen
    split at hseen
    · cases hseen
      intro t ht
      rw [List.mem_singleton.mp ht]
      constructor
      · decide
      · rintro expiry ⟨⟩
        decide
    · rw [Std.ExtTreeMap.getElem?_empty] at hseen
      cases hseen
  have plain : ∀ c ∈ chartroom.conditions, c.since.leap = false := by decide
  exact ⟨whole, plain, resource_reads_back chartroom whole plain⟩

end Reconcile
