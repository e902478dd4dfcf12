import Mathlib
import Reconcile.Json.Format
import Reconcile.Proofs.Parsing
import Reconcile.Proofs.Stamps
import Reconcile.Proofs.Timestamps

/-!
# What a format writes, it reads

A format reads a value back if it finds that value in every spelling of the
document that it writes for it. Formats of compound values are put together from
those of their parts, and so is this: a list is read back if its items are, a
record if its fields are.

A field of a record need not be written. What is not written is read back if the
field takes just this value for being absent, and `Field.Keeps` asks of every
field the one or the other. That fields are told apart by their names is the only
other thing that a record needs.
-/

namespace Reconcile.Json.Format

/-- **The value is read back** from whatever spells what is written for it. -/
def ReadsBack {α : Type} (format : Format α) (a : α) : Prop :=
  ∀ gap cs rest, Blanks gap → Spells (format.write a) cs → Ends rest →
    format.read.run (gap ++ (cs ++ rest)) = .ok (a, rest)

/-! ## Scalars -/

theorem readString_run (wanted s : String) {gap rest : List Char} (blank : Blanks gap) :
    (readString wanted).run (gap ++ (stringChars s ++ rest)) = .ok (s, rest) := by
  have hstring : stringChars s ++ rest =
      '"' :: (s.toList.flatMap stringChar ++ '"' :: rest) := by
    simp [stringChars]
  rw [hstring]
  unfold readString
  rw [run_bind_of_run (Reader.ahead_run blank rfl)]
  exact Reader.string_run s rest

theorem text_readsBack (s : String) : text.ReadsBack s := by
  intro gap cs rest blank spelled _
  obtain rfl := spelled.eq_stringChars
  exact readString_run _ s blank

theorem bool_readsBack (b : Bool) : bool.ReadsBack b := by
  intro gap cs rest blank spelled _
  cases spelled
  unfold bool
  cases b with
  | false =>
      change StateT.run _ (gap ++ 'f' :: ("alse".toList ++ rest)) = _
      rw [run_bind_of_run (Reader.ahead_run blank rfl)]
      change StateT.run (set ("alse".toList ++ rest) >>= _) _ = _
      rw [run_bind_of_run rfl, run_bind_of_run (Reader.word_run _ _)]
      rfl
  | true =>
      change StateT.run _ (gap ++ 't' :: ("rue".toList ++ rest)) = _
      rw [run_bind_of_run (Reader.ahead_run blank rfl)]
      change StateT.run (set ("rue".toList ++ rest) >>= _) _ = _
      rw [run_bind_of_run rfl, run_bind_of_run (Reader.word_run _ _)]
      rfl

/-- An instant is read back from its timestamp if it is a whole second. -/
theorem seconds_readsBack {t : Instant} (whole : t.subsecond = 0) :
    seconds.ReadsBack t := by
  intro gap cs rest blank spelled ends
  obtain rfl : cs = intChars t.seconds := spelled.eq_intChars
  have hrange : -Word.limit63 ≤ t.seconds ∧ t.seconds < Word.limit63 := by
    obtain ⟨hlow, hhigh⟩ := t.inRange
    unfold firstNanos nanosPerSecond at hlow
    unfold lastNanos nanosPerSecond at hhigh
    unfold Word.limit63 twoTo Instant.seconds nanosPerSecond
    norm_num at *
    omega
  have hinstant : instantOfNumeral (.integer t.seconds) = .ok t := by
    unfold instantOfNumeral
    simp only [Instant.ofSeconds?_seconds whole]
  obtain ⟨c, tail, hchars, hvisible, hfirst, hnumeral⟩ :=
    Reader.numeral_intChars hrange.1 hrange.2 ends
  unfold seconds
  dsimp only
  rw [hchars, run_bind_of_run (Reader.ahead_run blank hvisible)]
  dsimp only
  rw [if_pos hfirst, run_bind_of_run (run_lift_of_ok hnumeral), run_bind_of_run rfl]
  exact run_lift_of_ok hinstant

theorem stamp_readsBack {s : Stamp} (plain : s.leap = false) : stamp.ReadsBack s := by
  intro gap cs rest blank spelled _
  obtain rfl : cs = stringChars s.text := spelled.eq_stringChars
  unfold stamp
  dsimp only
  rw [run_bind_of_run (readString_run _ _ blank)]
  have hchars : s.text.toList = s.toChars := by
    simp [Stamp.text]
  rw [hchars, Stamp.ofChars_toChars plain]
  rfl

theorem variant_readsBack {α : Type} {cases : List (String × α)} {nameOf : α → String}
    {a : α} (known : cases.lookup (nameOf a) = some a) :
    (variant cases nameOf).ReadsBack a := by
  intro gap cs rest blank spelled _
  obtain rfl : cs = stringChars (nameOf a) := spelled.eq_stringChars
  have hstring : stringChars (nameOf a) ++ rest =
      '"' :: ((nameOf a).toList.flatMap stringChar ++ '"' :: rest) := by
    simp [stringChars]
  rw [hstring]
  unfold variant
  dsimp only
  rw [run_bind_of_run (Reader.ahead_run blank rfl)]
  change StateT.run (set ((nameOf a).toList.flatMap stringChar ++ '"' :: rest) >>= _) _ = _
  rw [run_bind_of_run rfl, run_bind_of_run (Reader.string_run _ _), caseOf, known]
  rfl

theorem carry_readsBack {α β : Type} {format : Format α} {pack : α → β} {unpack : β → α}
    {b : β} (same : pack (unpack b) = b) (reads : format.ReadsBack (unpack b)) :
    (format.carry pack unpack).ReadsBack b := by
  intro gap cs rest blank spelled ends
  rw [← same]
  exact run_map_of_run (reads gap cs rest blank spelled ends)

/-! ## Compound values -/

theorem optional_none_readsBack {α : Type} (format : Format α) :
    (optional format).ReadsBack none := by
  intro gap cs rest blank spelled _
  cases spelled
  unfold optional
  change StateT.run _ (gap ++ 'n' :: ("ull".toList ++ rest)) = _
  rw [run_bind_of_run (Reader.ahead_run blank rfl)]
  change StateT.run (set ("ull".toList ++ rest) >>= _) _ = _
  rw [run_bind_of_run rfl, run_bind_of_run (Reader.word_run _ _)]
  rfl

/-- A value that is there is read back, unless it is written like one that is
not. -/
theorem optional_some_readsBack {α : Type} {format : Format α} {a : α}
    (reads : format.ReadsBack a) (told : format.write a ≠ .null) :
    (optional format).ReadsBack (some a) := by
  intro gap cs rest blank spelled ends
  obtain ⟨c, tail, rfl, hvisible, _, hnull⟩ := Spells.head spelled
  have hread := reads [] _ rest blanks_nil spelled ends
  unfold optional
  dsimp only
  rw [List.cons_append, run_bind_of_run (Reader.ahead_run blank hvisible)]
  split
  · rename_i hcons
    cases hcons
    exact absurd (hnull rfl) told
  · exact run_map_of_run hread

theorem list_readsBack {α : Type} {format : Format α} {values : List α}
    (reads : ∀ a ∈ values, format.ReadsBack a) : (list format).ReadsBack values := by
  intro gap cs rest blank spelled _
  have hreads : ∀ a ∈ values, ∀ cs rest, Spells (format.write a) cs → Ends rest →
      format.read.run (cs ++ rest) = .ok (a, rest) :=
    fun a ha cs rest => reads a ha [] cs rest blanks_nil
  obtain ⟨body, hbody, hitems⟩ := Reader.sequence_run hreads spelled rest
  unfold list
  dsimp only
  rw [hbody, run_bind_of_run (Reader.ahead_run blank rfl)]
  change StateT.run (set body >>= _) _ = _
  rw [run_bind_of_run rfl, run_bind_of_run rfl, run_bind_of_run hitems,
    run_bind_of_run (Reader.sequenceEnd_run rest)]
  rfl

/-! ## Maps -/

/-- A map is made up of its entries. -/
theorem insertMany_toList {α : Type} (d : Dict α) : (∅ : Dict α).insertMany d.toList = d := by
  apply Std.ExtTreeMap.ext_getElem?
  intro k
  cases hget : d[k]? with
  | some a =>
      have hmem : (k, a) ∈ d.toList := Std.ExtTreeMap.mem_toList_iff_getElem?_eq_some.mpr hget
      exact Std.ExtTreeMap.getElem?_insertMany_list_of_mem Std.ReflCmp.compare_self
        Std.ExtTreeMap.distinct_keys_toList hmem
  | none =>
      have hfree : (d.toList.map Prod.fst).contains k = false := by
        rw [List.contains_eq_mem, decide_eq_false_iff_not]
        intro hmem
        obtain ⟨⟨k', a⟩, hentry, rfl⟩ := List.mem_map.mp hmem
        have hsome := Std.ExtTreeMap.mem_toList_iff_getElem?_eq_some.mp hentry
        rw [hget] at hsome
        cases hsome
      rw [Std.ExtTreeMap.getElem?_insertMany_list_of_contains_eq_false hfree]
      exact Std.ExtTreeMap.getElem?_empty

/-- Reads the value of a key into what has been gathered of a map. -/
def entryReader {α : Type} (format : Format α) (key : String) (d : Dict α) :
    Reader (Dict α) := do
  Reader.colon
  return d.insert key (← format.read)

theorem gathers_entries {α : Type} {format : Format α} {entries : List (String × α)}
    (reads : ∀ entry ∈ entries, format.ReadsBack entry.2) (d : Dict α) :
    Reader.Gathers (entryReader format)
      (entries.map fun (k, a) => (k, format.write a)) d (d.insertMany entries) := by
  induction entries generalizing d with
  | nil => exact .nil d
  | cons entry entries ih =>
      obtain ⟨k, a⟩ := entry
      rw [Std.ExtTreeMap.insertMany_cons]
      refine .cons ?_ (ih (fun e he => reads e (List.mem_cons_of_mem _ he)) _)
      intro space cs tail blank spelled ends
      have hread := reads (k, a) List.mem_cons_self space cs tail blank spelled ends
      unfold entryReader
      rw [run_bind_of_run (Reader.colon_run _), run_bind_of_run hread]
      rfl

theorem dict_readsBack {α : Type} {format : Format α} {d : Dict α}
    (reads : ∀ entry ∈ d.toList, format.ReadsBack entry.2) : (dict format).ReadsBack d := by
  intro gap cs rest blank spelled _
  have hgathers := gathers_entries reads ∅
  rw [insertMany_toList] at hgathers
  obtain ⟨body, hbody, hmembers⟩ := Reader.object_run hgathers spelled rest
  unfold dict
  dsimp only
  rw [hbody, run_bind_of_run (Reader.ahead_run blank rfl)]
  change StateT.run (set body >>= fun _ => Reader.fuel >>= fun n =>
    Reader.members (entryReader format) n true ∅ >>= _) _ = _
  rw [run_bind_of_run rfl, run_bind_of_run rfl, run_bind_of_run hmembers,
    run_bind_of_run (Reader.mapEnd_run rest)]
  rfl

/-! ## Records -/

/-- The value of a field outlives being written and read: it is read back if it is
written, and taken for being absent if it is not. -/
def Field.Keeps {α : Type} (field : Field α) (a : α) : Prop :=
  if field.omits a then field.absent = some a else field.format.ReadsBack a

namespace Fields

/-- Each field keeps its value. -/
def Keeps : {τ : Type} → Fields τ → τ → Prop
  | _, .nil, _ => True
  | _, .cons field rest, (a, values) => field.Keeps a ∧ rest.Keeps values

/-- The names of the fields. -/
def names : {τ : Type} → Fields τ → List String
  | _, .nil => []
  | _, .cons field rest => field.name :: rest.names

/-- What is read of a record: the values that were written. -/
def written : {τ : Type} → (fields : Fields τ) → τ → fields.Draft
  | _, .nil, _ => ()
  | _, .cons field rest, (a, values) =>
    (if field.omits a then none else some a, rest.written values)

theorem mem_names_of_mem_write {τ : Type} (fields : Fields τ) (values : τ)
    {m : String × Json} (h : m ∈ fields.write values) : m.1 ∈ fields.names := by
  induction fields with
  | nil => cases h
  | cons field rest ih =>
      obtain ⟨a, values⟩ := values
      rcases List.mem_append.mp h with h | h
      · split at h
        · cases h
        · rw [List.mem_singleton.mp h]
          exact List.mem_cons_self
      · exact List.mem_cons_of_mem _ (ih values h)

section Member

variable {α τ : Type} {field : Field α} {rest : Fields τ}

theorem member_self (d : rest.Draft) :
    (Fields.cons field rest).member field.name ((none, d) : Option α × rest.Draft) =
      (do
        Reader.colon
        return (some (← field.format.read), d) : Reader (Option α × rest.Draft)) :=
  if_pos rfl

theorem member_of_ne {key : String} (hne : key ≠ field.name) (value : Option α)
    (d : rest.Draft) :
    (Fields.cons field rest).member key ((value, d) : Option α × rest.Draft) =
      (do return (value, ← rest.member key d) : Reader (Option α × rest.Draft)) :=
  if_neg hne

end Member

/-- Members of other names go past a field. -/
theorem gathers_past {α τ : Type} {field : Field α} {rest : Fields τ} (value : Option α)
    {ms : List (String × Json)} {d d' : rest.Draft}
    (others : ∀ m ∈ ms, m.1 ≠ field.name) (gathers : Reader.Gathers rest.member ms d d') :
    Reader.Gathers (Fields.cons field rest).member ms (value, d) (value, d') := by
  induction gathers with
  | nil d => exact .nil _
  | @cons k v ms d e d' step _ ih =>
      refine .cons ?_ (ih fun m hm => others m (List.mem_cons_of_mem _ hm))
      intro space cs tail blank spelled ends
      have hne : k ≠ field.name := others (k, v) List.mem_cons_self
      have hstep := step space cs tail blank spelled ends
      have hread : (do return (value, ← rest.member k d) : Reader (Option α × rest.Draft)).run
          (':' :: (space ++ (cs ++ tail))) = .ok ((value, e), tail) := by
        rw [run_bind_of_run hstep]
        rfl
      exact (congrArg (StateT.run · _) (member_of_ne hne value d)).trans hread

/-- **What is written of a record is read of it.** -/
theorem gathers_write {τ : Type} (fields : Fields τ) {values : τ}
    (keeps : fields.Keeps values) (distinct : fields.names.Nodup) :
    Reader.Gathers fields.member (fields.write values) fields.blank
      (fields.written values) := by
  induction fields with
  | nil => exact .nil _
  | cons field rest ih =>
      obtain ⟨a, values⟩ := values
      obtain ⟨hfield, hrest⟩ := keeps
      obtain ⟨hname, hnames⟩ := List.nodup_cons.mp distinct
      have hothers : ∀ m ∈ rest.write values, m.1 ≠ field.name := by
        intro m hm heq
        exact hname (heq ▸ rest.mem_names_of_mem_write values hm)
      unfold Field.Keeps at hfield
      by_cases homits : field.omits a
      · have hpast := gathers_past none hothers (ih hrest hnames)
        simpa only [write, written, blank, homits, if_true, List.nil_append] using hpast
      · rw [if_neg homits] at hfield
        have hpast := gathers_past (some a) hothers (ih hrest hnames)
        simp only [write, written, homits]
        refine .cons ?_ hpast
        intro space cs tail blank spelled ends
        have hread : (do
            Reader.colon
            return (some (← field.format.read), rest.blank) :
              Reader (Option _ × rest.Draft)).run (':' :: (space ++ (cs ++ tail))) =
            .ok ((some a, rest.blank), tail) := by
          rw [run_bind_of_run (Reader.colon_run _),
            run_bind_of_run (hfield space cs tail blank spelled ends)]
          rfl
        exact (congrArg (StateT.run · _) (member_self rest.blank)).trans hread

/-- **A record is finished with the values that were written**, the others being
the ones for being absent. -/
theorem finish_written {τ : Type} (fields : Fields τ) {values : τ}
    (keeps : fields.Keeps values) (missing : Nat → String → Mismatch) (position : Nat) :
    fields.finish missing position (fields.written values) = .ok values := by
  induction fields generalizing position with
  | nil => rfl
  | cons field rest ih =>
      obtain ⟨a, values⟩ := values
      obtain ⟨hfield, hrest⟩ := keeps
      have hvalue : (if field.omits a then none else some a).or field.absent = some a := by
        unfold Field.Keeps at hfield
        split at hfield
        · rename_i homits
          rw [if_pos homits, hfield]
          rfl
        · rename_i hwritten
          rw [if_neg hwritten]
          rfl
      unfold finish written
      dsimp only
      rw [hvalue]
      dsimp only
      rw [ih hrest, ok_bind]
      rfl

end Fields

/-- **A record is read back if each field keeps its value** and no two fields have
one name. -/
theorem record_readsBack {τ : Type} (title : String) {fields : Fields τ} {values : τ}
    (keeps : fields.Keeps values) (distinct : fields.names.Nodup) :
    (record title fields).ReadsBack values := by
  intro gap cs rest blank spelled _
  obtain ⟨body, hbody, hmembers⟩ :=
    Reader.object_run (fields.gathers_write keeps distinct) spelled rest
  have hfinish := fields.finish_written keeps (fun _ name => .missingField name) 0
  unfold record
  dsimp only
  rw [hbody, run_bind_of_run (Reader.ahead_run blank rfl)]
  change StateT.run (set body >>= _) _ = _
  rw [run_bind_of_run rfl, run_bind_of_run rfl, run_bind_of_run hmembers,
    run_bind_of_run (run_lift_of_ok hfinish), run_bind_of_run (Reader.mapEnd_run rest)]
  rfl

/-! ## Kinds of fields -/

section Kinds

variable {α : Type} (name : String) {format : Format α}

theorem required_keeps {a : α} (reads : format.ReadsBack a) :
    (required name format).Keeps a := reads

theorem defaulted_keeps {a value : α} (reads : format.ReadsBack a) :
    (defaulted name format value).Keeps a := reads

theorem maybe_keeps {a : Option α}
    (reads : ∀ b ∈ a, format.ReadsBack b ∧ format.write b ≠ .null) :
    (maybe name format).Keeps a := by
  cases a with
  | none => exact rfl
  | some b => exact optional_some_readsBack (reads b rfl).1 (reads b rfl).2

theorem someOf_keeps {values : List α} (reads : ∀ a ∈ values, format.ReadsBack a) :
    (someOf name format).Keeps values := by
  cases values with
  | nil => exact rfl
  | cons a values => exact list_readsBack reads

theorem entriesOf_keeps {d : Dict α} (reads : ∀ entry ∈ d.toList, format.ReadsBack entry.2) :
    (entriesOf name format).Keeps d := by
  unfold Field.Keeps entriesOf
  dsimp only
  split
  · rename_i hempty
    rw [Std.ExtTreeMap.isEmpty_iff.mp hempty]
  · exact dict_readsBack reads

end Kinds

/-! ## Whole texts -/

/-- **A value is read back from the text of its document**, on one line or on
several. -/
theorem decode_write {α : Type} {format : Format α} {a : α} (reads : format.ReadsBack a) :
    format.decode (format.write a).compact = .ok a ∧
      format.decode (format.write a).pretty = .ok a := by
  have hdecode : ∀ cs, Spells (format.write a) cs → format.decode (String.ofList cs) = .ok a := by
    intro cs spelled
    have hread := reads [] cs [] blanks_nil spelled ends_nil
    rw [List.append_nil, List.nil_append] at hread
    unfold decode
    rw [String.toList_ofList, hread, ok_bind]
    rfl
  exact ⟨hdecode _ (spells_chars _), hdecode _ (spells_lines 0 _)⟩

end Reconcile.Json.Format
