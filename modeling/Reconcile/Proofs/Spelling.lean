import Mathlib
import Reconcile.Json.Reader
import Reconcile.Json.Value
import Reconcile.Proofs.Reading

/-!
# Spellings of a document

A document is written on one line, or spread over indented lines, and a reader
must not care which. So what is written is described by a relation: `Spells v cs`
says that the characters `cs` spell the document `v`, with any blanks between its
parts. Both ways of writing spell the document that they write
(`spells_chars`, `spells_lines`), and whatever is said of reading a spelling
holds for both.

Items and members come with what stands in front of them, nothing for the first
one and a comma for the others, since this is how they are read.
-/

namespace Reconcile.Json

/-- Blanks between the parts of a document. -/
def Blanks (gap : List Char) : Prop :=
  ∀ c ∈ gap, Reader.isBlank c = true

theorem blanks_nil : Blanks [] := by
  intro c hc
  cases hc

theorem blanks_lineStart (depth : Nat) : Blanks (lineStart depth) := by
  intro c hc
  unfold lineStart at hc
  rcases List.mem_cons.mp hc with rfl | hc
  · rfl
  · rw [List.eq_of_mem_replicate hc]
    rfl

theorem blanks_space : Blanks [' '] := by
  intro c hc
  rw [List.mem_singleton.mp hc]
  rfl

/-- What stands between a part and the one before it. -/
def separator (first : Bool) : List Char :=
  if first then [] else [',']

mutual

/-- The characters spell the document. -/
inductive Spells : Json → List Char → Prop where
  | null : Spells .null "null".toList
  | bool (b : Bool) : Spells (.bool b) (if b then "true".toList else "false".toList)
  | int (n : Int) : Spells (.int n) (intChars n)
  | text (s : String) : Spells (.text s) (stringChars s)
  | array {items : List Json} {body gap : List Char} (spelled : SpellsItems true items body)
      (blank : Blanks gap) : Spells (.array items) ('[' :: (body ++ (gap ++ [']'])))
  | object {members : List (String × Json)} {body gap : List Char}
      (spelled : SpellsMembers true members body) (blank : Blanks gap) :
      Spells (.object members) ('\x7b' :: (body ++ (gap ++ ['\x7d'])))

/-- The characters spell the items, the first of them with a comma in front
unless it is the first of all. -/
inductive SpellsItems : Bool → List Json → List Char → Prop where
  | nil (first : Bool) : SpellsItems first [] []
  | cons {first : Bool} {v : Json} {rest : List Json} {gap cs tail : List Char}
      (blank : Blanks gap) (spelled : Spells v cs) (others : SpellsItems false rest tail) :
      SpellsItems first (v :: rest) (separator first ++ (gap ++ (cs ++ tail)))

/-- The same for the members of an object. -/
inductive SpellsMembers : Bool → List (String × Json) → List Char → Prop where
  | nil (first : Bool) : SpellsMembers first [] []
  | cons {first : Bool} {k : String} {v : Json} {rest : List (String × Json)}
      {gap space cs tail : List Char} (blank : Blanks gap) (blank' : Blanks space)
      (spelled : Spells v cs) (others : SpellsMembers false rest tail) :
      SpellsMembers first ((k, v) :: rest)
        (separator first ++ (gap ++ (stringChars k ++ (':' :: (space ++ (cs ++ tail))))))

end

/-! ## Both ways of writing spell what they write -/

mutual

/-- **A document on one line is spelled.** -/
theorem spells_chars : ∀ v : Json, Spells v v.chars
  | .null => .null
  | .bool b => .bool b
  | .int n => .int n
  | .text s => .text s
  | .array [] => .array (.nil true) blanks_nil
  | .array (v :: rest) => by
      have h := spellsItems_chars true (v :: rest) (by simp)
      simpa [chars, separator] using Spells.array h blanks_nil
  | .object [] => .object (.nil true) blanks_nil
  | .object (m :: rest) => by
      have h := spellsMembers_chars true (m :: rest) (by simp)
      simpa [chars, separator] using Spells.object h blanks_nil

theorem spellsItems_chars (first : Bool) :
    ∀ items : List Json, items ≠ [] →
      SpellsItems first items (separator first ++ itemChars items)
  | [], h => absurd rfl h
  | [v], _ => by
      have h : SpellsItems first [v] _ := .cons blanks_nil (spells_chars v) (.nil false)
      simpa [itemChars] using h
  | v :: w :: rest, _ => by
      have hrest := spellsItems_chars false (w :: rest) (by simp)
      have h : SpellsItems first (v :: w :: rest) _ :=
        .cons blanks_nil (spells_chars v) hrest
      simpa [itemChars, separator] using h

theorem spellsMembers_chars (first : Bool) :
    ∀ members : List (String × Json), members ≠ [] →
      SpellsMembers first members (separator first ++ memberChars members)
  | [], h => absurd rfl h
  | [(k, v)], _ => by
      have h : SpellsMembers first [(k, v)] _ :=
        .cons blanks_nil blanks_nil (spells_chars v) (.nil false)
      simpa [memberChars] using h
  | (k, v) :: w :: rest, _ => by
      have hrest := spellsMembers_chars false (w :: rest) (by simp)
      have h : SpellsMembers first ((k, v) :: w :: rest) _ :=
        .cons blanks_nil blanks_nil (spells_chars v) hrest
      simpa [memberChars, separator] using h

end

mutual

/-- **A document on indented lines is spelled.** -/
theorem spells_lines (depth : Nat) : ∀ v : Json, Spells v (v.lines depth)
  | .null => .null
  | .bool b => .bool b
  | .int n => .int n
  | .text s => .text s
  | .array [] => .array (.nil true) blanks_nil
  | .array (v :: rest) => by
      have h := spellsItems_lines (depth + 1) true (v :: rest) (by simp)
      simpa [lines, separator] using Spells.array h (blanks_lineStart depth)
  | .object [] => .object (.nil true) blanks_nil
  | .object (m :: rest) => by
      have h := spellsMembers_lines (depth + 1) true (m :: rest) (by simp)
      simpa [lines, separator] using Spells.object h (blanks_lineStart depth)

theorem spellsItems_lines (depth : Nat) (first : Bool) :
    ∀ items : List Json, items ≠ [] →
      SpellsItems first items (separator first ++ itemLines depth items)
  | [], h => absurd rfl h
  | [v], _ => by
      have h : SpellsItems first [v] _ :=
        .cons (blanks_lineStart depth) (spells_lines depth v) (.nil false)
      simpa [itemLines] using h
  | v :: w :: rest, _ => by
      have hrest := spellsItems_lines depth false (w :: rest) (by simp)
      have h : SpellsItems first (v :: w :: rest) _ :=
        .cons (blanks_lineStart depth) (spells_lines depth v) hrest
      simpa [itemLines, separator] using h

theorem spellsMembers_lines (depth : Nat) (first : Bool) :
    ∀ members : List (String × Json), members ≠ [] →
      SpellsMembers first members (separator first ++ memberLines depth members)
  | [], h => absurd rfl h
  | [(k, v)], _ => by
      have h : SpellsMembers first [(k, v)] _ :=
        .cons (blanks_lineStart depth) blanks_space (spells_lines depth v) (.nil false)
      simpa [memberLines] using h
  | (k, v) :: w :: rest, _ => by
      have hrest := spellsMembers_lines depth false (w :: rest) (by simp)
      have h : SpellsMembers first ((k, v) :: w :: rest) _ :=
        .cons (blanks_lineStart depth) blanks_space (spells_lines depth v) hrest
      simpa [memberLines, separator] using h

end

/-! ## How a spelling begins -/

theorem Spells.eq_stringChars {s : String} {cs : List Char} (h : Spells (.text s) cs) :
    cs = stringChars s := by
  cases h
  rfl

theorem Spells.eq_intChars {n : Int} {cs : List Char} (h : Spells (.int n) cs) :
    cs = intChars n := by
  cases h
  rfl

theorem head_intChars (n : Int) :
    ∃ c tail, intChars n = c :: tail ∧ (c = '-' ∨ c.isDigit = true) := by
  obtain ⟨c, digits, hdigits⟩ :=
    List.exists_cons_of_ne_nil (@Nat.toDigits_ne_nil n.natAbs 10)
  unfold intChars
  split
  · exact ⟨_, _, rfl, Or.inl rfl⟩
  · refine ⟨c, digits, hdigits, Or.inr (isDigit_of_mem_toDigits (n := n.natAbs) ?_)⟩
    rw [hdigits]
    exact List.mem_cons_self

theorem Reader.isBlank_of_isDigit {c : Char} (h : c.isDigit = true) :
    Reader.isBlank c = false := by
  simp only [Reader.isBlank, Bool.or_eq_false_iff, decide_eq_false_iff_not]
  refine ⟨⟨⟨?_, ?_⟩, ?_⟩, ?_⟩ <;>
  · rintro rfl
    cases h

/-- The first character of a spelling is no blank and closes no bracket, and it
is the first of a null only for this. -/
theorem Spells.head {v : Json} {cs : List Char} (h : Spells v cs) :
    ∃ c tail, cs = c :: tail ∧ Reader.isBlank c = false ∧ c ≠ ']' ∧ (c = 'n' → v = .null) := by
  cases h with
  | null => exact ⟨_, _, rfl, by decide, by decide, fun _ => rfl⟩
  | bool b =>
      cases b with
      | false => exact ⟨'f', "alse".toList, rfl, by decide, by decide, by simp⟩
      | true => exact ⟨'t', "rue".toList, rfl, by decide, by decide, by simp⟩
  | int n =>
      obtain ⟨c, tail, hcs, hc⟩ := head_intChars n
      refine ⟨c, tail, hcs, ?_⟩
      rcases hc with rfl | hdigit
      · exact ⟨by decide, by decide, by simp⟩
      · refine ⟨Reader.isBlank_of_isDigit hdigit, ?_, ?_⟩
        · rintro rfl
          cases hdigit
        · rintro rfl
          cases hdigit
  | text s => exact ⟨_, _, rfl, by decide, by decide, by simp⟩
  | array => exact ⟨_, _, rfl, by decide, by decide, by simp⟩
  | object => exact ⟨_, _, rfl, by decide, by decide, by simp⟩

/-! ## Parts take up characters -/

theorem SpellsItems.length_le {first : Bool} {items : List Json} {body : List Char}
    (h : SpellsItems first items body) : items.length ≤ body.length := by
  induction items generalizing first body with
  | nil => exact Nat.zero_le _
  | cons v rest ih =>
      cases h with
      | cons _ spelled others =>
          obtain ⟨c, tail, rfl, _⟩ := spelled.head
          have hrest := ih others
          simp
          omega

theorem SpellsMembers.length_le {first : Bool} {members : List (String × Json)}
    {body : List Char} (h : SpellsMembers first members body) :
    members.length ≤ body.length := by
  induction members generalizing first body with
  | nil => exact Nat.zero_le _
  | cons m rest ih =>
      cases h with
      | cons _ _ _ others =>
          have hrest := ih others
          simp
          omega

end Reconcile.Json
