import Mathlib
import Reconcile.Proofs.Outcomes
import Reconcile.Proofs.Spelling

/-!
# Reading what is spelled

The readers that all formats are made of, on a text whose front is spelled: a
word, a string, a whole number, the parts between items and members, and the
items of a sequence and the members of an object in full. Each takes off what is
spelled and leaves the rest.

A number has no end of its own, so what follows it matters. `Ends` says that what
follows a value does not carry on with it; in a document this is always so.
-/

namespace Reconcile.Json

/-- What follows carries on with no number. -/
def Ends (rest : List Char) : Prop :=
  ∀ c ∈ rest.head?, c.isDigit = false ∧ c ≠ '.' ∧ isExponentLetter c = false

theorem ends_nil : Ends [] := by
  rintro c ⟨⟩

/-- What stands behind a part, up to the end of the bracket around it, carries on
with no number. -/
theorem ends_gap {gap rest : List Char} {c : Char} (blank : Blanks gap)
    (closes : c.isDigit = false ∧ c ≠ '.' ∧ isExponentLetter c = false) :
    Ends (gap ++ c :: rest) := by
  intro d hd
  cases gap with
  | nil =>
      cases hd
      exact closes
  | cons d' gap =>
      cases hd
      have hblank := blank d List.mem_cons_self
      simp only [Reader.isBlank, Bool.or_eq_true, decide_eq_true_eq] at hblank
      rcases hblank with ((rfl | rfl) | rfl) | rfl <;> decide

theorem SpellsItems.ends {items : List Json} {tail gap rest : List Char} {c : Char}
    (others : SpellsItems false items tail) (blank : Blanks gap)
    (closes : c.isDigit = false ∧ c ≠ '.' ∧ isExponentLetter c = false) :
    Ends (tail ++ (gap ++ c :: rest)) := by
  cases others with
  | nil => exact ends_gap blank closes
  | cons => exact ends_gap blanks_nil (by decide)

theorem SpellsMembers.ends {members : List (String × Json)} {tail gap rest : List Char}
    {c : Char} (others : SpellsMembers false members tail) (blank : Blanks gap)
    (closes : c.isDigit = false ∧ c ≠ '.' ∧ isExponentLetter c = false) :
    Ends (tail ++ (gap ++ c :: rest)) := by
  cases others with
  | nil => exact ends_gap blank closes
  | cons => exact ends_gap blanks_nil (by decide)

namespace Reader

/-! ## Blanks and words -/

theorem ahead_run {gap cs : List Char} {c : Char} (blank : Blanks gap)
    (visible : isBlank c = false) : ahead.run (gap ++ c :: cs) = .ok (c :: cs, c :: cs) := by
  have hskip : (gap ++ c :: cs).dropWhile isBlank = c :: cs := by
    rw [List.dropWhile_append_of_pos blank]
    simp [visible]
  change Except.ok ((gap ++ c :: cs).dropWhile isBlank, (gap ++ c :: cs).dropWhile isBlank) = _
  rw [hskip]

theorem word_run (w rest : List Char) : (word w).run (w ++ rest) = .ok ((), rest) := by
  induction w with
  | nil => rfl
  | cons c w ih =>
      unfold word
      rw [run_bind_of_run rfl]
      change (if c = c then _ else _ : Reader Unit).run _ = _
      rw [if_pos rfl, run_bind_of_run rfl]
      exact ih

/-! ## Strings -/

theorem hexValue?_hexDigit : ∀ d < 16, hexValue? (hexDigit d) = some d := by
  decide

/-- A control character that has no letter of its own is read by its number. -/
theorem stringBody_control {c : Char} (control : c.toNat < 32) (taken rest : List Char) :
    stringBody .plain taken
        ('\\' :: 'u' :: '0' :: '0' :: hexDigit (c.toNat / 16) :: hexDigit (c.toNat % 16) ::
          rest) =
      stringBody .plain (c :: taken) rest := by
  have hzero : hexValue? '0' = some 0 := by decide
  have hhigh := hexValue?_hexDigit (c.toNat / 16) (by omega)
  have hlow := hexValue?_hexDigit (c.toNat % 16) (by omega)
  have hroom : endsWithinFour ('0' :: '0' :: hexDigit (c.toNat / 16) ::
      hexDigit (c.toNat % 16) :: rest) = false := by
    have hone : ∀ d : Char, 0 < d.utf8Size := Char.utf8Size_pos
    have h0 := hone '0'
    have h1 := hone (hexDigit (c.toNat / 16))
    have h2 := hone (hexDigit (c.toNat % 16))
    simp [endsWithinFour]
    omega
  have hvalue : c.toNat / 16 * 16 + c.toNat % 16 = c.toNat := by omega
  have htrail : isTrail c.toNat = false := by
    simp [isTrail]
    omega
  have hlead : isLead c.toNat = false := by
    simp [isLead]
    omega
  simp [stringBody, hroom, hzero, hhigh, hlow, hvalue, htrail, hlead]

/-- **A character of a string is read as itself**, whether or not it is
escaped. -/
theorem stringBody_stringChar (c : Char) (taken rest : List Char) :
    stringBody .plain taken (stringChar c ++ rest) = stringBody .plain (c :: taken) rest := by
  unfold stringChar
  split
  case h_8 hquote hslash _ _ _ _ _ =>
    split
    · rename_i hcontrol
      exact stringBody_control hcontrol taken rest
    · rename_i hplain
      have hne : c ≠ '"' := hquote
      have hne' : c ≠ '\\' := hslash
      simp [stringBody, hne, hne', hplain]
  all_goals simp [stringBody, escapedChar?]

theorem string_run (s : String) (rest : List Char) :
    string.run (s.toList.flatMap stringChar ++ '"' :: rest) = .ok (s, rest) := by
  have hbody : ∀ cs taken : List Char,
      stringBody .plain taken (cs.flatMap stringChar ++ '"' :: rest) =
        .ok (taken.reverse ++ cs, rest) := by
    intro cs
    induction cs with
    | nil =>
        intro taken
        simp [stringBody]
    | cons c cs ih =>
        intro taken
        rw [List.flatMap_cons, List.append_assoc, stringBody_stringChar, ih]
        simp
  change (stringBody .plain [] _ >>= _) = _
  rw [hbody, ok_bind]
  simp
  rfl

/-! ## Whole numbers -/

/-- A row of digits without zeros in front is the whole part of a number. -/
theorem wholeDigits_toDigits (n : Nat) {rest : List Char} (ends : Ends rest) :
    wholeDigits (Nat.toDigits 10 n ++ rest) = .ok (Nat.toDigits 10 n, rest) := by
  have hstop : NoDigitAhead rest := fun c hc => (ends c hc).1
  have hall : ∀ c ∈ Nat.toDigits 10 n, c.isDigit = true := fun _ => isDigit_of_mem_toDigits
  have hsome : someDigits (Nat.toDigits 10 n ++ rest) = .ok (Nat.toDigits 10 n, rest) := by
    have htake := takeWhile_isDigit hall hstop
    have hdrop := dropWhile_isDigit hall hstop
    obtain ⟨c, digits, hdigits⟩ := List.exists_cons_of_ne_nil (@Nat.toDigits_ne_nil n 10)
    have hc : c.isDigit = true := hall c (hdigits ▸ List.mem_cons_self)
    rw [hdigits] at htake hdrop ⊢
    simp only [List.cons_append] at htake hdrop ⊢
    simp only [someDigits, hc, if_true, htake, hdrop]
  have hzero : ((Nat.toDigits 10 n).head? = some '0' &&
      decide ((Nat.toDigits 10 n).length > 1)) = false := by
    rw [Bool.and_eq_false_iff, decide_eq_false_iff_not, decide_eq_false_iff_not]
    rcases Nat.eq_zero_or_pos n with rfl | pos
    · right
      decide
    · exact Or.inl (head?_toDigits_ne_zero pos)
  unfold wholeDigits
  rw [hsome, ok_bind]
  dsimp only
  rw [hzero]
  rfl

/-- The digits of a whole number are read as that number, if it fits its word. -/
theorem numeral_toDigits {n : Int} (low : -Word.limit63 ≤ n) (high : n < Word.limit63)
    {rest : List Char} (ends : Ends rest) :
    numeral (decide (n < 0)) (Nat.toDigits 10 n.natAbs ++ rest) = .ok (.integer n, rest) := by
  have hdouble : Word.limit64 = 2 * Word.limit63 := by
    unfold Word.limit64 Word.limit63 twoTo
    norm_num
  have hvalue : (Nat.toDigits 10 n.natAbs).foldl (fun n d => n * 10 + digitValue d) 0 =
      n.natAbs := digitsFrom_toDigits n.natAbs
  have hplain : Numeral.plain (decide (n < 0)) (Nat.toDigits 10 n.natAbs) =
      .ok (.integer n) := by
    unfold Numeral.plain
    rw [hvalue]
    by_cases hneg : n < 0
    · have hback : -(n.natAbs : Int) = n := by omega
      simp only [hneg, decide_true, if_true]
      rw [if_pos ⟨by omega, by omega⟩, hback]
    · have hback : (n.natAbs : Int) = n := by omega
      simp only [hneg, decide_false, Bool.false_eq_true, if_false]
      rw [if_pos (by omega), hback]
  unfold numeral
  rw [wholeDigits_toDigits n.natAbs ends, ok_bind]
  dsimp only
  cases rest with
  | nil =>
      change (Numeral.plain _ _ >>= _) = _
      rw [hplain, ok_bind]
      rfl
  | cons c rest =>
      obtain ⟨_, hpoint, hexponent⟩ := ends c rfl
      split
      · rename_i hcons
        cases hcons
        exact absurd rfl hpoint
      · rw [pure_bind]
        simp only [hexponent, Bool.false_eq_true, if_false, if_true, hplain, ok_bind]
        rfl

/-- **A whole number is read as itself.** Its first character tells whether there
is a sign to be taken off. -/
theorem numeral_intChars {n : Int} (low : -Word.limit63 ≤ n) (high : n < Word.limit63)
    {rest : List Char} (ends : Ends rest) :
    ∃ c tail, intChars n ++ rest = c :: tail ∧ isBlank c = false ∧
      (c = '-' || c.isDigit) = true ∧
      numeral (c = '-') (if c = '-' then tail else c :: tail) = .ok (.integer n, rest) := by
  have hnumeral := numeral_toDigits low high ends
  unfold intChars
  split
  · rename_i hneg
    rw [decide_eq_true hneg] at hnumeral
    exact ⟨'-', _, rfl, rfl, rfl, hnumeral⟩
  · rename_i hnonneg
    rw [decide_eq_false hnonneg] at hnumeral
    obtain ⟨c, digits, hdigits⟩ :=
      List.exists_cons_of_ne_nil (@Nat.toDigits_ne_nil n.natAbs 10)
    have hdigit : c.isDigit = true :=
      isDigit_of_mem_toDigits (n := n.natAbs) (hdigits ▸ List.mem_cons_self)
    have hunsigned : c ≠ '-' := by
      rintro rfl
      cases hdigit
    rw [hdigits] at hnumeral ⊢
    refine ⟨c, digits ++ rest, rfl, ?_, by simp [hdigit], ?_⟩
    · exact isBlank_of_isDigit hdigit
    · rw [decide_eq_false hunsigned, if_neg hunsigned]
      exact hnumeral

/-! ## Between the parts -/

theorem colon_run (rest : List Char) : colon.run (':' :: rest) = .ok ((), rest) := rfl

theorem sequenceEnd_run (rest : List Char) :
    sequenceEnd.run (']' :: rest) = .ok ((), rest) := rfl

theorem mapEnd_run (rest : List Char) : mapEnd.run ('\x7d' :: rest) = .ok ((), rest) := rfl

/-! ## Items -/

theorem anotherItem_end (first : Bool) {gap rest : List Char} (blank : Blanks gap) :
    (anotherItem first).run (gap ++ ']' :: rest) = .ok (false, ']' :: rest) := by
  unfold anotherItem
  rw [run_bind_of_run (ahead_run blank rfl)]
  rfl

theorem anotherItem_run (first : Bool) {v : Json} {gap cs tail : List Char}
    (blank : Blanks gap) (spelled : Spells v cs) :
    (anotherItem first).run (Json.separator first ++ (gap ++ (cs ++ tail))) =
      .ok (true, cs ++ tail) := by
  obtain ⟨c, more, rfl, hvisible, hopen, _⟩ := spelled.head
  unfold anotherItem
  cases first with
  | true =>
      change StateT.run _ (gap ++ c :: (more ++ tail)) = _
      rw [run_bind_of_run (ahead_run blank hvisible)]
      split
      · rename_i hnil
        cases hnil
      · rename_i hcons
        cases hcons
        exact absurd rfl hopen
      · rename_i hcons
        cases hcons
        rfl
  | false =>
      change StateT.run _ ([] ++ ',' :: (gap ++ c :: (more ++ tail))) = _
      rw [run_bind_of_run (ahead_run blanks_nil rfl)]
      change StateT.run (set (gap ++ c :: (more ++ tail)) >>= fun _ => ahead >>= _) _ = _
      rw [run_bind_of_run rfl, run_bind_of_run (ahead_run blank hvisible)]
      change StateT.run (if c = ']' then _ else _) _ = _
      rw [if_neg hopen]
      rfl

/-- **The items of a sequence are read one by one**, if each is read as itself
wherever it ends. -/
theorem items_run {α : Type} {item : Reader α} {write : α → Json} {values : List α}
    (reads : ∀ a ∈ values, ∀ cs rest, Spells (write a) cs → Ends rest →
      item.run (cs ++ rest) = .ok (a, rest))
    {first : Bool} {body gap rest : List Char} {fuel : Nat}
    (spelled : SpellsItems first (values.map write) body) (blank : Blanks gap)
    (enough : values.length < fuel) :
    (items item fuel first).run (body ++ (gap ++ ']' :: rest)) =
      .ok (values, ']' :: rest) := by
  obtain ⟨left, rfl⟩ : ∃ left, fuel = left + 1 := ⟨fuel - 1, by omega⟩
  induction values generalizing first body left with
  | nil =>
      cases spelled
      change (items item (left + 1) first).run (gap ++ ']' :: rest) = _
      unfold items
      rw [run_bind_of_run (anotherItem_end first blank)]
      rfl
  | cons a values ih =>
      cases spelled with
      | cons blank' spelled others =>
          rename_i gap' cs tail
          simp only [List.length_cons] at enough
          obtain ⟨less, rfl⟩ : ∃ less, left = less + 1 := ⟨left - 1, by omega⟩
          have hitem := reads a List.mem_cons_self cs (tail ++ (gap ++ ']' :: rest)) spelled
            (others.ends blank (by decide))
          have hrest := ih (fun b hb => reads b (List.mem_cons_of_mem _ hb)) others less
            (by omega)
          unfold items
          rw [List.append_assoc, List.append_assoc, List.append_assoc,
            run_bind_of_run (anotherItem_run first blank' spelled)]
          change StateT.run (item >>= _) _ = _
          rw [run_bind_of_run hitem, run_bind_of_run hrest]
          rfl

/-- **What spells a sequence is read from bracket to bracket**, with as much fuel
as there are characters behind the first. -/
theorem sequence_run {α : Type} {item : Reader α} {write : α → Json} {values : List α}
    (reads : ∀ a ∈ values, ∀ cs rest, Spells (write a) cs → Ends rest →
      item.run (cs ++ rest) = .ok (a, rest))
    {cs : List Char} (spelled : Spells (.array (values.map write)) cs) (rest : List Char) :
    ∃ body, cs ++ rest = '[' :: body ∧
      (items item (body.length + 1) true).run body = .ok (values, ']' :: rest) := by
  cases spelled with
  | @array _ inner gap spelled blank =>
      have hlength := spelled.length_le
      refine ⟨inner ++ (gap ++ ']' :: rest), by simp, ?_⟩
      apply items_run reads spelled blank
      simp only [List.length_append, List.length_map] at hlength ⊢
      omega

/-! ## Members -/

theorem nextKey_end (first : Bool) {gap rest : List Char} (blank : Blanks gap) :
    (nextKey first).run (gap ++ '\x7d' :: rest) = .ok (none, '\x7d' :: rest) := by
  unfold nextKey
  rw [run_bind_of_run (ahead_run blank rfl)]
  rfl

theorem nextKey_run (first : Bool) (key : String) {gap tail : List Char}
    (blank : Blanks gap) :
    (nextKey first).run (Json.separator first ++ (gap ++ (stringChars key ++ tail))) =
      .ok (some key, tail) := by
  have hkey : stringChars key ++ tail =
      '"' :: (key.toList.flatMap stringChar ++ '"' :: tail) := by
    simp [stringChars]
  have hstring := run_map_of_run (g := some) (string_run key tail)
  rw [hkey]
  unfold nextKey
  cases first with
  | true =>
      change StateT.run _ (gap ++ '"' :: _) = _
      rw [run_bind_of_run (ahead_run blank rfl)]
      exact hstring
  | false =>
      change StateT.run _ ([] ++ ',' :: (gap ++ '"' :: _)) = _
      rw [run_bind_of_run (ahead_run blanks_nil rfl)]
      change StateT.run (set (gap ++ '"' :: _) >>= fun _ => ahead >>= _) _ = _
      rw [run_bind_of_run rfl, run_bind_of_run (ahead_run blank rfl)]
      exact hstring

/-- Each member takes what has been gathered one step further, wherever its value
ends. -/
inductive Gathers {σ : Type} (member : String → σ → Reader σ) :
    List (String × Json) → σ → σ → Prop where
  | nil (s : σ) : Gathers member [] s s
  | cons {k : String} {v : Json} {rest : List (String × Json)} {s t u : σ}
      (step : ∀ space cs tail, Blanks space → Spells v cs → Ends tail →
        (member k s).run (':' :: (space ++ (cs ++ tail))) = .ok (t, tail))
      (others : Gathers member rest t u) : Gathers member ((k, v) :: rest) s u

/-- **The members of an object are read one by one.** -/
theorem members_run {σ : Type} {member : String → σ → Reader σ}
    {ms : List (String × Json)} {s t : σ} (gathers : Gathers member ms s t)
    {first : Bool} {body gap rest : List Char} {fuel : Nat}
    (spelled : SpellsMembers first ms body) (blank : Blanks gap)
    (enough : ms.length < fuel) :
    (members member fuel first s).run (body ++ (gap ++ '\x7d' :: rest)) =
      .ok (t, '\x7d' :: rest) := by
  obtain ⟨left, rfl⟩ : ∃ left, fuel = left + 1 := ⟨fuel - 1, by omega⟩
  induction gathers generalizing first body left with
  | nil s =>
      cases spelled
      change (members member (left + 1) first s).run (gap ++ '\x7d' :: rest) = _
      unfold members
      rw [run_bind_of_run (nextKey_end first blank)]
      rfl
  | cons step _ ih =>
      cases spelled with
      | cons blank' space spelled others =>
          simp only [List.length_cons] at enough
          obtain ⟨less, rfl⟩ : ∃ less, left = less + 1 := ⟨left - 1, by omega⟩
          have hrest := ih others less (by omega)
          unfold members
          simp only [List.append_assoc, List.cons_append]
          rw [run_bind_of_run (nextKey_run first _ blank')]
          dsimp only
          rw [run_bind_of_run (step _ _ _ space spelled (others.ends blank (by decide)))]
          exact hrest

/-- **What spells an object is read in the same way.** -/
theorem object_run {σ : Type} {member : String → σ → Reader σ}
    {ms : List (String × Json)} {s t : σ} (gathers : Gathers member ms s t)
    {cs : List Char} (spelled : Spells (.object ms) cs) (rest : List Char) :
    ∃ body, cs ++ rest = '\x7b' :: body ∧
      (members member (body.length + 1) true s).run body = .ok (t, '\x7d' :: rest) := by
  cases spelled with
  | @object _ inner gap spelled blank =>
      have hlength := spelled.length_le
      refine ⟨inner ++ (gap ++ '\x7d' :: rest), by simp, ?_⟩
      apply members_run gathers spelled blank
      simp only [List.length_append]
      omega

end Reader

end Reconcile.Json
