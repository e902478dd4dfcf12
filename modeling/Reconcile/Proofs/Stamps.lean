import Mathlib
import Reconcile.Proofs.Calendar
import Reconcile.Proofs.Outcomes
import Reconcile.Proofs.Reading
import Reconcile.Time.Stamp

/-!
# Stamps, there and back

A stamp that is written is read as itself: the year with its sign where it needs
one, the fields of two digits, and the fraction in the fewest digits that lose
nothing. What is read are numbers, and putting them together gives the instant,
since a count of days comes back from its date.

A leap stamp is left out. It is written in the second after its own, and only
there where a minute ends is this a second that nothing else has.
-/

namespace Reconcile

namespace Stamp

/-! ## Padded numbers -/

section Padded

variable {width n : Nat}

theorem isDigit_of_mem_padded {c : Char} (h : c ∈ padded width n) : c.isDigit = true := by
  unfold padded at h
  rcases List.mem_append.mp h with h | h
  · rw [List.eq_of_mem_replicate h]
    rfl
  · exact isDigit_of_mem_toDigits h

theorem length_padded (pos : 0 < width) (small : n < 10 ^ width) :
    (padded width n).length = width := by
  have hlength : (Nat.toDigits 10 n).length ≤ width :=
    (Nat.length_toDigits_le_iff (by decide) pos).mpr small
  simp only [padded, List.length_append, List.length_replicate]
  omega

theorem padded_ne_nil : padded width n ≠ [] := by
  simp [padded, Nat.toDigits_ne_nil]

/-- Zeros in front count for nothing. -/
@[simp]
theorem digitsFrom_padded : digitsFrom 0 (padded width n) = n := by
  have hzeros : ∀ k, digitsFrom 0 (List.replicate k '0') = 0 := by
    intro k
    induction k with
    | zero => rfl
    | succ k ih => exact ih
  unfold padded
  rw [digitsFrom, List.foldl_append]
  change digitsFrom (digitsFrom 0 _) _ = n
  rw [hzeros, digitsFrom_toDigits]

theorem trimStart_padded (rest : List Char) :
    Text.trimStart (padded width n ++ rest) = padded width n ++ rest := by
  obtain ⟨c, digits, hdigits⟩ := List.exists_cons_of_ne_nil (@padded_ne_nil width n)
  have hdigit : c.isDigit = true := isDigit_of_mem_padded (hdigits ▸ List.mem_cons_self)
  rw [hdigits, List.cons_append]
  exact Text.trimStart_cons_of_not_isBlank (isBlank_of_isDigit hdigit) _

/-- **A padded number is read as itself**, if it stays within the limit. -/
theorem number_padded {limit : Option Nat} {rest : List Char}
    (fits : ∀ k ∈ limit, (padded width n).length ≤ k) (small : n < Word.limit63)
    (stop : NoDigitAhead rest) :
    (number limit).run (padded width n ++ rest) = .ok (n, rest) := by
  have hnil : padded width n ++ rest ≠ [] := by
    simp [padded_ne_nil]
  have hrun : (padded width n ++ rest).takeWhile Char.isDigit = padded width n :=
    takeWhile_isDigit (fun c => isDigit_of_mem_padded) stop
  have htake : ∀ k ∈ limit, (padded width n).take k = padded width n :=
    fun k hk => List.take_of_length_le (fits k hk)
  have hvalue : (padded width n).foldl (fun n c => n * 10 + (c.toNat - '0'.toNat)) 0 = n :=
    digitsFrom_padded
  change number limit (padded width n ++ rest) = _
  unfold number
  cases limit with
  | none =>
      simp only [hnil, hrun, hvalue, padded_ne_nil, small, if_true, if_false, List.drop_left]
      rfl
  | some k =>
      simp only [hnil, hrun, htake k rfl, hvalue, padded_ne_nil, small, if_true, if_false,
        List.drop_left]
      rfl

end Padded

/-! ## Fields -/

theorem blanks_run (cs : List Char) : blanks.run cs = .ok ((), Text.trimStart cs) := rfl

theorem field_padded {low high n : Nat} {rest : List Char} (within : low ≤ n ∧ n ≤ high)
    (small : n < 100) (stop : NoDigitAhead rest) :
    (field low high).run (padded 2 n ++ rest) = .ok (n, rest) := by
  have hnumber : (number (some 2)).run (padded 2 n ++ rest) = .ok (n, rest) := by
    apply number_padded _ _ stop
    · rintro k ⟨⟩
      exact (length_padded (by decide) (by omega)).le
    · unfold Word.limit63 twoTo
      norm_num
      omega
  unfold field
  rw [run_bind_of_run (blanks_run _), trimStart_padded, run_bind_of_run hnumber,
    if_pos within]
  rfl

theorem separator_run {c : Char} (visible : Text.isBlank c = false) (rest : List Char) :
    (separator c).run (c :: rest) = .ok ((), rest) := by
  unfold separator
  rw [run_bind_of_run (blanks_run _), Text.trimStart_cons_of_not_isBlank visible]
  change literal c (c :: rest) = _
  simp only [literal, if_true]
  rfl

/-- A year behind its sign, which is 0 where there is none. -/
def yearBehind (sign : Int) : Taking Int := do
  let n ← number (if sign = 0 then some 4 else none)
  let year : Int := if sign < 0 then -n else n
  if -Word.limit31 ≤ year ∧ year < Word.limit31 then return year else throw .outOfRange

theorem yearField_minus (cs : List Char) :
    yearField.run ('-' :: cs) = (yearBehind (-1)).run cs := rfl

theorem yearField_plus (cs : List Char) :
    yearField.run ('+' :: cs) = (yearBehind 1).run cs := rfl

theorem yearField_padded {width n : Nat} {rest : List Char} :
    yearField.run (padded width n ++ rest) = (yearBehind 0).run (padded width n ++ rest) := by
  obtain ⟨c, digits, hdigits⟩ := List.exists_cons_of_ne_nil (@padded_ne_nil width n)
  have hdigit : c.isDigit = true := isDigit_of_mem_padded (hdigits ▸ List.mem_cons_self)
  unfold yearField
  rw [run_bind_of_run (blanks_run _), trimStart_padded, run_bind_of_run rfl, hdigits]
  split
  · rename_i hminus
    cases hminus
    cases hdigit
  · rename_i hplus
    cases hplus
    cases hdigit
  · rfl

theorem yearBehind_run {sign year : Int} {n : Nat} {cs rest : List Char}
    (hnumber : (number (if sign = 0 then some 4 else none)).run cs = .ok (n, rest))
    (hyear : (if sign < 0 then -(n : Int) else n) = year)
    (low : -Word.limit31 ≤ year) (high : year < Word.limit31) :
    (yearBehind sign).run cs = .ok (year, rest) := by
  unfold yearBehind
  rw [run_bind_of_run hnumber]
  dsimp only
  rw [hyear, if_pos ⟨low, high⟩]
  rfl

/-- **A year is read as itself**, with its sign where it has one. -/
theorem yearField_run {year : Int} (low : -Word.limit31 ≤ year) (high : year < Word.limit31)
    {rest : List Char} (stop : NoDigitAhead rest) :
    yearField.run (yearText year ++ rest) = .ok (year, rest) := by
  have hnat : year.natAbs < Word.limit63 := by
    unfold Word.limit31 twoTo at low high
    unfold Word.limit63 twoTo
    norm_num at low high ⊢
    omega
  have hunlimited : (number none).run (padded 4 year.natAbs ++ rest) =
      .ok (year.natAbs, rest) :=
    number_padded nofun hnat stop
  unfold yearText
  by_cases hplain : 0 ≤ year ∧ year ≤ 9999
  · have hnumber : (number (some 4)).run (padded 4 year.toNat ++ rest) =
        .ok (year.toNat, rest) := by
      apply number_padded _ (by omega) stop
      rintro k ⟨⟩
      exact (length_padded (by decide) (by omega)).le
    rw [if_pos hplain, yearField_padded]
    exact yearBehind_run hnumber (Int.toNat_of_nonneg hplain.1) low high
  · rw [if_neg hplain]
    by_cases hneg : year < 0
    · rw [if_pos hneg, List.cons_append, yearField_minus]
      exact yearBehind_run hunlimited (show -(year.natAbs : Int) = year by omega) low high
    · rw [if_neg hneg, List.cons_append, yearField_plus]
      exact yearBehind_run hunlimited (show (year.natAbs : Int) = year by omega) low high

/-- A group of fraction digits counts for as many nanoseconds as it is moved to
the left. -/
theorem fraction_group {width nanos : Nat} (pos : 0 < width) (few : width ≤ 9)
    (small : nanos < 10 ^ width) (rest : List Char) :
    fractionField.run ('.' :: padded width nanos ++ 'Z' :: rest) =
      .ok (nanos * tenTo (9 - width), 'Z' :: rest) := by
  have hlength := length_padded pos small
  have hnumber : number (some 9) (padded width nanos ++ 'Z' :: rest) =
      .ok (nanos, 'Z' :: rest) := by
    apply number_padded
    · rintro k ⟨⟩
      omega
    · have hpow : 10 ^ width ≤ 10 ^ 9 := Nat.pow_le_pow_right (by decide) few
      unfold Word.limit63 twoTo
      norm_num at hpow ⊢
      omega
    · rintro c ⟨⟩
      rfl
  have htaken : (padded width nanos ++ 'Z' :: rest).length - ('Z' :: rest).length =
      width := by
    simp only [List.length_append, hlength]
    omega
  change (number (some 9) (padded width nanos ++ 'Z' :: rest) >>= _) = _
  rw [hnumber, ok_bind]
  change (pure (nanos * tenTo (9 - ((padded width nanos ++ 'Z' :: rest).length -
    ('Z' :: rest).length)), 'Z' :: rest) : Except StampFault _) = _
  rw [htaken]
  rfl

/-- **A fraction is read as itself**, in whatever groups it is written. -/
theorem fractionField_run {nanos : Nat} (small : nanos < 1000000000) (rest : List Char) :
    fractionField.run (fractionText nanos ++ 'Z' :: rest) = .ok (nanos, 'Z' :: rest) := by
  unfold fractionText
  split
  · rename_i hnone
    subst hnone
    rfl
  · split
    · rename_i hgroup
      have hmillis : nanos / 1000000 * tenTo (9 - 3) = nanos := by
        show nanos / 1000000 * 1000000 = nanos
        omega
      rw [fraction_group (by decide) (by decide) (by omega), hmillis]
    · split
      · rename_i hgroup
        have hmicros : nanos / 1000 * tenTo (9 - 6) = nanos := by
          show nanos / 1000 * 1000 = nanos
          omega
        rw [fraction_group (by decide) (by decide) (by omega), hmicros]
      · have hnanos : nanos * tenTo (9 - 9) = nanos := Nat.mul_one nanos
        rw [fraction_group (by decide) (by decide) (by omega), hnanos]

/-! ## The whole stamp -/

theorem isValid_date (t : Instant) :
    (Date.ofDays (t.seconds / 86400)).isValid = true := by
  obtain ⟨hlow, hhigh⟩ := t.inRange
  unfold firstNanos nanosPerSecond at hlow
  unfold lastNanos nanosPerSecond at hhigh
  apply Date.isValid_ofDays
  · unfold Instant.seconds nanosPerSecond
    omega
  · unfold Instant.seconds nanosPerSecond
    omega

/-- **The date and the time of day of an instant make it up again.** -/
theorem assemble_eq (t : Instant) :
    assemble (Date.ofDays (t.seconds / 86400)) ((t.seconds % 86400).toNat / 3600)
      ((t.seconds % 86400).toNat / 60 % 60) ((t.seconds % 86400).toNat % 60) t.subsecond 0 =
      .ok ⟨t, false⟩ := by
  have hsecond : (t.seconds % 86400).toNat % 60 ≠ 60 := by omega
  have hseconds : (t.seconds / 86400) * 86400 +
      (((t.seconds % 86400).toNat / 3600 * 3600 + (t.seconds % 86400).toNat / 60 % 60 * 60 +
        (t.seconds % 86400).toNat % 60 : Nat) : Int) - 0 = t.seconds := by
    omega
  have hnanos : t.seconds * nanosPerSecond + (t.subsecond : Int) = t.nanos := by
    unfold Instant.seconds Instant.subsecond nanosPerSecond
    omega
  unfold assemble
  simp only [isValid_date, Date.toDays_ofDays, hsecond, if_false, hseconds, hnanos,
    Instant.ofNanos?_nanos, decide_false]
  rfl

theorem noDigitAhead_cons {c : Char} {rest : List Char} (h : c.isDigit = false) :
    NoDigitAhead (c :: rest) := by
  rintro _ ⟨⟩
  exact h

theorem noDigitAhead_fractionText {nanos : Nat} :
    NoDigitAhead (fractionText nanos ++ ['Z']) := by
  unfold fractionText
  split
  · exact noDigitAhead_cons rfl
  · split
    · exact noDigitAhead_cons rfl
    · split <;> exact noDigitAhead_cons rfl

/-- **The fields of a stamp are read as they are written**, and what they are put
together to is the stamp. -/
theorem stampField_run {year : Int} {month day hour minute second nanos : Nat} {s : Stamp}
    (hyear : Date.firstYear ≤ year ∧ year ≤ Date.lastYear) (hmonth : 1 ≤ month ∧ month ≤ 12)
    (hday : 1 ≤ day ∧ day ≤ 31) (hhour : hour < 24) (hminute : minute < 60)
    (hsecond : second < 60) (hnanos : nanos < 1000000000)
    (hstamp : assemble ⟨year, month, day⟩ hour minute second nanos 0 = .ok s) :
    stampField.run (yearText year ++ '-' :: (padded 2 month ++ '-' :: (padded 2 day ++
      'T' :: (padded 2 hour ++ ':' :: (padded 2 minute ++ ':' :: (padded 2 second ++
      (fractionText nanos ++ ['Z']))))))) = .ok (s, []) := by
  have hwide : -Word.limit31 ≤ year ∧ year < Word.limit31 := by
    unfold Date.firstYear Date.lastYear at hyear
    unfold Word.limit31 twoTo
    norm_num
    omega
  unfold stampField
  rw [run_bind_of_run (yearField_run hwide.1 hwide.2 (noDigitAhead_cons rfl)),
    run_bind_of_run (separator_run rfl _),
    run_bind_of_run (field_padded hmonth (by omega) (noDigitAhead_cons rfl)),
    run_bind_of_run (separator_run rfl _),
    run_bind_of_run (field_padded hday (by omega) (noDigitAhead_cons rfl)),
    run_bind_of_run (rfl : dateEnd.run ('T' :: _) = .ok ((), _)),
    run_bind_of_run (field_padded (by omega) (by omega) (noDigitAhead_cons rfl)),
    run_bind_of_run (separator_run rfl _),
    run_bind_of_run (field_padded (by omega) (by omega) (noDigitAhead_cons rfl)),
    run_bind_of_run (separator_run rfl _),
    run_bind_of_run (field_padded (by omega) (by omega) noDigitAhead_fractionText),
    run_bind_of_run (fractionField_run hnanos _),
    run_bind_of_run (blanks_run _), Text.trimStart_cons_of_not_isBlank rfl,
    run_bind_of_run (rfl : offsetField.run ['Z'] = .ok (0, [])),
    run_bind_of_run (blanks_run _), run_bind_of_run rfl,
    if_neg (show ¬ Text.trimStart [] ≠ [] from not_not_intro rfl), hstamp]
  rfl

/-- **A stamp is read as itself**, unless it is a leap stamp. -/
theorem ofChars_toChars {s : Stamp} (plain : s.leap = false) :
    ofChars s.toChars = .ok s := by
  obtain ⟨t, leap⟩ := s
  obtain rfl : leap = false := plain
  have hsub : t.subsecond < 1000000000 := by
    unfold Instant.subsecond nanosPerSecond
    omega
  have hassemble := assemble_eq t
  obtain ⟨hyear, hmonth, hday⟩ := Date.bounds_of_isValid (isValid_date t)
  unfold ofChars toChars
  simp only [List.append_assoc, List.cons_append, List.nil_append, Bool.false_eq_true,
    if_false, Nat.add_zero]
  generalize Date.ofDays (t.seconds / 86400) = date at hassemble hyear hmonth hday ⊢
  have hdate : (⟨date.year, date.month.toNat, date.day.toNat⟩ : Date) = date := by
    rw [Int.toNat_of_nonneg (by omega), Int.toNat_of_nonneg (by omega)]
  rw [← hdate] at hassemble
  rw [stampField_run hyear (by omega) (by omega) (by omega) (by omega) (by omega) hsub
    hassemble]
  rfl

end Stamp

end Reconcile
