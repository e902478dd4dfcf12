import Mathlib
import Reconcile.Text
import Reconcile.Word

/-!
# Readers and digits

A reader takes a value off the front of a text. What it does on a text whose
front is known is found part by part: `run_bind_of_run` goes on behind a part
that has been read.

The parts that are numbers are decimal digits. A row of digits ends where no
digit follows, and the digits of a number, with or without zeros in front, count
for that number.
-/

namespace Reconcile

/-! ## Readers -/

section Readers

variable {ε α β : Type} {x : StateT (List Char) (Except ε) α}
  {f : α → StateT (List Char) (Except ε) β} {cs mid : List Char} {a : α}

theorem run_bind_of_run (h : x.run cs = .ok (a, mid)) :
    (x >>= f).run cs = (f a).run mid := by
  rw [StateT.run_bind, h]
  rfl

theorem run_map_of_run {g : α → β} (h : x.run cs = .ok (a, mid)) :
    (g <$> x).run cs = .ok (g a, mid) := by
  rw [StateT.run_map, h]
  rfl

/-- What has been worked out takes nothing off the text. -/
theorem run_lift_of_ok {y : Except ε α} (h : y = .ok a) :
    (liftM y : StateT (List Char) (Except ε) α).run cs = .ok (a, cs) := by
  subst h
  rfl

end Readers

/-! ## Digits -/

/-- The number that a row of digits counts for, behind others. -/
def digitsFrom (n : Nat) (digits : List Char) : Nat :=
  digits.foldl (fun n c => n * 10 + (c.toNat - '0'.toNat)) n

theorem digitsFrom_eq (n : Nat) (digits : List Char) :
    digitsFrom n digits = Nat.ofDigitChars 10 digits n := by
  unfold digitsFrom Nat.ofDigitChars
  simp only [Nat.mul_comm]

@[simp]
theorem digitsFrom_toDigits (n : Nat) : digitsFrom 0 (Nat.toDigits 10 n) = n := by
  rw [digitsFrom_eq]
  exact Nat.ofDigitChars_toDigits (by decide) (by decide)

/-- No digit follows. -/
def NoDigitAhead (rest : List Char) : Prop :=
  ∀ c ∈ rest.head?, c.isDigit = false

theorem isDigit_of_mem_toDigits {n : Nat} {c : Char} (h : c ∈ Nat.toDigits 10 n) :
    c.isDigit = true :=
  Nat.isDigit_of_mem_toDigits (by decide) (by decide) h

theorem takeWhile_isDigit {digits rest : List Char}
    (all : ∀ c ∈ digits, c.isDigit = true) (stop : NoDigitAhead rest) :
    (digits ++ rest).takeWhile Char.isDigit = digits := by
  rw [List.takeWhile_append_of_pos all]
  cases rest with
  | nil => simp
  | cons c rest => simp [stop c rfl]

theorem dropWhile_isDigit {digits rest : List Char}
    (all : ∀ c ∈ digits, c.isDigit = true) (stop : NoDigitAhead rest) :
    (digits ++ rest).dropWhile Char.isDigit = rest := by
  rw [List.dropWhile_append_of_pos all]
  cases rest with
  | nil => rfl
  | cons c rest => simp [stop c rfl]

/-- A number other than zero is written without zeros in front. -/
theorem head?_toDigits_ne_zero {n : Nat} (pos : 0 < n) :
    (Nat.toDigits 10 n).head? ≠ some '0' := by
  induction n using Nat.strong_induction_on with
  | _ n ih =>
      by_cases small : n < 10
      · rw [Nat.toDigits_of_lt_base small]
        interval_cases n <;> decide
      · rw [Nat.toDigits_of_base_le (by decide) (by omega), List.head?_append_of_ne_nil
          _ Nat.toDigits_ne_nil]
        exact ih (n / 10) (by omega) (by omega)

theorem isBlank_of_isDigit {c : Char} (h : c.isDigit = true) :
    Text.isBlank c = false := by
  simp only [Char.isDigit, Bool.and_eq_true, decide_eq_true_eq, ge_iff_le,
    UInt32.le_iff_toNat_le] at h
  obtain ⟨hlow, hhigh⟩ := h
  have hlow' : 48 ≤ c.toNat := hlow
  have hhigh' : c.toNat ≤ 57 := hhigh
  simp [Text.isBlank]
  omega

end Reconcile
