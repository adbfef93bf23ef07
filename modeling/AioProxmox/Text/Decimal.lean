import Mathlib.Data.List.Basic

/-!
# Text - decimal numbers

The number that a text starts with, in the decimal digits of any script, and the texts that
a number is printed as, with or without commas between its thousands.

Main results:

- Definition {lit}`leadingNumber?`: the number a text starts with.
- Theorem {lit}`leadingNumber?_decimal`: a printed number is read back, whatever follows it
  but another digit.
- Theorem {lit}`filter_grouped`: without its commas a grouped number is the plain one.
-/

namespace Decimal

/-! ## Digits -/

/-- The zeros of the scripts other than the common one; the other digits of each follow it in
order. -/
def otherZeros : List Nat :=
  [0x660, 0x6f0, 0x7c0, 0x966, 0x9e6, 0xa66, 0xae6, 0xb66, 0xbe6, 0xc66, 0xce6, 0xd66,
    0xde6, 0xe50, 0xed0, 0xf20, 0x1040, 0x1090, 0x17e0, 0x1810, 0x1946, 0x19d0, 0x1a80, 0x1a90,
    0x1b50, 0x1bb0, 0x1c40, 0x1c50, 0xa620, 0xa8d0, 0xa900, 0xa9d0, 0xa9f0, 0xaa50, 0xabf0,
    0xff10, 0x104a0, 0x10d30, 0x10d40, 0x11066, 0x110f0, 0x11136, 0x111d0, 0x112f0, 0x11450,
    0x114d0, 0x11650, 0x116c0, 0x116d0, 0x116da, 0x11730, 0x118e0, 0x11950, 0x11bf0, 0x11c50,
    0x11d50, 0x11da0, 0x11f50, 0x16130, 0x16a60, 0x16ac0, 0x16b50, 0x16d70, 0x1ccf0, 0x1d7ce,
    0x1d7d8, 0x1d7e2, 0x1d7ec, 0x1d7f6, 0x1e140, 0x1e2f0, 0x1e4f0, 0x1e5f1, 0x1e950, 0x1fbf0]

/-- The value of a decimal digit. -/
def digit? (c : Char) : Option Nat :=
  ((0x30 :: otherZeros).find? fun z => z ≤ c.toNat && c.toNat < z + 10).map fun z => c.toNat - z

/-- A decimal digit. -/
def isDecimal (c : Char) : Bool :=
  (digit? c).isSome

/-- The value of some digits. -/
def valueOf (digits : List Char) : Nat :=
  digits.foldl (fun value c => 10 * value + (digit? c).getD 0) 0

/-- The number that a text starts with. -/
def leadingNumber? (text : List Char) : Option Nat :=
  match text.takeWhile isDecimal with
  | [] => none
  | digits => some (valueOf digits)

/-- The decimal digits of a number. -/
def decimal (n : Nat) : List Char :=
  Nat.toDigits 10 n

/-- The common digits are among those of all scripts. -/
theorem digit?_of_isDigit {c : Char} (h : c.isDigit = true) :
    digit? c = some (c.toNat - '0'.toNat) := by
  have hrange : 48 ≤ c.toNat ∧ c.toNat ≤ 57 := by
    rw [Char.isDigit, Bool.and_eq_true, decide_eq_true_eq, decide_eq_true_eq] at h
    exact h
  have hfirst : (0x30 :: otherZeros).find? (fun z => z ≤ c.toNat && c.toNat < z + 10) =
      some 0x30 := by
    apply List.find?_cons_of_pos
    rw [Bool.and_eq_true, decide_eq_true_eq, decide_eq_true_eq]
    omega
  unfold digit?
  rw [hfirst]
  rfl

/-- The digits of a number are digits. -/
theorem isDigit_of_mem_decimal {n : Nat} {c : Char} (h : c ∈ decimal n) : c.isDigit = true :=
  Nat.isDigit_of_mem_toDigits (by decide) (by decide) h

/-- The digits of a number are decimal characters. -/
theorem isDecimal_of_mem_decimal {n : Nat} {c : Char} (h : c ∈ decimal n) :
    isDecimal c = true := by
  rw [isDecimal, digit?_of_isDigit (isDigit_of_mem_decimal h)]
  rfl

/-- There is at least one digit. -/
theorem decimal_ne_nil (n : Nat) : decimal n ≠ [] :=
  Nat.toDigits_ne_nil

/-! ## Reading a printed number -/

/-- The digits of a number have its value. -/
theorem valueOf_decimal (n : Nat) : valueOf (decimal n) = n := by
  have hdigits : ∀ digits : List Char, (∀ c ∈ digits, c.isDigit = true) →
      ∀ value, digits.foldl (fun value c => 10 * value + (digit? c).getD 0) value =
        Nat.ofDigitChars 10 digits value := by
    intro digits
    induction digits with
    | nil => exact fun _ _ => rfl
    | cons c rest ih =>
        intro hall value
        have hc := hall c List.mem_cons_self
        rw [List.foldl_cons, Nat.ofDigitChars_cons, digit?_of_isDigit hc, Option.getD_some]
        exact ih (fun c' hc' => hall c' (List.mem_cons_of_mem c hc')) _
  unfold valueOf
  rw [hdigits (decimal n) (fun _ => isDigit_of_mem_decimal)]
  exact Nat.ofDigitChars_ten_toDigits

/-- A printed number ends where another character than a digit follows. -/
theorem takeWhile_decimal (n : Nat) (rest : List Char)
    (hrest : ∀ c, rest.head? = some c → isDecimal c = false) :
    (decimal n ++ rest).takeWhile isDecimal = decimal n := by
  rw [List.takeWhile_append_of_pos fun c hc => isDecimal_of_mem_decimal hc]
  cases rest with
  | nil => simp
  | cons c rest => simp [hrest c rfl]

/-- A printed number is read back, whatever follows it but another digit. -/
theorem leadingNumber?_decimal (n : Nat) (rest : List Char)
    (hrest : ∀ c, rest.head? = some c → isDecimal c = false) :
    leadingNumber? (decimal n ++ rest) = some n := by
  unfold leadingNumber?
  rw [takeWhile_decimal n rest hrest]
  split
  · rename_i hnil
    exact absurd hnil (decimal_ne_nil n)
  · rw [valueOf_decimal]

/-! ## Thousands -/

/-- Digits in reverse, with a comma after each three of them that are not the last. -/
def withCommas : List Char → List Char
  | a :: b :: c :: d :: rest => a :: b :: c :: ',' :: withCommas (d :: rest)
  | digits => digits

/-- The digits of a number in groups of three. -/
def grouped (n : Nat) : List Char :=
  (withCommas (decimal n).reverse).reverse

/-- Without the separators the digits are left. -/
theorem filter_withCommas {digits : List Char} (h : ',' ∉ digits) :
    (withCommas digits).filter (· ≠ ',') = digits := by
  induction digits using withCommas.induct with
  | case1 a b c d rest ih =>
      simp only [List.mem_cons, not_or] at h ih
      rw [withCommas, List.filter_cons_of_pos (by simpa using Ne.symm h.1),
        List.filter_cons_of_pos (by simpa using Ne.symm h.2.1),
        List.filter_cons_of_pos (by simpa using Ne.symm h.2.2.1),
        List.filter_cons_of_neg (by simp), ih h.2.2.2]
  | case2 digits hshort =>
      rw [withCommas.eq_2 digits hshort, List.filter_eq_self]
      intro c hc
      apply decide_eq_true
      rintro rfl
      exact h hc

theorem comma_notMem_decimal (n : Nat) : ',' ∉ decimal n := by
  intro h
  exact absurd (isDigit_of_mem_decimal h) (by decide)

/-- Without its commas a grouped number is the plain one. -/
theorem filter_grouped (n : Nat) : (grouped n).filter (· ≠ ',') = decimal n := by
  unfold grouped
  rw [List.filter_reverse, filter_withCommas (by simpa using comma_notMem_decimal n),
    List.reverse_reverse]

/-- A number as it is printed has no separators. -/
theorem filter_decimal (n : Nat) : (decimal n).filter (· ≠ ',') = decimal n := by
  rw [List.filter_eq_self]
  intro c hc
  apply decide_eq_true
  rintro rfl
  exact comma_notMem_decimal n hc

example : String.ofList (grouped 3728) = "3,728" := by decide

end Decimal
