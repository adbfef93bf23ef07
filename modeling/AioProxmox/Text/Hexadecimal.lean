import Mathlib.Data.List.Nodup

/-!
# Text - octets in hexadecimal digits

An octet is two digits, its higher half first, and some octets are their digits one after the
other.

Main results:

- Theorem {lit}`write_injective`: the digits tell the octets.
- Theorem {lit}`exists_write`: an even number of digits is written of octets.
-/

namespace Hexadecimal

/-- The digits, in lower case. -/
def digits : List Char :=
  ['0', '1', '2', '3', '4', '5', '6', '7', '8', '9', 'a', 'b', 'c', 'd', 'e', 'f']

/-- Whether a character is a digit. -/
def isDigit (c : Char) : Bool :=
  digits.contains c

/-- The digits are those of the table. -/
theorem isDigit_iff {c : Char} : isDigit c = true ↔ c ∈ digits :=
  List.contains_iff_mem

theorem digits_nodup : digits.Nodup := by decide

/-- The digit of half an octet. -/
def digit (half : Fin 16) : Char :=
  digits.get half

/-- No two halves have the same digit. -/
theorem digit_injective : Function.Injective digit :=
  List.nodup_iff_injective_get.mp digits_nodup

theorem digit_mem (half : Fin 16) : digit half ∈ digits :=
  List.get_mem digits half

/-- Each digit is that of a half. -/
theorem exists_digit {c : Char} (h : c ∈ digits) : ∃ half, digit half = c :=
  List.mem_iff_get.mp h

/-- An octet, its higher half first. -/
abbrev Octet :=
  Fin 16 × Fin 16

/-- The two digits of an octet. -/
def octetDigits (octet : Octet) : List Char :=
  [digit octet.1, digit octet.2]

/-- No two octets have the same digits. -/
theorem octetDigits_injective : Function.Injective octetDigits := by
  intro a b h
  simp only [octetDigits, List.cons.injEq, and_true] at h
  exact Prod.ext (digit_injective h.1) (digit_injective h.2)

/-- The digits of some octets, one after the other. -/
def write (octets : List Octet) : List Char :=
  octets.flatMap octetDigits

theorem write_cons (octet : Octet) (octets : List Octet) :
    write (octet :: octets) = octetDigits octet ++ write octets :=
  List.flatMap_cons

/-- Each octet is written with two digits. -/
theorem length_write (octets : List Octet) : (write octets).length = 2 * octets.length := by
  induction octets with
  | nil => rfl
  | cons octet octets ih =>
      rw [write_cons, List.length_append, ih, List.length_cons]
      simp only [octetDigits, List.length_cons, List.length_nil]
      omega

/-- Nothing but digits is written. -/
theorem mem_digits_of_mem_write {octets : List Octet} {c : Char} (h : c ∈ write octets) :
    c ∈ digits := by
  rcases List.mem_flatMap.mp h with ⟨octet, -, hc⟩
  simp only [octetDigits, List.mem_cons, List.not_mem_nil, or_false] at hc
  rcases hc with rfl | rfl
  · exact digit_mem octet.1
  · exact digit_mem octet.2

/-- What is written of an octet can be cut off again. -/
theorem octetDigits_append {octet octet' : Octet} {rest rest' : List Char}
    (h : octetDigits octet ++ rest = octetDigits octet' ++ rest') :
    octet = octet' ∧ rest = rest' := by
  have hparts := List.append_inj h rfl
  exact ⟨octetDigits_injective hparts.1, hparts.2⟩

/-- No two lists of octets are written alike. -/
theorem write_injective : Function.Injective write := by
  intro octets
  induction octets with
  | nil =>
      intro octets' h
      have hlength := congrArg List.length h
      rw [length_write, length_write, List.length_nil] at hlength
      have hnone : octets'.length = 0 := by omega
      exact (List.length_eq_zero_iff.mp hnone).symm
  | cons octet octets ih =>
      intro octets' h
      cases octets' with
      | nil =>
          have hlength := congrArg List.length h
          rw [length_write, length_write] at hlength
          simp at hlength
      | cons octet' octets' =>
          rw [write_cons, write_cons] at h
          rcases octetDigits_append h with ⟨rfl, hrest⟩
          rw [ih hrest]

/-- An even number of digits is written of octets. -/
theorem exists_write {n : Nat} {chars : List Char} (hlength : chars.length = 2 * n)
    (h : ∀ c ∈ chars, c ∈ digits) : ∃ octets, octets.length = n ∧ write octets = chars := by
  induction n generalizing chars with
  | zero => exact ⟨[], rfl, (List.length_eq_zero_iff.mp hlength).symm⟩
  | succ n ih =>
      rcases chars with _ | ⟨high, _ | ⟨low, rest⟩⟩
      · simp at hlength
      · simp at hlength
        omega
      · have hrest : rest.length = 2 * n := by
          simp only [List.length_cons] at hlength
          omega
        rcases ih hrest fun c hc => h c (by simp [hc]) with ⟨octets, hoctets, hwrite⟩
        rcases exists_digit (h high (by simp)) with ⟨higher, hhigher⟩
        rcases exists_digit (h low (by simp)) with ⟨lower, hlower⟩
        refine ⟨(higher, lower) :: octets, by rw [List.length_cons, hoctets], ?_⟩
        rw [write_cons, hwrite, octetDigits, hhigher, hlower]
        rfl

end Hexadecimal
