import Mathlib.Data.List.Basic

/-!
# Text - reading from the front

Readers that take a value from the front of some characters and leave the rest, and what they
take: a given text, what stands before a character, and values with a separator between them.

Main results:

- Definition {lit}`Reads`: what a reader takes from characters, before others.
- Theorems {lit}`Reads.bind`, {lit}`Reads.expect` and {lit}`Reads.upTo`: one after the other.
- Theorem {lit}`Reads.separated`: values with separators between them are taken all.
- Theorem {lit}`within_intercalate`: each part stands in what is put together of them.
-/

namespace Readers

/-- What takes a value from the front of some characters. -/
abbrev Reader (α : Type) :=
  StateT (List Char) Option α

/-- The given characters. -/
def expect (chars : List Char) : Reader Unit :=
  fun input => if chars.isPrefixOf input then some ((), input.drop chars.length) else none

/-- What stands before a character, which is taken too. -/
def upTo (c : Char) : Reader (List Char)
  | [] => none
  | first :: rest =>
      if first = c then some ([], rest)
      else (upTo c rest).map fun found => (first :: found.1, found.2)

/-- What follows a separator, and nothing where there is none. -/
def after {α : Type} (separator : List Char) (others : Reader (List α)) : Reader (List α) :=
  fun input =>
    if separator.isPrefixOf input then (expect separator >>= fun _ => others) input
    else some ([], input)

/-- A value, and as many more as follow a separator each. -/
def separated {α : Type} (item : Reader α) (separator : List Char) : Nat → Reader (List α)
  | 0 => fun _ => none
  | fuel + 1 => do
      let first ← item
      let others ← after separator (separated item separator fuel)
      return first :: others

/-- From the characters, where the rest follows them, a reader takes the value. -/
def Reads {α : Type} (reader : Reader α) (chars : List Char) (value : α) (rest : List Char) :
    Prop :=
  reader (chars ++ rest) = some (value, rest)

section Rules

variable {α β : Type} {chars chars' rest : List Char}

/-- Nothing is read for a value that is there. -/
theorem Reads.pure (value : α) : Reads (Pure.pure value) [] value rest :=
  rfl

/-- A reader and another after it. -/
theorem Reads.bind {reader : Reader α} {next : α → Reader β} {value : α} {value' : β}
    (h : Reads reader chars value (chars' ++ rest)) (h' : Reads (next value) chars' value' rest) :
    Reads (reader >>= next) (chars ++ chars') value' rest := by
  show (reader (chars ++ chars' ++ rest)).bind (fun found => next found.1 found.2) = _
  rw [List.append_assoc, h]
  exact h'

/-- What is read may be turned into something else. -/
theorem Reads.map {reader : Reader α} {value : α} (f : α → β)
    (h : Reads reader chars value rest) :
    Reads (reader >>= fun found => Pure.pure (f found)) chars (f value) rest := by
  have hmapped : Reads (reader >>= fun found => Pure.pure (f found)) (chars ++ []) (f value) rest :=
    h.bind (.pure _)
  rwa [List.append_nil] at hmapped

/-- The characters that are expected are read. -/
theorem Reads.expect (chars rest : List Char) : Reads (expect chars) chars () rest := by
  have hstarts : chars.isPrefixOf (chars ++ rest) = true :=
    List.isPrefixOf_iff_prefix.mpr (List.prefix_append chars rest)
  unfold Reads Readers.expect
  rw [if_pos hstarts, List.drop_left]

/-- Everything up to a character is read, and that character. -/
theorem Reads.upTo {c : Char} (h : c ∉ chars) (rest : List Char) :
    Reads (upTo c) (chars ++ [c]) chars rest := by
  induction chars with
  | nil => simp [Reads, Readers.upTo]
  | cons first chars ih =>
      rw [List.mem_cons, not_or] at h
      have hrest : Readers.upTo c (chars ++ [c] ++ rest) = some (chars, rest) := ih h.2
      unfold Reads
      rw [List.cons_append, List.cons_append, Readers.upTo, if_neg (Ne.symm h.1), hrest]
      rfl

/-- More is read after the separator. -/
theorem Reads.after {separator : List Char} {others : Reader (List α)} {values : List α}
    (h : Reads others chars values rest) :
    Reads (after separator others) (separator ++ chars) values rest := by
  have hstarts : separator.isPrefixOf (separator ++ chars ++ rest) = true := by
    rw [List.isPrefixOf_iff_prefix, List.append_assoc]
    exact List.prefix_append separator _
  unfold Reads Readers.after
  rw [if_pos hstarts]
  exact (Reads.expect separator (chars ++ rest)).bind h

/-- Nothing is read without the separator. -/
theorem Reads.after_nil {separator : List Char} {others : Reader (List α)}
    (h : separator.isPrefixOf rest = false) :
    Reads (Readers.after separator others) [] [] rest := by
  unfold Reads Readers.after
  rw [List.nil_append, h, if_neg Bool.false_ne_true]

/-- Values with separators between them, if each is taken before whatever may follow it, and
no separator follows the last one. -/
theorem Reads.separated {item : Reader α} {separator : List Char} (follows : List Char → Prop)
    {write : β → List Char} {value : β → α} {parts : List β} (hparts : parts ≠ [])
    (hitem : ∀ part ∈ parts, ∀ rest, follows rest → Reads item (write part) (value part) rest)
    (hseparator : ∀ rest, follows (separator ++ rest)) (hrest : follows rest)
    (hend : separator.isPrefixOf rest = false) {fuel : Nat} (hfuel : parts.length ≤ fuel) :
    Reads (separated item separator fuel) (separator.intercalate (parts.map write))
      (parts.map value) rest := by
  induction parts generalizing fuel with
  | nil => contradiction
  | cons part parts ih =>
      rcases fuel with _ | fuel
      · contradiction
      rw [List.length_cons, Nat.add_le_add_iff_right] at hfuel
      have hfirst := hitem part List.mem_cons_self
      cases parts with
      | nil =>
          have hone : Reads (Readers.separated item separator (fuel + 1)) (write part ++ [])
              [value part] rest :=
            (hfirst rest hrest).bind ((Reads.after_nil hend).map (value part :: ·))
          have hwritten : separator.intercalate ([part].map write) = write part := by simp
          rw [hwritten]
          rwa [List.append_nil] at hone
      | cons next parts =>
          have hothers := ih (List.cons_ne_nil next parts)
            (fun other hother => hitem other (List.mem_cons_of_mem part hother)) hfuel
          rw [List.map_cons, List.map_cons, List.map_cons, List.intercalate_cons_cons,
            List.append_assoc]
          refine (hfirst _ ?_).bind (hothers.after.map (value part :: ·))
          rw [List.append_assoc]
          exact hseparator _

/-- Each part stands in what is put together of them. -/
theorem within_intercalate {separator part : List Char} {parts : List (List Char)}
    (h : part ∈ parts) : part <:+: separator.intercalate parts := by
  induction parts with
  | nil => contradiction
  | cons first parts ih =>
      cases parts with
      | nil =>
          rcases List.mem_singleton.mp h with rfl
          simp
      | cons next parts =>
          rw [List.intercalate_cons_cons]
          rcases List.mem_cons.mp h with rfl | h
          · rw [List.append_assoc]
            exact (List.prefix_append part _).isInfix
          · exact (ih h).trans (List.suffix_append _ _).isInfix

/-- There are no more parts than characters, if none of them is empty. -/
theorem length_le_intercalate {separator : List Char} {parts : List (List Char)}
    (h : ∀ part ∈ parts, part ≠ []) : parts.length ≤ (separator.intercalate parts).length := by
  induction parts with
  | nil => exact Nat.zero_le _
  | cons first parts ih =>
      have hfirst : 0 < first.length := List.length_pos_iff.mpr (h first List.mem_cons_self)
      have hrest := ih fun part hpart => h part (List.mem_cons_of_mem first hpart)
      cases parts with
      | nil =>
          rw [List.intercalate_singleton]
          exact hfirst
      | cons next parts =>
          rw [List.intercalate_cons_cons, List.length_append, List.length_append, List.length_cons]
          omega

end Rules

end Readers
