import Mathlib.Data.List.Basic
import Mathlib.Data.List.Nodup

/-!
# Routing - path templates

A path is a list of segments and a template names some of them.  Filling a template in
and reading a path against it are inverse to each other; templates that differ in length
or in a literal never meet in a path, so a table of such templates answers a path in one
way, whatever its order.

Main results:

- Definitions {lit}`Template.fill` and {lit}`Template.read`.
- Theorem {lit}`Template.read_fill`: a filled-in template is read back.
- Theorem {lit}`Template.fill_of_read`: a path that is read is the template filled in.
- Theorem {lit}`Template.apart_fill_ne`: templates that are apart meet in no path.
-/

namespace Routing

variable {α : Type*}

/-- A segment of a template. -/
inductive Segment (α : Type*) where
  | literal (text : α)
  | placeholder (name : α)
deriving DecidableEq

/-- A path of which some segments are named. -/
abbrev Template (α : Type*) :=
  List (Segment α)

/-- The text of a segment, placeholders having theirs. -/
def Segment.fill (values : α → α) : Segment α → α
  | literal text => text
  | placeholder name => values name

namespace Template

/-- The path that a template becomes. -/
def fill (values : α → α) (t : Template α) : List α :=
  t.map (Segment.fill values)

/-- The placeholders in their order. -/
def names : Template α → List α
  | [] => []
  | .literal _ :: t => names t
  | .placeholder name :: t => name :: names t

/-- The literals in their order. -/
def literals : Template α → List α
  | [] => []
  | .literal text :: t => text :: literals t
  | .placeholder _ :: t => literals t

/-- A template without placeholders is a path. -/
theorem eq_map_literal {t : Template α} (h : names t = []) : t = (literals t).map .literal := by
  induction t with
  | nil => rfl
  | cons s t ih =>
      cases s with
      | literal text => exact congrArg (.literal text :: ·) (ih h)
      | placeholder name => contradiction

/-- A template with one placeholder has literals before it and after it. -/
theorem eq_around_placeholder {t : Template α} {name : α} (h : names t = [name]) :
    ∃ before after, t = before.map .literal ++ .placeholder name :: after.map .literal ∧
      literals t = before ++ after := by
  induction t with
  | nil => contradiction
  | cons s t ih =>
      cases s with
      | literal text =>
          rcases ih h with ⟨before, after, ht, hliterals⟩
          exact ⟨text :: before, after, congrArg (.literal text :: ·) ht,
            congrArg (text :: ·) hliterals⟩
      | placeholder name' =>
          rcases List.cons.inj h with ⟨rfl, hrest⟩
          exact ⟨[], literals t, congrArg (.placeholder name' :: ·) (eq_map_literal hrest), rfl⟩

/-- Texts alone are filled in as they are. -/
theorem fill_map_literal (values : α → α) (texts : List α) :
    fill values (texts.map .literal) = texts := by
  unfold fill
  rw [List.map_map]
  exact List.map_id texts

/-- One placeholder among texts is filled in where it stands. -/
theorem fill_around_placeholder (values : α → α) (before after : List α) (name : α) :
    fill values (before.map .literal ++ .placeholder name :: after.map .literal) =
      before ++ values name :: after := by
  have hbefore := fill_map_literal values before
  have hafter := fill_map_literal values after
  unfold fill at *
  rw [List.map_append, List.map_cons, hbefore, hafter]
  rfl

@[simp]
theorem length_fill (values : α → α) (t : Template α) : (t.fill values).length = t.length :=
  List.length_map _

/-- What stands in a path is a literal of the template or the value of a placeholder. -/
theorem mem_fill {values : α → α} {t : Template α} {part : α} (h : part ∈ t.fill values) :
    Segment.literal part ∈ t ∨ ∃ name ∈ t.names, part = values name := by
  induction t with
  | nil => contradiction
  | cons s t ih =>
      rcases List.mem_cons.mp h with rfl | hrest
      · cases s with
        | literal text => exact .inl List.mem_cons_self
        | placeholder name => exact .inr ⟨name, List.mem_cons_self, rfl⟩
      · rcases ih hrest with hliteral | ⟨name, hname, hpart⟩
        · exact .inl (List.mem_cons_of_mem s hliteral)
        · right
          refine ⟨name, ?_, hpart⟩
          cases s with
          | literal text => exact hname
          | placeholder other => exact List.mem_cons_of_mem other hname

/-- Only the values of its placeholders count. -/
theorem fill_congr {values values' : α → α} {t : Template α}
    (h : ∀ name ∈ t.names, values name = values' name) : t.fill values = t.fill values' := by
  induction t with
  | nil => rfl
  | cons s t ih =>
      cases s with
      | literal text => exact congrArg (text :: ·) (ih h)
      | placeholder name =>
          have hname : values name = values' name := h name List.mem_cons_self
          have hrest := ih fun other hother => h other (List.mem_cons_of_mem name hother)
          exact congrArg₂ List.cons hname hrest

variable [DecidableEq α]

/-- What the placeholders stand for in a path. -/
def read : Template α → List α → Option (List (α × α))
  | [], [] => some []
  | .literal text :: t, part :: parts => if text = part then read t parts else none
  | .placeholder name :: t, part :: parts => (read t parts).map ((name, part) :: ·)
  | _, _ => none

/-- A filled-in template is read back. -/
theorem read_fill (values : α → α) (t : Template α) :
    t.read (t.fill values) = some (t.names.map fun name => (name, values name)) := by
  induction t with
  | nil => rfl
  | cons s t ih =>
      cases s with
      | literal text => exact (if_pos rfl).trans ih
      | placeholder name => exact congrArg (Option.map _) ih

/-- What is read fits the template. -/
theorem fill_of_read {t : Template α} {parts : List α} {found : List (α × α)}
    (hnames : t.names.Nodup) (h : t.read parts = some found) :
    ∃ values, t.fill values = parts ∧ ∀ name ∈ t.names, values name ∈ parts := by
  induction t generalizing parts found with
  | nil =>
      cases parts with
      | nil => exact ⟨id, rfl, by simp [names]⟩
      | cons part parts => contradiction
  | cons s t ih =>
      cases parts with
      | nil => cases s <;> contradiction
      | cons part parts =>
          cases s with
          | literal text =>
              rw [read] at h
              split_ifs at h with htext
              rcases ih hnames h with ⟨values, hfill, hmem⟩
              refine ⟨values, ?_, fun name hname => List.mem_cons_of_mem part (hmem name hname)⟩
              rw [← hfill, ← htext]
              rfl
          | placeholder name =>
              rw [read, Option.map_eq_some_iff] at h
              rcases h with ⟨rest, hrest, -⟩
              rcases List.nodup_cons.mp hnames with ⟨hnew, hnames⟩
              rcases ih hnames hrest with ⟨values, hfill, hmem⟩
              have hother : ∀ other ∈ names t, Function.update values name part other =
                  values other := by
                intro other hother
                refine Function.update_of_ne ?_ part values
                rintro rfl
                exact hnew hother
              refine ⟨Function.update values name part, ?_, fun other hin => ?_⟩
              · have hname : Segment.fill (Function.update values name part)
                    (.placeholder name) = part := by
                  rw [Segment.fill, Function.update_self]
                exact congrArg₂ List.cons hname ((fill_congr hother).trans hfill)
              · rcases List.mem_cons.mp hin with rfl | hin
                · rw [Function.update_self]
                  exact List.mem_cons_self
                · rw [hother other hin]
                  exact List.mem_cons_of_mem part (hmem other hin)

/-- A path that is read has the length of the template. -/
theorem length_of_read {t : Template α} {parts : List α} {found : List (α × α)}
    (h : t.read parts = some found) : t.length = parts.length := by
  induction t generalizing parts found with
  | nil =>
      cases parts with
      | nil => rfl
      | cons part parts => contradiction
  | cons s t ih =>
      cases parts with
      | nil => cases s <;> contradiction
      | cons part parts =>
          cases s with
          | literal text =>
              rw [read] at h
              split_ifs at h
              exact congrArg Nat.succ (ih h)
          | placeholder name =>
              rw [read, Option.map_eq_some_iff] at h
              rcases h with ⟨rest, hrest, -⟩
              exact congrArg Nat.succ (ih hrest)

/-- Templates of different length, or with different literals in one place. -/
def apart : Template α → Template α → Bool
  | [], [] => false
  | .literal text :: t, .literal text' :: t' => text != text' || apart t t'
  | _ :: t, _ :: t' => apart t t'
  | _, _ => true

/-- No path fits both. -/
theorem apart_fill_ne {t t' : Template α} (h : t.apart t' = true) (values values' : α → α) :
    t.fill values ≠ t'.fill values' := by
  induction t generalizing t' with
  | nil =>
      cases t' with
      | nil => contradiction
      | cons s' t' => exact (List.cons_ne_nil _ _).symm
  | cons s t ih =>
      cases t' with
      | nil => exact List.cons_ne_nil _ _
      | cons s' t' =>
          intro heq
          rcases List.cons.inj heq with ⟨hhead, htail⟩
          have hrest : apart t t' ≠ true := fun hapart => ih hapart htail
          cases s with
          | literal text =>
              cases s' with
              | literal text' =>
                  have htexts : text ≠ text' ∨ apart t t' = true := by
                    simpa [apart] using h
                  exact htexts.elim (absurd hhead) hrest
              | placeholder name' => exact hrest h
          | placeholder name => cases s' <;> exact hrest h

end Template

end Routing
