import TableMapper.Filter.Basic
import TableMapper.Proofs.Placeholder.Number

/-!
# Filters in one pass

Rendering a filter numbers every part from `$1` and numbers the text anew whenever two parts are
put together. Here a filter without `all` is written down in one pass instead, with the next
number handed on from left to right.

## Main definitions

* `Filter.comparisons` — the comparisons of a filter from left to right.
* `Filter.normal` — the filter without `all`.
* `Filter.numbered` — the clause, with its placeholders counted from a given number on.
-/

namespace TableMapper

namespace Filter

open Placeholder

/-! ## Comparisons -/

/-- The comparisons of a filter from left to right. -/
def comparisons : Filter → List (Comparison × String × Value)
  | compare op column operand => [(op, column, operand)]
  | join _ left right => left.comparisons ++ right.comparisons
  | all => []

def columns (f : Filter) : List String := f.comparisons.map (·.2.1)

def operands (f : Filter) : List Value := f.comparisons.map (·.2.2)

/-- The number of comparisons. -/
def size (f : Filter) : Nat := f.comparisons.length

@[simp] theorem size_join (op : Connective) (left right : Filter) :
    (join op left right).size = left.size + right.size := by
  simp [size, comparisons]

@[simp] theorem operands_join (op : Connective) (left right : Filter) :
    (join op left right).operands = left.operands ++ right.operands := by
  simp [operands, comparisons]

@[simp] theorem columns_join (op : Connective) (left right : Filter) :
    (join op left right).columns = left.columns ++ right.columns := by
  simp [columns, comparisons]

theorem length_operands (f : Filter) : f.operands.length = f.size := by
  simp [operands, size]

/-! ## Removing `all` -/

/-- Join two sides that are free of `all` or nothing else: beside AND it leaves the other side,
beside OR it takes over. -/
def joinNormal : Connective → Filter → Filter → Filter
  | .and, all, right => right
  | .and, left, all => left
  | .or, all, _ => all
  | .or, _, all => all
  | op, left, right => join op left right

/-- The filter without `all`, or `all` when nothing is left to check. -/
def normal : Filter → Filter
  | compare op column operand => compare op column operand
  | join op left right => joinNormal op left.normal right.normal
  | all => all

@[simp] theorem joinNormal_and_all_left (right : Filter) : joinNormal .and all right = right := by
  simp [joinNormal]

@[simp] theorem joinNormal_and_all_right (left : Filter) : joinNormal .and left all = left := by
  cases left <;> simp [joinNormal]

@[simp] theorem joinNormal_or_all_left (right : Filter) : joinNormal .or all right = all := by
  simp [joinNormal]

@[simp] theorem joinNormal_or_all_right (left : Filter) : joinNormal .or left all = all := by
  cases left <;> simp [joinNormal]

theorem joinNormal_of_ne_all {left right : Filter} (op : Connective) (hl : left ≠ all)
    (hr : right ≠ all) : joinNormal op left right = join op left right := by
  cases op <;> cases left <;> cases right <;> simp_all [joinNormal]

/-- No part of the filter is `all`. -/
def AllFree : Filter → Prop
  | compare .. => True
  | join _ left right => left.AllFree ∧ right.AllFree
  | all => False

/-- What is left of a filter is `all` as a whole or nowhere. -/
theorem allFree_normal {f : Filter} (h : f.normal ≠ all) : f.normal.AllFree := by
  induction f with
  | compare => trivial
  | join op left right ihl ihr =>
    rw [normal] at h ⊢
    by_cases hl : left.normal = all
    · cases op with
      | and => simpa [hl] using ihr (by simpa [hl] using h)
      | or => simp [hl] at h
    by_cases hr : right.normal = all
    · cases op with
      | and => simpa [hr] using ihl hl
      | or => simp [hr] at h
    rw [joinNormal_of_ne_all op hl hr]
    exact ⟨ihl hl, ihr hr⟩
  | all => exact absurd rfl h

theorem comparisons_joinNormal_sublist (op : Connective) (left right : Filter) :
    (joinNormal op left right).comparisons.Sublist (left.comparisons ++ right.comparisons) := by
  by_cases hl : left = all
  · subst hl
    cases op <;> simp [comparisons]
  by_cases hr : right = all
  · subst hr
    cases op <;> simp [comparisons]
  rw [joinNormal_of_ne_all op hl hr]
  exact .refl _

/-- No comparison is added and none changes its place. -/
theorem comparisons_normal_sublist (f : Filter) :
    f.normal.comparisons.Sublist f.comparisons := by
  induction f with
  | compare => exact .refl _
  | join op left right ihl ihr =>
    exact (comparisons_joinNormal_sublist ..).trans (ihl.append ihr)
  | all => exact .refl _

theorem free_columns_normal {f : Filter} (free : ∀ column ∈ f.columns, Free column) :
    ∀ column ∈ f.normal.columns, Free column := by
  intro column h
  exact free column (((comparisons_normal_sublist f).map _).subset h)

/-! ## Writing in one pass -/

/-- The clause of a filter without `all`, its placeholders counted from `n` on. -/
def numbered (n : Nat) : Filter → String
  | compare op column _ => column ++ " " ++ op.sql ++ " $" ++ toString n
  | join op left right =>
    "(" ++ left.numbered n ++ ") " ++ op.sql ++ " (" ++ right.numbered (n + left.size) ++ ")"
  | all => ""

theorem numbered_eq_empty_iff {n : Nat} {f : Filter} : f.numbered n = "" ↔ f = all := by
  cases f with
  | compare => simp [numbered]
  | join => simp [numbered]
  | all => simp [numbered]

/-- The text between the two sides of a join. -/
theorem free_between (op : Connective) : Free (") " ++ op.sql ++ " (") :=
  free_of_dollar_not_mem _ (by cases op <;> decide)

/-- Numbering goes on behind the left side of a join. -/
theorem numbers_left {n m : Nat} {l l' : String} (op : Connective) (hl : Numbers n m l l') :
    Numbers n m ("(" ++ l ++ ") " ++ op.sql ++ " (") ("(" ++ l' ++ ") " ++ op.sql ++ " (") := by
  have hopen := hl.prepend (free_of_dollar_not_mem "(" (by decide)) (by decide)
  have hbetween := hopen.append_free (free_between op) (by simp [isIdentifierChar])
  simpa only [String.append_assoc] using hbetween

/-- Two numbered clauses stay numbered when they are joined. -/
theorem numbers_join {n m k : Nat} {l l' r r' : String} (op : Connective) (hl : Numbers n m l l')
    (hr : Numbers m k r r') :
    Numbers n k ("(" ++ l ++ ") " ++ op.sql ++ " (" ++ r ++ ")")
      ("(" ++ l' ++ ") " ++ op.sql ++ " (" ++ r' ++ ")") := by
  have hboth := (numbers_left op hl).append hr (by simp [Separate, isIdentifierChar])
    (by simp [Separate, isIdentifierChar])
  exact hboth.append_free (free_of_dollar_not_mem ")" (by decide)) (by decide)

/-- What stands before the placeholder of a comparison. -/
def lead (op : Comparison) (column : String) : String := column ++ " " ++ op.sql ++ " "

theorem free_lead (op : Comparison) {column : String} (h : Free column) :
    Free (lead op column) := by
  have hop : Free (" " ++ op.sql ++ " ") := free_of_dollar_not_mem _ (by cases op <;> decide)
  have hlead := h.append hop (by simp [Separate, isIdentifierChar])
  simpa only [lead, String.append_assoc] using hlead

theorem endsIn_lead (b : Bool) (op : Comparison) (column : String) :
    endsIn b (lead op column).toList = false := by
  simp [lead, isIdentifierChar]

theorem numbered_compare (n : Nat) (op : Comparison) (column : String) (operand : Value) :
    (compare op column operand).numbered n = lead op column ++ ("$" ++ toString n) := by
  have hdollar : " $" = " " ++ "$" := by decide
  simp only [numbered, lead, hdollar, String.append_assoc]

/-- Numbering the clause of a filter anew gives its clause counted from the new number on. -/
theorem numbers_numbered {f : Filter} (free : ∀ column ∈ f.columns, Free column) (k n : Nat) :
    Numbers n (n + f.size) (f.numbered k) (f.numbered n) := by
  induction f generalizing k n with
  | compare op column operand =>
    have hlead := free_lead op (free column (by simp [columns, comparisons]))
    rw [numbered_compare, numbered_compare]
    exact (Numbers.dollar k n).prepend hlead (endsIn_lead ..)
  | join op left right ihl ihr =>
    rw [columns_join] at free
    obtain ⟨hl, hr⟩ := List.forall_mem_append.mp free
    rw [size_join, ← Nat.add_assoc]
    exact numbers_join op (ihl hl _ _) (ihr hr _ _)
  | all => exact .of_free n (free_of_dollar_not_mem "" (by decide))

end Filter

end TableMapper
