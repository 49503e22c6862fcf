import TableMapper.Proofs.Filter.Meaning
import TableMapper.Proofs.Placeholder.Renumber

/-!
# Filters that leave nothing to check

Whether a filter needs a clause is decided on its tree, and again on the texts of its parts while it
is rendered. Both decisions come out alike, and they single out the filters that hold for every row
whatever their comparisons come out as. Nothing is asked of column names here: a `$` in them may be
taken for a placeholder and numbered along with the others.

## Main definitions

* `Filter.evalAt` — the value of a filter, given a value for each comparison in its place.
* `Filter.Writes` — a text is the clause of a filter, up to the numbers of its placeholders.
-/

namespace TableMapper

namespace Filter

open Placeholder

variable {f left right : Filter} {s : String}

/-! ## What holds for every row -/

theorem joinNormal_eq_all_iff (op : Connective) :
    joinNormal op left right = all ↔
      match op with
      | .and => left = all ∧ right = all
      | .or => left = all ∨ right = all := by
  cases op <;> cases left <;> cases right <;> simp [joinNormal]

theorem isAll_iff_normal : f.isAll ↔ f.normal = all := by
  induction f with
  | compare => simp [isAll, normal]
  | join op left right ihl ihr =>
    rw [normal, joinNormal_eq_all_iff]
    cases op <;> simp [isAll, ihl, ihr]
  | all => simp [isAll, normal]

/-- The value of a filter whose comparisons, counted from `n` on, have the given values. -/
def evalAt (truth : Nat → Truth) (n : Nat) : Filter → Truth
  | compare .. => truth n
  | join .and left right => (left.evalAt truth n).and (right.evalAt truth (n + left.size))
  | join .or left right => (left.evalAt truth n).or (right.evalAt truth (n + left.size))
  | all => .holds

theorem evalAt_of_isAll (h : f.isAll) (truth : Nat → Truth) (n : Nat) :
    f.evalAt truth n = .holds := by
  fun_induction evalAt truth n f <;> grind [isAll, Truth.holds_and, Truth.holds_or, Truth.or_holds]

/-- When all comparisons come out alike, their places do not matter. -/
theorem evalAt_const (t : Truth) (n : Nat) :
    f.evalAt (fun _ => t) n = f.eval fun _ _ _ => t := by
  induction f generalizing n with
  | compare => rfl
  | join op left right ihl ihr => cases op <;> simp [evalAt, eval, ihl, ihr]
  | all => rfl

/-- A filter with something to check fails where every comparison does. -/
theorem AllFree.eval_fails (h : f.AllFree) : (f.eval fun _ _ _ => .fails) = .fails := by
  induction f with
  | compare => rfl
  | join op left right ihl ihr => cases op <;> simp [eval, ihl h.1, ihr h.2, Truth.and, Truth.or]
  | all => cases h

/-- Comparisons that fail are all it takes to tell the other filters. -/
theorem isAll_of_eval_fails (h : (f.eval fun _ _ _ => .fails) = .holds) : f.isAll := by
  rw [isAll_iff_normal]
  by_contra hne
  rw [← eval_normal, (allFree_normal hne).eval_fails] at h
  cases h

theorem isAll_iff_eval : f.isAll ↔ ∀ truth, f.eval truth = .holds := by
  constructor
  · intro h truth
    rw [← eval_normal, isAll_iff_normal.mp h, eval]
  · exact fun h => isAll_of_eval_fails (h _)

theorem isAll_iff_evalAt : f.isAll ↔ ∀ truth, f.evalAt truth 0 = .holds := by
  constructor
  · exact fun h truth => evalAt_of_isAll h truth 0
  · intro h
    have hfails := h fun _ => .fails
    rw [evalAt_const] at hfails
    exact isAll_of_eval_fails hfails

/-! ## Clauses -/

/-- The text is the clause of the filter but for the numbers of placeholders, those that a column
name happens to contain included. Only filters without `all` have a clause. -/
inductive Writes : Filter → String → Prop
  | compare {column column' : String} (op : Comparison) (operand : Value) (k : Nat) :
      renumber column' = renumber column →
      Writes (.compare op column operand) (column' ++ " " ++ op.sql ++ " $" ++ toString k)
  | join {left right : Filter} {l r : String} (op : Connective) :
      Writes left l → Writes right r →
      Writes (.join op left right) ("(" ++ l ++ ") " ++ op.sql ++ " (" ++ r ++ ")")

theorem Writes.ne_all (h : Writes f s) : f ≠ all := by
  cases h <;> simp

theorem Writes.operands_ne_nil (h : Writes f s) : f.operands ≠ [] := by
  induction h with
  | compare => simp [operands, comparisons]
  | join op _ _ hl hr => simp [hl]

theorem Writes.ne_empty (h : Writes f s) : s ≠ "" := by
  cases h <;> simp

/-- A comparison is numbered column first. -/
theorem numbers_compare {n m : Nat} {column column' : String} (op : Comparison)
    (h : Numbers n m column column') (k : Nat) :
    Numbers n (m + 1) (column ++ " " ++ op.sql ++ " $" ++ toString k)
      (column' ++ " " ++ op.sql ++ " $" ++ toString m) := by
  have hop : Free (" " ++ op.sql ++ " ") := free_of_dollar_not_mem _ (by cases op <;> decide)
  have hlead := h.append_free hop (by simp [isIdentifierChar])
  have hall := hlead.append (.dollar k m) (by simp [Separate, isIdentifierChar])
    (by simp [Separate, isIdentifierChar])
  have hdollar : " $" = " " ++ "$" := by decide
  simpa only [hdollar, String.append_assoc] using hall

/-- Numbering a clause anew leaves a clause. -/
theorem Writes.exists_numbers (h : Writes f s) (n : Nat) :
    ∃ m t, Numbers n m s t ∧ Writes f t := by
  induction h generalizing n with
  | @compare column column' op operand k hcolumn =>
    obtain ⟨t, ht⟩ := Placeholder.exists_numbers n column'
    exact ⟨_, _, numbers_compare op ht k, .compare op operand _ (ht.renumber_congr.trans hcolumn)⟩
  | join op _ _ ihl ihr =>
    obtain ⟨m, l, hl, hwl⟩ := ihl n
    obtain ⟨k, r, hr, hwr⟩ := ihr m
    exact ⟨k, _, numbers_join op hl hr, .join op hwl hwr⟩

theorem Writes.renumber (h : Writes f s) : Writes f (renumber s) := by
  obtain ⟨m, t, ht, hw⟩ := h.exists_numbers 1
  rwa [ht.renumber_eq]

/-- A filter renders to nothing, or to a clause of what is left of it without `all`. -/
theorem render_cases (f : Filter) :
    f.normal = all ∧ f.render = ⟨"", []⟩ ∨
      Writes f.normal f.render.sql ∧ f.render.params = f.normal.operands := by
  induction f with
  | compare op column operand =>
    have hone : " $1" = " $" ++ toString 1 := by decide
    have hw : Writes _ (column ++ " " ++ op.sql ++ " $" ++ toString 1) :=
      .compare op operand 1 rfl
    refine .inr ⟨?_, rfl⟩
    simpa only [render, normal, hone, String.append_assoc] using hw
  | join op left right ihl ihr =>
    -- No clause is empty, so the sides with an empty text are those that are `all`.
    rw [normal, render]
    rcases ihl with ⟨hl, hrl⟩ | ⟨hwl, hpl⟩
    · cases op with
      | and => simpa [hl, hrl, renderJoin] using ihr
      | or => simp [hl, hrl, renderJoin]
    rcases ihr with ⟨hr, hrr⟩ | ⟨hwr, hpr⟩
    · cases op with
      | and => simp [hr, hrr, renderJoin, hwl.ne_empty, hwl, hpl]
      | or => simp [hr, hrr, renderJoin]
    · unfold renderJoin
      rw [joinNormal_of_ne_all op hwl.ne_all hwr.ne_all, operands_join, ← hpl, ← hpr,
        if_neg (by simp [hwl.ne_empty, hwr.ne_empty])]
      exact .inr ⟨(Writes.join op hwl hwr).renumber, rfl⟩
  | all => exact .inl ⟨rfl, rfl⟩

theorem render_of_isAll (h : f.isAll) : f.render = ⟨"", []⟩ := by
  rcases render_cases f with ⟨-, hrender⟩ | ⟨hw, -⟩
  · exact hrender
  · exact absurd (isAll_iff_normal.mp h) hw.ne_all

theorem writes_render (h : ¬ f.isAll) :
    Writes f.normal f.render.sql ∧ f.render.params = f.normal.operands := by
  rcases render_cases f with ⟨hall, -⟩ | hw
  · exact absurd (isAll_iff_normal.mpr hall) h
  · exact hw

/-- Behind other text a clause is numbered on, whatever that text contains. -/
theorem Writes.renumber_where (h : Writes f s) (text : String) :
    ∃ clause, Writes f clause ∧
      Placeholder.renumber (text ++ " WHERE " ++ s) =
        Placeholder.renumber text ++ " WHERE " ++ clause := by
  have hwhere : Free " WHERE " := free_of_dollar_not_mem _ (by decide)
  have hhead := (numbers_renumber text).append_free hwhere (by simp [isIdentifierChar])
  obtain ⟨m, clause, hclause, hw⟩ := h.exists_numbers (1 + (labels text).length)
  have hall := hhead.append hclause (.inl (by simp [isIdentifierChar]))
    (.inl (by simp [isIdentifierChar]))
  exact ⟨clause, hw, hall.renumber_eq⟩

end Filter

end TableMapper
