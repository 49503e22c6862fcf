import TableMapper.Proofs.Filter.Clause
import TableMapper.Proofs.Filter.Render

/-!
# What a filter means

For a row of a table, a comparison holds, fails, or is unknown because a side of it is null. AND
and OR are taken over these three values, and `all` holds for every row. A filter and the clause
it renders to have one value for every row, whatever its comparisons come out as.

## Main definitions

* `Truth` — the three values, with `Truth.and` and `Truth.or`.
* `Filter.eval` — the value of a filter, given the values of its comparisons.
-/

namespace TableMapper

/-- What a condition comes out as for a row. -/
inductive Truth where
  | holds
  | fails
  | unknown
  deriving DecidableEq, Repr

namespace Truth

/-- One side that fails decides an AND, whatever is known of the other. -/
def and : Truth → Truth → Truth
  | fails, _ => fails
  | _, fails => fails
  | holds, holds => holds
  | _, _ => unknown

/-- One side that holds decides an OR, whatever is known of the other. -/
def or : Truth → Truth → Truth
  | holds, _ => holds
  | _, holds => holds
  | fails, fails => fails
  | _, _ => unknown

@[simp] theorem holds_and (t : Truth) : holds.and t = t := by cases t <;> rfl

@[simp] theorem and_holds (t : Truth) : t.and holds = t := by cases t <;> rfl

@[simp] theorem holds_or (t : Truth) : holds.or t = holds := rfl

@[simp] theorem or_holds (t : Truth) : t.or holds = holds := by cases t <;> rfl

end Truth

namespace Filter

/-- The value of a filter, where `truth` is the value of each comparison. -/
def eval (truth : Comparison → String → Value → Truth) : Filter → Truth
  | compare op column operand => truth op column operand
  | join .and left right => (left.eval truth).and (right.eval truth)
  | join .or left right => (left.eval truth).or (right.eval truth)
  | all => .holds

variable (truth : Comparison → String → Value → Truth)

theorem eval_joinNormal (op : Connective) (left right : Filter) :
    (joinNormal op left right).eval truth = (join op left right).eval truth := by
  by_cases hl : left = all
  · subst hl
    cases op <;> simp [eval]
  by_cases hr : right = all
  · subst hr
    cases op <;> simp [eval]
  rw [joinNormal_of_ne_all op hl hr]

/-- Removing `all` keeps the value of a filter. -/
theorem eval_normal (f : Filter) : f.normal.eval truth = f.eval truth := by
  induction f with
  | compare => rfl
  | join op left right ihl ihr =>
    rw [normal, eval_joinNormal]
    cases op <;> simp [eval, ihl, ihr]
  | all => rfl

theorem render_sql_eq_empty_iff {f : Filter} (h : f.Legible) :
    f.render.sql = "" ↔ f.normal = all := by
  rw [render_eq h.free, numbered_eq_empty_iff]

/-- The clause of a filter is read back as the filter without `all`. -/
theorem reads_render {f : Filter} (h : f.Legible) (hne : f.normal ≠ all) :
    Reads f.render.params f.render.sql f.normal := by
  rw [render_eq h.free]
  exact reads_numbered (allFree_normal hne) h.normal.plain

/-- A filter that renders to nothing holds for every row. Every other filter renders to a clause
that can be read in one way only, and for every row it comes out as the filter does. -/
theorem render_keeps_meaning (f : Filter) (h : f.Legible) :
    (f.render.sql = "" → ∀ truth, f.eval truth = .holds) ∧
    (f.render.sql ≠ "" →
      ∃ g, Reads f.render.params f.render.sql g ∧
        (∀ g', Reads f.render.params f.render.sql g' → g' = g) ∧
        ∀ truth, g.eval truth = f.eval truth) := by
  rw [ne_eq, render_sql_eq_empty_iff h]
  constructor
  · intro hall truth
    rw [← eval_normal, hall, eval]
  · intro hne
    have hreads := reads_render h hne
    exact ⟨f.normal, hreads, fun g' hg' => hg'.unique hreads, fun truth => eval_normal truth f⟩

/-- Of the two filters one has nothing left to check; the other drops an `all` on each level. -/
theorem render_keeps_meaning_stock :
    let low := less "stock$1" "5"
    let sold := and (or all (eq "sold" "no")) (or low (and all (notEq "b$" "$2")))
    ((or low (and all all)).Legible ∧ (or low (and all all)).render.sql = "" ∧
      ∀ truth, (or low (and all all)).eval truth = .holds) ∧
    sold.Legible ∧ sold.render.sql = "(stock$1 < $1) OR (b$ <> $2)" ∧
      ∃ g, Reads [.text "5", .text "$2"] "(stock$1 < $1) OR (b$ <> $2)" g ∧
        ∀ truth, g.eval truth = sold.eval truth := by
  intro low sold
  have hall : (or low (and all all)).Legible := ⟨by decide +kernel, by decide +kernel⟩
  have hsold : sold.Legible := ⟨by decide +kernel, by decide +kernel⟩
  have hempty : (or low (and all all)).render.sql = "" := by decide +kernel
  have hsql : sold.render.sql = "(stock$1 < $1) OR (b$ <> $2)" := by decide +kernel
  have hparams : sold.render.params = [.text "5", .text "$2"] := rfl
  refine ⟨⟨hall, hempty, (render_keeps_meaning _ hall).1 hempty⟩, hsold, hsql, ?_⟩
  obtain ⟨g, hreads, -, hmeaning⟩ := (render_keeps_meaning sold hsold).2 (by simp [hsql])
  rw [hsql, hparams] at hreads
  exact ⟨g, hreads, hmeaning⟩

end Filter

end TableMapper
