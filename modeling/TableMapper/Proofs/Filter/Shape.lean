import Mathlib.Data.List.Forall2
import TableMapper.Proofs.Filter.Numbered

/-!
# Filters of one shape

Two filters have one shape when they differ in their operands only. Such filters render to one
text, and they are equal exactly when their operands are.

## Main definitions

* `Filter.Agree` — the filters have one shape, and a relation holds of their operands.
-/

namespace TableMapper

namespace Filter

variable {R S : Value → Value → Prop} {f f' g g' : Filter}

/-- The same operators and columns stand in the same places, and `R` holds of the operands that
stand in the same place. -/
inductive Agree (R : Value → Value → Prop) : Filter → Filter → Prop
  | compare {v w : Value} (op : Comparison) (column : String) :
      R v w → Agree R (.compare op column v) (.compare op column w)
  | join {left left' right right' : Filter} (op : Connective) :
      Agree R left left' → Agree R right right' →
      Agree R (.join op left right) (.join op left' right')
  | all : Agree R .all .all

namespace Agree

theorem columns_eq (h : Agree R f g) : f.columns = g.columns := by
  induction h with
  | compare op column => rfl
  | join op hl hr ihl ihr => rw [columns_join, columns_join, ihl, ihr]
  | all => rfl

theorem operands (h : Agree R f g) : List.Forall₂ R f.operands g.operands := by
  induction h with
  | compare op column hv => exact .cons hv .nil
  | join op hl hr ihl ihr =>
    rw [operands_join, operands_join]
    exact List.rel_append ihl ihr
  | all => exact .nil

theorem size_eq (h : Agree R f g) : f.size = g.size := by
  simpa only [length_operands] using h.operands.length_eq

theorem numbered_eq (h : Agree R f g) (n : Nat) : f.numbered n = g.numbered n := by
  induction h generalizing n with
  | compare op column => rfl
  | join op hl hr ihl ihr => rw [numbered, numbered, ihl, ihr, hl.size_eq]
  | all => rfl

theorem eq_all_iff (h : Agree R f g) : f = .all ↔ g = .all := by
  cases h <;> simp

theorem joinNormal (op : Connective) (hl : Agree R f f') (hr : Agree R g g') :
    Agree R (joinNormal op f g) (joinNormal op f' g') := by
  by_cases hf : f = .all
  · obtain rfl := hl.eq_all_iff.mp hf
    subst hf
    cases op with
    | and => simpa using hr
    | or => simpa using Agree.all
  by_cases hg : g = .all
  · obtain rfl := hr.eq_all_iff.mp hg
    subst hg
    cases op with
    | and => simpa using hl
    | or => simpa using Agree.all
  rw [joinNormal_of_ne_all op hf hg,
    joinNormal_of_ne_all op (mt hl.eq_all_iff.mpr hf) (mt hr.eq_all_iff.mpr hg)]
  exact .join op hl hr

/-- What is left of a filter without `all` depends on its shape only. -/
theorem normal (h : Agree R f g) : Agree R f.normal g.normal := by
  induction h with
  | compare op column hv => exact .compare op column hv
  | join op hl hr ihl ihr => exact ihl.joinNormal op ihr
  | all => exact .all

/-- Filters whose operands are the same are the same. -/
theorem eq (h : Agree Eq f g) : f = g := by
  induction h with
  | compare op column hv => rw [hv]
  | join op hl hr ihl ihr => rw [ihl, ihr]
  | all => rfl

end Agree

/-! ## Equality -/

theorem beq_compare (op op' : Comparison) (column column' : String) (v w : Value) :
    (compare op column v == compare op' column' w) =
      (op == op' && column == column' && v == w) := rfl

theorem beq_join (op op' : Connective) (left left' right right' : Filter) :
    (join op left right == join op' left' right') =
      (op == op' && left == left' && right == right') := rfl

/-- Filters are equal when they have one shape and their operands are equal as values. -/
theorem beq_iff_agree : (f == g) = true ↔ Agree (fun v w => (v == w) = true) f g := by
  constructor
  · intro h
    induction f generalizing g with
    | compare op column v =>
      cases g with
      | compare op' column' w =>
        rw [beq_compare] at h
        obtain ⟨⟨rfl, rfl⟩, hv⟩ : (op = op' ∧ column = column') ∧ (v == w) = true := by
          simpa using h
        exact .compare op column hv
      | _ => cases h
    | join op left right ihl ihr =>
      cases g with
      | join op' left' right' =>
        rw [beq_join] at h
        obtain ⟨⟨rfl, hl⟩, hr⟩ :
            (op = op' ∧ (left == left') = true) ∧ (right == right') = true := by
          simpa using h
        exact .join op (ihl hl) (ihr hr)
      | _ => cases h
    | all =>
      cases g with
      | all => exact .all
      | _ => cases h
  · intro h
    induction h with
    | compare op column hv => simpa [beq_compare] using hv
    | join op hl hr ihl ihr => simpa [beq_join] using ⟨ihl, ihr⟩
    | all => rfl

/-- Operands that no comparison with another value tells apart can take each other's place. -/
theorem Agree.beq_congr (hR : ∀ v v' w w', R v v' → R w w' → (v == w) = (v' == w'))
    (hf : Agree R f f') (hg : Agree R g g') : (f == g) = (f' == g') := by
  induction hf generalizing g g' with
  | compare op column hv =>
    cases hg with
    | compare op' column' hw => rw [beq_compare, beq_compare, hR _ _ _ _ hv hw]
    | _ => rfl
  | join op hl hr ihl ihr =>
    cases hg with
    | join op' hl' hr' => rw [beq_join, beq_join, ihl hl', ihr hr']
    | _ => rfl
  | all => cases hg <;> rfl

end Filter

end TableMapper
