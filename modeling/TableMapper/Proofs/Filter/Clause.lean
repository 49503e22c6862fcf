import TableMapper.Proofs.Filter.Shape

/-!
# Reading a clause

A clause is read without knowing which filter it was rendered from: a comparison with a
placeholder, or two clauses in parentheses with AND or OR between them. As long as no column name
contains a space or a parenthesis, there is one way to read it, also in front of other text.

## Main definitions

* `Filter.Legible` — the columns of a filter can be told from the text around them.
* `Filter.Reads` — a text is read as a filter, its placeholders standing for parameters.
-/

namespace TableMapper

/-! ## Words -/

theorem Comparison.sql_inj {op op' : Comparison} (h : op.sql.toList = op'.sql.toList) :
    op = op' := by
  revert h
  cases op <;> cases op' <;> decide

theorem Comparison.space_not_mem_sql (op : Comparison) : ' ' ∉ op.sql.toList := by
  cases op <;> decide

theorem Connective.sql_inj {op op' : Connective} (h : op.sql.toList = op'.sql.toList) :
    op = op' := by
  revert h
  cases op <;> cases op' <;> decide

theorem Connective.space_not_mem_sql (op : Connective) : ' ' ∉ op.sql.toList := by
  cases op <;> decide

/-- A word ends at the first space. -/
theorem word_append_inj {x x' y y' : List Char} (hx : ' ' ∉ x) (hx' : ' ' ∉ x')
    (h : x ++ ' ' :: y = x' ++ ' ' :: y') : x = x' ∧ y = y' := by
  induction x generalizing x' with
  | nil => cases x' <;> grind
  | cons c x ih => cases x' <;> grind

namespace Filter

open Placeholder

/-- A column name without a space or a parenthesis. -/
def PlainName (column : String) : Prop := ∀ c ∈ " ()".toList, c ∉ column.toList

instance (column : String) : Decidable (PlainName column) :=
  List.decidableBAll _ _

/-- No column name contains a placeholder, a space or a parenthesis. -/
structure Legible (f : Filter) : Prop where
  free : ∀ column ∈ f.columns, Free column
  plain : ∀ column ∈ f.columns, PlainName column

theorem Legible.normal {f : Filter} (h : f.Legible) : f.normal.Legible where
  free := free_columns_normal h.free
  plain column hcolumn := h.plain column (((comparisons_normal_sublist f).map _).subset hcolumn)

/-! ## Reading -/

/-- `Reads params text f`: the text is read as `f`, a placeholder `$k` standing for the `k`-th
parameter. -/
inductive Reads (params : List Value) : String → Filter → Prop
  | compare {column : String} {k : Nat} {operand : Value} (op : Comparison) :
      PlainName column → params[k]? = some operand →
      Reads params (column ++ " " ++ op.sql ++ " $" ++ toString (k + 1))
        (.compare op column operand)
  | join {l r : String} {left right : Filter} (op : Connective) :
      Reads params l left → Reads params r right →
      Reads params ("(" ++ l ++ ") " ++ op.sql ++ " (" ++ r ++ ")") (.join op left right)

theorem toList_compare_append (column : String) (op : Comparison) (k : Nat) (u : List Char) :
    (column ++ " " ++ op.sql ++ " $" ++ toString k).toList ++ u =
      column.toList ++ ' ' :: (op.sql.toList ++ ' ' :: '$' :: (digits k ++ u)) := by
  simp [digits]

theorem toList_join_append (l r : String) (op : Connective) (u : List Char) :
    ("(" ++ l ++ ") " ++ op.sql ++ " (" ++ r ++ ")").toList ++ u =
      '(' :: (l.toList ++
        ')' :: ' ' :: (op.sql.toList ++ ' ' :: '(' :: (r.toList ++ ')' :: u))) := by
  simp

/-- A comparison does not begin like a join. -/
theorem compare_ne_join {column : String} (h : PlainName column) (x y : List Char) :
    column.toList ++ ' ' :: x ≠ '(' :: y := by
  intro heq
  have hopen := h '(' (by decide)
  cases hcolumn : column.toList <;> simp_all

variable {R : Value → Value → Prop} {ps qs : List Value} {s t : String} {f g : Filter}

/-- Where a clause ends can be told from the text behind it, and what it is read as depends on the
parameters only in its operands. -/
theorem Reads.append_inj (hf : Reads ps s f) (hg : Reads qs t g) (hparams : List.Forall₂ R ps qs)
    {u v : List Char} (hu : u.head?.any Char.isDigit = false)
    (hv : v.head?.any Char.isDigit = false) (h : s.toList ++ u = t.toList ++ v) :
    Agree R f g ∧ u = v := by
  induction hf generalizing t g u v with
  | compare op hplain hoperand =>
    rw [toList_compare_append] at h
    cases hg with
    | compare op' hplain' hoperand' =>
      rw [toList_compare_append] at h
      obtain ⟨hcolumn, h⟩ := word_append_inj (hplain _ (by decide)) (hplain' _ (by decide)) h
      obtain ⟨hop, h⟩ := word_append_inj op.space_not_mem_sql op'.space_not_mem_sql h
      obtain ⟨hk, rfl⟩ := digits_append_inj hu hv (List.cons.inj h).2
      obtain rfl := String.toList_inj.mp hcolumn
      obtain rfl := Comparison.sql_inj hop
      obtain rfl := Nat.succ.inj hk
      obtain ⟨hlt, rfl⟩ := List.getElem?_eq_some_iff.mp hoperand
      obtain ⟨hlt', rfl⟩ := List.getElem?_eq_some_iff.mp hoperand'
      exact ⟨.compare op _ (hparams.get hlt hlt'), rfl⟩
    | join op' hl' hr' =>
      rw [toList_join_append] at h
      exact absurd h (compare_ne_join hplain _ _)
  | join op hl hr ihl ihr =>
    rw [toList_join_append] at h
    cases hg with
    | compare op' hplain' hoperand' =>
      rw [toList_compare_append] at h
      exact absurd h.symm (compare_ne_join hplain' _ _)
    | join op' hl' hr' =>
      rw [toList_join_append] at h
      -- Each side of a join is followed by a closing parenthesis, which is no digit.
      obtain ⟨hleft, hbetween⟩ := ihl hl' rfl rfl (List.cons.inj h).2
      obtain ⟨hop, hbehind⟩ := word_append_inj op.space_not_mem_sql op'.space_not_mem_sql
        (List.cons.inj (List.cons.inj hbetween).2).2
      obtain ⟨hright, hend⟩ := ihr hr' rfl rfl (List.cons.inj hbehind).2
      obtain rfl := Connective.sql_inj hop
      exact ⟨.join op hleft hright, (List.cons.inj hend).2⟩

/-- One text with related parameters is read as filters with related operands. -/
theorem Reads.agree (hf : Reads ps s f) (hg : Reads qs s g) (hparams : List.Forall₂ R ps qs) :
    Agree R f g :=
  (hf.append_inj hg hparams (u := []) (v := []) rfl rfl rfl).1

/-- There is one way to read a clause. -/
theorem Reads.unique (hf : Reads ps s f) (hg : Reads ps s g) : f = g :=
  (hf.agree hg (List.forall₂_refl ps)).eq

/-! ## Reading a filter that was written down -/

/-- A filter without `all` is read back from its clause. -/
theorem reads_numbered_between (hf : f.AllFree) (hplain : ∀ column ∈ f.columns, PlainName column)
    (before after : List Value) :
    Reads (before ++ f.operands ++ after) (f.numbered (before.length + 1)) f := by
  induction f generalizing before after with
  | compare op column operand =>
    refine .compare op (hplain column (by simp [columns, comparisons])) ?_
    simp [operands, comparisons]
  | join op left right ihl ihr =>
    rw [columns_join] at hplain
    obtain ⟨hl, hr⟩ := List.forall_mem_append.mp hplain
    have hleft := ihl hf.1 hl before (right.operands ++ after)
    have hright := ihr hf.2 hr (before ++ left.operands) after
    rw [List.length_append, length_operands, Nat.add_right_comm] at hright
    rw [operands_join, numbered]
    simp only [List.append_assoc] at hleft hright ⊢
    exact .join op hleft hright
  | all => cases hf

theorem reads_numbered (hf : f.AllFree) (hplain : ∀ column ∈ f.columns, PlainName column) :
    Reads f.operands (f.numbered 1) f := by
  simpa using reads_numbered_between hf hplain [] []

end Filter

end TableMapper
