import TableMapper.Proofs.Filter.Numbered

/-!
# Rendering numbers from left to right

Every join numbers its text anew, so a placeholder deep in a filter is numbered many times. The
result is the clause written in one pass, and the `k`-th placeholder stands behind the column of
the `k`-th parameter.
-/

namespace TableMapper

namespace Filter

open Placeholder

/-! ## The rendered clause -/

/-- Two sides that are written in one pass are joined to a filter that is written in one pass. -/
theorem renderJoin_numbered {left right : Filter} (op : Connective)
    (hl : ∀ column ∈ left.columns, Free column) (hr : ∀ column ∈ right.columns, Free column) :
    renderJoin op ⟨left.numbered 1, left.operands⟩ ⟨right.numbered 1, right.operands⟩ =
      ⟨(joinNormal op left right).numbered 1, (joinNormal op left right).operands⟩ := by
  by_cases hleft : left = all
  · subst hleft
    cases op <;> simp [renderJoin, numbered, operands, comparisons]
  by_cases hright : right = all
  · subst hright
    cases op <;> simp [renderJoin, numbered, operands, comparisons, numbered_eq_empty_iff, hleft]
  have hnumbers := numbers_join op (numbers_numbered hl 1 1) (numbers_numbered hr 1 (1 + left.size))
  unfold renderJoin
  rw [joinNormal_of_ne_all op hleft hright, numbered, operands_join,
    if_neg (by simp [numbered_eq_empty_iff, hleft, hright]), hnumbers.renumber_eq]

/-- However often its parts are numbered anew, a filter renders to the clause written in one
pass. -/
theorem render_eq {f : Filter} (free : ∀ column ∈ f.columns, Free column) :
    f.render = ⟨f.normal.numbered 1, f.normal.operands⟩ := by
  induction f with
  | compare op column operand =>
    have hone : " $1" = " $" ++ toString 1 := by decide
    simp only [render, normal, numbered, operands, comparisons, hone, String.append_assoc,
      List.map_cons, List.map_nil]
  | join op left right ihl ihr =>
    rw [columns_join] at free
    obtain ⟨hl, hr⟩ := List.forall_mem_append.mp free
    rw [render, ihl hl, ihr hr]
    exact renderJoin_numbered op (free_columns_normal hl) (free_columns_normal hr)
  | all => rfl

/-- The `k`-th placeholder of a clause stands behind its `k`-th comparison. -/
theorem follows_numbered {f : Filter} (free : ∀ column ∈ f.columns, Free column) (n : Nat)
    {k : Nat} {op : Comparison} {column : String} {operand : Value}
    (h : f.comparisons[k]? = some (op, column, operand)) :
    Follows (f.numbered n) k (n + k) (lead op column) := by
  induction f generalizing n k with
  | compare op' column' operand' =>
    obtain ⟨rfl, hcomparison⟩ : k = 0 ∧ (op', column', operand') = (op, column, operand) := by
      cases k <;> simp_all [comparisons]
    cases hcomparison
    have hlead := free_lead op (free column (by simp [columns, comparisons]))
    refine ⟨"", "", by simp [numbered_compare], stands_digits _ ?_ rfl, ?_⟩
    · rw [String.empty_append, endsIn_lead]
    · rw [String.empty_append, free_iff_labels.mp hlead, List.length_nil]
  | join op' left right ihl ihr =>
    rw [columns_join] at free
    obtain ⟨hl, hr⟩ := List.forall_mem_append.mp free
    rw [comparisons] at h
    by_cases hk : k < left.size
    · rw [List.getElem?_append_left hk] at h
      have hfollows := (ihl hl n h).enclose "("
        (") " ++ op'.sql ++ " (" ++ right.numbered (n + left.size) ++ ")") (by decide)
        (by simp [isIdentifierChar])
      have hnone : (labels "(").length = 0 := by decide +kernel
      rw [hnone, Nat.zero_add] at hfollows
      simpa only [numbered, String.append_assoc] using hfollows
    · obtain ⟨k, rfl⟩ := Nat.exists_eq_add_of_le (Nat.not_lt.mp hk)
      rw [List.getElem?_append_right (Nat.not_lt.mp hk), ← size, Nat.add_sub_cancel_left] at h
      have hfollows := (ihr hr (n + left.size) h).enclose
        ("(" ++ left.numbered n ++ ") " ++ op'.sql ++ " (") ")" (by simp [isIdentifierChar])
        (by decide)
      have hsize := (numbers_left op' (numbers_numbered hl n n)).next
      rw [← Nat.add_left_cancel hsize] at hfollows
      simpa only [numbered, Nat.add_assoc] using hfollows
  | all => simp [comparisons] at h

theorem length_params_render {f : Filter} (free : ∀ column ∈ f.columns, Free column) :
    f.render.params.length = f.normal.size := by
  rw [render_eq free, length_operands]

/-- A filter with nothing to check renders to nothing. Every other filter renders to the clause
written in one pass: its placeholders read `$1, $2, ...` up to the number of parameters, and the
`k`-th of them stands behind the column that the `k`-th parameter is compared with. -/
theorem render_numbers_in_order (f : Filter) (free : ∀ column ∈ f.columns, Free column) :
    (f.normal = all → f.render = ⟨"", []⟩) ∧
    (f.normal ≠ all →
      f.normal.AllFree ∧ f.render = ⟨f.normal.numbered 1, f.normal.operands⟩) ∧
    labels f.render.sql = (List.range' 1 f.render.params.length).map digits ∧
    ∀ k op column operand, f.normal.comparisons[k]? = some (op, column, operand) →
      f.render.params[k]? = some operand ∧
      Follows f.render.sql k (k + 1) (column ++ " " ++ op.sql ++ " ") := by
  have hfree := free_columns_normal free
  refine ⟨?_, fun h => ⟨allFree_normal h, render_eq free⟩, ?_, ?_⟩
  · intro h
    rw [render_eq free, h]
    rfl
  · rw [length_params_render free, render_eq free]
    simpa using (numbers_numbered hfree 1 1).labels_eq
  · intro k op column operand h
    rw [render_eq free, Nat.add_comm k 1]
    exact ⟨by simp [operands, h], follows_numbered hfree 1 h⟩

/-- Dollar signs in names, a dropped `all` and two nested joins. -/
theorem render_numbers_prices :
    (∀ column ∈ (or (and all (eq "price$1" "a")) (and (less "b$" "c") (eq "d" "$7"))).columns,
      Free column) ∧
    (or (and all (eq "price$1" "a")) (and (less "b$" "c") (eq "d" "$7"))).render =
      ⟨"(price$1 = $1) OR ((b$ < $2) AND (d = $3))", [.text "a", .text "c", .text "$7"]⟩ := by
  have free : ∀ column ∈
      (or (and all (eq "price$1" "a")) (and (less "b$" "c") (eq "d" "$7"))).columns,
      Free column := by
    decide +kernel
  refine ⟨free, ?_⟩
  rw [((render_numbers_in_order _ free).2.1 (by simp [normal, or, and, eq, less, joinNormal])).2]
  rfl

end Filter

end TableMapper
