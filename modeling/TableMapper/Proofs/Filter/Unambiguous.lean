import TableMapper.Proofs.Filter.Meaning

/-!
# Equal clauses come from equal filters

Two filters render to equal clauses, with equal parameters, exactly when they are equal once `all`
is removed. Parameters compare as values, so floating-point numbers compare as numbers here too.

## Main definitions

* `Value.SameUpToZero` — two values that differ at most in the sign of a zero.
-/

namespace TableMapper

/-! ## Numbers that compare alike -/

namespace Binary64

variable {x y : Binary64}

theorem isNaN_of_isZero (h : x.isZero = true) : x.isNaN = false := by
  simp only [isZero, isNaN, Bool.and_eq_true, beq_iff_eq] at h ⊢
  simp [h.1]

theorem beq_comm (x y : Binary64) : (x == y) = (y == x) := by
  change beq x y = beq y x
  unfold beq
  grind

/-- Equal to a zero are the zeros. -/
theorem beq_of_isZero (h : x.isZero = true) : (x == y) = y.isZero := by
  change beq x y = y.isZero
  cases hy : y.isZero with
  | true => simp [beq, h, hy, isNaN_of_isZero]
  | false =>
    -- Equal patterns would make `y` a zero too.
    have hbits : x.bits ≠ y.bits := by
      intro heq
      have hxy : x = y := by
        cases x
        cases y
        simpa using heq
      simp [← hxy, h] at hy
    simp [beq, hy, hbits]

theorem beq_of_isNaN (h : x.isNaN = true) : (x == y) = false := by
  change beq x y = false
  simp [beq, h]

end Binary64

namespace Value

/-- The values differ at most in the sign of a zero. -/
inductive SameUpToZero : Value → Value → Prop
  | refl (v : Value) : SameUpToZero v v
  | zero {x y : Binary64} : x.isZero = true → y.isZero = true →
      SameUpToZero (.float8 x) (.float8 y)

theorem beq_float8 (x y : Binary64) : (float8 x == float8 y) = (x == y) := rfl

theorem beq_comm_float8 (v : Value) (x : Binary64) : (v == float8 x) = (float8 x == v) := by
  cases v with
  | float8 y => exact Binary64.beq_comm y x
  | _ => rfl

theorem beq_congr_zero {x y : Binary64} (hx : x.isZero = true) (hy : y.isZero = true)
    (v : Value) : (float8 x == v) = (float8 y == v) := by
  cases v with
  | float8 z => rw [beq_float8, beq_float8, Binary64.beq_of_isZero hx, Binary64.beq_of_isZero hy]
  | _ => rfl

/-- No comparison tells the zeros apart. -/
theorem SameUpToZero.beq_congr {v v' w w' : Value} (hv : SameUpToZero v v')
    (hw : SameUpToZero w w') : (v == w) = (v' == w') := by
  have hleft : (v == w) = (v' == w) := by
    cases hv with
    | refl => rfl
    | zero hx hy => exact beq_congr_zero hx hy w
  cases hw with
  | refl => exact hleft
  | zero hx hy =>
    rw [hleft, beq_comm_float8, beq_comm_float8]
    exact beq_congr_zero hx hy v'

end Value

/-! ## Equal clauses -/

theorem beq_iff_forall₂ {vs ws : List Value} :
    (vs == ws) = true ↔ List.Forall₂ (fun v w => (v == w) = true) vs ws := by
  induction vs generalizing ws with
  | nil => cases ws <;> simp
  | cons v vs ih => cases ws <;> simp [ih]

theorem Statement.beq_iff {s t : Statement} :
    (s == t) = true ↔
      s.sql = t.sql ∧ List.Forall₂ (fun v w => (v == w) = true) s.params t.params := by
  change (s.sql == t.sql && s.params == t.params) = true ↔ _
  rw [Bool.and_eq_true, beq_iff_eq, beq_iff_forall₂]

namespace Filter

variable {a b f : Filter}

theorem normal_of_allFree (h : f.AllFree) : f.normal = f := by
  induction f with
  | compare => rfl
  | join op left right ihl ihr =>
    have hl : left ≠ all := by
      rintro rfl
      exact h.1
    have hr : right ≠ all := by
      rintro rfl
      exact h.2
    rw [normal, ihl h.1, ihr h.2, joinNormal_of_ne_all op hl hr]
  | all => rfl

/-- One shape is rendered to one text. -/
theorem render_beq_of_agree (ha : a.Legible) (hb : b.Legible)
    (h : Agree (fun v w => (v == w) = true) a.normal b.normal) :
    (a.render == b.render) = true := by
  rw [Statement.beq_iff, render_eq ha.free, render_eq hb.free]
  exact ⟨h.numbered_eq 1, h.operands⟩

/-- One text is read as one shape. -/
theorem agree_of_render_beq (ha : a.Legible) (hb : b.Legible)
    (h : (a.render == b.render) = true) :
    Agree (fun v w => (v == w) = true) a.normal b.normal := by
  obtain ⟨hsql, hparams⟩ := Statement.beq_iff.mp h
  by_cases hall : a.normal = all
  · have hempty := (render_sql_eq_empty_iff ha).mpr hall
    rw [hall, (render_sql_eq_empty_iff hb).mp (hsql ▸ hempty)]
    exact .all
  have hne : b.normal ≠ all := by
    rwa [ne_eq, ← render_sql_eq_empty_iff hb, ← hsql, render_sql_eq_empty_iff ha]
  have hread := reads_render hb hne
  rw [← hsql] at hread
  exact (reads_render ha hall).agree hread hparams

theorem render_beq_eq (ha : a.Legible) (hb : b.Legible) :
    (a.render == b.render) = (a.normal == b.normal) := by
  rw [Bool.eq_iff_iff, beq_iff_agree]
  exact ⟨agree_of_render_beq ha hb, render_beq_of_agree ha hb⟩

/-- A filter with a NaN among its operands is not equal to itself. -/
theorem beq_self_of_isNaN {x : Binary64} (hx : x.isNaN = true) (hmem : .float8 x ∈ f.operands) :
    (f == f) = false := by
  rw [← Bool.not_eq_true, beq_iff_agree]
  intro h
  have heq := List.forall₂_same.mp h.operands _ hmem
  rw [Value.beq_float8, Binary64.beq_of_isNaN hx] at heq
  cases heq

theorem Legible.congr {R : Value → Value → Prop} (h : a.Legible) (hagree : Agree R a b) :
    b.Legible :=
  ⟨hagree.columns_eq ▸ h.free, hagree.columns_eq ▸ h.plain⟩

/-- Two filters render to equal clauses exactly when they are equal without `all`; a filter that
contains none is compared as it is. So a NaN makes the clause differ from itself where it makes
the filter differ from itself, and the sign of a zero makes no difference to either. -/
theorem render_beq_iff_normal (a b : Filter) (ha : a.Legible) (hb : b.Legible) :
    (a.render == b.render) = (a.normal == b.normal) ∧
    (a.AllFree → b.AllFree → (a.render == b.render) = (a == b)) ∧
    (∀ x : Binary64, x.isNaN = true → .float8 x ∈ a.operands →
      (a == a) = false ∧ (a.AllFree → (a.render == a.render) = false)) ∧
    (∀ a' b', Agree Value.SameUpToZero a a' → Agree Value.SameUpToZero b b' →
      (a' == b') = (a == b) ∧ (a'.render == b'.render) = (a.render == b.render)) := by
  refine ⟨render_beq_eq ha hb, ?_, ?_, ?_⟩
  · intro hfa hfb
    rw [render_beq_eq ha hb, normal_of_allFree hfa, normal_of_allFree hfb]
  · intro x hx hmem
    have hself := beq_self_of_isNaN hx hmem
    refine ⟨hself, fun hfree => ?_⟩
    rw [render_beq_eq ha ha, normal_of_allFree hfree, hself]
  · intro a' b' haa' hbb'
    have hcongr : ∀ v v' w w', Value.SameUpToZero v v' → Value.SameUpToZero w w' →
        (v == w) = (v' == w') := fun _ _ _ _ => Value.SameUpToZero.beq_congr
    refine ⟨(haa'.beq_congr hcongr hbb').symm, ?_⟩
    rw [render_beq_eq (ha.congr haa') (hb.congr hbb'), render_beq_eq ha hb]
    exact (haa'.normal.beq_congr hcongr hbb'.normal).symm

/-- The sign of a zero and an `all` make no difference, a NaN does. -/
theorem render_beq_iff_normal_floats :
    let zero : Binary64 := ⟨0⟩
    let minusZero : Binary64 := ⟨0x8000000000000000⟩
    let nan : Binary64 := ⟨0x7ff8000000000000⟩
    let a := or (and all (eq "a$1" zero)) (less "b" "x")
    let b := or (eq "a$1" minusZero) (less "b" "x")
    let c := and (eq "a$1" nan) (less "b" "x")
    (a.Legible ∧ b.Legible ∧ (a.render == b.render) = (a.normal == b.normal) ∧
      (a.normal == b.normal) = true) ∧
    c.Legible ∧ c.AllFree ∧ nan.isNaN = true ∧ .float8 nan ∈ c.operands ∧
      (c == c) = false ∧ (c.render == c.render) = false := by
  intro zero minusZero nan a b c
  have ha : a.Legible := ⟨by decide +kernel, by decide +kernel⟩
  have hb : b.Legible := ⟨by decide +kernel, by decide +kernel⟩
  have hc : c.Legible := ⟨by decide +kernel, by decide +kernel⟩
  have hfree : c.AllFree := ⟨trivial, trivial⟩
  have hnan : nan.isNaN = true := by decide
  have hmem : .float8 nan ∈ c.operands := List.mem_cons_self ..
  obtain ⟨hself, hrender⟩ := (render_beq_iff_normal c c hc hc).2.2.1 nan hnan hmem
  exact ⟨⟨ha, hb, (render_beq_iff_normal a b ha hb).1, by decide +kernel⟩, hc, hfree, hnan, hmem,
    hself, hrender hfree⟩

end Filter

end TableMapper
