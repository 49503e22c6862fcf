import Mathlib.Data.List.Basic
import TableMapper.Proofs.Table.Compile

/-!
# The steps of a walk over fields

Apart from building columns, the walk over the fields of a table looks up the tables behind the
foreign keys, in order, and it may come to a field that is at fault. These steps depend on the
fields alone. Whoever wants to know what a walk does to a state need only follow the steps.

## Main definitions

* `Field.reference?` — the entity type and the table that a foreign key refers to.
* `Table.Step`, `Table.stepsOf` — the steps of a walk.
* `Table.run` — takes the steps one after the other.
* `Table.observe` — what is left of a result when states are seen through a view.
* `Table.WellDeclared` — fields without a fault.
-/

namespace TableMapper

/-! ## References -/

namespace Field

/-- The entity type and the name of the table that a foreign key without a fault refers to. -/
def reference? (f : Field) : Option (EntityType × String) :=
  match f.relation, f.kind with
  | .foreignKey table column, .entity true target =>
    if table ≠ "" ∧ column ≠ "" then some (target, table) else none
  | _, _ => none

variable {f : Field} {entity target : EntityType} {table column : String}

theorem reference?_eq_some_iff :
    f.reference? = some (target, table) ↔
      ∃ column, f.relation = .foreignKey table column ∧ table ≠ "" ∧ column ≠ "" ∧
        f.kind = .entity true target := by
  unfold reference?
  split
  · next hrelation hkind =>
    simp only [hrelation, hkind, Option.ite_none_right_eq_some, Option.some.injEq, Prod.mk.injEq,
      Relation.foreignKey.injEq, FieldKind.entity.injEq, true_and]
    grind
  · next hnone =>
    simp only [reduceCtorEq, false_iff, not_exists, not_and]
    exact fun column hrelation _ _ hkind => hnone _ _ _ hrelation hkind

theorem reference?_of_target (hrelation : f.relation = .foreignKey table column)
    (h : f.target entity table column = .ok target) : f.reference? = some (target, table) := by
  obtain ⟨htable, hcolumn, hkind⟩ := target_eq_ok_iff.mp h
  exact reference?_eq_some_iff.mpr ⟨column, hrelation, htable, hcolumn, hkind⟩

end Field

namespace Table

/-! ## Steps -/

inductive Step where
  | lookUp (target : EntityType) (name : String)
  | fail (fault : SchemaFault)

/-- The steps of the walk over fields, up to the first fault. `key` is the column of the primary
key among the fields before them. -/
def stepsOf (entity : EntityType) : (key : Option String) → List Field → List Step
  | _, [] => []
  | key, f :: fields =>
    if f.isStored then
      match f.relation with
      | .none => stepsOf entity key fields
      | .primaryKey =>
        match key with
        | some first => [.fail (.twoPrimaryKeys entity.name first f.column)]
        | none => stepsOf entity (some f.column) fields
      | .foreignKey table column =>
        match f.target entity table column with
        | .error fault => [.fail fault]
        | .ok target => .lookUp target table :: stepsOf entity key fields
    else stepsOf entity key fields

variable {σ τ : Type}

/-- Take steps one after the other, up to the first one that fails. -/
def run (resolve : EntityType → String → EStateM SchemaFault σ Unit) :
    List Step → EStateM SchemaFault σ Unit
  | [] => return
  | .lookUp target name :: steps => do
    resolve target name
    run resolve steps
  | .fail fault :: _ => throw fault

/-- A result without its value, its state seen through `view`. -/
def observe {α : Type} (view : σ → τ) :
    EStateM.Result SchemaFault σ α → EStateM.Result SchemaFault τ Unit
  | .ok _ s => .ok ⟨⟩ (view s)
  | .error fault s => .error fault (view s)

/-- What follows on a success only makes a value out of it. -/
theorem observe_bind_pure {α β : Type} (view : σ → τ) (x : EStateM SchemaFault σ α) (f : α → β)
    (s : σ) : observe view ((x >>= fun a => pure (f a)) s) = observe view (x s) := by
  change observe view (EStateM.bind x _ s) = _
  unfold EStateM.bind
  cases x s <;> rfl

/-- Seen through a view, the walk over fields takes its steps and does nothing else. -/
theorem observe_columnsOf (view : σ → τ) {entity : EntityType}
    {resolve : EntityType → String → EStateM SchemaFault σ TableId}
    {resolve' : EntityType → String → EStateM SchemaFault τ Unit}
    (h : ∀ target name s, observe view (resolve target name s) = resolve' target name (view s))
    (key : Option String) (fields : List Field) (s : σ) :
    observe view (columnsOf entity resolve key fields s) =
      run resolve' (stepsOf entity key fields) (view s) := by
  induction fields generalizing key s with
  | nil => rfl
  | cons f fields ih =>
    -- Once the role of `f` is found, the rest of the walk is what counts.
    have hrest (role : Role) (key : Option String) (t : σ) :
        observe view ((columnsOf entity resolve key fields >>= fun columns =>
          pure ((⟨f.column, f.name, role⟩ : Column) :: columns)) t) =
        run resolve' (stepsOf entity key fields) (view t) := by
      rw [observe_bind_pure, ih]
    unfold columnsOf stepsOf
    split
    · unfold roleOf
      cases hrelation : f.relation with
      | none => exact hrest .plain key s
      | primaryKey =>
        cases key with
        | some first => rfl
        | none => exact hrest .primaryKey (some f.column) s
      | foreignKey table column =>
        simp only
        cases htarget : f.target entity table column with
        | error fault => rfl
        | ok target =>
          have hfound := h target table s
          change observe view (EStateM.bind (EStateM.bind (resolve target table) _) _ s) =
            EStateM.bind (resolve' target table) _ (view s)
          unfold EStateM.bind
          rw [← hfound]
          cases resolve target table s with
          | ok id t => exact hrest (.foreignKey table column id) key t
          | error fault t => rfl
    · exact ih key s

/-! ## What steps do to a state -/

section Run

variable {resolve : EntityType → String → EStateM SchemaFault σ Unit} {steps : List Step}
  {s t : σ} {fault : SchemaFault}

theorem run_lookUp_eq_ok_iff {target : EntityType} {name : String} :
    run resolve (.lookUp target name :: steps) s = .ok ⟨⟩ t ↔
      ∃ u, resolve target name s = .ok ⟨⟩ u ∧ run resolve steps u = .ok ⟨⟩ t := by
  rw [run, bind_eq_ok_iff]
  exact ⟨fun ⟨_, u, h⟩ => ⟨u, h⟩, fun ⟨u, h⟩ => ⟨⟨⟩, u, h⟩⟩

theorem run_lookUp_eq_error_iff {target : EntityType} {name : String} :
    run resolve (.lookUp target name :: steps) s = .error fault t ↔
      resolve target name s = .error fault t ∨
        ∃ u, resolve target name s = .ok ⟨⟩ u ∧ run resolve steps u = .error fault t := by
  rw [run, bind_eq_error_iff]
  exact or_congr_right ⟨fun ⟨_, u, h⟩ => ⟨u, h⟩, fun ⟨u, h⟩ => ⟨⟨⟩, u, h⟩⟩

variable (Steps : σ → σ → Prop)

/-- Steps that all succeed are look-ups, and each of them was made on the way. -/
theorem run_ok (refl : ∀ s, Steps s s) (trans : ∀ s t u, Steps s t → Steps t u → Steps s u)
    (hresolve : ∀ target name s t, .lookUp target name ∈ steps →
      resolve target name s = .ok ⟨⟩ t → Steps s t)
    (h : run resolve steps s = .ok ⟨⟩ t) :
    Steps s t ∧ ∀ step ∈ steps, ∃ target name u v, step = .lookUp target name ∧
      resolve target name u = .ok ⟨⟩ v ∧ Steps v t := by
  induction steps generalizing s with
  | nil =>
    obtain ⟨-, rfl⟩ := pure_eq_ok_iff.mp h
    exact ⟨refl s, by simp⟩
  | cons step steps ih =>
    cases step with
    | fail fault => exact absurd h throw_ne_ok
    | lookUp target name =>
      obtain ⟨u, hfound, hrest⟩ := run_lookUp_eq_ok_iff.mp h
      have hfirst : Steps s u := hresolve _ _ _ _ List.mem_cons_self hfound
      obtain ⟨hsteps, hlater⟩ :=
        ih (fun _ _ _ _ hmem => hresolve _ _ _ _ (List.mem_cons_of_mem _ hmem)) hrest
      refine ⟨trans _ _ _ hfirst hsteps, fun step hstep => ?_⟩
      rcases List.mem_cons.mp hstep with rfl | hstep
      · exact ⟨target, name, s, u, rfl, hfound, hsteps⟩
      · exact hlater step hstep

/-- Steps fail at a fault, or at a look-up that fails after others have succeeded. -/
theorem run_error (refl : ∀ s, Steps s s) (trans : ∀ s t u, Steps s t → Steps t u → Steps s u)
    (hresolve : ∀ target name s t, .lookUp target name ∈ steps →
      resolve target name s = .ok ⟨⟩ t → Steps s t)
    (h : run resolve steps s = .error fault t) :
    .fail fault ∈ steps ∨ ∃ target name u, .lookUp target name ∈ steps ∧ Steps s u ∧
      resolve target name u = .error fault t := by
  induction steps generalizing s with
  | nil => exact absurd h pure_ne_error
  | cons step steps ih =>
    cases step with
    | fail fault' =>
      obtain ⟨rfl, -⟩ := throw_eq_error_iff.mp h
      exact .inl List.mem_cons_self
    | lookUp target name =>
      rcases run_lookUp_eq_error_iff.mp h with hfound | ⟨u, hfound, hrest⟩
      · exact .inr ⟨target, name, s, List.mem_cons_self, refl s, hfound⟩
      have hfirst : Steps s u := hresolve _ _ _ _ List.mem_cons_self hfound
      rcases ih (fun _ _ _ _ hmem => hresolve _ _ _ _ (List.mem_cons_of_mem _ hmem)) hrest with
        hfail | ⟨target', name', v, hmem, hsteps, herror⟩
      · exact .inl (List.mem_cons_of_mem _ hfail)
      · exact .inr ⟨target', name', v, List.mem_cons_of_mem _ hmem, trans _ _ _ hfirst hsteps,
          herror⟩

end Run

/-! ## Two runs side by side -/

/-- Both results are successes with related states, or both are failures with one fault. -/
inductive Alike {α β : Type} (R : σ → τ → Prop) :
    EStateM.Result SchemaFault σ α → EStateM.Result SchemaFault τ β → Prop
  | ok {a : α} {b : β} {s : σ} {t : τ} : R s t → Alike R (.ok a s) (.ok b t)
  | error {fault : SchemaFault} {s : σ} {t : τ} : Alike R (.error fault s) (.error fault t)

theorem Alike.mono {α β : Type} {R R' : σ → τ → Prop} {x : EStateM.Result SchemaFault σ α}
    {y : EStateM.Result SchemaFault τ β} (h : Alike R x y) (himp : ∀ s t, R s t → R' s t) :
    Alike R' x y := by
  cases h with
  | ok hst => exact .ok (himp _ _ hst)
  | error => exact .error

/-- Steps end alike when each look-up among them does. -/
theorem alike_run {R : σ → τ → Prop} {resolve : EntityType → String → EStateM SchemaFault σ Unit}
    {resolve' : EntityType → String → EStateM SchemaFault τ Unit} {steps : List Step}
    (hresolve : ∀ target name s t, .lookUp target name ∈ steps → R s t →
      Alike R (resolve target name s) (resolve' target name t))
    {s : σ} {t : τ} (h : R s t) : Alike R (run resolve steps s) (run resolve' steps t) := by
  induction steps generalizing s t with
  | nil => exact .ok h
  | cons step steps ih =>
    cases step with
    | fail fault => exact .error
    | lookUp target name =>
      have hfound := hresolve _ _ _ _ List.mem_cons_self h
      change Alike R (EStateM.bind (resolve target name) _ s)
        (EStateM.bind (resolve' target name) _ t)
      unfold EStateM.bind
      generalize resolve target name s = x at hfound ⊢
      generalize resolve' target name t = y at hfound ⊢
      cases hfound with
      | error => exact .error
      | ok hst => exact ih (fun _ _ _ _ hmem => hresolve _ _ _ _ (List.mem_cons_of_mem _ hmem)) hst

/-! ## Fields without a fault -/

/-- Among the stored fields, at most one is a primary key, and every foreign key names a table and
a column and holds an optional entity. -/
structure WellDeclared (fields : List Field) : Prop where
  primaryKeys : (fields.filter Field.isStored).countP (·.relation = .primaryKey) ≤ 1
  foreignKeys : ∀ f ∈ fields.filter Field.isStored, ∀ table column,
    f.relation = .foreignKey table column →
      table ≠ "" ∧ column ≠ "" ∧ ∃ target, f.kind = .entity true target

section Fields

variable {entity : EntityType} {key : Option String} {fields : List Field} {target : EntityType}
  {name : String}

/-- Every look-up is for the foreign key of a stored field. -/
theorem exists_reference_of_lookUp (h : .lookUp target name ∈ stepsOf entity key fields) :
    ∃ f ∈ fields.filter Field.isStored, f.reference? = some (target, name) := by
  fun_induction stepsOf entity key fields with
  | case1 => cases h
  | case2 key f fields hstored hrelation ih => grind
  | case3 f fields hstored hrelation first => simp at h
  | case4 f fields hstored hrelation ih => grind
  | case5 key f fields hstored table column hrelation fault htarget => simp at h
  | case6 key f fields hstored table column hrelation target' htarget ih =>
    have hreference := Field.reference?_of_target hrelation htarget
    grind
  | case7 key f fields hstored ih => grind

/-- Without a fault, every foreign key is looked up. -/
theorem lookUp_mem_stepsOf (hfail : ∀ fault, .fail fault ∉ stepsOf entity key fields) {f : Field}
    (hf : f ∈ fields.filter Field.isStored) (hreference : f.reference? = some (target, name)) :
    .lookUp target name ∈ stepsOf entity key fields := by
  obtain ⟨column', hrelation', -⟩ := Field.reference?_eq_some_iff.mp hreference
  fun_induction stepsOf entity key fields with
  | case1 => cases hf
  | case2 key f' fields hstored hrelation ih => grind
  | case3 f' fields hstored hrelation first => simp at hfail
  | case4 f' fields hstored hrelation ih => grind
  | case5 key f' fields hstored table column hrelation fault htarget => simp at hfail
  | case6 key f' fields hstored table column hrelation target' htarget ih =>
    have hreference' := Field.reference?_of_target hrelation htarget
    grind
  | case7 key f' fields hstored ih => grind

/-- The walk meets no fault exactly when there is none; a primary key before the fields counts. -/
theorem forall_fail_not_mem_stepsOf_iff :
    (∀ fault, .fail fault ∉ stepsOf entity key fields) ↔
      key.isSome.toNat + (fields.filter Field.isStored).countP (·.relation = .primaryKey) ≤ 1 ∧
      ∀ f ∈ fields.filter Field.isStored, ∀ table column, f.relation = .foreignKey table column →
        table ≠ "" ∧ column ≠ "" ∧ ∃ target, f.kind = .entity true target := by
  fun_induction stepsOf entity key fields with
  | case1 key => simp [Bool.toNat_le]
  | case2 key f fields hstored hrelation ih => grind
  | case3 f fields hstored hrelation first =>
    -- A second primary key is a fault, and two are too many.
    rw [List.filter_cons_of_pos hstored, List.countP_cons_of_pos (by simpa using hrelation)]
    simp only [List.mem_singleton, Option.isSome_some, Bool.toNat_true]
    constructor
    · intro hfail
      exact absurd rfl (hfail _)
    · rintro ⟨hkeys, -⟩
      omega
  | case4 f fields hstored hrelation ih =>
    rw [ih, List.filter_cons_of_pos hstored, List.countP_cons_of_pos (by simpa using hrelation)]
    simp only [Option.isSome_some, Option.isSome_none, Bool.toNat_true, Bool.toNat_false,
      List.forall_mem_cons, hrelation, reduceCtorEq, false_imp_iff, implies_true, true_and]
    exact and_congr_left' (by omega)
  | case5 key f fields hstored table column hrelation fault htarget =>
    have hnone : ∀ target, f.target entity table column ≠ .ok target := by simp [htarget]
    rw [List.filter_cons_of_pos hstored]
    simp only [List.mem_singleton, List.forall_mem_cons]
    constructor
    · intro hfail
      exact absurd rfl (hfail _)
    · rintro ⟨-, hforeign, -⟩
      obtain ⟨htable, hcolumn, target, hkind⟩ := hforeign _ _ hrelation
      exact absurd (Field.target_eq_ok_iff.mpr ⟨htable, hcolumn, hkind⟩) (hnone target)
  | case6 key f fields hstored table column hrelation target htarget ih =>
    grind [Field.target_eq_ok_iff]
  | case7 key f fields hstored ih => grind

theorem wellDeclared_iff :
    WellDeclared fields ↔ ∀ fault, .fail fault ∉ stepsOf entity none fields := by
  rw [forall_fail_not_mem_stepsOf_iff]
  constructor
  · intro h
    exact ⟨by simpa using h.primaryKeys, h.foreignKeys⟩
  · rintro ⟨hkeys, hforeign⟩
    exact ⟨by simpa using hkeys, hforeign⟩

end Fields

end Table

end TableMapper
