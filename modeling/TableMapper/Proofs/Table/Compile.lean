import TableMapper.Proofs.Sequence
import TableMapper.Table.Basic

/-!
# Compiling the fields of a table

Compilation walks the stored fields in order and asks for the table behind every foreign key. What
a single look-up preserves, the whole walk preserves; a walk that succeeds yields one column for
each stored field.

## Main definitions

* `Field.HasRole` — the role a field is declared to have.
* `Field.Yields` — the column a field is declared to have.
-/

namespace TableMapper

/-! ## Columns of fields -/

namespace Field

variable {entity : EntityType} {f : Field} {table column : String} {target : EntityType}

theorem target_eq_ok_iff :
    f.target entity table column = .ok target ↔
      table ≠ "" ∧ column ≠ "" ∧ f.kind = .entity true target := by
  unfold Field.target
  by_cases htable : table = ""
  · simp [htable]
  by_cases hcolumn : column = ""
  · simp [htable, hcolumn]
  rw [if_neg (by simpa using htable), if_neg (by simpa using hcolumn)]
  cases hkind : f.kind with
  | value => simp
  | entity optional target' => cases optional <;> simp [htable, hcolumn]

/-- The role a field is declared to have, where `found target table id` says that `id` is the
table of the entity type `target` under the name `table`. -/
inductive HasRole (found : EntityType → String → TableId → Prop) (f : Field) : Role → Prop
  | plain : f.relation = .none → HasRole found f .plain
  | primaryKey : f.relation = .primaryKey → HasRole found f .primaryKey
  | foreignKey {table column : String} {target : EntityType} {id : TableId} :
      f.relation = .foreignKey table column → table ≠ "" → column ≠ "" →
      f.kind = .entity true target → found target table id →
      HasRole found f (.foreignKey table column id)

structure Yields (found : EntityType → String → TableId → Prop) (f : Field) (c : Column) :
    Prop where
  name : c.name = f.column
  sourceField : c.sourceField = f.name
  role : f.HasRole found c.role

variable {found found' : EntityType → String → TableId → Prop}

theorem HasRole.mono (h : ∀ target table id, found target table id → found' target table id)
    {role : Role} (hrole : f.HasRole found role) : f.HasRole found' role := by
  cases hrole with
  | plain hrelation => exact .plain hrelation
  | primaryKey hrelation => exact .primaryKey hrelation
  | foreignKey hrelation htable hcolumn hkind hfound =>
    exact .foreignKey hrelation htable hcolumn hkind (h _ _ _ hfound)

theorem Yields.mono (h : ∀ target table id, found target table id → found' target table id)
    {c : Column} (hc : f.Yields found c) : f.Yields found' c :=
  ⟨hc.name, hc.sourceField, hc.role.mono h⟩

end Field

/-! ## Walking the fields -/

namespace Table

section Role

variable {σ : Type} {entity : EntityType}
  {resolve : EntityType → String → EStateM SchemaFault σ TableId} {key : Option String} {f : Field}
  {s t : σ} {role : Role} {fault : SchemaFault}

/-- All that a field can have as its role. -/
theorem roleOf_eq_ok_iff :
    roleOf entity resolve key f s = .ok role t ↔
      (f.relation = .none ∧ .plain = role ∧ s = t) ∨
      (f.relation = .primaryKey ∧ key = none ∧ .primaryKey = role ∧ s = t) ∨
      ∃ table column target id, f.relation = .foreignKey table column ∧
        f.target entity table column = .ok target ∧ resolve target table s = .ok id t ∧
        .foreignKey table column id = role := by
  unfold roleOf
  cases hrelation : f.relation with
  | none => simp [pure_eq_ok_iff]
  | primaryKey => cases key <;> simp [pure_eq_ok_iff, throw_ne_ok]
  | foreignKey table column =>
    simp only [reduceCtorEq, false_and, false_or, Relation.foreignKey.injEq]
    constructor
    · intro h
      cases htarget : f.target entity table column with
      | error fault =>
        rw [htarget] at h
        exact absurd h throw_ne_ok
      | ok target =>
        rw [htarget] at h
        obtain ⟨id, _, hid, hpure⟩ := bind_eq_ok_iff.mp h
        obtain ⟨hrole, rfl⟩ := pure_eq_ok_iff.mp hpure
        exact ⟨table, column, target, id, ⟨rfl, rfl⟩, htarget, hid, hrole⟩
    · rintro ⟨_, _, target, id, ⟨rfl, rfl⟩, htarget, hid, rfl⟩
      rw [htarget]
      exact bind_eq_ok_iff.mpr ⟨id, t, hid, rfl⟩

/-- All ways in which a field can fail to have a role. -/
theorem roleOf_eq_error_iff :
    roleOf entity resolve key f s = .error fault t ↔
      (∃ first, f.relation = .primaryKey ∧ key = some first ∧
        .twoPrimaryKeys entity.name first f.column = fault ∧ s = t) ∨
      (∃ table column, f.relation = .foreignKey table column ∧
        f.target entity table column = .error fault ∧ s = t) ∨
      ∃ table column target, f.relation = .foreignKey table column ∧
        f.target entity table column = .ok target ∧ resolve target table s = .error fault t := by
  unfold roleOf
  cases hrelation : f.relation with
  | none => simp [pure_ne_error]
  | primaryKey => cases key <;> simp [pure_ne_error, throw_eq_error_iff]
  | foreignKey table column =>
    simp only [reduceCtorEq, false_and, exists_false, false_or, Relation.foreignKey.injEq]
    constructor
    · intro h
      cases htarget : f.target entity table column with
      | error fault' =>
        rw [htarget] at h
        obtain ⟨rfl, rfl⟩ := throw_eq_error_iff.mp h
        exact .inl ⟨table, column, ⟨rfl, rfl⟩, htarget, rfl⟩
      | ok target =>
        rw [htarget] at h
        rcases bind_eq_error_iff.mp h with hfail | ⟨_, _, _, hpure⟩
        · exact .inr ⟨table, column, target, ⟨rfl, rfl⟩, htarget, hfail⟩
        · exact absurd hpure pure_ne_error
    · rintro (⟨_, _, ⟨rfl, rfl⟩, htarget, rfl⟩ | ⟨_, _, target, ⟨rfl, rfl⟩, htarget, hfail⟩)
      · rw [htarget]
        exact throw_eq_error_iff.mpr ⟨rfl, rfl⟩
      · rw [htarget]
        exact bind_eq_error_iff.mpr (.inl hfail)

end Role

section Walk

variable {σ : Type} {entity : EntityType}
  {resolve : EntityType → String → EStateM SchemaFault σ TableId}
  (Steps Fails : σ → σ → Prop) (Found : σ → EntityType → String → TableId → Prop)

theorem roleOf_ok (refl : ∀ s, Steps s s)
    (hresolve : ∀ target name s id t,
      resolve target name s = .ok id t → Steps s t ∧ Found t target name id)
    {key : Option String} {f : Field} {s t : σ} {role : Role}
    (h : roleOf entity resolve key f s = .ok role t) : Steps s t ∧ f.HasRole (Found t) role := by
  rcases roleOf_eq_ok_iff.mp h with ⟨hrelation, rfl, rfl⟩ | ⟨hrelation, -, rfl, rfl⟩ |
    ⟨table, column, target, id, hrelation, htarget, hid, rfl⟩
  · exact ⟨refl s, .plain hrelation⟩
  · exact ⟨refl s, .primaryKey hrelation⟩
  · obtain ⟨hsteps, hfound⟩ := hresolve _ _ _ _ _ hid
    obtain ⟨htable, hcolumn, hkind⟩ := Field.target_eq_ok_iff.mp htarget
    exact ⟨hsteps, .foreignKey hrelation htable hcolumn hkind hfound⟩

theorem roleOf_error (self : ∀ s, Fails s s)
    (hresolve : ∀ target name s fault t, resolve target name s = .error fault t → Fails s t)
    {key : Option String} {f : Field} {s t : σ} {fault : SchemaFault}
    (h : roleOf entity resolve key f s = .error fault t) : Fails s t := by
  rcases roleOf_eq_error_iff.mp h with ⟨_, -, -, -, rfl⟩ | ⟨_, _, -, -, rfl⟩ | ⟨_, _, _, -, -, hid⟩
  · exact self s
  · exact self s
  · exact hresolve _ _ _ _ _ hid

/-- A walk that succeeds is made of look-ups that succeed, and yields a column for each stored
field. -/
theorem columnsOf_ok (refl : ∀ s, Steps s s)
    (trans : ∀ s t u, Steps s t → Steps t u → Steps s u)
    (mono : ∀ s t target name id, Steps s t → Found s target name id → Found t target name id)
    (hresolve : ∀ target name s id t,
      resolve target name s = .ok id t → Steps s t ∧ Found t target name id)
    {key : Option String} {fields : List Field} {s t : σ} {columns : List Column}
    (h : columnsOf entity resolve key fields s = .ok columns t) :
    Steps s t ∧ List.Forall₂ (Field.Yields (Found t)) (fields.filter Field.isStored) columns := by
  induction fields generalizing key s columns with
  | nil =>
    obtain ⟨rfl, rfl⟩ := pure_eq_ok_iff.mp h
    exact ⟨refl s, .nil⟩
  | cons f fields ih =>
    unfold columnsOf at h
    split at h
    · next hstored =>
      obtain ⟨role, u, hrole, h⟩ := bind_eq_ok_iff.mp h
      obtain ⟨rest, v, hrest, hpure⟩ := bind_eq_ok_iff.mp h
      obtain ⟨rfl, rfl⟩ := pure_eq_ok_iff.mp hpure
      obtain ⟨hsteps, hhas⟩ := roleOf_ok Steps Found refl hresolve hrole
      obtain ⟨hsteps', hyields⟩ := ih hrest
      rw [List.filter_cons_of_pos hstored]
      refine ⟨trans _ _ _ hsteps hsteps', .cons ⟨rfl, rfl, hhas.mono ?_⟩ hyields⟩
      exact fun target name id => mono _ _ target name id hsteps'
    · next hstored =>
      rw [List.filter_cons_of_neg hstored]
      exact ih h

/-- A walk that fails ends with the first look-up or field that fails. -/
theorem columnsOf_error (refl : ∀ s, Steps s s)
    (trans : ∀ s t u, Steps s t → Fails t u → Fails s u) (self : ∀ s, Fails s s)
    (hok : ∀ target name s id t,
      resolve target name s = .ok id t → Steps s t ∧ Found t target name id)
    (hresolve : ∀ target name s fault t, resolve target name s = .error fault t → Fails s t)
    {key : Option String} {fields : List Field} {s t : σ} {fault : SchemaFault}
    (h : columnsOf entity resolve key fields s = .error fault t) : Fails s t := by
  induction fields generalizing key s with
  | nil => exact absurd h pure_ne_error
  | cons f fields ih =>
    unfold columnsOf at h
    split at h
    · rcases bind_eq_error_iff.mp h with hrole | ⟨role, u, hrole, h⟩
      · exact roleOf_error Fails self hresolve hrole
      rcases bind_eq_error_iff.mp h with hrest | ⟨rest, v, -, hpure⟩
      · exact trans _ _ _ (roleOf_ok Steps Found refl hok hrole).1 (ih hrest)
      · exact absurd hpure pure_ne_error
    · exact ih h

theorem compile_eq_ok_iff {schema name : String} {fields : List Field} {s t : σ} {table : Table} :
    compile entity schema name fields resolve s = .ok table t ↔
      ∃ columns, columnsOf entity resolve none fields s = .ok columns t ∧
        ⟨schema, name, columns⟩ = table := by
  simp only [compile, bind_eq_ok_iff, pure_eq_ok_iff]
  constructor
  · rintro ⟨columns, u, hcolumns, htable, rfl⟩
    exact ⟨columns, hcolumns, htable⟩
  · rintro ⟨columns, hcolumns, htable⟩
    exact ⟨columns, t, hcolumns, htable, rfl⟩

theorem compile_eq_error_iff {schema name : String} {fields : List Field} {s t : σ}
    {fault : SchemaFault} :
    compile entity schema name fields resolve s = .error fault t ↔
      columnsOf entity resolve none fields s = .error fault t := by
  simp only [compile, bind_eq_error_iff, pure_ne_error, and_false, exists_false, or_false]

end Walk

/-! ## Names of compiled columns -/

section Compiled

variable {τ : Type} {entity : EntityType} {schema name : String} {fields : List Field}
  {resolve : EntityType → String → EStateM SchemaFault τ TableId} {s t : τ} {table : Table}

theorem columnNames_of_compile (h : compile entity schema name fields resolve s = .ok table t) :
    table.columnNames = (fields.filter Field.isStored).map Field.column := by
  obtain ⟨columns, hcolumns, rfl⟩ := compile_eq_ok_iff.mp h
  obtain ⟨-, hyields⟩ := columnsOf_ok (fun _ _ => True) (fun _ _ _ _ => True)
    (fun _ => trivial) (fun _ _ _ _ _ => trivial) (fun _ _ _ _ _ _ _ => trivial)
    (fun _ _ _ _ _ _ => ⟨trivial, trivial⟩) hcolumns
  have hnames : List.Forall₂ Eq (columns.map Column.name)
      ((fields.filter Field.isStored).map Field.column) := by
    rw [List.forall₂_map_left_iff, List.forall₂_map_right_iff]
    exact (hyields.imp fun _ _ hc => hc.name).flip
  rwa [List.forall₂_eq_eq_eq] at hnames

/-- Fields without a column are not stored, so every column has a name. -/
theorem ne_empty_of_compile (h : compile entity schema name fields resolve s = .ok table t)
    {column : String} (hcolumn : column ∈ table.columnNames) : column ≠ "" := by
  rw [columnNames_of_compile h, List.mem_map] at hcolumn
  obtain ⟨f, hf, rfl⟩ := hcolumn
  simpa [Field.isStored] using List.of_mem_filter hf

end Compiled

end Table

end TableMapper
