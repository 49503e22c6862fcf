import TableMapper.Proofs.Table.Steps

/-!
# Faults of fields

Four things can be wrong with a stored field, and they are looked for in a fixed order. The walk
over the fields of a table ends at the first field that is at fault itself or whose foreign key
leads to a table that does not compile, and nothing that comes behind that field matters. Fields
that are not stored are passed over.

## Main definitions

* `Field.Offends` — a stored field is at fault, given the stored fields before it.
* `Field.Fails` — a stored field ends the walk.
* `Table.Faulty` — one of several fields is at fault.
-/

namespace TableMapper

namespace Field

variable {σ : Type} {entity : EntityType} {before : List Field} {f : Field} {fault : SchemaFault}
  {table column : String}

/-- The first primary key among fields. -/
def key? (fields : List Field) : Option Field := fields.find? (·.relation = .primaryKey)

theorem key?_concat (fields : List Field) (f : Field) :
    key? (fields ++ [f]) =
      (key? fields).or (if f.relation = .primaryKey then some f else none) := by
  by_cases h : f.relation = .primaryKey <;> simp [key?, List.find?_append, h]

/-- The field is a second primary key, or a foreign key without a target table, else without a
target column, else without an optional entity. -/
inductive Offends (entity : EntityType) (before : List Field) (f : Field) : SchemaFault → Prop
  | secondKey {first : Field} : f.relation = .primaryKey → key? before = some first →
      Offends entity before f (.twoPrimaryKeys entity.name first.column f.column)
  | noTargetTable {column : String} : f.relation = .foreignKey "" column →
      Offends entity before f (.noTargetTable entity.name f.name)
  | noTargetColumn {table : String} : f.relation = .foreignKey table "" → table ≠ "" →
      Offends entity before f (.noTargetColumn entity.name f.name)
  | notOptional {table column : String} : f.relation = .foreignKey table column → table ≠ "" →
      column ≠ "" → (∀ target, f.kind ≠ .entity true target) →
      Offends entity before f (.notOptionalEntity entity.name f.name)

theorem Offends.ne_notCompiled (h : f.Offends entity before fault) (name : String) :
    fault ≠ .notCompiled name := by
  cases h <;> simp

/-- In the state `s` the walk ends at the field, with the given fault and state: the field is at
fault, or the table that it refers to does not compile. -/
inductive Fails (entity : EntityType)
    (resolve : EntityType → String → EStateM SchemaFault σ TableId) (before : List Field)
    (f : Field) (s : σ) : SchemaFault → σ → Prop
  | own {fault : SchemaFault} : f.Offends entity before fault →
      Fails entity resolve before f s fault s
  | reference {target : EntityType} {name : String} {fault : SchemaFault} {t : σ} :
      f.reference? = some (target, name) → resolve target name s = .error fault t →
      Fails entity resolve before f s fault t

theorem offends_iff_of_foreignKey (hrelation : f.relation = .foreignKey table column) :
    f.Offends entity before fault ↔ f.target entity table column = .error fault := by
  simp only [Field.target, String.isEmpty_iff]
  constructor
  · rintro (⟨h⟩ | ⟨h⟩ | ⟨h⟩ | ⟨h⟩) <;> grind
  · intro h
    split at h
    · next htable =>
      cases h
      exact .noTargetTable (htable ▸ hrelation)
    · next htable =>
      split at h
      · next hcolumn =>
        cases h
        exact .noTargetColumn (hcolumn ▸ hrelation) htable
      · next hcolumn =>
        split at h
        · cases h
        · next hkind =>
          cases h
          exact .notOptional hrelation htable hcolumn hkind

end Field

namespace Table

variable {σ : Type} {entity : EntityType}
  {resolve : EntityType → String → EStateM SchemaFault σ TableId} {key : Option String}
  {earlier fields : List Field} {f : Field} {s t : σ} {fault : SchemaFault}
  {role : Role}

/-! ## Failing at a field -/

/-- The walk ends at a field when its role is not found. -/
theorem roleOf_eq_error_iff_fails (hkey : key = (Field.key? earlier).map Field.column) :
    roleOf entity resolve key f s = .error fault t ↔ f.Fails entity resolve earlier s fault t := by
  rw [roleOf_eq_error_iff]
  constructor
  · rintro (⟨_, hrelation, hsome, rfl, rfl⟩ | ⟨_, _, hrelation, htarget, rfl⟩ |
      ⟨_, _, _, hrelation, htarget, hfail⟩)
    · obtain ⟨first, hfirst, rfl⟩ := Option.map_eq_some_iff.mp (hkey.symm.trans hsome)
      exact .own (.secondKey hrelation hfirst)
    · exact .own ((Field.offends_iff_of_foreignKey hrelation).mpr htarget)
    · exact .reference (Field.reference?_of_target hrelation htarget) hfail
  · rintro (hf | ⟨hreference, hfail⟩)
    · have hforeign {table column : String} (hrelation : f.relation = .foreignKey table column) :
          ∃ table column, f.relation = .foreignKey table column ∧
            f.target entity table column = .error fault ∧ s = s :=
        ⟨table, column, hrelation, (Field.offends_iff_of_foreignKey hrelation).mp hf, rfl⟩
      cases hf with
      | secondKey hrelation hfirst =>
        exact .inl ⟨_, hrelation, by rw [hkey, hfirst, Option.map_some], rfl, rfl⟩
      | noTargetTable hrelation => exact .inr (.inl (hforeign hrelation))
      | noTargetColumn hrelation => exact .inr (.inl (hforeign hrelation))
      | notOptional hrelation => exact .inr (.inl (hforeign hrelation))
    · obtain ⟨column, hrelation, hdeclared⟩ := Field.reference?_eq_some_iff.mp hreference
      exact .inr (.inr ⟨_, column, _, hrelation, Field.target_eq_ok_iff.mpr hdeclared, hfail⟩)

/-- The primary key is the first among the fields so far, the one just passed included. -/
theorem key_of_roleOf (hkey : key = (Field.key? earlier).map Field.column)
    (h : roleOf entity resolve key f s = .ok role t) :
    (if role = .primaryKey then some f.column else key) =
      (Field.key? (earlier ++ [f])).map Field.column := by
  rw [Field.key?_concat]
  rcases roleOf_eq_ok_iff.mp h with ⟨hrelation, rfl, -⟩ | ⟨hrelation, rfl, rfl, -⟩ |
    ⟨_, _, _, _, hrelation, -, -, rfl⟩
  · simp [hrelation, hkey]
  · simp [hrelation, Option.map_eq_none_iff.mp hkey.symm]
  · simp [hrelation, hkey]

/-! ## The walk -/

theorem columnsOf_of_not_stored (h : f.isStored = false) :
    columnsOf entity resolve key (f :: fields) = columnsOf entity resolve key fields := by
  rw [columnsOf, if_neg (by simp [h])]

theorem columnsOf_cons_eq_ok_iff (h : f.isStored) {columns : List Column} :
    columnsOf entity resolve key (f :: fields) s = .ok columns t ↔
      ∃ role u rest, roleOf entity resolve key f s = .ok role u ∧
        columnsOf entity resolve (if role = .primaryKey then some f.column else key) fields u =
          .ok rest t ∧ ⟨f.column, f.name, role⟩ :: rest = columns := by
  rw [columnsOf, if_pos h]
  simp only [bind_eq_ok_iff, pure_eq_ok_iff]
  grind

theorem columnsOf_cons_eq_error_iff (h : f.isStored) :
    columnsOf entity resolve key (f :: fields) s = .error fault t ↔
      roleOf entity resolve key f s = .error fault t ∨
      ∃ role u, roleOf entity resolve key f s = .ok role u ∧
        columnsOf entity resolve (if role = .primaryKey then some f.column else key) fields u =
          .error fault t := by
  rw [columnsOf, if_pos h]
  simp only [bind_eq_error_iff, pure_ne_error, and_false, exists_false, or_false]

/-- Fields that are not stored make no difference. -/
theorem columnsOf_filter (key : Option String) (fields : List Field) :
    columnsOf entity resolve key (fields.filter Field.isStored) =
      columnsOf entity resolve key fields := by
  induction fields generalizing key with
  | nil => rfl
  | cons f fields ih =>
    by_cases h : f.isStored
    · rw [List.filter_cons_of_pos h, columnsOf, columnsOf]
      simp only [ih]
    · rw [List.filter_cons_of_neg h, columnsOf_of_not_stored (by simpa using h), ih]

/-- The walk fails at the first stored field that fails: the fields before it have columns. -/
theorem columnsOf_eq_error_iff (hkey : key = (Field.key? earlier).map Field.column) :
    columnsOf entity resolve key fields s = .error fault t ↔
      ∃ before f after columns u, fields.filter Field.isStored = before ++ f :: after ∧
        columnsOf entity resolve key before s = .ok columns u ∧
        f.Fails entity resolve (earlier ++ before) u fault t := by
  induction fields generalizing key earlier s with
  | nil =>
    refine iff_of_false pure_ne_error ?_
    rintro ⟨before, f, after, _, _, hsplit, -⟩
    simp at hsplit
  | cons g fields ih =>
    by_cases hg : g.isStored
    · rw [columnsOf_cons_eq_error_iff hg, List.filter_cons_of_pos hg]
      constructor
      · rintro (hrole | ⟨role, u, hrole, hrest⟩)
        · refine ⟨[], g, _, [], s, rfl, rfl, ?_⟩
          rw [List.append_nil]
          exact (roleOf_eq_error_iff_fails hkey).mp hrole
        · obtain ⟨before, f, after, columns, v, hsplit, hbefore, hf⟩ :=
            (ih (key_of_roleOf hkey hrole)).mp hrest
          refine ⟨g :: before, f, after, _, v, by rw [hsplit, List.cons_append],
            (columnsOf_cons_eq_ok_iff hg).mpr ⟨role, u, columns, hrole, hbefore, rfl⟩, ?_⟩
          rwa [List.append_assoc] at hf
      · rintro ⟨before, f, after, columns, v, hsplit, hbefore, hf⟩
        cases before with
        | nil =>
          obtain ⟨rfl, -⟩ := List.cons.inj hsplit
          obtain ⟨-, rfl⟩ := pure_eq_ok_iff.mp hbefore
          rw [List.append_nil] at hf
          exact .inl ((roleOf_eq_error_iff_fails hkey).mpr hf)
        | cons g' before =>
          rw [List.cons_append] at hsplit
          obtain ⟨rfl, htail⟩ := List.cons.inj hsplit
          obtain ⟨role, u, rest, hrole, hrest, -⟩ := (columnsOf_cons_eq_ok_iff hg).mp hbefore
          refine .inr ⟨role, u, hrole, (ih (key_of_roleOf hkey hrole)).mpr ?_⟩
          refine ⟨before, f, after, rest, v, htail, hrest, ?_⟩
          rwa [List.append_assoc]
    · rw [columnsOf_of_not_stored (by simpa using hg), List.filter_cons_of_neg hg]
      exact ih hkey

/-! ## Faults of tables -/

/-- A stored field is at fault after the stored fields before it, `earlier` among them. -/
def Faulty (entity : EntityType) (earlier fields : List Field) (fault : SchemaFault) : Prop :=
  ∃ before f after, fields.filter Field.isStored = before ++ f :: after ∧
    f.Offends entity (earlier ++ before) fault

theorem Faulty.head (hstored : f.isStored) (h : f.Offends entity earlier fault) :
    Faulty entity earlier (f :: fields) fault :=
  ⟨[], f, _, List.filter_cons_of_pos hstored, by rwa [List.append_nil]⟩

theorem Faulty.cons (hstored : f.isStored) (h : Faulty entity (earlier ++ [f]) fields fault) :
    Faulty entity earlier (f :: fields) fault := by
  obtain ⟨before, g, after, hsplit, hg⟩ := h
  refine ⟨f :: before, g, after, by rw [List.filter_cons_of_pos hstored, hsplit]; rfl, ?_⟩
  rwa [List.append_assoc] at hg

/-- Every fault that the walk can end at is that of a stored field. -/
theorem faulty_of_fail_mem (h : .fail fault ∈ stepsOf entity key fields)
    (hkey : key = (Field.key? earlier).map Field.column) : Faulty entity earlier fields fault := by
  fun_induction stepsOf entity key fields generalizing earlier with
  | case1 => cases h
  | case2 key f fields hstored hrelation ih =>
    refine .cons hstored (ih h ?_)
    simp [Field.key?_concat, hrelation, hkey]
  | case3 f fields hstored hrelation first =>
    obtain ⟨key, hfirst, rfl⟩ := Option.map_eq_some_iff.mp hkey.symm
    obtain rfl : fault = _ := by simpa using h
    exact .head hstored (.secondKey hrelation hfirst)
  | case4 f fields hstored hrelation ih =>
    refine .cons hstored (ih h ?_)
    simp [Field.key?_concat, hrelation, Option.map_eq_none_iff.mp hkey.symm]
  | case5 key f fields hstored table column hrelation fault' htarget =>
    obtain rfl : fault = fault' := by simpa using h
    exact .head hstored ((Field.offends_iff_of_foreignKey hrelation).mpr htarget)
  | case6 key f fields hstored table column hrelation target htarget ih =>
    refine .cons hstored (ih (by simpa using h) ?_)
    simp [Field.key?_concat, hrelation, hkey]
  | case7 key f fields hstored ih =>
    rw [Faulty, List.filter_cons_of_neg hstored]
    exact ih h hkey

theorem Faulty.ne_notCompiled (h : Faulty entity earlier fields fault) (name : String) :
    fault ≠ .notCompiled name := by
  obtain ⟨_, _, _, -, hf⟩ := h
  exact hf.ne_notCompiled name

end Table

end TableMapper
