import TableMapper.Proofs.Catalog.Depth
import TableMapper.Proofs.Table.Draft

/-!
# Tables as their fields declare them

A table that compiles has one column for each stored field, with the names and the part that the
field declares, and its texts list these columns. A table that does not compile fails at the first
stored field that cannot have a column. Fields that are not stored make no difference, to one table
or to a whole catalog.

## Main definitions

* `Field.Declares` — a column is as a field declares it.
* `Declarations.SameStored` — declarations with the same stored fields.
-/

namespace TableMapper

/-! ## One column -/

/-- The column has the names that the field declares, and it is a key if the field is. Behind a
foreign key is a table that was resolved for the target that the field declares. -/
structure Field.Declares {σ : Type} (resolve : EntityType → String → EStateM SchemaFault σ TableId)
    (f : Field) (c : Column) : Prop where
  name : c.name = f.column
  sourceField : c.sourceField = f.name
  isPrimaryKey : c.isPrimaryKey ↔ f.relation = .primaryKey
  isForeignKey : c.isForeignKey ↔ ∃ table column, f.relation = .foreignKey table column
  foreignColumn? : ∀ column, c.foreignColumn? = some column ↔
    ∃ table, f.relation = .foreignKey table column
  foreignTableName? : ∀ table, c.foreignTableName? = some table ↔
    ∃ column, f.relation = .foreignKey table column
  not_both : ¬(c.isPrimaryKey ∧ c.isForeignKey)
  foreignId? : ∀ table column, f.relation = .foreignKey table column →
    ∃ target id s t, f.kind = .entity true target ∧ c.foreignId? = some id ∧
      resolve target table s = .ok id t

theorem Field.Yields.declares {σ : Type}
    {resolve : EntityType → String → EStateM SchemaFault σ TableId} {f : Field} {c : Column}
    (h : f.Yields (fun target table id => ∃ s t, resolve target table s = .ok id t) c) :
    f.Declares resolve c := by
  obtain ⟨name, sourceField, role⟩ := c
  obtain ⟨hname, hsource, hrole⟩ := h
  cases hrole with
  | plain hrelation =>
    constructor <;> simp_all [Column.isPrimaryKey, Column.isForeignKey, Column.foreignColumn?,
      Column.foreignTableName?]
  | primaryKey hrelation =>
    constructor <;> simp_all [Column.isPrimaryKey, Column.isForeignKey, Column.foreignColumn?,
      Column.foreignTableName?]
  | foreignKey hrelation htable hcolumn hkind hfound =>
    constructor <;> simp_all [Column.isPrimaryKey, Column.isForeignKey, Column.foreignColumn?,
      Column.foreignTableName?, Column.foreignId?]

namespace Table

variable {σ : Type} {entity : EntityType} {schema name : String} {fields fields' : List Field}
  {resolve : EntityType → String → EStateM SchemaFault σ TableId} {s t : σ} {table : Table}

/-! ## Tables that compile -/

theorem declares_of_compile (h : compile entity schema name fields resolve s = .ok table t) :
    List.Forall₂ (Field.Declares resolve) (fields.filter Field.isStored) table.columns := by
  obtain ⟨columns, hcolumns, rfl⟩ := compile_eq_ok_iff.mp h
  obtain ⟨-, hyields⟩ := columnsOf_ok (fun _ _ => True)
    (fun _ target table id => ∃ s t, resolve target table s = .ok id t) (fun _ => trivial)
    (fun _ _ _ _ _ => trivial) (fun _ _ _ _ _ _ hfound => hfound)
    (fun _ _ _ _ _ hok => ⟨trivial, _, _, hok⟩) hcolumns
  exact hyields.imp fun _ _ => Field.Yields.declares

/-- The fields of a table that compiles have no fault. -/
theorem wellDeclared_of_compile (h : compile entity schema name fields resolve s = .ok table t) :
    WellDeclared fields := by
  obtain ⟨columns, hcolumns, -⟩ := compile_eq_ok_iff.mp h
  -- The steps of a walk that succeeds are look-ups.
  let resolve' (target : EntityType) (name : String) : EStateM SchemaFault σ Unit :=
    fun s => observe id (resolve target name s)
  have hrun : observe id (columnsOf entity resolve none fields s) =
      run resolve' (stepsOf entity none fields) s :=
    observe_columnsOf id (fun _ _ _ => rfl) none fields s
  rw [hcolumns] at hrun
  obtain ⟨-, hsteps⟩ := run_ok (fun _ _ => True) (fun _ => trivial) (fun _ _ _ _ _ => trivial)
    (fun _ _ _ _ _ _ => trivial) hrun.symm
  have hfail : ∀ fault, .fail fault ∉ stepsOf entity none fields := by
    intro fault hmem
    obtain ⟨_, _, _, _, hstep, -⟩ := hsteps _ hmem
    cases hstep
  exact wellDeclared_iff.mpr hfail

theorem countP_of_declares {fields : List Field} {columns : List Column}
    (h : List.Forall₂ (Field.Declares resolve) fields columns) :
    columns.countP Column.isPrimaryKey = fields.countP (·.relation = .primaryKey) := by
  induction h with
  | nil => rfl
  | cons hc _ ih => simp [List.countP_cons, ih, hc.isPrimaryKey]

/-- If at most one element has a property, the first one that has it is the only one. -/
theorem find?_eq_some_iff_of_countP_le_one {α : Type} {p : α → Bool} {l : List α} {a : α}
    (h : l.countP p ≤ 1) : l.find? p = some a ↔ a ∈ l ∧ p a := by
  refine ⟨fun hfind => ⟨List.mem_of_find?_eq_some hfind, List.find?_some hfind⟩, ?_⟩
  rintro ⟨ha, hp⟩
  rw [List.countP_eq_length_filter] at h
  have hmem : a ∈ l.filter p := List.mem_filter.mpr ⟨ha, hp⟩
  rw [← List.head?_filter]
  cases hfilter : l.filter p with
  | nil => simp [hfilter] at hmem
  | cons b rest => simp_all

theorem compile_congr_stored (h : fields'.filter Field.isStored = fields.filter Field.isStored) :
    compile entity schema name fields' resolve = compile entity schema name fields resolve := by
  rw [compile, compile, ← columnsOf_filter none fields', h, columnsOf_filter]

end Table

namespace Declarations

variable {declared declared' : Declarations}

/-! ## Fields that are not stored -/

/-- Every entity type has the same stored fields in both declarations. -/
def SameStored (declared declared' : Declarations) : Prop :=
  ∀ entity, (declared.fields entity).filter Field.isStored =
    (declared'.fields entity).filter Field.isStored

theorem SameStored.reaches_eq (h : SameStored declared declared') :
    declared.Reaches = declared'.Reaches := by
  have hsuccessors : declared.successors = declared'.successors := by
    funext key
    rw [successors, h, successors]
  rw [Reaches, hsuccessors, Reaches]

end Declarations

namespace Catalog

variable {declared declared' : Declarations}

theorem compile_of_sameStored (h : declared.SameStored declared') (depth : Nat) :
    compile declared depth = compile declared' depth := by
  induction depth with
  | zero =>
    funext key p
    cases hslot : p.catalog.slot? key with
    | some slot => rw [compile_of_slot? hslot, compile_of_slot? hslot]
    | none => rw [compile_zero hslot, compile_zero hslot]
  | succ depth ih =>
    funext key p
    cases hslot : p.catalog.slot? key with
    | some slot => rw [compile_of_slot? hslot, compile_of_slot? hslot]
    | none =>
      have htable : compileTable declared depth key = compileTable declared' depth key := by
        rw [compileTable, ih, Table.compile_congr_stored (h key.entity), compileTable]
      rw [compile_succ hslot, compile_succ hslot, htable]

/-- A call ends alike under declarations with the same stored fields. -/
theorem resolve_of_sameStored (h : declared.SameStored declared') (c : Catalog) (key : Key) :
    c.resolve declared key = c.resolve declared' key := by
  have hdepth : {k | declared'.Reaches key k}.ncard ≤ depthBound declared := by
    rw [← h.reaches_eq]
    exact declared.ncard_reaches_le_depthBound key
  unfold Catalog.resolve
  rw [compile_of_sameStored h, compile_of_ncard_reaches_le hdepth]

end Catalog

namespace Table

variable {σ : Type}

/-- A table that compiles has one column for each stored field, in order, as the field declares it.
At most one of them is a primary key; the loop that collects the columns ends with its position.
Texts list the columns in order. Compilation fails exactly at the first stored field that is at
fault or whose target does not compile, after a table of the fields before it would compile. Fields
that are not stored change nothing, for one table or for the calls of a catalog. -/
theorem compiles_as_declared (entity : EntityType) (schema name : String) (fields : List Field)
    (resolve : EntityType → String → EStateM SchemaFault σ TableId) (s : σ) :
    (∀ table t, compile entity schema name fields resolve s = .ok table t →
      (table.schema = schema ∧ table.name = name ∧
        List.Forall₂ (Field.Declares resolve) (fields.filter Field.isStored) table.columns) ∧
      table.columns.countP Column.isPrimaryKey ≤ 1 ∧
      (∀ column, table.primaryKey? = some column ↔
        column ∈ table.columns ∧ column.isPrimaryKey) ∧
      (∃ index, fields.foldlM (Draft.add entity resolve) Draft.empty s =
          .ok ⟨table.columns, index⟩ t ∧
        table.primaryKey? = index.bind (table.columns[·]?) ∧
        ∀ i ∈ index, i < table.columns.length) ∧
      let names := (fields.filter Field.isStored).map Field.column
      table.insertTemplate = "INSERT INTO " ++ (schema ++ "." ++ name) ++ " (" ++
          ", ".intercalate names ++ ") VALUES (" ++ ", ".intercalate (names.map (":" ++ ·)) ++ ")" ∧
        table.selectText = "SELECT " ++ ", ".intercalate names ++ " FROM " ++
          (schema ++ "." ++ name)) ∧
    (∀ fault t, compile entity schema name fields resolve s = .error fault t ↔
      ∃ before f after table u, fields.filter Field.isStored = before ++ f :: after ∧
        compile entity schema name before resolve s = .ok table u ∧
        f.Fails entity resolve before u fault t) ∧
    (∀ fields', fields'.filter Field.isStored = fields.filter Field.isStored →
      compile entity schema name fields' resolve = compile entity schema name fields resolve) ∧
    ∀ declared declared' : Declarations, declared.SameStored declared' →
      ∀ (c : Catalog) (key : Key), c.resolve declared key = c.resolve declared' key := by
  refine ⟨fun table t hok => ?_, fun fault t => ?_, fun fields' => compile_congr_stored,
    fun declared declared' hsame c key => Catalog.resolve_of_sameStored hsame c key⟩
  · have hdeclares := declares_of_compile hok
    have hcount : table.columns.countP Column.isPrimaryKey ≤ 1 := by
      rw [countP_of_declares hdeclares]
      exact (wellDeclared_of_compile hok).primaryKeys
    have hnames := columnNames_of_compile hok
    obtain ⟨columns, hcolumns, rfl⟩ := compile_eq_ok_iff.mp hok
    refine ⟨⟨rfl, rfl, hdeclares⟩, hcount,
      fun column => find?_eq_some_iff_of_countP_le_one hcount, ?_, ?_, ?_⟩
    · refine ⟨columns.findIdx? Column.isPrimaryKey, ?_, ?_, ?_⟩
      · rw [show Draft.empty = Draft.ofColumns [] from rfl, Draft.foldlM_add]
        exact bind_eq_ok_iff.mpr ⟨columns, t, hcolumns, rfl⟩
      · exact List.find?_eq_bind_findIdx?_getElem?
      · intro i hi
        exact (List.findIdx?_eq_some_iff_getElem.mp hi).1
    · rw [← hnames]
      rfl
    · rw [← hnames]
      rfl
  · have hkey : none = (Field.key? []).map Field.column := rfl
    rw [compile_eq_error_iff, columnsOf_eq_error_iff hkey]
    simp only [compile_eq_ok_iff, List.nil_append]
    constructor
    · rintro ⟨before, f, after, columns, u, hsplit, hbefore, hf⟩
      exact ⟨before, f, after, _, u, hsplit, ⟨columns, hbefore, rfl⟩, hf⟩
    · rintro ⟨before, f, after, _, u, hsplit, ⟨columns, hbefore, -⟩, hf⟩
      exact ⟨before, f, after, columns, u, hsplit, hbefore, hf⟩

/-- An item has a place, and behind it a key; a foreign key to nowhere and another key are not
stored. With a second key stored it does not compile, and the foreign key at fault behind it does
not matter. -/
theorem compiles_as_declared_items :
    let item : EntityType := ⟨0, "Item"⟩
    let shelf : EntityType := ⟨1, "Shelf"⟩
    let resolve (_ : EntityType) (_ : String) : EStateM SchemaFault Nat TableId :=
      fun n => .ok n (n + 1)
    let nowhere := (Field.transient "nowhere").foreignKey "" ""
    let other := (Field.transient "other").primaryKey
    let place := ((Field.stored "place" "shelf_id").foreignKey "shelf" "id").optionalEntity shelf
    let id := (Field.stored "id" "item_id").primaryKey
    let serial := (Field.stored "serial" "serial").primaryKey
    let broken := (Field.stored "broken" "broken_id").foreignKey "shelf" ""
    let fields := [nowhere, place, other, id]
    let key : Column := ⟨"item_id", "id", .primaryKey⟩
    let table : Table := ⟨"app", "item", [⟨"shelf_id", "place", .foreignKey "shelf" "id" 7⟩, key]⟩
    let declared : Declarations := ⟨[(item, fields)]⟩
    let declared' : Declarations := ⟨[(item, [place, id])]⟩
    compile item "app" "item" fields resolve 7 = .ok table 8 ∧
    List.Forall₂ (Field.Declares resolve) [place, id] table.columns ∧
    table.columns.countP Column.isPrimaryKey ≤ 1 ∧
    table.primaryKey? = some key ∧
    (∃ index, fields.foldlM (Draft.add item resolve) Draft.empty 7 = .ok ⟨table.columns, index⟩ 8 ∧
      table.primaryKey? = index.bind (table.columns[·]?)) ∧
    compile item "app" "item" [place, id] resolve = compile item "app" "item" fields resolve ∧
    compile item "app" "item" [place, other, id, nowhere, serial, broken] resolve 7 =
      .error (.twoPrimaryKeys "Item" "item_id" "serial") 8 ∧
    declared.SameStored declared' ∧ Catalog.empty.resolve declared ⟨item, "app", "item"⟩ =
      Catalog.empty.resolve declared' ⟨item, "app", "item"⟩ := by
  intro item shelf resolve nowhere other place id serial broken fields key table declared declared'
  obtain ⟨htable, -, hstored, hcatalog⟩ := compiles_as_declared item "app" "item" fields resolve 7
  obtain ⟨-, hfails, -⟩ := compiles_as_declared item "app" "item"
    [place, other, id, nowhere, serial, broken] resolve 7
  have hok : compile item "app" "item" fields resolve 7 = .ok table 8 := rfl
  obtain ⟨⟨-, -, hdeclares⟩, hcount, hkey, ⟨index, hloop, hindex, -⟩, -⟩ := htable table 8 hok
  have hsame : declared.SameStored declared' := by
    intro entity
    by_cases hentity : item = entity
    · subst hentity
      rfl
    · simp [Declarations.fields, declared, declared', hentity]
  refine ⟨hok, hdeclares, hcount, (hkey key).mpr ⟨.tail _ (.head _), rfl⟩, ⟨index, hloop, hindex⟩,
    hstored [place, id] rfl, ?_, hsame, hcatalog declared declared' hsame _ _⟩
  have hsecond : serial.Offends item [place, id]
      (.twoPrimaryKeys item.name id.column serial.column) := .secondKey rfl rfl
  exact (hfails _ _).mpr ⟨[place, id], serial, [broken], table, 8, rfl, rfl, .own hsecond⟩

end Table

end TableMapper
