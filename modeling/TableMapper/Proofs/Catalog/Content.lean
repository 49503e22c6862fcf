import TableMapper.Proofs.Catalog.Search
import TableMapper.Proofs.Catalog.Stable

/-!
# What a table shows

Tables of different catalogs have identities of their own, but their columns, their statement texts
and the names their foreign keys refer to can be compared, and so can the tables found by following
foreign keys. Declarations fix all of that for a key, so two catalogs that were filled under the
same declarations show the same.

## Main definitions

* `Column.view`, `Table.view` — what a column and a table show.
* `Catalog.follow` — the table at the end of a path of foreign keys.
* `Catalog.SameContent` — two tables show the same along every path.
* `Catalog.Reflects` — a catalog whose tables are all as declared.
-/

namespace TableMapper

/-! ## Views -/

/-- All that a column shows but the identity of the table it refers to. -/
structure Column.View where
  name : String
  sourceField : String
  isPrimaryKey : Bool
  isForeignKey : Bool
  foreignColumn? : Option String
  foreignTableName? : Option String

def Column.view (c : Column) : Column.View :=
  ⟨c.name, c.sourceField, c.isPrimaryKey, c.isForeignKey, c.foreignColumn?, c.foreignTableName?⟩

/-- All that a table shows but the identities of the tables it refers to. -/
structure Table.View where
  schema : String
  name : String
  columns : List Column.View
  primaryKey? : Option Column.View
  insertTemplate : String
  selectText : String
  updateText : String
  deleteText : String

def Table.view (t : Table) : Table.View where
  schema := t.schema
  name := t.name
  columns := t.columns.map Column.view
  primaryKey? := t.primaryKey?.map Column.view
  insertTemplate := t.insertTemplate
  selectText := t.selectText
  updateText := t.updateText
  deleteText := t.deleteText

/-- Tables show the same when they have one name and their columns show the same. -/
theorem Table.view_congr {t t' : Table} (hschema : t.schema = t'.schema) (hname : t.name = t'.name)
    (hcolumns : t.columns.map Column.view = t'.columns.map Column.view) : t.view = t'.view := by
  have hqualified : t.qualifiedName = t'.qualifiedName := by
    rw [qualifiedName, qualifiedName, hschema, hname]
  have hnames : t.columnNames = t'.columnNames := by
    have h := congrArg (List.map Column.View.name) hcolumns
    rwa [List.map_map, List.map_map] at h
  have hprimary : t.primaryKey?.map Column.view = t'.primaryKey?.map Column.view := by
    have h := congrArg (List.find? Column.View.isPrimaryKey) hcolumns
    rwa [List.find?_map, List.find?_map] at h
  have hinsert : t.insertTemplate = t'.insertTemplate := by
    have htext (t : Table) : t.insertTemplate = "INSERT INTO " ++ t.qualifiedName ++ " (" ++
        ", ".intercalate t.columnNames ++ ") VALUES (" ++
          ", ".intercalate (t.columnNames.map (":" ++ ·)) ++ ")" := rfl
    rw [htext, htext, hqualified, hnames]
  have hselect : t.selectText = t'.selectText := by
    rw [selectText, selectText, hqualified, hnames]
  have hupdate : t.updateText = t'.updateText := by
    rw [updateText, updateText, hqualified]
  have hdelete : t.deleteText = t'.deleteText := by
    rw [deleteText, deleteText, hqualified]
  rw [view, view, hschema, hname, hcolumns, hprimary, hinsert, hselect, hupdate, hdelete]

/-- What the column of a field shows. -/
def Field.view (f : Field) : Column.View :=
  match f.relation with
  | .none => ⟨f.column, f.name, false, false, none, none⟩
  | .primaryKey => ⟨f.column, f.name, true, false, none, none⟩
  | .foreignKey table column => ⟨f.column, f.name, false, true, some column, some table⟩

theorem Field.Yields.view_eq {found : EntityType → String → TableId → Prop} {f : Field} {c : Column}
    (h : f.Yields found c) : c.view = f.view := by
  obtain ⟨name, sourceField, role⟩ := c
  obtain ⟨rfl, rfl, hrole⟩ := h
  unfold Field.view
  cases hrole with
  | plain hrelation => rw [hrelation]; rfl
  | primaryKey hrelation => rw [hrelation]; rfl
  | foreignKey hrelation => rw [hrelation]; rfl

namespace Catalog

variable {declared : Declarations} {c c' : Catalog} {key : Key} {compiled compiled' : Compiled}

/-! ## Following foreign keys -/

/-- The table that the column at position `i` refers to. -/
def next? (c : Catalog) (compiled : Compiled) (i : Nat) : Option Compiled :=
  compiled.table.columns[i]? >>= Column.foreignTable? (some c)

/-- The table at the end of a path of foreign keys, each given by the position of its column. -/
def follow (c : Catalog) : Compiled → List Nat → Option Compiled
  | compiled, [] => some compiled
  | compiled, i :: path => c.next? compiled i >>= fun next => c.follow next path

/-- Along every path of foreign keys the two tables lead to tables that show the same. -/
def SameContent (c : Catalog) (compiled : Compiled) (c' : Catalog) (compiled' : Compiled) : Prop :=
  ∀ path,
    (c.follow compiled path).map (·.table.view) = (c'.follow compiled' path).map (·.table.view)

/-! ## Tables as declared -/

/-- A sound catalog with no table but those that `declared` describes. -/
structure Reflects (declared : Declarations) (c : Catalog) : Prop where
  sound : c.Sound
  describes : ∀ slot ∈ c.slots, ∃ table, slot.table = some table ∧
    Describes declared c slot.key table

theorem Reflects.describes_of_holds (h : Reflects declared c) (hholds : c.Holds key compiled) :
    Describes declared c key compiled.table := by
  obtain ⟨slot, hslot, rfl, hcompiled⟩ := hholds
  obtain ⟨table, htable, hdescribes⟩ := h.describes slot hslot
  rw [Slot.compiled?, htable] at hcompiled
  cases hcompiled
  exact hdescribes

theorem Describes.view_eq {table table' : Table} (h : Describes declared c key table)
    (h' : Describes declared c' key table') : table.view = table'.view := by
  have hview {c : Catalog} {table : Table} (h : Describes declared c key table) :
      table.columns.map Column.view =
        ((declared.fields key.entity).filter Field.isStored).map Field.view := by
    symm
    rw [← List.forall₂_eq_eq_eq, List.forall₂_map_left_iff, List.forall₂_map_right_iff]
    exact h.columns.imp fun _ _ hyields => hyields.view_eq.symm
  exact Table.view_congr (h.schema.trans h'.schema.symm) (h.name.trans h'.name.symm)
    ((hview h).trans (hview h').symm)

/-- The key that the stored field at position `i` refers to. -/
def target? (declared : Declarations) (key : Key) (i : Nat) : Option Key :=
  ((declared.fields key.entity).filter Field.isStored)[i]? >>= (·.referenceIn? key.schema)

/-- The column of a field leads to the table for the key that the field refers to. -/
theorem Sound.rel_foreignTable? (h : c.Sound) {schema : String} {f : Field} {column : Column}
    (hyields : f.Yields (fun target table id => c.idOf? ⟨target, schema, table⟩ = some id) column) :
    Option.Rel c.Holds (f.referenceIn? schema) (column.foreignTable? (some c)) := by
  obtain ⟨name, sourceField, role⟩ := column
  obtain ⟨rfl, rfl, hrole⟩ := hyields
  unfold Field.referenceIn?
  cases hrole with
  | plain hrelation =>
    rw [Field.reference?, hrelation]
    exact .none
  | primaryKey hrelation =>
    rw [Field.reference?, hrelation]
    exact .none
  | @foreignKey table column target id hrelation htable hcolumn hkind hfound =>
    obtain ⟨slot, hslot, rfl⟩ := Option.map_eq_some_iff.mp hfound
    obtain ⟨next, hnext, -, -, hbyId⟩ := h.compiled?_eq (mem_of_slot? hslot)
    have hreference := Field.reference?_eq_some_iff.mpr ⟨_, hrelation, htable, hcolumn, hkind⟩
    have hforeign : Column.foreignTable? (some c)
        ⟨f.column, f.name, .foreignKey table column slot.id⟩ = some next := hbyId
    rw [hreference, hforeign]
    exact .some ⟨slot, mem_of_slot? hslot, key_of_slot? hslot, hnext⟩

theorem Reflects.rel_next? (h : Reflects declared c) (hholds : c.Holds key compiled) (i : Nat) :
    Option.Rel c.Holds (target? declared key i) (c.next? compiled i) := by
  have hcolumns := (h.describes_of_holds hholds).columns
  unfold target? next?
  cases hf : ((declared.fields key.entity).filter Field.isStored)[i]? with
  | none =>
    have hcolumn : compiled.table.columns[i]? = none := by
      rw [List.getElem?_eq_none_iff] at hf ⊢
      rwa [← hcolumns.length_eq]
    rw [hcolumn]
    exact .none
  | some f =>
    obtain ⟨hi, rfl⟩ := List.getElem?_eq_some_iff.mp hf
    have hi' : i < compiled.table.columns.length := hcolumns.length_eq ▸ hi
    rw [List.getElem?_eq_getElem hi']
    exact h.sound.rel_foreignTable? (hcolumns.get hi hi')

/-- Catalogs that reflect the same declarations hold tables of the same content. -/
theorem Reflects.sameContent (h : Reflects declared c) (h' : Reflects declared c')
    (hholds : c.Holds key compiled) (hholds' : c'.Holds key compiled') :
    SameContent c compiled c' compiled' := by
  intro path
  induction path generalizing key compiled compiled' with
  | nil =>
    have hview := (h.describes_of_holds hholds).view_eq (h'.describes_of_holds hholds')
    exact congrArg some hview
  | cons i path ih =>
    -- On both sides the next table, if any, is the one for the key that the field refers to.
    have hnext := h.rel_next? hholds i
    have hnext' := h'.rel_next? hholds' i
    unfold follow
    generalize target? declared key i = target at hnext hnext'
    generalize c.next? compiled i = next at hnext ⊢
    generalize c'.next? compiled' i = next' at hnext' ⊢
    cases hnext with
    | none =>
      cases hnext'
      rfl
    | some hheld =>
      cases hnext' with
      | some hheld' => exact ih hheld hheld'

/-- After calls under fixed declarations every table is as declared. -/
theorem reflects_after (declared : Declarations) (earlier : List Key) :
    Reflects declared (empty.after (earlier.map (Call.mk declared))) where
  sound := sound_empty.after _
  describes slot hslot := by
    obtain ⟨declared', table, hunder, htable, hdescribes⟩ := describes_of_mem _ hslot
    obtain ⟨before, key, rest, hcalls, -⟩ := hunder
    have hcall : ⟨declared', key⟩ ∈ earlier.map (Call.mk declared) := by
      rw [hcalls]
      simp
    obtain ⟨key', -, hsame⟩ := List.mem_map.mp hcall
    cases hsame
    exact ⟨table, htable, hdescribes⟩

end Catalog

end TableMapper
