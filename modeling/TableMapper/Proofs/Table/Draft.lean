import TableMapper.Proofs.Table.Faults

/-!
# Drafts of tables

The columns of a table can also be put together in a loop over its fields that appends each column
and keeps the position of the primary key. The loop skips a field without moving the position, so
the position it ends with is where the primary key stands in the table.

## Main definitions

* `Table.Draft` — columns so far, and the position of the primary key among them.
* `Table.Draft.add` — the loop body.
-/

namespace TableMapper

namespace Table

structure Draft where
  columns : List Column
  keyIndex : Option Nat

namespace Draft

variable {σ : Type} {entity : EntityType}
  {resolve : EntityType → String → EStateM SchemaFault σ TableId}

def empty : Draft := ⟨[], none⟩

/-- Append the column of a field, if the field is stored. -/
def add (entity : EntityType) (resolve : EntityType → String → EStateM SchemaFault σ TableId)
    (d : Draft) (f : Field) : EStateM SchemaFault σ Draft :=
  if f.isStored then
    match f.relation with
    | .none => return { d with columns := d.columns ++ [⟨f.column, f.name, .plain⟩] }
    | .primaryKey =>
      match d.keyIndex with
      | some i =>
        let first := (d.columns[i]?.map Column.name).getD ""
        throw (.twoPrimaryKeys entity.name first f.column)
      | none => return ⟨d.columns ++ [⟨f.column, f.name, .primaryKey⟩], some d.columns.length⟩
    | .foreignKey table column =>
      match f.target entity table column with
      | .error fault => throw fault
      | .ok target => do
        let id ← resolve target table
        return { d with columns := d.columns ++ [⟨f.column, f.name, .foreignKey table column id⟩] }
  else return d

/-- The draft of the given columns. -/
def ofColumns (columns : List Column) : Draft := ⟨columns, columns.findIdx? Column.isPrimaryKey⟩

/-- The name of the primary key among columns. -/
def keyName? (columns : List Column) : Option String :=
  (columns.find? Column.isPrimaryKey).map Column.name

theorem ofColumns_concat (columns : List Column) (c : Column) :
    ofColumns (columns ++ [c]) = ⟨columns ++ [c],
      (columns.findIdx? Column.isPrimaryKey).or
        (if c.isPrimaryKey then some columns.length else none)⟩ := by
  rw [ofColumns, List.findIdx?_append]
  by_cases h : c.isPrimaryKey <;> simp [h]

/-- The loop body finds the role of a stored field and appends the column. -/
theorem add_ofColumns (columns : List Column) (f : Field) (h : f.isStored) :
    add entity resolve (ofColumns columns) f = do
      let role ← roleOf entity resolve (keyName? columns) f
      return ofColumns (columns ++ [⟨f.column, f.name, role⟩]) := by
  rw [add, if_pos h]
  unfold roleOf
  simp only [ofColumns_concat]
  cases hrelation : f.relation with
  | none => simp [Column.isPrimaryKey, ofColumns]
  | primaryKey =>
    have hfind : columns.find? Column.isPrimaryKey =
        (columns.findIdx? Column.isPrimaryKey).bind (columns[·]?) :=
      List.find?_eq_bind_findIdx?_getElem?
    cases hindex : columns.findIdx? Column.isPrimaryKey with
    | none => simp [Column.isPrimaryKey, ofColumns, keyName?, hfind, hindex]
    | some i =>
      obtain ⟨hi, -⟩ := List.findIdx?_eq_some_iff_getElem.mp hindex
      rw [keyName?, hfind, hindex, Option.bind_some, List.getElem?_eq_getElem hi]
      simp only [ofColumns, hindex, List.getElem?_eq_getElem hi]
      rfl
  | foreignKey table column =>
    simp only
    cases f.target entity table column with
    | error fault => rfl
    | ok target => simp [Column.isPrimaryKey, ofColumns]

theorem keyName?_concat (columns : List Column) (c : Column) :
    keyName? (columns ++ [c]) =
      (keyName? columns).or (if c.isPrimaryKey then some c.name else none) := by
  by_cases h : c.isPrimaryKey <;> simp [keyName?, List.find?_append, h]

/-- The loop appends the columns of the fields to those it starts from. -/
theorem foldlM_add (columns : List Column) (fields : List Field) :
    fields.foldlM (add entity resolve) (ofColumns columns) = do
      let more ← columnsOf entity resolve (keyName? columns) fields
      return ofColumns (columns ++ more) := by
  induction fields generalizing columns with
  | nil => simp [columnsOf]
  | cons f fields ih =>
    rw [List.foldlM_cons]
    by_cases h : f.isStored
    · rw [add_ofColumns columns f h, columnsOf, if_pos h]
      funext s
      simp only [bind_assoc, pure_bind, ih, keyName?_concat]
      refine bind_congr_at rfl fun role t hrole => ?_
      have hkey : (keyName? columns).or
          (if Column.isPrimaryKey ⟨f.column, f.name, role⟩ then some f.column else none) =
          if role = .primaryKey then some f.column else keyName? columns := by
        rcases roleOf_eq_ok_iff.mp hrole with ⟨-, rfl, -⟩ | ⟨-, hnone, rfl, -⟩ |
          ⟨_, _, _, _, -, -, -, rfl⟩
        · simp [Column.isPrimaryKey]
        · simp [Column.isPrimaryKey, hnone]
        · simp [Column.isPrimaryKey]
      simp [hkey]
    · rw [add, if_neg h, pure_bind, ih, columnsOf, if_neg h]

end Draft

end Table

end TableMapper
