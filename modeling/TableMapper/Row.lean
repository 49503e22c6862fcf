import TableMapper.Error
import TableMapper.Value.Type

/-!
# Rows

The rows of a result, addressed by column name.

## Main definitions

* `ResultSet` — column names and the values of each row in column order.
* `Row` — one row; a column that is named twice keeps its last value.
* `Row.getAs`, `Row.get` — the value of a column, decoded.
-/

namespace TableMapper

structure ResultSet where
  columns : List String
  rows : List (List Value)

def ResultSet.empty : ResultSet := ⟨[], []⟩

structure Row where
  cells : List (String × Value)
  nodup_names : (cells.map (·.1)).Nodup

namespace Row

def empty : Row := ⟨[], List.nodup_nil⟩

/-- Replace the value of a column that is there already, else add the column. -/
def setCell (column : String) (value : Value) : List (String × Value) → List (String × Value)
  | [] => [(column, value)]
  | (name, old) :: cells =>
    if name = column then (name, value) :: cells else (name, old) :: setCell column value cells

theorem map_fst_setCell (column : String) (value : Value) (cells : List (String × Value)) :
    (setCell column value cells).map (·.1) =
      if column ∈ cells.map (·.1) then cells.map (·.1) else cells.map (·.1) ++ [column] := by
  induction cells with
  | nil => simp [setCell]
  | cons cell cells ih =>
    by_cases h : cell.1 = column
    · simp [setCell, h]
    · have h' : column ≠ cell.1 := fun e => h e.symm
      simp only [setCell, h, if_false, List.map_cons, ih, List.mem_cons, h', false_or]
      split <;> simp

def set (row : Row) (column : String) (value : Value) : Row where
  cells := setCell column value row.cells
  nodup_names := by
    rw [map_fst_setCell]
    split
    · exact row.nodup_names
    · next h =>
      refine List.nodup_append.mpr ⟨row.nodup_names, by simp, ?_⟩
      intro a ha b hb
      rw [List.mem_singleton.mp hb]
      exact fun e => h (e ▸ ha)

/-- Pair each column with its value. Columns without a value and values without a column are left
out. -/
def ofColumns (columns : List String) (values : List Value) : Row :=
  (columns.zip values).foldl (fun row cell => row.set cell.1 cell.2) empty

/-- The number of columns. -/
def size (row : Row) : Nat := row.cells.length

def value? (row : Row) (column : String) : Option Value :=
  (row.cells.find? (·.1 == column)).map (·.2)

theorem find?_setCell (column column' : String) (value : Value) (cells : List (String × Value)) :
    ((setCell column value cells).find? (·.1 == column')).map (·.2) =
      if column = column' then some value else (cells.find? (·.1 == column')).map (·.2) := by
  induction cells with
  | nil => by_cases h : column = column' <;> simp [setCell, h]
  | cons cell cells ih =>
    obtain ⟨name, old⟩ := cell
    by_cases h : name = column
    · by_cases h' : column = column' <;> simp [setCell, h, h']
    · by_cases h' : name = column'
      · subst h'
        simp [setCell, h, Ne.symm h]
      · simp [setCell, h, h', ih]

/-- Setting a column changes that column only. -/
theorem value?_set (row : Row) (column column' : String) (value : Value) :
    (row.set column value).value? column' =
      if column = column' then some value else row.value? column' :=
  find?_setCell column column' value row.cells

def value (row : Row) (column : String) : Except Error Value :=
  match row.value? column with
  | some v => .ok v
  | none => .error (.columnNotFound column)

/-- The value of a column as a term of `α`. -/
def getAs {α : Type} (row : Row) (d : Decoder α) (column : String) : Except Error α := do
  let v ← row.value column
  match d.decode v with
  | some x => return x
  | none => throw (.typeMismatch column d.expected v.kind)

/-- The value of a column as a term of type `t`. -/
def get (row : Row) (t : ValueType) (column : String) : Except Error t.Carrier :=
  row.getAs t.decoder column

end Row

/-- The rows of a result, in order. -/
def ResultSet.toRows (result : ResultSet) : List Row :=
  result.rows.map (Row.ofColumns result.columns)

end TableMapper
