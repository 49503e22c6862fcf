import Mathlib.Data.List.Basic
import TableMapper.Row

/-!
# Cells of a row

A row is built cell by cell, and a cell that is set twice keeps what it was set to last.
-/

namespace TableMapper

namespace Row

variable {column : String} {columns : List String}

/-- Cells that are set one after the other hide those of their name in the row before. -/
theorem value?_foldl_set (cells : List (String × Value)) (row : Row) (column : String) :
    (cells.foldl (fun row cell => row.set cell.1 cell.2) row).value? column =
      ((cells.reverse.find? (·.1 == column)).map (·.2)).or (row.value? column) := by
  induction cells generalizing row with
  | nil => rfl
  | cons cell cells ih =>
    rw [List.foldl_cons, ih, value?_set, List.reverse_cons, List.find?_append]
    cases cells.reverse.find? (·.1 == column) with
    | some last => rfl
    | none => by_cases h : cell.1 = column <;> simp [h]

/-- Of the values paired with a column the last one is its value. -/
theorem value?_ofColumns (columns : List String) (values : List Value) (column : String) :
    (ofColumns columns values).value? column =
      ((columns.zip values).reverse.find? (·.1 == column)).map (·.2) := by
  rw [ofColumns, value?_foldl_set]
  exact Option.or_none

theorem find?_beq_self {names : List String} (h : column ∈ names) :
    names.find? (· == column) = some column := by
  induction names <;> grind

/-- A value for each name, whichever of its places is asked for. -/
theorem value_ofColumns_map (f : String → Value) (h : column ∈ columns) :
    (ofColumns columns (columns.map f)).value column = .ok (f column) := by
  have hfind := find?_beq_self (List.mem_reverse.mpr h)
  rw [value, value?_ofColumns, ← List.map_prod_left_eq_zip, ← List.map_reverse, List.find?_map]
  simp only [Function.comp_def, hfind, Option.map_some]

end Row

end TableMapper
