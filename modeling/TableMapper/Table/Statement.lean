import TableMapper.Filter.Basic
import TableMapper.Table.Basic

/-!
# Statements on a table

The statements that read, change and delete the rows a filter matches. Every operand is a
parameter.

## Main definitions

* `Table.read`, `Table.update`, `Table.delete` — the statements.
-/

namespace TableMapper

namespace Table

/-- Select the rows a filter matches, at most `limit` of them, or all of them when `limit` is
zero. -/
def read (t : Table) (filter : Filter) (limit : Nat) : Statement :=
  let clause := filter.render
  let filtered :=
    if clause.sql.isEmpty then t.selectText else t.selectText ++ " WHERE " ++ clause.sql
  let limited := if limit = 0 then filtered else filtered ++ " LIMIT " ++ toString limit
  ⟨limited, clause.params⟩

/-- Add the WHERE clause of a filter to a statement and number the placeholders of the whole. -/
def restrict (statement : Statement) (filter : Filter) : Statement :=
  let clause := filter.render
  if clause.sql.isEmpty then statement
  else
    ⟨Placeholder.renumber (statement.sql ++ " WHERE " ++ clause.sql),
      statement.params ++ clause.params⟩

/-- The assignments of an update, bound from `$k` on. -/
def assignments : (k : Nat) → List (String × Value) → List String
  | _, [] => []
  | k, (column, _) :: rest => (column ++ " = $" ++ toString k) :: assignments (k + 1) rest

/-- Set columns of the rows a filter matches. At least one column has to be set. -/
def update (t : Table) (values : List (String × Value)) (filter : Filter) :
    Except Error Statement :=
  if values.isEmpty then
    .error (.invalidQuery ("update of " ++ t.qualifiedName ++ " needs at least one assignment"))
  else
    let set := ", ".intercalate (assignments 1 values)
    .ok (restrict ⟨t.updateText ++ set, values.map (·.2)⟩ filter)

/-- Delete the rows a filter matches. -/
def delete (t : Table) (filter : Filter) : Statement :=
  restrict ⟨t.deleteText, []⟩ filter

end Table

end TableMapper
