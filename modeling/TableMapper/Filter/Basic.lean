import TableMapper.Placeholder
import TableMapper.Statement

/-!
# Filters

A filter says which rows of a table are meant. It is rendered to the text of a WHERE clause, with
every operand bound to a placeholder. Column names are not checked: an unknown column fails when
the statement reaches the database.

## Main definitions

* `Comparison`, `Connective` — the operators and their spelling in SQL.
* `Filter` — a tree of comparisons; `Filter.eq`, `Filter.and` and their like build one.
* `Filter.isAll` — whether a filter needs no WHERE clause.
* `Filter.render` — the clause and its parameters.
-/

namespace TableMapper

inductive Comparison where
  | eq
  | notEq
  | less
  | lessEq
  | greater
  | greaterEq
  deriving DecidableEq, Repr

def Comparison.sql : Comparison → String
  | eq => "="
  | notEq => "<>"
  | less => "<"
  | lessEq => "<="
  | greater => ">"
  | greaterEq => ">="

inductive Connective where
  | and
  | or
  deriving DecidableEq, Repr

def Connective.sql : Connective → String
  | and => "AND"
  | or => "OR"

inductive Filter where
  /-- The value of `column` stands in this relation to `operand`. -/
  | compare (op : Comparison) (column : String) (operand : Value)
  | join (op : Connective) (left right : Filter)
  /-- Every row. -/
  | all

namespace Filter

/-- Filters are equal when their trees are; operands compare as values. -/
def beq : Filter → Filter → Bool
  | compare op column operand, compare op' column' operand' =>
    op == op' && column == column' && operand == operand'
  | join op left right, join op' left' right' => op == op' && beq left left' && beq right right'
  | all, all => true
  | _, _ => false

instance : BEq Filter := ⟨beq⟩

/-! ## Building -/

section Building

variable {α : Type} [ToValue α]

def eq (column : String) (x : α) : Filter := compare .eq column (toValue x)

def notEq (column : String) (x : α) : Filter := compare .notEq column (toValue x)

def less (column : String) (x : α) : Filter := compare .less column (toValue x)

def lessEq (column : String) (x : α) : Filter := compare .lessEq column (toValue x)

def greater (column : String) (x : α) : Filter := compare .greater column (toValue x)

def greaterEq (column : String) (x : α) : Filter := compare .greaterEq column (toValue x)

end Building

def and (left right : Filter) : Filter := join .and left right

def or (left right : Filter) : Filter := join .or left right

/-- Whether the filter renders to no clause at all. -/
def isAll : Filter → Bool
  | compare .. => false
  | join .and left right => left.isAll && right.isAll
  | join .or left right => left.isAll || right.isAll
  | all => true

/-! ## Rendering -/

/-- Put two rendered sides together. An empty side stands for every row: beside AND it changes
nothing, beside OR it leaves nothing to check. -/
def renderJoin (op : Connective) (left right : Statement) : Statement :=
  if left.sql.isEmpty || right.sql.isEmpty then
    match op with
    | .and => if left.sql.isEmpty then right else left
    | .or => ⟨"", []⟩
  else
    ⟨Placeholder.renumber ("(" ++ left.sql ++ ") " ++ op.sql ++ " (" ++ right.sql ++ ")"),
      left.params ++ right.params⟩

/-- The text of the WHERE clause, without the keyword, and the values bound in it. The
placeholders of every filter count from `$1`, so a clause can be embedded in any text that is
renumbered afterwards. -/
def render : Filter → Statement
  | compare op column operand => ⟨column ++ " " ++ op.sql ++ " $1", [operand]⟩
  | join op left right => renderJoin op left.render right.render
  | all => ⟨"", []⟩

end Filter

end TableMapper
