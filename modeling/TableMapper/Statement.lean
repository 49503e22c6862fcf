import TableMapper.Value.Basic

/-!
# Statements

A statement is SQL text with positional placeholders next to the values bound to them. Values are
never written into the text.

## Main definitions

* `Statement` — a text and its parameters; the `k`-th parameter is bound to `$k`.
-/

namespace TableMapper

structure Statement where
  sql : String
  params : List Value

instance : BEq Statement := ⟨fun a b => a.sql == b.sql && a.params == b.params⟩

end TableMapper
