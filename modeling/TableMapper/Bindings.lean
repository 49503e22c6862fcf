import TableMapper.Value.Basic

/-!
# Bindings

The values for one row of a statement with named parameters.

## Main definitions

* `Bindings` — names and the values bound to them, in the order they were added.
* `Bindings.push`, `Bindings.add` — bind one more name.
* `Bindings.get?` — the value bound to a name; the first binding of a name is the one that counts.
-/

namespace TableMapper

structure Bindings where
  pairs : List (String × Value)

namespace Bindings

instance : BEq Bindings := ⟨fun a b => a.pairs == b.pairs⟩

def empty : Bindings := ⟨[]⟩

def push (b : Bindings) (name : String) (value : Value) : Bindings :=
  ⟨b.pairs ++ [(name, value)]⟩

/-- Bind a name to a term of any type that has a value. -/
def add {α : Type} [ToValue α] (b : Bindings) (name : String) (x : α) : Bindings :=
  b.push name (toValue x)

def get? (b : Bindings) (name : String) : Option Value :=
  (b.pairs.find? (·.1 == name)).map (·.2)

def size (b : Bindings) : Nat := b.pairs.length

end Bindings

end TableMapper
