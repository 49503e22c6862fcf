/-!
# Positional placeholders

A positional placeholder is a `$` followed by decimal digits, as in `id = $1`. A `$` may also
stand inside an identifier (`price$1`), so a `$` that continues an identifier is no placeholder.
This module splits a text into fragments and renumbers the placeholders from left to right.

## Main definitions

* `Placeholder.Fragment` — one character of plain text, or one placeholder.
* `Placeholder.split` — the fragments of a text.
* `Placeholder.number` — the fragments with their placeholders counted upwards.
* `Placeholder.renumber` — the text whose placeholders read `$1, $2, ...` in order of appearance.
-/

namespace TableMapper

namespace Placeholder

/-- The characters an identifier may continue with: ASCII letters and digits, `_`, `$`, and every
character outside ASCII. -/
def isIdentifierChar (c : Char) : Bool :=
  c.isAlphanum || c == '_' || c == '$' || 128 ≤ c.toNat

inductive Fragment where
  | plain (c : Char)
  | placeholder (digits : List Char)
  deriving DecidableEq, Repr

namespace Fragment

def text : Fragment → List Char
  | plain c => [c]
  | placeholder digits => '$' :: digits

end Fragment

/-- The text that a list of fragments was split from. -/
def join (fragments : List Fragment) : List Char :=
  fragments.flatMap Fragment.text

/-! ## Splitting -/

/-- Whether a `$` in front of `rest` starts a placeholder, given whether the character before it
belongs to an identifier. -/
def startsAt (inIdentifier : Bool) (c : Char) (rest : List Char) : Bool :=
  c == '$' && !inIdentifier && (rest.head?.any Char.isDigit)

/-- Split a text into fragments. A placeholder takes every digit that follows its `$`; the
character after it therefore follows a digit. -/
def split (inIdentifier : Bool) : List Char → List Fragment
  | [] => []
  | c :: rest =>
    if startsAt inIdentifier c rest then
      .placeholder (rest.takeWhile Char.isDigit) :: split true (rest.dropWhile Char.isDigit)
    else
      .plain c :: split (isIdentifierChar c) rest
termination_by text => text.length
decreasing_by
  · have := (List.dropWhile_sublist (l := rest) Char.isDigit).length_le
    simp only [List.length_cons]; omega
  · simp

/-- The fragments lose no character. -/
@[simp] theorem join_split (inIdentifier : Bool) (text : List Char) :
    join (split inIdentifier text) = text := by
  fun_induction split inIdentifier text with
  | case1 => rfl
  | case2 inIdentifier c rest h ih =>
    have hc : c = '$' := by simp_all [startsAt]
    simp_all [join, Fragment.text]
  | case3 inIdentifier c rest h ih => simp_all [join, Fragment.text]

/-! ## Numbering -/

/-- The digits of `k` in decimal, without leading zeros. -/
def digits (k : Nat) : List Char :=
  (toString k).toList

/-- Count the placeholders upwards from `k`, whatever numbers they had. -/
def number (k : Nat) : List Fragment → List Fragment
  | [] => []
  | .plain c :: rest => .plain c :: number k rest
  | .placeholder _ :: rest => .placeholder (digits k) :: number (k + 1) rest

/-- Number the placeholders of `sql` anew, so that they read `$1, $2, ...` in order of appearance.
Fragments of SQL are rendered on their own and each counts from `$1`; renumbering the text they
are put together to restores one sequence. -/
def renumber (sql : String) : String :=
  String.ofList (join (number 1 (split false sql.toList)))

end Placeholder

end TableMapper
