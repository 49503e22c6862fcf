import TableMapper.Bindings
import TableMapper.Error
import TableMapper.Statement

/-!
# Insert templates

A template is an INSERT statement whose VALUES tuple holds named parameters, as in `INSERT INTO
app.user (id) VALUES (:id)`. Expanding it repeats the tuple for every row and binds the values to
positional placeholders that count on from row to row.

## Main definitions

* `Template.Piece` — one character of plain text, or one named parameter.
* `Template.scan` — the pieces of a tuple.
* `Template.splitLast` — a text in two at the last occurrence of another.
* `Template.expand` — the statement for many rows.
-/

namespace TableMapper

namespace Template

/-! ## Scanning -/

inductive Piece where
  | plain (c : Char)
  | parameter (name : String)
  deriving DecidableEq, Repr

/-- The text that a piece was read from. -/
def Piece.text : Piece → List Char
  | plain c => [c]
  | parameter name => ':' :: name.toList

/-- The characters of a parameter name: ASCII letters and digits, and `_`. -/
def isNameChar (c : Char) : Bool := c.isAlphanum || c == '_'

/-- Split a tuple into pieces. Two colons in a row are a cast and stay as they are; a colon
followed by a name is a parameter, which takes as many characters as the name has. -/
def scan : List Char → List Piece
  | [] => []
  | ':' :: ':' :: rest => .plain ':' :: .plain ':' :: scan rest
  | ':' :: rest =>
    let name := rest.takeWhile isNameChar
    if name.isEmpty then .plain ':' :: scan rest
    else .parameter (String.ofList name) :: scan (rest.dropWhile isNameChar)
  | c :: rest => .plain c :: scan rest
termination_by text => text.length
decreasing_by
  · simp only [List.length_cons]; omega
  · simp
  · have := (List.dropWhile_sublist (l := rest) isNameChar).length_le
    simp only [List.length_cons]; omega
  · simp

/-- The pieces lose no character. -/
theorem flatMap_text_scan (text : List Char) : (scan text).flatMap Piece.text = text := by
  fun_induction scan text with
  | case1 => rfl
  | case2 rest ih => simp [Piece.text, ih]
  | case3 rest h name hn ih => simp [Piece.text, ih]
  | case4 rest h name hn ih => simp [Piece.text, ih, name]
  | case5 c rest h h' ih => simp [Piece.text, ih]

/-- The text before and after the last occurrence of `word`. -/
def splitLast (word : List Char) : List Char → Option (List Char × List Char)
  | [] => if word.isEmpty then some ([], []) else none
  | c :: rest =>
    match splitLast word rest with
    | some (before, after) => some (c :: before, after)
    | none =>
      if word.isPrefixOf (c :: rest) then some ([], (c :: rest).drop word.length) else none

/-! ## Expansion -/

/-- Bind the parameters of one tuple, whose first placeholder is `$k`. -/
def bindTuple (row : Bindings) : (k : Nat) → List Piece → Except Error (List Char × List Value)
  | _, [] => .ok ([], [])
  | k, .plain c :: pieces => do
    let (text, params) ← bindTuple row k pieces
    return (c :: text, params)
  | k, .parameter name :: pieces =>
    match row.get? name with
    | none => .error (.missingParameter name)
    | some value => do
      let (text, params) ← bindTuple row (k + 1) pieces
      return ('$' :: (toString k).toList ++ text, value :: params)

/-- Bind one copy of the tuple for each row. -/
def bindRows (pieces : List Piece) (k : Nat) :
    List Bindings → Except Error (List (List Char × List Value))
  | [] => .ok []
  | row :: rows => do
    let tuple ← bindTuple row k pieces
    let tuples ← bindRows pieces (k + tuple.2.length) rows
    return tuple :: tuples

/-- The keyword in front of the tuple. -/
def keyword : List Char := " VALUES ".toList

/-- Expand a template for every row: everything up to the last VALUES stays as it is, and what
follows is repeated, separated by commas. The parameters are the values of the first row in the
order their names appear, then those of the second row, and so on. -/
def expand (template : String) (rows : List Bindings) : Except Error Statement :=
  if rows.isEmpty then
    .error (.invalidQuery "named statement needs at least one row")
  else
    match splitLast keyword template.toList with
    | none => .error (.invalidQuery ("no VALUES tuple in: " ++ template))
    | some (head, tuple) => do
      let tuples ← bindRows (scan tuple) 1 rows
      return {
        sql := String.ofList (head ++ keyword ++ List.intercalate [',', ' '] (tuples.map (·.1)))
        params := tuples.flatMap (·.2) }

end Template

end TableMapper
