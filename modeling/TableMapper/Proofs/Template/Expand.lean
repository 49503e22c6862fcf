import Mathlib.Data.List.Chain
import Mathlib.Data.List.TakeWhile
import TableMapper.Proofs.Sequence
import TableMapper.Template

/-!
# What a template expands to

Scanning a tuple tells its parameters from the text around them. Expansion looks every parameter up
in every row, and, when all are found, writes one copy of the tuple for each row; where the
placeholders of a copy start depends only on the copies before it.

## Main definitions

* `Template.parameters`, `Template.plains` — what a tuple asks for, and what is copied.
* `Template.numbered` — one copy of a tuple.
* `Template.copies` — the copies of a tuple, counted on.
* `Bindings.find` — the value of a parameter in a row, or the failure that it is missing.
-/

namespace TableMapper

/-! ## Rows end to end -/

/-- Values that come in rows of one length stand where their row and their column say. -/
theorem getElem?_flatMap_of_length {α β : Type} {g : α → List β} {xs : List α} {m i j : Nat}
    {x : α} (h : ∀ y, (g y).length = m) (hi : xs[i]? = some x) (hj : j < m) :
    (xs.flatMap g)[i * m + j]? = (g x)[j]? := by
  induction xs generalizing i with
  | nil => simp at hi
  | cons y xs ih =>
    rw [List.flatMap_cons]
    cases i with
    | zero =>
      obtain rfl : y = x := by simpa using hi
      rw [Nat.zero_mul, Nat.zero_add]
      exact List.getElem?_append_left (by rwa [h])
    | succ i =>
      have hshift : (i + 1) * m + j = (g y).length + (i * m + j) := by
        rw [h y, Nat.succ_mul]
        omega
      rw [hshift, List.getElem?_append_right (by omega), Nat.add_sub_cancel_left]
      exact ih (by simpa using hi)

/-! ## Looking parameters up -/

/-- The value of a parameter in a row. -/
def Bindings.find (row : Bindings) (name : String) : Except Error Value :=
  match row.get? name with
  | some value => .ok value
  | none => .error (.missingParameter name)

theorem Bindings.find_eq_ok_iff {row : Bindings} {name : String} {value : Value} :
    row.find name = .ok value ↔ row.get? name = some value := by
  unfold Bindings.find
  cases row.get? name <;> simp

/-- Rows in which all names are found have one value for each name. -/
theorem length_flatten_of_mapM {rows : List Bindings} {names : List String}
    {values : List (List Value)}
    (h : rows.mapM (fun row => names.mapM row.find) = .ok values) :
    values.flatten.length = rows.length * names.length := by
  have hvalues := mapM_eq_ok_iff.mp h
  have hlengths : values.map List.length = List.replicate rows.length names.length := by
    refine List.eq_replicate_iff.mpr ⟨by rw [List.length_map, hvalues.length_eq], ?_⟩
    intro m hm
    obtain ⟨row, hrow, rfl⟩ := List.mem_map.mp hm
    obtain ⟨i, hi, rfl⟩ := List.mem_iff_getElem.mp hrow
    exact length_of_mapM_eq_ok (hvalues.get (by rwa [hvalues.length_eq]) hi)
  rw [List.length_flatten, hlengths, List.sum_replicate_nat]

namespace Template

variable {c : Char} {x rest word head before after : List Char} {pieces : List Piece}
  {rows : List Bindings}

/-! ## Pieces -/

def Piece.parameter? : Piece → Option String
  | plain _ => none
  | parameter name => some name

def Piece.plain? : Piece → Option Char
  | plain c => some c
  | parameter _ => none

/-- The names of the parameters, from left to right. -/
def parameters (pieces : List Piece) : List String := pieces.filterMap Piece.parameter?

/-- The characters outside the parameters, from left to right. -/
def plains (pieces : List Piece) : List Char := pieces.filterMap Piece.plain?

@[simp] theorem parameters_plain (c : Char) (pieces : List Piece) :
    parameters (.plain c :: pieces) = parameters pieces := rfl

@[simp] theorem parameters_parameter (name : String) (pieces : List Piece) :
    parameters (.parameter name :: pieces) = name :: parameters pieces := rfl

@[simp] theorem plains_plain (c : Char) (pieces : List Piece) :
    plains (.plain c :: pieces) = c :: plains pieces := rfl

@[simp] theorem plains_parameter (name : String) (pieces : List Piece) :
    plains (.parameter name :: pieces) = plains pieces := rfl

theorem mem_parameters {name : String} : name ∈ parameters pieces ↔ .parameter name ∈ pieces := by
  induction pieces with
  | nil => simp [parameters]
  | cons piece pieces ih => cases piece <;> simp [ih]

theorem mem_plains : c ∈ plains pieces ↔ .plain c ∈ pieces := by
  induction pieces with
  | nil => simp [plains]
  | cons piece pieces ih => cases piece <;> simp [ih]

/-! ## Scanning -/

theorem scan_cons_of_ne (h : c ≠ ':') : scan (c :: rest) = .plain c :: scan rest := by
  rw [scan]
  · exact fun rest hc => absurd hc h
  · exact h

/-- A parameter ends where the text behind it begins with no name character. -/
theorem scan_parameter (hne : x ≠ []) (hx : ∀ c ∈ x, isNameChar c)
    (hrest : rest.head?.any isNameChar = false) :
    scan (':' :: (x ++ rest)) = .parameter (String.ofList x) :: scan rest := by
  have hcolon : ∀ rest', x ++ rest ≠ ':' :: rest' := by
    intro rest' h
    cases x with
    | nil => exact hne rfl
    | cons c x =>
      obtain ⟨rfl, -⟩ := List.cons.inj h
      exact absurd (hx ':' (by simp)) (by decide)
  have htake : (x ++ rest).takeWhile isNameChar = x := by
    rw [List.takeWhile_append_of_pos hx]
    cases rest with
    | nil => simp
    | cons d rest => simpa [List.takeWhile_cons] using hrest
  have hdrop : (x ++ rest).dropWhile isNameChar = rest := by
    rw [List.dropWhile_append_of_pos hx]
    cases rest with
    | nil => rfl
    | cons d rest => exact List.dropWhile_cons_of_neg (by simpa using hrest)
  rw [scan]
  · simp [htake, hdrop, hne]
  · exact hcolon

/-- The parameters that are scanned have names of name characters only. -/
theorem isNameChar_of_mem_scan {name : String} (h : .parameter name ∈ scan x)
    (hc : c ∈ name.toList) : isNameChar c := by
  fun_induction scan x with
  | case1 => simp at h
  | case2 rest ih => exact ih (by simpa using h)
  | case3 rest hr name' hn ih => exact ih (by simpa using h)
  | case4 rest hr name' hn ih =>
    rcases List.mem_cons.mp h with heq | h
    · obtain rfl := Piece.parameter.inj heq
      rw [String.toList_ofList] at hc
      exact List.mem_takeWhile_imp hc
    · exact ih h
  | case5 d rest hd hr ih => exact ih (by simpa using h)

/-- A character that no parameter may hold is copied. -/
theorem mem_plains_scan (h : c ∈ x) (hcolon : c ≠ ':') (hc : isNameChar c = false) :
    c ∈ plains (scan x) := by
  rw [← flatMap_text_scan x, List.mem_flatMap] at h
  obtain ⟨piece, hpiece, hmem⟩ := h
  cases piece with
  | plain d =>
    obtain rfl : c = d := by simpa [Piece.text] using hmem
    exact mem_plains.mpr hpiece
  | parameter name =>
    have hname : c ∈ name.toList := (List.mem_cons.mp hmem).resolve_left hcolon
    rw [isNameChar_of_mem_scan hpiece hname] at hc
    exact absurd hc (by decide)

/-! ## The last occurrence -/

theorem splitLast_eq_none_iff (hne : word ≠ []) : splitLast word x = none ↔ ¬ word <:+: x := by
  induction x with
  | nil => simp [splitLast, hne]
  | cons c x ih =>
    rw [splitLast, List.infix_cons_iff, not_or, ← ih]
    cases splitLast word x with
    | some parts => simp
    | none => simp

/-- A text is split at an occurrence behind which no other one begins. -/
theorem splitLast_append (hne : word ≠ []) (before after : List Char)
    (h : ¬ word <:+: (word ++ after).tail) :
    splitLast word (before ++ word ++ after) = some (before, after) := by
  induction before with
  | nil =>
    obtain ⟨c, rest, rfl⟩ := List.exists_cons_of_ne_nil hne
    have hnone := (splitLast_eq_none_iff hne).mpr h
    rw [List.cons_append, List.tail_cons] at hnone
    rw [List.nil_append, List.cons_append, splitLast, hnone]
    simp
  | cons c before ih =>
    rw [List.cons_append, List.cons_append, splitLast, ih]

/-! ## Copies of a tuple -/

/-- A tuple with its parameters replaced by placeholders from `$k` on. -/
def numbered : (k : Nat) → List Piece → List Char
  | _, [] => []
  | k, .plain c :: pieces => c :: numbered k pieces
  | k, .parameter _ :: pieces => '$' :: (toString k).toList ++ numbered (k + 1) pieces

/-- The first `n` copies of a tuple, each counted on from the one before it. -/
def copies (pieces : List Piece) (k n : Nat) : List (List Char) :=
  (List.range n).map fun i => numbered (k + i * (parameters pieces).length) pieces

@[simp] theorem length_copies (pieces : List Piece) (k n : Nat) :
    (copies pieces k n).length = n := by
  simp [copies]

theorem copies_succ (pieces : List Piece) (k n : Nat) :
    copies pieces k (n + 1) =
      numbered k pieces :: copies pieces (k + (parameters pieces).length) n := by
  simp only [copies, List.range_succ_eq_map, List.map_cons, List.map_map, Nat.zero_mul,
    Nat.add_zero, List.cons.injEq, true_and]
  refine List.map_congr_left fun i _ => ?_
  simp only [Function.comp_apply, Nat.succ_mul, Nat.add_assoc, Nat.add_comm]

/-- Binding one tuple is looking up its parameters; its text does not depend on their values. -/
theorem bindTuple_eq (row : Bindings) (k : Nat) (pieces : List Piece) :
    bindTuple row k pieces = do
      let values ← (parameters pieces).mapM row.find
      return (numbered k pieces, values) := by
  induction pieces generalizing k with
  | nil => rfl
  | cons piece pieces ih =>
    cases piece with
    | plain c =>
      rw [bindTuple, ih, parameters_plain]
      cases (parameters pieces).mapM row.find <;> rfl
    | parameter name =>
      rw [bindTuple, ih, parameters_parameter, List.mapM_cons, Bindings.find]
      cases row.get? name with
      | none => rfl
      | some value => cases (parameters pieces).mapM row.find <;> rfl

/-- Binding all copies is looking up the parameters in every row. -/
theorem bindRows_eq (pieces : List Piece) (k : Nat) (rows : List Bindings) :
    bindRows pieces k rows = do
      let values ← rows.mapM fun row => (parameters pieces).mapM row.find
      return (copies pieces k rows.length).zip values := by
  induction rows generalizing k with
  | nil => rfl
  | cons row rows ih =>
    rw [bindRows, bindTuple_eq, List.mapM_cons]
    cases htuple : (parameters pieces).mapM row.find with
    | error e => rfl
    | ok values =>
      have hlength := length_of_mapM_eq_ok htuple
      simp only [bind, Except.bind, pure, Except.pure, hlength, ih, List.length_cons, copies_succ]
      cases rows.mapM fun row => (parameters pieces).mapM row.find <;> rfl

/-- Expansion keeps the text up to the last keyword, copies the tuple behind it for every row, and
takes the values of the parameters row by row. -/
theorem expand_eq {template : String} {tuple : List Char} (hrows : rows ≠ [])
    (hsplit : splitLast keyword template.toList = some (head, tuple)) :
    expand template rows = do
      let values ← rows.mapM fun row => (parameters (scan tuple)).mapM row.find
      return {
        sql := String.ofList (head ++ keyword ++
          List.intercalate [',', ' '] (copies (scan tuple) 1 rows.length))
        params := values.flatten } := by
  unfold expand
  rw [if_neg (by simpa using hrows), hsplit]
  simp only [bindRows_eq]
  cases hvalues : rows.mapM fun row => (parameters (scan tuple)).mapM row.find with
  | error e => rfl
  | ok values =>
    have hlength := length_of_mapM_eq_ok hvalues
    have hfst : ((copies (scan tuple) 1 rows.length).zip values).map Prod.fst =
        copies (scan tuple) 1 rows.length := List.map_fst_zip (by simp [hlength])
    have hsnd : ((copies (scan tuple) 1 rows.length).zip values).map Prod.snd = values :=
      List.map_snd_zip (by simp [hlength])
    simp only [bind, Except.bind, pure, Except.pure, List.flatMap_def]
    rw [hfst, hsnd]

end Template

end TableMapper
