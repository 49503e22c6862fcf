import TableMapper.Placeholder
import TableMapper.Proofs.Template.Expand

/-!
# Tuples of parameters

An insert template has one parameter for each column, named like the column. A parameter name ends
at the first character that is no ASCII letter, digit or `_`, while an identifier may go on with
`$` or a character outside ASCII: scanning reads a tuple back as it was written when no name holds
such a character, and copies the character otherwise.

## Main definitions

* `Placeholder.isIdentifier` — the texts that may name a column.
* `Template.arguments`, `Template.tuple` — the pieces a tuple is written from.
* `Template.isName` — the texts that may name a parameter.
* `Template.endsName` — the characters of identifiers at which a parameter name ends.
-/

namespace TableMapper

open Placeholder

/-- An identifier begins with an ASCII letter, `_` or a character outside ASCII. -/
def Placeholder.isIdentifier (text : String) : Bool :=
  match text.toList with
  | [] => false
  | c :: rest => (c.isAlpha || c == '_' || 128 ≤ c.toNat) && rest.all isIdentifierChar

theorem Placeholder.isIdentifierChar_of_mem {text : String} {c : Char} (h : isIdentifier text)
    (hc : c ∈ text.toList) : isIdentifierChar c := by
  unfold isIdentifier at h
  cases htext : text.toList with
  | nil => simp [htext] at hc
  | cons d rest =>
    rw [htext] at h hc
    rw [Bool.and_eq_true, List.all_eq_true] at h
    rcases List.mem_cons.mp hc with rfl | hc
    · have hfirst := h.1
      simp only [Bool.or_eq_true] at hfirst
      simp only [isIdentifierChar, Char.isAlphanum, Bool.or_eq_true]
      tauto
    · exact h.2 c hc

theorem Placeholder.toList_ne_nil_of_isIdentifier {text : String} (h : isIdentifier text) :
    text.toList ≠ [] := by
  intro hnil
  simp [isIdentifier, hnil] at h

/-! ## The tuple of an insert template -/

namespace Template

variable {names : List String} {pieces : List Piece} {rest : List Char}

/-- The texts that scanning takes for the name of a parameter. -/
def isName (text : String) : Bool :=
  !text.toList.isEmpty && text.toList.all isNameChar

theorem isName_iff {text : String} :
    isName text ↔ text.toList ≠ [] ∧ ∀ c ∈ text.toList, isNameChar c := by
  simp [isName]

/-- One parameter for each name. -/
def arguments : List String → List Piece
  | [] => []
  | [name] => [.parameter name]
  | name :: names => .parameter name :: .plain ',' :: .plain ' ' :: arguments names

def tuple (names : List String) : List Piece :=
  .plain '(' :: (arguments names ++ [.plain ')'])

theorem parameters_arguments_append (names : List String) (pieces : List Piece) :
    parameters (arguments names ++ pieces) = names ++ parameters pieces := by
  fun_induction arguments names with
  | case1 => rfl
  | case2 name => rfl
  | case3 name names hne ih => simp [ih]

@[simp] theorem parameters_tuple (names : List String) : parameters (tuple names) = names := by
  rw [tuple, parameters_plain, parameters_arguments_append]
  exact List.append_nil names

theorem flatMap_text_arguments (names : List String) :
    (arguments names).flatMap Piece.text = (", ".intercalate (names.map (":" ++ ·))).toList := by
  fun_induction arguments names with
  | case1 => rfl
  | case2 name => simp [Piece.text]
  | case3 name names hne ih =>
    obtain ⟨name', names, rfl⟩ := List.exists_cons_of_ne_nil hne
    simp only [List.flatMap_cons, ih, List.map_cons, String.intercalate_cons_cons]
    simp [Piece.text]

/-- Names of parameters are read back as they were written. -/
theorem scan_arguments_append (hnames : ∀ name ∈ names, isName name)
    (hrest : rest.head?.any isNameChar = false) :
    scan ((arguments names).flatMap Piece.text ++ rest) = arguments names ++ scan rest := by
  fun_induction arguments names with
  | case1 => rfl
  | case2 name =>
    obtain ⟨hne, hchars⟩ := isName_iff.mp (hnames name (by simp))
    simpa [Piece.text] using scan_parameter hne hchars hrest
  | case3 name names hsome ih =>
    obtain ⟨hne, hchars⟩ := isName_iff.mp (hnames name (by simp))
    have ih := ih fun name' h => hnames name' (by simp [h])
    have hcomma : (',' :: ' ' :: ((arguments names).flatMap Piece.text ++ rest)).head?.any
        isNameChar = false := by
      rw [List.head?_cons]
      decide
    have hscan := scan_parameter hne hchars hcomma
    have hspace : scan (',' :: ' ' :: ((arguments names).flatMap Piece.text ++ rest)) =
        .plain ',' :: .plain ' ' :: (arguments names ++ scan rest) := by
      rw [scan_cons_of_ne (by decide), scan_cons_of_ne (by decide), ih]
    rw [hspace, String.ofList_toList] at hscan
    simpa [Piece.text] using hscan

theorem scan_tuple (hnames : ∀ name ∈ names, isName name) :
    scan ((tuple names).flatMap Piece.text) = tuple names := by
  have hscan : scan ((arguments names).flatMap Piece.text ++ [')']) =
      arguments names ++ scan [')'] := scan_arguments_append hnames (by decide)
  have hclose : scan [')'] = [.plain ')'] := by
    rw [scan_cons_of_ne (by decide), scan]
  rw [hclose] at hscan
  rw [tuple, List.flatMap_cons, List.flatMap_append]
  exact (scan_cons_of_ne (by decide)).trans (congrArg _ hscan)

theorem numbered_arguments_append (k : Nat) (names : List String) (pieces : List Piece) :
    numbered k (arguments names ++ pieces) =
      (", ".intercalate ((List.range' k names.length).map fun i => "$" ++ toString i)).toList ++
        numbered (k + names.length) pieces := by
  fun_induction arguments names generalizing k with
  | case1 => rfl
  | case2 name => simp [numbered]
  | case3 name names hne ih =>
    obtain ⟨name', names, rfl⟩ := List.exists_cons_of_ne_nil hne
    simp only [List.cons_append, numbered, ih, List.length_cons, List.range'_succ, List.map_cons,
      String.intercalate_cons_cons]
    simp [Nat.add_assoc, Nat.add_comm]

/-! ## Characters that end a name -/

/-- A character that an identifier may go on with and a parameter name may not: `$`, or one outside
ASCII. -/
def endsName (c : Char) : Bool := isIdentifierChar c && !isNameChar c

theorem endsName_dollar : endsName '$' = true := by decide

theorem countP_digits (k : Nat) : (toString k).toList.countP endsName = 0 := by
  rw [List.countP_eq_zero]
  intro c hc
  rw [Nat.toString_eq_repr, Nat.toList_repr] at hc
  have hdigit := Nat.isDigit_of_mem_toDigits (by decide) (by decide) hc
  simp [endsName, isNameChar, Char.isAlphanum, hdigit]

/-- One such character stands in a copy for every parameter, besides those that are copied. -/
theorem countP_numbered (k : Nat) (pieces : List Piece) :
    (numbered k pieces).countP endsName =
      (parameters pieces).length + (plains pieces).countP endsName := by
  induction pieces generalizing k with
  | nil => rfl
  | cons piece pieces ih =>
    cases piece with
    | plain c =>
      simp only [numbered, parameters_plain, plains_plain, List.countP_cons, ih]
      omega
    | parameter name =>
      simp only [numbered, parameters_parameter, plains_parameter, List.cons_append,
        List.countP_cons, List.countP_append, countP_digits, ih, endsName_dollar, if_true,
        List.length_cons]
      omega

theorem countP_intercalate {α : Type} {p : α → Bool} {sep : List α} {parts : List (List α)}
    {m : Nat} (hsep : sep.countP p = 0) (hparts : ∀ part ∈ parts, part.countP p = m) :
    (sep.intercalate parts).countP p = parts.length * m := by
  induction parts with
  | nil => simp
  | cons part parts ih =>
    have hpart := hparts part (by simp)
    have ih := ih fun part' h => hparts part' (by simp [h])
    cases parts with
    | nil => simpa using hpart
    | cons part' parts =>
      have hlength : (part :: part' :: parts).length * m = m + (part' :: parts).length * m := by
        rw [List.length_cons, Nat.succ_mul, Nat.add_comm]
      rw [List.intercalate_cons_cons, List.countP_append, List.countP_append, hsep, hpart, ih,
        hlength, Nat.add_zero]

theorem countP_copies (pieces : List Piece) (k n : Nat) :
    (List.intercalate [',', ' '] (copies pieces k n)).countP endsName =
      n * ((parameters pieces).length + (plains pieces).countP endsName) := by
  have hcopies : ∀ copy ∈ copies pieces k n, copy.countP endsName =
      (parameters pieces).length + (plains pieces).countP endsName := by
    intro copy hcopy
    obtain ⟨i, -, rfl⟩ := List.mem_map.mp hcopy
    exact countP_numbered _ pieces
  rw [countP_intercalate (by decide) hcopies, length_copies]

theorem countP_plains_tuple (names : List String) :
    (plains (tuple names)).countP endsName = 0 := by
  have harguments : ∀ pieces, (plains (arguments names ++ pieces)).countP endsName =
      (plains pieces).countP endsName := by
    intro pieces
    fun_induction arguments names with
    | case1 => rfl
    | case2 name => rfl
    | case3 name names hne ih => exact ih
  rw [tuple, plains_plain, List.countP_cons_of_neg (by decide), harguments]
  decide

/-! ## The keyword in front of the tuple -/

/-- No `V` behind a space. -/
def Apart (c d : Char) : Prop := c = ' ' → d ≠ 'V'

instance : DecidableRel Apart := fun c d => inferInstanceAs (Decidable (c = ' ' → d ≠ 'V'))

theorem isChain_append_of_space_not_mem {x y : List Char} (hx : ' ' ∉ x)
    (hy : y.IsChain Apart) : (x ++ y).IsChain Apart := by
  induction x with
  | nil => exact hy
  | cons c x ih =>
    rw [List.mem_cons, not_or] at hx
    rw [List.cons_append, List.isChain_cons]
    exact ⟨fun d _ hc => absurd hc.symm hx.1, ih hx.2⟩

theorem head?_arguments (hne : names ≠ []) (rest : List Char) :
    ((arguments names).flatMap Piece.text ++ rest).head? = some ':' := by
  match names, hne with
  | [name], _ => rfl
  | name :: name' :: names, _ => rfl

theorem isChain_arguments_append (hspace : ∀ name ∈ names, ' ' ∉ name.toList)
    (hrest : rest.IsChain Apart) :
    ((arguments names).flatMap Piece.text ++ rest).IsChain Apart := by
  fun_induction arguments names with
  | case1 => exact hrest
  | case2 name =>
    have hname : ' ' ∉ ':' :: name.toList := by simpa using hspace name (by simp)
    simpa [Piece.text] using isChain_append_of_space_not_mem hname hrest
  | case3 name names hne ih =>
    have hname : ' ' ∉ ':' :: (name.toList ++ [',']) := by simpa using hspace name (by simp)
    have hnext : (' ' :: ((arguments names).flatMap Piece.text ++ rest)).IsChain Apart := by
      rw [List.isChain_cons, head?_arguments hne]
      refine ⟨?_, ih fun name' h => hspace name' (by simp [h])⟩
      rintro d hd -
      obtain rfl : ':' = d := by simpa using hd
      decide
    simpa [Piece.text] using isChain_append_of_space_not_mem hname hnext

/-- The keyword stands nowhere behind itself. -/
theorem not_keyword_infix_tail (hspace : ∀ name ∈ names, ' ' ∉ name.toList) :
    ¬ keyword <:+: (keyword ++ (tuple names).flatMap Piece.text).tail := by
  have harguments : ((arguments names).flatMap Piece.text ++ [')']).IsChain Apart :=
    isChain_arguments_append hspace (by decide)
  have htuple : ((tuple names).flatMap Piece.text).IsChain Apart := by
    have hopen := isChain_append_of_space_not_mem (x := ['(']) (by decide) harguments
    simpa [tuple, Piece.text] using hopen
  have htail : (keyword ++ (tuple names).flatMap Piece.text).tail =
      "VALUES".toList ++ ' ' :: (tuple names).flatMap Piece.text := rfl
  have hchain : (keyword ++ (tuple names).flatMap Piece.text).tail.IsChain Apart := by
    rw [htail]
    refine isChain_append_of_space_not_mem (by decide) (List.isChain_cons.mpr ⟨?_, htuple⟩)
    rintro d hd -
    obtain rfl : '(' = d := by simpa [tuple, Piece.text] using hd
    decide
  intro hinfix
  have hkeyword := List.IsChain.infix hchain hinfix
  exact absurd hkeyword (by decide)

end Template

end TableMapper
