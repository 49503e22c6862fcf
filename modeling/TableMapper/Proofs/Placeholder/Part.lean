import TableMapper.Proofs.Placeholder.Renumber

/-!
# Renumbering a part of a text

A part of a text may be renumbered before the whole text is. The whole comes out the same, whatever
stands behind the part: digits there may go on with its last placeholder, and a `$` there may follow
that placeholder, but they do so with any number the placeholder has. In front of the part no
identifier may end, since a `$` at the start of the part would continue it.
-/

namespace TableMapper

namespace Placeholder

variable {x run : List Char}

/-! ## Behind a placeholder -/

/-- Digits behind a placeholder belong to it. -/
theorem number_split_run_append (hne : run ≠ []) (h : ∀ c ∈ run, c.isDigit) (k : Nat)
    (y : List Char) :
    number k (split false ('$' :: (run ++ y))) =
      .placeholder (digits k) :: number (k + 1) (split true (y.dropWhile Char.isDigit)) := by
  have hrun : ∀ c ∈ run ++ y.takeWhile Char.isDigit, c.isDigit := by
    intro c hc
    rcases List.mem_append.mp hc with hc | hc
    · exact h c hc
    · exact List.mem_takeWhile_imp hc
  have hsplit := split_run (by simp [hne]) hrun (head?_dropWhile_isDigit y)
  rw [List.append_assoc, List.takeWhile_append_dropWhile] at hsplit
  rw [hsplit, number]

theorem dropWhile_append_of_head? (hne : x ≠ []) (h : x.head?.any Char.isDigit = false)
    (y : List Char) : (x ++ y).dropWhile Char.isDigit = x ++ y := by
  cases x with
  | nil => exact absurd rfl hne
  | cons c x => exact dropWhile_eq_self_of_head? h

/-- The numbers that a part is given before the whole is numbered do not matter. -/
theorem number_split_append (b : Bool) (k n : Nat) (y z : List Char) :
    number k (split b (join (number n (split b y)) ++ z)) = number k (split b (y ++ z)) := by
  fun_induction split b y generalizing k n with
  | case1 => rfl
  | case2 b c rest hs ih =>
    obtain ⟨rfl, rfl, hd⟩ := startsAt_iff.mp hs
    set old := rest.dropWhile Char.isDigit
    set new := join (number (n + 1) (split true old)) with hnew
    have hhead : new.head? = old.head? := by rw [hnew, head?_join_number, join_split]
    have hnil : new = [] ↔ old = [] := by
      rw [← List.head?_eq_none_iff, hhead, List.head?_eq_none_iff]
    have hdigit : old.head?.any Char.isDigit = false := head?_dropWhile_isDigit rest
    have htail : number (k + 1) (split true ((new ++ z).dropWhile Char.isDigit)) =
        number (k + 1) (split true ((old ++ z).dropWhile Char.isDigit)) := by
      by_cases hne : old = []
      · -- The placeholder ends the part: only `z` stands behind its digits, old or new.
        rw [hne, hnil.mpr hne]
      · rw [dropWhile_append_of_head? hne hdigit,
          dropWhile_append_of_head? (mt hnil.mp hne) (hhead ▸ hdigit)]
        exact ih (k + 1) (n + 1)
    calc
      number k (split false ('$' :: (digits n ++ new) ++ z))
        = .placeholder (digits k) ::
            number (k + 1) (split true ((new ++ z).dropWhile Char.isDigit)) := by
          rw [List.cons_append, List.append_assoc,
            number_split_run_append (digits_ne_nil n) fun _ => isDigit_of_mem_digits]
      _ = number k (split false ('$' :: (rest.takeWhile Char.isDigit ++ (old ++ z)))) := by
          rw [htail, number_split_run_append (takeWhile_ne_nil_of_head? hd)
            fun _ => List.mem_takeWhile_imp]
      _ = number k (split false ('$' :: rest ++ z)) := by
          rw [← List.append_assoc, List.takeWhile_append_dropWhile, List.cons_append]
  | case3 b c rest hs ih =>
    cases rest with
    | nil => simp [split, number, join, Fragment.text]
    | cons d rest =>
      set new := join (number n (split (isIdentifierChar c) (d :: rest))) with hnew
      have hhead : new.head? = some d := by
        rw [hnew, head?_join_number, join_split, List.head?_cons]
      -- Whether a `$` starts a placeholder is told by the first character of the part behind it.
      have hold : ¬ startsAt b c (d :: rest ++ z) = true := hs
      have hs' : ¬ startsAt b c (new ++ z) = true := by
        rwa [startsAt_congr (y := d :: rest) (by simp [hhead])]
      calc
        number k (split b (c :: new ++ z))
          = .plain c :: number k (split (isIdentifierChar c) (new ++ z)) :=
            congrArg (number k) (split_cons hs')
        _ = .plain c :: number k (split (isIdentifierChar c) (d :: rest ++ z)) := by rw [ih]
        _ = number k (split b (c :: (d :: rest) ++ z)) :=
            (congrArg (number k) (split_cons hold)).symm

/-! ## Parts of texts -/

variable {s : String}

theorem toList_renumber (s : String) :
    (renumber s).toList = join (number 1 (split false s.toList)) :=
  String.toList_ofList

/-- A part that stands behind no identifier may be renumbered first. -/
theorem renumber_append_renumber (h : endsIn false s.toList = false) (t u : String) :
    renumber (s ++ renumber t ++ u) = renumber (s ++ t ++ u) := by
  have hsplit (part : List Char) :
      number 1 (split false (s.toList ++ part ++ u.toList)) =
        number 1 (split false s.toList) ++
          number (1 + (labels s).length) (split false (part ++ u.toList)) := by
    rw [List.append_assoc, split_append (.inl h), h, number_append]
    rfl
  rw [← String.toList_inj, toList_renumber, toList_renumber]
  simp only [String.toList_append]
  rw [hsplit, hsplit, toList_renumber, number_split_append]

/-- Behind an identifier a `$` and its digits are plain text. -/
theorem renumber_append_dollar (h : endsIn false s.toList = true) (d : Char) :
    (renumber (s ++ .ofList ['$', d])).toList =
      join (number 1 (split false s.toList)) ++ ['$', d] := by
  have hsplit : split true ['$', d] = ['$', d].map .plain := by simp [split, startsAt]
  rw [toList_renumber, String.toList_append, String.toList_ofList, split_append (.inr rfl), h,
    hsplit, number_append, number_map_plain, join_append]
  rfl

/-- Renumbering a part before the whole changes nothing, for any part and for any text behind it,
exactly when the text in front of the part ends in no byte of an identifier. -/
theorem part_absorbed_iff (x : String) :
    (∀ y z, renumber (x ++ renumber y ++ z) = renumber (x ++ y ++ z)) ↔
      x.toByteArray.data.toList.getLast?.any isIdentifierByte = false := by
  rw [toList_data_toByteArray, any_getLast?_bytes]
  constructor
  · intro h
    by_contra hx
    rw [Bool.not_eq_false] at hx
    -- Behind `x` the number of this part is plain text and stays, so `$1` and `$2` differ.
    have hpart : renumber (.ofList ['$', '2']) = .ofList ['$', '1'] := by decide +kernel
    have hsame := h (.ofList ['$', '2']) ""
    rw [hpart, String.append_empty, String.append_empty, ← String.toList_inj,
      renumber_append_dollar hx, renumber_append_dollar hx] at hsame
    simp at hsame
  · exact renumber_append_renumber

/-- The digit and the `$` behind the part go on with its last placeholder. -/
example : renumber ("a = $7 AND (" ++ renumber "b$1 < $5" ++ "0$2)") =
    "a = $1 AND (b$1 < $2$2)" := by
  decide +kernel

end Placeholder

end TableMapper
