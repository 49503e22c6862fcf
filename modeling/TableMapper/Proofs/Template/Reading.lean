import TableMapper.Proofs.Template.Tuple

/-!
# Reading a template

What splitting and scanning a template come to, said without a scan: which occurrence of a word is
the last one, and which pieces a tuple is made of when it is read from left to right. Both say
exactly what the computation does, so a text has one last occurrence and one reading.

## Main definitions

* `Template.LastOccurrence` — the place of a word behind which it does not occur again.
* `Template.Reads` — the pieces that a tuple is read as.
-/

namespace TableMapper

namespace Template

variable {word text before after rest : List Char} {pieces : List Piece}

/-! ## The last occurrence -/

/-- The word stands between `before` and `after`, and nowhere further to the right. -/
structure LastOccurrence (word text before after : List Char) : Prop where
  eq : text = before ++ word ++ after
  last : ∀ before' after', text = before' ++ word ++ after' → before'.length ≤ before.length

theorem LastOccurrence.not_infix_tail (h : LastOccurrence word text before after)
    (hne : word ≠ []) : ¬ word <:+: (word ++ after).tail := by
  obtain ⟨c, rest, rfl⟩ := List.exists_cons_of_ne_nil hne
  rintro ⟨between, after', hafter⟩
  rw [List.cons_append, List.tail_cons] at hafter
  have hlater := h.last (before ++ c :: between) after' (by simp [h.eq, ← hafter])
  rw [List.length_append, List.length_cons] at hlater
  omega

theorem lastOccurrence_of_splitLast (hne : word ≠ [])
    (h : splitLast word text = some (before, after)) : LastOccurrence word text before after := by
  induction text generalizing before with
  | nil => simp [splitLast, hne] at h
  | cons c text ih =>
    rw [splitLast] at h
    cases hrest : splitLast word text with
    | some parts =>
      obtain ⟨before', after'⟩ := parts
      simp only [hrest, Option.some.injEq, Prod.mk.injEq] at h
      obtain ⟨rfl, rfl⟩ := h
      have hlast := ih hrest
      refine ⟨by simp [hlast.eq], fun before₁ after₁ heq => ?_⟩
      cases before₁ with
      | nil => simp
      | cons d before₁ =>
        obtain ⟨-, heq⟩ := List.cons.inj heq
        simpa using hlast.last before₁ after₁ heq
    | none =>
      -- The word occurs at the front, and it does not occur behind the first character.
      simp only [hrest, Option.ite_none_right_eq_some, Option.some.injEq, Prod.mk.injEq] at h
      obtain ⟨hhere, rfl, rfl⟩ := h
      have hfront := List.prefix_iff_eq_append.mp (List.isPrefixOf_iff_prefix.mp hhere)
      refine ⟨hfront.symm, fun before₁ after₁ heq => ?_⟩
      cases before₁ with
      | nil => simp
      | cons d before₁ =>
        obtain ⟨-, rfl⟩ := List.cons.inj heq
        exact absurd ⟨before₁, after₁, rfl⟩ ((splitLast_eq_none_iff hne).mp hrest)

theorem splitLast_eq_some_iff (hne : word ≠ []) :
    splitLast word text = some (before, after) ↔ LastOccurrence word text before after := by
  refine ⟨lastOccurrence_of_splitLast hne, fun h => ?_⟩
  rw [h.eq]
  exact splitLast_append hne before after (h.not_infix_tail hne)

theorem exists_lastOccurrence (hne : word ≠ []) (h : word <:+: text) :
    ∃ before after, LastOccurrence word text before after := by
  cases hsplit : splitLast word text with
  | none => exact absurd h ((splitLast_eq_none_iff hne).mp hsplit)
  | some parts => exact ⟨parts.1, parts.2, (splitLast_eq_some_iff hne).mp hsplit⟩

/-! ## Readings -/

/-- A tuple is read from left to right. Two colons in a row are copied together. A colon and all the
name characters behind it, if there are any, are a parameter. Every other character is copied. -/
inductive Reads : List Char → List Piece → Prop
  | nil : Reads [] []
  | cast {rest : List Char} {pieces : List Piece} : Reads rest pieces →
      Reads (':' :: ':' :: rest) (.plain ':' :: .plain ':' :: pieces)
  | parameter {name : String} {rest : List Char} {pieces : List Piece} : isName name →
      rest.head?.any isNameChar = false → Reads rest pieces →
      Reads (':' :: (name.toList ++ rest)) (.parameter name :: pieces)
  | colon {rest : List Char} {pieces : List Piece} : rest.head? ≠ some ':' →
      rest.head?.any isNameChar = false → Reads rest pieces →
      Reads (':' :: rest) (.plain ':' :: pieces)
  | plain {c : Char} {rest : List Char} {pieces : List Piece} : c ≠ ':' → Reads rest pieces →
      Reads (c :: rest) (.plain c :: pieces)

theorem scan_colon (hcolon : rest.head? ≠ some ':') (hname : rest.head?.any isNameChar = false) :
    scan (':' :: rest) = .plain ':' :: scan rest := by
  cases rest with
  | nil => simp [scan]
  | cons c rest =>
    rw [scan]
    · simp_all
    · rintro rest' heq
      simp_all

theorem head?_dropWhile_isNameChar (text : List Char) :
    (text.dropWhile isNameChar).head?.any isNameChar = false := by
  have h := List.head?_dropWhile_not isNameChar text
  cases hhead : (text.dropWhile isNameChar).head? with
  | none => rfl
  | some c => simpa [hhead] using h

theorem reads_scan (text : List Char) : Reads text (scan text) := by
  fun_induction scan text with
  | case1 => exact .nil
  | case2 rest ih => exact .cast ih
  | case3 rest hcolon name hname ih =>
    refine .colon ?_ ?_ ih
    · cases rest with
      | nil => simp
      | cons c rest => simpa using fun hc => hcolon rest (by rw [hc])
    · cases rest with
      | nil => rfl
      | cons c rest => simpa [name, List.takeWhile_cons] using hname
  | case4 rest hcolon name hname ih =>
    have hisName : isName (String.ofList name) := by
      refine isName_iff.mpr ⟨by simpa using hname, fun c hc => ?_⟩
      rw [String.toList_ofList] at hc
      exact List.mem_takeWhile_imp hc
    have hread := Reads.parameter hisName (head?_dropWhile_isNameChar rest) ih
    rwa [String.toList_ofList, List.takeWhile_append_dropWhile] at hread
  | case5 c rest hcast hcolon ih =>
    exact .plain hcolon ih

theorem Reads.scan_eq (h : Reads text pieces) : scan text = pieces := by
  induction h with
  | nil => simp [scan]
  | cast _ ih => rw [scan, ih]
  | @parameter name rest pieces hname hrest _ ih =>
    obtain ⟨hne, hchars⟩ := isName_iff.mp hname
    rw [scan_parameter hne hchars hrest, String.ofList_toList, ih]
  | colon hcolon hname _ ih => rw [scan_colon hcolon hname, ih]
  | plain hc _ ih => rw [scan_cons_of_ne hc, ih]

/-- A scan yields the one reading of a tuple. -/
theorem reads_iff : Reads text pieces ↔ scan text = pieces :=
  ⟨Reads.scan_eq, fun h => h ▸ reads_scan text⟩

end Template

end TableMapper
