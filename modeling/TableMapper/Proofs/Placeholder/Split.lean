import Mathlib.Data.List.TakeWhile
import TableMapper.Placeholder

/-!
# Where placeholders stand

A text is put together from parts, and the placeholders of the whole are those of its parts as
long as no identifier runs across a seam. A placeholder is described here without the scanner; the
scanner finds exactly these.

## Main definitions

* `Placeholder.endsIn` — whether an identifier may continue behind a text.
* `Placeholder.Stands` — a placeholder between the text before it and the text after it.
* `Placeholder.Free` — no placeholder stands anywhere in a text.
* `Placeholder.Separate` — no identifier runs from one text into the next.
-/

namespace TableMapper

namespace Placeholder

variable {b : Bool} {c : Char} {x y before run after : List Char}

/-! ## Identifiers at a seam -/

/-- Whether the last character of a text belongs to an identifier; an empty text leaves what was
known before it. -/
def endsIn (inIdentifier : Bool) (text : List Char) : Bool :=
  text.getLast?.elim inIdentifier isIdentifierChar

@[simp] theorem endsIn_nil (b : Bool) : endsIn b [] = b := rfl

@[simp] theorem endsIn_cons (b : Bool) (c : Char) (x : List Char) :
    endsIn b (c :: x) = endsIn (isIdentifierChar c) x := by
  cases x <;> simp [endsIn, List.getLast?_cons]

@[simp] theorem endsIn_append (b : Bool) (x y : List Char) :
    endsIn b (x ++ y) = endsIn (endsIn b x) y := by
  induction x generalizing b with
  | nil => rfl
  | cons c x ih => simp [ih]

theorem isIdentifierChar_of_isDigit (h : c.isDigit) : isIdentifierChar c := by
  simp [isIdentifierChar, Char.isAlphanum, h]

theorem endsIn_of_forall_isDigit (h : ∀ c ∈ x, c.isDigit) : endsIn true x = true := by
  induction x with
  | nil => rfl
  | cons c x ih =>
    rw [endsIn_cons, isIdentifierChar_of_isDigit (h c (by simp))]
    exact ih fun d hd => h d (by simp [hd])

/-- A text that begins with no identifier character begins with no digit. -/
theorem not_isDigit_head? (h : y.head?.any isIdentifierChar = false) :
    y.head?.any Char.isDigit = false := by
  cases y with
  | nil => rfl
  | cons c y =>
    simp only [List.head?_cons, Option.any_some] at h ⊢
    by_contra hc
    simp [isIdentifierChar_of_isDigit (by simpa using hc)] at h

/-! ## Maximal runs of digits -/

theorem takeWhile_eq_nil_of_head? (h : y.head?.any Char.isDigit = false) :
    y.takeWhile Char.isDigit = [] := by
  cases y with
  | nil => rfl
  | cons c y => simpa [List.takeWhile_cons] using h

theorem takeWhile_ne_nil_of_head? (h : x.head?.any Char.isDigit = true) :
    x.takeWhile Char.isDigit ≠ [] := by
  cases x with
  | nil => simp at h
  | cons c x =>
    have hc : c.isDigit = true := h
    simp [hc]

theorem dropWhile_eq_self_of_head? (h : y.head?.any Char.isDigit = false) :
    y.dropWhile Char.isDigit = y := by
  cases y with
  | nil => rfl
  | cons c y =>
    have hc : c.isDigit = false := h
    simp [hc]

theorem head?_dropWhile_isDigit (x : List Char) :
    (x.dropWhile Char.isDigit).head?.any Char.isDigit = false := by
  induction x with
  | nil => rfl
  | cons c x ih =>
    by_cases h : c.isDigit
    · simpa [h] using ih
    · simp [h]

/-- A run of digits ends where the text behind it begins with no digit. -/
theorem takeWhile_run (h : ∀ c ∈ run, c.isDigit) (hy : y.head?.any Char.isDigit = false) :
    (run ++ y).takeWhile Char.isDigit = run := by
  rw [List.takeWhile_append_of_pos h, takeWhile_eq_nil_of_head? hy, List.append_nil]

theorem dropWhile_run (h : ∀ c ∈ run, c.isDigit) (hy : y.head?.any Char.isDigit = false) :
    (run ++ y).dropWhile Char.isDigit = y := by
  rw [List.dropWhile_append_of_pos h, dropWhile_eq_self_of_head? hy]

/-! ## Splitting at a seam -/

theorem split_run (hne : run ≠ []) (h : ∀ c ∈ run, c.isDigit)
    (hy : y.head?.any Char.isDigit = false) :
    split false ('$' :: (run ++ y)) = .placeholder run :: split true y := by
  have hs : startsAt false '$' (run ++ y) = true := by
    cases run with
    | nil => exact absurd rfl hne
    | cons c run => simp [startsAt, h c (by simp)]
  rw [split, if_pos hs, takeWhile_run h hy, dropWhile_run h hy]

/-- What stands before a text matters only for a `$` at its front. -/
theorem split_eq_of_head? (b : Bool) (h : y.head?.any isIdentifierChar = false) :
    split b y = split false y := by
  cases y with
  | nil => simp [split]
  | cons c y =>
    have hc : c ≠ '$' := by
      rintro rfl
      simp [isIdentifierChar] at h
    have hs (b : Bool) : startsAt b c y = false := by simp [startsAt, hc]
    rw [split, split, hs, hs]

/-- A `$` and the digits behind it belong to an identifier. -/
theorem endsIn_dollar (b : Bool) (x : List Char) :
    endsIn b ('$' :: x) = endsIn true (x.dropWhile Char.isDigit) := by
  have hrun : ∀ c ∈ x.takeWhile Char.isDigit, c.isDigit := fun _ => List.mem_takeWhile_imp
  calc
    endsIn b ('$' :: x)
      = endsIn true (x.takeWhile Char.isDigit ++ x.dropWhile Char.isDigit) := by
        rw [List.takeWhile_append_dropWhile, endsIn_cons]
        rfl
    _ = endsIn true (x.dropWhile Char.isDigit) := by
        rw [endsIn_append, endsIn_of_forall_isDigit hrun]

theorem startsAt_iff :
    startsAt b c x = true ↔ c = '$' ∧ b = false ∧ x.head?.any Char.isDigit = true := by
  simp [startsAt, and_assoc]

theorem split_cons (h : ¬ startsAt b c x = true) :
    split b (c :: x) = .plain c :: split (isIdentifierChar c) x := by
  rw [split, if_neg h]

/-- The fragments of two texts are those of the whole when no digits of the second text can go on
with a placeholder of the first. -/
theorem split_append (h : endsIn b x = false ∨ y.head?.any Char.isDigit = false) :
    split b (x ++ y) = split b x ++ split (endsIn b x) y := by
  fun_induction split b x with
  | case1 b => rfl
  | case2 b c rest hs ih =>
    obtain ⟨rfl, rfl, hd⟩ := startsAt_iff.mp hs
    rw [endsIn_dollar] at h ⊢
    -- The run may reach the end of `x`; then `y` begins with no digit that could continue it.
    have hy : (rest.dropWhile Char.isDigit ++ y).head?.any Char.isDigit = false := by
      cases hrest : rest.dropWhile Char.isDigit with
      | nil =>
        rw [hrest] at h
        exact h.resolve_left (by simp)
      | cons d rest' => simpa [hrest] using head?_dropWhile_isDigit rest
    have hrun := split_run (takeWhile_ne_nil_of_head? hd) (fun _ => List.mem_takeWhile_imp) hy
    rw [← List.append_assoc, List.takeWhile_append_dropWhile] at hrun
    rw [List.cons_append, hrun, ih h, List.cons_append]
  | case3 b c rest hs ih =>
    rw [endsIn_cons] at h ⊢
    have hs' : ¬ startsAt b c (rest ++ y) = true := by
      intro hs'
      obtain ⟨rfl, rfl, hd⟩ := startsAt_iff.mp hs'
      cases rest with
      | nil =>
        have := h.resolve_left (by simp [isIdentifierChar])
        simp_all
      | cons d rest => exact hs (startsAt_iff.mpr ⟨rfl, rfl, by simpa using hd⟩)
    rw [List.cons_append, split_cons hs', ih h, List.cons_append]

/-- No identifier runs from one text into the next. -/
def Separate (s t : String) : Prop :=
  endsIn false s.toList = false ∨ t.toList.head?.any isIdentifierChar = false

theorem split_append_of_separate {s t : String} (h : Separate s t) :
    split false (s ++ t).toList = split false s.toList ++ split false t.toList := by
  rw [String.toList_append, split_append (h.imp_right not_isDigit_head?)]
  cases h with
  | inl h => rw [h]
  | inr h => rw [split_eq_of_head? _ h]

/-! ## Placeholders without the scanner -/

/-- A placeholder stands between `before` and `after`: its `$` continues no identifier, and it
takes all the digits there are, at least one. -/
structure Stands (before run after : List Char) : Prop where
  boundary : endsIn false before = false
  nonempty : run ≠ []
  digits : ∀ c ∈ run, c.isDigit
  maximal : after.head?.any Char.isDigit = false

/-- No placeholder stands anywhere in the text. -/
def Free (text : String) : Prop :=
  ∀ before run after, text.toList = before ++ '$' :: (run ++ after) → ¬ Stands before run after

/-- Every placeholder that stands in a text is split off. -/
theorem Stands.split (h : Stands before run after) :
    split false (before ++ '$' :: (run ++ after)) =
      split false before ++ .placeholder run :: split true after := by
  rw [split_append (.inl h.boundary), h.boundary, split_run h.nonempty h.digits h.maximal]

/-- Nothing else is split off as a placeholder. -/
theorem stands_of_split {fragments rest : List Fragment}
    (h : split b x = fragments ++ .placeholder run :: rest) :
    endsIn b (join fragments) = false ∧ run ≠ [] ∧ (∀ c ∈ run, c.isDigit) ∧
      (join rest).head?.any Char.isDigit = false := by
  fun_induction split b x generalizing fragments with
  | case1 => simp at h
  | case2 b c x hs ih =>
    obtain ⟨rfl, rfl, hd⟩ := startsAt_iff.mp hs
    cases fragments with
    | nil =>
      obtain ⟨hrun, rfl⟩ := List.cons.inj h
      obtain rfl := Fragment.placeholder.inj hrun
      refine ⟨rfl, takeWhile_ne_nil_of_head? hd, fun _ => List.mem_takeWhile_imp, ?_⟩
      simpa using head?_dropWhile_isDigit x
    | cons f fragments =>
      obtain ⟨rfl, htail⟩ := List.cons.inj h
      obtain ⟨hends, hrest⟩ := ih htail
      refine ⟨?_, hrest⟩
      have hrun : ∀ c ∈ x.takeWhile Char.isDigit, c.isDigit := fun _ => List.mem_takeWhile_imp
      simpa [join, Fragment.text, isIdentifierChar, endsIn_of_forall_isDigit hrun] using hends
  | case3 b c x hs ih =>
    cases fragments with
    | nil => simp at h
    | cons f fragments =>
      obtain ⟨rfl, htail⟩ := List.cons.inj h
      obtain ⟨hends, hrest⟩ := ih htail
      exact ⟨by simpa [join, Fragment.text] using hends, hrest⟩

/-! ## Texts without placeholders -/

theorem eq_map_plain {fragments : List Fragment} (h : ∀ run, .placeholder run ∉ fragments) :
    fragments = (join fragments).map .plain := by
  induction fragments with
  | nil => rfl
  | cons f fragments ih =>
    have ih := ih fun run hrun => h run (by simp [hrun])
    cases f with
    | plain c => simpa [join, Fragment.text] using ih
    | placeholder run => exact absurd (List.mem_cons_self ..) (h run)

theorem free_iff {text : String} :
    Free text ↔ ∀ run, .placeholder run ∉ split false text.toList := by
  constructor
  · intro hfree run hrun
    obtain ⟨fragments, rest, h⟩ := List.append_of_mem hrun
    have htext := join_split false text.toList
    rw [h] at htext
    obtain ⟨hends, hne, hdigits, hmax⟩ := stands_of_split h
    refine hfree (join fragments) run (join rest) ?_ ⟨hends, hne, hdigits, hmax⟩
    simpa [join, Fragment.text] using htext.symm
  · intro h before run after htext hs
    refine h run ?_
    rw [htext, hs.split]
    simp

theorem free_of_dollar_not_mem (text : String) (h : '$' ∉ text.toList) : Free text := by
  rintro before run after htext -
  exact h (by simp [htext])

theorem Free.split {text : String} (h : Free text) :
    split false text.toList = text.toList.map .plain := by
  have hplain := eq_map_plain (free_iff.mp h)
  rwa [join_split] at hplain

end Placeholder

end TableMapper
