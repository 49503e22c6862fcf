import TableMapper.Proofs.Placeholder.Split

/-!
# Numbering a text part by part

Numbering the placeholders of a whole text is numbering those of its parts, where each part goes on
from the number that the parts before it have reached.

## Main definitions

* `Placeholder.labels` — what the placeholders of a text read, from left to right.
* `Placeholder.Numbers` — numbering one text gives another.
-/

namespace TableMapper

namespace Placeholder

variable {k m n : Nat} {s s' t t' : String}

/-! ## Labels -/

def Fragment.run? : Fragment → Option (List Char)
  | plain _ => none
  | placeholder run => some run

def runs (fragments : List Fragment) : List (List Char) :=
  fragments.filterMap Fragment.run?

/-- The digits of the placeholders in a text, from left to right. -/
def labels (text : String) : List (List Char) :=
  runs (split false text.toList)

@[simp] theorem runs_plain (c : Char) (fragments : List Fragment) :
    runs (.plain c :: fragments) = runs fragments := rfl

@[simp] theorem runs_placeholder (run : List Char) (fragments : List Fragment) :
    runs (.placeholder run :: fragments) = run :: runs fragments := rfl

@[simp] theorem runs_append (xs ys : List Fragment) : runs (xs ++ ys) = runs xs ++ runs ys :=
  List.filterMap_append

@[simp] theorem runs_map_plain (x : List Char) : runs (x.map .plain) = [] := by
  induction x with
  | nil => rfl
  | cons c x ih => simpa using ih

theorem labels_append (h : Separate s t) : labels (s ++ t) = labels s ++ labels t := by
  rw [labels, split_append_of_separate h, runs_append]
  rfl

theorem mem_runs {run : List Char} {fragments : List Fragment} :
    run ∈ runs fragments ↔ .placeholder run ∈ fragments := by
  induction fragments with
  | nil => simp [runs]
  | cons f fragments ih => cases f <;> simp [ih]

theorem free_iff_labels : Free s ↔ labels s = [] := by
  simp [free_iff, labels, List.eq_nil_iff_forall_not_mem, mem_runs]

theorem Free.append (hs : Free s) (ht : Free t) (h : Separate s t) : Free (s ++ t) := by
  rw [free_iff_labels] at *
  rw [labels_append h, hs, ht, List.append_nil]

instance (text : String) : Decidable (Free text) :=
  decidable_of_iff (labels text = []) free_iff_labels.symm

/-! ## Numbering fragments -/

@[simp] theorem number_append (n : Nat) (xs ys : List Fragment) :
    number n (xs ++ ys) = number n xs ++ number (n + (runs xs).length) ys := by
  induction xs generalizing n with
  | nil => rfl
  | cons f xs ih =>
    cases f with
    | plain c => simp [number, ih]
    | placeholder run => simp [number, ih, Nat.add_assoc, Nat.add_comm 1]

@[simp] theorem number_map_plain (n : Nat) (x : List Char) :
    number n (x.map .plain) = x.map .plain := by
  induction x with
  | nil => rfl
  | cons c x ih => simp [number, ih]

/-- Numbered placeholders read the numbers from `n` on. -/
theorem runs_number (n : Nat) (fragments : List Fragment) :
    runs (number n fragments) = (List.range' n (runs fragments).length).map digits := by
  induction fragments generalizing n with
  | nil => rfl
  | cons f fragments ih =>
    cases f with
    | plain c => simpa [number] using ih n
    | placeholder run => simpa [number, List.range'_succ] using ih (n + 1)

/-! ## One placeholder -/

theorem digits_ne_nil (n : Nat) : digits n ≠ [] := by
  simp [digits, Nat.toDigits_ne_nil]

theorem isDigit_of_mem_digits {c : Char} (h : c ∈ digits n) : c.isDigit := by
  rw [digits, Nat.toString_eq_repr, Nat.toList_repr] at h
  exact Nat.isDigit_of_mem_toDigits (by decide) (by decide) h

theorem digits_injective (h : digits k = digits n) : k = n := by
  simp only [digits, Nat.toString_eq_repr, Nat.toList_repr] at h
  have hk : Nat.ofDigitChars 10 (Nat.toDigits 10 k) 0 = k :=
    Nat.ofDigitChars_toDigits (by decide) (by decide)
  have hn : Nat.ofDigitChars 10 (Nat.toDigits 10 n) 0 = n :=
    Nat.ofDigitChars_toDigits (by decide) (by decide)
  rw [← hk, h, hn]

/-- A number can be told from a text behind it that begins with no digit. -/
theorem digits_append_inj {x y : List Char} (hx : x.head?.any Char.isDigit = false)
    (hy : y.head?.any Char.isDigit = false) (h : digits k ++ x = digits n ++ y) :
    k = n ∧ x = y := by
  have htake := congrArg (List.takeWhile Char.isDigit) h
  have hdrop := congrArg (List.dropWhile Char.isDigit) h
  rw [takeWhile_run (fun _ => isDigit_of_mem_digits) hx,
    takeWhile_run (fun _ => isDigit_of_mem_digits) hy] at htake
  rw [dropWhile_run (fun _ => isDigit_of_mem_digits) hx,
    dropWhile_run (fun _ => isDigit_of_mem_digits) hy] at hdrop
  exact ⟨digits_injective htake, hdrop⟩

theorem stands_digits {before after : List Char} (n : Nat) (hb : endsIn false before = false)
    (ha : after.head?.any Char.isDigit = false) : Stands before (digits n) after :=
  ⟨hb, digits_ne_nil n, fun _ => isDigit_of_mem_digits, ha⟩

theorem split_dollar (n : Nat) :
    split false ("$" ++ toString n).toList = [.placeholder (digits n)] := by
  have h := (stands_digits n rfl rfl : Stands [] (digits n) []).split
  simpa [split, digits] using h

/-! ## Numbering texts -/

/-- Numbering the placeholders of `s` from `n` on gives `t`; the number after the last is `m`. -/
structure Numbers (n m : Nat) (s t : String) : Prop where
  number : number n (split false s.toList) = split false t.toList
  next : m = n + (labels s).length

namespace Numbers

/-- The parts of a text are numbered one after the other. -/
theorem append (h : Numbers n m s t) (h' : Numbers m k s' t') (hs : Separate s s')
    (ht : Separate t t') : Numbers n k (s ++ s') (t ++ t') where
  number := by
    rw [split_append_of_separate hs, split_append_of_separate ht, number_append, h.number,
      ← labels, ← h.next, h'.number]
  next := by rw [h'.next, h.next, labels_append hs, List.length_append, Nat.add_assoc]

theorem of_free (n : Nat) (h : Free s) : Numbers n n s s where
  number := by rw [h.split, number_map_plain]
  next := by simp [free_iff_labels.mp h]

/-- Plain text before a numbered text stays as it is. -/
theorem prepend {pre : String} (h : Numbers n m s t) (hpre : Free pre)
    (hl : endsIn false pre.toList = false) : Numbers n m (pre ++ s) (pre ++ t) :=
  (of_free n hpre).append h (.inl hl) (.inl hl)

/-- Plain text behind a numbered text stays as it is. -/
theorem append_free {post : String} (h : Numbers n m s t) (hpost : Free post)
    (hr : post.toList.head?.any isIdentifierChar = false) :
    Numbers n m (s ++ post) (t ++ post) :=
  h.append (of_free m hpost) (.inr hr) (.inr hr)

/-- A placeholder takes the next number, whatever number it had. -/
theorem dollar (k n : Nat) : Numbers n (n + 1) ("$" ++ toString k) ("$" ++ toString n) where
  number := by rw [split_dollar, split_dollar]; rfl
  next := by rw [labels, split_dollar]; rfl

theorem renumber_eq (h : Numbers 1 m s t) : renumber s = t := by
  rw [renumber, h.number, join_split, String.ofList_toList]

/-- The placeholders of a numbered text read the numbers in order. -/
theorem labels_eq (h : Numbers n m s t) : labels t = (List.range' n (m - n)).map digits := by
  rw [labels, ← h.number, runs_number, ← labels, h.next, Nat.add_sub_cancel_left]

end Numbers

/-! ## What a placeholder stands behind -/

/-- The placeholder `$k` stands in the text right behind `lead`, and `i` placeholders stand to the
left of it. -/
def Follows (text : String) (i k : Nat) (lead : String) : Prop :=
  ∃ before after : String,
    text = before ++ lead ++ ("$" ++ toString k) ++ after ∧
    Stands (before ++ lead).toList (digits k) after.toList ∧
    (labels (before ++ lead)).length = i

theorem Follows.enclose {text lead : String} {i : Nat} (h : Follows text i k lead)
    (pre post : String) (hl : endsIn false pre.toList = false)
    (hr : post.toList.head?.any isIdentifierChar = false) :
    Follows (pre ++ text ++ post) ((labels pre).length + i) k lead := by
  obtain ⟨before, after, rfl, hs, hi⟩ := h
  refine ⟨pre ++ before, after ++ post, by simp only [String.append_assoc], ?_, ?_⟩
  · refine stands_digits k ?_ ?_
    · have hb := hs.boundary
      simp only [String.toList_append, endsIn_append] at hb ⊢
      rwa [hl]
    · have hm := hs.maximal
      rw [String.toList_append]
      cases hafter : after.toList with
      | nil => exact not_isDigit_head? hr
      | cons c rest => simpa [hafter] using hm
  · rw [String.append_assoc, labels_append (.inl hl), List.length_append, hi]

end Placeholder

end TableMapper
