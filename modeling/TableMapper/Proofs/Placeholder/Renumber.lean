import TableMapper.Proofs.Placeholder.Bytes
import TableMapper.Proofs.Placeholder.Number

/-!
# Renumbering a text

Renumbering gives every placeholder new digits and leaves the rest of the text as it is. New digits
are no identifier to the left of a `$` that was none before, and they end where the old ones ended,
so the placeholders of the new text stand where those of the old one stood.

## Main definitions

* `Placeholder.Exact` — the placeholders among fragments are those that stand in their text.
-/

namespace TableMapper

namespace Placeholder

variable {b : Bool} {c : Char} {x y : List Char} {s : String} {fragments : List Fragment}

/-! ## Scanning what was numbered -/

theorem join_append (fragments rest : List Fragment) :
    join (fragments ++ rest) = join fragments ++ join rest :=
  List.flatMap_append

/-- Numbering changes no first character. -/
theorem head?_join_number (k : Nat) (fragments : List Fragment) :
    (join (number k fragments)).head? = (join fragments).head? := by
  cases fragments with
  | nil => rfl
  | cons f fragments => cases f <;> rfl

theorem startsAt_congr (h : x.head? = y.head?) : startsAt b c x = startsAt b c y := by
  simp only [startsAt, h]

/-- Numbered fragments are found again in the text they are put together to. -/
theorem split_join_number (b : Bool) (k : Nat) (x : List Char) :
    split b (join (number k (split b x))) = number k (split b x) := by
  fun_induction split b x generalizing k with
  | case1 => simp [split, number, join]
  | case2 b c rest hs ih =>
    obtain ⟨rfl, rfl, -⟩ := startsAt_iff.mp hs
    have hmax : (join (number (k + 1) (split true (rest.dropWhile Char.isDigit)))).head?.any
        Char.isDigit = false := by
      rw [head?_join_number, join_split, head?_dropWhile_isDigit]
    calc
      split false ('$' :: (digits k ++ _))
        = .placeholder (digits k) :: split true _ :=
          split_run (digits_ne_nil k) (fun _ => isDigit_of_mem_digits) hmax
      _ = _ := congrArg _ (ih (k + 1))
  | case3 b c rest hs ih =>
    have hs' : ¬ startsAt b c (join (number k (split (isIdentifierChar c) rest))) = true := by
      rwa [startsAt_congr (y := rest) (by rw [head?_join_number, join_split])]
    calc
      split b (c :: join (number k (split (isIdentifierChar c) rest)))
        = .plain c :: split (isIdentifierChar c) _ := split_cons hs'
      _ = _ := congrArg _ (ih k)

theorem exists_numbers (n : Nat) (s : String) : ∃ t, Numbers n (n + (labels s).length) s t :=
  ⟨.ofList (join (number n (split false s.toList))), by simp [split_join_number], rfl⟩

/-- The numbers that placeholders had before do not matter. -/
theorem number_number (k n : Nat) (fragments : List Fragment) :
    number k (number n fragments) = number k fragments := by
  induction fragments generalizing k n with
  | nil => rfl
  | cons f fragments ih => cases f <;> simp [number, ih]

theorem Numbers.renumber_congr {n m : Nat} {t : String} (h : Numbers n m s t) :
    renumber t = renumber s := by
  rw [renumber, ← h.number, number_number, renumber]

theorem numbers_renumber (s : String) : Numbers 1 (1 + (labels s).length) s (renumber s) := by
  obtain ⟨t, h⟩ := exists_numbers 1 s
  rwa [h.renumber_eq]

theorem labels_renumber (s : String) :
    labels (renumber s) = (List.range' 1 (labels s).length).map digits := by
  simpa using (numbers_renumber s).labels_eq

/-- Placeholders that read the numbers from `n` on keep them. -/
theorem number_eq_self {n : Nat}
    (h : runs fragments = (List.range' n (runs fragments).length).map digits) :
    number n fragments = fragments := by
  induction fragments generalizing n with
  | nil => rfl
  | cons f fragments ih =>
    cases f with
    | plain c => rw [number, ih h]
    | placeholder run =>
      simp only [runs_placeholder, List.length_cons, List.range'_succ, List.map_cons,
        List.cons.injEq] at h
      rw [number, ih h.2, h.1]

theorem renumber_eq_self_iff :
    renumber s = s ↔ labels s = (List.range' 1 (labels s).length).map digits := by
  constructor
  · intro h
    rw [← labels_renumber, h]
  · intro h
    rw [renumber, number_eq_self h, join_split, String.ofList_toList]

theorem renumber_renumber (s : String) : renumber (renumber s) = renumber s := by
  rw [renumber_eq_self_iff, labels_renumber]
  simp

/-! ## Places of placeholders -/

def Fragment.plain? : Fragment → Option Char
  | plain c => some c
  | placeholder _ => none

/-- What is no placeholder stays in its place. -/
theorem map_plain?_number (n : Nat) (fragments : List Fragment) :
    (number n fragments).map Fragment.plain? = fragments.map Fragment.plain? := by
  induction fragments generalizing n with
  | nil => rfl
  | cons f fragments ih => cases f <;> simp [number, Fragment.plain?, ih]

/-- The placeholders among the fragments are those that stand in the bytes of their text. -/
def Exact (fragments : List Fragment) : Prop :=
  ∀ before run after : List UInt8,
    bytes (join fragments) = before ++ 36 :: (run ++ after) ∧ StandsInBytes before run after ↔
      ∃ left digits right, fragments = left ++ .placeholder digits :: right ∧
        bytes (join left) = before ∧ bytes digits = run ∧ bytes (join right) = after

theorem utf8EncodeChar_dollar : String.utf8EncodeChar '$' = [36] := by decide

/-- Scanning finds the placeholders that stand in the bytes of a text, and no others. -/
theorem exact_split (x : List Char) : Exact (split false x) := by
  intro before run after
  rw [join_split]
  constructor
  · rintro ⟨hbytes, hs⟩
    obtain ⟨left, digits, right, rfl, hstands, rfl, rfl, rfl⟩ := hs.exists_stands hbytes
    exact ⟨split false left, digits, split true right, hstands.split, by simp⟩
  · rintro ⟨left, digits, right, h, rfl, rfl, rfl⟩
    obtain ⟨hends, hne, hdigits, hmax⟩ := stands_of_split h
    have hx : x = join left ++ '$' :: (digits ++ join right) := by
      rw [← join_split false x, h, join_append]
      rfl
    have hstands : Stands (join left) digits (join right) := ⟨hends, hne, hdigits, hmax⟩
    refine ⟨?_, hstands.inBytes⟩
    rw [hx, bytes_append, bytes_cons, bytes_append, utf8EncodeChar_dollar]
    rfl

/-- Whatever stands for a placeholder in the bytes of a text begins and ends between two of its
characters. -/
theorem StandsInBytes.isValid {before run after : List UInt8} (h : StandsInBytes before run after)
    (hs : s.toByteArray.data.toList = before ++ 36 :: (run ++ after)) :
    String.Pos.Raw.IsValid s ⟨before.length⟩ ∧
      String.Pos.Raw.IsValid s ⟨before.length + 1 + run.length⟩ := by
  rw [toList_data_toByteArray] at hs
  obtain ⟨x, digits, y, htext, -, rfl, rfl, -⟩ := h.exists_stands hs
  have hend : s.toList = (x ++ '$' :: digits) ++ y := by simp [htext]
  have hlength : (bytes x).length + 1 + (bytes digits).length =
      (bytes (x ++ '$' :: digits)).length := by
    simp [utf8EncodeChar_dollar, Nat.add_assoc, Nat.add_comm 1]
  rw [hlength]
  exact ⟨isValid_length_bytes htext, isValid_length_bytes hend⟩

/-- Renumbering replaces the digits of the `k`-th placeholder that stands in the bytes of a text by
`k`, for every `k`, and keeps everything else in its place. No placeholder is lost or added by it:
those of the result are the ones that were replaced. So only a text whose placeholders read
`$1, $2, ...` stays as it is, the result among them, and the text is cut only between characters. -/
theorem renumber_replaces_in_order (s : String) :
    ∃ fragments numbered,
      join fragments = s.toList ∧ Exact fragments ∧
      join numbered = (renumber s).toList ∧ Exact numbered ∧
      numbered.map Fragment.plain? = fragments.map Fragment.plain? ∧
      runs numbered = (List.range' 1 (runs fragments).length).map digits ∧
      (renumber s = s ↔ runs fragments = (List.range' 1 (runs fragments).length).map digits) ∧
      renumber (renumber s) = renumber s ∧
      ∀ before run after, s.toByteArray.data.toList = before ++ 36 :: (run ++ after) →
        StandsInBytes before run after →
        String.Pos.Raw.IsValid s ⟨before.length⟩ ∧
          String.Pos.Raw.IsValid s ⟨before.length + 1 + run.length⟩ := by
  have hnumber := (numbers_renumber s).number
  refine ⟨split false s.toList, split false (renumber s).toList, join_split .., exact_split _,
    join_split .., exact_split _, ?_, labels_renumber s, renumber_eq_self_iff,
    renumber_renumber s, fun before run after hs h => h.isValid hs⟩
  rw [← hnumber, map_plain?_number]

example : renumber "price$1 = $7 AND é$2 < $10$3" = "price$1 = $1 AND é$2 < $2$3" := by
  decide +kernel

end Placeholder

end TableMapper
