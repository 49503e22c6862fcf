import TableMapper.Proofs.Placeholder.Split

/-!
# Placeholders in bytes

The scanner walks over the characters of a text. Its UTF-8 bytes have their placeholders in the
same places: a byte below 128 stands for one ASCII character, and every byte of another character
may continue an identifier. So a placeholder that is found byte by byte begins and ends between two
characters.

## Main definitions

* `Placeholder.bytes` — the UTF-8 bytes of a text.
* `Placeholder.StandsInBytes` — a placeholder between the bytes before it and the bytes after it.
-/

namespace TableMapper

namespace Placeholder

variable {c : Char} {b : UInt8} {text x y digits : List Char} {u v before run after : List UInt8}

def bytes (text : List Char) : List UInt8 := text.flatMap String.utf8EncodeChar

@[simp] theorem bytes_nil : bytes [] = [] := rfl

@[simp] theorem bytes_cons (c : Char) (x : List Char) :
    bytes (c :: x) = String.utf8EncodeChar c ++ bytes x := rfl

@[simp] theorem bytes_append (x y : List Char) : bytes (x ++ y) = bytes x ++ bytes y :=
  List.flatMap_append

@[simp] theorem bytes_eq_nil_iff : bytes x = [] ↔ x = [] := by
  cases x <;> simp

theorem toList_data_toByteArray (s : String) : s.toByteArray.data.toList = bytes s.toList := by
  obtain ⟨x, rfl⟩ := s.exists_eq_ofList
  simp [bytes, List.utf8Encode]

theorem length_bytes (x : List Char) : (bytes x).length = (String.ofList x).utf8ByteSize := by
  have h := toList_data_toByteArray (.ofList x)
  rw [String.toList_ofList] at h
  simp only [← h, Array.length_toList, ByteArray.size_data, String.size_toByteArray]

/-- The bytes of the first characters of a text end between two characters. -/
theorem isValid_length_bytes {s : String} (h : s.toList = x ++ y) :
    String.Pos.Raw.IsValid s ⟨(bytes x).length⟩ := by
  refine String.Pos.Raw.isValid_iff_exists_append.mpr ⟨.ofList x, .ofList y, ?_, ?_⟩
  · rw [← String.ofList_append, ← h, String.ofList_toList]
  · rw [length_bytes]
    rfl

/-! ## The bytes of a character -/

def isDigitByte (b : UInt8) : Bool := 48 ≤ b && b ≤ 57

/-- The bytes an identifier may continue with: those of ASCII letters and digits, of `_` and `$`,
and those that no ASCII character has. -/
def isIdentifierByte (b : UInt8) : Bool :=
  isDigitByte b || (65 ≤ b && b ≤ 90) || (97 ≤ b && b ≤ 122) || b == 95 || b == 36 || 128 ≤ b

theorem utf8EncodeChar_of_lt (hc : c.toNat < 128) :
    String.utf8EncodeChar c = [UInt8.ofNat c.toNat] := by
  simp [String.utf8EncodeChar]
  omega

theorem le_ofNat {n : Nat} (h : 128 ≤ n % 256) : 128 ≤ UInt8.ofNat n := by
  rw [UInt8.le_iff_toNat_le, UInt8.toNat_ofNat']
  exact h

theorem le_of_mem_utf8EncodeChar (hc : 128 ≤ c.toNat) (hb : b ∈ String.utf8EncodeChar c) :
    128 ≤ b := by
  have h : ¬ c.val.toNat ≤ 127 := Nat.not_le.mpr hc
  unfold String.utf8EncodeChar at hb
  grind [le_ofNat]

/-- A byte below 128 is all there is of its character. -/
theorem eq_of_mem_utf8EncodeChar (hb : b < 128) (h : b ∈ String.utf8EncodeChar c) :
    String.utf8EncodeChar c = [b] ∧ c = Char.ofNat b.toNat := by
  have hc : c.toNat < 128 := by
    by_contra hc
    have := le_of_mem_utf8EncodeChar (Nat.not_lt.mp hc) h
    grind
  rw [utf8EncodeChar_of_lt hc] at h ⊢
  obtain rfl := List.mem_singleton.mp h
  simp [Nat.mod_eq_of_lt (Nat.lt_trans hc (by decide : 128 < 256))]

theorem forall_ascii {p : Char → Prop} (h : ∀ n < 128, p (Char.ofNat n)) (hc : c.toNat < 128) :
    p c := by
  simpa using h c.toNat hc

/-- The last byte of a character tells whether an identifier may continue behind it. -/
theorem any_getLast?_utf8EncodeChar (c : Char) :
    (String.utf8EncodeChar c).getLast?.any isIdentifierByte = isIdentifierChar c := by
  rcases Nat.lt_or_ge c.toNat 128 with hc | hc
  · rw [utf8EncodeChar_of_lt hc]
    exact forall_ascii (p := fun c => [UInt8.ofNat c.toNat].getLast?.any isIdentifierByte =
      isIdentifierChar c) (by decide +kernel) hc
  · have hb := le_of_mem_utf8EncodeChar hc (List.getLast_mem String.utf8EncodeChar_ne_nil)
    simp [List.getLast?_eq_some_getLast String.utf8EncodeChar_ne_nil, isIdentifierByte,
      isIdentifierChar, hb, hc]

/-- The first byte of a character tells whether it is a digit. -/
theorem any_head?_utf8EncodeChar (c : Char) :
    (String.utf8EncodeChar c).head?.any isDigitByte = c.isDigit := by
  rcases Nat.lt_or_ge c.toNat 128 with hc | hc
  · rw [utf8EncodeChar_of_lt hc]
    exact forall_ascii (p := fun c => [UInt8.ofNat c.toNat].head?.any isDigitByte = c.isDigit)
      (by decide +kernel) hc
  · have hb := le_of_mem_utf8EncodeChar hc (List.head_mem String.utf8EncodeChar_ne_nil)
    have hdigit : c.isDigit = false := by
      grind [Char.isDigit_iff_toNat]
    rw [List.head?_eq_some_head String.utf8EncodeChar_ne_nil, hdigit]
    grind [isDigitByte]

/-- A character that is one digit byte is that digit. -/
theorem isDigitByte_eq (h : String.utf8EncodeChar c = [b]) : isDigitByte b = c.isDigit := by
  simpa [h] using any_head?_utf8EncodeChar c

/-! ## Characters at a byte -/

/-- A byte below 128 splits a text between its characters. -/
theorem exists_of_bytes_eq (hb : b < 128) (h : bytes text = u ++ b :: v) :
    ∃ x c y, text = x ++ c :: y ∧ String.utf8EncodeChar c = [b] ∧ bytes x = u ∧ bytes y = v := by
  induction text generalizing u with
  | nil => simp at h
  | cons c text ih =>
    rw [bytes_cons, List.append_eq_append_iff] at h
    rcases h with ⟨w, rfl, htext⟩ | ⟨w, hc, hw⟩
    · obtain ⟨x, d, y, rfl, hd, rfl, rfl⟩ := ih htext
      exact ⟨c :: x, d, y, rfl, hd, rfl, rfl⟩
    · cases w with
      | nil =>
        obtain ⟨x, d, y, rfl, hd, hx, rfl⟩ := ih (u := []) hw.symm
        obtain rfl := bytes_eq_nil_iff.mp hx
        exact ⟨[c], d, y, rfl, hd, by simpa using hc, rfl⟩
      | cons d w =>
        obtain ⟨rfl, hv⟩ := List.cons.inj hw
        have hone := (eq_of_mem_utf8EncodeChar (c := c) hb (by grind)).1
        rw [hone] at hc
        obtain ⟨rfl, rfl⟩ : u = [] ∧ w = [] := by
          simpa [List.append_eq_singleton_iff] using hc.symm
        exact ⟨[], c, text, rfl, hone, rfl, hv.symm⟩

/-- Digits at the front of a text are its first characters. -/
theorem exists_of_bytes_eq_append (hrun : ∀ b ∈ run, isDigitByte b) (h : bytes text = run ++ v) :
    ∃ digits y, text = digits ++ y ∧ (∀ c ∈ digits, c.isDigit) ∧ bytes digits = run ∧
      bytes y = v := by
  induction run generalizing text with
  | nil => exact ⟨[], text, rfl, by simp, rfl, h⟩
  | cons b run ih =>
    have hdigit := hrun b (by simp)
    have hb : b < 128 := by grind [isDigitByte]
    obtain ⟨x, c, y, rfl, hc, hx, hy⟩ := exists_of_bytes_eq (u := []) hb h
    obtain rfl := bytes_eq_nil_iff.mp hx
    obtain ⟨digits, z, rfl, hdigits, rfl, hz⟩ := ih (by grind) hy
    exact ⟨c :: digits, z, rfl, by grind [isDigitByte_eq], by simp [hc], hz⟩

theorem any_getLast?_bytes (x : List Char) :
    (bytes x).getLast?.any isIdentifierByte = endsIn false x := by
  rcases List.eq_nil_or_concat x with rfl | ⟨y, c, rfl⟩
  · rfl
  · have hlast := List.getLast?_eq_some_getLast (String.utf8EncodeChar_ne_nil (c := c))
    have hany := any_getLast?_utf8EncodeChar c
    rw [hlast] at hany
    simpa [hlast] using hany

theorem any_head?_bytes (x : List Char) :
    (bytes x).head?.any isDigitByte = x.head?.any Char.isDigit := by
  cases x with
  | nil => rfl
  | cons c x =>
    have hhead := List.head?_eq_some_head (String.utf8EncodeChar_ne_nil (c := c))
    have hany := any_head?_utf8EncodeChar c
    rw [hhead] at hany
    simpa [hhead] using hany

theorem isDigitByte_of_mem_bytes (h : ∀ c ∈ digits, c.isDigit) (hb : b ∈ bytes digits) :
    isDigitByte b := by
  obtain ⟨c, hc, hb⟩ := List.mem_flatMap.mp hb
  have hlt : c.toNat < 128 := by grind [Char.isDigit_iff_toNat]
  have henc := utf8EncodeChar_of_lt hlt
  grind [isDigitByte_eq]

/-! ## Placeholders -/

/-- A placeholder stands between bytes: its `$` comes behind no byte of an identifier, and it takes
all the digits there are, at least one. -/
structure StandsInBytes (before run after : List UInt8) : Prop where
  boundary : before.getLast?.any isIdentifierByte = false
  nonempty : run ≠ []
  digits : ∀ b ∈ run, isDigitByte b
  maximal : after.head?.any isDigitByte = false

theorem Stands.inBytes (h : Stands x digits y) :
    StandsInBytes (bytes x) (bytes digits) (bytes y) where
  boundary := by rw [any_getLast?_bytes, h.boundary]
  nonempty := by simpa using h.nonempty
  digits _ := isDigitByte_of_mem_bytes h.digits
  maximal := by rw [any_head?_bytes, h.maximal]

/-- A placeholder that stands between bytes stands between characters. -/
theorem StandsInBytes.exists_stands (h : StandsInBytes before run after)
    (htext : bytes text = before ++ 36 :: (run ++ after)) :
    ∃ x digits y, text = x ++ '$' :: (digits ++ y) ∧ Stands x digits y ∧ bytes x = before ∧
      bytes digits = run ∧ bytes y = after := by
  obtain ⟨x, c, rest, rfl, hc, rfl, hrest⟩ := exists_of_bytes_eq (by decide) htext
  obtain rfl : c = '$' := (eq_of_mem_utf8EncodeChar (b := 36) (by decide) (by simp [hc])).2
  obtain ⟨digits, y, rfl, hdigits, rfl, rfl⟩ := exists_of_bytes_eq_append h.digits hrest
  refine ⟨x, digits, y, rfl, ⟨?_, ?_, hdigits, ?_⟩, rfl, rfl, rfl⟩
  · rw [← any_getLast?_bytes, h.boundary]
  · simpa using h.nonempty
  · rw [← any_head?_bytes, h.maximal]

end Placeholder

end TableMapper
