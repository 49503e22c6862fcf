import TableMapper.Proofs.Sequence
import TableMapper.Proofs.Value.Moment
import TableMapper.Proofs.Wire.Width
import TableMapper.Value.Type
import TableMapper.Wire.Decode

/-!
# Reading back what was written

A value that is encoded for a column and then decoded from it keeps its content. An integer may
change its width, a narrow column rounds a float, a text in a uuid column becomes the uuid it
spells, and a moment is cut to microseconds and taken out of a leap second; nothing else is lost.
The leap second behind the last second of the calendar is written, and what is written for it has
no value.

## Main definitions

* `Value.AfterCalendar` — a value that is written and not read.
* `Wire.Survives` — how a value comes back from a column.
* `Wire.ComesBack` — a term is written and the same term is read.
* `Wire.Keeps` — the columns and terms for which this is so.
-/

namespace TableMapper

/-! ## How values come back -/

/-- The value is a moment that the calendar counts no second for. -/
def Value.AfterCalendar : Value → Prop
  | .timestamp m => m.AfterCalendar
  | .timestamptz m => m.AfterCalendar
  | _ => False

theorem Value.not_afterCalendar_of_int? {v : Value} {n : Int} (hv : v.int? = some n) :
    ¬ v.AfterCalendar := by
  cases v with
  | int4 _ | int8 _ => exact id
  | _ => cases hv

namespace Wire

/-- The column types that are read as text. -/
def textTypes : List ColumnType := [.text, .varchar, .bpchar, .name]

/-- `Survives type v w`: from a column of this type, `v` comes back as `w`. -/
inductive Survives : ColumnType → Value → Value → Prop
  | text {type : ColumnType} (s : String) (htype : type ∈ textTypes) :
    Survives type (.text s) (.text s)
  | spelled {s : String} {u : Uuid} (h : Uuid.parse? s = some u) :
    Survives .uuid (.text s) (.uuid u)
  | int4 {type : ColumnType} {v : Value} {n : Int32} (htype : type = .int2 ∨ type = .int4)
      (hv : v.int? = some n.toInt) : Survives type v (.int4 n)
  | int8 {v : Value} {n : Int64} (hv : v.int? = some n.toInt) : Survives .int8 v (.int8 n)
  | float4 (x : Binary64) : Survives .float4 (.float8 x) (.float8 x.narrow.widen)
  | float8 (x : Binary64) : Survives .float8 (.float8 x) (.float8 x)
  | bool (b : Bool) : Survives .bool (.bool b) (.bool b)
  | bytea (bytes : Bytes) : Survives .bytea (.bytea bytes) (.bytea bytes)
  | uuid (u : Uuid) : Survives .uuid (.uuid u) (.uuid u)
  | timestamp {m m' : Moment} (h : m'.CutFrom m) :
    Survives .timestamp (.timestamp m) (.timestamp m')
  | timestamptz {m m' : Moment} (h : m'.CutFrom m) :
    Survives .timestamptz (.timestamptz m) (.timestamptz m')

variable {type : ColumnType} {bytes : Bytes} {n : Int} {s : String} {v w : Value}

/-! ## Binary forms -/

theorem readInt_ofInt {width : Nat} (h : BigEndian.fits (width + 1) n) :
    readInt (width + 1) (BigEndian.ofInt (width + 1) n) = some n := by
  rw [readInt, if_pos (BigEndian.length_ofInt _ _), BigEndian.toInt_ofInt h]

theorem readNat_ofNat {width k : Nat} (h : k < Nat.pow 256 width) :
    readNat width (BigEndian.ofNat width k) = some k := by
  rw [readNat, if_pos (BigEndian.length_ofNat _ _), BigEndian.toNat_ofNat, Nat.mod_eq_of_lt h]

theorem readText_utf8 (s : String) : readText (utf8 s) = some s := by
  change String.fromUTF8? s.toByteArray = some s
  rw [String.fromUTF8?, dif_pos s.isValidUTF8]
  rfl

theorem readBool_bit (b : Bool) : readBool [if b then 1 else 0] = some b := by
  cases b <;> rfl

theorem ofBytes?_bytes (u : Uuid) : Uuid.ofBytes? u.bytes = some u :=
  dif_pos u.length_bytes

theorem readMoment_encodeMoment (m : Moment) :
    readMoment (encodeMoment m) = Moment.ofMicros? m.micros := by
  rw [readMoment, encodeMoment, readInt_ofInt m.fits_micros]
  rfl

theorem exists_readMoment {m : Moment} (h : ¬ m.AfterCalendar) :
    ∃ m', readMoment (encodeMoment m) = some m' ∧ m'.CutFrom m := by
  obtain ⟨m', hm', hsince, hleap⟩ := Moment.exists_ofMicros?_micros h
  exact ⟨m', (readMoment_encodeMoment m).trans hm', Moment.cutFrom_micros hsince hleap⟩

theorem readMoment_eq_none {m : Moment} (h : m.AfterCalendar) :
    readMoment (encodeMoment m) = none :=
  (readMoment_encodeMoment m).trans (Moment.ofMicros?_micros_eq_none h)

/-! ## What is written is read -/

theorem decode_eq_ok {read : Bytes → Option Value} (hread : reader? type = some read)
    (hv : read bytes = some v) : decode type (some bytes) = .ok v := by
  simp only [decode, hread, hv]

theorem decode_eq_malformed {read : Bytes → Option Value} (hread : reader? type = some read)
    (hv : read bytes = none) : decode type (some bytes) = .error .malformed := by
  simp only [decode, hread, hv]

theorem checked_eq_ok_iff {own : ColumnType} {cell : Bytes} :
    checked own cell type = .ok bytes ↔ type = own ∧ cell = bytes := by
  unfold checked
  split <;> simp_all

theorem map_some_eq_ok_some {ε α : Type} {e : Except ε α} {a : α} :
    some <$> e = .ok (some a) ↔ e = .ok a := by
  simp [map_eq_ok_iff]

/-- An integer is read back in the width of its column. -/
theorem survives_int (hv : v.int? = some n) (h : encodeInt n type = .ok bytes) :
    ∃ w, decode type (some bytes) = .ok w ∧ Survives type v w := by
  obtain ⟨width, hwidth, hfits, rfl⟩ := encodeInt_eq_ok_iff.mp h
  cases type <;> cases hwidth
  case int2 =>
    refine ⟨.int4 (Int32.ofInt n), decode_eq_ok rfl ?_, .int4 (.inl rfl) ?_⟩
    · rw [readInt_ofInt hfits]
      rfl
    · rw [hv, BigEndian.toInt_ofInt32 (BigEndian.fits_of_le (by omega) hfits)]
  case int4 =>
    refine ⟨.int4 (Int32.ofInt n), decode_eq_ok rfl ?_, .int4 (.inr rfl) ?_⟩
    · rw [readInt_ofInt hfits]
      rfl
    · rw [hv, BigEndian.toInt_ofInt32 hfits]
  case int8 =>
    refine ⟨.int8 (Int64.ofInt n), decode_eq_ok rfl ?_, .int8 ?_⟩
    · rw [readInt_ofInt hfits]
      rfl
    · rw [hv, BigEndian.toInt_ofInt64 hfits]

theorem survives_text (hread : (reader? type).isSome) (h : encodeText s type = .ok bytes) :
    ∃ w, decode type (some bytes) = .ok w ∧ Survives type (.text s) w := by
  cases type with
  | text | varchar | bpchar | name =>
    cases h
    refine ⟨.text s, decode_eq_ok rfl ?_, .text s (by decide)⟩
    rw [readText_utf8]
    rfl
  | uuid =>
    unfold encodeText at h
    cases hparse : Uuid.parse? s with
    | none =>
      rw [hparse] at h
      cases h
    | some u =>
      rw [hparse] at h
      cases h
      refine ⟨.uuid u, decode_eq_ok rfl ?_, .spelled hparse⟩
      rw [ofBytes?_bytes]
      rfl
  -- The other types that take texts are not read.
  | unknown | other _ => cases hread
  | _ => cases h

theorem survives_float {x : Binary64} (h : encodeFloat x type = .ok bytes) :
    ∃ w, decode type (some bytes) = .ok w ∧ Survives type (.float8 x) w := by
  cases type with
  | float4 =>
    cases h
    refine ⟨_, decode_eq_ok rfl ?_, .float4 x⟩
    rw [readNat_ofNat x.narrow.bits.toNat_lt]
    simp
  | float8 =>
    cases h
    refine ⟨_, decode_eq_ok rfl ?_, .float8 x⟩
    rw [readNat_ofNat x.bits.toNat_lt]
    simp
  | _ => cases h

/-- The case of a value that goes only to columns of its own type. -/
theorem survives_own {own : ColumnType} {cell : Bytes} {read : Bytes → Option Value}
    (hread : reader? own = some read) (hw : read cell = some w) (hsurvives : Survives own v w)
    (h : checked own cell type = .ok bytes) :
    ∃ w, decode type (some bytes) = .ok w ∧ Survives type v w := by
  obtain ⟨rfl, rfl⟩ := checked_eq_ok_iff.mp h
  exact ⟨w, decode_eq_ok hread hw, hsurvives⟩

/-- What is written to a column that can be read comes back. -/
theorem survives_encode (hread : (reader? type).isSome) (hcalendar : ¬ v.AfterCalendar)
    (h : encode type v = .ok (some bytes)) :
    ∃ w, decode type (some bytes) = .ok w ∧ Survives type v w := by
  cases v with
  | null => simp [encode] at h
  | text s => exact survives_text hread (map_some_eq_ok_some.mp h)
  | int4 n => exact survives_int rfl ((encodeInt4_eq n type).symm.trans (map_some_eq_ok_some.mp h))
  | int8 n => exact survives_int rfl ((encodeInt8_eq n type).symm.trans (map_some_eq_ok_some.mp h))
  | float8 x => exact survives_float (map_some_eq_ok_some.mp h)
  | bool b =>
    exact survives_own rfl (congrArg _ (readBool_bit b)) (.bool b) (map_some_eq_ok_some.mp h)
  | bytea bytes => exact survives_own rfl rfl (.bytea bytes) (map_some_eq_ok_some.mp h)
  | uuid u =>
    exact survives_own rfl (congrArg _ (ofBytes?_bytes u)) (.uuid u) (map_some_eq_ok_some.mp h)
  | timestamp m =>
    obtain ⟨m', hm', hcut⟩ := exists_readMoment hcalendar
    exact survives_own rfl (congrArg _ hm') (.timestamp hcut) (map_some_eq_ok_some.mp h)
  | timestamptz m =>
    obtain ⟨m', hm', hcut⟩ := exists_readMoment hcalendar
    exact survives_own rfl (congrArg _ hm') (.timestamptz hcut) (map_some_eq_ok_some.mp h)

/-- What is written for a moment behind the end of the calendar has no value. -/
theorem decode_of_afterCalendar (hv : v.AfterCalendar) (h : encode type v = .ok (some bytes)) :
    decode type (some bytes) = .error .malformed := by
  cases v with
  | timestamp m =>
    obtain ⟨rfl, rfl⟩ := checked_eq_ok_iff.mp (map_some_eq_ok_some.mp h)
    exact decode_eq_malformed rfl (congrArg _ (readMoment_eq_none hv))
  | timestamptz m =>
    obtain ⟨rfl, rfl⟩ := checked_eq_ok_iff.mp (map_some_eq_ok_some.mp h)
    exact decode_eq_malformed rfl (congrArg _ (readMoment_eq_none hv))
  | _ => exact hv.elim

theorem encode_eq_ok_none_iff : encode type v = .ok none ↔ v = .null := by
  constructor
  · intro h
    cases v with
    | null => rfl
    | _ =>
      obtain ⟨bytes, -, hbytes⟩ := map_eq_ok_iff.mp h
      cases hbytes
  · rintro rfl
    rfl

theorem decode_none (hread : (reader? type).isSome) : decode type none = .ok .null := by
  obtain ⟨read, hread⟩ := Option.isSome_iff_exists.mp hread
  simp only [decode, hread]

theorem isSome_reader?_of_decode {cell : Option Bytes} (h : decode type cell = .ok w) :
    (reader? type).isSome := by
  unfold decode at h
  split at h
  · cases h
  · rename_i hread
    simp [hread]

/-! ## Terms that come back -/

/-- A term of type `t` that is bound to a parameter of the column's type and read from that column
is the same term. -/
def ComesBack (type : ColumnType) (t : ValueType) (x : t.Carrier) : Prop :=
  ∃ cell w, encode type (t.toValue x) = .ok cell ∧ decode type cell = .ok w ∧ t.decode w = some x

/-- The columns that keep a term. An integer needs the width for it, a narrow float and a moment
must lose nothing to rounding, and a moment must be in no leap second. An optional that is present
must not be bound as null. -/
def Keeps (type : ColumnType) : (t : ValueType) → t.Carrier → Prop
  | .text, _ => type ∈ textTypes
  | .int4, n => type = .int4 ∨ type = .int8 ∨ type = .int2 ∧ BigEndian.fits 2 n.toInt
  | .int8, n => type = .int8 ∨ type = .int4 ∧ BigEndian.fits 4 n.toInt ∨
      type = .int2 ∧ BigEndian.fits 2 n.toInt
  | .float8, x => type = .float8 ∨ type = .float4 ∧ x.narrow.widen = x
  | .bool, _ => type = .bool
  | .bytea, _ => type = .bytea
  | .uuid, _ => type = .uuid
  | .timestamp, m => type = .timestamp ∧ m.nanos % 1000 = 0 ∧ ¬ m.IsLeap
  | .timestamptz, m => type = .timestamptz ∧ m.nanos % 1000 = 0 ∧ ¬ m.IsLeap
  | .optional _, none => (reader? type).isSome
  | .optional t, some x => t.toValue x ≠ .null ∧ Keeps type t x

variable {t : ValueType}

theorem ComesBack.survives {x : t.Carrier} (h : ComesBack type t x) (hnull : t.toValue x ≠ .null) :
    ∃ bytes w, encode type (t.toValue x) = .ok (some bytes) ∧ Survives type (t.toValue x) w ∧
      t.decode w = some x := by
  obtain ⟨cell, w, hencode, hdecode, hw⟩ := h
  cases cell with
  | none => exact absurd (encode_eq_ok_none_iff.mp hencode) hnull
  | some bytes =>
    have hcalendar : ¬ (t.toValue x).AfterCalendar := fun hafter => by
      cases (decode_of_afterCalendar hafter hencode).symm.trans hdecode
    obtain ⟨w', hdecode', hsurvives⟩ :=
      survives_encode (isSome_reader?_of_decode hdecode) hcalendar hencode
    rw [hdecode] at hdecode'
    cases hdecode'
    exact ⟨bytes, w, hencode, hsurvives, hw⟩

theorem comesBack_of_survives {x : t.Carrier} (hread : (reader? type).isSome)
    (hcalendar : ¬ (t.toValue x).AfterCalendar)
    (hencode : encode type (t.toValue x) = .ok (some bytes))
    (hdecode : ∀ w, Survives type (t.toValue x) w → t.decode w = some x) : ComesBack type t x := by
  obtain ⟨w, hw, hsurvives⟩ := survives_encode hread hcalendar hencode
  exact ⟨some bytes, w, hencode, hw, hdecode w hsurvives⟩

theorem Survives.int?_eq (h : Survives type v w) (hv : v.int? = some n) : w.int? = some n := by
  cases h with
  | int4 _ h | int8 h => exact h.symm.trans hv
  | _ => cases hv

theorem isSome_reader?_of_intWidth? {width : Nat} (h : type.intWidth? = some width) :
    (reader? type).isSome := by
  cases type <;> first | rfl | cases h

/-- An integer type whose terms are determined by their numbers. -/
theorem comesBack_int_iff {x : t.Carrier} (hv : (t.toValue x).int? = some n)
    (hback : ∀ w : Value, w.int? = some n → t.decode w = some x) :
    ComesBack type t x ↔ ∃ width, type.intWidth? = some width ∧ BigEndian.fits width n := by
  constructor
  · rintro ⟨cell, w, hencode, -, -⟩
    rw [encode_of_int? hv] at hencode
    obtain ⟨bytes, hbytes, -⟩ := map_eq_ok_iff.mp hencode
    obtain ⟨width, hwidth, hfits, -⟩ := encodeInt_eq_ok_iff.mp hbytes
    exact ⟨width, hwidth, hfits⟩
  · rintro ⟨width, hwidth, hfits⟩
    have hencode := encodeInt_eq_ok_iff.mpr ⟨width, hwidth, hfits, rfl⟩
    rw [← map_some_eq_ok_some, ← encode_of_int? hv] at hencode
    exact comesBack_of_survives (isSome_reader?_of_intWidth? hwidth)
      (Value.not_afterCalendar_of_int? hv) hencode
      fun w hsurvives => hback w (hsurvives.int?_eq hv)

theorem decode_int4_of_int? {n : Int32} (h : w.int? = some n.toInt) :
    ValueType.int4.decode w = some n := by
  cases w with
  | int4 m =>
    simp only [Value.int?, Option.some.injEq, Int32.toInt_inj] at h
    rw [← h]
    rfl
  | int8 m =>
    simp only [Value.int?, Option.some.injEq] at h
    have hfits : BigEndian.fits 4 m.toInt := h ▸ BigEndian.fits_toInt32 n
    have hm : m.toInt32 = n := Int32.toInt_inj.mp ((BigEndian.toInt_toInt32 hfits).trans h)
    rw [ValueType.decode, if_pos hfits, hm]
  | _ => cases h

theorem decode_int8_of_int? {n : Int64} (h : w.int? = some n.toInt) :
    ValueType.int8.decode w = some n := by
  cases w with
  | int4 m =>
    simp only [Value.int?, Option.some.injEq] at h
    have hm : m.toInt64 = n := Int64.toInt_inj.mp (m.toInt_toInt64.trans h)
    rw [ValueType.decode, hm]
  | int8 m =>
    simp only [Value.int?, Option.some.injEq, Int64.toInt_inj] at h
    rw [← h]
    rfl
  | _ => cases h

section Own

variable {own : ColumnType} {cell : Bytes} {x : t.Carrier}

/-- A term that goes only to columns of one type. -/
theorem comesBack_own_iff
    (hencode : ∀ type, encode type (t.toValue x) = some <$> checked own cell type) :
    ComesBack type t x ↔
      type = own ∧ ∃ w, decode own (some cell) = .ok w ∧ t.decode w = some x := by
  constructor
  · rintro ⟨cell', w, hcell, hdecode, hw⟩
    rw [hencode] at hcell
    obtain ⟨bytes, hbytes, rfl⟩ := map_eq_ok_iff.mp hcell
    obtain ⟨rfl, rfl⟩ := checked_eq_ok_iff.mp hbytes
    exact ⟨rfl, w, hdecode, hw⟩
  · rintro ⟨rfl, w, hdecode, hw⟩
    refine ⟨some cell, w, ?_, hdecode, hw⟩
    rw [hencode, checked_eq_ok_iff.mpr ⟨rfl, rfl⟩]
    rfl

/-- What is written for a moment is read as the moment that it is cut to, or not at all. -/
theorem comesBack_moment_iff {make : Moment → Value} {m : Moment}
    (hencode : ∀ type, encode type (t.toValue x) = some <$> checked own (encodeMoment m) type)
    (hread : reader? own = some fun bytes => make <$> readMoment bytes)
    (hterm : ∀ m', t.decode (make m') = some x ↔ m' = m) :
    ComesBack type t x ↔ type = own ∧ m.nanos % 1000 = 0 ∧ ¬ m.IsLeap := by
  rw [comesBack_own_iff hencode]
  refine and_congr_right fun _ => ?_
  by_cases hcalendar : m.AfterCalendar
  · have hdecode := decode_eq_malformed hread (congrArg _ (readMoment_eq_none hcalendar))
    constructor
    · rintro ⟨w, hw, -⟩
      cases hdecode.symm.trans hw
    · rintro ⟨-, hleap⟩
      exact absurd hcalendar.2 hleap
  · obtain ⟨m', hm', hcut⟩ := exists_readMoment hcalendar
    have hdecode := decode_eq_ok hread (congrArg _ hm')
    rw [← hcut.eq_iff, ← hterm m']
    constructor
    · rintro ⟨w, hw, hx⟩
      cases hdecode.symm.trans hw
      exact hx
    · exact fun hx => ⟨make m', hdecode, hx⟩

end Own

theorem comesBack_text_iff {s : String} : ComesBack type .text s ↔ type ∈ textTypes := by
  constructor
  · intro h
    obtain ⟨bytes, w, -, hsurvives, hw⟩ := h.survives (by nofun)
    cases hsurvives with
    | text _ htype => exact htype
    | spelled _ => cases hw
    | int4 _ hv | int8 hv => cases hv
  · intro htype
    simp only [textTypes, List.mem_cons, List.not_mem_nil, or_false] at htype
    rcases htype with rfl | rfl | rfl | rfl <;>
      exact ⟨_, .text s, rfl, decode_eq_ok rfl (congrArg _ (readText_utf8 s)), rfl⟩

theorem comesBack_float8_iff {x : Binary64} :
    ComesBack type .float8 x ↔ type = .float8 ∨ type = .float4 ∧ x.narrow.widen = x := by
  constructor
  · intro h
    obtain ⟨bytes, w, -, hsurvives, hw⟩ := h.survives (by nofun)
    cases hsurvives with
    | float4 _ => exact .inr ⟨rfl, Option.some.inj hw⟩
    | float8 _ => exact .inl rfl
    | int4 _ hv | int8 hv => cases hv
  · rintro (rfl | ⟨rfl, hx⟩)
    · refine comesBack_of_survives rfl id rfl fun w hsurvives => ?_
      cases hsurvives with
      | float8 _ => rfl
      | int4 _ hv => cases hv
    · refine comesBack_of_survives rfl id rfl fun w hsurvives => ?_
      cases hsurvives with
      | float4 _ => exact congrArg some hx
      | int4 _ hv => cases hv

theorem decode_optional_eq_some_iff {x : t.Carrier} :
    (ValueType.optional t).decode w = some (some x) ↔ w ≠ .null ∧ t.decode w = some x := by
  cases w with
  | null => simp [ValueType.decode]
  | _ =>
    change (t.decode _).map some = some (some x) ↔ _
    simp

theorem toValue_of_decode_null {x : t.Carrier} (h : t.decode .null = some x) :
    t.toValue x = .null := by
  cases t with
  | optional u =>
    cases h
    rfl
  | _ => cases h

theorem comesBack_some_iff {x : t.Carrier} :
    ComesBack type (.optional t) (some x) ↔ t.toValue x ≠ .null ∧ ComesBack type t x := by
  constructor
  · rintro ⟨cell, w, hencode, hdecode, hw⟩
    obtain ⟨hnull, hw⟩ := decode_optional_eq_some_iff.mp hw
    refine ⟨fun hx => hnull ?_, cell, w, hencode, hdecode, hw⟩
    -- A null has no bytes, and without bytes nothing but null is read.
    have hcell : encode type .null = .ok cell := hx ▸ hencode
    cases hcell
    rw [decode_none (isSome_reader?_of_decode hdecode)] at hdecode
    cases hdecode
    rfl
  · rintro ⟨hx, cell, w, hencode, hdecode, hw⟩
    refine ⟨cell, w, hencode, hdecode, decode_optional_eq_some_iff.mpr ⟨?_, hw⟩⟩
    rintro rfl
    exact hx (toValue_of_decode_null hw)

/-- A term comes back from exactly the columns that keep it. -/
theorem comesBack_iff_keeps (type : ColumnType) (t : ValueType) (x : t.Carrier) :
    ComesBack type t x ↔ Keeps type t x := by
  induction t with
  | text => exact comesBack_text_iff
  | int4 =>
    rw [comesBack_int_iff rfl fun _ => decode_int4_of_int?]
    have hfits : BigEndian.fits 4 x.toInt := BigEndian.fits_toInt32 x
    have hfits' : BigEndian.fits 8 x.toInt := BigEndian.fits_of_le (by omega) hfits
    cases type <;> simp_all [Keeps, ColumnType.intWidth?]
  | int8 =>
    rw [comesBack_int_iff rfl fun _ => decode_int8_of_int?]
    have hfits : BigEndian.fits 8 x.toInt := BigEndian.fits_toInt64 x
    cases type <;> simp_all [Keeps, ColumnType.intWidth?]
  | float8 => exact comesBack_float8_iff
  | bool =>
    exact (comesBack_own_iff fun _ => rfl).trans
      (and_iff_left ⟨.bool x, decode_eq_ok rfl (congrArg _ (readBool_bit x)), rfl⟩)
  | bytea => exact (comesBack_own_iff fun _ => rfl).trans (and_iff_left ⟨.bytea x, rfl, rfl⟩)
  | uuid =>
    exact (comesBack_own_iff fun _ => rfl).trans
      (and_iff_left ⟨.uuid x, decode_eq_ok rfl (congrArg _ (ofBytes?_bytes x)), rfl⟩)
  | timestamp => exact comesBack_moment_iff (fun _ => rfl) rfl fun _ => Option.some_inj
  | timestamptz => exact comesBack_moment_iff (fun _ => rfl) rfl fun _ => Option.some_inj
  | optional t ih =>
    cases x with
    | none =>
      constructor
      · rintro ⟨cell, w, -, hdecode, -⟩
        exact isSome_reader?_of_decode hdecode
      · intro hread
        exact ⟨none, .null, rfl, decode_none hread, rfl⟩
    | some x =>
      rw [Keeps, ← ih]
      exact comesBack_some_iff

/-- What is written to a column is read back with the same content, up to the width of integers and
floats, the microseconds of moments, leap seconds and the uuid that a text spells; only what is
written for the leap second behind the end of the calendar is not read. Null and nothing else has no
bytes, and it comes back from every column that can be read. A term comes back as it was bound
exactly if the column keeps it. -/
theorem columns_keep_content :
    (∀ (type : ColumnType) (v : Value) (bytes : Bytes), (reader? type).isSome →
      encode type v = .ok (some bytes) →
        (¬ v.AfterCalendar → ∃ w, decode type (some bytes) = .ok w ∧ Survives type v w) ∧
        (v.AfterCalendar → decode type (some bytes) = .error .malformed)) ∧
    (∀ (type : ColumnType) (v : Value), encode type v = .ok none ↔ v = .null) ∧
    (∀ type : ColumnType, (reader? type).isSome → decode type none = .ok .null) ∧
    ∀ (type : ColumnType) (t : ValueType) (x : t.Carrier), ComesBack type t x ↔ Keeps type t x :=
  ⟨fun _ _ _ hread h => ⟨(survives_encode hread · h), (decode_of_afterCalendar · h)⟩,
    fun _ _ => encode_eq_ok_none_iff, fun _ => decode_none, comesBack_iff_keeps⟩

/-- A negative number in a narrow column, the last half of a microsecond before the year 2000, and
the leap second behind the end of the calendar. -/
theorem columns_keep_content_narrow :
    let m : Moment := ⟨946684799, 999999500, by decide, by decide, by decide⟩
    let last : Moment := ⟨Moment.lastSecond, 1000000000, by decide, by decide, by decide⟩
    ((reader? .int2).isSome ∧ encode .int2 (.int8 (-2)) = .ok (some [255, 254]) ∧
      (∃ w, decode .int2 (some [255, 254]) = .ok w ∧ Survives .int2 (.int8 (-2)) w) ∧
      decode .int2 none = .ok .null ∧ ComesBack .int2 .int8 (-2)) ∧
    (encode .timestamp (.timestamp m) = .ok (some [0, 0, 0, 0, 0, 0, 0, 0]) ∧
      (∃ w, decode .timestamp (some [0, 0, 0, 0, 0, 0, 0, 0]) = .ok w ∧
        Survives .timestamp (.timestamp m) w) ∧
      ¬ ComesBack .timestamp .timestamp m) ∧
    ∃ bytes, encode .timestamptz (.timestamptz last) = .ok (some bytes) ∧
      decode .timestamptz (some bytes) = .error .malformed := by
  intro m last
  obtain ⟨hsurvives, -, hnull, hkeeps⟩ := columns_keep_content
  have hint2 : encode .int2 (.int8 (-2)) = .ok (some [255, 254]) := rfl
  have hbytes : encodeMoment m = [0, 0, 0, 0, 0, 0, 0, 0] := by decide +kernel
  have hmoment : encode .timestamp (.timestamp m) = .ok (some [0, 0, 0, 0, 0, 0, 0, 0]) := by
    rw [← hbytes]
    rfl
  have hcalendar : ¬ m.AfterCalendar := by decide
  have hlast : last.AfterCalendar := by decide
  refine ⟨⟨rfl, hint2, (hsurvives _ _ _ rfl hint2).1 id, hnull _ rfl, ?_⟩,
    ⟨hmoment, (hsurvives _ _ _ rfl hmoment).1 hcalendar, ?_⟩,
    encodeMoment last, rfl, (hsurvives .timestamptz (.timestamptz last) _ rfl rfl).2 hlast⟩
  · exact (hkeeps .int2 .int8 (-2)).mpr (.inr (.inr ⟨rfl, by decide⟩))
  · intro hback
    exact absurd ((hkeeps .timestamp .timestamp m).mp hback).2 (by decide)

/-- Half a second into the leap second at the end of June 2015 is whole microseconds, and it is read
as half a second into July. The leap second behind the end of the calendar is written too, and what
is written is not read. -/
theorem leap_seconds_do_not_come_back :
    let leap : Moment := ⟨1435708799, 1500000000, by decide, by decide, by decide⟩
    let july : Moment := ⟨1435708800, 500000000, by decide, by decide, by decide⟩
    let last : Moment := ⟨Moment.lastSecond, 1000000000, by decide, by decide, by decide⟩
    (leap.nanos % 1000 = 0 ∧ july ≠ leap ∧
      ∃ bytes, encode .timestamp (.timestamp leap) = .ok (some bytes) ∧
        decode .timestamp (some bytes) = .ok (.timestamp july)) ∧
    ∃ bytes, encode .timestamp (.timestamp last) = .ok (some bytes) ∧
      decode .timestamp (some bytes) = .error .malformed := by
  intro leap july last
  have hjuly : readMoment (encodeMoment leap) = some july := by decide +kernel
  have hlast : readMoment (encodeMoment last) = none := by decide +kernel
  exact ⟨⟨by decide, by decide, encodeMoment leap, rfl, decode_eq_ok rfl (congrArg _ hjuly)⟩,
    encodeMoment last, rfl, decode_eq_malformed rfl (congrArg _ hlast)⟩

end Wire

end TableMapper
