import Mathlib.Data.List.Dedup
import TableMapper.Proofs.Row.Columns
import TableMapper.Proofs.Sequence

/-!
# Reading a row

What can be read off the row of some columns and values: a column has the value that stands in its
last place, a column without a place is not there, and decoding a value never makes up a term for a
column that is not there.

## Main definitions

* `Row.LastPlace` — the last place that a column has among those with a value.
* `Row.MadeOf` — what is read off the row of some columns and values.
-/

namespace TableMapper

namespace Row

variable {α : Type} {row : Row} {d : Decoder α} {column : String} {columns : List String}
  {values : List Value} {cells : List (String × Value)} {v : Value} {x : α} {e : Error}

/-! ## Any row -/

theorem value_eq_ok_iff : row.value column = .ok v ↔ row.value? column = some v := by
  unfold value
  cases row.value? column <;> simp

theorem value_eq_error_iff :
    row.value column = .error e ↔ row.value? column = none ∧ e = .columnNotFound column := by
  unfold value
  cases row.value? column <;> simp [eq_comm]

theorem getAs_of_value_ok (h : row.value column = .ok v) :
    row.getAs d column =
      match d.decode v with
      | some x => .ok x
      | none => .error (.typeMismatch column d.expected v.kind) := by
  rw [getAs, h]
  rfl

theorem getAs_of_value_error (h : row.value column = .error e) :
    row.getAs d column = .error e := by
  rw [getAs, h]
  rfl

theorem getAs_eq_ok_iff :
    row.getAs d column = .ok x ↔ ∃ v, row.value column = .ok v ∧ d.decode v = some x := by
  cases h : row.value column with
  | error e => simp [getAs_of_value_error h]
  | ok v => cases hd : d.decode v <;> simp [getAs_of_value_ok h, hd]

theorem getAs_eq_error_iff :
    row.getAs d column = .error e ↔
      row.value column = .error e ∨ ∃ v, row.value column = .ok v ∧ d.decode v = none ∧
        e = .typeMismatch column d.expected v.kind := by
  cases h : row.value column with
  | error e' => simp [getAs_of_value_error h]
  | ok v => cases hd : d.decode v <;> simp [getAs_of_value_ok h, hd, eq_comm]

theorem decode_optional_eq_none_iff : d.optional.decode v = some none ↔ v = .null := by
  cases v <;> simp [Decoder.optional, Value.isNull]

/-- Only a null is read as an absent term. -/
theorem getAs_optional_eq_none_iff :
    row.getAs d.optional column = .ok none ↔ row.value column = .ok .null := by
  simp [getAs_eq_ok_iff, decode_optional_eq_none_iff]

/-! ## Columns and values -/

/-- The names of a row, one after the other. -/
def names (row : Row) : List String := row.cells.map (·.1)

theorem mem_names_set {name : String} :
    name ∈ (row.set column v).names ↔ name = column ∨ name ∈ row.names := by
  have hnames : (row.set column v).names = _ := map_fst_setCell column v row.cells
  rw [hnames]
  split <;> grind [names]

theorem mem_names_foldl_set {name : String} :
    name ∈ (cells.foldl (fun row cell => row.set cell.1 cell.2) row).names ↔
      name ∈ cells.map (·.1) ∨ name ∈ row.names := by
  induction cells generalizing row with
  | nil => simp
  | cons cell cells ih => rw [List.foldl_cons, ih, mem_names_set]; grind

theorem map_fst_zip_eq_take (columns : List String) (values : List Value) :
    (columns.zip values).map (·.1) = columns.take (min columns.length values.length) := by
  rw [List.zip_eq_zip_take_min]
  exact List.map_fst_zip (by simp)

/-- Of names that are given more than once only one is counted. -/
theorem size_ofColumns (columns : List String) (values : List Value) :
    (ofColumns columns values).size =
      (columns.take (min columns.length values.length)).dedup.length := by
  have hmem (name : String) : name ∈ (ofColumns columns values).names ↔
      name ∈ (columns.take (min columns.length values.length)).dedup := by
    rw [ofColumns, mem_names_foldl_set, map_fst_zip_eq_take, List.mem_dedup]
    simp [names, empty]
  have hperm := (List.perm_ext_iff_of_nodup (ofColumns columns values).nodup_names
    (List.nodup_dedup _)).mpr hmem
  simpa [size] using hperm.length_eq

/-- Among the columns that have a value, this is the last place of the column. -/
structure LastPlace (columns : List String) (values : List Value) (column : String) (i : Nat) :
    Prop where
  lt : i < min columns.length values.length
  column_eq : columns[i]? = some column
  after : ∀ j, i < j → j < min columns.length values.length → columns[j]? ≠ some column

/-- The last entry that passes is the one behind which none passes. -/
theorem find?_reverse_eq_some_iff {β : Type} {p : β → Bool} {entries : List β} {y : β} :
    entries.reverse.find? p = some y ↔
      p y ∧ ∃ i : Nat, entries[i]? = some y ∧ ∀ j z, i < j → entries[j]? = some z → ¬ p z := by
  rw [List.find?_eq_some_iff_append]
  refine and_congr_right fun _ => ⟨?_, ?_⟩
  · rintro ⟨behind, before, hsplit, hbehind⟩
    rw [List.reverse_eq_append_iff, List.reverse_cons, List.append_assoc] at hsplit
    refine ⟨before.length, by simp [hsplit], fun j z hj hz => ?_⟩
    have hz : z ∈ behind := by
      rw [hsplit] at hz
      grind
    simpa using hbehind z hz
  · rintro ⟨i, hy, hafter⟩
    obtain ⟨hi, hy⟩ := List.getElem?_eq_some_iff.mp hy
    refine ⟨(entries.drop (i + 1)).reverse, (entries.take i).reverse, ?_, fun z hz => ?_⟩
    · rw [List.reverse_eq_append_iff]
      simp [← hy]
    · rw [List.mem_reverse, List.mem_iff_getElem?] at hz
      obtain ⟨k, hk⟩ := hz
      rw [List.getElem?_drop] at hk
      simpa using hafter (i + 1 + k) z (by omega) hk

theorem value_ofColumns_eq_ok_iff :
    (ofColumns columns values).value column = .ok v ↔
      ∃ i, LastPlace columns values column i ∧ values[i]? = some v := by
  rw [value_eq_ok_iff, value?_ofColumns, Option.map_eq_some_iff]
  simp only [find?_reverse_eq_some_iff, List.getElem?_zip_eq_some, beq_iff_eq]
  constructor
  · rintro ⟨⟨_, _⟩, ⟨rfl, i, ⟨hcolumn, hvalue⟩, hafter⟩, rfl⟩
    refine ⟨i, ⟨by grind, hcolumn, fun j hj hlt hcolumn' => ?_⟩, hvalue⟩
    have hvalue' : values[j]? = some values[j] := List.getElem?_eq_getElem (by omega)
    exact hafter j (_, values[j]) hj ⟨hcolumn', hvalue'⟩ rfl
  · rintro ⟨i, ⟨hlt, hcolumn, hafter⟩, hvalue⟩
    refine ⟨(column, v), ⟨rfl, i, ⟨hcolumn, hvalue⟩, fun j z hj hz hname => ?_⟩, rfl⟩
    exact hafter j hj (by grind) (hname ▸ hz.1)

theorem value_ofColumns_eq_error_iff :
    (ofColumns columns values).value column = .error e ↔
      (∀ i, i < min columns.length values.length → columns[i]? ≠ some column) ∧
        e = .columnNotFound column := by
  have hmem : column ∉ (columns.zip values).map (·.1) ↔
      ∀ i, i < min columns.length values.length → columns[i]? ≠ some column := by
    rw [map_fst_zip_eq_take, List.mem_iff_getElem?]
    simp [List.getElem?_take]
  rw [value_eq_error_iff, value?_ofColumns, Option.map_eq_none_iff, List.find?_eq_none, ← hmem]
  simp only [List.mem_reverse, beq_iff_eq, List.mem_map, not_exists, not_and]

/-! ## Rows of a result -/

/-- What is read off the row of some columns and values. -/
structure MadeOf (row : Row) (columns : List String) (values : List Value) : Prop where
  value_eq_ok_iff : ∀ column v, row.value column = .ok v ↔
    ∃ i, LastPlace columns values column i ∧ values[i]? = some v
  value_eq_error_iff : ∀ column e, row.value column = .error e ↔
    (∀ i, i < min columns.length values.length → columns[i]? ≠ some column) ∧
      e = .columnNotFound column
  size_eq : row.size = (columns.take (min columns.length values.length)).dedup.length
  getAs_eq_ok_iff : ∀ {α : Type} (d : Decoder α) column x, row.getAs d column = .ok x ↔
    ∃ v, row.value column = .ok v ∧ d.decode v = some x
  /-- A column that is not there, and a value that does not decode, are reported as such. -/
  getAs_eq_error_iff : ∀ {α : Type} (d : Decoder α) column e, row.getAs d column = .error e ↔
    row.value column = .error e ∨ ∃ v, row.value column = .ok v ∧ d.decode v = none ∧
      e = .typeMismatch column d.expected v.kind
  getAs_optional_eq_none_iff : ∀ {α : Type} (d : Decoder α) column,
    row.getAs d.optional column = .ok none ↔ row.value column = .ok .null
  /-- An optional type is read like any other optional. -/
  get_optional_eq : ∀ (t : ValueType) column,
    row.get (.optional t) column = row.getAs t.decoder.optional column

theorem madeOf_ofColumns (columns : List String) (values : List Value) :
    (ofColumns columns values).MadeOf columns values where
  value_eq_ok_iff _ _ := value_ofColumns_eq_ok_iff
  value_eq_error_iff _ _ := value_ofColumns_eq_error_iff
  size_eq := size_ofColumns columns values
  getAs_eq_ok_iff _ _ _ := getAs_eq_ok_iff
  getAs_eq_error_iff _ _ _ := getAs_eq_error_iff
  getAs_optional_eq_none_iff _ _ := getAs_optional_eq_none_iff
  get_optional_eq t column := by rw [get, t.decoder_optional]

end Row

/-- A row has for each column the value in the last place of that column, and reading it fails for
a column without a place or a value that does not decode. A result has one such row for each of its
rows of values, in the same order. -/
theorem rows_have_last_values (columns : List String) (values : List Value) (result : ResultSet) :
    (Row.ofColumns columns values).MadeOf columns values ∧
    List.Forall₂ (fun values row => row.MadeOf result.columns values) result.rows
      result.toRows := by
  refine ⟨Row.madeOf_ofColumns columns values, ?_⟩
  rw [ResultSet.toRows, List.forall₂_map_right_iff, List.forall₂_same]
  exact fun values _ => Row.madeOf_ofColumns result.columns values

/-- The first column and the last one have the same name, and there is no value for a fourth. -/
example :
    let row := Row.ofColumns ["id", "nick", "id", "age"] [.int4 1, .null, .text "x"]
    row.size = 2 ∧ row.get .text "id" = .ok "x" ∧
    row.get .int4 "id" = .error (.typeMismatch "id" "int4" "text") ∧
    row.get (.optional (.optional .bool)) "nick" = .ok none ∧
    row.get (.optional .bool) "age" = .error (.columnNotFound "age") :=
  ⟨rfl, rfl, rfl, rfl, rfl⟩

end TableMapper
