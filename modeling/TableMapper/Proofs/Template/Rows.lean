import Mathlib.Data.List.Find
import Mathlib.Data.List.Nodup
import Mathlib.Logic.Relation
import TableMapper.Proofs.Template.Reading

/-!
# One copy of the tuple for each row

Expanding a template for rows that bind all its parameters keeps the text up to the last keyword and
writes one copy of the tuple for each row. The placeholders count on from copy to copy, and each
stands for the first value that its row binds to its name. How a row comes to these values, in
which order and besides which others, does not matter.

## Main definitions

* `Bindings.First` — the value that a row binds to a name before any other.
* `Bindings.Change` — what may be done to a row without any effect on its first values.
* `Template.written` — a tuple with its parameters written as placeholders.
-/

namespace TableMapper

/-! ## First values -/

namespace Bindings

variable {row row' : Bindings} {name : String} {value : Value} {names : List String}

/-- The row binds the name to the value, and to no other value before that. -/
def First (row : Bindings) (name : String) (value : Value) : Prop :=
  ∃ before after, row.pairs = before ++ (name, value) :: after ∧ name ∉ before.map Prod.fst

theorem get?_eq_some_iff : row.get? name = some value ↔ row.First name value := by
  simp only [get?, First, Option.map_eq_some_iff, List.find?_eq_some_iff_append]
  constructor
  · rintro ⟨⟨name', value'⟩, ⟨hname, before, after, hpairs, hbefore⟩, rfl⟩
    obtain rfl : name' = name := by simpa using hname
    refine ⟨before, after, hpairs, fun hmem => ?_⟩
    obtain ⟨pair, hpair, hfst⟩ := List.mem_map.mp hmem
    simpa [hfst] using hbefore pair hpair
  · rintro ⟨before, after, hpairs, hbefore⟩
    refine ⟨(name, value), ⟨by simp, before, after, hpairs, fun pair hpair => ?_⟩, rfl⟩
    simpa using fun hfst => hbefore (List.mem_map.mpr ⟨pair, hpair, hfst⟩)

/-- A row may be changed, as far as `names` go: pairs of different names may be put in another
order, and a pair may be added that has none of the names, or whose name is bound before it. -/
inductive Change (names : List String) : Bindings → Bindings → Prop
  | permute {pairs pairs' : List (String × Value)} : (pairs.map Prod.fst).Nodup →
      pairs.Perm pairs' → Change names ⟨pairs⟩ ⟨pairs'⟩
  | unused {before after : List (String × Value)} {name : String} {value : Value} :
      name ∉ names → Change names ⟨before ++ after⟩ ⟨before ++ (name, value) :: after⟩
  | duplicate {before after : List (String × Value)} {name : String} {value : Value} :
      name ∈ before.map Prod.fst →
      Change names ⟨before ++ after⟩ ⟨before ++ (name, value) :: after⟩

theorem get?_of_perm {pairs pairs' : List (String × Value)} (hnodup : (pairs.map Prod.fst).Nodup)
    (h : pairs.Perm pairs') : get? ⟨pairs'⟩ name = get? ⟨pairs⟩ name := by
  have hone : {pair ∈ pairs | (pair.1 == name) = true}.Subsingleton := by
    rintro pair ⟨hpair, hfst⟩ pair' ⟨hpair', hfst'⟩
    refine List.inj_on_of_nodup_map hnodup hpair hpair' ?_
    rw [beq_iff_eq.mp hfst, beq_iff_eq.mp hfst']
  rw [get?, get?, List.find?_eq_find?_of_perm h hone]

/-- A pair changes what is found only under its own name, and only if that was not bound before. -/
theorem get?_insert {before after : List (String × Value)} {other : String}
    (h : other = name → name ∈ before.map Prod.fst) :
    get? ⟨before ++ (other, value) :: after⟩ name = get? ⟨before ++ after⟩ name := by
  simp only [get?, List.find?_append]
  cases hfind : before.find? (·.1 == name) with
  | some pair => rfl
  | none =>
    have hother : other ≠ name := by
      rintro rfl
      obtain ⟨pair, hpair, hfst⟩ := List.mem_map.mp (h rfl)
      simpa [hfst] using List.find?_eq_none.mp hfind pair hpair
    simp [hother]

theorem Change.get?_eq (h : Change names row row') (hname : name ∈ names) :
    row'.get? name = row.get? name := by
  cases h with
  | permute hnodup hperm => exact get?_of_perm hnodup hperm
  | unused hother => exact get?_insert fun heq => absurd (heq ▸ hname) hother
  | duplicate hother => exact get?_insert fun heq => heq ▸ hother

theorem find_eq_of_changes (h : Relation.ReflTransGen (Change names) row row')
    (hname : name ∈ names) : row'.find name = row.find name := by
  have hget : row'.get? name = row.get? name := by
    induction h with
    | refl => rfl
    | tail _ hchange ih => rw [hchange.get?_eq hname, ih]
  rw [find, find, hget]

end Bindings

/-! ## Copies -/

namespace Template

variable {template : String} {rows rows' : List Bindings} {head tuple : List Char}
  {pieces : List Piece} {names : List String}

/-- The tuple with its parameter number `j`, counted from 0, written as `placeholder j`. -/
def written (placeholder : Nat → List Char) : List Piece → List Char
  | [] => []
  | .plain c :: pieces => c :: written placeholder pieces
  | .parameter _ :: pieces => placeholder 0 ++ written (fun j => placeholder (j + 1)) pieces

theorem numbered_eq_written (k : Nat) (pieces : List Piece) :
    numbered k pieces = written (fun j => '$' :: (toString (k + j)).toList) pieces := by
  induction pieces generalizing k with
  | nil => rfl
  | cons piece pieces ih =>
    cases piece with
    | plain c => rw [numbered, written, ih]
    | parameter name =>
      rw [numbered, written, ih]
      simp only [Nat.add_zero, Nat.add_assoc, Nat.add_comm 1]

theorem copies_eq_written (pieces : List Piece) (n : Nat) :
    copies pieces 1 n = (List.range n).map fun i =>
      written (fun j => '$' :: (toString (i * (parameters pieces).length + j + 1)).toList)
        pieces := by
  refine List.map_congr_left fun i _ => ?_
  rw [numbered_eq_written]
  refine congrArg (written · pieces) (funext fun j => ?_)
  rw [Nat.add_assoc, Nat.add_comm 1]

/-- Rows in which all parameters are found are bound one after the other. -/
theorem expand_of_found (hrows : rows ≠ [])
    (hlast : LastOccurrence keyword template.toList head tuple) (hreads : Reads tuple pieces)
    (hfound : ∀ row ∈ rows, ∀ name ∈ parameters pieces, ∃ value, row.First name value) :
    expand template rows = .ok {
      sql := String.ofList (head ++ keyword ++
        List.intercalate [',', ' '] (copies pieces 1 rows.length))
      params := rows.flatMap fun row => (parameters pieces).map fun name =>
        (row.get? name).getD .null } := by
  have hvalues : rows.mapM (fun row => (parameters pieces).mapM row.find) =
      .ok (rows.map fun row => (parameters pieces).map fun name => (row.get? name).getD .null) := by
    refine mapM_eq_ok_map fun row hrow => mapM_eq_ok_map fun name hname => ?_
    obtain ⟨value, hvalue⟩ := hfound row hrow name hname
    rw [Bindings.find_eq_ok_iff, Bindings.get?_eq_some_iff.mpr hvalue, Option.getD_some]
  rw [expand_eq hrows ((splitLast_eq_some_iff (by decide)).mpr hlast), reads_iff.mp hreads, hvalues]
  rfl

/-- Only what the rows bind to the parameters counts. -/
theorem expand_congr (hlast : LastOccurrence keyword template.toList head tuple)
    (hreads : Reads tuple pieces)
    (hfind : List.Forall₂ (fun row row' => ∀ name ∈ parameters pieces,
      Bindings.find row' name = Bindings.find row name) rows rows') :
    expand template rows' = expand template rows := by
  have hvalues : rows'.mapM (fun row => (parameters pieces).mapM row.find) =
      rows.mapM (fun row => (parameters pieces).mapM row.find) :=
    mapM_congr (hfind.imp fun _ _ hrow => mapM_congr (List.forall₂_same.mpr hrow))
  by_cases hrows : rows = []
  · subst hrows
    rw [List.forall₂_nil_left_iff.mp hfind]
  have hrows' : rows' ≠ [] := by
    rintro rfl
    exact hrows (List.forall₂_nil_right_iff.mp hfind)
  have hsplit := (splitLast_eq_some_iff (by decide)).mpr hlast
  rw [expand_eq hrows hsplit, expand_eq hrows' hsplit, reads_iff.mp hreads, hvalues,
    hfind.length_eq]

/-- A template is read in one way as a head and the pieces of a tuple. If every row binds all
parameters, it expands to the head and a copy of the tuple for each row: in copy `i` the parameter
number `j` is the placeholder `$(i * m + j + 1)`, which stands for the first value that row `i`
binds to its name. Changes that leave the first values of the parameters change nothing. -/
theorem expand_copies_tuple (template : String) (rows : List Bindings)
    (hkeyword : keyword <:+: template.toList) (hrows : rows ≠ []) :
    (∃ head tuple pieces, LastOccurrence keyword template.toList head tuple ∧
      Reads tuple pieces) ∧
    ∀ head tuple pieces, LastOccurrence keyword template.toList head tuple →
      Reads tuple pieces →
      let names := parameters pieces
      let m := names.length
      ((∀ row ∈ rows, ∀ name ∈ names, ∃ value, row.First name value) →
        ∃ params,
          expand template rows = .ok ⟨String.ofList (head ++ keyword ++
            List.intercalate ", ".toList ((List.range rows.length).map fun i =>
              written (fun j => '$' :: (toString (i * m + j + 1)).toList) pieces)), params⟩ ∧
          params.length = rows.length * m ∧
          ∀ i j row name, rows[i]? = some row → names[j]? = some name →
            ∃ value, row.First name value ∧ params[i * m + j]? = some value) ∧
      ∀ rows', List.Forall₂ (Relation.ReflTransGen (Bindings.Change names)) rows rows' →
        expand template rows' = expand template rows := by
  refine ⟨?_, fun head tuple pieces hlast hreads => ⟨fun hfound => ?_, fun rows' hchanges => ?_⟩⟩
  · obtain ⟨head, tuple, hlast⟩ := exists_lastOccurrence (by decide) hkeyword
    exact ⟨head, tuple, scan tuple, hlast, reads_scan tuple⟩
  · refine ⟨rows.flatMap fun row => (parameters pieces).map fun name =>
      (row.get? name).getD .null, ?_, by simp [List.length_flatMap], ?_⟩
    · rw [expand_of_found hrows hlast hreads hfound, copies_eq_written]
      rfl
    · intro i j row name hi hj
      obtain ⟨value, hvalue⟩ :=
        hfound row (List.mem_of_getElem? hi) name (List.mem_of_getElem? hj)
      refine ⟨value, hvalue, ?_⟩
      have hlt : j < (parameters pieces).length := (List.getElem?_eq_some_iff.mp hj).1
      rw [getElem?_flatMap_of_length (fun _ => List.length_map _) hi hlt, List.getElem?_map, hj,
        Option.map_some, Bindings.get?_eq_some_iff.mpr hvalue, Option.getD_some]
  · refine expand_congr hlast hreads (hchanges.imp fun row row' hchange name hname => ?_)
    exact Bindings.find_eq_of_changes hchange hname

/-- The keyword stands twice, a name behind each. Three colons are a cast and a parameter, and the
colon behind `ü` is copied. The changed rows are reordered, and bind `at` twice and `id` again. -/
theorem expand_copies_tuple_casts :
    let template := "INSERT INTO t VALUES (:id) VALUES (:id, :::at, ü:, :id)"
    let head := "INSERT INTO t VALUES (:id)".toList
    let tuple := "(:id, :::at, ü:, :id)".toList
    let text (s : String) := s.toList.map Piece.plain
    let pieces := text "(" ++ .parameter "id" :: text ", ::" ++ .parameter "at" :: text ", ü:, " ++
      .parameter "id" :: text ")"
    let rows : List Bindings := [⟨[("at", .text "$1"), ("id", .int8 1)]⟩,
      ⟨[("id", .int8 2), ("at", .null)]⟩]
    let rows' : List Bindings := [⟨[("id", .int8 1), ("ü", .null), ("at", .text "$1")]⟩,
      (⟨[("id", .int8 2), ("at", .null)]⟩ : Bindings).push "id" (.int8 3)]
    (keyword <:+: template.toList ∧ rows ≠ [] ∧ LastOccurrence keyword template.toList head tuple ∧
      Reads tuple pieces ∧
      (∀ row ∈ rows, ∀ name ∈ parameters pieces, ∃ value, row.First name value) ∧
      List.Forall₂ (Relation.ReflTransGen (Bindings.Change (parameters pieces))) rows rows') ∧
    (∃ params, expand template rows = .ok ⟨"INSERT INTO t VALUES (:id) VALUES " ++
        "($1, ::$2, ü:, $3), ($4, ::$5, ü:, $6)", params⟩ ∧ params.length = 6 ∧
      params[1]? = some (.text "$1") ∧ params[5]? = some (.int8 2)) ∧
    expand template rows' = expand template rows := by
  intro template head tuple text pieces rows rows'
  have hlast : LastOccurrence keyword template.toList head tuple :=
    (splitLast_eq_some_iff (by decide)).mp (by decide +kernel)
  have hreads : Reads tuple pieces := reads_iff.mpr (by decide +kernel)
  have hkeyword : keyword <:+: template.toList := ⟨head, tuple, hlast.eq.symm⟩
  have hfound : ∀ row ∈ rows, ∀ name ∈ parameters pieces, ∃ value, row.First name value := by
    intro row hrow name hname
    have hsome : ∀ row ∈ rows, ∀ name ∈ parameters pieces, (row.get? name).isSome := by
      decide +kernel
    obtain ⟨value, hvalue⟩ := Option.isSome_iff_exists.mp (hsome row hrow name hname)
    exact ⟨value, Bindings.get?_eq_some_iff.mp hvalue⟩
  have hchanges : List.Forall₂ (Relation.ReflTransGen (Bindings.Change (parameters pieces)))
      rows rows' := by
    refine .cons (.tail (.single (.permute (by decide) (.swap _ _ _))) ?_)
      (.cons (.single ?_) .nil)
    · change Bindings.Change _ ⟨[_] ++ _⟩ ⟨[_] ++ _ :: _⟩
      exact .unused (by decide +kernel)
    · change Bindings.Change _ ⟨[_, _] ++ []⟩ ⟨[_, _] ++ _ :: []⟩
      exact .duplicate (by decide +kernel)
  obtain ⟨-, hexpand⟩ := expand_copies_tuple template rows hkeyword (by simp [rows])
  obtain ⟨hcopies, hsame⟩ := hexpand head tuple pieces hlast hreads
  obtain ⟨params, hok, hlength, hparams⟩ := hcopies hfound
  have hvalue (i j : Nat) {row : Bindings} {name : String} {v : Value} (hi : rows[i]? = some row)
      (hj : (parameters pieces)[j]? = some name) (hv : row.get? name = some v) :
      params[i * 3 + j]? = some v := by
    obtain ⟨value, hfirst, hparam⟩ := hparams i j row name hi hj
    rw [Bindings.get?_eq_some_iff.mpr hfirst] at hv
    exact hparam.trans hv
  refine ⟨⟨hkeyword, by simp [rows], hlast, hreads, hfound, hchanges⟩,
    ⟨params, ?_, hlength, hvalue 0 1 rfl rfl rfl, hvalue 1 2 rfl rfl rfl⟩, hsame rows' hchanges⟩
  rw [hok]
  refine congrArg (fun sql => Except.ok (Statement.mk sql params)) ?_
  decide +kernel

end Template

end TableMapper
