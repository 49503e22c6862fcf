import TableMapper.Driver.Server
import TableMapper.Proofs.Repository.Create
import TableMapper.Proofs.Template.Rows

/-!
# Templates that are not expanded

A template is not expanded when there is no row for it, when it has no tuple, or when a row leaves
a parameter of the tuple without a value. What is reported is the first of these that applies and,
among the parameters, the first one that is missing, row by row. A driver never gets to know of a
template that is not expanded.

## Main definitions

* `Template.Refused` — why a template is not expanded for some rows.
-/

namespace TableMapper

namespace Bindings

variable {row : Bindings} {name : String}

theorem get?_eq_none_iff : row.get? name = none ↔ name ∉ row.pairs.map Prod.fst := by
  simp only [get?, Option.map_eq_none_iff, List.find?_eq_none, List.mem_map]
  grind

theorem exists_find_eq_ok_iff :
    (∃ value, row.find name = .ok value) ↔ name ∈ row.pairs.map Prod.fst := by
  rw [← not_iff_not, ← get?_eq_none_iff]
  simp [find_eq_ok_iff, Option.eq_none_iff_forall_ne_some]

theorem find_eq_error (h : name ∉ row.pairs.map Prod.fst) :
    row.find name = .error (.missingParameter name) := by
  rw [find, get?_eq_none_iff.mpr h]

end Bindings

namespace Template

variable {template : String} {rows : List Bindings} {head tuple : List Char} {pieces : List Piece}
  {e : Error}

/-- Why a template is not expanded for some rows. -/
inductive Refused (template : String) (rows : List Bindings) : Error → Prop
  | noRow : rows = [] →
      Refused template rows (.invalidQuery "named statement needs at least one row")
  | noTuple : rows ≠ [] → ¬ keyword <:+: template.toList →
      Refused template rows (.invalidQuery ("no VALUES tuple in: " ++ template))
  | unbound {head tuple : List Char} {pieces : List Piece} {i j : Nat} {row : Bindings}
      {name : String} : LastOccurrence keyword template.toList head tuple → Reads tuple pieces →
      FailsFirstInRows (fun row name => name ∈ row.pairs.map Prod.fst) (fun _ => parameters pieces)
        rows i j row name →
      Refused template rows (.missingParameter name)

theorem exists_mapM_find_eq_ok_iff {row : Bindings} {names : List String} :
    (∃ values, names.mapM row.find = .ok values) ↔
      ∀ name ∈ names, name ∈ row.pairs.map Prod.fst := by
  simp only [exists_mapM_eq_ok_iff, Bindings.exists_find_eq_ok_iff]

theorem mapM_find_eq_error_iff {row : Bindings} {names : List String} :
    names.mapM row.find = .error e ↔
      ∃ j name, FailsFirst (· ∈ row.pairs.map Prod.fst) names j name ∧
        e = .missingParameter name :=
  mapM_eq_error_iff_of_fault (fun _ => Bindings.exists_find_eq_ok_iff)
    fun _ => Bindings.find_eq_error

/-- Looking the parameters up fails at the first one, row by row, that its row does not bind. -/
theorem mapM_mapM_find_eq_error_iff :
    (rows.mapM fun row => (parameters pieces).mapM row.find) = .error e ↔
      ∃ i j row name, FailsFirstInRows (fun row name => name ∈ row.pairs.map Prod.fst)
        (fun _ => parameters pieces) rows i j row name ∧ e = .missingParameter name :=
  mapM_rows_eq_error_iff (fun _ => exists_mapM_find_eq_ok_iff) fun _ _ => mapM_find_eq_error_iff

theorem expand_of_no_keyword (hrows : rows ≠ []) (h : ¬ keyword <:+: template.toList) :
    expand template rows = .error (.invalidQuery ("no VALUES tuple in: " ++ template)) := by
  have hsplit := (splitLast_eq_none_iff (by decide)).mpr h
  rw [expand, if_neg (by simpa using hrows), hsplit]

theorem expand_eq_error_iff_of_reads (hrows : rows ≠ [])
    (hlast : LastOccurrence keyword template.toList head tuple) (hreads : Reads tuple pieces) :
    expand template rows = .error e ↔
      (rows.mapM fun row => (parameters pieces).mapM row.find) = .error e := by
  have hsplit := (splitLast_eq_some_iff (by decide)).mpr hlast
  rw [expand_eq hrows hsplit, reads_iff.mp hreads]
  cases (rows.mapM fun row => (parameters pieces).mapM row.find) <;>
    simp [bind, Except.bind, pure, Except.pure]

theorem refused_of_expand (h : expand template rows = .error e) : Refused template rows e := by
  by_cases hrows : rows = []
  · subst hrows
    cases h
    exact .noRow rfl
  by_cases hkeyword : keyword <:+: template.toList
  · obtain ⟨head, tuple, hlast⟩ := exists_lastOccurrence (by decide) hkeyword
    have hreads := reads_scan tuple
    rw [expand_eq_error_iff_of_reads hrows hlast hreads, mapM_mapM_find_eq_error_iff] at h
    obtain ⟨i, j, row, name, hfirst, rfl⟩ := h
    exact .unbound hlast hreads hfirst
  · rw [expand_of_no_keyword hrows hkeyword] at h
    cases h
    exact .noTuple hrows hkeyword

theorem Refused.expand_eq (h : Refused template rows e) : expand template rows = .error e := by
  cases h with
  | noRow hrows =>
    subst hrows
    rfl
  | noTuple hrows hkeyword => exact expand_of_no_keyword hrows hkeyword
  | @unbound head tuple pieces i j row name hlast hreads hfirst =>
    have hrows : rows ≠ [] := List.ne_nil_of_mem (List.mem_of_getElem? hfirst.row)
    rw [expand_eq_error_iff_of_reads hrows hlast hreads, mapM_mapM_find_eq_error_iff]
    exact ⟨i, j, row, name, hfirst, rfl⟩

theorem expand_eq_error_iff : expand template rows = .error e ↔ Refused template rows e :=
  ⟨refused_of_expand, Refused.expand_eq⟩

/-- Expanding a template fails in exactly these cases, and then executing it fails with the same
error whatever the driver, which is left as it was. -/
theorem refused_templates_are_not_sent (template : String) (rows : List Bindings) :
    (∀ e, expand template rows = .error e ↔ Refused template rows e) ∧
    ∀ e, Refused template rows e → ∀ {σ : Type} (driver : Driver σ) (s : σ),
      driver.executeNamed template rows s = .error e s := by
  refine ⟨fun e => expand_eq_error_iff, fun e h σ driver s => ?_⟩
  rw [driver.executeNamed_of_error h.expand_eq]
  rfl

/-- The second row leaves out the parameter behind a cast. Another word VALUES stands in front of
the tuple, and the names there are not asked for. -/
theorem refused_templates_are_not_sent_accounts :
    let template := "INSERT INTO t VALUES (:none) VALUES (:id::x, :nick, :id)"
    let rows : List Bindings :=
      [⟨[("nick", .null), ("id", .int8 1)]⟩, ⟨[("id", .int8 2)]⟩, ⟨[]⟩]
    let r : Recorder := { answers := [.ok .empty], recorded := [⟨"SELECT 1", []⟩] }
    let s : Server := { replies := [{}], connections := 1 }
    expand template [] = .error (.invalidQuery "named statement needs at least one row") ∧
    expand "DELETE FROM t" rows = .error (.invalidQuery "no VALUES tuple in: DELETE FROM t") ∧
    Refused template rows (.missingParameter "nick") ∧
    Recorder.driver.executeNamed template rows r = .error (.missingParameter "nick") r ∧
    (Server.driver 0).executeNamed template rows s = .error (.missingParameter "nick") s := by
  intro template rows r s
  have hlast : LastOccurrence keyword template.toList "INSERT INTO t VALUES (:none)".toList
      "(:id::x, :nick, :id)".toList :=
    (splitLast_eq_some_iff (by decide)).mp (by decide +kernel)
  have hreads : Reads "(:id::x, :nick, :id)".toList
      (.plain '(' :: .parameter "id" :: .plain ':' :: .plain ':' :: .plain 'x' :: .plain ',' ::
        .plain ' ' :: .parameter "nick" :: .plain ',' :: .plain ' ' :: .parameter "id" ::
        [.plain ')']) :=
    reads_iff.mpr (by decide +kernel)
  have hrow : FailsFirst (fun row : Bindings => ∀ name ∈ ["id", "nick", "id"],
      name ∈ row.pairs.map Prod.fst) rows 1 ⟨[("id", .int8 2)]⟩ :=
    failsFirst_succ_iff.mpr ⟨by decide, failsFirst_zero_iff.mpr ⟨rfl, by decide⟩⟩
  have hname : FailsFirst (fun name => name ∈ ["id"]) ["id", "nick", "id"] 1 "nick" :=
    failsFirst_succ_iff.mpr ⟨by decide, failsFirst_zero_iff.mpr ⟨rfl, by decide⟩⟩
  have hrefused : Refused template rows (.missingParameter "nick") :=
    .unbound hlast hreads (failsFirstInRows_iff.mpr ⟨hrow, hname⟩)
  have hnot : ¬ keyword <:+: "DELETE FROM t".toList :=
    (splitLast_eq_none_iff (by decide)).mp (by decide +kernel)
  obtain ⟨-, hsend⟩ := refused_templates_are_not_sent template rows
  obtain ⟨hnoRow, -⟩ := refused_templates_are_not_sent template []
  obtain ⟨hnoTuple, -⟩ := refused_templates_are_not_sent "DELETE FROM t" rows
  refine ⟨(hnoRow _).mpr (.noRow rfl), (hnoTuple _).mpr (.noTuple (by simp [rows]) hnot),
    hrefused, hsend _ hrefused _ r, hsend _ hrefused _ s⟩

end Template

end TableMapper
