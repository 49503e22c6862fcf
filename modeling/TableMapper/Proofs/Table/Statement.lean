import TableMapper.Driver.Recorder
import TableMapper.Proofs.Filter.Render
import TableMapper.Repository

/-!
# Statements number from left to right

Reading trusts the numbers of a rendered filter, deleting numbers its text anew, and updating does
so only behind a filter. All three send the text that one pass from left to right would write.

## Main definitions

* `Filter.whereText` — the WHERE clause of a filter, counted from a given number on.
* `Table.setText` — the assignments of an update, counted from `$1` on.
* `Table.limitText` — the LIMIT clause.
-/

namespace TableMapper

open Placeholder

/-! ## Parts of a statement -/

/-- The WHERE clause of a filter without `all`, its placeholders counted from `n` on. -/
def Filter.whereText (n : Nat) : Filter → String
  | .all => ""
  | f => " WHERE " ++ f.numbered n

namespace Table

variable {n : Nat} {t : Table} {filter : Filter} {values : List (String × Value)}

/-- The assignments of an update, the `k`-th one bound from `$k`. -/
def setText (values : List (String × Value)) : String :=
  ", ".intercalate ((values.zipIdx 1).map fun ((column, _), k) => column ++ " = $" ++ toString k)

/-- A limit of zero is none. -/
def limitText (limit : Nat) : String :=
  if limit = 0 then "" else " LIMIT " ++ toString limit

theorem whereText_of_ne_all (h : filter ≠ .all) :
    filter.whereText n = " WHERE " ++ filter.numbered n := by
  cases filter with
  | all => exact absurd rfl h
  | _ => rfl

theorem numbers_whereText (free : ∀ column ∈ filter.columns, Free column) (k n : Nat) :
    Numbers n (n + filter.size) (filter.whereText k) (filter.whereText n) := by
  by_cases h : filter = .all
  · subst h
    exact .of_free n (free_of_dollar_not_mem "" (by decide))
  · rw [whereText_of_ne_all h, whereText_of_ne_all h]
    have hlead : Free " WHERE " := free_of_dollar_not_mem _ (by decide)
    exact (filter.numbers_numbered free k n).prepend hlead (by decide)

/-- A WHERE clause begins with no identifier. -/
theorem head?_whereText (n : Nat) (filter : Filter) :
    (filter.whereText n).toList.head?.any isIdentifierChar = false := by
  by_cases h : filter = .all
  · subst h
    rfl
  · rw [whereText_of_ne_all h]
    simp [isIdentifierChar]

theorem free_limitText (limit : Nat) : Free (limitText limit) := by
  refine free_of_dollar_not_mem _ ?_
  unfold limitText
  split
  · decide
  · intro h
    rw [String.toList_append, List.mem_append] at h
    exact h.elim (by decide) fun hdigit => absurd (isDigit_of_mem_digits hdigit) (by decide)

theorem free_qualifiedName (hschema : Free t.schema) (hname : Free t.name) :
    Free t.qualifiedName := by
  have hdot := hschema.append (free_of_dollar_not_mem "." (by decide)) (.inr (by decide))
  exact hdot.append hname (.inl (by simp [isIdentifierChar]))

theorem free_intercalate {texts : List String} (h : ∀ text ∈ texts, Free text) :
    Free (", ".intercalate texts) := by
  induction texts with
  | nil => exact free_of_dollar_not_mem _ (by decide)
  | cons text texts ih =>
    have htext := h text (by simp)
    have htexts := ih fun text' h' => h text' (by simp [h'])
    cases texts with
    | nil => simpa using htext
    | cons text' texts =>
      rw [String.intercalate_cons_cons]
      exact (htext.append (free_of_dollar_not_mem ", " (by decide)) (.inr (by decide))).append
        htexts (.inl (by simp [isIdentifierChar]))

/-! ## The three texts -/

theorem free_selectText (hschema : Free t.schema) (hname : Free t.name)
    (hcolumns : ∀ column ∈ t.columnNames, Free column) : Free t.selectText := by
  have hselect := (free_of_dollar_not_mem "SELECT " (by decide)).append
    (free_intercalate hcolumns) (.inl (by decide))
  have hfrom := hselect.append (free_of_dollar_not_mem " FROM " (by decide)) (.inr (by decide))
  exact hfrom.append (free_qualifiedName hschema hname) (.inl (by simp [isIdentifierChar]))

theorem free_updateText (hschema : Free t.schema) (hname : Free t.name) : Free t.updateText := by
  have hupdate := (free_of_dollar_not_mem "UPDATE " (by decide)).append
    (free_qualifiedName hschema hname) (.inl (by decide))
  exact hupdate.append (free_of_dollar_not_mem " SET " (by decide)) (.inr (by decide))

theorem free_deleteText (hschema : Free t.schema) (hname : Free t.name) : Free t.deleteText :=
  (free_of_dollar_not_mem "DELETE FROM " (by decide)).append
    (free_qualifiedName hschema hname) (.inl (by decide))

theorem assignments_eq (k : Nat) (values : List (String × Value)) :
    assignments k values =
      (values.zipIdx k).map fun ((column, _), k) => column ++ " = $" ++ toString k := by
  induction values generalizing k with
  | nil => rfl
  | cons value values ih =>
    obtain ⟨column, x⟩ := value
    rw [assignments, ih, List.zipIdx_cons, List.map_cons]

theorem numbers_assignment {column : String} (h : Free column) (n : Nat) :
    Numbers n (n + 1) (column ++ " = $" ++ toString n) (column ++ " = $" ++ toString n) := by
  have hlead := h.append (free_of_dollar_not_mem " = " (by decide)) (.inr (by decide))
  have hall := (Numbers.dollar n n).prepend hlead (by simp [isIdentifierChar])
  have hdollar : " = $" = " = " ++ "$" := by decide
  simpa only [hdollar, String.append_assoc] using hall

theorem numbers_assignments (free : ∀ a ∈ values, Free a.1) (n : Nat) :
    Numbers n (n + values.length) (", ".intercalate (assignments n values))
      (", ".intercalate (assignments n values)) := by
  induction values generalizing n with
  | nil => exact .of_free n (free_of_dollar_not_mem "" (by decide))
  | cons value values ih =>
    have hfirst := numbers_assignment (free value (by simp)) n
    have hrest := ih (fun a h => free a (by simp [h])) (n + 1)
    cases values with
    | nil => simpa [assignments] using hfirst
    | cons value' values =>
      have hcomma := hfirst.append_free (free_of_dollar_not_mem ", " (by decide)) (by decide)
      have hall := hcomma.append hrest (.inl (by simp [isIdentifierChar]))
        (.inl (by simp [isIdentifierChar]))
      rw [List.length_cons, ← Nat.add_assoc, Nat.add_right_comm]
      simpa only [assignments, String.intercalate_cons_cons] using hall

/-! ## Behind a filter -/

/-- A statement whose placeholders are numbered up to `m` goes on from `m` in its WHERE clause. -/
theorem restrict_eq {sql : String} {m : Nat} (params : List Value) (h : Numbers 1 m sql sql)
    (free : ∀ column ∈ filter.columns, Free column) :
    restrict ⟨sql, params⟩ filter =
      ⟨sql ++ filter.normal.whereText m, params ++ filter.normal.operands⟩ := by
  have hfree := Filter.free_columns_normal free
  simp only [restrict, Filter.render_eq free]
  by_cases hall : filter.normal = .all
  · simp [hall, Filter.numbered, Filter.whereText, Filter.operands, Filter.comparisons]
  · have hwhere := h.append (numbers_whereText hfree 1 m) (.inr (head?_whereText ..))
      (.inr (head?_whereText ..))
    rw [whereText_of_ne_all hall, ← String.append_assoc] at hwhere
    rw [if_neg (by simp [Filter.numbered_eq_empty_iff, hall]), hwhere.renumber_eq]

theorem read_eq (free : ∀ column ∈ filter.columns, Free column) (t : Table) (limit : Nat) :
    t.read filter limit =
      ⟨t.selectText ++ filter.normal.whereText 1 ++ limitText limit, filter.normal.operands⟩ := by
  simp only [read, Filter.render_eq free, limitText]
  by_cases hall : filter.normal = .all
  · by_cases hlimit : limit = 0 <;> simp [hall, hlimit, Filter.numbered, Filter.whereText,
      String.append_assoc]
  · by_cases hlimit : limit = 0 <;> simp [hall, hlimit, Filter.numbered_eq_empty_iff,
      whereText_of_ne_all, String.append_assoc]

/-- The prefix and the assignments of an update are numbered from `$1` on. -/
theorem numbers_updateText (hschema : Free t.schema) (hname : Free t.name)
    (hvalues : ∀ a ∈ values, Free a.1) :
    Numbers 1 (values.length + 1) (t.updateText ++ setText values)
      (t.updateText ++ setText values) := by
  rw [setText, ← assignments_eq, Nat.add_comm]
  exact (numbers_assignments hvalues 1).prepend (free_updateText hschema hname)
    (by simp [updateText, isIdentifierChar])

theorem update_eq (hschema : Free t.schema) (hname : Free t.name) (hne : values ≠ [])
    (hvalues : ∀ a ∈ values, Free a.1) (free : ∀ column ∈ filter.columns, Free column) :
    t.update values filter =
      .ok ⟨t.updateText ++ setText values ++ filter.normal.whereText (values.length + 1),
        values.map (·.2) ++ filter.normal.operands⟩ := by
  have hnonempty : ¬ values.isEmpty = true := by simpa using hne
  have hset := numbers_updateText hschema hname hvalues
  rw [setText, ← assignments_eq] at hset ⊢
  rw [update, if_neg hnonempty]
  exact congrArg _ (restrict_eq _ hset free)

theorem delete_eq (hschema : Free t.schema) (hname : Free t.name)
    (free : ∀ column ∈ filter.columns, Free column) :
    t.delete filter =
      ⟨t.deleteText ++ filter.normal.whereText 1, filter.normal.operands⟩ :=
  restrict_eq [] (.of_free 1 (free_deleteText hschema hname)) free

/-- Behind a text that is numbered up to `m`, the WHERE clause counted from `m` leaves no gap, and
plain text behind it changes nothing. -/
theorem labels_whereText {sql post : String} {m : Nat} (h : Numbers 1 m sql sql)
    (free : ∀ column ∈ filter.columns, Free column) (hpost : Free post)
    (hr : post.toList.head?.any isIdentifierChar = false) :
    labels (sql ++ filter.normal.whereText m ++ post) =
      (List.range' 1 (m - 1 + filter.normal.operands.length)).map digits := by
  have hfree := Filter.free_columns_normal free
  have hwhere := h.append (numbers_whereText hfree m m) (.inr (head?_whereText ..))
    (.inr (head?_whereText ..))
  have hall := hwhere.append_free hpost hr
  rw [hall.labels_eq, Filter.length_operands, h.next, Nat.add_sub_cancel_left, Nat.add_assoc,
    Nat.add_sub_cancel_left]

theorem head?_limitText (limit : Nat) :
    (limitText limit).toList.head?.any isIdentifierChar = false := by
  unfold limitText
  split
  · rfl
  · simp [isIdentifierChar]

end Table

namespace Repository

variable {σ α : Type}

/-- Reading, updating and deleting send the text that one pass from left to right writes, and its
placeholders read `$1, $2, ...` up to the number of parameters. -/
theorem sends_numbered_in_order (r : Repository α) (driver : Driver σ) (filter : Filter)
    (limit : Nat) (values : List (String × Value)) (hne : values ≠ [])
    (hschema : Free r.table.schema) (hname : Free r.table.name)
    (hcolumns : ∀ column ∈ r.table.columnNames, Free column)
    (hvalues : ∀ a ∈ values, Free a.1) (hfilter : ∀ column ∈ filter.columns, Free column) :
    let read : Statement :=
      ⟨r.table.selectText ++ filter.normal.whereText 1 ++ Table.limitText limit,
        filter.normal.operands⟩
    let update : Statement :=
      ⟨r.table.updateText ++ Table.setText values ++ filter.normal.whereText (values.length + 1),
        values.map (·.2) ++ filter.normal.operands⟩
    let delete : Statement :=
      ⟨r.table.deleteText ++ filter.normal.whereText 1, filter.normal.operands⟩
    (r.read driver filter limit = do
      let result ← driver.query read
      MonadExcept.ofExcept (result.toRows.mapM r.entity.ofRow)) ∧
    r.update driver values filter = discard (driver.execute update) ∧
    r.delete driver filter = discard (driver.execute delete) ∧
    ∀ statement ∈ [read, update, delete],
      labels statement.sql = (List.range' 1 statement.params.length).map digits := by
  intro read update delete
  refine ⟨?_, ?_, ?_, ?_⟩
  · rw [Repository.read, Table.read_eq hfilter]
  · rw [Repository.update, Table.update_eq hschema hname hne hvalues hfilter]
    rfl
  · rw [Repository.delete, Table.delete_eq hschema hname hfilter]
  · intro statement hstatement
    simp only [List.mem_cons, List.not_mem_nil, or_false] at hstatement
    have hempty : Free "" := free_of_dollar_not_mem _ (by decide)
    rcases hstatement with rfl | rfl | rfl
    · have hselect := Table.free_selectText hschema hname hcolumns
      simpa [read] using Table.labels_whereText (.of_free 1 hselect) hfilter
        (Table.free_limitText limit) (Table.head?_limitText limit)
    · simpa [update] using Table.labels_whereText
        (Table.numbers_updateText hschema hname hvalues) hfilter hempty rfl
    · simpa [delete] using Table.labels_whereText
        (.of_free 1 (Table.free_deleteText hschema hname)) hfilter hempty rfl

/-- An update behind a filter, with dollar signs in the names. -/
theorem sends_numbered_in_order_accounts :
    let entity := Entity.ofColumns ⟨0, "Account"⟩ []
    let table : Table := ⟨"app", "account$1", [⟨"id", "id", .primaryKey⟩]⟩
    let values : List (String × Value) := [("a$2", .text "$9"), ("b", .null)]
    let filter := Filter.and (Filter.eq "id" "7") (Filter.or Filter.all (Filter.eq "c" "8"))
    (values ≠ [] ∧ Free table.schema ∧ Free table.name ∧
      (∀ column ∈ table.columnNames, Free column) ∧ (∀ a ∈ values, Free a.1) ∧
      ∀ column ∈ filter.columns, Free column) ∧
    (⟨entity, ⟨0, table⟩⟩ : Repository Bindings).update Recorder.driver values filter {} =
      .ok () { recorded := [⟨"UPDATE app.account$1 SET a$2 = $1, b = $2 WHERE id = $3",
        [.text "$9", .null, .text "7"]⟩] } := by
  intro entity table values filter
  have hvalues : ∀ a ∈ values, Free a.1 := by decide +kernel
  have hfilter : ∀ column ∈ filter.columns, Free column := by decide +kernel
  have hcolumns : ∀ column ∈ table.columnNames, Free column := by decide +kernel
  have hschema : Free table.schema := by decide +kernel
  have hname : Free table.name := by decide +kernel
  refine ⟨⟨by simp [values], hschema, hname, hcolumns, hvalues, hfilter⟩, ?_⟩
  rw [(sends_numbered_in_order ⟨entity, ⟨0, table⟩⟩ Recorder.driver filter 0 values
    (by simp [values]) hschema hname hcolumns hvalues hfilter).2.1]
  have htext : table.updateText ++ Table.setText values ++
      filter.normal.whereText (values.length + 1) =
        "UPDATE app.account$1 SET a$2 = $1, b = $2 WHERE id = $3" := by
    decide +kernel
  rw [← htext]
  rfl

end Repository

end TableMapper
