import TableMapper.Proofs.Driver.Sends
import TableMapper.Proofs.Filter.Shape

/-!
# Values never reach a text

Two calls of an operation that differ in nothing but the values they are given send the same text,
each with its own values in the same places. Values may be anything: the texts are put together and
numbered anew without a look at them, and so is the choice between a clause and none.

Values are compared by a relation `R` throughout. Nothing is asked of it, so a pair of values that
is related in the parameters is one that was related in what the calls were given.

## Main definitions

* `Outcome.Agree` — two steps come to related results, or to the same failure.
* `Statement.Agree`, `Bindings.Agree` — the same but for values, which are related by `R`.
* `Driver.SendAgreeing` — two calls put agreeing statements to every driver.
* `Driver.EndAlike` — two calls come to the same end without a driver.
-/

namespace TableMapper

variable {R : Value → Value → Prop}

/-! ## Outcomes -/

namespace Outcome

variable {ι α β : Type} {P : α → α → Prop} {Q : β → β → Prop}

/-- Two steps come to results related by `P`, or to the same failure. -/
inductive Agree (P : α → α → Prop) : Except Error α → Except Error α → Prop
  | ok {x x' : α} : P x x' → Agree P (.ok x) (.ok x')
  | error (e : Error) : Agree P (.error e) (.error e)

theorem Agree.bind {x x' : Except Error α} {f f' : α → Except Error β} (hx : Agree P x x')
    (hf : ∀ a a', P a a' → Agree Q (f a) (f' a')) : Agree Q (x >>= f) (x' >>= f') := by
  cases hx with
  | ok ha => exact hf _ _ ha
  | error e => exact .error e

theorem Agree.ok_or_error {x x' : Except Error α} (h : Agree P x x') :
    (∃ a a', x = .ok a ∧ x' = .ok a' ∧ P a a') ∨ ∃ e, x = .error e ∧ x' = .error e := by
  cases h with
  | ok ha => exact .inl ⟨_, _, rfl, rfl, ha⟩
  | error e => exact .inr ⟨e, rfl, rfl⟩

theorem Agree.mapM {xs xs' : List ι} {f f' : ι → Except Error α}
    (h : List.Forall₂ (fun x x' => Agree P (f x) (f' x')) xs xs') :
    Agree (List.Forall₂ P) (xs.mapM f) (xs'.mapM f') := by
  induction h with
  | nil => exact .ok .nil
  | cons hx _ ih =>
    rw [List.mapM_cons, List.mapM_cons]
    exact hx.bind fun _ _ ha => ih.bind fun _ _ has => .ok (.cons ha has)

end Outcome

open Outcome

/-! ## Statements and bindings -/

/-- The texts are the same, and the parameters are related one by one. -/
structure Statement.Agree (R : Value → Value → Prop) (statement statement' : Statement) : Prop where
  sql : statement.sql = statement'.sql
  params : List.Forall₂ R statement.params statement'.params

/-- Values of one name. -/
structure SameName (R : Value → Value → Prop) (a a' : String × Value) : Prop where
  name : a.1 = a'.1
  value : R a.2 a'.2

namespace Bindings

variable {row row' : Bindings}

/-- The same names are bound in the same order. -/
def Agree (R : Value → Value → Prop) (row row' : Bindings) : Prop :=
  List.Forall₂ (SameName R) row.pairs row'.pairs

theorem Agree.get? (h : row.Agree R row') (name : String) :
    Option.Rel R (row.get? name) (row'.get? name) := by
  obtain ⟨pairs⟩ := row
  obtain ⟨pairs'⟩ := row'
  change List.Forall₂ (SameName R) pairs pairs' at h
  unfold Bindings.get?
  induction h with
  | nil => exact .none
  | @cons a a' pairs pairs' ha _ ih =>
    simp only [List.find?_cons, ← ha.name]
    cases a.1 == name with
    | true => exact .some ha.value
    | false => exact ih

theorem Agree.find (h : row.Agree R row') (name : String) :
    Outcome.Agree R (row.find name) (row'.find name) := by
  have hget := h.get? name
  unfold Bindings.find
  generalize row.get? name = v, row'.get? name = v' at hget ⊢
  cases hget with
  | some hvalue => exact .ok hvalue
  | none => exact .error _

end Bindings

/-- A template is expanded without a look at the values of its rows. -/
theorem Template.expand_agree {rows rows' : List Bindings} (template : String)
    (h : List.Forall₂ (Bindings.Agree R) rows rows') :
    Outcome.Agree (Statement.Agree R) (expand template rows) (expand template rows') := by
  by_cases hrows : rows = []
  · subst hrows
    rw [List.forall₂_nil_left_iff.mp h]
    exact .error _
  have hrows' : rows' ≠ [] := by
    rintro rfl
    exact hrows (List.forall₂_nil_right_iff.mp h)
  cases hsplit : splitLast keyword template.toList with
  | none =>
    simp only [expand, hsplit, List.isEmpty_iff, hrows, hrows', if_false]
    exact .error _
  | some parts =>
    rw [expand_eq hrows hsplit, expand_eq hrows' hsplit, h.length_eq]
    have hvalues : Outcome.Agree (List.Forall₂ (List.Forall₂ R))
        (rows.mapM fun row => (parameters (scan parts.2)).mapM row.find)
        (rows'.mapM fun row => (parameters (scan parts.2)).mapM row.find) := by
      apply Agree.mapM
      refine h.imp fun row row' hrow => ?_
      apply Agree.mapM
      exact List.forall₂_same.mpr fun name _ => hrow.find name
    exact hvalues.bind fun _ _ hvalues => .ok ⟨rfl, List.rel_flatten hvalues⟩

/-! ## Filters -/

namespace Filter

variable {filter filter' : Filter} {left left' right right' : Statement}

/-- Which sides a join drops shows in their texts alone. -/
theorem renderJoin_agree (op : Connective) (hleft : left.Agree R left')
    (hright : right.Agree R right') :
    (renderJoin op left right).Agree R (renderJoin op left' right') := by
  unfold renderJoin
  rw [← hleft.sql, ← hright.sql]
  split
  · cases op with
    | and =>
      dsimp only
      split <;> assumption
    | or => exact ⟨rfl, .nil⟩
  · exact ⟨rfl, List.rel_append hleft.params hright.params⟩

theorem Agree.render (h : filter.Agree R filter') : filter.render.Agree R filter'.render := by
  induction h with
  | compare op column hoperand => exact ⟨rfl, .cons hoperand .nil⟩
  | join op _ _ hleft hright => exact renderJoin_agree op hleft hright
  | all => exact ⟨rfl, .nil⟩

end Filter

/-! ## Statements on a table -/

namespace Table

variable {t : Table} {filter filter' : Filter} {statement statement' : Statement}
  {values values' : List (String × Value)}

theorem restrict_agree (h : statement.Agree R statement') (hfilter : filter.Agree R filter') :
    (restrict statement filter).Agree R (restrict statement' filter') := by
  have hclause := hfilter.render
  simp only [restrict, ← hclause.sql, ← h.sql]
  split
  · exact h
  · exact ⟨rfl, List.rel_append h.params hclause.params⟩

theorem read_agree (t : Table) (limit : Nat) (h : filter.Agree R filter') :
    (t.read filter limit).Agree R (t.read filter' limit) where
  sql := by simp only [read, h.render.sql]
  params := h.render.params

/-- Assignments name their columns and count. -/
theorem assignments_agree (k : Nat) (h : List.Forall₂ (SameName R) values values') :
    assignments k values = assignments k values' := by
  induction h generalizing k with
  | nil => rfl
  | cons ha _ ih => rw [assignments, assignments, ha.name, ih]

theorem update_agree (t : Table) (h : List.Forall₂ (SameName R) values values')
    (hfilter : filter.Agree R filter') :
    Outcome.Agree (Statement.Agree R) (t.update values filter) (t.update values' filter') := by
  cases h with
  | nil => exact .error _
  | cons ha has =>
    have hset := assignments_agree 1 (.cons ha has)
    have hparams := List.rel_map (fun _ _ h => h.value) (.cons ha has)
    simp only [update, List.isEmpty_cons, hset]
    exact .ok (restrict_agree ⟨rfl, hparams⟩ hfilter)

theorem delete_agree (t : Table) (h : filter.Agree R filter') :
    (t.delete filter).Agree R (t.delete filter') :=
  restrict_agree ⟨rfl, .nil⟩ h

end Table

/-! ## Calls -/

namespace Driver

variable {β : Type}

/-- Both calls put a statement to every driver, and the statements agree. -/
inductive SendAgreeing (R : Value → Value → Prop)
    (call call' : {σ : Type} → Driver σ → Action σ β) : Prop
  | intro {statement statement' : Statement} :
      Sends call statement → Sends call' statement' → statement.Agree R statement' →
      SendAgreeing R call call'

/-- Both calls come to the same end whatever the driver is, and put nothing to it. -/
structure EndAlike (outcome : Except Error β)
    (call call' : {σ : Type} → Driver σ → Action σ β) : Prop where
  left : ∀ {σ : Type} (driver : Driver σ), call driver = MonadExcept.ofExcept outcome
  right : ∀ {σ : Type} (driver : Driver σ), call' driver = MonadExcept.ofExcept outcome

end Driver

namespace Repository

open Driver

variable {α : Type} {filter filter' : Filter} {values values' : List (String × Value)}
  {entities entities' : List α}

/-- The columns of two entities that are bound to related values. -/
theorem bindColumns_agree {entity : Entity α} {columns : List Column} {x x' : α}
    (h : ∀ name ∈ columns.map Column.name,
      Option.Rel R (entity.bind x name) (entity.bind x' name)) :
    Outcome.Agree (Bindings.Agree R) (bindColumns entity columns x)
      (bindColumns entity columns x') := by
  refine Agree.bind (P := List.Forall₂ (SameName R)) ?_ fun _ _ hpairs => .ok hpairs
  apply Agree.mapM
  refine List.forall₂_same.mpr fun column hcolumn => ?_
  have hvalue := h column.name (List.mem_map_of_mem hcolumn)
  generalize entity.bind x column.name = v, entity.bind x' column.name = v' at hvalue ⊢
  cases hvalue with
  | some hvalue => exact .ok ⟨rfl, hvalue⟩
  | none => exact .error _

theorem update_agree (r : Repository α) (hvalues : List.Forall₂ (SameName R) values values')
    (hfilter : filter.Agree R filter') :
    SendAgreeing R (r.update · values filter) (r.update · values' filter') ∨
      ∃ e, EndAlike (.error e) (r.update · values filter) (r.update · values' filter') := by
  rcases (r.table.update_agree hvalues hfilter).ok_or_error with
    ⟨statement, statement', h, h', hagree⟩ | ⟨e, h, h'⟩
  · exact .inl (.intro (sends_update h) (sends_update h') hagree)
  · exact .inr ⟨e, update_of_error h, update_of_error h'⟩

/-- A column without a value and a template that does not expand fail both calls alike. -/
theorem create_agree (r : Repository α) (hne : entities ≠ [])
    (h : List.Forall₂ (fun x x' => ∀ name ∈ r.table.columnNames,
      Option.Rel R (r.entity.bind x name) (r.entity.bind x' name)) entities entities') :
    SendAgreeing R (r.create · entities) (r.create · entities') ∨
      ∃ e, EndAlike (.error e) (r.create · entities) (r.create · entities') := by
  have hne' : entities' ≠ [] := by
    rintro rfl
    exact hne (List.forall₂_nil_right_iff.mp h)
  have hbound := Agree.mapM (h.imp fun _ _ hx => bindColumns_agree hx)
  rcases hbound.ok_or_error with ⟨rows, rows', hrows, hrows', hrow⟩ | ⟨e, he, he'⟩
  · rcases (Template.expand_agree r.table.insertTemplate hrow).ok_or_error with
      ⟨statement, statement', hexpand, hexpand', hagree⟩ | ⟨e, hexpand, hexpand'⟩
    · exact .inl
        (.intro (sends_create hne hrows hexpand) (sends_create hne' hrows' hexpand') hagree)
    · exact .inr ⟨e, create_of_expand_error hne hrows hexpand,
        create_of_expand_error hne' hrows' hexpand'⟩
  · exact .inr ⟨e, create_of_unbound hne he, create_of_unbound hne' he'⟩

/-- Calls that are given filters, assignments and entities of one shape send the same text, with as
many parameters, each related to the one in its place. Otherwise both fail alike before anything is
sent; to create no entities needs no statement. -/
theorem text_ignores_values (R : Value → Value → Prop) (r : Repository α) (limit : Nat)
    (hfilter : filter.Agree R filter') (hvalues : List.Forall₂ (SameName R) values values')
    (hentities : List.Forall₂ (fun x x' => ∀ name ∈ r.table.columnNames,
      Option.Rel R (r.entity.bind x name) (r.entity.bind x' name)) entities entities') :
    SendAgreeing R (r.read · filter limit) (r.read · filter' limit) ∧
    (SendAgreeing R (r.update · values filter) (r.update · values' filter') ∨
      ∃ e, EndAlike (.error e) (r.update · values filter) (r.update · values' filter')) ∧
    SendAgreeing R (r.delete · filter) (r.delete · filter') ∧
    (entities ≠ [] → SendAgreeing R (r.create · entities) (r.create · entities') ∨
      ∃ e, EndAlike (.error e) (r.create · entities) (r.create · entities')) ∧
    (entities = [] → EndAlike (.ok ()) (r.create · entities) (r.create · entities')) := by
  refine ⟨.intro (sends_read r filter limit) (sends_read r filter' limit)
      (r.table.read_agree limit hfilter), r.update_agree hvalues hfilter,
    .intro (sends_delete r filter) (sends_delete r filter') (r.table.delete_agree hfilter),
    fun hne => r.create_agree hne hentities, ?_⟩
  rintro rfl
  rw [List.forall₂_nil_left_iff.mp hentities]
  exact ⟨fun _ => rfl, fun _ => rfl⟩

/-- Plain values on one side; a NaN, a null and texts that look like SQL on the other. -/
theorem text_ignores_values_notes :
    let any : Value → Value → Prop := fun _ _ => True
    let table : Table := ⟨"app", "note", [⟨"id", "id", .primaryKey⟩, ⟨"body", "body", .plain⟩]⟩
    let r : Repository Bindings := ⟨Entity.ofColumns ⟨0, "Note"⟩ [], ⟨0, table⟩⟩
    let filter := Filter.or (Filter.eq "id" "7") (Filter.less "body" "x")
    let filter' := Filter.or (Filter.eq "id" "' OR '1' = '1") (.compare .less "body" .null)
    let values : List (String × Value) := [("body", .text "done")]
    let values' : List (String × Value) := [("body", .text "$2 WHERE $1; DELETE FROM app.note")]
    let entities : List Bindings := [⟨[("id", .int8 1), ("body", .text "a")]⟩]
    let entities' : List Bindings :=
      [⟨[("body", .text ":id) VALUES (:body"), ("id", .float8 ⟨0x7FF8000000000000⟩)]⟩]
    (filter.Agree any filter' ∧ List.Forall₂ (SameName any) values values' ∧
      List.Forall₂ (fun x x' => ∀ name ∈ r.table.columnNames,
        Option.Rel any (r.entity.bind x name) (r.entity.bind x' name)) entities entities') ∧
    (SendAgreeing any (r.read · filter 5) (r.read · filter' 5) ∧
      (SendAgreeing any (r.update · values filter) (r.update · values' filter') ∨
        ∃ e, EndAlike (.error e) (r.update · values filter) (r.update · values' filter')) ∧
      SendAgreeing any (r.delete · filter) (r.delete · filter') ∧
      (SendAgreeing any (r.create · entities) (r.create · entities') ∨
        ∃ e, EndAlike (.error e) (r.create · entities) (r.create · entities')) ∧
      EndAlike (.ok ()) (r.create · []) (r.create · [])) ∧
    (Action.stateAfter (r.update Recorder.driver values' filter' {})).recorded.map (·.sql) =
      ["UPDATE app.note SET body = $1 WHERE (id = $2) OR (body < $3)"] ∧
    (Action.stateAfter (r.create Recorder.driver entities' {})).recorded.map (·.sql) =
      ["INSERT INTO app.note (id, body) VALUES ($1, $2)"] := by
  intro any table r filter filter' values values' entities entities'
  have hfilter : filter.Agree any filter' :=
    .join .or (.compare .eq "id" trivial) (.compare .less "body" trivial)
  have hvalues : List.Forall₂ (SameName any) values values' := .cons ⟨rfl, trivial⟩ .nil
  have hentities : List.Forall₂ (fun x x' => ∀ name ∈ r.table.columnNames,
      Option.Rel any (r.entity.bind x name) (r.entity.bind x' name)) entities entities' := by
    refine .cons (fun name hname => ?_) .nil
    obtain rfl | rfl : name = "id" ∨ name = "body" := by
      simpa [r, table, Repository.table, Table.columnNames] using hname
    · exact .some trivial
    · exact .some trivial
  obtain ⟨hread, hupdate, hdelete, hcreate, -⟩ :=
    text_ignores_values any r 5 hfilter hvalues hentities
  obtain ⟨-, -, -, -, hempty⟩ :=
    text_ignores_values any r 5 hfilter hvalues .nil
  exact ⟨⟨hfilter, hvalues, hentities⟩,
    ⟨hread, hupdate, hdelete, hcreate (List.cons_ne_nil _ _), hempty rfl⟩,
    by decide +kernel, by decide +kernel⟩

end Repository

end TableMapper
