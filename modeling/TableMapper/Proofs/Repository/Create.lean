import TableMapper.Driver.Recorder
import TableMapper.Proofs.Template.Tuple
import TableMapper.Repository

/-!
# Creating entities

Creating entities expands the insert template of the table, so it depends on the column names being
found again in the template. It sends the insert statement of the table, each value in its place,
exactly when all their characters may stand in the name of a parameter.

## Main definitions

* `Table.insertText` — the insert statement for a number of rows.
* `Repository.Inserts` — a statement inserts the entities of a list.
-/

namespace TableMapper

open Placeholder

/-! ## Insert statements -/

namespace Table

open Template

variable {t : Table} {n : Nat}

/-- The insert statement in front of its rows. -/
def insertHead (t : Table) : String :=
  "INSERT INTO " ++ t.qualifiedName ++ " (" ++ ", ".intercalate t.columnNames ++ ")"

/-- A row of `m` placeholders from `$k` on. -/
def rowText (k m : Nat) : String :=
  "(" ++ ", ".intercalate ((List.range' k m).map fun i => "$" ++ toString i) ++ ")"

/-- The insert statement for `n` rows, their placeholders counted on from row to row. -/
def insertText (t : Table) (n : Nat) : String :=
  let m := t.columnNames.length
  t.insertHead ++ " VALUES " ++ ", ".intercalate ((List.range n).map fun i => rowText (i * m + 1) m)

theorem toList_rowText (k : Nat) (names : List String) :
    (rowText k names.length).toList = numbered k (tuple names) := by
  rw [tuple, numbered, numbered_arguments_append, rowText]
  simp [numbered]

theorem toList_insertTemplate (t : Table) :
    t.insertTemplate.toList =
      t.insertHead.toList ++ keyword ++ (tuple t.columnNames).flatMap Piece.text := by
  have htuple : (tuple t.columnNames).flatMap Piece.text =
      ("(" ++ ", ".intercalate (t.columnNames.map (":" ++ ·)) ++ ")").toList := by
    rw [tuple, List.flatMap_cons, List.flatMap_append, flatMap_text_arguments]
    simp [Piece.text]
  have hopen : ") VALUES (".toList = ")".toList ++ keyword ++ "(".toList := rfl
  have htext : t.insertTemplate =
      "INSERT INTO " ++ t.qualifiedName ++ " (" ++ ", ".intercalate t.columnNames ++ ") VALUES (" ++
        ", ".intercalate (t.columnNames.map (":" ++ ·)) ++ ")" := rfl
  have hhead : t.insertHead =
      "INSERT INTO " ++ t.qualifiedName ++ " (" ++ ", ".intercalate t.columnNames ++ ")" := rfl
  rw [htuple, htext, hhead]
  simp only [String.toList_append, hopen, List.append_assoc]

theorem toList_insertText (t : Table) (n : Nat) :
    (t.insertText n).toList =
      t.insertHead.toList ++ keyword ++
        List.intercalate [',', ' '] (copies (tuple t.columnNames) 1 n) := by
  simp only [insertText, String.toList_append, String.toList_intercalate, List.map_map, copies,
    parameters_tuple, Function.comp_def, toList_rowText, Nat.add_comm]
  rfl

theorem splitLast_insertTemplate (hspace : ∀ name ∈ t.columnNames, ' ' ∉ name.toList) :
    splitLast keyword t.insertTemplate.toList =
      some (t.insertHead.toList, (tuple t.columnNames).flatMap Piece.text) := by
  rw [toList_insertTemplate]
  exact splitLast_append (by decide) _ _ (not_keyword_infix_tail hspace)

end Table

/-! ## Named statements -/

namespace Driver

variable {σ : Type} {template : String} {rows : List Bindings} {statement : Statement}

theorem executeNamed_of_ok (driver : Driver σ) (h : Template.expand template rows = .ok statement) :
    driver.executeNamed template rows = driver.execute statement := by
  rw [executeNamed, h]
  rfl

theorem executeNamed_of_error (driver : Driver σ) {e : Error}
    (h : Template.expand template rows = .error e) :
    driver.executeNamed template rows = throw e := by
  rw [executeNamed, h]
  rfl

/-- A template reaches every driver as one statement when it expands to that statement, and only
then. -/
theorem executeNamed_eq_execute_iff :
    (∀ (σ : Type) (driver : Driver σ),
      (discard (driver.executeNamed template rows) : Action σ Unit) =
        discard (driver.execute statement)) ↔
      Template.expand template rows = .ok statement := by
  constructor
  · intro h
    have hrecord := congrFun (h Recorder Recorder.driver) {}
    cases hexpand : Template.expand template rows with
    | error e =>
      rw [executeNamed_of_error _ hexpand] at hrecord
      exact nomatch hrecord
    | ok statement' =>
      rw [executeNamed_of_ok _ hexpand] at hrecord
      obtain ⟨-, hstate⟩ := EStateM.Result.ok.inj hrecord
      have hrecorded : [statement'] = [statement] := congrArg Recorder.recorded hstate
      rw [(List.cons.inj hrecorded).1]
  · intro h σ driver
    rw [executeNamed_of_ok driver h]

end Driver

/-! ## Creating -/

namespace Repository

open Template

variable {σ α : Type} {r : Repository α} {entities : List α} {statement : Statement}
  {bound : α → String → Value}

/-- The statement inserts the entities, one row after the other, and each column gets the value the
entity is bound to. -/
structure Inserts (r : Repository α) (entities : List α) (statement : Statement) : Prop where
  sql : statement.sql = r.table.insertText entities.length
  length_params :
    statement.params.length = entities.length * r.table.columnNames.length
  param : ∀ (i j : Nat) (x : α) (name : String),
    entities[i]? = some x → r.table.columnNames[j]? = some name →
      statement.params[i * r.table.columnNames.length + j]? = r.entity.bind x name

/-- Every column of the entities is bound. -/
def Binds (r : Repository α) (entities : List α) (bound : α → String → Value) : Prop :=
  ∀ x ∈ entities, ∀ name ∈ r.table.columnNames, r.entity.bind x name = some (bound x name)

/-- The row of an entity whose columns are all bound. -/
def rowOf (columns : List Column) (value : String → Value) : Bindings :=
  ⟨columns.map fun column => (column.name, value column.name)⟩

theorem bindColumns_eq {entity : Entity α} {columns : List Column} {x : α}
    (h : ∀ column ∈ columns, entity.bind x column.name = some (bound x column.name)) :
    bindColumns entity columns x = .ok (rowOf columns (bound x)) := by
  rw [bindColumns, mapM_eq_ok_map (f := fun column => (column.name, bound x column.name))]
  · rfl
  · intro column hcolumn
    rw [h column hcolumn]

theorem find_rowOf {columns : List Column} {value : String → Value} {name : String}
    (h : name ∈ columns.map Column.name) : (rowOf columns value).find name = .ok (value name) := by
  rw [Bindings.find_eq_ok_iff, Bindings.get?, rowOf, List.find?_map]
  obtain ⟨column, hcolumn, rfl⟩ := List.mem_map.mp h
  cases hfind : columns.find? ((fun pair : String × Value => pair.1 == column.name) ∘
      fun column => (column.name, value column.name)) with
  | none =>
    have hnone := List.find?_eq_none.mp hfind column hcolumn
    simp at hnone
  | some column' =>
    have hname : column'.name = column.name := by simpa using List.find?_some hfind
    simp [hname]

theorem create_eq {rows : List Bindings} (driver : Driver σ) (hne : entities ≠ [])
    (hrows : entities.mapM (bindColumns r.entity r.table.columns) = .ok rows) :
    r.create driver entities =
      discard (driver.executeNamed r.table.insertTemplate rows) := by
  rw [create, if_neg (by simpa using hne), hrows]
  rfl

/-- What the template of a table expands to, whatever its scan finds. -/
theorem expand_insertTemplate {rows : List Bindings} {pieces : List Piece} (hrows : rows ≠ [])
    (hspace : ∀ name ∈ r.table.columnNames, ' ' ∉ name.toList)
    (hscan : scan ((tuple r.table.columnNames).flatMap Piece.text) = pieces) :
    expand r.table.insertTemplate rows = do
      let values ← rows.mapM fun row => (parameters pieces).mapM row.find
      return {
        sql := String.ofList (r.table.insertHead.toList ++ keyword ++
          List.intercalate [',', ' '] (copies pieces 1 rows.length))
        params := values.flatten } := by
  rw [← hscan]
  exact expand_eq hrows (Table.splitLast_insertTemplate hspace)

/-- Names that are read back as they were written are bound column by column. -/
theorem expand_of_scan (hne : entities ≠ [])
    (hspace : ∀ name ∈ r.table.columnNames, ' ' ∉ name.toList)
    (hscan : scan ((tuple r.table.columnNames).flatMap Piece.text) = tuple r.table.columnNames) :
    expand r.table.insertTemplate (entities.map fun x => rowOf r.table.columns (bound x)) =
      .ok ⟨r.table.insertText entities.length,
        entities.flatMap fun x => r.table.columnNames.map (bound x)⟩ := by
  have hvalues : (entities.map fun x => rowOf r.table.columns (bound x)).mapM
      (fun row => r.table.columnNames.mapM row.find) =
        .ok (entities.map fun x => r.table.columnNames.map (bound x)) := by
    rw [mapM_eq_ok_iff, List.forall₂_map_left_iff, List.forall₂_map_right_iff]
    refine List.forall₂_same.mpr fun x _ => mapM_eq_ok_map fun name hname => ?_
    exact find_rowOf hname
  rw [expand_insertTemplate (by simpa using hne) hspace hscan, parameters_tuple, List.length_map,
    hvalues, ← Table.toList_insertText, String.ofList_toList, List.flatMap_def]
  rfl

/-- A template that expands to the insert statement copies no character that ends a name: the text
has one of them for each parameter already. -/
theorem countP_plains_of_expand {rows : List Bindings} {pieces : List Piece} (hrows : rows ≠ [])
    (hspace : ∀ name ∈ r.table.columnNames, ' ' ∉ name.toList)
    (hscan : scan ((tuple r.table.columnNames).flatMap Piece.text) = pieces)
    (hexpand : expand r.table.insertTemplate rows = .ok statement)
    (hsql : statement.sql = r.table.insertText rows.length)
    (hparams : statement.params.length = rows.length * r.table.columnNames.length) :
    (plains pieces).countP endsName = 0 := by
  rw [expand_insertTemplate hrows hspace hscan] at hexpand
  cases hvalues : rows.mapM fun row => (parameters pieces).mapM row.find with
  | error e =>
    rw [hvalues] at hexpand
    exact nomatch hexpand
  | ok values =>
    rw [hvalues] at hexpand
    obtain rfl := Except.ok.inj hexpand
    have htext := congrArg String.toList hsql
    rw [String.toList_ofList, Table.toList_insertText] at htext
    have hcount := congrArg (List.countP endsName) (List.append_cancel_left htext)
    rw [countP_copies, countP_copies, parameters_tuple, countP_plains_tuple, Nat.add_zero,
      Nat.mul_add, ← length_flatten_of_mapM hvalues, hparams] at hcount
    have hzero : rows.length * (plains pieces).countP endsName = 0 := by omega
    have hpos : rows.length ≠ 0 := by simpa using hrows
    exact (Nat.mul_eq_zero.mp hzero).resolve_left hpos

/-- The entities reach every driver as one statement when the template expands to it for their
rows, and only then. -/
theorem create_sends_iff (hne : entities ≠ []) (hbound : r.Binds entities bound) :
    (∀ (σ : Type) (driver : Driver σ),
      r.create driver entities = discard (driver.execute statement)) ↔
      expand r.table.insertTemplate
        (entities.map fun x => rowOf r.table.columns (bound x)) = .ok statement := by
  have hrows : entities.mapM (bindColumns r.entity r.table.columns) =
      .ok (entities.map fun x => rowOf r.table.columns (bound x)) := by
    refine mapM_eq_ok_map fun x hx => bindColumns_eq fun column hcolumn => ?_
    exact hbound x hx column.name (List.mem_map_of_mem hcolumn)
  rw [← Driver.executeNamed_eq_execute_iff]
  exact forall₂_congr fun σ driver => by rw [create_eq driver hne hrows]

theorem Binds.inserts (hbound : r.Binds entities bound) :
    r.Inserts entities ⟨r.table.insertText entities.length,
      entities.flatMap fun x => r.table.columnNames.map (bound x)⟩ where
  sql := rfl
  length_params := by simp [List.length_flatMap]
  param := by
    intro i j x name hx hname
    obtain ⟨hj, -⟩ := List.getElem?_eq_some_iff.mp hname
    rw [getElem?_flatMap_of_length (by simp) hx hj, List.getElem?_map, hname, Option.map_some,
      hbound x (List.mem_of_getElem? hx) name (List.mem_of_getElem? hname)]

/-- A character of an identifier that no parameter name may hold is copied. -/
theorem endsName_mem_plains {names : List String} {name : String} {c : Char} (hname : name ∈ names)
    (hc : c ∈ name.toList) (hend : endsName c) :
    c ∈ plains (scan ((tuple names).flatMap Piece.text)) := by
  have hpiece : .parameter name ∈ tuple names := by
    rwa [← mem_parameters, parameters_tuple]
  have hmem : c ∈ (tuple names).flatMap Piece.text :=
    List.mem_flatMap.mpr ⟨_, hpiece, List.mem_cons_of_mem _ hc⟩
  have hcolon : c ≠ ':' := by
    rintro rfl
    exact absurd hend (by decide)
  rw [endsName, Bool.and_eq_true, Bool.not_eq_true'] at hend
  exact mem_plains_scan hmem hcolon hend.2

/-- Creating entities inserts all of them with one statement, exactly when every column name may
be the name of a parameter. -/
theorem create_inserts_iff (r : Repository α) (entities : List α) (hne : entities ≠ [])
    (hnames : ∀ name ∈ r.table.columnNames, isIdentifier name)
    (hbind : ∀ x ∈ entities, ∀ name ∈ r.table.columnNames, (r.entity.bind x name).isSome) :
    (∃ statement, r.Inserts entities statement ∧
      ∀ (σ : Type) (driver : Driver σ),
        r.create driver entities = discard (driver.execute statement)) ↔
    ∀ name ∈ r.table.columnNames, isName name := by
  have hbound : r.Binds entities fun x name => (r.entity.bind x name).getD .null := by
    intro x hx name hname
    obtain ⟨v, hv⟩ := Option.isSome_iff_exists.mp (hbind x hx name hname)
    simp [hv]
  have hspace : ∀ name ∈ r.table.columnNames, ' ' ∉ name.toList := fun name hname hmem =>
    absurd (isIdentifierChar_of_mem (hnames name hname) hmem) (by decide)
  constructor
  · rintro ⟨statement, hinserts, hsends⟩ name hname
    have hexpand := (create_sends_iff hne hbound).mp hsends
    have hplains := countP_plains_of_expand (by simpa using hne) hspace rfl hexpand
      (by simpa using hinserts.sql) (by simpa using hinserts.length_params)
    refine isName_iff.mpr ⟨toList_ne_nil_of_isIdentifier (hnames name hname), fun c hc => ?_⟩
    by_contra hend
    have hends : endsName c := by
      simpa [endsName, isIdentifierChar_of_mem (hnames name hname) hc] using hend
    exact List.countP_eq_zero.mp hplains c (endsName_mem_plains hname hc hends) hends
  · intro hplain
    exact ⟨_, hbound.inserts,
      (create_sends_iff hne hbound).mpr (expand_of_scan hne hspace (scan_tuple hplain))⟩

/-- Two entities, with one column's name the beginning of another's. -/
theorem create_inserts_iff_prices :
    let entity := Entity.ofColumns ⟨0, "Price"⟩ []
    let table : Table := ⟨"app", "price", [⟨"id", "id", .primaryKey⟩, ⟨"id_2", "other", .plain⟩]⟩
    let r : Repository Bindings := ⟨entity, ⟨0, table⟩⟩
    let entities : List Bindings :=
      [⟨[("id_2", .text "b"), ("id", .int8 1)]⟩, ⟨[("id", .int8 2), ("id_2", .null)]⟩]
    (entities ≠ [] ∧ (∀ name ∈ table.columnNames, isIdentifier name) ∧
      ∀ x ∈ entities, ∀ name ∈ table.columnNames, (r.entity.bind x name).isSome) ∧
    table.insertText 2 = "INSERT INTO app.price (id, id_2) VALUES ($1, $2), ($3, $4)" ∧
    ∃ statement, r.Inserts entities statement ∧
      ∀ (σ : Type) (driver : Driver σ),
        r.create driver entities = discard (driver.execute statement) := by
  intro entity table r entities
  have hne : entities ≠ [] := by simp [entities]
  have hnames : ∀ name ∈ table.columnNames, isIdentifier name := by decide +kernel
  have hbind : ∀ x ∈ entities, ∀ name ∈ table.columnNames, (r.entity.bind x name).isSome := by
    decide +kernel
  refine ⟨⟨hne, hnames, hbind⟩, by decide +kernel, ?_⟩
  exact (create_inserts_iff r entities hne hnames hbind).mpr (by decide +kernel)

/-- A column that compiles and is bound, whose parameter is looked up under half its name. -/
theorem create_misses_dollar :
    let price : EntityType := ⟨0, "Price"⟩
    let declared : Declarations :=
      ⟨[(price, [(Field.stored "id" "id").primaryKey, Field.stored "amount" "price$"])]⟩
    let table : Table :=
      ⟨"app", "price", [⟨"id", "id", .primaryKey⟩, ⟨"price$", "amount", .plain⟩]⟩
    let r : Repository Bindings := ⟨Entity.ofColumns price [], ⟨0, table⟩⟩
    let entities : List Bindings := [⟨[("id", .int8 1), ("price$", .int4 5)]⟩]
    ((Catalog.empty.resolve declared ⟨price, "app", "price"⟩).outcome = .ok ⟨0, table⟩ ∧
      entities ≠ [] ∧ (∀ name ∈ table.columnNames, isIdentifier name) ∧
      ∀ x ∈ entities, ∀ name ∈ table.columnNames, (r.entity.bind x name).isSome) ∧
    r.create Recorder.driver entities {} = .error (.missingParameter "price") {} ∧
    ¬ ∃ statement, r.Inserts entities statement ∧
      ∀ (σ : Type) (driver : Driver σ),
        r.create driver entities = discard (driver.execute statement) := by
  intro price declared table r entities
  have hne : entities ≠ [] := by simp [entities]
  have hscan : scan ((tuple r.table.columnNames).flatMap Piece.text) =
      [.plain '(', .parameter "id", .plain ',', .plain ' ', .parameter "price", .plain '$',
        .plain ')'] := by
    decide +kernel
  have hexpand : expand r.table.insertTemplate entities = .error (.missingParameter "price") := by
    rw [expand_insertTemplate hne (by decide +kernel) hscan]
    rfl
  have hcreate : r.create Recorder.driver entities {} = .error (.missingParameter "price") {} := by
    have hrows : entities.mapM (bindColumns r.entity r.table.columns) = .ok entities := rfl
    rw [create_eq Recorder.driver hne hrows, Driver.executeNamed_of_error _ hexpand]
    rfl
  refine ⟨⟨by decide +kernel, hne, by decide +kernel, by decide +kernel⟩, hcreate, ?_⟩
  rintro ⟨statement, -, hsends⟩
  have hsent := congrFun (hsends Recorder Recorder.driver) {}
  rw [hcreate] at hsent
  exact nomatch hsent

end Repository

end TableMapper
