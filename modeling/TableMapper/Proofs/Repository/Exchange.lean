import TableMapper.Proofs.Driver.Sends

/-!
# Exchanges with a driver

An operation has at most one exchange with a driver. A request that is turned down has none, and it
fails in the same way whatever the driver. Every other request is one statement, and an error that
the driver answers it with is the error of the operation.

## Main definitions

* `Driver.Exchange` — a statement that was put to a driver, and the failure of its answer.
* `Driver.watched` — a driver that notes its exchanges.
* `Driver.SendsOnce`, `Driver.SendsNothing` — the exchanges of a call with any driver.
-/

namespace TableMapper

/-! ## Watching a driver -/

namespace Driver

structure Exchange where
  statement : Statement
  /-- The error that the driver answered with, if it did. -/
  failure : Option Error

variable {σ β γ : Type} {call : {σ : Type} → Driver σ → Action σ β} {statement : Statement}

/-- Note a statement and the failure of the step that answers it. -/
def note (statement : Statement) (step : Action σ γ) : Action (σ × List Exchange) γ :=
  fun (s, exchanges) =>
    match step s with
    | .ok a t => .ok a (t, exchanges ++ [⟨statement, none⟩])
    | .error e t => .error e (t, exchanges ++ [⟨statement, some e⟩])

/-- The driver, with a record of the exchanges besides its state. -/
def watched (driver : Driver σ) : Driver (σ × List Exchange) where
  ping := fun (s, exchanges) =>
    match driver.ping s with
    | .ok a t => .ok a (t, exchanges)
    | .error e t => .error e (t, exchanges)
  query statement := note statement (driver.query statement)
  execute statement := note statement (driver.execute statement)

/-- The exchanges of a call with a driver that begins in the state `s`. -/
def exchanges (call : {σ : Type} → Driver σ → Action σ β) (driver : Driver σ) (s : σ) :
    List Exchange :=
  (Action.stateAfter (call driver.watched (s, []))).2

/-- With every driver the call has one exchange, about the statement. If the driver fails to answer,
the call fails with the error of the driver. -/
structure SendsOnce (call : {σ : Type} → Driver σ → Action σ β) (statement : Statement) : Prop where
  exchange : ∀ {σ : Type} (driver : Driver σ) (s : σ),
    ∃ failure, exchanges call driver s = [⟨statement, failure⟩] ∧
      ∀ e, failure = some e → ∃ t, call driver s = .error e t

/-- The call ends in the same way with every driver, and none is asked or changed. -/
structure SendsNothing (call : {σ : Type} → Driver σ → Action σ β) (outcome : Except Error β) :
    Prop where
  exchanges_eq_nil : ∀ {σ : Type} (driver : Driver σ) (s : σ), exchanges call driver s = []
  call_eq : ∀ {σ : Type} (driver : Driver σ), call driver = MonadExcept.ofExcept outcome

theorem exchange_of_note (statement : Statement) (step : Action σ γ) (f : γ → Except Error β)
    (s : σ) :
    ∃ failure,
      (Action.stateAfter ((note statement step >>= fun a => MonadExcept.ofExcept (f a))
        (s, []))).2 = [⟨statement, failure⟩] ∧
      ∀ e, failure = some e →
        ∃ t, (step >>= fun a => MonadExcept.ofExcept (f a)) s = .error e t := by
  rw [stateAfter_bind_ofExcept]
  cases hstep : step s with
  | ok a t => exact ⟨none, by simp [note, hstep, Action.stateAfter], by simp⟩
  | error e t =>
    refine ⟨some e, by simp [note, hstep, Action.stateAfter], fun e' he => ⟨t, ?_⟩⟩
    obtain rfl := Option.some.inj he
    exact bind_eq_error_iff.mpr (.inl hstep)

theorem Sends.sendsOnce (h : Sends call statement) : SendsOnce call statement := by
  refine ⟨fun {σ} driver s => ?_⟩
  cases h with
  | query result hcall =>
    simp only [exchanges, hcall]
    exact exchange_of_note statement (driver.query statement) result s
  | execute result hcall =>
    simp only [exchanges, hcall]
    exact exchange_of_note statement (driver.execute statement) result s

theorem sendsNothing_of_eq {outcome : Except Error β}
    (h : ∀ {σ : Type} (driver : Driver σ), call driver = MonadExcept.ofExcept outcome) :
    SendsNothing call outcome where
  exchanges_eq_nil driver s := by
    simp only [exchanges, h]
    cases outcome <;> rfl
  call_eq := h

/-- The call has one exchange at most, whatever the driver. -/
structure SendsAtMostOnce (call : {σ : Type} → Driver σ → Action σ β) : Prop where
  length_le : ∀ {σ : Type} (driver : Driver σ) (s : σ), (exchanges call driver s).length ≤ 1

theorem SendsOnce.atMostOnce (h : SendsOnce call statement) : SendsAtMostOnce call where
  length_le driver s := by
    obtain ⟨failure, hexchanges, -⟩ := h.exchange driver s
    simp [hexchanges]

theorem SendsNothing.atMostOnce {outcome : Except Error β} (h : SendsNothing call outcome) :
    SendsAtMostOnce call where
  length_le driver s := by simp [h.exchanges_eq_nil driver s]

end Driver

/-! ## Operations of a repository -/

namespace Repository

open Driver

variable {α : Type} {r : Repository α} {entities : List α} {rows : List Bindings} {e : Error}

/-- The pair that a row gets for a column. -/
def bindColumn (entity : Entity α) (x : α) (column : Column) : Except Error (String × Value) :=
  match entity.bind x column.name with
  | some v => .ok (column.name, v)
  | none => .error (.missingParameter (entity.type.name ++ "." ++ column.name))

theorem bindColumn_eq_ok_iff {entity : Entity α} {x : α} {column : Column}
    {pair : String × Value} :
    bindColumn entity x column = .ok pair ↔
      pair.1 = column.name ∧ entity.bind x column.name = some pair.2 := by
  unfold bindColumn
  cases entity.bind x column.name <;> grind

theorem exists_bindColumn_eq_ok_iff {entity : Entity α} {x : α} {column : Column} :
    (∃ pair, bindColumn entity x column = .ok pair) ↔ (entity.bind x column.name).isSome := by
  simp [bindColumn_eq_ok_iff, Option.isSome_iff_exists]

theorem bindColumn_eq_error {entity : Entity α} {x : α} {column : Column}
    (h : ¬ (entity.bind x column.name).isSome) :
    bindColumn entity x column =
      .error (.missingParameter (entity.type.name ++ "." ++ column.name)) := by
  rw [bindColumn, Option.not_isSome_iff_eq_none.mp h]

/-- The row has for each column the value that the entity is bound to. -/
def Fills (r : Repository α) (x : α) (row : Bindings) : Prop :=
  List.Forall₂ (fun column pair => pair.1 = column.name ∧
    r.entity.bind x column.name = some pair.2) r.table.columns row.pairs

/-- No column of the entities before this one, and no earlier column of this one, is unbound. -/
abbrev FirstUnbound (r : Repository α) (entities : List α) (i j : Nat) (x : α) (column : Column) :
    Prop :=
  FailsFirstInRows (fun x column => (r.entity.bind x column.name).isSome)
    (fun _ => r.table.columns) entities i j x column

theorem bindColumns_eq_mapM (entity : Entity α) (columns : List Column) (x : α) :
    bindColumns entity columns x = Bindings.mk <$> columns.mapM (bindColumn entity x) :=
  rfl

theorem bindColumns_eq_ok_iff {x : α} {row : Bindings} :
    bindColumns r.entity r.table.columns x = .ok row ↔ r.Fills x row := by
  rw [bindColumns_eq_mapM, map_eq_ok_iff, Fills]
  simp only [mapM_eq_ok_iff, bindColumn_eq_ok_iff]
  constructor
  · rintro ⟨pairs, hpairs, rfl⟩
    exact hpairs
  · exact fun hpairs => ⟨row.pairs, hpairs, rfl⟩

theorem exists_bindColumns_eq_ok_iff {x : α} :
    (∃ row, bindColumns r.entity r.table.columns x = .ok row) ↔
      ∀ column ∈ r.table.columns, (r.entity.bind x column.name).isSome := by
  simp only [← exists_bindColumn_eq_ok_iff, ← exists_mapM_eq_ok_iff, bindColumns_eq_mapM,
    map_eq_ok_iff]
  constructor
  · rintro ⟨_, pairs, hpairs, -⟩
    exact ⟨pairs, hpairs⟩
  · rintro ⟨pairs, hpairs⟩
    exact ⟨_, pairs, hpairs, rfl⟩

theorem bindColumns_eq_error_iff {x : α} :
    bindColumns r.entity r.table.columns x = .error e ↔
      ∃ j column, FailsFirst (fun column => (r.entity.bind x column.name).isSome)
        r.table.columns j column ∧
          e = .missingParameter (r.entity.type.name ++ "." ++ column.name) := by
  rw [bindColumns_eq_mapM, map_eq_error_iff]
  exact mapM_eq_error_iff_of_fault (fun _ => exists_bindColumn_eq_ok_iff)
    fun _ => bindColumn_eq_error

theorem mapM_bindColumns_eq_ok_iff :
    entities.mapM (bindColumns r.entity r.table.columns) = .ok rows ↔
      List.Forall₂ r.Fills entities rows := by
  simp only [mapM_eq_ok_iff, bindColumns_eq_ok_iff]

theorem mapM_bindColumns_eq_error_iff :
    entities.mapM (bindColumns r.entity r.table.columns) = .error e ↔
      ∃ i j x column, r.FirstUnbound entities i j x column ∧
        e = .missingParameter (r.entity.type.name ++ "." ++ column.name) :=
  mapM_rows_eq_error_iff (fun _ => exists_bindColumns_eq_ok_iff) fun _ _ => bindColumns_eq_error_iff

/-! ### Requests that are turned down -/

theorem sendsNothing_create_nil (r : Repository α) : SendsNothing (r.create · []) (.ok ()) :=
  sendsNothing_of_eq fun _ => rfl

theorem sendsNothing_create_of_unbound {i j : Nat} {x : α} {column : Column}
    (h : r.FirstUnbound entities i j x column) :
    SendsNothing (r.create · entities)
      (.error (.missingParameter (r.entity.type.name ++ "." ++ column.name))) := by
  have hne : entities ≠ [] := List.ne_nil_of_mem (List.mem_of_getElem? h.row)
  have hrows := mapM_bindColumns_eq_error_iff.mpr ⟨i, j, x, column, h, rfl⟩
  exact sendsNothing_of_eq fun driver => create_of_unbound hne hrows driver

theorem sendsNothing_create_of_expand (hne : entities ≠ [])
    (hrows : List.Forall₂ r.Fills entities rows)
    (h : Template.expand r.table.insertTemplate rows = .error e) :
    SendsNothing (r.create · entities) (.error e) :=
  sendsNothing_of_eq fun driver =>
    create_of_expand_error hne (mapM_bindColumns_eq_ok_iff.mpr hrows) h driver

theorem sendsNothing_update_nil (r : Repository α) (filter : Filter) :
    SendsNothing (r.update · [] filter) (.error (.invalidQuery
      ("update of " ++ r.table.qualifiedName ++ " needs at least one assignment"))) :=
  sendsNothing_of_eq fun driver => update_of_error rfl driver

/-! ### Requests that are sent -/

theorem exists_fills
    (h : ∀ x ∈ entities, ∀ column ∈ r.table.columns, (r.entity.bind x column.name).isSome) :
    ∃ rows, List.Forall₂ r.Fills entities rows := by
  simp only [← mapM_bindColumns_eq_ok_iff, exists_ok_iff_forall_ne_error]
  intro e he
  obtain ⟨i, j, x, column, hfirst, -⟩ := mapM_bindColumns_eq_error_iff.mp he
  exact hfirst.fails (h x (List.mem_of_getElem? hfirst.row) column
    (List.mem_of_getElem? hfirst.entry))

theorem exists_firstUnbound (h : ∃ x ∈ entities, ∃ column ∈ r.table.columns,
    r.entity.bind x column.name = none) :
    ∃ i j x column, r.FirstUnbound entities i j x column := by
  obtain ⟨x, hx, column, hcolumn, hnone⟩ := h
  exact exists_failsFirstInRows_iff.mpr ⟨x, hx, column, hcolumn, by simp [hnone]⟩

theorem exists_sendsOnce_update (r : Repository α) (filter : Filter)
    {values : List (String × Value)} (hne : values ≠ []) :
    ∃ statement, r.table.update values filter = .ok statement ∧
      SendsOnce (r.update · values filter) statement := by
  cases hupdate : r.table.update values filter with
  | error e => simp [Table.update, hne] at hupdate
  | ok statement => exact ⟨statement, rfl, (sends_update hupdate).sendsOnce⟩

theorem sendsAtMostOnce_create (r : Repository α) (entities : List α) :
    SendsAtMostOnce (r.create · entities) := by
  by_cases hne : entities = []
  · rw [hne]
    exact (sendsNothing_create_nil r).atMostOnce
  cases hrows : entities.mapM (bindColumns r.entity r.table.columns) with
  | error e =>
    have hsends : SendsNothing (r.create · entities) (.error e) :=
      sendsNothing_of_eq fun driver => create_of_unbound hne hrows driver
    exact hsends.atMostOnce
  | ok rows =>
    cases hexpand : Template.expand r.table.insertTemplate rows with
    | error e =>
      have hfills := mapM_bindColumns_eq_ok_iff.mp hrows
      exact (sendsNothing_create_of_expand hne hfills hexpand).atMostOnce
    | ok statement => exact (sends_create hne hrows hexpand).sendsOnce.atMostOnce

theorem sendsAtMostOnce_update (r : Repository α) (values : List (String × Value))
    (filter : Filter) : SendsAtMostOnce (r.update · values filter) := by
  by_cases hne : values = []
  · rw [hne]
    exact (sendsNothing_update_nil r filter).atMostOnce
  · obtain ⟨statement, -, hsends⟩ := exists_sendsOnce_update r filter hne
    exact hsends.atMostOnce

/-- No operation puts more than one statement to a driver. Creating nothing succeeds without a
driver. Creating an entity of which a column is not bound, updating without assignments, and a
template that is not expanded fail without one. Everything else is sent as one statement. -/
theorem sends_at_most_once (r : Repository α) :
    (SendsNothing (r.create · []) (.ok ()) ∧
      (∀ entities, (∃ x ∈ entities, ∃ column ∈ r.table.columns,
          r.entity.bind x column.name = none) →
        ∃ i j x column, r.FirstUnbound entities i j x column ∧ SendsNothing (r.create · entities)
          (.error (.missingParameter (r.entity.type.name ++ "." ++ column.name)))) ∧
      ∀ entities, entities ≠ [] →
        (∀ x ∈ entities, ∀ column ∈ r.table.columns, (r.entity.bind x column.name).isSome) →
        ∃ rows, List.Forall₂ r.Fills entities rows ∧
          (∀ statement, Template.expand r.table.insertTemplate rows = .ok statement →
            SendsOnce (r.create · entities) statement) ∧
          ∀ e, Template.expand r.table.insertTemplate rows = .error e →
            SendsNothing (r.create · entities) (.error e)) ∧
    (∀ filter, SendsNothing (r.update · [] filter) (.error (.invalidQuery
        ("update of " ++ r.table.qualifiedName ++ " needs at least one assignment"))) ∧
      ∀ values, values ≠ [] → ∃ statement, r.table.update values filter = .ok statement ∧
        SendsOnce (r.update · values filter) statement) ∧
    (∀ filter limit, SendsOnce (r.read · filter limit) (r.table.read filter limit)) ∧
    (∀ filter, SendsOnce (r.delete · filter) (r.table.delete filter)) ∧
    ∀ entities values filter limit,
      SendsAtMostOnce (r.create · entities) ∧ SendsAtMostOnce (r.update · values filter) ∧
      SendsAtMostOnce (r.read · filter limit) ∧ SendsAtMostOnce (r.delete · filter) := by
  have hread (filter : Filter) (limit : Nat) := (sends_read r filter limit).sendsOnce
  have hdelete (filter : Filter) := (sends_delete r filter).sendsOnce
  refine ⟨⟨sendsNothing_create_nil r, fun entities hunbound => ?_, fun entities hne hbound => ?_⟩,
    fun filter => ⟨sendsNothing_update_nil r filter, fun _ => exists_sendsOnce_update r filter⟩,
    hread, hdelete, fun entities values filter limit => ⟨sendsAtMostOnce_create r entities,
      sendsAtMostOnce_update r values filter, (hread filter limit).atMostOnce,
      (hdelete filter).atMostOnce⟩⟩
  · obtain ⟨i, j, x, column, hfirst⟩ := exists_firstUnbound hunbound
    exact ⟨i, j, x, column, hfirst, sendsNothing_create_of_unbound hfirst⟩
  · obtain ⟨rows, hrows⟩ := exists_fills hbound
    have hbind := mapM_bindColumns_eq_ok_iff.mpr hrows
    exact ⟨rows, hrows, fun statement hexpand => (sends_create hne hbind hexpand).sendsOnce,
      fun e hexpand => sendsNothing_create_of_expand hne hrows hexpand⟩

/-- The second of three entities has no note, and the third one has nothing. The first one alone is
sent. A driver refuses to delete. -/
theorem sends_at_most_once_prices :
    let table : Table := ⟨"app", "price", [⟨"id", "id", .primaryKey⟩, ⟨"note", "note", .plain⟩]⟩
    let r : Repository Bindings := ⟨Entity.ofColumns ⟨0, "Price"⟩ [], ⟨0, table⟩⟩
    let first : Bindings := ⟨[("note", .null), ("id", .int8 1)]⟩
    let entities : List Bindings := [first, ⟨[("id", .int8 2)]⟩, ⟨[]⟩]
    let refusing : Recorder := { answers := [.error (.queryFailed "42501: permission denied")] }
    SendsNothing (r.create · entities) (.error (.missingParameter "Price.note")) ∧
    (∃ statement, SendsOnce (r.create · [first]) statement ∧
      statement.params = [.int8 1, .null]) ∧
    (∃ statement, SendsOnce (r.update · [("note", .null)] .all) statement) ∧
    ∃ t, r.delete Recorder.driver .all refusing =
      .error (.queryFailed "42501: permission denied") t := by
  intro table r first entities refusing
  obtain ⟨⟨-, hunbound, hbound⟩, hupdate, -, hdelete, -⟩ := sends_at_most_once r
  refine ⟨?_, ?_, ?_, ?_⟩
  · obtain ⟨i, j, x, column, -, hsends⟩ := hunbound entities
      ⟨⟨[]⟩, by simp [entities], ⟨"id", "id", .primaryKey⟩,
        by simp [r, table, Repository.table], rfl⟩
    have hcreate : r.create Recorder.driver entities {} =
      .error (.missingParameter "Price.note") {} := rfl
    rw [hsends.call_eq] at hcreate
    injection hcreate with he
    rwa [he] at hsends
  · obtain ⟨rows, hfills, hsends, -⟩ := hbound [first] (List.cons_ne_nil _ _) (by decide +kernel)
    let bound : Bindings → String → Value := fun x name => (x.get? name).getD .null
    have hspace : ∀ name ∈ r.table.columnNames, ' ' ∉ name.toList := by decide +kernel
    have hplain : ∀ name ∈ r.table.columnNames, Template.isName name := by decide +kernel
    have hexpand : Template.expand r.table.insertTemplate
        ([first].map fun x => rowOf r.table.columns (bound x)) =
          .ok ⟨r.table.insertText 1, [first].flatMap fun x => r.table.columnNames.map (bound x)⟩ :=
      expand_of_scan (r := r) (List.cons_ne_nil _ _) hspace (Template.scan_tuple hplain)
    have hrows : .ok rows = Except.ok ([first].map fun x => rowOf r.table.columns (bound x)) :=
      (mapM_bindColumns_eq_ok_iff.mpr hfills).symm
    rw [← Except.ok.inj hrows] at hexpand
    exact ⟨_, hsends _ hexpand, rfl⟩
  · obtain ⟨statement, -, hsends⟩ := (hupdate .all).2 [("note", .null)] (List.cons_ne_nil _ _)
    exact ⟨statement, hsends⟩
  · obtain ⟨failure, hexchanges, hfails⟩ := (hdelete .all).exchange Recorder.driver refusing
    obtain ⟨-, hfailure⟩ := Exchange.mk.inj (List.cons.inj hexchanges).1
    exact hfails _ hfailure.symm

end Repository

end TableMapper
