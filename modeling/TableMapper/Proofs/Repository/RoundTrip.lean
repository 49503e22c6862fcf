import TableMapper.Proofs.Driver.Sends
import TableMapper.Proofs.Row.Columns
import TableMapper.Proofs.Table.Compile

/-!
# Reading what was created

The parameters of an insert statement are the values of the entities, row by row and in the order of
the columns. A row that is put together from the values of one entity has under every column the
value that the entity is bound to, also where two columns share a name: such columns are bound to
the value of one name.

## Main definitions

* `chunks` — the parts of equal length that a list falls into.
-/

namespace TableMapper

/-! ## Chunks -/

section Chunks

variable {α β : Type} {xs : List α} {g : α → List β} {m : Nat}

/-- The first `n` parts of `m` elements each, one behind the other. -/
def chunks (m n : Nat) (xs : List α) : List (List α) :=
  (List.range n).map fun i => (xs.drop (i * m)).take m

theorem chunks_succ {ys : List α} (n : Nat) (h : xs.length = m) :
    chunks m (n + 1) (xs ++ ys) = xs :: chunks m n ys := by
  have hdrop : ∀ i, (xs ++ ys).drop ((i + 1) * m) = ys.drop (i * m) := by
    intro i
    rw [Nat.succ_mul, Nat.add_comm, ← h, ← List.drop_drop, List.drop_left]
  simp only [chunks, List.range_succ_eq_map, List.map_cons, List.map_map, Function.comp_def,
    Nat.succ_eq_add_one, hdrop, Nat.zero_mul, List.drop_zero, List.take_left' h]

/-- Lists of one length are found again in what they are put together to. -/
theorem chunks_flatMap (h : ∀ x ∈ xs, (g x).length = m) :
    chunks m xs.length (xs.flatMap g) = xs.map g := by
  induction xs with
  | nil => rfl
  | cons x xs ih =>
    obtain ⟨hx, hxs⟩ := List.forall_mem_cons.mp h
    rw [List.flatMap_cons, List.length_cons, chunks_succ _ hx, ih hxs, List.map_cons]

end Chunks

namespace Repository

open Template

variable {α τ : Type} {r : Repository α} {entities : List α} {bound : α → String → Value}

/-! ## Creating and reading -/

theorem exists_binds
    (h : ∀ x ∈ entities, ∀ name ∈ r.table.columnNames, (r.entity.bind x name).isSome) :
    ∃ bound, r.Binds entities bound := by
  refine ⟨fun x name => (r.entity.bind x name).getD .null, fun x hx name hname => ?_⟩
  obtain ⟨v, hv⟩ := Option.isSome_iff_exists.mp (h x hx name hname)
  simp [hv]

theorem Binds.sends (hbound : r.Binds entities bound) (hne : entities ≠ [])
    (hnames : ∀ name ∈ r.table.columnNames, isName name) :
    Driver.Sends (r.create · entities) ⟨r.table.insertText entities.length,
      entities.flatMap fun x => r.table.columnNames.map (bound x)⟩ := by
  have hspace : ∀ name ∈ r.table.columnNames, ' ' ∉ name.toList := fun name hname hmem =>
    absurd ((isName_iff.mp (hnames name hname)).2 ' ' hmem) (by decide)
  refine sends_create hne (mapM_eq_ok_map fun x hx => bindColumns_eq fun column hcolumn => ?_)
    (expand_of_scan hne hspace (scan_tuple hnames))
  exact hbound x hx column.name (List.mem_map_of_mem hcolumn)

/-- Reading hands over the rows of the answer. -/
theorem read_of_query {σ : Type} {driver : Driver σ} {filter : Filter} {limit : Nat}
    {answer : ResultSet} {s t : σ} (h : driver.query (r.table.read filter limit) s = .ok answer t) :
    r.read driver filter limit s =
      (MonadExcept.ofExcept (answer.toRows.mapM r.entity.ofRow) : Action σ (List α)) t := by
  rw [read]
  change EStateM.bind _ _ s = _
  rw [EStateM.bind, h]

/-- Creating sends one statement with a value for every column of every entity. Whoever answers a
later read with these values, a row for each entity, makes it read rows that have under each column
the value the entity was bound to. -/
theorem read_returns_created {type : EntityType} {schema name : String} {fields : List Field}
    {resolve : EntityType → String → EStateM SchemaFault τ TableId} {u v : τ}
    (r : Repository α) (entities : List α) (hne : entities ≠ [])
    (hcompile : Table.compile type schema name fields resolve u = .ok r.table v)
    (hnames : ∀ name ∈ r.table.columnNames, ∀ c ∈ name.toList, isNameChar c)
    (hbind : ∀ x ∈ entities, ∀ name ∈ r.table.columnNames, (r.entity.bind x name).isSome) :
    let m := r.table.columnNames.length
    let n := entities.length
    ∃ statement, Driver.Sends (r.create · entities) statement ∧
      statement.params.length = n * m ∧
      ∃ rows : List Row,
        List.Forall₂ (fun x row => ∀ name ∈ r.table.columnNames,
          ∃ v, r.entity.bind x name = some v ∧ row.value name = .ok v) entities rows ∧
        ∀ {σ : Type} (driver : Driver σ) (filter : Filter) (limit : Nat) (s t : σ),
          driver.query (r.table.read filter limit) s =
            .ok ⟨r.table.columnNames, chunks m n statement.params⟩ t →
          r.read driver filter limit s =
            (MonadExcept.ofExcept (rows.mapM r.entity.ofRow) : Action σ (List α)) t := by
  intro m n
  obtain ⟨bound, hbound⟩ := exists_binds hbind
  have hname : ∀ name ∈ r.table.columnNames, isName name := fun name hname =>
    isName_iff.mpr ⟨by simpa using Table.ne_empty_of_compile hcompile hname, hnames name hname⟩
  refine ⟨_, hbound.sends hne hname, hbound.inserts.length_params,
    entities.map fun x => Row.ofColumns r.table.columnNames (r.table.columnNames.map (bound x)),
    ?_, fun driver filter limit s t hquery => ?_⟩
  · refine List.forall₂_map_right_iff.mpr (List.forall₂_same.mpr fun x hx name hname => ?_)
    exact ⟨bound x name, hbound x hx name hname, Row.value_ofColumns_map (bound x) hname⟩
  · rw [read_of_query hquery, chunks_flatMap (fun x _ => List.length_map ..), ResultSet.toRows,
      List.map_map]
    rfl

/-- Two columns share a name, which is also the beginning of the third one's. -/
theorem read_returns_created_prices :
    let price : EntityType := ⟨0, "Price"⟩
    let fields : List Field := [(Field.stored "id" "id").primaryKey, Field.stored "other" "id_2",
      Field.transient "note", Field.stored "again" "id"]
    let table : Table := ⟨"app", "price", [⟨"id", "id", .primaryKey⟩, ⟨"id_2", "other", .plain⟩,
      ⟨"id", "again", .plain⟩]⟩
    let r : Repository Bindings := ⟨Entity.ofColumns price [], ⟨0, table⟩⟩
    let entities : List Bindings :=
      [⟨[("id_2", .text "b"), ("id", .int8 1)]⟩, ⟨[("id", .int8 2), ("id_2", .null)]⟩]
    let resolve : EntityType → String → EStateM SchemaFault Unit TableId :=
      fun target _ => throw (.notCompiled target.name)
    (entities ≠ [] ∧ Table.compile price "app" "price" fields resolve () = .ok table () ∧
      (∀ name ∈ table.columnNames, ∀ c ∈ name.toList, isNameChar c) ∧
      ∀ x ∈ entities, ∀ name ∈ table.columnNames, (r.entity.bind x name).isSome) ∧
    ∃ statement, Driver.Sends (r.create · entities) statement ∧ statement.params.length = 6 ∧
      ∃ row row' : Row,
        row.value "id" = .ok (.int8 1) ∧ row.value "id_2" = .ok (.text "b") ∧
        row'.value "id" = .ok (.int8 2) ∧ row'.value "id_2" = .ok .null ∧
        ∀ {σ : Type} (driver : Driver σ) (s t : σ),
          driver.query (table.read .all 5) s =
            .ok ⟨["id", "id_2", "id"], chunks 3 2 statement.params⟩ t →
          r.read driver .all 5 s =
            (MonadExcept.ofExcept ([row, row'].mapM r.entity.ofRow) :
              Action σ (List Bindings)) t := by
  intro price fields table r entities resolve
  have hne : entities ≠ [] := by simp [entities]
  have hcompile : Table.compile price "app" "price" fields resolve () = .ok table () := rfl
  have hplain : ∀ name ∈ table.columnNames, isName name := by decide +kernel
  have hnames : ∀ name ∈ table.columnNames, ∀ c ∈ name.toList, isNameChar c := fun name hname =>
    (isName_iff.mp (hplain name hname)).2
  have hbind : ∀ x ∈ entities, ∀ name ∈ table.columnNames, (r.entity.bind x name).isSome := by
    decide +kernel
  refine ⟨⟨hne, hcompile, hnames, hbind⟩, ?_⟩
  obtain ⟨statement, hsends, hlength, rows, hrows, hread⟩ :=
    read_returns_created r entities hne hcompile hnames hbind
  obtain ⟨row, _, hrow, htail, rfl⟩ := List.forall₂_cons_left_iff.mp hrows
  obtain ⟨row', _, hrow', hnil, rfl⟩ := List.forall₂_cons_left_iff.mp htail
  obtain rfl := List.forall₂_nil_left_iff.mp hnil
  have hvalue {x : Bindings} {row : Row} {v : Value} {name : String}
      (hrow : ∃ v, r.entity.bind x name = some v ∧ row.value name = .ok v)
      (hbound : r.entity.bind x name = some v) : row.value name = .ok v := by
    obtain ⟨_, hv, hvalue⟩ := hrow
    rwa [← Option.some.inj (hv.symm.trans hbound)]
  have hid : "id" ∈ table.columnNames := by decide +kernel
  have hother : "id_2" ∈ table.columnNames := by decide +kernel
  exact ⟨statement, hsends, hlength, row, row', hvalue (hrow _ hid) rfl,
    hvalue (hrow _ hother) rfl, hvalue (hrow' _ hid) rfl, hvalue (hrow' _ hother) rfl,
    fun driver s t => hread driver .all 5 s t⟩

end Repository

end TableMapper
