import TableMapper.Driver.Recorder
import TableMapper.Proofs.Catalog.Run
import TableMapper.Repository

/-!
# Failing calls

A call that fails leaves the slots of a catalog as they were, however many tables it had compiled
on the way. So does a repository that cannot be connected, and when the connection itself is at
fault the catalog is not even looked at.
-/

namespace TableMapper

namespace Catalog

variable {c : Catalog}

theorem Sound.slots_of_error (h : c.Sound) {declared : Declarations} {key : Key}
    {fault : SchemaFault} (hfail : (c.resolve declared key).outcome = .error fault) :
    (c.resolve declared key).catalog.slots = c.slots := by
  have hresolves := h.resolves declared key
  generalize c.resolve declared key = r at hresolves hfail ⊢
  cases hresolves with
  | cached => cases hfail
  | compiled => cases hfail
  | failed _ _ hslots => exact hslots

end Catalog

namespace Repository

variable {σ α : Type} {driver : Driver σ} {declared : Declarations} {entity : Entity α}
  {schema table : String} {c : Catalog} {s t : σ} {e : Error}

/-! ## Connecting -/

theorem connect_of_ping_error (hping : driver.ping s = .error e t) :
    connect driver c declared entity schema table s =
      (⟨.error (invalidConnection entity.type e), c, []⟩, t) := by
  simp only [connect, hping]

theorem connect_of_ping_ok (hping : driver.ping s = .ok () t) :
    connect driver c declared entity schema table s =
      (⟨match (c.resolve declared ⟨entity.type, schema, table⟩).outcome with
        | .error fault => .error fault.toError
        | .ok compiled => .ok ⟨entity, compiled⟩,
        (c.resolve declared ⟨entity.type, schema, table⟩).catalog,
        (c.resolve declared ⟨entity.type, schema, table⟩).reflected⟩, t) := by
  simp only [connect, hping]
  cases (c.resolve declared ⟨entity.type, schema, table⟩).outcome <;> rfl

/-- Connecting a repository is at most one call. -/
theorem catalog_connect (driver : Driver σ) (calls : List Call) (declared : Declarations)
    (entity : Entity α) (schema table : String) (s : σ) :
    ∃ later, (connect driver (Catalog.empty.after calls) declared entity schema table s).1.catalog =
      Catalog.empty.after (calls ++ later) := by
  cases hping : driver.ping s with
  | error e t =>
    refine ⟨[], ?_⟩
    rw [connect_of_ping_error hping, List.append_nil]
  | ok _ t =>
    refine ⟨[⟨declared, ⟨entity.type, schema, table⟩⟩], ?_⟩
    rw [connect_of_ping_ok hping, Catalog.after_concat]

theorem slots_of_connect_error (h : c.Sound)
    (hfail : (connect driver c declared entity schema table s).1.outcome = .error e) :
    (connect driver c declared entity schema table s).1.catalog.slots = c.slots := by
  cases hping : driver.ping s with
  | error e t => rw [connect_of_ping_error hping]
  | ok _ t =>
    rw [connect_of_ping_ok hping] at hfail ⊢
    cases houtcome : (c.resolve declared ⟨entity.type, schema, table⟩).outcome with
    | error fault => exact h.slots_of_error houtcome
    | ok compiled => simp [houtcome] at hfail

end Repository

namespace Catalog

/-- After any calls, a call or a connection that fails leaves every slot as it was. A connection
that cannot serve statements looks up no fields. -/
theorem failure_keeps_slots (calls : List Call) :
    (∀ declared key fault, ((empty.after calls).resolve declared key).outcome = .error fault →
      ((empty.after calls).resolve declared key).catalog.slots = (empty.after calls).slots) ∧
    ∀ (σ α : Type) (driver : Driver σ) (declared : Declarations) (entity : Entity α)
      (schema table : String) (s : σ),
      (∀ e t, driver.ping s = .error e t →
        Repository.connect driver (empty.after calls) declared entity schema table s =
          (⟨.error (.connectionFailed ("invalid connection supplied to Repository[" ++
            entity.type.name ++ "]: " ++ e.message)), empty.after calls, []⟩, t)) ∧
      ∀ e, (Repository.connect driver (empty.after calls) declared entity schema table
          s).1.outcome = .error e →
        (Repository.connect driver (empty.after calls) declared entity schema table
          s).1.catalog.slots = (empty.after calls).slots := by
  have hsound := sound_empty.after calls
  refine ⟨fun declared key fault hfail => hsound.slots_of_error hfail, ?_⟩
  intro σ α driver declared entity schema table s
  refine ⟨fun e t hping => ?_, fun e hfail => Repository.slots_of_connect_error hsound hfail⟩
  exact Repository.connect_of_ping_error hping

/-- A table whose second foreign key leads to a table with two primary keys. By then the table
behind the first one is compiled, and refers back. -/
theorem failure_keeps_slots_orders :
    let order : EntityType := ⟨0, "Order"⟩
    let item : EntityType := ⟨1, "Item"⟩
    let stock : EntityType := ⟨2, "Stock"⟩
    let key := (Field.stored "id" "id").primaryKey
    let link (table : String) (target : EntityType) :=
      ((Field.stored table table).foreignKey table "id").optionalEntity target
    let declared : Declarations := ⟨[(order, [key, link "item" item, link "stock" stock]),
      (item, [key, link "order" order]), (stock, [key, key])]⟩
    let calls : List Call := [⟨⟨[]⟩, ⟨stock, "app", "old"⟩⟩]
    let c := empty.after calls
    let fault : SchemaFault := .twoPrimaryKeys "Stock" "id" "id"
    let entity := Entity.ofColumns order []
    let reason := "in-memory driver is unhealthy"
    ((c.resolve declared ⟨order, "app", "order"⟩).outcome = .error fault ∧
      (c.resolve declared ⟨order, "app", "order"⟩).catalog.slots = c.slots) ∧
    (Recorder.driver.ping { healthy := false } =
        .error (.connectionFailed reason) { healthy := false } ∧
      Repository.connect Recorder.driver c declared entity "app" "order" { healthy := false } =
        (⟨.error (.connectionFailed ("invalid connection supplied to Repository[" ++
          entity.type.name ++ "]: " ++ (Error.connectionFailed reason).message)), c, []⟩,
          { healthy := false })) ∧
    (Repository.connect Recorder.driver c declared entity "app" "order" {}).1.outcome =
        .error fault.toError ∧
      (Repository.connect Recorder.driver c declared entity "app" "order" {}).1.catalog.slots =
        c.slots := by
  intro order item stock key link declared calls c fault entity reason
  obtain ⟨hresolve, hconnect⟩ := failure_keeps_slots calls
  have hfail : (c.resolve declared ⟨order, "app", "order"⟩).outcome = .error fault := by
    decide +kernel
  have hping : Recorder.driver.ping { healthy := false } =
      .error (.connectionFailed reason) { healthy := false } := rfl
  have hconnectFail : (Repository.connect Recorder.driver c declared entity "app" "order"
      {}).1.outcome = .error fault.toError := by
    rw [Repository.connect_of_ping_ok (t := {}) rfl]
    simp only [entity, Entity.ofColumns, hfail]
  refine ⟨⟨hfail, hresolve _ _ _ hfail⟩, ⟨hping, ?_⟩, hconnectFail, ?_⟩
  · exact (hconnect _ _ _ _ _ _ _ _).1 _ _ hping
  · exact (hconnect _ _ _ _ _ _ _ _).2 _ hconnectFail

end Catalog

end TableMapper
