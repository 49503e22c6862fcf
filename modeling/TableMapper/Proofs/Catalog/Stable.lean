import TableMapper.Proofs.Catalog.Rollback

/-!
# Tables are found again

Once a call has returned a table, or has compiled it behind a foreign key, the table stays the one
for its key: it is returned by all later calls without another look at the declarations, and it
stands behind every foreign key to that key. No other key leads to it.

## Main definitions

* `Catalog.Provides` — the tables that a successful call leaves behind.
* `Catalog.Provided` — one of several calls has left a table behind.
* `Catalog.References` — a column was compiled from a foreign key to a key.
-/

namespace TableMapper

namespace Catalog

variable {c : Catalog} {declared : Declarations} {key : Key} {compiled : Compiled} {slot : Slot}
  {column : Column} {call : Call} {calls : List Call}

/-! ## Tables that calls leave behind -/

/-- The call succeeds, and `compiled` is the table it returns or one that it has compiled on the
way, behind a foreign key. -/
inductive Provides (c : Catalog) (call : Call) : Key → Compiled → Prop
  | returned {compiled : Compiled} :
      (c.resolve call.declared call.key).outcome = .ok compiled → Provides c call call.key compiled
  | target {root compiled : Compiled} {slot : Slot} :
      (c.resolve call.declared call.key).outcome = .ok root →
      slot ∈ (c.resolve call.declared call.key).catalog.slots → slot ∉ c.slots →
      slot.compiled? = some compiled → Provides c call slot.key compiled

/-- One of the calls has left the table behind. -/
def Provided (calls : List Call) (key : Key) (compiled : Compiled) : Prop :=
  ∃ before call rest, calls = before ++ call :: rest ∧
    (empty.after before).Provides call key compiled

theorem Provided.append (h : Provided calls key compiled) (later : List Call) :
    Provided (calls ++ later) key compiled := by
  obtain ⟨before, call, rest, rfl, hprovides⟩ := h
  exact ⟨before, call, rest ++ later, by simp, hprovides⟩

/-- The table is in the slot for its key. -/
def Holds (c : Catalog) (key : Key) (compiled : Compiled) : Prop :=
  ∃ slot ∈ c.slots, slot.key = key ∧ slot.compiled? = some compiled

theorem holds_of_get? (h : c.get? key = some compiled) : c.Holds key compiled := by
  obtain ⟨slot, hslot, hcompiled⟩ := Option.bind_eq_some_iff.mp h
  exact ⟨slot, mem_of_slot? hslot, key_of_slot? hslot, hcompiled⟩

theorem Sound.holds_of_ok (h : c.Sound) (hok : (c.resolve declared key).outcome = .ok compiled) :
    (c.resolve declared key).catalog.Holds key compiled :=
  holds_of_get? (h.get?_of_ok hok)

theorem Sound.holds_of_provides (h : c.Sound) (hprovides : c.Provides call key compiled) :
    (c.resolve call.declared call.key).catalog.Holds key compiled := by
  cases hprovides with
  | returned hok => exact h.holds_of_ok hok
  | target _ hslot _ hcompiled => exact ⟨_, hslot, rfl, hcompiled⟩

/-- Later calls take no table out of its slot. -/
theorem Sound.holds_after (h : c.Sound) (hholds : c.Holds key compiled) (later : List Call) :
    (c.after later).Holds key compiled := by
  obtain ⟨slot, hslot, hkey, hcompiled⟩ := hholds
  obtain ⟨added, hslots⟩ := h.slots_after later
  refine ⟨slot, ?_, hkey, hcompiled⟩
  rw [hslots]
  exact List.mem_append_left _ hslot

/-- What a call has left behind is there after all calls. -/
theorem Provided.holds (h : Provided calls key compiled) :
    (empty.after calls).Holds key compiled := by
  obtain ⟨before, call, rest, rfl, hprovides⟩ := h
  have hsound := sound_empty.after before
  rw [after_append]
  exact (hsound.resolve _ _).holds_after (hsound.holds_of_provides hprovides) rest

/-! ## Looking a table up -/

theorem Sound.resolve_of_holds (h : c.Sound) (hholds : c.Holds key compiled)
    (declared : Declarations) : c.resolve declared key = ⟨.ok compiled, c, []⟩ := by
  obtain ⟨slot, hslot, rfl, hcompiled⟩ := hholds
  obtain ⟨compiled', hcompiled', -, hresolve⟩ := h.resolve_of_mem hslot
  obtain rfl : compiled = compiled' := Option.some.inj (hcompiled.symm.trans hcompiled')
  exact hresolve declared

theorem id_of_compiled? (h : slot.compiled? = some compiled) : compiled.id = slot.id := by
  obtain ⟨table, -, rfl⟩ := Option.map_eq_some_iff.mp h
  rfl

/-- Tables are one object when their keys are equal, and only then. -/
theorem Sound.id_eq_iff (h : c.Sound) {key' : Key} {compiled' : Compiled}
    (hholds : c.Holds key compiled) (hholds' : c.Holds key' compiled') :
    compiled'.id = compiled.id ↔ key' = key := by
  obtain ⟨slot, hslot, rfl, hcompiled⟩ := hholds
  obtain ⟨slot', hslot', rfl, hcompiled'⟩ := hholds'
  rw [id_of_compiled? hcompiled, id_of_compiled? hcompiled']
  constructor
  · intro hid
    rw [List.inj_on_of_nodup_map h.ids hslot' hslot hid]
  · intro hkey
    rw [List.inj_on_of_nodup_map h.keys hslot' hslot hkey]

/-! ## Foreign keys to a key -/

/-- A stored field of a compiled table is declared as a foreign key to the key, and `column` is
the column compiled from it. -/
inductive References (calls : List Call) : Column → Key → Prop
  | intro {declared : Declarations} {slot : Slot} {table : Table} {i : Nat} {f : Field}
      {column : Column} {name foreign : String} {target : EntityType} :
      CompiledUnder calls declared slot → slot.table = some table →
      ((declared.fields slot.key.entity).filter Field.isStored)[i]? = some f →
      table.columns[i]? = some column → f.relation = .foreignKey name foreign →
      f.kind = .entity true target → References calls column ⟨target, slot.key.schema, name⟩

/-- The slot that a call has compiled holds what was declared at that call. -/
theorem CompiledUnder.describes (h : CompiledUnder calls declared slot) :
    ∃ table, slot.table = some table ∧ Describes declared (empty.after calls) slot.key table := by
  obtain ⟨before, key, rest, rfl, hnew, hslot⟩ := h
  have hsound := sound_empty.after before
  obtain ⟨added, hslots, -, hfilled⟩ := hsound.slots_resolve declared key
  obtain ⟨later, hlater⟩ := (hsound.resolve declared key).slots_after rest
  have hadded : slot ∈ added := by
    rw [hslots, List.mem_append] at hslot
    refine hslot.resolve_left fun hold => ?_
    exact slot?_eq_none_iff.mp hnew (List.mem_map_of_mem hold)
  obtain ⟨table, htable, hdescribes⟩ := hfilled slot hadded
  refine ⟨table, htable, ?_⟩
  rw [after_append]
  exact hdescribes.mono fun _ _ => idOf?_of_append hlater

theorem References.foreignTable? (h : References calls column key)
    (hholds : (empty.after calls).Holds key compiled) :
    column.foreignTable? (some (empty.after calls)) = some compiled := by
  have hsound := sound_empty.after calls
  obtain ⟨hunder, htable, hf, hcolumn, hrelation, hkind⟩ := h
  obtain ⟨table, htable', hdescribes⟩ := hunder.describes
  obtain rfl := Option.some.inj (htable.symm.trans htable')
  obtain ⟨hlt, rfl⟩ := List.getElem?_eq_some_iff.mp hf
  obtain ⟨hlt', rfl⟩ := List.getElem?_eq_some_iff.mp hcolumn
  have hrefers := (hdescribes.columns.get hlt hlt').refers hsound
  obtain ⟨target, slot, compiled', hkind', -, -, -, -, hforeign, hresolve⟩ :=
    hrefers.target _ _ hrelation
  obtain rfl : _ = target := by
    have := hkind.symm.trans hkind'
    simpa using this
  -- The table behind the column is the one that a call for its key returns.
  have hsame := (hresolve ⟨[]⟩).symm.trans (hsound.resolve_of_holds hholds ⟨[]⟩)
  simp only [Resolution.mk.injEq, Except.ok.injEq, and_true] at hsame
  rw [← hsame]
  exact hforeign

/-! ## Any calls -/

/-- A table that one of the calls has left behind is the one that every later look-up of its key
finds, whatever is declared by then: by a call, which looks up no fields, by a foreign key, and by
a repository that is connected. Tables for different keys are different. Connecting a repository is
one more call, or none. -/
theorem lookups_find_one_table (h : Provided calls key compiled) (later : List Call) :
    let c := empty.after (calls ++ later)
    (∀ declared, c.resolve declared key = ⟨.ok compiled, c, []⟩) ∧
    (∀ column, References (calls ++ later) column key →
      column.foreignTable? (some c) = some compiled) ∧
    (∀ key' compiled', Provided (calls ++ later) key' compiled' →
      (compiled'.id = compiled.id ↔ key' = key)) ∧
    ∀ (σ α : Type) (driver : Driver σ) (declared : Declarations) (entity : Entity α)
      (schema table : String) (s : σ),
      (∃ more, (Repository.connect driver c declared entity schema table s).1.catalog =
        empty.after (calls ++ later ++ more)) ∧
      ∀ t, ⟨entity.type, schema, table⟩ = key → driver.ping s = .ok () t →
        Repository.connect driver c declared entity schema table s =
          (⟨.ok ⟨entity, compiled⟩, c, []⟩, t) := by
  intro c
  have hsound : c.Sound := sound_empty.after _
  have hholds : c.Holds key compiled := (h.append later).holds
  refine ⟨hsound.resolve_of_holds hholds, ?_, ?_, ?_⟩
  · intro column hreferences
    exact hreferences.foreignTable? hholds
  · intro key' compiled' h'
    exact hsound.id_eq_iff hholds h'.holds
  · intro σ α driver declared entity schema table s
    refine ⟨Repository.catalog_connect driver _ declared entity schema table s, ?_⟩
    intro t hkey hping
    rw [Repository.connect_of_ping_ok hping, hkey, hsound.resolve_of_holds hholds]

/-- Two tables that refer to each other, compiled by one call. A call under other declarations
fails afterwards. -/
theorem lookups_find_one_table_staff :
    let employee : EntityType := ⟨0, "Employee"⟩
    let department : EntityType := ⟨1, "Department"⟩
    let id := (Field.stored "id" "id").primaryKey
    let link (name column table : String) (target : EntityType) :=
      ((Field.stored name column).foreignKey table "id").optionalEntity target
    let post := link "post" "post_id" "department" department
    let head := link "head" "head_id" "employee" employee
    let declared : Declarations := ⟨[(employee, [id, post]), (department, [id, head])]⟩
    let broken : Declarations := ⟨[(employee, [id, id]), (department, [])]⟩
    let calls : List Call := [⟨declared, ⟨employee, "app", "employee"⟩⟩]
    let later : List Call := [⟨broken, ⟨employee, "app", "staff"⟩⟩]
    let c := empty.after (calls ++ later)
    let key : Key := ⟨department, "app", "department"⟩
    let root : Compiled := ⟨0, ⟨"app", "employee", [⟨"id", "id", .primaryKey⟩,
      ⟨"post_id", "post", .foreignKey "department" "id" 1⟩]⟩⟩
    let compiled : Compiled := ⟨1, ⟨"app", "department", [⟨"id", "id", .primaryKey⟩,
      ⟨"head_id", "head", .foreignKey "employee" "id" 0⟩]⟩⟩
    let column : Column := ⟨"post_id", "post", .foreignKey "department" "id" 1⟩
    Provided calls key compiled ∧ References (calls ++ later) column key ∧
      Provided (calls ++ later) ⟨employee, "app", "employee"⟩ root ∧
      (c.resolve broken key = ⟨.ok compiled, c, []⟩) ∧
      column.foreignTable? (some c) = some compiled ∧ root.id ≠ compiled.id ∧
      Repository.connect Recorder.driver c broken (Entity.ofColumns department []) "app"
        "department" {} = (⟨.ok ⟨Entity.ofColumns department [], compiled⟩, c, []⟩, {}) := by
  intro employee department id link post head declared broken calls later c key root compiled
    column
  have hroot : (empty.resolve declared ⟨employee, "app", "employee"⟩).outcome = .ok root := by
    decide +kernel
  have hprovided : Provided calls key compiled := by
    have hslot : ⟨key, 1, some compiled.table⟩ ∈
        (empty.resolve declared ⟨employee, "app", "employee"⟩).catalog.slots := by
      decide +kernel
    refine ⟨[], _, [], rfl, ?_⟩
    change Provides _ _ (⟨key, 1, some compiled.table⟩ : Slot).key _
    exact .target hroot hslot List.not_mem_nil rfl
  have hprovidedRoot : Provided (calls ++ later) ⟨employee, "app", "employee"⟩ root :=
    ⟨[], _, later, rfl, .returned hroot⟩
  have hreferences : References (calls ++ later) column key := by
    have hunder : CompiledUnder (calls ++ later) declared
        ⟨⟨employee, "app", "employee"⟩, 0, some root.table⟩ :=
      ⟨[], _, later, rfl, by decide, by decide +kernel⟩
    exact .intro (i := 1) hunder rfl rfl rfl rfl rfl
  obtain ⟨hresolve, hforeign, hids, hconnect⟩ := lookups_find_one_table hprovided later
  refine ⟨hprovided, hreferences, hprovidedRoot, hresolve broken, hforeign column hreferences,
    ?_, ?_⟩
  · intro hid
    have hkey := (hids _ _ hprovidedRoot).mp hid
    exact absurd hkey (by decide)
  · exact (hconnect _ _ _ _ _ _ _ _).2 _ rfl rfl

end Catalog

end TableMapper
