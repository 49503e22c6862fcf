import Mathlib.Data.List.Induction
import TableMapper.Proofs.Catalog.Resolve

/-!
# Catalogs over many calls

A catalog that starts out empty is sound after any calls, whatever was declared at each of them and
whichever of them failed. Its slots are never moved or changed again, so a foreign key that was
linked by one call leads to the same table after all later ones.

## Main definitions

* `Call` — a key and what is declared when it is asked for.
* `Catalog.after` — a catalog after calls.
* `Catalog.CompiledUnder` — the declarations that a slot was compiled under.
* `Field.Refers` — the column of a field refers to the table that the field declares.
-/

namespace TableMapper

/-- A table is asked for while `declared` are the declarations. -/
structure Call where
  declared : Declarations
  key : Key

namespace Catalog

/-- The catalog after calls, in order. -/
def after (c : Catalog) (calls : List Call) : Catalog :=
  calls.foldl (fun c call => (c.resolve call.declared call.key).catalog) c

variable {c : Catalog} {declared : Declarations} {key : Key} {slot : Slot} {calls later : List Call}

theorem after_append (c : Catalog) (calls later : List Call) :
    c.after (calls ++ later) = (c.after calls).after later :=
  List.foldl_append

theorem after_concat (c : Catalog) (calls : List Call) (call : Call) :
    c.after (calls ++ [call]) = ((c.after calls).resolve call.declared call.key).catalog :=
  after_append c calls [call]

/-! ## One call -/

theorem Sound.resolve (h : c.Sound) (declared : Declarations) (key : Key) :
    (c.resolve declared key).catalog.Sound := by
  have hresolves := h.resolves declared key
  generalize c.resolve declared key = r at hresolves ⊢
  cases hresolves with
  | cached => exact h
  | compiled _ hgrows hfilled =>
    refine h.grow hgrows fun slot hslot => ?_
    obtain ⟨table, htable, -⟩ := hfilled slot hslot
    exact ⟨table, htable⟩
  | failed _ hgrows hslots hfresh =>
    refine h.of_slots hslots ?_
    rw [hfresh, hgrows.fresh]
    exact Nat.le_add_right _ _

/-- A call leaves the slots that are there and appends slots with new keys, filled as declared. -/
theorem Sound.slots_resolve (h : c.Sound) (declared : Declarations) (key : Key) :
    ∃ added, (c.resolve declared key).catalog.slots = c.slots ++ added ∧
      c.keys.Disjoint (added.map Slot.key) ∧
      Pass.Filled declared (c.resolve declared key).catalog added := by
  have hresolves := h.resolves declared key
  generalize c.resolve declared key = r at hresolves ⊢
  cases hresolves with
  | cached => exact ⟨[], by simp, by simp, by simp [Pass.Filled]⟩
  | compiled _ hgrows hfilled => exact ⟨_, hgrows.slots, hgrows.new, hfilled⟩
  | failed _ _ hslots => exact ⟨[], by simp [hslots], by simp, by simp [Pass.Filled]⟩

/-- A slot that is there answers for its key, whatever is declared now. -/
theorem Sound.resolve_of_mem (h : c.Sound) (hslot : slot ∈ c.slots) :
    ∃ compiled, slot.compiled? = some compiled ∧ c.byId? slot.id = some compiled ∧
      ∀ declared, c.resolve declared slot.key = ⟨.ok compiled, c, []⟩ := by
  obtain ⟨compiled, hcompiled, -, hkey, hid⟩ := h.compiled?_eq hslot
  exact ⟨compiled, hcompiled, hid, fun declared => by simp only [Catalog.resolve, hkey]⟩

/-! ## Many calls -/

theorem Sound.after (h : c.Sound) (calls : List Call) : (c.after calls).Sound := by
  induction calls generalizing c with
  | nil => exact h
  | cons call calls ih => exact ih (h.resolve call.declared call.key)

/-- Calls leave the slots that are there. -/
theorem Sound.slots_after (h : c.Sound) (calls : List Call) :
    ∃ added, (c.after calls).slots = c.slots ++ added := by
  induction calls generalizing c with
  | nil => exact ⟨[], by simp [Catalog.after]⟩
  | cons call calls ih =>
    obtain ⟨added, hadded, -⟩ := h.slots_resolve call.declared call.key
    obtain ⟨added', hadded'⟩ := ih (h.resolve call.declared call.key)
    refine ⟨added ++ added', ?_⟩
    rw [← List.append_assoc, ← hadded]
    exact hadded'

/-- Among `calls` is one that compiled `slot`, and it used `declared`. -/
def CompiledUnder (calls : List Call) (declared : Declarations) (slot : Slot) : Prop :=
  ∃ before key rest, calls = before ++ ⟨declared, key⟩ :: rest ∧
    (empty.after before).slot? slot.key = none ∧
    slot ∈ ((empty.after before).resolve declared key).catalog.slots

theorem CompiledUnder.append (h : CompiledUnder calls declared slot) (later : List Call) :
    CompiledUnder (calls ++ later) declared slot := by
  obtain ⟨before, key, rest, rfl, hnew, hslot⟩ := h
  exact ⟨before, key, rest ++ later, by simp, hnew, hslot⟩

/-- Every slot holds the table that was declared when it was compiled. -/
theorem describes_of_mem (calls : List Call) (hslot : slot ∈ (empty.after calls).slots) :
    ∃ declared table, CompiledUnder calls declared slot ∧ slot.table = some table ∧
      Describes declared (empty.after calls) slot.key table := by
  induction calls using List.reverseRecOn with
  | nil => cases hslot
  | append_singleton calls call ih =>
    obtain ⟨added, hslots, hnew, hfilled⟩ :=
      (sound_empty.after calls).slots_resolve call.declared call.key
    rw [← after_concat] at hslots hfilled
    -- Old slots keep the call they came from; what is appended comes from the last call.
    rcases List.mem_append.mp (hslots ▸ hslot) with hold | hadded
    · obtain ⟨declared, table, hunder, htable, hdescribes⟩ := ih hold
      exact ⟨declared, table, hunder.append [call], htable,
        hdescribes.mono fun _ _ => idOf?_of_append hslots⟩
    · obtain ⟨table, htable, hdescribes⟩ := hfilled slot hadded
      refine ⟨call.declared, table, ⟨calls, call.key, [], rfl, ?_, ?_⟩, htable, hdescribes⟩
      · exact slot?_eq_none_iff.mpr fun hkey => hnew hkey (List.mem_map_of_mem hadded)
      · rwa [← after_concat]

end Catalog

/-! ## Foreign keys -/

/-- The column of `f` in a table of `schema`. A foreign key refers to the slot for the entity type
and the table name that `f` declares, and to no other: the table behind the column is the one in
that slot, and the one that everybody gets who asks for that key. -/
structure Field.Refers (c : Catalog) (schema : String) (f : Field) (column : Column) : Prop where
  name : column.name = f.column
  sourceField : column.sourceField = f.name
  isForeignKey : column.isForeignKey ↔ ∃ table foreign, f.relation = .foreignKey table foreign
  target : ∀ table foreign, f.relation = .foreignKey table foreign →
    ∃ target slot compiled, f.kind = .entity true target ∧
      c.slot? ⟨target, schema, table⟩ = some slot ∧ slot.compiled? = some compiled ∧
      column.role = .foreignKey table foreign slot.id ∧
      (∀ other ∈ c.slots, other.id = slot.id → other = slot) ∧
      column.foreignTable? (some c) = some compiled ∧
      ∀ declared, c.resolve declared ⟨target, schema, table⟩ = ⟨.ok compiled, c, []⟩

/-- In a sound catalog the identity of a slot leads to its table. -/
theorem Field.Yields.refers {c : Catalog} {schema : String} {f : Field} {column : Column}
    (h : f.Yields (fun target table id => c.idOf? ⟨target, schema, table⟩ = some id) column)
    (hc : c.Sound) : f.Refers c schema column := by
  obtain ⟨columnName, sourceField, role⟩ := column
  obtain ⟨hname, hsource, hrole⟩ := h
  refine ⟨hname, hsource, ?_, ?_⟩
  · cases hrole <;> simp_all [Column.isForeignKey]
  intro table foreign hrelation
  cases hrole with
  | plain hnone => simp [hnone] at hrelation
  | primaryKey hkey => simp [hkey] at hrelation
  | foreignKey hrelation' htable hforeign hkind hfound =>
    rw [hrelation', Relation.foreignKey.injEq] at hrelation
    obtain ⟨rfl, rfl⟩ := hrelation
    obtain ⟨slot, hslot, rfl⟩ := Option.map_eq_some_iff.mp hfound
    obtain ⟨compiled, hcompiled, hid, hresolve⟩ := hc.resolve_of_mem (Catalog.mem_of_slot? hslot)
    rw [Catalog.key_of_slot? hslot] at hresolve
    refine ⟨_, slot, compiled, hkind, hslot, hcompiled, rfl, ?_, hid, hresolve⟩
    intro other hother heq
    exact List.inj_on_of_nodup_map hc.ids hother (Catalog.mem_of_slot? hslot) heq

namespace Catalog

variable {slot : Slot}

/-- After any calls every slot is filled with the table that was declared when it was compiled, and
its foreign keys refer to the slots of their targets, then and after all later calls. Once the
catalog is gone they refer to nothing. -/
theorem foreign_keys_refer_to_slots (calls later : List Call)
    (hslot : slot ∈ (empty.after calls).slots) :
    ∃ declared table, CompiledUnder calls declared slot ∧ slot.table = some table ∧
      List.Forall₂ (Field.Refers (empty.after (calls ++ later)) slot.key.schema)
        ((declared.fields slot.key.entity).filter Field.isStored) table.columns ∧
      ∀ column ∈ table.columns, column.foreignTable? none = none := by
  obtain ⟨declared, table, hunder, htable, hdescribes⟩ := describes_of_mem calls hslot
  obtain ⟨added, hslots⟩ := (sound_empty.after calls).slots_after later
  rw [← after_append] at hslots
  have hlater := hdescribes.mono fun _ _ => idOf?_of_append hslots
  refine ⟨declared, table, hunder, htable, ?_, fun column _ => rfl⟩
  exact hlater.columns.imp fun _ _ hyields => hyields.refers (sound_empty.after _)

/-- Two tables that refer to each other, compiled after a call that failed with both slots reserved.
Those slots are gone, and their identities are not given out again. -/
theorem foreign_keys_refer_to_slots_staff :
    let employee : EntityType := ⟨0, "Employee"⟩
    let department : EntityType := ⟨1, "Department"⟩
    let key := (Field.stored "id" "id").primaryKey
    let link (name column table : String) (target : EntityType) :=
      ((Field.stored name column).foreignKey table "id").optionalEntity target
    let post := link "post" "post_id" "department" department
    let head := link "head" "head_id" "employee" employee
    let broken : Declarations := ⟨[(employee, [key, post, key]), (department, [key, head])]⟩
    let declared : Declarations := ⟨[(employee, [key, post]), (department, [key, head])]⟩
    let calls : List Call := [⟨broken, ⟨employee, "app", "employee"⟩⟩,
      ⟨declared, ⟨employee, "app", "employee"⟩⟩]
    let slot : Slot := ⟨⟨employee, "app", "employee"⟩, 2, some ⟨"app", "employee",
      [⟨"id", "id", .primaryKey⟩, ⟨"post_id", "post", .foreignKey "department" "id" 3⟩]⟩⟩
    slot ∈ (empty.after calls).slots ∧
    ∃ declared table, CompiledUnder calls declared slot ∧ slot.table = some table ∧
      List.Forall₂ (Field.Refers (empty.after (calls ++ calls)) slot.key.schema)
        ((declared.fields slot.key.entity).filter Field.isStored) table.columns ∧
      ∀ column ∈ table.columns, column.foreignTable? none = none := by
  intro employee department key link post head broken declared calls slot
  have hslot : slot ∈ (empty.after calls).slots := by decide +kernel
  exact ⟨hslot, foreign_keys_refer_to_slots calls calls hslot⟩

end Catalog

end TableMapper
