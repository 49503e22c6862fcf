import Mathlib.Data.List.Forall2
import Mathlib.Data.List.Nodup
import TableMapper.Catalog.Basic
import TableMapper.Proofs.Table.Compile

/-!
# What a compilation adds to a catalog

A compilation only appends slots, and it keeps a list of them. Nested compilations append behind
one another, so the slots of the whole are those of its parts in order. A compilation that succeeds
has filled every slot it appended.

## Main definitions

* `Catalog.idOf?` — the identity of the slot for a key.
* `Catalog.Describes` — the table that declarations describe, its foreign keys looked up in a
  catalog.
* `Catalog.Pass.GrowsBy` — the slots that a compilation appended.
* `Catalog.Pass.Completes` — every slot it appended is filled as declared.
-/

namespace TableMapper

namespace Catalog

variable {c c' : Catalog} {declared : Declarations} {key : Key} {id : TableId} {table : Table}

/-! ## Identities -/

def keys (c : Catalog) : List Key := c.slots.map Slot.key

def idOf? (c : Catalog) (key : Key) : Option TableId := (c.slot? key).map Slot.id

theorem slot?_eq_none_iff : c.slot? key = none ↔ key ∉ c.keys := by
  simp only [slot?, keys, List.find?_eq_none, List.mem_map, not_exists, not_and, beq_iff_eq]

theorem key_of_slot? {slot : Slot} (h : c.slot? key = some slot) : slot.key = key := by
  simpa using List.find?_some h

theorem mem_of_slot? {slot : Slot} (h : c.slot? key = some slot) : slot ∈ c.slots :=
  List.mem_of_find?_eq_some h

/-- Slots behind the ones that are there hide none of them. -/
theorem slot?_of_append {added : List Slot} {slot : Slot} (hslots : c'.slots = c.slots ++ added)
    (h : c.slot? key = some slot) : c'.slot? key = some slot := by
  rw [slot?, hslots, List.find?_append]
  exact Option.or_eq_some_iff.mpr (.inl h)

theorem idOf?_of_append {added : List Slot} (hslots : c'.slots = c.slots ++ added)
    (h : c.idOf? key = some id) : c'.idOf? key = some id := by
  obtain ⟨slot, hslot, rfl⟩ := Option.map_eq_some_iff.mp h
  rw [idOf?, slot?_of_append hslots hslot]
  rfl

/-- Filling a slot changes no identity. -/
theorem idOf?_fill (c : Catalog) (key key' : Key) (table : Table) :
    (c.fill key' table).idOf? key = c.idOf? key := by
  obtain ⟨slots, fresh⟩ := c
  simp only [idOf?, slot?, fill]
  induction slots with
  | nil => rfl
  | cons s slots ih =>
    by_cases hs : s.key = key' <;> by_cases hk : s.key = key <;>
      simp_all

/-- The table that `declared` describes for a key, its foreign keys looked up in `c`. -/
structure Describes (declared : Declarations) (c : Catalog) (key : Key) (table : Table) :
    Prop where
  schema : table.schema = key.schema
  name : table.name = key.table
  columns : List.Forall₂
    (Field.Yields fun target name id => c.idOf? ⟨target, key.schema, name⟩ = some id)
    ((declared.fields key.entity).filter Field.isStored) table.columns

theorem Describes.mono (h : Describes declared c key table)
    (hid : ∀ key id, c.idOf? key = some id → c'.idOf? key = some id) :
    Describes declared c' key table :=
  ⟨h.schema, h.name, h.columns.imp fun _ _ hyields =>
    hyields.mono fun target name => hid ⟨target, key.schema, name⟩⟩

/-! ## Appended slots -/

namespace Pass

variable {p q r : Pass} {added added' : List Slot}

/-- From `p` to `q` a compilation has reserved the slots `added`, with new keys and fresh
identities, and has looked up the fields of their entity types. -/
structure GrowsBy (p q : Pass) (added : List Slot) : Prop where
  slots : q.catalog.slots = p.catalog.slots ++ added
  reserved : q.reserved = p.reserved ++ added.map Slot.key
  reflected : q.reflected = p.reflected ++ added.map (·.key.entity)
  fresh : q.catalog.fresh = p.catalog.fresh + added.length
  ids : added.map Slot.id = List.range' p.catalog.fresh added.length
  nodup : (added.map Slot.key).Nodup
  new : p.catalog.keys.Disjoint (added.map Slot.key)

theorem GrowsBy.refl (p : Pass) : GrowsBy p p [] := by
  constructor <;> simp

theorem GrowsBy.trans (h : GrowsBy p q added) (h' : GrowsBy q r added') :
    GrowsBy p r (added ++ added') where
  slots := by rw [h'.slots, h.slots, List.append_assoc]
  reserved := by rw [h'.reserved, h.reserved, List.map_append, List.append_assoc]
  reflected := by rw [h'.reflected, h.reflected, List.map_append, List.append_assoc]
  fresh := by rw [h'.fresh, h.fresh, List.length_append, Nat.add_assoc]
  ids := by
    rw [List.map_append, h.ids, h'.ids, h.fresh, List.length_append, List.range'_append_1]
  nodup := by
    rw [List.map_append, List.nodup_append']
    refine ⟨h.nodup, h'.nodup, fun k hk hk' => h'.new ?_ hk'⟩
    rw [keys, h.slots, List.map_append, List.mem_append]
    exact .inr hk
  new := by
    rw [List.map_append, List.disjoint_append_right]
    refine ⟨h.new, fun k hk hk' => h'.new ?_ hk'⟩
    rw [keys, h.slots, List.map_append, List.mem_append]
    exact .inl hk

/-- Slots that differ only in their tables are appended alike. -/
theorem GrowsBy.congr (h : GrowsBy p q added) (hslots : r.catalog.slots = p.catalog.slots ++ added')
    (hreserved : r.reserved = q.reserved) (hreflected : r.reflected = q.reflected)
    (hfresh : r.catalog.fresh = q.catalog.fresh)
    (hkey : added'.map Slot.key = added.map Slot.key)
    (hid : added'.map Slot.id = added.map Slot.id) : GrowsBy p r added' := by
  have hlength : added'.length = added.length := by
    simpa using congrArg List.length hkey
  have hentity : added'.map (·.key.entity) = added.map (·.key.entity) := by
    simpa [Function.comp_def] using congrArg (List.map Key.entity) hkey
  exact {
    slots := hslots
    reserved := by rw [hreserved, h.reserved, hkey]
    reflected := by rw [hreflected, h.reflected, hentity]
    fresh := by rw [hfresh, h.fresh, hlength]
    ids := by rw [hid, h.ids, hlength]
    nodup := hkey ▸ h.nodup
    new := hkey ▸ h.new }

theorem growsBy_reserve (p : Pass) (h : p.catalog.slot? key = none) :
    GrowsBy p (p.reserve key) [⟨key, p.catalog.fresh, none⟩] where
  slots := rfl
  reserved := rfl
  reflected := rfl
  fresh := rfl
  ids := rfl
  nodup := by simp
  new := by simpa using slot?_eq_none_iff.mp h

theorem GrowsBy.idOf? (h : GrowsBy p q added) (hid : p.catalog.idOf? key = some id) :
    q.catalog.idOf? key = some id :=
  idOf?_of_append h.slots hid

/-- Filling a slot that was appended leaves the others as they are. -/
theorem GrowsBy.fill {slot : Slot} (h : GrowsBy p q (slot :: added)) (table : Table) :
    GrowsBy p { q with catalog := q.catalog.fill slot.key table }
      ({ slot with table := some table } :: added) := by
  refine h.congr ?_ rfl rfl rfl rfl rfl
  -- Filling goes by key, and no slot before or behind this one has its key.
  have hkeep (slots : List Slot) (hnew : slot.key ∉ slots.map Slot.key) :
      slots.map (fun s => if s.key = slot.key then { s with table := some table } else s) =
        slots := by
    conv_rhs => rw [← List.map_id slots]
    refine List.map_congr_left fun s hs => if_neg ?_
    rintro hkey
    exact hnew (hkey ▸ List.mem_map_of_mem hs)
  have hold : slot.key ∉ p.catalog.keys := fun hk => h.new hk (by simp)
  have hrest : slot.key ∉ added.map Slot.key := (List.nodup_cons.mp h.nodup).1
  simp only [Catalog.fill, h.slots, List.map_append, List.map_cons, if_pos]
  rw [hkeep _ hold, hkeep _ hrest]

/-- Every slot among `slots` is filled with the table that `declared` describes for its key. -/
def Filled (declared : Declarations) (c : Catalog) (slots : List Slot) : Prop :=
  ∀ slot ∈ slots, ∃ table, slot.table = some table ∧ Describes declared c slot.key table

/-- From `p` to `q` a compilation has filled every slot it has reserved. -/
def Completes (declared : Declarations) (p q : Pass) : Prop :=
  ∃ added, GrowsBy p q added ∧ Filled declared q.catalog added

theorem Completes.refl (declared : Declarations) (p : Pass) : Completes declared p p :=
  ⟨[], .refl p, by simp [Filled]⟩

theorem Completes.idOf? (h : Completes declared p q) (hid : p.catalog.idOf? key = some id) :
    q.catalog.idOf? key = some id := by
  obtain ⟨added, hgrows, -⟩ := h
  exact hgrows.idOf? hid

theorem Filled.mono {slots : List Slot} (h : Filled declared c slots)
    (hid : ∀ key id, c.idOf? key = some id → c'.idOf? key = some id) :
    Filled declared c' slots := by
  intro slot hslot
  obtain ⟨table, htable, hdescribes⟩ := h slot hslot
  exact ⟨table, htable, hdescribes.mono hid⟩

theorem Completes.trans (h : Completes declared p q) (h' : Completes declared q r) :
    Completes declared p r := by
  obtain ⟨added, hgrows, hfilled⟩ := h
  obtain ⟨added', hgrows', hfilled'⟩ := h'
  refine ⟨added ++ added', hgrows.trans hgrows', fun slot hslot => ?_⟩
  rcases List.mem_append.mp hslot with hslot | hslot
  · exact hfilled.mono (fun _ _ => hgrows'.idOf?) slot hslot
  · exact hfilled' slot hslot

end Pass

/-! ## Compilation -/

section Compile

variable {depth : Nat} {p q : Pass}

theorem compile_of_slot? {slot : Slot} (h : p.catalog.slot? key = some slot) :
    compile declared depth key p = .ok slot.id p := by
  unfold compile
  rw [get_bind, h]
  rfl

theorem compile_zero (h : p.catalog.slot? key = none) :
    compile declared 0 key p = .error (.notCompiled key.entity.name) p := by
  unfold compile
  rw [get_bind, h]
  rfl

/-- The table for a key; the tables behind its foreign keys are nested at most `depth` deep. -/
def compileTable (declared : Declarations) (depth : Nat) (key : Key) :
    EStateM SchemaFault Pass Table :=
  Table.compile key.entity key.schema key.table (declared.fields key.entity)
    fun target name => compile declared depth ⟨target, key.schema, name⟩

theorem compile_succ (h : p.catalog.slot? key = none) :
    compile declared (depth + 1) key p =
      match compileTable declared depth key (p.reserve key) with
      | .ok table q => .ok p.catalog.fresh { q with catalog := q.catalog.fill key table }
      | .error fault q => .error fault q := by
  rw [compile, get_bind, h]
  refine set_bind.trans ?_
  change EStateM.bind (compileTable declared depth key) _ (p.reserve key) = _
  unfold EStateM.bind
  cases compileTable declared depth key (p.reserve key) <;> rfl

/-- What compiling the keys of foreign keys preserves, compiling a table preserves. -/
theorem compileTable_ok
    (hcompile : ∀ key p id q, compile declared depth key p = .ok id q →
      p.Completes declared q ∧ q.catalog.idOf? key = some id)
    (h : compileTable declared depth key p = .ok table q) :
    p.Completes declared q ∧ Describes declared q.catalog key table := by
  obtain ⟨columns, hcolumns, rfl⟩ := Table.compile_eq_ok_iff.mp h
  obtain ⟨hcompletes, hyields⟩ := Table.columnsOf_ok (Pass.Completes declared)
    (fun p target name id => p.catalog.idOf? ⟨target, key.schema, name⟩ = some id)
    (Pass.Completes.refl declared) (fun _ _ _ => Pass.Completes.trans)
    (fun _ _ _ _ _ hcompletes => hcompletes.idOf?)
    (fun _ _ _ _ _ => hcompile _ _ _ _) hcolumns
  exact ⟨hcompletes, rfl, rfl, hyields⟩

theorem compileTable_error {fault : SchemaFault}
    (hcompile : ∀ key p id q, compile declared depth key p = .ok id q →
      p.Completes declared q ∧ q.catalog.idOf? key = some id)
    (hfail : ∀ key p fault q, compile declared depth key p = .error fault q →
      ∃ added, p.GrowsBy q added)
    (h : compileTable declared depth key p = .error fault q) : ∃ added, p.GrowsBy q added := by
  refine Table.columnsOf_error (Pass.Completes declared)
    (fun p q => ∃ added, p.GrowsBy q added)
    (fun p target name id => p.catalog.idOf? ⟨target, key.schema, name⟩ = some id)
    (Pass.Completes.refl declared) ?_ (fun p => ⟨[], .refl p⟩)
    (fun _ _ _ _ _ => hcompile _ _ _ _) (fun _ _ _ _ _ => hfail _ _ _ _)
    (Table.compile_eq_error_iff.mp h)
  rintro p q r ⟨added, hgrows, -⟩ ⟨added', hgrows'⟩
  exact ⟨added ++ added', hgrows.trans hgrows'⟩

/-- Reserving a slot and filling it once the tables behind its foreign keys are compiled
completes it. -/
theorem completes_fill (hslot : p.catalog.slot? key = none)
    (h : (p.reserve key).Completes declared q ∧ Describes declared q.catalog key table) :
    p.Completes declared { q with catalog := q.catalog.fill key table } ∧
      (q.catalog.fill key table).idOf? key = some p.catalog.fresh := by
  obtain ⟨⟨added, hgrows, hfilled⟩, hdescribes⟩ := h
  have hid : ∀ key' id, q.catalog.idOf? key' = some id →
      (q.catalog.fill key table).idOf? key' = some id := by
    intro key' id hid
    rwa [idOf?_fill]
  refine ⟨⟨_, ((Pass.growsBy_reserve p hslot).trans hgrows).fill table, ?_⟩, hid _ _ ?_⟩
  · rintro slot (_ | ⟨_, hslot⟩)
    · exact ⟨table, rfl, hdescribes.mono hid⟩
    · exact hfilled.mono hid slot hslot
  · refine hgrows.idOf? ?_
    have hnone : p.catalog.slots.find? (·.key == key) = none := hslot
    simp [idOf?, slot?, Pass.reserve, reserve, hnone]

theorem completes_of_slot? {slot : Slot} (hslot : p.catalog.slot? key = some slot)
    (h : compile declared depth key p = .ok id q) :
    p.Completes declared q ∧ q.catalog.idOf? key = some id := by
  rw [compile_of_slot? hslot] at h
  cases h
  exact ⟨.refl declared p, by rw [idOf?, hslot]; rfl⟩

/-- A compilation that succeeds has filled every slot it reserved, and one of them or an older one
is the slot for the key. A compilation that fails has still only appended slots. -/
theorem compile_grows (declared : Declarations) (depth : Nat) :
    (∀ key p id q, compile declared depth key p = .ok id q →
      p.Completes declared q ∧ q.catalog.idOf? key = some id) ∧
    (∀ key p fault q, compile declared depth key p = .error fault q →
      ∃ added, p.GrowsBy q added) := by
  induction depth with
  | zero =>
    refine ⟨fun key p id q h => ?_, fun key p fault q h => ?_⟩
    · cases hslot : p.catalog.slot? key with
      | some slot => exact completes_of_slot? hslot h
      | none => cases (compile_zero hslot).symm.trans h
    · cases hslot : p.catalog.slot? key with
      | some slot => cases (compile_of_slot? hslot).symm.trans h
      | none =>
        cases (compile_zero hslot).symm.trans h
        exact ⟨[], .refl p⟩
  | succ depth ih =>
    -- The walk over the fields looks every key up one level shallower.
    obtain ⟨hok, herror⟩ := ih
    refine ⟨fun key p id q h => ?_, fun key p fault q h => ?_⟩
    · cases hslot : p.catalog.slot? key with
      | some slot => exact completes_of_slot? hslot h
      | none =>
        rw [compile_succ hslot] at h
        cases htable : compileTable declared depth key (p.reserve key) with
        | error fault r => simp [htable] at h
        | ok table r =>
          rw [htable] at h
          cases h
          exact completes_fill hslot (compileTable_ok hok htable)
    · cases hslot : p.catalog.slot? key with
      | some slot => cases (compile_of_slot? hslot).symm.trans h
      | none =>
        rw [compile_succ hslot] at h
        cases htable : compileTable declared depth key (p.reserve key) with
        | ok table r => simp [htable] at h
        | error fault r =>
          rw [htable] at h
          cases h
          obtain ⟨added, hgrows⟩ := compileTable_error hok herror htable
          exact ⟨_, (Pass.growsBy_reserve p hslot).trans hgrows⟩

end Compile

end Catalog

end TableMapper
