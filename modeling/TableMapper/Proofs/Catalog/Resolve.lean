import TableMapper.Proofs.Catalog.Growth

/-!
# What asking for a table does to a catalog

Between calls every slot of a catalog is filled, and no two slots share a key or an identity. Asking
such a catalog for a table ends in one of three ways: the table is there, it is compiled and new
slots follow the old ones, or it cannot be compiled and the old slots are left.

## Main definitions

* `Catalog.Sound` — what holds of a catalog between calls.
* `Catalog.Resolves` — the ways a call can end.
-/

namespace TableMapper

namespace Catalog

variable {c : Catalog} {declared : Declarations} {key : Key} {slot : Slot}

/-! ## Sound catalogs -/

structure Sound (c : Catalog) : Prop where
  keys : c.keys.Nodup
  ids : (c.slots.map Slot.id).Nodup
  fresh : ∀ slot ∈ c.slots, slot.id < c.fresh
  filled : ∀ slot ∈ c.slots, ∃ table, slot.table = some table

theorem sound_empty : empty.Sound := by
  constructor <;> simp [empty, Catalog.keys]

/-- An element is the first of its list with its own value, where values do not repeat. -/
theorem find?_of_nodup {α β : Type} [DecidableEq β] (f : α → β) {l : List α} {a : α}
    (hnodup : (l.map f).Nodup) (ha : a ∈ l) : l.find? (f · == f a) = some a := by
  cases hfind : l.find? (f · == f a) with
  | none => exact absurd (List.find?_eq_none.mp hfind a ha) (by simp)
  | some b =>
    have hvalue : f b = f a := by simpa using List.find?_some hfind
    have hmem := List.mem_of_find?_eq_some hfind
    exact congrArg some (List.inj_on_of_nodup_map hnodup hmem ha hvalue)

theorem Sound.slot?_key (h : c.Sound) (hslot : slot ∈ c.slots) :
    c.slot? slot.key = some slot :=
  find?_of_nodup Slot.key h.keys hslot

theorem Sound.find?_id (h : c.Sound) (hslot : slot ∈ c.slots) :
    c.slots.find? (·.id == slot.id) = some slot :=
  find?_of_nodup Slot.id h.ids hslot

/-- A slot is reached by its key and by its identity. -/
theorem Sound.compiled?_eq (h : c.Sound) (hslot : slot ∈ c.slots) :
    ∃ compiled, slot.compiled? = some compiled ∧ compiled.id = slot.id ∧
      c.get? slot.key = some compiled ∧ c.byId? slot.id = some compiled := by
  obtain ⟨table, htable⟩ := h.filled slot hslot
  have hcompiled : slot.compiled? = some ⟨slot.id, table⟩ := by rw [Slot.compiled?, htable]; rfl
  refine ⟨⟨slot.id, table⟩, hcompiled, rfl, ?_, ?_⟩
  · rw [get?, h.slot?_key hslot]
    exact hcompiled
  · rw [byId?, h.find?_id hslot]
    exact hcompiled

theorem Sound.get?_eq_none_iff (h : c.Sound) : c.get? key = none ↔ c.slot? key = none := by
  constructor
  · intro hget
    cases hslot : c.slot? key with
    | none => rfl
    | some slot =>
      obtain ⟨compiled, -, -, hkey, -⟩ := h.compiled?_eq (mem_of_slot? hslot)
      rw [key_of_slot? hslot, hget] at hkey
      cases hkey
  · intro hslot
    rw [get?, hslot]
    rfl

/-! ## One call -/

variable {q : Pass} {added : List Slot}

theorem Sound.grow (h : c.Sound) (hgrows : Pass.GrowsBy ⟨c, [], []⟩ q added)
    (hfilled : ∀ slot ∈ added, ∃ table, slot.table = some table) : q.catalog.Sound where
  keys := by
    rw [Catalog.keys, hgrows.slots, List.map_append, List.nodup_append']
    exact ⟨h.keys, hgrows.nodup, hgrows.new⟩
  ids := by
    rw [hgrows.slots, List.map_append, hgrows.ids, List.nodup_append']
    refine ⟨h.ids, List.nodup_range', fun id hid hnew => ?_⟩
    obtain ⟨slot, hslot, rfl⟩ := List.mem_map.mp hid
    exact absurd (h.fresh slot hslot) (Nat.not_lt.mpr (List.mem_range'_1.mp hnew).1)
  fresh slot hslot := by
    rw [hgrows.slots] at hslot
    rw [hgrows.fresh]
    rcases List.mem_append.mp hslot with hold | hnew
    · exact Nat.lt_add_right _ (h.fresh slot hold)
    · have hid : slot.id ∈ added.map Slot.id := List.mem_map_of_mem hnew
      rw [hgrows.ids] at hid
      exact (List.mem_range'_1.mp hid).2
  filled slot hslot := by
    rw [hgrows.slots] at hslot
    rcases List.mem_append.mp hslot with hold | hnew
    · exact h.filled slot hold
    · exact hfilled slot hnew

/-- Slots that only reserve later identities leave a catalog sound. -/
theorem Sound.of_slots {c' : Catalog} (h : c.Sound) (hslots : c'.slots = c.slots)
    (hfresh : c.fresh ≤ c'.fresh) : c'.Sound where
  keys := by rw [Catalog.keys, hslots]; exact h.keys
  ids := by rw [hslots]; exact h.ids
  fresh slot hslot := Nat.lt_of_lt_of_le (h.fresh slot (hslots ▸ hslot)) hfresh
  filled slot hslot := h.filled slot (hslots ▸ hslot)

/-- Releasing the keys that a pass has reserved takes back exactly the slots it appended. -/
theorem slots_release (hgrows : Pass.GrowsBy ⟨c, [], []⟩ q added) :
    (q.catalog.release q.reserved).slots = c.slots := by
  have hreserved : q.reserved = added.map Slot.key := by rw [hgrows.reserved, List.nil_append]
  have hold : ∀ slot ∈ c.slots, (!q.reserved.contains slot.key) = true := by
    intro slot hslot
    have hkey : slot.key ∉ added.map Slot.key := hgrows.new (List.mem_map_of_mem hslot)
    rw [hreserved, Bool.not_eq_true', ← Bool.not_eq_true, List.contains_iff_mem]
    exact hkey
  have hnew : ∀ slot ∈ added, ¬(!q.reserved.contains slot.key) = true := by
    intro slot hslot
    have hkey : slot.key ∈ added.map Slot.key := List.mem_map_of_mem hslot
    rw [hreserved, Bool.not_eq_true', Bool.not_eq_false, List.contains_iff_mem]
    exact hkey
  rw [release, hgrows.slots, List.filter_append, List.filter_eq_self.mpr hold,
    List.filter_eq_nil_iff.mpr hnew, List.append_nil]

/-- The ways a call can end. -/
inductive Resolves (c : Catalog) (declared : Declarations) (key : Key) : Resolution → Prop
  | cached {compiled : Compiled} : c.get? key = some compiled →
      Resolves c declared key ⟨.ok compiled, c, []⟩
  | compiled {compiled : Compiled} {q : Pass} {added : List Slot} :
      c.slot? key = none → Pass.GrowsBy ⟨c, [], []⟩ q added →
      Pass.Filled declared q.catalog added → q.catalog.get? key = some compiled →
      Resolves c declared key ⟨.ok compiled, q.catalog, q.reflected⟩
  | failed {fault : SchemaFault} {q : Pass} {added : List Slot} {c' : Catalog} :
      c.slot? key = none → Pass.GrowsBy ⟨c, [], []⟩ q added →
      c'.slots = c.slots → c'.fresh = q.catalog.fresh →
      Resolves c declared key ⟨.error fault, c', q.reflected⟩

/-- A compilation that succeeds leaves a sound catalog, where the identity it returns leads to the
table for the key. -/
theorem Sound.compile_ok {depth : Nat} {id : TableId} (h : c.Sound)
    (hcompile : compile declared depth key ⟨c, [], []⟩ = .ok id q) :
    ∃ added compiled, Pass.GrowsBy ⟨c, [], []⟩ q added ∧ Pass.Filled declared q.catalog added ∧
      q.catalog.get? key = some compiled ∧ q.catalog.byId? id = some compiled := by
  obtain ⟨⟨added, hgrows, hfilled⟩, hid⟩ := (compile_grows declared depth).1 _ _ _ _ hcompile
  have hsound : q.catalog.Sound := by
    refine h.grow hgrows fun slot hslot => ?_
    obtain ⟨table, htable, -⟩ := hfilled slot hslot
    exact ⟨table, htable⟩
  -- The slot for the key is filled by now, so its identity leads to a table.
  obtain ⟨slot, hfound, rfl⟩ := Option.map_eq_some_iff.mp hid
  obtain ⟨compiled, -, -, hkey, hbyId⟩ := hsound.compiled?_eq (mem_of_slot? hfound)
  rw [key_of_slot? hfound] at hkey
  exact ⟨added, compiled, hgrows, hfilled, hkey, hbyId⟩

theorem Sound.resolves (h : c.Sound) (declared : Declarations) (key : Key) :
    c.Resolves declared key (c.resolve declared key) := by
  unfold resolve
  cases hget : c.get? key with
  | some compiled => exact .cached hget
  | none =>
    have hslot : c.slot? key = none := h.get?_eq_none_iff.mp hget
    cases hcompile : compile declared (depthBound declared) key ⟨c, [], []⟩ with
    | error fault q =>
      obtain ⟨added, hgrows⟩ := (compile_grows declared _).2 _ _ _ _ hcompile
      exact .failed hslot hgrows (slots_release hgrows) rfl
    | ok id q =>
      obtain ⟨added, compiled, hgrows, hfilled, hkey, hbyId⟩ := h.compile_ok hcompile
      simp only [hbyId]
      exact .compiled hslot hgrows hfilled hkey

/-- The table that a call returns is in the slot for its key. -/
theorem Sound.get?_of_ok (h : c.Sound) {compiled : Compiled}
    (hok : (c.resolve declared key).outcome = .ok compiled) :
    (c.resolve declared key).catalog.get? key = some compiled := by
  have hresolves := h.resolves declared key
  generalize c.resolve declared key = r at hresolves hok ⊢
  cases hresolves with
  | cached hget =>
    cases hok
    exact hget
  | compiled _ _ _ hget =>
    cases hok
    exact hget
  | failed => cases hok

end Catalog

end TableMapper
