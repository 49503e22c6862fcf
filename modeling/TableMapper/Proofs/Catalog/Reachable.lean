import Mathlib.Data.Set.Card
import TableMapper.Proofs.Catalog.Rollback
import TableMapper.Proofs.Catalog.Search

/-!
# Which tables can be compiled

Under fixed declarations the keys of a catalog are valid, and they lead to one another only. So a
call that passes over them misses no fault: it succeeds exactly when every key that is reached from
the one asked for is valid. Then these are the keys it leaves behind, next to the old ones.

## Main definitions

* `Declarations.Closed` — keys that are valid and have all their successors among them.
-/

namespace TableMapper

variable {declared : Declarations} {key k : Key} {keys seen seen' : List Key}

namespace Declarations

/-! ## Closed sets of keys -/

def Closed (declared : Declarations) (keys : List Key) : Prop :=
  ∀ k ∈ keys, declared.Valid k ∧ declared.successors k ⊆ keys

theorem Closed.of_reaches (h : declared.Closed keys) (hkey : key ∈ keys)
    (hreaches : declared.Reaches key k) : k ∈ keys ∧ declared.Valid k := by
  have hmem : k ∈ keys := by
    induction hreaches with
    | refl => exact hkey
    | tail _ hnext ih => exact (h _ ih).2 hnext
  exact ⟨hmem, (h k hmem).1⟩

/-- A search from closed keys that succeeds leaves closed keys. -/
theorem Explores.closed_of_closed (h : declared.Explores key seen seen')
    (hseen : declared.Closed seen) : declared.Closed seen' := by
  intro k hk
  rcases h.closed k hk with hold | hnew
  · obtain ⟨hvalid, hsuccessors⟩ := hseen k hold
    exact ⟨hvalid, List.Subset.trans hsuccessors h.subset⟩
  · exact hnew

end Declarations

namespace Catalog

variable {c : Catalog} {compiled : Compiled} {fault : SchemaFault}

/-! ## One call -/

theorem Sound.search_of_ok (h : c.Sound) (hok : (c.resolve declared key).outcome = .ok compiled) :
    declared.search (depthBound declared) key c.keys =
      .ok ⟨⟩ (c.resolve declared key).catalog.keys := by
  have hsearch := observe_compile declared (depthBound declared) key ⟨c, [], []⟩
  unfold Catalog.resolve at hok ⊢
  cases hget : c.get? key with
  | some compiled' =>
    obtain ⟨slot, hslot, -⟩ := Option.bind_eq_some_iff.mp hget
    exact Declarations.search_of_mem (mem_keys_of_slot? hslot)
  | none =>
    cases hcompile : compile declared (depthBound declared) key ⟨c, [], []⟩ with
    | error fault q => simp [hget, hcompile] at hok
    | ok id q =>
      obtain ⟨added, compiled', -, -, -, hbyId⟩ := h.compile_ok hcompile
      simp only [hbyId]
      rw [← hsearch, hcompile]
      rfl

theorem Sound.search_of_error (h : c.Sound)
    (herror : (c.resolve declared key).outcome = .error fault) :
    ∃ seen, declared.search (depthBound declared) key c.keys = .error fault seen := by
  have hsearch := observe_compile declared (depthBound declared) key ⟨c, [], []⟩
  unfold Catalog.resolve at herror
  cases hget : c.get? key with
  | some compiled => simp [hget] at herror
  | none =>
    cases hcompile : compile declared (depthBound declared) key ⟨c, [], []⟩ with
    | error fault' q =>
      simp only [hget, hcompile, Except.error.injEq] at herror
      subst herror
      rw [← hsearch, hcompile]
      exact ⟨_, rfl⟩
    | ok id q =>
      obtain ⟨added, compiled', -, -, -, hbyId⟩ := h.compile_ok hcompile
      simp [hget, hcompile, hbyId] at herror

/-- A call fails only at a fault of a key that it reaches. -/
theorem Sound.fail_mem_steps (h : c.Sound)
    (herror : (c.resolve declared key).outcome = .error fault) :
    ∃ k, declared.Reaches key k ∧ .fail fault ∈ declared.steps k := by
  obtain ⟨seen, hsearch⟩ := h.search_of_error herror
  exact Declarations.search_error .refl (declared.unseen_lt_depthBound key c.keys) hsearch

theorem Sound.closed_resolve (h : c.Sound) (hclosed : declared.Closed c.keys) (key : Key) :
    declared.Closed (c.resolve declared key).catalog.keys := by
  cases houtcome : (c.resolve declared key).outcome with
  | error fault =>
    rw [Catalog.keys, h.slots_of_error houtcome]
    exact hclosed
  | ok compiled =>
    exact (Declarations.search_ok (h.search_of_ok houtcome)).1.closed_of_closed hclosed

theorem Sound.mem_keys_resolve_iff (h : c.Sound) (hclosed : declared.Closed c.keys)
    (hok : (c.resolve declared key).outcome = .ok compiled) :
    k ∈ (c.resolve declared key).catalog.keys ↔ k ∈ c.keys ∨ declared.Reaches key k := by
  obtain ⟨hexplores, hkey⟩ := Declarations.search_ok (h.search_of_ok hok)
  constructor
  · exact hexplores.reaches k
  · rintro (hk | hreaches)
    · exact hexplores.subset hk
    · exact (hexplores.closed_of_closed hclosed).of_reaches hkey hreaches |>.1

theorem Sound.ok_iff_forall_valid (h : c.Sound) (hclosed : declared.Closed c.keys) :
    (∃ compiled, (c.resolve declared key).outcome = .ok compiled) ↔
      ∀ k, declared.Reaches key k → declared.Valid k := by
  constructor
  · rintro ⟨compiled, hok⟩ k hreaches
    obtain ⟨hexplores, hkey⟩ := Declarations.search_ok (h.search_of_ok hok)
    exact ((hexplores.closed_of_closed hclosed).of_reaches hkey hreaches).2
  · intro hvalid
    cases houtcome : (c.resolve declared key).outcome with
    | ok compiled => exact ⟨compiled, rfl⟩
    | error fault =>
      obtain ⟨k, hreaches, hfail⟩ := h.fail_mem_steps houtcome
      exact absurd hfail (Declarations.valid_iff.mp (hvalid k hreaches) fault)

/-! ## Many calls -/

/-- After calls under fixed declarations, whichever of them failed, the keys are closed. -/
theorem closed_after (declared : Declarations) (earlier : List Key) :
    declared.Closed (empty.after (earlier.map (Call.mk declared))).keys := by
  induction earlier using List.reverseRecOn with
  | nil => exact fun k hk => absurd hk List.not_mem_nil
  | append_singleton earlier key ih =>
    rw [List.map_append, List.map_singleton, after_concat]
    exact (sound_empty.after _).closed_resolve ih key

/-- The size of a catalog grows by the number of the new keys. -/
theorem Sound.size_resolve (h : c.Sound) (declared : Declarations) (key : Key) :
    {k | k ∈ (c.resolve declared key).catalog.keys ∧ k ∉ c.keys}.Finite ∧
      (c.resolve declared key).catalog.size =
        c.size + {k | k ∈ (c.resolve declared key).catalog.keys ∧ k ∉ c.keys}.ncard := by
  obtain ⟨added, hslots, hnew, -⟩ := h.slots_resolve declared key
  have hnodup := (h.resolve declared key).keys
  rw [Catalog.keys, hslots, List.map_append, List.nodup_append'] at hnodup
  have hset : {k | k ∈ (c.resolve declared key).catalog.keys ∧ k ∉ c.keys} =
      ((added.map Slot.key).toFinset : Set Key) := by
    ext k
    simp only [Catalog.keys, hslots, List.map_append, List.mem_append, Set.mem_ofPred_eq,
      List.coe_toFinset]
    constructor
    · rintro ⟨hk | hk, hold⟩
      · exact absurd hk hold
      · exact hk
    · intro hk
      exact ⟨.inr hk, fun hold => hnew hold hk⟩
  rw [hset]
  refine ⟨Finset.finite_toSet _, ?_⟩
  rw [Set.ncard_coe_finset, List.toFinset_card_of_nodup hnodup.2.1, List.length_map, size, hslots,
    List.length_append, size]

/-- Under fixed declarations a table compiles exactly when every key reached from its key is valid,
whatever calls came before. The keys of the catalog are then the old ones and those reached, and
its size grows by as many as are new. -/
theorem compiles_iff_reachable_valid (declared : Declarations) (earlier : List Key) (key : Key) :
    let c := empty.after (earlier.map (Call.mk declared))
    let r := c.resolve declared key
    ((∃ compiled, r.outcome = .ok compiled) ↔ ∀ k, declared.Reaches key k → declared.Valid k) ∧
    ∀ compiled, r.outcome = .ok compiled →
      (∀ k, k ∈ r.catalog.keys ↔ k ∈ c.keys ∨ declared.Reaches key k) ∧
      {k | declared.Reaches key k ∧ k ∉ c.keys}.Finite ∧
      r.catalog.size = c.size + {k | declared.Reaches key k ∧ k ∉ c.keys}.ncard := by
  intro c r
  have hsound : c.Sound := sound_empty.after _
  have hclosed : declared.Closed c.keys := closed_after declared earlier
  refine ⟨hsound.ok_iff_forall_valid hclosed, fun compiled hok => ?_⟩
  have hkeys (k : Key) := hsound.mem_keys_resolve_iff (k := k) hclosed hok
  have hnew :
      {k | declared.Reaches key k ∧ k ∉ c.keys} = {k | k ∈ r.catalog.keys ∧ k ∉ c.keys} := by
    ext k
    simp only [Set.mem_ofPred_eq]
    rw [hkeys k]
    tauto
  rw [hnew]
  exact ⟨hkeys, hsound.size_resolve declared key⟩

/-- Two tables that refer to each other and share a third one, which an earlier call has compiled.
The key of a table that refers to one with two primary keys does not compile. -/
theorem compiles_iff_reachable_valid_staff :
    let employee : EntityType := ⟨0, "Employee"⟩
    let department : EntityType := ⟨1, "Department"⟩
    let site : EntityType := ⟨2, "Site"⟩
    let order : EntityType := ⟨3, "Order"⟩
    let stock : EntityType := ⟨4, "Stock"⟩
    let id := (Field.stored "id" "id").primaryKey
    let link (column table : String) (target : EntityType) :=
      ((Field.stored column column).foreignKey table "id").optionalEntity target
    let declared : Declarations := ⟨[
      (employee, [id, link "post" "department" department, link "site" "site" site]),
      (department, [id, link "head" "employee" employee, link "site" "site" site]),
      (site, [id]), (order, [id, link "stock" "stock" stock]), (stock, [id, id])]⟩
    let staff : Key := ⟨employee, "app", "employee"⟩
    let unit : Key := ⟨department, "app", "department"⟩
    let place : Key := ⟨site, "app", "site"⟩
    let sale : Key := ⟨order, "app", "order"⟩
    let c := empty.after ([sale, place].map (Call.mk declared))
    let r := c.resolve declared staff
    let compiled : Compiled := ⟨3, ⟨"app", "employee", [⟨"id", "id", .primaryKey⟩,
      ⟨"post", "post", .foreignKey "department" "id" 4⟩,
      ⟨"site", "site", .foreignKey "site" "id" 2⟩]⟩⟩
    r.outcome = .ok compiled ∧ (∀ k, declared.Reaches staff k → declared.Valid k) ∧
      c.keys = [place] ∧ r.catalog.keys = [place, staff, unit] ∧
      (∀ k, k ∈ r.catalog.keys ↔ k ∈ c.keys ∨ declared.Reaches staff k) ∧
      {k | declared.Reaches staff k ∧ k ∉ c.keys}.ncard = 2 ∧
      (¬∃ compiled, (c.resolve declared sale).outcome = .ok compiled) ∧
      ¬∀ k, declared.Reaches sale k → declared.Valid k := by
  intro employee department site order stock id link declared staff unit place sale c r compiled
  obtain ⟨hvalid, hcompiled⟩ := compiles_iff_reachable_valid declared [sale, place] staff
  obtain ⟨hvalidSale, -⟩ := compiles_iff_reachable_valid declared [sale, place] sale
  have hok : r.outcome = .ok compiled := by decide +kernel
  have hsizeBefore : c.size = 1 := by decide +kernel
  have hsizeAfter : r.catalog.size = 3 := by decide +kernel
  have hfail : (c.resolve declared sale).outcome = .error (.twoPrimaryKeys "Stock" "id" "id") := by
    decide +kernel
  have hnone : ¬∃ compiled, (c.resolve declared sale).outcome = .ok compiled := by
    rw [hfail]
    simp
  obtain ⟨hkeys, -, hsize⟩ := hcompiled compiled hok
  refine ⟨hok, hvalid.mp ⟨compiled, hok⟩, by decide +kernel, by decide +kernel, hkeys, ?_, hnone,
    fun hall => hnone (hvalidSale.mpr hall)⟩
  have hsum : 3 = 1 + {k | declared.Reaches staff k ∧ k ∉ c.keys}.ncard := by
    rw [← hsizeBefore, ← hsizeAfter]
    exact hsize
  exact Nat.add_left_cancel hsum.symm

end Catalog

end TableMapper
