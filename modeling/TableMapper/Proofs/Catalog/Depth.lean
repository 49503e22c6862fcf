import Mathlib.Data.Set.Card
import TableMapper.Proofs.Catalog.Search
import TableMapper.Proofs.Table.Faults

/-!
# How deep tables are nested

A key reaches finitely many keys, and every compilation inside another one has reserved one of them
that was not reserved before. So compilations are nested no deeper than there are keys ahead, and
one that may go that deep ends like one that may go deeper. The bound that calls use is deep enough.

## Main definitions

* `Declarations.ahead` — the keys that can be reached and were not seen.
* `Declarations.Faulty` — a table has a field that is at fault.
-/

namespace TableMapper

namespace Table

variable {σ : Type} {entity : EntityType}
  {resolve resolve' : EntityType → String → EStateM SchemaFault σ TableId}
  {key : Option String} {f : Field} {fields : List Field} {s : σ}

/-! ## Walks that look up alike -/

theorem roleOf_congr (h : ∀ target name, f.reference? = some (target, name) →
      resolve target name s = resolve' target name s) :
    roleOf entity resolve key f s = roleOf entity resolve' key f s := by
  unfold roleOf
  cases hrelation : f.relation with
  | none => rfl
  | primaryKey => rfl
  | foreignKey table column =>
    simp only
    cases htarget : f.target entity table column with
    | error fault => rfl
    | ok target =>
      have hreference := Field.reference?_of_target hrelation htarget
      exact bind_congr_at (h target table hreference) fun _ _ _ => rfl

/-- Walks end alike when their look-ups do, as long as look-ups keep the states to that. -/
theorem columnsOf_congr (Keeps : σ → Prop)
    (hkeep : ∀ target name s id t, Keeps s → resolve target name s = .ok id t → Keeps t)
    (hresolve : ∀ f ∈ fields.filter Field.isStored, ∀ target name s,
      f.reference? = some (target, name) → Keeps s →
        resolve target name s = resolve' target name s)
    (hs : Keeps s) :
    columnsOf entity resolve key fields s = columnsOf entity resolve' key fields s := by
  induction fields generalizing key s with
  | nil => rfl
  | cons f fields ih =>
    by_cases hstored : f.isStored
    · rw [List.filter_cons_of_pos hstored, List.forall_mem_cons] at hresolve
      have hrole : roleOf entity resolve key f s = roleOf entity resolve' key f s :=
        roleOf_congr fun target name hreference => hresolve.1 target name s hreference hs
      rw [columnsOf, columnsOf, if_pos hstored, if_pos hstored]
      refine bind_congr_at hrole fun role t hok => bind_congr_at ?_ fun _ _ _ => rfl
      exact ih hresolve.2 ((roleOf_ok (fun s t => Keeps s → Keeps t) (fun _ _ _ _ => True)
        (fun _ => id) (fun _ _ _ _ _ hok => ⟨fun hs => hkeep _ _ _ _ _ hs hok, trivial⟩) hok).1 hs)
    · rw [List.filter_cons_of_neg hstored] at hresolve
      rw [columnsOf_of_not_stored (by simpa using hstored),
        columnsOf_of_not_stored (by simpa using hstored)]
      exact ih hresolve hs

end Table

namespace Declarations

variable {declared : Declarations} {root key k : Key} {seen seen' : List Key}

/-! ## The keys ahead -/

/-- The keys that foreign keys refer to from tables of a schema. -/
def references (declared : Declarations) (schema : String) : List Key :=
  (declared.entries.flatMap (·.2)).filterMap (·.referenceIn? schema)

theorem Reaches.mem_references (h : declared.Reaches root key) :
    key ∈ root :: declared.references root.schema := by
  cases h with
  | refl => exact List.mem_cons_self
  | @tail previous _ hreaches hnext =>
    obtain ⟨f, hf, target, name, hreference, rfl⟩ := mem_successors_iff.mp hnext
    obtain ⟨entry, hentry, -, hmem⟩ := exists_entry_of_mem_fields (List.mem_of_mem_filter hf)
    have hprevious : declared.Reaches root previous := hreaches
    have hschema : previous.schema = root.schema := hprevious.scope.1
    refine List.mem_cons_of_mem _
      (List.mem_filterMap.mpr ⟨f, List.mem_flatMap_of_mem hentry hmem, ?_⟩)
    rw [Field.referenceIn?, hreference, ← hschema]
    rfl

theorem finite_reaches (declared : Declarations) (root : Key) :
    {k | declared.Reaches root k}.Finite :=
  (List.finite_toSet (root :: declared.references root.schema)).subset
    fun _ => Reaches.mem_references

theorem length_references_le (declared : Declarations) (schema : String) :
    (declared.references schema).length ≤ (Catalog.foreignNames declared).length := by
  rw [references, Catalog.foreignNames, ← List.filterMap_flatMap, List.length_filterMap_eq_countP,
    List.length_filterMap_eq_countP]
  refine List.countP_mono_left fun f _ hreference => ?_
  rw [Field.referenceIn?, Option.isSome_map, Option.isSome_iff_exists] at hreference
  obtain ⟨reference, hreference⟩ := hreference
  obtain ⟨column, hrelation, -⟩ := Field.reference?_eq_some_iff.mp hreference
  rw [hrelation]
  rfl

theorem ncard_reaches_le_depthBound (declared : Declarations) (root : Key) :
    {k | declared.Reaches root k}.ncard ≤ Catalog.depthBound declared := by
  have hreaches : {k | declared.Reaches root k}.ncard ≤
      (root :: declared.references root.schema).toFinset.card := by
    rw [← Set.ncard_coe_finset]
    refine Set.ncard_le_ncard (fun k hk => ?_) (Finset.finite_toSet _)
    exact List.mem_toFinset.mpr (Reaches.mem_references hk)
  have hcard := List.toFinset_card_le (root :: declared.references root.schema)
  have hlength := declared.length_references_le root.schema
  rw [List.length_cons] at hcard
  unfold Catalog.depthBound
  cases hentries : declared.entries with
  | nil => simp_all [references]
  | cons entry entries =>
    have := Nat.le_mul_of_pos_left ((Catalog.foreignNames declared).length + 1)
      (show 0 < (entry :: entries).length by simp)
    omega

/-- The keys that `root` reaches and that were not seen. -/
def ahead (declared : Declarations) (root : Key) (seen : List Key) : Set Key :=
  {k | declared.Reaches root k ∧ k ∉ seen}

theorem finite_ahead (declared : Declarations) (root : Key) (seen : List Key) :
    (declared.ahead root seen).Finite :=
  (declared.finite_reaches root).subset fun _ hk => hk.1

theorem ncard_ahead_le_of_subset (h : seen ⊆ seen') :
    (declared.ahead root seen').ncard ≤ (declared.ahead root seen).ncard :=
  Set.ncard_le_ncard (fun _ hk => ⟨hk.1, fun hseen => hk.2 (h hseen)⟩) (finite_ahead ..)

theorem ncard_ahead_le (declared : Declarations) (root : Key) (seen : List Key) :
    (declared.ahead root seen).ncard ≤ {k | declared.Reaches root k}.ncard :=
  Set.ncard_le_ncard (fun _ hk => hk.1) (declared.finite_reaches root)

/-- Seeing a key that was ahead leaves fewer keys ahead. -/
theorem ncard_ahead_concat_lt (hreaches : declared.Reaches root key) (hkey : key ∉ seen) :
    (declared.ahead root (seen ++ [key])).ncard < (declared.ahead root seen).ncard := by
  have hsubset : declared.ahead root (seen ++ [key]) ⊆ declared.ahead root seen :=
    fun k hk => ⟨hk.1, fun hseen => hk.2 (by simp [hseen])⟩
  refine Set.ncard_lt_ncard ⟨hsubset, fun hsuperset => ?_⟩ (finite_ahead ..)
  exact (hsuperset ⟨hreaches, hkey⟩).2 (by simp)

/-! ## Faults -/

/-- A stored field of the entity type is at fault. -/
def Faulty (declared : Declarations) (key : Key) (fault : SchemaFault) : Prop :=
  Table.Faulty key.entity [] (declared.fields key.entity) fault

theorem faulty_of_fail_mem_steps {fault : SchemaFault} (h : .fail fault ∈ declared.steps key) :
    declared.Faulty key fault :=
  Table.faulty_of_fail_mem h rfl

end Declarations

namespace Catalog

variable {declared : Declarations} {depth depth' : Nat} {root key : Key} {p q : Pass} {id : TableId}
  {fault : SchemaFault}

/-! ## Depth -/

theorem keys_subset_of_compile (h : compile declared depth key p = .ok id q) :
    p.catalog.keys ⊆ q.catalog.keys := by
  obtain ⟨⟨added, hgrows, -⟩, -⟩ := (compile_grows declared depth).1 _ _ _ _ h
  rw [keys, keys, hgrows.slots, List.map_append]
  exact List.subset_append_left _ _

/-- Compilations that may go as deep as there are keys ahead end alike. -/
theorem compile_congr (hroot : declared.Reaches root key)
    (h : (declared.ahead root p.catalog.keys).ncard ≤ depth)
    (h' : (declared.ahead root p.catalog.keys).ncard ≤ depth') :
    compile declared depth key p = compile declared depth' key p := by
  have hunseen {p : Pass} {key : Key} (hroot : declared.Reaches root key)
      (hslot : p.catalog.slot? key = none) :
      (declared.ahead root (p.reserve key).catalog.keys).ncard <
        (declared.ahead root p.catalog.keys).ncard := by
    change (declared.ahead root (p.catalog.reserve key).keys).ncard < _
    rw [keys_reserve]
    exact Declarations.ncard_ahead_concat_lt hroot (slot?_eq_none_iff.mp hslot)
  induction depth generalizing depth' key p with
  | zero =>
    cases hslot : p.catalog.slot? key with
    | some slot => rw [compile_of_slot? hslot, compile_of_slot? hslot]
    | none =>
      have := hunseen hroot hslot
      omega
  | succ depth ih =>
    cases hslot : p.catalog.slot? key with
    | some slot => rw [compile_of_slot? hslot, compile_of_slot? hslot]
    | none =>
      have hfewer := hunseen hroot hslot
      obtain ⟨depth', rfl⟩ := Nat.exists_eq_add_one_of_ne_zero (n := depth') (by omega)
      -- The walk over the fields starts with fewer keys ahead, and no look-up adds one.
      have htable : compileTable declared depth key (p.reserve key) =
          compileTable declared depth' key (p.reserve key) := by
        refine bind_congr_at (Table.columnsOf_congr
          (fun q => (declared.ahead root q.catalog.keys).ncard ≤ depth ∧
            (declared.ahead root q.catalog.keys).ncard ≤ depth') ?_ ?_ (by omega))
          fun _ _ _ => rfl
        · rintro target name q id r ⟨hq, hq'⟩ hok
          have hless : (declared.ahead root r.catalog.keys).ncard ≤
              (declared.ahead root q.catalog.keys).ncard :=
            Declarations.ncard_ahead_le_of_subset (keys_subset_of_compile hok)
          exact ⟨hless.trans hq, hless.trans hq'⟩
        · rintro f hf target name q hreference ⟨hq, hq'⟩
          have hnext : ⟨target, key.schema, name⟩ ∈ declared.successors key :=
            Declarations.mem_successors_iff.mpr ⟨f, hf, target, name, hreference, rfl⟩
          exact ih (hroot.tail hnext) hq hq'
      rw [compile_succ hslot, compile_succ hslot, htable]

/-- A compilation may go as deep as its key reaches keys: it ends as it does in a call. -/
theorem compile_of_ncard_reaches_le
    (h : {k | declared.Reaches key k}.ncard ≤ depth) :
    compile declared depth key p = compile declared (depthBound declared) key p :=
  compile_congr .refl ((declared.ncard_ahead_le key _).trans h)
    ((declared.ncard_ahead_le key _).trans (declared.ncard_reaches_le_depthBound key))

/-- A compilation that may go deep enough fails only at a field that is at fault, in a table that
it comes to. -/
theorem exists_faulty_of_compile_error (hdepth : {k | declared.Reaches key k}.ncard ≤ depth)
    (h : compile declared depth key p = .error fault q) :
    ∃ k, declared.Reaches key k ∧ declared.Faulty k fault := by
  rw [compile_of_ncard_reaches_le hdepth] at h
  have hsearch := observe_compile declared (depthBound declared) key p
  rw [h] at hsearch
  obtain ⟨k, hreaches, hfail⟩ := Declarations.search_error .refl
    (declared.unseen_lt_depthBound key _) hsearch.symm
  exact ⟨k, hreaches, Declarations.faulty_of_fail_mem_steps hfail⟩

end Catalog

end TableMapper
