import Mathlib.Data.Finset.Card
import Mathlib.Data.List.ProdSigma
import Mathlib.Logic.Relation
import TableMapper.Proofs.Catalog.Growth
import TableMapper.Proofs.Table.Steps

/-!
# Compilation as a search

The keys of tables form a graph: a foreign key leads from the key of its table to the key it refers
to. As far as keys and faults go, a compilation is a depth-first search of that graph, which passes
over the keys it has seen. A search that succeeds has seen everything it can reach; a search that
fails has reached a key that is not valid, and never ends for want of depth.

## Main definitions

* `Declarations.successors`, `Declarations.Reaches` — the graph of keys.
* `Declarations.Valid` — a key whose table has fields without a fault.
* `Declarations.search` — the search.
* `Declarations.Explores` — what a search that succeeds has seen.
* `Declarations.unseen` — how many keys are left for a search to reserve.
-/

namespace TableMapper

/-! ## The graph of keys -/

/-- The key that a foreign key without a fault refers to from a table in the given schema. -/
def Field.referenceIn? (f : Field) (schema : String) : Option Key :=
  f.reference?.map fun reference => ⟨reference.1, schema, reference.2⟩

namespace Declarations

section Graph

variable (declared : Declarations)

/-- The steps of the walk over the fields of a table. -/
def steps (key : Key) : List Table.Step :=
  Table.stepsOf key.entity none (declared.fields key.entity)

/-- The keys that the foreign keys of a table refer to, those at fault left out. -/
def successors (key : Key) : List Key :=
  ((declared.fields key.entity).filter Field.isStored).filterMap (·.referenceIn? key.schema)

/-- The stored fields have no fault: at most one is a primary key, and every foreign key names a
table and a column and holds an optional entity. -/
def Valid (key : Key) : Prop := Table.WellDeclared (declared.fields key.entity)

/-- Foreign keys lead from one key to the other, in any number of steps. -/
def Reaches : Key → Key → Prop :=
  Relation.ReflTransGen fun key next => next ∈ declared.successors key

variable {declared} {key next : Key} {target : EntityType} {name : String} {fault : SchemaFault}

theorem mem_successors_iff :
    next ∈ declared.successors key ↔
      ∃ f ∈ (declared.fields key.entity).filter Field.isStored, ∃ target name,
        f.reference? = some (target, name) ∧ ⟨target, key.schema, name⟩ = next := by
  simp only [successors, Field.referenceIn?, List.mem_filterMap, Option.map_eq_some_iff,
    Prod.exists]

/-- Every look-up is for a successor. -/
theorem mem_successors_of_lookUp (h : .lookUp target name ∈ declared.steps key) :
    ⟨target, key.schema, name⟩ ∈ declared.successors key := by
  obtain ⟨f, hf, hreference⟩ := Table.exists_reference_of_lookUp h
  exact mem_successors_iff.mpr ⟨f, hf, target, name, hreference, rfl⟩

theorem valid_iff : declared.Valid key ↔ ∀ fault, .fail fault ∉ declared.steps key :=
  Table.wellDeclared_iff

/-- A valid table looks up all its successors. -/
theorem Valid.lookUp_mem_steps (h : declared.Valid key) (hnext : next ∈ declared.successors key) :
    ∃ target name, ⟨target, key.schema, name⟩ = next ∧
      .lookUp target name ∈ declared.steps key := by
  obtain ⟨f, hf, target, name, hreference, rfl⟩ := mem_successors_iff.mp hnext
  exact ⟨target, name, rfl, Table.lookUp_mem_stepsOf (valid_iff.mp h) hf hreference⟩

theorem reaches_of_lookUp (h : .lookUp target name ∈ declared.steps key) :
    declared.Reaches key ⟨target, key.schema, name⟩ :=
  .single (mem_successors_of_lookUp h)

end Graph

/-! ## The search -/

/-- Search from a key that was not seen before: first the key itself, then what its steps look up.
The search goes at most `depth` keys deep. -/
def search (declared : Declarations) : (depth : Nat) → Key → EStateM SchemaFault (List Key) Unit
  | depth, key => do
    let seen ← get
    if key ∈ seen then return
    match depth with
    | 0 => throw (.notCompiled key.entity.name)
    | depth + 1 =>
      set (seen ++ [key])
      Table.run (fun target name => search declared depth ⟨target, key.schema, name⟩)
        (declared.steps key)

section Search

variable {declared : Declarations} {depth : Nat} {key : Key} {seen seen' : List Key}
  {fault : SchemaFault}

theorem search_of_mem (h : key ∈ seen) : declared.search depth key seen = .ok ⟨⟩ seen := by
  unfold search
  rw [get_bind, if_pos h]
  rfl

theorem search_zero (h : key ∉ seen) :
    declared.search 0 key seen = .error (.notCompiled key.entity.name) seen := by
  unfold search
  rw [get_bind, if_neg h]
  rfl

theorem search_succ (h : key ∉ seen) :
    declared.search (depth + 1) key seen =
      Table.run (fun target name => declared.search depth ⟨target, key.schema, name⟩)
        (declared.steps key) (seen ++ [key]) := by
  rw [search, get_bind, if_neg h]
  exact set_bind

/-! ## What a search has seen -/

/-- From `seen` to `seen'` only keys were added that `key` reaches. They are valid, and all their
successors are among `seen'`. -/
structure Explores (declared : Declarations) (key : Key) (seen seen' : List Key) : Prop where
  subset : seen ⊆ seen'
  reaches : ∀ k ∈ seen', k ∈ seen ∨ declared.Reaches key k
  closed : ∀ k ∈ seen', k ∈ seen ∨ declared.Valid k ∧ declared.successors k ⊆ seen'

theorem Explores.refl (declared : Declarations) (key : Key) (seen : List Key) :
    declared.Explores key seen seen :=
  ⟨List.Subset.refl seen, fun _ => .inl, fun _ => .inl⟩

theorem Explores.trans {seen₁ seen₂ seen₃ : List Key} (h : declared.Explores key seen₁ seen₂)
    (h' : declared.Explores key seen₂ seen₃) : declared.Explores key seen₁ seen₃ where
  subset := List.Subset.trans h.subset h'.subset
  reaches k hk := by
    rcases h'.reaches k hk with hk | hk
    · exact h.reaches k hk
    · exact .inr hk
  closed k hk := by
    rcases h'.closed k hk with hk | hk
    · refine (h.closed k hk).imp_right ?_
      rintro ⟨hvalid, hsuccessors⟩
      exact ⟨hvalid, List.Subset.trans hsuccessors h'.subset⟩
    · exact .inr hk

theorem Explores.of_reaches {next : Key} (h : declared.Explores next seen seen')
    (hnext : declared.Reaches key next) : declared.Explores key seen seen' :=
  ⟨h.subset, fun k hk => (h.reaches k hk).imp_right hnext.trans, h.closed⟩

/-- A key whose successors were all explored is explored itself. -/
theorem Explores.of_concat (h : declared.Explores key (seen ++ [key]) seen')
    (hvalid : declared.Valid key) (hsuccessors : declared.successors key ⊆ seen') :
    declared.Explores key seen seen' where
  subset := List.Subset.trans (List.subset_append_left _ _) h.subset
  reaches k hk := by
    rcases h.reaches k hk with hk | hk
    · refine (List.mem_append.mp hk).imp_right fun hk => ?_
      rw [List.mem_singleton.mp hk]
      exact .refl
    · exact .inr hk
  closed k hk := by
    rcases h.closed k hk with hk | hk
    · refine (List.mem_append.mp hk).imp_right fun hk => ?_
      rw [List.mem_singleton.mp hk]
      exact ⟨hvalid, hsuccessors⟩
    · exact .inr hk

theorem search_ok (h : declared.search depth key seen = .ok ⟨⟩ seen') :
    declared.Explores key seen seen' ∧ key ∈ seen' := by
  induction depth generalizing key seen seen' with
  | zero =>
    by_cases hmem : key ∈ seen
    · rw [search_of_mem hmem] at h
      cases h
      exact ⟨.refl declared key seen, hmem⟩
    · rw [search_zero hmem] at h
      cases h
  | succ depth ih =>
    by_cases hmem : key ∈ seen
    · rw [search_of_mem hmem] at h
      cases h
      exact ⟨.refl declared key seen, hmem⟩
    · rw [search_succ hmem] at h
      obtain ⟨hexplores, hsteps⟩ := Table.run_ok (declared.Explores key) (.refl declared key)
        (fun _ _ _ => .trans)
        (fun target name s t hlookUp hok => (ih hok).1.of_reaches (reaches_of_lookUp hlookUp)) h
      -- Every step was a look-up, so the key is valid and its successors were searched from.
      have hvalid : declared.Valid key := by
        refine valid_iff.mpr fun fault hfail => ?_
        obtain ⟨target, name, u, v, hstep, -⟩ := hsteps _ hfail
        cases hstep
      refine ⟨hexplores.of_concat hvalid fun next hnext => ?_, hexplores.subset (by simp)⟩
      obtain ⟨target, name, rfl, hlookUp⟩ := hvalid.lookUp_mem_steps hnext
      obtain ⟨target, name, u, v, hstep, hok, hlater⟩ := hsteps _ hlookUp
      cases hstep
      exact hlater.subset (ih hok).2

/-! ## Depth -/

variable {root : Key}

/-- The keys that a search from `root` can come to, as far as their entity types declare fields. -/
def candidates (declared : Declarations) (root : Key) : List Key :=
  (declared.entries.map (·.1) ×ˢ (root.table :: Catalog.foreignNames declared)).map
    fun p => ⟨p.1, root.schema, p.2⟩

/-- How many of the candidates were not seen. -/
def unseen (declared : Declarations) (root : Key) (seen : List Key) : Nat :=
  ((declared.candidates root).toFinset.filter (· ∉ seen)).card

theorem unseen_lt_depthBound (declared : Declarations) (root : Key) (seen : List Key) :
    declared.unseen root seen < Catalog.depthBound declared := by
  have hfilter : declared.unseen root seen ≤ (declared.candidates root).toFinset.card :=
    Finset.card_filter_le _ _
  have hlength : (declared.candidates root).toFinset.card ≤ (declared.candidates root).length :=
    List.toFinset_card_le _
  have hcandidates : (declared.candidates root).length =
      declared.entries.length * ((Catalog.foreignNames declared).length + 1) := by
    simp [candidates, List.length_product]
  unfold Catalog.depthBound
  omega

theorem unseen_le_of_subset (h : seen ⊆ seen') :
    declared.unseen root seen' ≤ declared.unseen root seen := by
  refine Finset.card_le_card fun k hk => ?_
  simp only [Finset.mem_filter] at hk ⊢
  exact ⟨hk.1, fun hseen => hk.2 (h hseen)⟩

theorem exists_entry_of_mem_fields {entity : EntityType} {f : Field}
    (h : f ∈ declared.fields entity) :
    ∃ entry ∈ declared.entries, entry.1 = entity ∧ f ∈ entry.2 := by
  unfold fields at h
  cases hfind : declared.entries.find? (·.1 == entity) with
  | none => simp [hfind] at h
  | some entry =>
    rw [hfind] at h
    exact ⟨entry, List.mem_of_find?_eq_some hfind, by simpa using List.find?_some hfind, h⟩

/-- Foreign keys stay in one schema, and lead to tables that foreign keys name. -/
theorem Reaches.scope (h : declared.Reaches root key) :
    key.schema = root.schema ∧ key.table ∈ root.table :: Catalog.foreignNames declared := by
  induction h with
  | refl => exact ⟨rfl, List.mem_cons_self⟩
  | tail _ hnext ih =>
    obtain ⟨f, hf, target, name, hreference, rfl⟩ := mem_successors_iff.mp hnext
    obtain ⟨column, hrelation, -⟩ := Field.reference?_eq_some_iff.mp hreference
    obtain ⟨entry, hentry, -, hmem⟩ := exists_entry_of_mem_fields (List.mem_of_mem_filter hf)
    refine ⟨ih.1, List.mem_cons_of_mem _ ?_⟩
    simp only [Catalog.foreignNames, List.mem_flatMap, List.mem_filterMap]
    exact ⟨entry, hentry, f, hmem, by simp [hrelation]⟩

theorem mem_candidates (h : declared.Reaches root key) (hsteps : declared.steps key ≠ []) :
    key ∈ declared.candidates root := by
  obtain ⟨hschema, htable⟩ := h.scope
  have hfields : declared.fields key.entity ≠ [] := by
    intro hnil
    exact hsteps (by rw [steps, hnil]; rfl)
  obtain ⟨f, hf⟩ := List.exists_mem_of_ne_nil _ hfields
  obtain ⟨entry, hentry, hentity, -⟩ := exists_entry_of_mem_fields hf
  refine List.mem_map.mpr ⟨(key.entity, key.table), ?_, by rw [← hschema]⟩
  exact List.mem_product.mpr ⟨List.mem_map.mpr ⟨entry, hentry, hentity⟩, htable⟩

/-- Reserving a key whose fields have steps leaves fewer candidates. -/
theorem unseen_concat_lt (h : declared.Reaches root key) (hsteps : declared.steps key ≠ [])
    (hmem : key ∉ seen) : declared.unseen root (seen ++ [key]) < declared.unseen root seen := by
  refine Finset.card_lt_card (Finset.ssubset_iff_of_subset ?_ |>.mpr ⟨key, ?_, ?_⟩)
  · intro k hk
    simp only [Finset.mem_filter, List.mem_append, not_or] at hk ⊢
    exact ⟨hk.1, hk.2.1⟩
  · simp only [Finset.mem_filter, List.mem_toFinset]
    exact ⟨mem_candidates h hsteps, hmem⟩
  · simp

/-- A search that is deep enough for the candidates left fails only at a fault of a key that it
reaches. -/
theorem search_error (hroot : declared.Reaches root key)
    (hdepth : declared.unseen root seen < depth)
    (h : declared.search depth key seen = .error fault seen') :
    ∃ k, declared.Reaches key k ∧ .fail fault ∈ declared.steps k := by
  induction depth generalizing key seen with
  | zero => omega
  | succ depth ih =>
    by_cases hmem : key ∈ seen
    · rw [search_of_mem hmem] at h
      cases h
    · rw [search_succ hmem] at h
      rcases Table.run_error (· ⊆ ·) List.Subset.refl (fun _ _ _ => List.Subset.trans)
        (fun _ _ _ _ _ hok => (search_ok hok).1.subset) h with
        hfail | ⟨target, name, u, hlookUp, hsubset, herror⟩
      · exact ⟨key, .refl, hfail⟩
      · have hnext := reaches_of_lookUp hlookUp
        have hfewer := unseen_concat_lt hroot (List.ne_nil_of_mem hlookUp) hmem
        have hleft : declared.unseen root u ≤ declared.unseen root (seen ++ [key]) :=
          unseen_le_of_subset hsubset
        obtain ⟨k, hk, hfail⟩ := ih (hroot.trans hnext) (by omega) herror
        exact ⟨k, hnext.trans hk, hfail⟩

end Search

end Declarations

namespace Catalog

variable {declared : Declarations} {depth : Nat} {key : Key}

theorem keys_fill (c : Catalog) (key : Key) (table : Table) : (c.fill key table).keys = c.keys := by
  simp only [keys, fill, List.map_map]
  refine List.map_congr_left fun slot _ => ?_
  simp only [Function.comp_apply]
  split <;> rfl

theorem keys_reserve (c : Catalog) (key : Key) : (c.reserve key).keys = c.keys ++ [key] := by
  simp [keys, reserve]

theorem mem_keys_of_slot? {c : Catalog} {slot : Slot} (h : c.slot? key = some slot) :
    key ∈ c.keys := by
  by_contra hmem
  rw [slot?_eq_none_iff.mpr hmem] at h
  cases h

/-- A compilation reserves the keys that the search sees, in the same order, and ends alike. -/
theorem observe_compile (declared : Declarations) (depth : Nat) (key : Key) (p : Pass) :
    Table.observe (·.catalog.keys) (compile declared depth key p) =
      declared.search depth key p.catalog.keys := by
  induction depth generalizing key p with
  | zero =>
    cases hslot : p.catalog.slot? key with
    | some slot =>
      rw [compile_of_slot? hslot, Declarations.search_of_mem (mem_keys_of_slot? hslot)]
      rfl
    | none =>
      rw [compile_zero hslot, Declarations.search_zero (slot?_eq_none_iff.mp hslot)]
      rfl
  | succ depth ih =>
    cases hslot : p.catalog.slot? key with
    | some slot =>
      rw [compile_of_slot? hslot, Declarations.search_of_mem (mem_keys_of_slot? hslot)]
      rfl
    | none =>
      rw [compile_succ hslot, Declarations.search_succ (slot?_eq_none_iff.mp hslot)]
      -- Compiling the table takes the steps of its fields, each look-up one level deeper.
      have htable :
          Table.observe (·.catalog.keys) (compileTable declared depth key (p.reserve key)) =
          Table.run (fun target name => declared.search depth ⟨target, key.schema, name⟩)
            (declared.steps key) (p.catalog.keys ++ [key]) := by
        rw [← keys_reserve]
        exact (Table.observe_bind_pure _ _ _ _).trans
          (Table.observe_columnsOf _ (fun target name q => ih ⟨target, key.schema, name⟩ q) _ _ _)
      rw [← htable]
      cases compileTable declared depth key (p.reserve key) with
      | ok table q => simp only [Table.observe, keys_fill]
      | error fault q => rfl

end Catalog

end TableMapper
