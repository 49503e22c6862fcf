import TableMapper.Proofs.Catalog.Content
import TableMapper.Proofs.Catalog.Reachable

/-!
# Outcomes do not depend on what came before

Under fixed declarations a call ends alike on every catalog: it succeeds with a table of the same
content, or it fails with the same fault. A search on a catalog with tables and one on a catalog
without any are followed side by side. Where the first passes over a key that is there already, the
second goes on among valid keys that lead nowhere else, so it comes back without a fault.

## Main definitions

* `Declarations.Covers` — how what the two searches have seen is related.
* `Catalog.Resolution.SameOutcome` — two calls end alike.
-/

namespace TableMapper

namespace Declarations

variable {declared : Declarations} {root key : Key} {cached seen seen' : List Key} {depth : Nat}

/-! ## Two searches side by side -/

/-- What the search that starts from `cached` has seen is what the other one has seen together with
`cached`, and the other one is deep enough for the candidates it has left. -/
structure Covers (declared : Declarations) (root : Key) (cached : List Key) (depth : Nat)
    (seen seen' : List Key) : Prop where
  mem_iff : ∀ k, k ∈ seen ↔ k ∈ seen' ∨ k ∈ cached
  deep : declared.unseen root seen' < depth

theorem Covers.concat {depth' : Nat} (h : declared.Covers root cached depth seen seen')
    (hdeep : declared.unseen root (seen' ++ [key]) < depth') :
    declared.Covers root cached depth' (seen ++ [key]) (seen' ++ [key]) where
  mem_iff k := by
    have := h.mem_iff k
    simp only [List.mem_append, List.mem_singleton]
    tauto
  deep := hdeep

theorem Covers.succ (h : declared.Covers root cached depth seen seen') :
    declared.Covers root cached (depth + 1) seen seen' :=
  ⟨h.mem_iff, Nat.lt_succ_of_lt h.deep⟩

/-- Among closed keys the second search comes back, and has seen no other keys. -/
theorem Covers.search_of_mem_cached (hcached : declared.Closed cached)
    (hroot : declared.Reaches root key) (h : declared.Covers root cached depth seen seen')
    (hkey : key ∈ cached) :
    ∃ seen'', declared.search depth key seen' = .ok ⟨⟩ seen'' ∧
      declared.Covers root cached depth seen seen'' := by
  cases hsearch : declared.search depth key seen' with
  | error fault seen'' =>
    obtain ⟨k, hreaches, hfail⟩ := search_error hroot h.deep hsearch
    have hvalid := (hcached.of_reaches hkey hreaches).2
    exact absurd hfail (valid_iff.mp hvalid fault)
  | ok _ seen'' =>
    obtain ⟨hexplores, -⟩ := search_ok hsearch
    refine ⟨seen'', rfl, fun k => ?_, lt_of_le_of_lt (unseen_le_of_subset hexplores.subset) h.deep⟩
    rw [h.mem_iff k]
    constructor
    · exact Or.imp_left (hexplores.subset ·)
    · rintro (hk | hk)
      · rcases hexplores.reaches k hk with hk | hreaches
        · exact .inl hk
        · exact .inr (hcached.of_reaches hkey hreaches).1
      · exact .inr hk

/-- A search that passes over closed keys ends like one that does not. -/
theorem alike_search (hcached : declared.Closed cached) (hroot : declared.Reaches root key)
    (h : declared.Covers root cached depth seen seen') :
    Table.Alike (declared.Covers root cached depth) (declared.search depth key seen)
      (declared.search depth key seen') := by
  induction depth generalizing key seen seen' with
  | zero => exact absurd h.deep (Nat.not_lt_zero _)
  | succ depth ih =>
    by_cases hmem' : key ∈ seen'
    · rw [search_of_mem hmem', search_of_mem ((h.mem_iff key).mpr (.inl hmem'))]
      exact .ok h
    by_cases hkey : key ∈ cached
    · obtain ⟨seen'', hsearch, hcovers⟩ := h.search_of_mem_cached hcached hroot hkey
      rw [search_of_mem ((h.mem_iff key).mpr (.inr hkey)), hsearch]
      exact .ok hcovers
    have hmem : key ∉ seen := fun hk => ((h.mem_iff key).mp hk).elim hmem' hkey
    rw [search_succ hmem, search_succ hmem']
    by_cases hsteps : declared.steps key = []
    · -- The entity type may not even be declared, so reserving its key takes no candidate away.
      rw [hsteps]
      refine .ok (h.concat ?_)
      exact lt_of_le_of_lt (unseen_le_of_subset (List.subset_append_left _ _)) h.deep
    have hdeep : declared.unseen root (seen' ++ [key]) < depth := by
      have hfewer := unseen_concat_lt hroot hsteps hmem'
      have := h.deep
      omega
    refine (Table.alike_run (fun target name s t hlookUp hcovers => ?_) (h.concat hdeep)).mono
      fun _ _ => Covers.succ
    exact ih (hroot.trans (reaches_of_lookUp hlookUp)) hcovers

end Declarations

namespace Catalog

variable {declared : Declarations} {key k : Key} {c : Catalog}

/-! ## Outcomes -/

/-- Both calls succeed, with tables of the same content, or both fail with one fault. -/
inductive Resolution.SameOutcome (r r' : Resolution) : Prop
  | ok {compiled compiled' : Compiled} : r.outcome = .ok compiled → r'.outcome = .ok compiled' →
      SameContent r.catalog compiled r'.catalog compiled' → SameOutcome r r'
  | error {fault : SchemaFault} : r.outcome = .error fault → r'.outcome = .error fault →
      SameOutcome r r'

/-- On a catalog with closed keys a call fails exactly as it does on the empty one. -/
theorem Sound.error_iff_empty (h : c.Sound) (hclosed : declared.Closed c.keys)
    {fault : SchemaFault} :
    (c.resolve declared key).outcome = .error fault ↔
      (empty.resolve declared key).outcome = .error fault := by
  have halike : Table.Alike (declared.Covers key c.keys (depthBound declared))
      (declared.search (depthBound declared) key c.keys)
      (declared.search (depthBound declared) key empty.keys) := by
    refine Declarations.alike_search hclosed .refl ⟨fun k => ?_, ?_⟩
    · simp [empty, Catalog.keys]
    · exact declared.unseen_lt_depthBound key _
  cases houtcome : (c.resolve declared key).outcome with
  | error fault' =>
    obtain ⟨seen, hsearch⟩ := h.search_of_error houtcome
    rw [hsearch] at halike
    cases houtcome' : (empty.resolve declared key).outcome with
    | error fault'' =>
      obtain ⟨seen', hsearch'⟩ := sound_empty.search_of_error houtcome'
      rw [hsearch'] at halike
      cases halike
      rfl
    | ok compiled =>
      rw [sound_empty.search_of_ok houtcome'] at halike
      cases halike
  | ok compiled =>
    rw [h.search_of_ok houtcome] at halike
    cases houtcome' : (empty.resolve declared key).outcome with
    | error fault' =>
      obtain ⟨seen', hsearch'⟩ := sound_empty.search_of_error houtcome'
      rw [hsearch'] at halike
      cases halike
    | ok compiled' => simp

/-- After any two histories of calls under fixed declarations, a call ends alike. -/
theorem sameOutcome_after (declared : Declarations) (earlier earlier' : List Key) (key : Key) :
    ((empty.after (earlier.map (Call.mk declared))).resolve declared key).SameOutcome
      ((empty.after (earlier'.map (Call.mk declared))).resolve declared key) := by
  have hsound (earlier : List Key) : (empty.after (earlier.map (Call.mk declared))).Sound :=
    sound_empty.after _
  have herror (earlier : List Key) (fault : SchemaFault) :
      ((empty.after (earlier.map (Call.mk declared))).resolve declared key).outcome = .error fault ↔
        (empty.resolve declared key).outcome = .error fault :=
    (hsound earlier).error_iff_empty (closed_after declared earlier)
  have hreflects (earlier : List Key) : Reflects declared
      ((empty.after (earlier.map (Call.mk declared))).resolve declared key).catalog := by
    have := reflects_after declared (earlier ++ [key])
    rwa [List.map_append, List.map_singleton, after_concat] at this
  cases houtcome :
      ((empty.after (earlier.map (Call.mk declared))).resolve declared key).outcome with
  | error fault =>
    exact .error houtcome ((herror earlier' fault).mpr ((herror earlier fault).mp houtcome))
  | ok compiled =>
    cases houtcome' :
        ((empty.after (earlier'.map (Call.mk declared))).resolve declared key).outcome with
    | error fault =>
      have := (herror earlier fault).mpr ((herror earlier' fault).mp houtcome')
      rw [houtcome] at this
      cases this
    | ok compiled' =>
      refine .ok houtcome houtcome' ?_
      exact (hreflects earlier).sameContent (hreflects earlier')
        ((hsound earlier).holds_of_ok houtcome) ((hsound earlier').holds_of_ok houtcome')

/-- The keys of a catalog are those reached from a key that was asked for and that reaches valid
keys only. -/
theorem mem_keys_after_iff (declared : Declarations) (earlier : List Key) :
    k ∈ (empty.after (earlier.map (Call.mk declared))).keys ↔
      ∃ key ∈ earlier, (∀ k', declared.Reaches key k' → declared.Valid k') ∧
        declared.Reaches key k := by
  induction earlier using List.reverseRecOn with
  | nil => simp [after, empty, keys]
  | append_singleton earlier key ih =>
    have hsound : (empty.after (earlier.map (Call.mk declared))).Sound := sound_empty.after _
    have hclosed := closed_after declared earlier
    have hvalid :
        (∃ compiled, ((empty.after (earlier.map (Call.mk declared))).resolve declared key).outcome =
          .ok compiled) ↔ ∀ k', declared.Reaches key k' → declared.Valid k' :=
      hsound.ok_iff_forall_valid hclosed
    rw [List.map_append, List.map_singleton, after_concat]
    simp only [List.mem_append, List.mem_singleton]
    cases houtcome :
        ((empty.after (earlier.map (Call.mk declared))).resolve declared key).outcome with
    | error fault =>
      have hfails : ¬∀ k', declared.Reaches key k' → declared.Valid k' := by
        rw [← hvalid, houtcome]
        simp
      rw [keys, hsound.slots_of_error houtcome, ← keys, ih]
      grind
    | ok compiled =>
      rw [hsound.mem_keys_resolve_iff hclosed houtcome, ih]
      have hall := hvalid.mp ⟨compiled, houtcome⟩
      grind

/-- Under fixed declarations a call ends on any catalog as it does on an empty one. In whatever
order tables are asked for, each call ends alike, and the catalog has the same keys in the end. -/
theorem outcomes_ignore_history (declared : Declarations) :
    (∀ (earlier : List Key) (key : Key),
      ((empty.after (earlier.map (Call.mk declared))).resolve declared key).SameOutcome
        (empty.resolve declared key)) ∧
    ∀ keys keys' : List Key, (∀ k, k ∈ keys ↔ k ∈ keys') →
      (∀ (before : List Key) (key : Key) (rest before' rest' : List Key),
        keys = before ++ key :: rest → keys' = before' ++ key :: rest' →
        ((empty.after (before.map (Call.mk declared))).resolve declared key).SameOutcome
          ((empty.after (before'.map (Call.mk declared))).resolve declared key)) ∧
      ∀ k, k ∈ (empty.after (keys.map (Call.mk declared))).keys ↔
        k ∈ (empty.after (keys'.map (Call.mk declared))).keys := by
  refine ⟨fun earlier key => sameOutcome_after declared earlier [] key, fun keys keys' hkeys => ?_⟩
  refine ⟨fun before key _ before' _ _ _ => sameOutcome_after declared before before' key,
    fun k => ?_⟩
  rw [mem_keys_after_iff, mem_keys_after_iff]
  simp only [hkeys]

/-- Two tables that refer to each other, and a third one that refers to one of them and to a table
with two primary keys. -/
theorem outcomes_ignore_history_orders :
    let employee : EntityType := ⟨0, "Employee"⟩
    let department : EntityType := ⟨1, "Department"⟩
    let order : EntityType := ⟨2, "Order"⟩
    let stock : EntityType := ⟨3, "Stock"⟩
    let id := (Field.stored "id" "id").primaryKey
    let link (column table : String) (target : EntityType) :=
      ((Field.stored column column).foreignKey table "id").optionalEntity target
    let declared : Declarations := ⟨[(employee, [id, link "post" "department" department]),
      (department, [id, link "head" "employee" employee]),
      (order, [id, link "clerk" "employee" employee, link "stock" "stock" stock]),
      (stock, [id, id])]⟩
    let staff : Key := ⟨employee, "app", "employee"⟩
    let unit : Key := ⟨department, "app", "department"⟩
    let sale : Key := ⟨order, "app", "order"⟩
    let keys := [unit, sale, staff]
    let c := empty.after ([unit].map (Call.mk declared))
    let table (target : TableId) : Table := ⟨"app", "employee", [⟨"id", "id", .primaryKey⟩,
      ⟨"post", "post", .foreignKey "department" "id" target⟩]⟩
    ((c.resolve declared staff).outcome = .ok ⟨1, table 0⟩ ∧
      (empty.resolve declared staff).outcome = .ok ⟨0, table 1⟩ ∧
      (c.resolve declared staff).SameOutcome (empty.resolve declared staff)) ∧
    ((c.resolve declared sale).outcome = .error (.twoPrimaryKeys "Stock" "id" "id") ∧
      (c.resolve declared sale).SameOutcome (empty.resolve declared sale)) ∧
    (∀ k, k ∈ keys ↔ k ∈ keys.reverse) ∧ keys = [unit] ++ sale :: [staff] ∧
    keys.reverse = [staff] ++ sale :: [unit] ∧
    (c.resolve declared sale).SameOutcome
      ((empty.after ([staff].map (Call.mk declared))).resolve declared sale) ∧
    ∀ k, k ∈ (empty.after (keys.map (Call.mk declared))).keys ↔
      k ∈ (empty.after (keys.reverse.map (Call.mk declared))).keys := by
  intro employee department order stock id link declared staff unit sale keys c table
  obtain ⟨hempty, horders⟩ := outcomes_ignore_history declared
  have hkeys : ∀ k, k ∈ keys ↔ k ∈ keys.reverse := fun k => List.mem_reverse.symm
  obtain ⟨houtcomes, hcached⟩ := horders keys keys.reverse hkeys
  refine ⟨⟨by decide +kernel, by decide +kernel, hempty [unit] staff⟩,
    ⟨by decide +kernel, hempty [unit] sale⟩, hkeys, rfl, rfl, ?_, hcached⟩
  exact houtcomes [unit] sale [staff] [staff] [unit] rfl rfl

end Catalog

end TableMapper
