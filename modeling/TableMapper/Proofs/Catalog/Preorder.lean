import TableMapper.Proofs.Catalog.Depth
import TableMapper.Proofs.Catalog.Reachable

/-!
# The order in which keys are reserved

A call reserves keys depth first: a key, then what its foreign keys lead to in the order they are
declared, each together with all that lies behind it, and never a key that has a slot. The fields
of an entity type are looked up once for each key that is reserved. A walk of this kind ends on any
declarations, however their foreign keys lead back to one another.

## Main definitions

* `Declarations.Visits` — the keys that a depth-first walk comes to, in order.
* `Declarations.Traces` — a search sees the keys of a walk, up to the point where it fails.
* `Catalog.reservedBy` — the keys that a call reserves.
* `Catalog.Reserves` — how a call reserves its keys.
-/

namespace TableMapper

/-! ## Keys that are looked up -/

/-- The key that a step in a table of the given schema looks up. -/
def Table.Step.key? (schema : String) : Table.Step → Option Key
  | .lookUp target name => some ⟨target, schema, name⟩
  | .fail _ => none

/-- The walk over fields looks up the keys that they refer to, all of them if there is no fault. -/
theorem Table.exists_filterMap_stepsOf (entity : EntityType) (key : Option String)
    (fields : List Field) (schema : String) :
    ∃ more, (fields.filter Field.isStored).filterMap (·.referenceIn? schema) =
        (stepsOf entity key fields).filterMap (Step.key? schema) ++ more ∧
      ((∀ fault, .fail fault ∉ stepsOf entity key fields) → more = []) := by
  fun_induction stepsOf entity key fields with
  | case1 => exact ⟨[], rfl, fun _ => rfl⟩
  | case2 key f fields hstored hrelation ih =>
    have hreference : f.referenceIn? schema = none := by
      simp [Field.referenceIn?, Field.reference?, hrelation]
    rwa [List.filter_cons_of_pos hstored, List.filterMap_cons, hreference]
  | case3 f fields hstored hrelation first => exact ⟨_, rfl, fun hfail => by simp at hfail⟩
  | case4 f fields hstored hrelation ih =>
    have hreference : f.referenceIn? schema = none := by
      simp [Field.referenceIn?, Field.reference?, hrelation]
    rwa [List.filter_cons_of_pos hstored, List.filterMap_cons, hreference]
  | case5 key f fields hstored table column hrelation fault htarget =>
    exact ⟨_, rfl, fun hfail => by simp at hfail⟩
  | case6 key f fields hstored table column hrelation target htarget ih =>
    obtain ⟨more, hmore, hall⟩ := ih
    have hreference : f.referenceIn? schema = some ⟨target, schema, table⟩ := by
      rw [Field.referenceIn?, Field.reference?_of_target hrelation htarget]
      rfl
    refine ⟨more, ?_, fun hfail => hall fun fault hmem => hfail fault (.tail _ hmem)⟩
    rw [List.filter_cons_of_pos hstored, List.filterMap_cons, hreference, hmore]
    rfl
  | case7 key f fields hstored ih => rwa [List.filter_cons_of_neg hstored]

namespace Declarations

variable {declared : Declarations} {root key : Key} {seen keys visited visited' : List Key}
  {depth : Nat}

/-! ## Depth-first walks -/

/-- From the keys to the right of `seen` on, a depth-first walk comes to `visited`: it passes over
keys that were seen, and behind any other key it goes on with the successors of that key before it
comes to the next one. -/
inductive Visits (declared : Declarations) : (seen keys visited : List Key) → Prop
  | done {seen : List Key} : Visits declared seen [] []
  | skip {seen keys visited : List Key} {key : Key} : key ∈ seen →
      Visits declared seen keys visited → Visits declared seen (key :: keys) visited
  | visit {seen keys below later : List Key} {key : Key} : key ∉ seen →
      Visits declared (seen ++ [key]) (declared.successors key) below →
      Visits declared (seen ++ key :: below) keys later →
      Visits declared seen (key :: keys) (key :: below ++ later)

/-- Every walk ends. -/
theorem exists_visits (h : ∀ k ∈ keys, declared.Reaches root k) :
    ∃ visited, declared.Visits seen keys visited := by
  -- Behind every key that is visited, fewer keys are ahead.
  induction hn : (declared.ahead root seen).ncard using Nat.strong_induction_on
    generalizing seen keys with
  | _ n ih =>
    induction keys with
    | nil => exact ⟨[], .done⟩
    | cons key keys ihkeys =>
      obtain ⟨hkey, hkeys⟩ := List.forall_mem_cons.mp h
      by_cases hseen : key ∈ seen
      · obtain ⟨visited, hvisited⟩ := ihkeys hkeys
        exact ⟨visited, .skip hseen hvisited⟩
      · have hfewer := ncard_ahead_concat_lt hkey hseen
        obtain ⟨below, hbelow⟩ := ih _ (hn ▸ hfewer)
          (fun k (hk : k ∈ declared.successors key) => hkey.tail hk) rfl
        have hless : (declared.ahead root (seen ++ key :: below)).ncard ≤
            (declared.ahead root (seen ++ [key])).ncard :=
          ncard_ahead_le_of_subset (by simp)
        obtain ⟨later, hlater⟩ := ih _ (hn ▸ lt_of_le_of_lt hless hfewer) hkeys rfl
        exact ⟨_, .visit hseen hbelow hlater⟩

theorem visits_nil_iff : declared.Visits seen [] visited ↔ visited = [] := by
  constructor
  · rintro ⟨⟩
    rfl
  · rintro rfl
    exact .done

theorem visits_singleton_of_mem (h : key ∈ seen) :
    declared.Visits seen [key] visited ↔ visited = [] := by
  constructor
  · intro hvisits
    cases hvisits with
    | skip _ hnil => exact visits_nil_iff.mp hnil
    | visit hseen => exact absurd h hseen
  · rintro rfl
    exact .skip h .done

/-- A walk from several keys is one from the first and then one from the others. -/
theorem Visits.exists_append (h : declared.Visits seen (key :: keys) visited) :
    ∃ first later, declared.Visits seen [key] first ∧
      declared.Visits (seen ++ first) keys later ∧ visited = first ++ later := by
  cases h with
  | skip hseen hlater => exact ⟨[], visited, .skip hseen .done, by simpa using hlater, rfl⟩
  | @visit _ _ below later _ hseen hbelow hlater =>
    refine ⟨key :: below, later, ?_, hlater, rfl⟩
    simpa using Visits.visit hseen hbelow .done

/-- No other walk from the same keys is possible. -/
theorem Visits.unique (h : declared.Visits seen keys visited)
    (h' : declared.Visits seen keys visited') : visited = visited' := by
  induction h generalizing visited' with
  | done => exact (visits_nil_iff.mp h').symm
  | skip hseen _ ih =>
    cases h' with
    | skip _ hlater' => exact ih hlater'
    | visit hnew' => exact absurd hseen hnew'
  | visit hnew _ _ ihbelow ihlater =>
    cases h' with
    | skip hseen' => exact absurd hseen' hnew
    | visit _ hbelow' hlater' =>
      obtain rfl := ihbelow hbelow'
      rw [ihlater hlater']

/-! ## Searches -/

/-- A search that succeeds has seen `visited` behind `seen`; one that fails has seen a part of it,
from the left. -/
def Traces (seen visited : List Key) : EStateM.Result SchemaFault (List Key) Unit → Prop
  | .ok _ seen' => seen' = seen ++ visited
  | .error _ seen' => ∃ added, added <+: visited ∧ seen' = seen ++ added

theorem Traces.append {x : EStateM.Result SchemaFault (List Key) Unit} {first : List Key}
    (h : Traces (seen ++ first) visited x) : Traces seen (first ++ visited) x := by
  cases x with
  | ok _ seen' => exact Eq.trans h (List.append_assoc ..)
  | error fault seen' =>
    obtain ⟨added, hadded, rfl⟩ := h
    exact ⟨first ++ added, (List.prefix_append_right_inj _).mpr hadded, List.append_assoc ..⟩

/-- Steps trace the walk from the keys they look up; if they end at a fault, keys may follow that
are not looked up. -/
theorem traces_run {schema : String} {steps : List Table.Step} {more : List Key}
    {resolve : EntityType → String → EStateM SchemaFault (List Key) Unit}
    (hresolve : ∀ target name seen visited,
      declared.Visits seen [⟨target, schema, name⟩] visited →
        Traces seen visited (resolve target name seen))
    (hmore : (∀ fault, .fail fault ∉ steps) → more = [])
    (hvisits : declared.Visits seen (steps.filterMap (Table.Step.key? schema) ++ more) visited) :
    Traces seen visited (Table.run resolve steps seen) := by
  induction steps generalizing seen visited with
  | nil =>
    rw [hmore (by simp)] at hvisits
    rw [visits_nil_iff.mp hvisits]
    exact (List.append_nil seen).symm
  | cons step steps ih =>
    cases step with
    | fail fault => exact ⟨[], List.nil_prefix, (List.append_nil seen).symm⟩
    | lookUp target name =>
      obtain ⟨first, later, hfirst, hlater, rfl⟩ := Visits.exists_append hvisits
      have hfound := hresolve target name seen first hfirst
      change Traces seen _ (EStateM.bind (resolve target name) _ seen)
      unfold EStateM.bind
      cases hresult : resolve target name seen with
      | ok _ u =>
        rw [hresult] at hfound
        obtain rfl : u = seen ++ first := hfound
        exact (ih (fun hfail => hmore (by simpa using hfail)) hlater).append
      | error fault u =>
        rw [hresult] at hfound
        obtain ⟨added, hadded, rfl⟩ := hfound
        exact ⟨added, hadded.trans (List.prefix_append ..), rfl⟩

/-- A search traces the walk from its key. -/
theorem traces_search (hvisits : declared.Visits seen [key] visited) :
    Traces seen visited (declared.search depth key seen) := by
  induction depth generalizing key seen visited with
  | zero =>
    by_cases hseen : key ∈ seen
    · rw [search_of_mem hseen, (visits_singleton_of_mem hseen).mp hvisits]
      exact (List.append_nil seen).symm
    · rw [search_zero hseen]
      exact ⟨[], List.nil_prefix, (List.append_nil seen).symm⟩
  | succ depth ih =>
    cases hvisits with
    | skip hseen hnil =>
      rw [search_of_mem hseen, visits_nil_iff.mp hnil]
      exact (List.append_nil seen).symm
    | @visit _ _ below later _ hseen hbelow hnil =>
      obtain ⟨more, hsuccessors, hmore⟩ := Table.exists_filterMap_stepsOf key.entity none
        (declared.fields key.entity) key.schema
      rw [search_succ hseen, visits_nil_iff.mp hnil, List.append_nil]
      rw [successors, hsuccessors] at hbelow
      exact (traces_run (fun _ _ _ _ => ih) hmore hbelow).append

end Declarations

namespace Catalog

variable {c : Catalog} {declared : Declarations} {key : Key}

/-! ## Calls -/

/-- The keys that a call reserves, in order. When it fails they are released at its end. -/
def reservedBy (c : Catalog) (declared : Declarations) (key : Key) : List Key :=
  match c.get? key with
  | some _ => []
  | none =>
    match compile declared (depthBound declared) key ⟨c, [], []⟩ with
    | .ok _ q => q.reserved
    | .error _ q => q.reserved

/-- What a call does to reserve its keys, none of which was in the catalog before: it looks up the
fields of each once, in the order of a depth-first walk from the key that is asked for. It stops on
the way when it fails. -/
structure Reserves (c : Catalog) (declared : Declarations) (key : Key) (reserved : List Key)
    (r : Resolution) : Prop where
  nodup : reserved.Nodup
  new : c.keys.Disjoint reserved
  reflected : r.reflected = reserved.map Key.entity
  walk : ∀ visited, declared.Visits c.keys [key] visited →
    reserved <+: visited ∧ ∀ compiled, r.outcome = .ok compiled → reserved = visited
  keys : ∀ compiled, r.outcome = .ok compiled → r.catalog.keys = c.keys ++ reserved

theorem Pass.GrowsBy.keys {p q : Pass} {added : List Slot} (h : p.GrowsBy q added) :
    q.catalog.keys = p.catalog.keys ++ added.map Slot.key := by
  rw [Catalog.keys, h.slots, List.map_append, Catalog.keys]

/-- The slots of a pass that starts from a catalog were appended for the keys of a walk. -/
theorem Pass.GrowsBy.reserves {q : Pass} {added : List Slot} {r : Resolution}
    (h : Pass.GrowsBy ⟨c, [], []⟩ q added) (hreflected : r.reflected = q.reflected)
    (hwalk : ∀ visited, declared.Visits c.keys [key] visited →
      added.map Slot.key <+: visited ∧
        ∀ compiled, r.outcome = .ok compiled → added.map Slot.key = visited)
    (hkeys : ∀ compiled, r.outcome = .ok compiled → r.catalog.keys = q.catalog.keys) :
    c.Reserves declared key q.reserved r := by
  have hreserved : q.reserved = added.map Slot.key := h.reserved.trans (List.nil_append _)
  rw [hreserved]
  refine ⟨h.nodup, h.new, ?_, hwalk, fun compiled hok => (hkeys compiled hok).trans h.keys⟩
  rw [hreflected, h.reflected, List.map_map]
  rfl

theorem Sound.reserves (h : c.Sound) (declared : Declarations) (key : Key) :
    c.Reserves declared key (c.reservedBy declared key) (c.resolve declared key) := by
  unfold reservedBy Catalog.resolve
  cases hget : c.get? key with
  | some compiled =>
    -- The walk passes over the key.
    refine ⟨.nil, List.disjoint_nil_right _, rfl, fun visited hvisits => ?_,
      fun _ _ => (List.append_nil _).symm⟩
    obtain ⟨slot, hslot, -⟩ := Option.bind_eq_some_iff.mp hget
    obtain rfl := (Declarations.visits_singleton_of_mem (mem_keys_of_slot? hslot)).mp hvisits
    exact ⟨List.nil_prefix, fun _ _ => rfl⟩
  | none =>
    have htraces (visited : List Key) (hvisits : declared.Visits c.keys [key] visited) :
        Declarations.Traces c.keys visited (Table.observe (·.catalog.keys)
          (compile declared (depthBound declared) key ⟨c, [], []⟩)) := by
      rw [observe_compile]
      exact Declarations.traces_search hvisits
    cases hcompile : compile declared (depthBound declared) key ⟨c, [], []⟩ with
    | error fault q =>
      rw [hcompile] at htraces
      obtain ⟨added, hgrows⟩ := (compile_grows declared _).2 _ _ _ _ hcompile
      refine hgrows.reserves rfl (fun visited hvisits => ⟨?_, nofun⟩) nofun
      obtain ⟨seen, hpart, hkeys⟩ := htraces visited hvisits
      rwa [List.append_cancel_left (hgrows.keys.symm.trans hkeys)]
    | ok id q =>
      rw [hcompile] at htraces
      obtain ⟨added, compiled, hgrows, -, -, hbyId⟩ := h.compile_ok hcompile
      simp only [hbyId]
      refine hgrows.reserves rfl (fun visited hvisits => ?_) fun _ _ => rfl
      have hall := List.append_cancel_left (hgrows.keys.symm.trans (htraces visited hvisits))
      exact ⟨hall ▸ List.prefix_refl _, fun _ _ => hall⟩

/-- A key without a slot is the first one that its call reserves. -/
theorem exists_reservedBy_eq_cons (hslot : c.slot? key = none) :
    ∃ rest, c.reservedBy declared key = key :: rest := by
  have hget : c.get? key = none := by
    rw [get?, hslot]
    rfl
  obtain ⟨hok, herror⟩ := compile_grows declared
    (declared.entries.length * ((foreignNames declared).length + 1))
  simp only [reservedBy, hget]
  rw [depthBound, compile_succ hslot]
  cases htable : compileTable declared _ key (Pass.reserve ⟨c, [], []⟩ key) with
  | ok table q =>
    obtain ⟨⟨added, hgrows, -⟩, -⟩ := compileTable_ok hok htable
    exact ⟨_, hgrows.reserved⟩
  | error fault q =>
    obtain ⟨added, hgrows⟩ := compileTable_error hok herror htable
    exact ⟨_, hgrows.reserved⟩

/-- After any calls, a call reserves keys along the one depth-first walk from its key, up to the
point where it fails, and looks up fields once for each of them. Its compilations are nested no
deeper than there are keys that its key reaches: it never fails for want of depth. -/
theorem looks_up_fields_in_preorder (calls : List Call) (declared : Declarations) (key : Key) :
    let c := empty.after calls
    let r := c.resolve declared key
    let reserved := c.reservedBy declared key
    c.Reserves declared key reserved r ∧
    (∃! visited, declared.Visits c.keys [key] visited) ∧
    (key ∈ c.keys → r.reflected = []) ∧
    (key ∉ c.keys → ∃ rest, reserved = key :: rest) ∧
    (∀ compiled, r.outcome = .ok compiled → r.catalog.size = c.size + r.reflected.length) ∧
    {k | declared.Reaches key k}.Finite ∧
    ∀ depth, {k | declared.Reaches key k}.ncard ≤ depth →
      compile declared depth key ⟨c, [], []⟩ =
        compile declared (depthBound declared) key ⟨c, [], []⟩ ∧
      ∀ entity q, compile declared depth key ⟨c, [], []⟩ ≠ .error (.notCompiled entity) q := by
  intro c r reserved
  have hsound : c.Sound := sound_empty.after calls
  have hreserves : c.Reserves declared key reserved r := hsound.reserves declared key
  refine ⟨hreserves, ?_, fun hkey => ?_, fun hkey => ?_, fun compiled hok => ?_,
    declared.finite_reaches key, fun depth hdepth => ⟨compile_of_ncard_reaches_le hdepth, ?_⟩⟩
  · have hkey : declared.Reaches key key := .refl
    obtain ⟨visited, hvisits⟩ : ∃ visited, declared.Visits c.keys [key] visited :=
      Declarations.exists_visits (List.forall_mem_singleton.mpr hkey)
    exact ⟨visited, hvisits, fun _ h => h.unique hvisits⟩
  · obtain ⟨slot, hslot, rfl⟩ := List.mem_map.mp hkey
    obtain ⟨compiled, -, -, hresolve⟩ := hsound.resolve_of_mem hslot
    exact congrArg Resolution.reflected (hresolve declared)
  · exact exists_reservedBy_eq_cons (slot?_eq_none_iff.mpr hkey)
  · have hlength := congrArg List.length (hreserves.keys compiled hok)
    rw [hreserves.reflected]
    simpa [Catalog.keys, size] using hlength
  · intro entity q herror
    obtain ⟨k, -, hfaulty⟩ := exists_faulty_of_compile_error hdepth herror
    exact hfaulty.ne_notCompiled entity rfl

/-- An employee has a boss, a post in one of two tables of departments, and a site that an earlier
call has compiled; departments lead back to employees. The fields of a department are looked up for
each of its tables. An order refers to an employee and then to a table with two primary keys. -/
theorem looks_up_fields_in_preorder_staff :
    let employee : EntityType := ⟨0, "Employee"⟩
    let department : EntityType := ⟨1, "Department"⟩
    let site : EntityType := ⟨2, "Site"⟩
    let order : EntityType := ⟨3, "Order"⟩
    let stock : EntityType := ⟨4, "Stock"⟩
    let id := (Field.stored "id" "id").primaryKey
    let link (column table : String) (target : EntityType) :=
      ((Field.stored column column).foreignKey table "id").optionalEntity target
    let declared : Declarations := ⟨[
      (employee, [id, link "boss" "employee" employee, link "post" "department" department,
        link "former" "archive" department, link "site" "site" site]),
      (department, [id, link "head" "employee" employee, link "site" "site" site]),
      (site, [id]),
      (order, [id, link "stock" "stock" stock, link "clerk" "employee" employee]),
      (stock, [id, id])]⟩
    let staff : Key := ⟨employee, "app", "employee"⟩
    let unit : Key := ⟨department, "app", "department"⟩
    let former : Key := ⟨department, "app", "archive"⟩
    let place : Key := ⟨site, "app", "site"⟩
    let sale : Key := ⟨order, "app", "order"⟩
    let goods : Key := ⟨stock, "app", "stock"⟩
    let c := empty.after [⟨declared, place⟩]
    let r := c.resolve declared staff
    let compiled : Compiled := ⟨1, ⟨"app", "employee", [⟨"id", "id", .primaryKey⟩,
      ⟨"boss", "boss", .foreignKey "employee" "id" 1⟩,
      ⟨"post", "post", .foreignKey "department" "id" 2⟩,
      ⟨"former", "former", .foreignKey "archive" "id" 3⟩,
      ⟨"site", "site", .foreignKey "site" "id" 0⟩]⟩⟩
    (r.outcome = .ok compiled ∧ declared.Visits c.keys [staff] [staff, unit, former] ∧
      r.reflected = [employee, department, department] ∧ r.catalog.size = 4 ∧
      r.catalog.size = c.size + r.reflected.length) ∧
    {k | declared.Reaches staff k}.ncard ≤ 4 ∧
    compile declared 4 staff ⟨c, [], []⟩ =
      compile declared (depthBound declared) staff ⟨c, [], []⟩ ∧
    (c.resolve declared place).reflected = [] ∧
    (c.resolve declared sale).reflected = [order, stock] ∧
    (∃ rest, declared.Visits c.keys [sale] (sale :: goods :: rest)) := by
  intro employee department site order stock id link declared staff unit former place sale goods c r
    compiled
  obtain ⟨hreserves, ⟨visited, hvisits, -⟩, -, -, hsize, -, hdepth⟩ :=
    looks_up_fields_in_preorder [⟨declared, place⟩] declared staff
  obtain ⟨hreservesSale, ⟨visitedSale, hvisitsSale, -⟩, -⟩ :=
    looks_up_fields_in_preorder [⟨declared, place⟩] declared sale
  obtain ⟨-, -, hcached, -⟩ := looks_up_fields_in_preorder [⟨declared, place⟩] declared place
  have hok : r.outcome = .ok compiled := by decide +kernel
  have hreserved : c.reservedBy declared staff = [staff, unit, former] := by decide +kernel
  have hreservedSale : c.reservedBy declared sale = [sale, goods] := by decide +kernel
  have hkeys : r.catalog.keys = [place, staff, unit, former] := by decide +kernel
  have hreached : {k | declared.Reaches staff k}.ncard ≤ 4 := by
    have hsubset : {k | declared.Reaches staff k} ⊆ (r.catalog.keys.toFinset : Set Key) := by
      intro k hk
      exact List.mem_toFinset.mpr (((sound_empty.after [⟨declared, place⟩]).mem_keys_resolve_iff
        (closed_after declared [place]) hok).mpr (.inr hk))
    rw [hkeys] at hsubset
    exact (Set.ncard_le_ncard hsubset (Finset.finite_toSet _)).trans
      ((Set.ncard_coe_finset _).trans_le (List.toFinset_card_le _))
  refine ⟨⟨hok, ?_, ?_, by decide +kernel, hsize compiled hok⟩, hreached, (hdepth 4 hreached).1,
    hcached (by decide +kernel), ?_, ?_⟩
  · rw [← hreserved, (hreserves.walk visited hvisits).2 compiled hok]
    exact hvisits
  · rw [hreserves.reflected, hreserved]
    rfl
  · rw [hreservesSale.reflected, hreservedSale]
    rfl
  · obtain ⟨rest, rfl⟩ := (hreservesSale.walk visitedSale hvisitsSale).1
    rw [hreservedSale] at hvisitsSale
    exact ⟨rest, hvisitsSale⟩

end Catalog

end TableMapper
