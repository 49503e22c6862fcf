import TableMapper.Proofs.Catalog.Depth
import TableMapper.Proofs.Catalog.Reachable

/-!
# No slot stays empty

A compilation that comes back to a key in progress is handed the identity of an empty slot. Every
compilation fills the slots it has reserved itself, so the slots that are empty after it are those
that were empty before. At the beginning of a call there are none, so there are none at its end:
every identity that was handed out leads to a table by then, and a call can fail only at what is
declared.

## Main definitions

* `Catalog.pending` — the slots whose tables are being compiled.
-/

namespace TableMapper

/-- Texts with different first characters in front are different. -/
theorem append_ne_append_of_head? {s t x y : String} {a b : Char} (hs : s.toList.head? = some a)
    (ht : t.toList.head? = some b) (h : a ≠ b) : s ++ x ≠ t ++ y := by
  intro heq
  have hhead := congrArg (·.toList.head?) heq
  simp only [String.toList_append, List.head?_append, hs, ht, Option.some_or,
    Option.some.injEq] at hhead
  exact h hhead

namespace SchemaFault

/-- The text of a fault of a field is never that of a table that was not compiled. -/
theorem message_ne_of_ne_notCompiled {fault : SchemaFault} (h : ∀ name, fault ≠ .notCompiled name)
    (name : String) : fault.message ≠ "table for " ++ name ++ " was not compiled" := by
  have hkeys : "multiple primary keys for ".toList.head? = some 'm' := by decide +kernel
  have hforeign : "foreign key ".toList.head? = some 'f' := by decide +kernel
  have htable : "table for ".toList.head? = some 't' := by decide +kernel
  unfold message
  cases fault with
  | notCompiled entity => exact absurd rfl (h entity)
  | twoPrimaryKeys =>
    simp only [String.append_assoc]
    exact append_ne_append_of_head? hkeys htable (by decide)
  | noTargetTable =>
    simp only [String.append_assoc]
    exact append_ne_append_of_head? hforeign htable (by decide)
  | noTargetColumn =>
    simp only [String.append_assoc]
    exact append_ne_append_of_head? hforeign htable (by decide)
  | notOptionalEntity =>
    simp only [String.append_assoc]
    exact append_ne_append_of_head? hforeign htable (by decide)

end SchemaFault

namespace Catalog

variable {c : Catalog} {declared : Declarations} {key : Key} {table : Table} {p q : Pass}

/-! ## Empty slots -/

/-- The slots whose tables are being compiled. -/
def pending (c : Catalog) : List Slot := c.slots.filter (·.table.isNone)

theorem Sound.pending_eq_nil (h : c.Sound) : c.pending = [] := by
  refine List.filter_eq_nil_iff.mpr fun slot hslot => ?_
  obtain ⟨table, htable⟩ := h.filled slot hslot
  simp [htable]

/-- A compilation leaves no slot empty that it has reserved. -/
theorem Pass.Completes.pending_eq (h : p.Completes declared q) :
    q.catalog.pending = p.catalog.pending := by
  obtain ⟨added, hgrows, hfilled⟩ := h
  have hadded : added.filter (·.table.isNone) = [] := by
    refine List.filter_eq_nil_iff.mpr fun slot hslot => ?_
    obtain ⟨table, htable, -⟩ := hfilled slot hslot
    simp [htable]
  rw [pending, hgrows.slots, List.filter_append, hadded, List.append_nil, pending]

/-! ## Foreign keys -/

/-- In a sound catalog a table lies behind every foreign key of a table that is as declared. -/
theorem Describes.exists_foreignTable? (h : Describes declared c key table) (hc : c.Sound)
    {column : Column} (hcolumn : column ∈ table.columns) (hforeign : column.isForeignKey) :
    ∃ compiled, column.foreignTable? (some c) = some compiled := by
  obtain ⟨i, hi, rfl⟩ := List.mem_iff_getElem.mp hcolumn
  have hrefers := (h.columns.get (h.columns.length_eq ▸ hi) hi).refers hc
  obtain ⟨name, foreign, hrelation⟩ := hrefers.isForeignKey.mp hforeign
  obtain ⟨_, _, compiled, -, -, -, -, -, hfound, -⟩ := hrefers.target _ _ hrelation
  exact ⟨compiled, hfound⟩

/-- At the end of a compilation that starts from a catalog between calls, every slot is filled, and
behind every foreign key lies a table. -/
theorem exists_foreignTable?_of_compile {calls : List Call} {depth : Nat} {id : TableId}
    (h : compile declared depth key ⟨empty.after calls, [], []⟩ = .ok id q) {slot : Slot}
    (hslot : slot ∈ q.catalog.slots) :
    ∃ table, slot.table = some table ∧ ∀ column ∈ table.columns, column.isForeignKey →
      ∃ compiled, column.foreignTable? (some q.catalog) = some compiled := by
  have hsound : (empty.after calls).Sound := sound_empty.after calls
  obtain ⟨added, compiled, hgrows, hfilled, -, -⟩ := hsound.compile_ok h
  have hq : q.catalog.Sound := hsound.grow hgrows fun slot hslot => by
    obtain ⟨table, htable, -⟩ := hfilled slot hslot
    exact ⟨table, htable⟩
  -- An old slot is as declared when it was compiled, a new one as declared now.
  rcases List.mem_append.mp (hgrows.slots ▸ hslot) with hold | hadded
  · obtain ⟨_, table, -, htable, hdescribes⟩ := describes_of_mem calls hold
    have hlater := hdescribes.mono fun _ _ => hgrows.idOf?
    exact ⟨table, htable, fun _ => hlater.exists_foreignTable? hq⟩
  · obtain ⟨table, htable, hdescribes⟩ := hfilled slot hadded
    exact ⟨table, htable, fun _ => hdescribes.exists_foreignTable? hq⟩

/-! ## Calls -/

/-- After any calls, a call returns the table for its key, or it fails at a field that is at fault
in a table it comes to, and says which. Behind this is what compilations do with slots: one that
succeeds leaves empty just those slots that were empty when it began, wherever it is nested. One
that starts from a catalog between calls leaves none, so the identity that it returns and those in
its columns all lead to tables. -/
theorem compiles_or_field_offends (calls : List Call) (declared : Declarations) (key : Key) :
    let c := empty.after calls
    let r := c.resolve declared key
    c.pending = [] ∧
    ((∃ compiled, r.outcome = .ok compiled ∧ r.catalog.get? key = some compiled) ∨
      ∃ fault, r.outcome = .error fault ∧
        (∃ k, declared.Reaches key k ∧ declared.Faulty k fault) ∧
        ∀ name, fault.message ≠ "table for " ++ name ++ " was not compiled") ∧
    (∀ depth id q, compile declared depth key ⟨c, [], []⟩ = .ok id q →
      (∃ compiled, q.catalog.byId? id = some compiled ∧ q.catalog.get? key = some compiled) ∧
      (∃ added, q.catalog.slots = c.slots ++ added ∧ q.reserved = added.map Slot.key) ∧
      ∀ slot ∈ q.catalog.slots, ∃ table, slot.table = some table ∧
        ∀ column ∈ table.columns, column.isForeignKey →
          ∃ compiled, column.foreignTable? (some q.catalog) = some compiled) ∧
    ∀ depth key p id q, compile declared depth key p = .ok id q →
      q.catalog.idOf? key = some id ∧ q.catalog.pending = p.catalog.pending := by
  intro c r
  have hsound : c.Sound := sound_empty.after calls
  refine ⟨hsound.pending_eq_nil, ?_, fun depth id q hcompile => ⟨?_, ?_, ?_⟩,
    fun depth key p id q hcompile => ?_⟩
  · cases houtcome : r.outcome with
    | ok compiled => exact .inl ⟨compiled, rfl, hsound.get?_of_ok houtcome⟩
    | error fault =>
      obtain ⟨k, hreaches, hfail⟩ := hsound.fail_mem_steps houtcome
      have hfaulty := Declarations.faulty_of_fail_mem_steps hfail
      exact .inr ⟨fault, rfl, ⟨k, hreaches, hfaulty⟩,
        SchemaFault.message_ne_of_ne_notCompiled hfaulty.ne_notCompiled⟩
  · obtain ⟨added, compiled, -, -, hget, hbyId⟩ := hsound.compile_ok hcompile
    exact ⟨compiled, hbyId, hget⟩
  · obtain ⟨added, -, hgrows, -, -, -⟩ := hsound.compile_ok hcompile
    exact ⟨added, hgrows.slots, hgrows.reserved⟩
  · intro slot hslot
    exact exists_foreignTable?_of_compile hcompile hslot
  · obtain ⟨hcompletes, hid⟩ := (compile_grows declared depth).1 _ _ _ _ hcompile
    exact ⟨hid, hcompletes.pending_eq⟩

/-- Two tables that refer to each other, after a call that failed with both slots reserved. When
the second one is compiled inside the first, the slot of the first is still empty. -/
theorem compiles_or_field_offends_staff :
    let employee : EntityType := ⟨0, "Employee"⟩
    let department : EntityType := ⟨1, "Department"⟩
    let id := (Field.stored "id" "id").primaryKey
    let link (column table : String) (target : EntityType) :=
      ((Field.stored column column).foreignKey table "id").optionalEntity target
    let broken : Declarations := ⟨[(employee, [id, link "post" "department" department, id]),
      (department, [id, link "head" "employee" employee])]⟩
    let declared : Declarations := ⟨[(employee, [id, link "post" "department" department]),
      (department, [id, link "head" "employee" employee])]⟩
    let staff : Key := ⟨employee, "app", "employee"⟩
    let unit : Key := ⟨department, "app", "department"⟩
    let c := empty.after [⟨broken, staff⟩]
    let p := Pass.reserve ⟨c, [], []⟩ staff
    let compiled : Compiled := ⟨2, ⟨"app", "employee", [⟨"id", "id", .primaryKey⟩,
      ⟨"post", "post", .foreignKey "department" "id" 3⟩]⟩⟩
    (c.resolve declared staff).catalog.get? staff = some compiled ∧
    (∃ fault, (c.resolve broken staff).outcome = .error fault ∧
      fault.message = "multiple primary keys for Employee: id, id" ∧
      fault.message ≠ "table for " ++ "Employee" ++ " was not compiled") ∧
    (∃ q, compile declared 2 staff ⟨c, [], []⟩ = .ok 2 q ∧
      ∀ slot ∈ q.catalog.slots, ∃ table, slot.table = some table ∧
        ∀ column ∈ table.columns, column.isForeignKey →
          ∃ compiled, column.foreignTable? (some q.catalog) = some compiled) ∧
    ∃ q, compile declared 1 unit p = .ok 3 q ∧ q.catalog.idOf? unit = some 3 ∧
      q.catalog.pending = p.catalog.pending ∧ p.catalog.pending = [⟨staff, 2, none⟩] := by
  intro employee department id link broken declared staff unit c p compiled
  obtain ⟨-, hdeclared, hslots, hpending⟩ :=
    compiles_or_field_offends [⟨broken, staff⟩] declared staff
  obtain ⟨-, hbroken, -⟩ := compiles_or_field_offends [⟨broken, staff⟩] broken staff
  have hok : (c.resolve declared staff).outcome = .ok compiled := by decide +kernel
  have herror :
      (c.resolve broken staff).outcome = .error (.twoPrimaryKeys "Employee" "id" "id") := by
    decide +kernel
  -- What a compilation returns can be evaluated, the pass it ends with only be named.
  obtain ⟨q, hstaff⟩ : ∃ q, compile declared 2 staff ⟨c, [], []⟩ = .ok 2 q :=
    resultOf_eq_ok_iff.mp (by decide +kernel)
  obtain ⟨q', hunit⟩ : ∃ q, compile declared 1 unit p = .ok 3 q :=
    resultOf_eq_ok_iff.mp (by decide +kernel)
  refine ⟨?_, ?_, ⟨q, hstaff, (hslots 2 2 q hstaff).2.2⟩, q', hunit, ?_⟩
  · rcases hdeclared with ⟨compiled', hok', hget⟩ | ⟨fault, hfail, -⟩
    · cases hok.symm.trans hok'
      exact hget
    · cases hok.symm.trans hfail
  · rcases hbroken with ⟨compiled', hok', -⟩ | ⟨fault, hfail, -, hmessage⟩
    · cases herror.symm.trans hok'
    · cases herror.symm.trans hfail
      exact ⟨_, herror, by decide +kernel, hmessage "Employee"⟩
  · obtain ⟨hid, hsame⟩ := hpending 1 unit p 3 q' hunit
    exact ⟨hid, hsame, by decide +kernel⟩

end Catalog

end TableMapper
