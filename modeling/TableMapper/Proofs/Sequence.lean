import Mathlib.Data.List.Forall2

/-!
# Sequences of steps that may fail

A sequence of steps succeeds when every step does, and otherwise it ends like the first step that
fails. The same holds for rows of steps, one row behind the other. A step may also change a state.

## Main definitions

* `resultOf` — what a step ends with, without the state that it leaves.
* `FailsFirst` — the first entry of a list that does not pass.
* `FailsFirstInRows` — the first entry, row by row, that does not pass.
-/

namespace TableMapper

variable {ε α β γ : Type} {e : ε} {xs : List α}

/-- A step that does not succeed fails. -/
theorem exists_ok_iff_forall_ne_error {r : Except ε β} :
    (∃ y, r = .ok y) ↔ ∀ e, r ≠ .error e := by
  cases r <;> simp

section Map

variable {r : Except ε α} {f : α → β}

theorem map_eq_ok_iff {y : β} : f <$> r = .ok y ↔ ∃ x, r = .ok x ∧ f x = y := by
  cases r <;> simp [Functor.map, Except.map]

theorem map_eq_error_iff : f <$> r = .error e ↔ r = .error e := by
  cases r <;> simp [Functor.map, Except.map]

end Map

/-! ## Steps with a state -/

section State

variable {ε σ α β : Type} {x : EStateM ε σ α} {f : α → EStateM ε σ β} {s t : σ}

/-- The result of a step, without the state that it leaves behind. -/
def resultOf : EStateM.Result ε σ α → Except ε α
  | .ok a _ => .ok a
  | .error e _ => .error e

/-- A state can be named without being known. -/
theorem resultOf_eq_ok_iff {r : EStateM.Result ε σ α} {a : α} :
    resultOf r = .ok a ↔ ∃ u, r = .ok a u := by
  cases r <;> simp [resultOf]

theorem get_bind {g : σ → EStateM ε σ β} : (get >>= g) s = g s s := rfl

theorem set_bind {g : PUnit → EStateM ε σ β} : (set t >>= g) s = g ⟨⟩ t := rfl

theorem bind_eq_ok_iff {b : β} :
    (x >>= f) s = .ok b t ↔ ∃ a u, x s = .ok a u ∧ f a u = .ok b t := by
  change EStateM.bind x f s = _ ↔ _
  unfold EStateM.bind
  cases x s <;> simp

theorem bind_eq_error_iff {e : ε} :
    (x >>= f) s = .error e t ↔
      x s = .error e t ∨ ∃ a u, x s = .ok a u ∧ f a u = .error e t := by
  change EStateM.bind x f s = _ ↔ _
  unfold EStateM.bind
  cases x s <;> simp

theorem pure_eq_ok_iff {a b : α} : (pure a : EStateM ε σ α) s = .ok b t ↔ a = b ∧ s = t := by
  change EStateM.Result.ok a s = _ ↔ _
  simp

theorem pure_ne_error {a : α} {e : ε} : (pure a : EStateM ε σ α) s ≠ .error e t := by
  change EStateM.Result.ok a s ≠ _
  simp

theorem throw_eq_error_iff {e e' : ε} :
    (throw e : EStateM ε σ α) s = .error e' t ↔ e = e' ∧ s = t := by
  change EStateM.Result.error e s = _ ↔ _
  simp

theorem throw_ne_ok {e : ε} {a : α} : (throw e : EStateM ε σ α) s ≠ .ok a t := by
  change EStateM.Result.error e s ≠ _
  simp

/-- What comes after a computation matters only for the result it has. -/
theorem bind_congr_at {y : EStateM ε σ α} {g : α → EStateM ε σ β} (hx : x s = y s)
    (h : ∀ a t, x s = .ok a t → f a t = g a t) : (x >>= f) s = (y >>= g) s := by
  change EStateM.bind x f s = EStateM.bind y g s
  unfold EStateM.bind
  rw [← hx]
  cases hok : x s with
  | ok a t => exact h a t hok
  | error e t => rfl

theorem ofExcept_eq_ok_iff {r : Except ε α} {a : α} :
    (MonadExcept.ofExcept r : EStateM ε σ α) s = .ok a t ↔ r = .ok a ∧ s = t := by
  cases r with
  | error e => simp [MonadExcept.ofExcept, throw_ne_ok]
  | ok b => simp [MonadExcept.ofExcept, pure_eq_ok_iff]

theorem ofExcept_eq_error_iff {r : Except ε α} {e : ε} :
    (MonadExcept.ofExcept r : EStateM ε σ α) s = .error e t ↔ r = .error e ∧ s = t := by
  cases r with
  | error e' => simp [MonadExcept.ofExcept, throw_eq_error_iff]
  | ok a => simp [MonadExcept.ofExcept, pure_ne_error]

end State

/-! ## Steps one behind the other -/

section Steps

variable {g : α → Except ε β} {ys : List β}

/-- A sequence succeeds when each of its steps does. -/
theorem mapM_eq_ok_iff : xs.mapM g = .ok ys ↔ List.Forall₂ (fun x y => g x = .ok y) xs ys := by
  induction xs generalizing ys with
  | nil => cases ys <;> simp [pure, Except.pure]
  | cons x xs ih =>
    rw [List.mapM_cons]
    cases hx : g x with
    | error e => cases ys <;> simp [hx, bind, Except.bind]
    | ok y =>
      -- The rest of the sequence decides; what it comes to is the induction hypothesis.
      cases hxs : xs.mapM g with
      | error e => cases ys <;> simp [hx, hxs, ← ih, bind, Except.bind]
      | ok zs => cases ys <;> simp [hx, hxs, ← ih, bind, Except.bind, pure, Except.pure]

theorem mapM_eq_ok_map {f : α → β} (h : ∀ x ∈ xs, g x = .ok (f x)) :
    xs.mapM g = .ok (xs.map f) :=
  mapM_eq_ok_iff.mpr (List.forall₂_map_right_iff.mpr (List.forall₂_same.mpr h))

theorem length_of_mapM_eq_ok (h : xs.mapM g = .ok ys) : ys.length = xs.length :=
  (mapM_eq_ok_iff.mp h).length_eq.symm

/-- Steps that agree one by one make sequences that agree. -/
theorem mapM_congr {g : α → Except ε γ} {g' : β → Except ε γ} {ys : List β}
    (h : List.Forall₂ (fun x y => g' y = g x) xs ys) : ys.mapM g' = xs.mapM g := by
  induction h with
  | nil => rfl
  | cons hxy _ ih => rw [List.mapM_cons, List.mapM_cons, hxy, ih]

theorem exists_mapM_eq_ok_iff : (∃ ys, xs.mapM g = .ok ys) ↔ ∀ x ∈ xs, ∃ y, g x = .ok y := by
  induction xs with
  | nil => simp [pure, Except.pure]
  | cons x xs ih =>
    rw [List.forall_mem_cons, ← ih]
    simp only [mapM_eq_ok_iff, List.forall₂_cons_left_iff]
    constructor
    · rintro ⟨_, y, ys, hy, hys, -⟩
      exact ⟨⟨y, hy⟩, ys, hys⟩
    · rintro ⟨⟨y, hy⟩, ys, hys⟩
      exact ⟨_, y, ys, hy, hys, rfl⟩

theorem mapM_cons_eq_error_iff {x : α} :
    (x :: xs).mapM g = .error e ↔
      g x = .error e ∨ (∃ y, g x = .ok y) ∧ xs.mapM g = .error e := by
  rw [List.mapM_cons]
  cases hx : g x with
  | error e' => simp [bind, Except.bind]
  | ok y => cases hxs : xs.mapM g <;> simp [bind, Except.bind, pure, Except.pure]

/-- Entry `i` is the first one that does not pass. -/
structure FailsFirst (passes : α → Prop) (xs : List α) (i : Nat) (x : α) : Prop where
  entry : xs[i]? = some x
  fails : ¬ passes x
  before : ∀ k y, k < i → xs[k]? = some y → passes y

variable {passes : α → Prop} {x y : α} {i : Nat}

theorem failsFirst_zero_iff :
    FailsFirst passes (x :: xs) 0 y ↔ x = y ∧ ¬ passes x := by
  constructor
  · rintro ⟨hentry, hfails, -⟩
    grind
  · rintro ⟨rfl, hfails⟩
    exact ⟨rfl, hfails, by omega⟩

theorem failsFirst_succ_iff :
    FailsFirst passes (x :: xs) (i + 1) y ↔ passes x ∧ FailsFirst passes xs i y := by
  constructor
  · rintro ⟨hentry, hfails, hbefore⟩
    refine ⟨hbefore 0 x (by omega) rfl, by simpa using hentry, hfails, fun k z hk hz => ?_⟩
    exact hbefore (k + 1) z (by omega) (by simpa using hz)
  · rintro ⟨hx, hentry, hfails, hbefore⟩
    refine ⟨by simpa using hentry, hfails, fun k z hk hz => ?_⟩
    cases k <;> grind

theorem exists_failsFirst_iff : (∃ i x, FailsFirst passes xs i x) ↔ ∃ x ∈ xs, ¬ passes x := by
  constructor
  · rintro ⟨i, x, hfirst⟩
    exact ⟨x, List.mem_of_getElem? hfirst.entry, hfirst.fails⟩
  · rintro ⟨y, hmem, hy⟩
    induction xs with
    | nil => cases hmem
    | cons x xs ih =>
      by_cases hx : passes x
      · obtain ⟨i, z, hz⟩ := ih (by grind)
        exact ⟨i + 1, z, failsFirst_succ_iff.mpr ⟨hx, hz⟩⟩
      · exact ⟨0, x, failsFirst_zero_iff.mpr ⟨rfl, hx⟩⟩

/-- A sequence fails like the first step that fails. -/
theorem mapM_eq_error_iff :
    xs.mapM g = .error e ↔
      ∃ i x, FailsFirst (fun x => ∃ y, g x = .ok y) xs i x ∧ g x = .error e := by
  induction xs with
  | nil =>
    refine iff_of_false (by simp [pure, Except.pure]) ?_
    rintro ⟨i, x, ⟨hentry, -, -⟩, -⟩
    simp at hentry
  | cons x xs ih =>
    rw [mapM_cons_eq_error_iff, ih]
    constructor
    · rintro (hx | ⟨hx, i, y, hfirst, hy⟩)
      · exact ⟨0, x, failsFirst_zero_iff.mpr ⟨rfl, by simp [hx]⟩, hx⟩
      · exact ⟨i + 1, y, failsFirst_succ_iff.mpr ⟨hx, hfirst⟩, hy⟩
    · rintro ⟨i, y, hfirst, hy⟩
      cases i with
      | zero =>
        obtain ⟨rfl, -⟩ := failsFirst_zero_iff.mp hfirst
        exact .inl hy
      | succ i =>
        obtain ⟨hx, hfirst⟩ := failsFirst_succ_iff.mp hfirst
        exact .inr ⟨hx, i, y, hfirst, hy⟩

/-- Where each step that does not pass has a fault of its own, a sequence fails with the fault of
the first one. -/
theorem mapM_eq_error_iff_of_fault {fault : α → ε} (hok : ∀ x, (∃ y, g x = .ok y) ↔ passes x)
    (hfault : ∀ x, ¬ passes x → g x = .error (fault x)) :
    xs.mapM g = .error e ↔ ∃ i x, FailsFirst passes xs i x ∧ e = fault x := by
  simp only [mapM_eq_error_iff, hok]
  constructor
  · rintro ⟨i, x, hfirst, hx⟩
    rw [hfault x hfirst.fails] at hx
    exact ⟨i, x, hfirst, (Except.error.inj hx).symm⟩
  · rintro ⟨i, x, hfirst, rfl⟩
    exact ⟨i, x, hfirst, hfault x hfirst.fails⟩

/-! ### Steps that know their place -/

variable {k : Nat}

theorem failsFirst_zipIdx_iff {entry : α × Nat} :
    FailsFirst (fun entry => passes entry.1) (xs.zipIdx k) i entry ↔
      FailsFirst passes xs i entry.1 ∧ entry.2 = k + i := by
  obtain ⟨x, j⟩ := entry
  have hentry : ∀ i x j, (xs.zipIdx k)[i]? = some (x, j) ↔ xs[i]? = some x ∧ j = k + i := by
    intro i x j
    grind
  constructor
  · rintro ⟨hx, hfails, hbefore⟩
    obtain ⟨hx, hj⟩ := (hentry i x j).mp hx
    refine ⟨⟨hx, hfails, fun l y hl hy => ?_⟩, hj⟩
    exact hbefore l (y, k + l) hl ((hentry l y _).mpr ⟨hy, rfl⟩)
  · rintro ⟨⟨hx, hfails, hbefore⟩, hj⟩
    refine ⟨(hentry i x j).mpr ⟨hx, hj⟩, hfails, ?_⟩
    rintro l ⟨y, m⟩ hl hy
    exact hbefore l y hl ((hentry l y m).mp hy).1

theorem exists_mapM_zipIdx_eq_ok_iff {g : α × Nat → Except ε β}
    (hok : ∀ x j, (∃ y, g (x, j) = .ok y) ↔ passes x) :
    (∃ ys, (xs.zipIdx k).mapM g = .ok ys) ↔ ∀ x ∈ xs, passes x := by
  rw [exists_mapM_eq_ok_iff]
  constructor
  · intro h x hx
    obtain ⟨j, hj⟩ := List.mem_iff_getElem?.mp hx
    exact (hok x (k + j)).mp (h (x, k + j) (List.mem_of_getElem? (i := j) (by grind)))
  · rintro h ⟨x, j⟩ hx
    exact (hok x j).mpr (h x (List.fst_mem_of_mem_zipIdx hx))

theorem mapM_zipIdx_eq_error_iff {g : α × Nat → Except ε β}
    (hok : ∀ x j, (∃ y, g (x, j) = .ok y) ↔ passes x) :
    (xs.zipIdx k).mapM g = .error e ↔
      ∃ j x, FailsFirst passes xs j x ∧ g (x, k + j) = .error e := by
  have hok' : (fun entry => ∃ y, g entry = .ok y) = fun entry : α × Nat => passes entry.1 :=
    funext fun entry => propext (hok entry.1 entry.2)
  simp only [mapM_eq_error_iff, hok', failsFirst_zipIdx_iff]
  constructor
  · rintro ⟨i, ⟨x, j⟩, ⟨hfirst, rfl⟩, hx⟩
    exact ⟨i, x, hfirst, hx⟩
  · rintro ⟨i, x, hfirst, hx⟩
    exact ⟨i, (x, k + i), ⟨hfirst, rfl⟩, hx⟩

end Steps

/-! ## Rows of steps -/

section Rows

/-- Row by row, entry `j` of row `i` is the first one that does not pass. -/
structure FailsFirstInRows (passes : α → γ → Prop) (entries : α → List γ) (xs : List α)
    (i j : Nat) (x : α) (y : γ) : Prop where
  row : xs[i]? = some x
  entry : (entries x)[j]? = some y
  fails : ¬ passes x y
  before : ∀ k l x' y', k < i ∨ k = i ∧ l < j → xs[k]? = some x' → (entries x')[l]? = some y' →
    passes x' y'

variable {passes : α → γ → Prop} {entries : α → List γ} {i j : Nat} {x : α} {y : γ}

/-- The first entry that does not pass is the first one of its row, and this row is the first one
in which not every entry passes. -/
theorem failsFirstInRows_iff :
    FailsFirstInRows passes entries xs i j x y ↔
      FailsFirst (fun x => ∀ y ∈ entries x, passes x y) xs i x ∧
        FailsFirst (passes x) (entries x) j y := by
  constructor
  · rintro ⟨hrow, hentry, hfails, hbefore⟩
    refine ⟨⟨hrow, fun h => hfails (h y (List.mem_of_getElem? hentry)), ?_⟩, hentry, hfails, ?_⟩
    · intro k x' hk hx' y' hy'
      obtain ⟨l, hl⟩ := List.mem_iff_getElem?.mp hy'
      exact hbefore k l x' y' (.inl hk) hx' hl
    · intro l y' hl hy'
      exact hbefore i l x y' (.inr ⟨rfl, hl⟩) hrow hy'
  · rintro ⟨⟨hrow, -, hrows⟩, hentry, hfails, hentries⟩
    refine ⟨hrow, hentry, hfails, ?_⟩
    rintro k l x' y' (hk | ⟨rfl, hl⟩) hx' hy'
    · exact hrows k x' hk hx' y' (List.mem_of_getElem? hy')
    · obtain rfl : x = x' := Option.some.inj (hrow.symm.trans hx')
      exact hentries l y' hl hy'

theorem exists_failsFirstInRows_iff :
    (∃ i j x y, FailsFirstInRows passes entries xs i j x y) ↔
      ∃ x ∈ xs, ∃ y ∈ entries x, ¬ passes x y := by
  simp only [failsFirstInRows_iff]
  constructor
  · rintro ⟨i, j, x, y, hrow, hentry⟩
    exact ⟨x, List.mem_of_getElem? hrow.entry, y, List.mem_of_getElem? hentry.entry, hentry.fails⟩
  · intro h
    obtain ⟨i, x, hrow⟩ := exists_failsFirst_iff.mpr (show ∃ x ∈ xs, ¬ ∀ y ∈ entries x, passes x y
      by simpa using h)
    obtain ⟨j, y, hentry⟩ := exists_failsFirst_iff.mpr (by simpa using hrow.fails)
    exact ⟨i, j, x, y, hrow, hentry⟩

/-- Rows fail like the first entry, row by row, that does not pass, if this is so for each row. -/
theorem mapM_rows_eq_error_iff {f : α → Except ε β} {fault : α → Nat → γ → ε → Prop}
    (hok : ∀ x, (∃ z, f x = .ok z) ↔ ∀ y ∈ entries x, passes x y)
    (herror : ∀ x e, f x = .error e ↔
      ∃ j y, FailsFirst (passes x) (entries x) j y ∧ fault x j y e) :
    xs.mapM f = .error e ↔
      ∃ i j x y, FailsFirstInRows passes entries xs i j x y ∧ fault x j y e := by
  simp only [mapM_eq_error_iff, hok, herror, failsFirstInRows_iff]
  constructor
  · rintro ⟨i, x, hrow, j, y, hentry, hfault⟩
    exact ⟨i, j, x, y, ⟨hrow, hentry⟩, hfault⟩
  · rintro ⟨i, j, x, y, ⟨hrow, hentry⟩, hfault⟩
    exact ⟨i, x, hrow, j, y, hentry, hfault⟩

end Rows

end TableMapper
