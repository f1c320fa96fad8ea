import Mathlib.Data.List.Basic

/-!
# Lib — early returns

A function with a `Result` is a chain of steps that each may return early
with an error: `?` is the monadic bind of `Except`. The lemmas read an
`ok` result of a chain back, step by step; `reject` and `rejectEach` are
the two shapes of a validation, one test and a loop of tests.
-/

namespace Lib

section
variable {ε ε' α β : Type}

theorem bind_eq_ok {x : Except ε α} {f : α → Except ε β} {b : β} :
    (x >>= f) = .ok b ↔ ∃ a, x = .ok a ∧ f a = .ok b := by
  cases x <;> simp [bind, Except.bind]

theorem mapError_eq_ok {x : Except ε α} {f : ε → ε'} {a : α} :
    x.mapError f = .ok a ↔ x = .ok a := by
  cases x <;> simp [Except.mapError]

/-- A chain that goes on after a step without a value. -/
theorem seq_eq_ok {x : Except ε Unit} {y : Except ε β} {b : β} :
    (x >>= fun _ => y) = .ok b ↔ x = .ok () ∧ y = .ok b := by
  rw [bind_eq_ok]
  exact ⟨fun ⟨_, hx, hy⟩ => ⟨hx, hy⟩, fun ⟨hx, hy⟩ => ⟨(), hx, hy⟩⟩

/-- The first error of a chain. -/
theorem seq_eq_error {x : Except ε Unit} {y : Except ε β} {e : ε} :
    (x >>= fun _ => y) = .error e ↔ x = .error e ∨ x = .ok () ∧ y = .error e := by
  cases x <;> simp [bind, Except.bind]

theorem seq_ne_error {x : Except ε Unit} {y : Except ε β} {e : ε} (hx : x ≠ .error e)
    (hy : y ≠ .error e) : (x >>= fun _ => y) ≠ .error e := by
  intro h
  rcases seq_eq_error.mp h with h | ⟨_, h⟩
  · exact hx h
  · exact hy h

/-- A chain each of whose errors satisfies `P`. -/
def FailsOnly (P : ε → Prop) (x : Except ε α) : Prop := ∀ e, x = .error e → P e

theorem FailsOnly.ok {P : ε → Prop} {a : α} : FailsOnly P (.ok a) := by
  intro e h
  cases h

theorem FailsOnly.error {P : ε → Prop} {e : ε} (he : P e) :
    FailsOnly P (.error e : Except ε α) := by
  intro e' h
  cases h
  exact he

theorem FailsOnly.mapError {P : ε' → Prop} {x : Except ε α} {f : ε → ε'} (hf : ∀ e, P (f e)) :
    FailsOnly P (x.mapError f) := by
  intro e h
  cases x with
  | error e' =>
      cases h
      exact hf e'
  | ok a => cases h

theorem FailsOnly.bind {P : ε → Prop} {x : Except ε α} {f : α → Except ε β} (hx : FailsOnly P x)
    (hf : ∀ a, FailsOnly P (f a)) : FailsOnly P (x >>= f) := by
  intro e h
  cases x with
  | error _ =>
      cases h
      exact hx e rfl
  | ok a => exact hf a e h

/-- `if bad { return Err(e) }`. -/
def reject (bad : Bool) (e : ε) : Except ε Unit := if bad then .error e else .ok ()

theorem reject_eq_ok {bad : Bool} {e : ε} : reject bad e = .ok () ↔ bad = false := by
  cases bad <;> simp [reject]

theorem reject_eq_error {bad : Bool} {e e' : ε} :
    reject bad e = .error e' ↔ bad = true ∧ e = e' := by
  cases bad <;> simp [reject]

/-- `for (i, x) in xs.iter().enumerate()`, the first index being `i`. -/
def rejectEach (f : Nat → α → Except ε Unit) : Nat → List α → Except ε Unit
  | _, [] => .ok ()
  | i, x :: xs => f i x >>= fun _ => rejectEach f (i + 1) xs

/-- A loop of tests passes exactly when every element passes, where the
index is only named in the errors. -/
theorem rejectEach_eq_ok {f : Nat → α → Except ε Unit} {P : α → Prop}
    (hf : ∀ i x, f i x = .ok () ↔ P x) (i : Nat) (xs : List α) :
    rejectEach f i xs = .ok () ↔ ∀ x ∈ xs, P x := by
  induction xs generalizing i with
  | nil => simp [rejectEach]
  | cons x xs ih => rw [rejectEach, seq_eq_ok, hf, ih, List.forall_mem_cons]

/-- A loop of tests fails with the error of one of its elements. -/
theorem exists_of_rejectEach_error {f : Nat → α → Except ε Unit} {i : Nat} {xs : List α} {e : ε}
    (h : rejectEach f i xs = .error e) :
    ∃ (j : Nat) (x : α), xs[j]? = some x ∧ f (i + j) x = .error e := by
  induction xs generalizing i with
  | nil => cases h
  | cons x xs ih =>
      rcases seq_eq_error.mp h with hx | ⟨_, hxs⟩
      · exact ⟨0, x, rfl, hx⟩
      · obtain ⟨j, y, hy, hf⟩ := ih hxs
        rw [Nat.add_right_comm] at hf
        exact ⟨j + 1, y, hy, hf⟩

/-- A loop that collects what `f` makes of each element, and returns early
with the first error; the first index is `i`. -/
def collectEach (f : Nat → α → Except ε β) : Nat → List α → Except ε (List β)
  | _, [] => .ok []
  | i, x :: xs => f i x >>= fun y => collectEach f (i + 1) xs >>= fun ys => .ok (y :: ys)

theorem collectEach_cons_eq_ok {f : Nat → α → Except ε β} {i : Nat} {x : α} {xs : List α}
    {zs : List β} : collectEach f i (x :: xs) = .ok zs ↔
      ∃ y ys, zs = y :: ys ∧ f i x = .ok y ∧ collectEach f (i + 1) xs = .ok ys := by
  rw [collectEach, bind_eq_ok]
  constructor
  · rintro ⟨y, hy, h⟩
    obtain ⟨ys, hys, hcons⟩ := bind_eq_ok.mp h
    exact ⟨y, ys, (Except.ok.inj hcons).symm, hy, hys⟩
  · rintro ⟨y, ys, rfl, hy, hys⟩
    exact ⟨y, hy, bind_eq_ok.mpr ⟨ys, hys, rfl⟩⟩

/-- The elements and the results go together, one by one. -/
theorem collectEach_getElem? {f : Nat → α → Except ε β} {i : Nat} {xs : List α} {ys : List β}
    (h : collectEach f i xs = .ok ys) {j : Nat} {y : β} (hj : ys[j]? = some y) :
    ∃ x, xs[j]? = some x ∧ f (i + j) x = .ok y := by
  induction xs generalizing i ys j with
  | nil =>
      cases h
      cases hj
  | cons x xs ih =>
      obtain ⟨z, zs, rfl, hz, hzs⟩ := collectEach_cons_eq_ok.mp h
      cases j with
      | zero =>
          cases hj
          exact ⟨x, rfl, hz⟩
      | succ j =>
          rw [show i + (j + 1) = i + 1 + j by omega]
          exact ih hzs hj

/-- A loop whose elements are tested and turned into a value by themselves. -/
theorem collectEach_eq_map {f : Nat → α → Except ε β} {P : α → Prop} {g : α → β}
    (hf : ∀ i x y, f i x = .ok y ↔ P x ∧ y = g x) {i : Nat} {xs : List α} {ys : List β} :
    collectEach f i xs = .ok ys ↔ (∀ x ∈ xs, P x) ∧ ys = xs.map g := by
  induction xs generalizing i ys with
  | nil => simp [collectEach, eq_comm]
  | cons x xs ih =>
      simp only [collectEach_cons_eq_ok, hf, ih, List.forall_mem_cons, List.map_cons]
      constructor
      · rintro ⟨_, _, rfl, ⟨hx, rfl⟩, hxs, rfl⟩
        exact ⟨⟨hx, hxs⟩, rfl⟩
      · rintro ⟨⟨hx, hxs⟩, rfl⟩
        exact ⟨_, _, rfl, ⟨hx, rfl⟩, hxs, rfl⟩

/-- A loop that collects and keeps a part of each element as it is. -/
theorem map_collectEach {γ : Type} {f : Nat → α → Except ε β} {g : β → γ} {g' : α → γ}
    (hf : ∀ i x y, f i x = .ok y → g y = g' x) {i : Nat} {xs : List α} {ys : List β}
    (h : collectEach f i xs = .ok ys) : ys.map g = xs.map g' := by
  induction xs generalizing i ys with
  | nil =>
      cases h
      rfl
  | cons x xs ih =>
      obtain ⟨z, zs, rfl, hz, hzs⟩ := collectEach_cons_eq_ok.mp h
      rw [List.map_cons, List.map_cons, hf i x z hz, ih hzs]

end

end Lib
