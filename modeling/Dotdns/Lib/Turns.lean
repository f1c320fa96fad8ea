import Mathlib.Data.List.Rotate

/-!
# Lib — taking turns

Turn `i` of `n` parties is that of party `i % n`. Whoever is handed a turn
may take it later than those behind him, so what is seen of a sequence of
turns is a sublist of it.

The two facts that matter: within a cycle no party has two turns
(`nodup_turns`), and of all turns so far no party has two more than another
(`count_turns_le`).
-/

namespace Lib

/-- The parties of `m` turns, from turn `t` on. -/
def turns (n t m : Nat) : List Nat := (List.range m).map fun k => (t + k) % n

section
variable {n t m u v : Nat}

theorem turns_succ (n t m : Nat) : turns n t (m + 1) = turns n t m ++ [(t + m) % n] := by
  simp only [turns, List.range_succ, List.map_append, List.map_cons, List.map_nil]

@[simp] theorem length_turns (n t m : Nat) : (turns n t m).length = m := by simp [turns]

theorem head?_turns (hm : 0 < m) : (turns n t m).head? = some (t % n) := by
  obtain ⟨k, rfl⟩ := Nat.exists_eq_add_one_of_ne_zero (Nat.ne_of_gt hm)
  rw [turns, List.range_succ_eq_map]
  rfl

theorem turns_eq_rotate (n t : Nat) : turns n t n = (List.range n).rotate t := by
  refine List.ext_getElem (by simp) ?_
  intro k h₁ h₂
  simp [turns, List.getElem_rotate, Nat.add_comm]

theorem turns_perm (n t : Nat) : (turns n t n).Perm (List.range n) := by
  rw [turns_eq_rotate]
  exact List.rotate_perm _ _

theorem nodup_turns (hm : m ≤ n) : (turns n t m).Nodup := by
  have hsub : (turns n t m).Sublist (turns n t n) := (List.range_sublist.mpr hm).map _
  exact ((turns_perm n t).nodup_iff.mpr List.nodup_range).sublist hsub

/-- `m` turns are `q` rounds and `r` turns of the next one. -/
theorem exists_rounds (hn : 0 < n) (m : Nat) : ∃ q r, m = q * n + r ∧ r < n ∧
    ∀ u < n, (turns n 0 m).count u = q + if u < r then 1 else 0 := by
  induction m with
  | zero => exact ⟨0, 0, by omega, hn, fun u _ => by simp [turns]⟩
  | succ m ih =>
      obtain ⟨q, r, hm, hr, hcount⟩ := ih
      have hturn : (0 + m) % n = r := by rw [Nat.zero_add, hm, Nat.mul_add_mod_of_lt hr]
      have hstep : ∀ u < n, (turns n 0 (m + 1)).count u =
          (q + if u < r then 1 else 0) + if r = u then 1 else 0 := by
        intro u hu
        rw [turns_succ, hturn, List.count_append, hcount u hu, List.count_singleton]
        simp only [beq_iff_eq]
      by_cases hlast : r + 1 = n
      · -- the round is over
        refine ⟨q + 1, 0, by rw [Nat.add_mul]; omega, hn, ?_⟩
        intro u hu
        rw [hstep u hu, if_neg (Nat.not_lt_zero u)]
        split <;> split <;> omega
      · refine ⟨q, r + 1, by omega, by omega, ?_⟩
        intro u hu
        rw [hstep u hu]
        split <;> split <;> split <;> omega

theorem count_turns_le (hu : u < n) (hv : v < n) :
    (turns n 0 m).count u ≤ (turns n 0 m).count v + 1 := by
  obtain ⟨q, r, _, _, hcount⟩ := exists_rounds (Nat.zero_lt_of_lt hu) m
  rw [hcount u hu, hcount v hv]
  split <;> split <;> omega

/-- The turns that have been taken, in the order in which they were handed
out. -/
theorem filterMap_sublist_turns {α : Type*} {taken : α → Option Nat} {l : List α}
    (h : ∀ k x, l[k]? = some x → taken x = none ∨ taken x = some ((t + k) % n)) :
    (l.filterMap taken).Sublist (turns n t l.length) := by
  induction l using List.reverseRecOn with
  | nil => exact .slnil
  | append_singleton l x ih =>
      have hl := ih fun k y hk => h k y (by
        rw [List.getElem?_append_left (List.getElem?_eq_some_iff.mp hk).1]
        exact hk)
      have hx := h l.length x (by simp)
      rw [List.filterMap_append, List.length_append, List.length_singleton, turns_succ]
      apply hl.append
      rcases hx with hx | hx
      · simp [hx]
      · simp [hx]

/-- As many turns as are out make a difference, and one. -/
theorem count_sublist_turns_le {taken : List Nat} (h : taken.Sublist (turns n 0 m)) (hu : u < n)
    (hv : v < n) : taken.count u ≤ taken.count v + 1 + (m - taken.length) := by
  have hturns := count_turns_le (m := m) hu hv
  have hle := h.count_le u
  have hge := h.le_count v
  rw [length_turns] at hge
  omega

end

end Lib
