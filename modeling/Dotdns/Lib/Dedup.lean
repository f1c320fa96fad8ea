import Mathlib.Data.List.Destutter

/-!
# Lib — removing adjacent repetitions

`Vec::dedup` drops an element that equals the one before it:
`List.destutter (· ≠ ·)`. On a list that is not sorted this leaves a
repetition in place as soon as something else stands in between;
`nodup_dedup_iff` says exactly when nothing is left.
-/

namespace Lib

variable {α : Type*}

/-- Between two copies of an element there are only copies of it. -/
def Grouped (l : List α) : Prop :=
  ∀ a x b c, l = a ++ x :: (b ++ x :: c) → ∀ y ∈ b, y = x

theorem Grouped.of_cons {x : α} {l : List α} (h : Grouped (x :: l)) : Grouped l := by
  intro a y b c hl
  apply h (x :: a) y b c
  rw [hl]
  rfl

/-- An element put in front of a different one must be new. -/
theorem grouped_cons_of_ne {x y : α} {l : List α} (hne : x ≠ y) :
    Grouped (x :: y :: l) ↔ x ∉ y :: l ∧ Grouped (y :: l) := by
  constructor
  · intro h
    refine ⟨?_, h.of_cons⟩
    intro hmem
    obtain hxy | hmem := List.mem_cons.mp hmem
    · exact hne hxy
    · obtain ⟨b, c, rfl⟩ := List.append_of_mem hmem
      exact hne (h [] x (y :: b) c rfl y List.mem_cons_self).symm
  · intro h a z b c hl
    obtain ⟨hnew, hrest⟩ := h
    cases a with
    | nil =>
        obtain ⟨rfl, hl⟩ := List.cons.inj hl
        rw [hl] at hnew
        simp at hnew
    | cons w a => exact hrest a z b c (List.cons.inj hl).2

/-- A copy of the head changes nothing. -/
theorem grouped_cons_self {x : α} {l : List α} : Grouped (x :: x :: l) ↔ Grouped (x :: l) := by
  constructor
  · exact Grouped.of_cons
  · intro h a z b c hl
    cases a with
    | cons w a => exact h a z b c (List.cons.inj hl).2
    | nil =>
        obtain ⟨rfl, hl⟩ := List.cons.inj hl
        cases b with
        | nil => simp
        | cons w b =>
            obtain ⟨rfl, hl⟩ := List.cons.inj hl
            intro y hy
            obtain rfl | hy := List.mem_cons.mp hy
            · rfl
            · apply h [] x b c _ y hy
              rw [hl]
              rfl

section
variable [DecidableEq α]

/-- `Vec::dedup`. -/
def dedup (l : List α) : List α := l.destutter (· ≠ ·)

theorem dedup_sublist (l : List α) : (dedup l).Sublist l := List.destutter_sublist _ l

theorem mem_destutter'_iff {x y : α} {l : List α} :
    x ∈ l.destutter' (· ≠ ·) y ↔ x ∈ y :: l := by
  induction l generalizing y with
  | nil => simp
  | cons z l ih =>
      by_cases h : y = z
      · subst h
        simp [ih]
      · simp [h, ih]

theorem mem_dedup {x : α} {l : List α} : x ∈ dedup l ↔ x ∈ l := by
  cases l with
  | nil => simp [dedup]
  | cons y l => exact mem_destutter'_iff

theorem nodup_destutter'_iff {y : α} {l : List α} :
    (l.destutter' (· ≠ ·) y).Nodup ↔ Grouped (y :: l) := by
  induction l generalizing y with
  | nil =>
      refine iff_of_true (by simp) ?_
      intro a x b c hl
      have hlen := congrArg List.length hl
      simp at hlen
      omega
  | cons z l ih =>
      by_cases h : y = z
      · subst h
        rw [List.destutter'_cons_neg _ (by simp), ih, grouped_cons_self]
      · rw [List.destutter'_cons_pos _ h, List.nodup_cons, mem_destutter'_iff, ih,
          grouped_cons_of_ne h]

/-- **What `dedup` achieves.** -/
theorem nodup_dedup_iff {l : List α} : (dedup l).Nodup ↔ Grouped l := by
  cases l with
  | nil =>
      refine iff_of_true (by simp [dedup]) ?_
      intro a x b c hl
      simp at hl
  | cons y l => exact nodup_destutter'_iff

example : dedup [1, 1, 2, 1] = [1, 2, 1] := by decide

end

end Lib
