import Mathlib.Algebra.Ring.Nat
import Mathlib.Data.List.Infix

/-!
# Lib — runs of an executable transition system

A system is a partial step function `step : σ → ℓ → Option σ`: the label
carries every choice the environment makes, so a run is determined by
its start and its list of labels, and a concrete run can be evaluated.
`none` means the label is not enabled in that state.

* `Passes step s₀ ls s` — the run of `ls` from `s₀` goes through `s`;
* `Takes step s₀ ls s l s'` — it takes the step `s —l→ s'`.

The rules below are the only inductions a client needs: an invariant
that every step TAKEN BY THE RUN preserves holds in every state the run
passes through.
-/

namespace Lib

section
variable {σ ℓ : Type*} (step : σ → ℓ → Option σ)

/-- The state after a list of events, if each can be taken in turn. -/
def run : σ → List ℓ → Option σ
  | s, [] => some s
  | s, l :: ls => (step s l).bind fun s' => run s' ls

/-- The run of `ls` from `s₀` passes through `s`. -/
def Passes (s₀ : σ) (ls : List ℓ) (s : σ) : Prop :=
  ∃ pre, pre <+: ls ∧ run step s₀ pre = some s

/-- The run of `ls` from `s₀` takes the step from `s` to `s'` on `l`. -/
def Takes (s₀ : σ) (ls : List ℓ) (s : σ) (l : ℓ) (s' : σ) : Prop :=
  ∃ pre, pre ++ [l] <+: ls ∧ run step s₀ pre = some s ∧ step s l = some s'

variable {step}

@[simp] theorem run_nil (s : σ) : run step s [] = some s := rfl

@[simp] theorem run_cons (s : σ) (l : ℓ) (ls : List ℓ) :
    run step s (l :: ls) = (step s l).bind fun s' => run step s' ls := rfl

theorem run_singleton (s : σ) (l : ℓ) : run step s [l] = step s l :=
  Option.bind_fun_some _

theorem run_append (s : σ) (ls ls' : List ℓ) :
    run step s (ls ++ ls') = (run step s ls).bind fun s' => run step s' ls' := by
  induction ls generalizing s with
  | nil => rfl
  | cons l ls ih =>
      simp only [List.cons_append, run_cons, Option.bind_assoc]
      exact congrArg _ (funext fun s' => ih s')

theorem run_concat {s s' : σ} {ls : List ℓ} {l : ℓ} (h : run step s ls = some s') :
    run step s (ls ++ [l]) = step s' l := by
  simp [run_append, h]

theorem Passes.finish {s₀ s : σ} {ls : List ℓ} (h : run step s₀ ls = some s) :
    Passes step s₀ ls s := ⟨ls, List.prefix_refl ls, h⟩

theorem Takes.step_eq {s₀ s s' : σ} {ls : List ℓ} {l : ℓ}
    (h : Takes step s₀ ls s l s') : step s l = some s' := h.choose_spec.2.2

theorem Takes.mem {s₀ s s' : σ} {ls : List ℓ} {l : ℓ}
    (h : Takes step s₀ ls s l s') : l ∈ ls :=
  h.choose_spec.1.mem (List.mem_append_right _ List.mem_cons_self)

theorem Takes.source {s₀ s s' : σ} {ls : List ℓ} {l : ℓ}
    (h : Takes step s₀ ls s l s') : Passes step s₀ ls s := by
  obtain ⟨pre, hpre, hrun, _⟩ := h
  exact ⟨pre, (List.prefix_append pre [l]).trans hpre, hrun⟩

theorem Takes.target {s₀ s s' : σ} {ls : List ℓ} {l : ℓ}
    (h : Takes step s₀ ls s l s') : Passes step s₀ ls s' := by
  obtain ⟨pre, hpre, hrun, hstep⟩ := h
  exact ⟨pre ++ [l], hpre, by rw [run_concat hrun, hstep]⟩

/-- The last step of a run. -/
theorem Takes.last {s₀ s s' : σ} {ls : List ℓ} {l : ℓ} (h : run step s₀ ls = some s)
    (hstep : step s l = some s') : Takes step s₀ (ls ++ [l]) s l s' :=
  ⟨ls, List.prefix_refl _, h, hstep⟩

/-- A run takes its first step, or the step is one of the rest. -/
theorem takes_cons {s₀ s s' : σ} {ls : List ℓ} {l l' : ℓ} :
    Takes step s₀ (l :: ls) s l' s' ↔
      (s = s₀ ∧ l' = l ∧ step s₀ l = some s') ∨
      ∃ s₁, step s₀ l = some s₁ ∧ Takes step s₁ ls s l' s' := by
  constructor
  · intro h
    obtain ⟨pre, hpre, hrun, hstep⟩ := h
    cases pre with
    | nil =>
        cases hrun
        have hl : l' = l := (List.cons_prefix_cons.mp hpre).1
        subst hl
        exact .inl ⟨rfl, rfl, hstep⟩
    | cons a pre =>
        obtain ⟨rfl, htail⟩ := List.cons_prefix_cons.mp hpre
        obtain ⟨s₁, h₁, hrest⟩ := Option.bind_eq_some_iff.mp hrun
        exact .inr ⟨s₁, h₁, pre, htail, hrest, hstep⟩
  · intro h
    rcases h with ⟨rfl, rfl, hstep⟩ | ⟨s₁, h₁, pre, hpre, hrun, hstep⟩
    · exact ⟨[], List.cons_prefix_cons.mpr ⟨rfl, List.nil_prefix⟩, rfl, hstep⟩
    · refine ⟨l :: pre, List.cons_prefix_cons.mpr ⟨rfl, hpre⟩, ?_, hstep⟩
      rw [run_cons, h₁]
      exact hrun

variable (step) in
/-- A test of every step of a run, evaluated along it. -/
def along (p : σ → ℓ → Bool) : σ → List ℓ → Bool
  | _, [] => true
  | s, l :: ls =>
      match step s l with
      | some s' => p s l && along p s' ls
      | none => true

theorem test_of_along {p : σ → ℓ → Bool} {s₀ s s' : σ} {ls : List ℓ} {l : ℓ}
    (h : along step p s₀ ls = true) (ht : Takes step s₀ ls s l s') : p s l = true := by
  induction ls generalizing s₀ with
  | nil =>
      obtain ⟨pre, hpre, _⟩ := ht
      simp at hpre
  | cons a ls ih =>
      rw [along] at h
      rcases takes_cons.mp ht with ⟨rfl, rfl, hstep⟩ | ⟨s₁, h₁, ht⟩
      · rw [hstep, Bool.and_eq_true] at h
        exact h.1
      · rw [h₁, Bool.and_eq_true] at h
        exact ih h.2 ht

/-- **The invariant rule.** What holds at the start and is preserved by
every step the run takes holds in every state the run passes through. -/
theorem Passes.invariant {I : σ → Prop} {s₀ s : σ} {ls : List ℓ}
    (h : Passes step s₀ ls s) (h₀ : I s₀)
    (hstep : ∀ s l s', Takes step s₀ ls s l s' → I s → I s') : I s := by
  obtain ⟨pre, hpre, hrun⟩ := h
  -- induction on the prefix from its end: the last step is one the run takes
  induction pre using List.reverseRecOn generalizing s with
  | nil => cases hrun; exact h₀
  | append_singleton pre l ih =>
      have hpre' : pre <+: ls := (List.prefix_append pre [l]).trans hpre
      cases hmid : run step s₀ pre with
      | none => rw [run_append, hmid] at hrun; cases hrun
      | some t =>
          rw [run_concat hmid] at hrun
          exact hstep t l s ⟨pre, hpre, hmid, hrun⟩ (ih hpre' hmid)

/-- The exact form. Where `p` decides which steps preserve `I`, a run keeps
`I` throughout exactly when it takes only such steps. -/
theorem passes_iff_takes {I : σ → Prop} {p : σ → ℓ → Prop} {s₀ : σ} {ls : List ℓ} (h₀ : I s₀)
    (hstep : ∀ s l s', I s → step s l = some s' → (I s' ↔ p s l)) :
    (∀ s, Passes step s₀ ls s → I s) ↔ ∀ s l s', Takes step s₀ ls s l s' → p s l := by
  constructor
  · intro h s l s' ht
    exact (hstep s l s' (h s ht.source) ht.step_eq).mp (h s' ht.target)
  · intro h s hs
    exact hs.invariant h₀ fun s l s' ht hi => (hstep s l s' hi ht.step_eq).mpr (h s l s' ht)

/-- The unconditional form: every step of the system preserves `I`. -/
theorem Passes.invariant_of_step {I : σ → Prop} {s₀ s : σ} {ls : List ℓ}
    (h : Passes step s₀ ls s) (h₀ : I s₀)
    (hstep : ∀ s l s', I s → step s l = some s' → I s') : I s :=
  h.invariant h₀ fun s l s' ht hi => hstep s l s' hi ht.step_eq

/-- The rule for what a state owes to the run that led to it. -/
theorem run_induction {I : List ℓ → σ → Prop} {s₀ s : σ} {ls : List ℓ} (h₀ : I [] s₀)
    (hstep : ∀ ls s l s', run step s₀ ls = some s → I ls s → step s l = some s' →
      I (ls ++ [l]) s')
    (hrun : run step s₀ ls = some s) : I ls s := by
  induction ls using List.reverseRecOn generalizing s with
  | nil => cases hrun; exact h₀
  | append_singleton ls l ih =>
      cases hmid : run step s₀ ls with
      | none => rw [run_append, hmid] at hrun; cases hrun
      | some t =>
          rw [run_concat hmid] at hrun
          exact hstep ls t l s hmid (ih hmid) hrun

/-- A longer run takes the same steps first. -/
theorem Takes.mono {s₀ s s' : σ} {ls ls' : List ℓ} {l : ℓ} (h : Takes step s₀ ls s l s')
    (hls : ls <+: ls') : Takes step s₀ ls' s l s' := by
  obtain ⟨pre, hpre, hrun, hstep⟩ := h
  exact ⟨pre, hpre.trans hls, hrun, hstep⟩

end

/-! ## What a run shows

A step may be seen from outside as something, or as nothing. What is seen
along a run is the `trace`; where each visible step is a step of another
system, and each silent one changes nothing there, the trace is a run of
that system. -/

section
variable {σ ℓ τ β : Type*} (step : σ → ℓ → Option σ) (f : σ → ℓ → Option β)

/-- What `f` sees of the steps of a run. -/
def trace : σ → List ℓ → List β
  | _, [] => []
  | s, l :: ls =>
      (f s l).toList ++
        match step s l with
        | some s' => trace s' ls
        | none => []

variable {step f}

theorem trace_concat {s s' : σ} {ls : List ℓ} {l : ℓ} (h : run step s ls = some s') :
    trace step f s (ls ++ [l]) = trace step f s ls ++ (f s' l).toList := by
  induction ls generalizing s with
  | nil =>
      cases h
      simp only [List.nil_append, trace]
      split <;> simp
  | cons a ls ih =>
      obtain ⟨s₁, h₁, hrest⟩ := Option.bind_eq_some_iff.mp h
      simp only [List.cons_append, trace, h₁, ih hrest, List.append_assoc]

/-- What is seen, done by the other system; nothing is no step. -/
def stepSeen (step' : τ → β → Option τ) (t : τ) : Option β → Option τ
  | some b => step' t b
  | none => some t

theorem stepSeen_eq_some {step' : τ → β → Option τ} {t t' : τ} {seen : Option β} :
    stepSeen step' t seen = some t' ↔
      (∃ b, seen = some b ∧ step' t b = some t') ∨ seen = none ∧ t' = t := by
  cases seen with
  | none => simp [stepSeen, eq_comm]
  | some b => simp [stepSeen]

/-- **The simulation rule.** -/
theorem run_trace {step' : τ → β → Option τ} (abs : σ → τ)
    (h : ∀ s l s', step s l = some s' → stepSeen step' (abs s) (f s l) = some (abs s'))
    {s s' : σ} {ls : List ℓ} (hrun : run step s ls = some s') :
    run step' (abs s) (trace step f s ls) = some (abs s') := by
  induction ls generalizing s with
  | nil =>
      cases hrun
      rfl
  | cons l ls ih =>
      obtain ⟨s₁, h₁, hrest⟩ := Option.bind_eq_some_iff.mp hrun
      have hstep := h s l s₁ h₁
      simp only [trace, h₁]
      cases hf : f s l with
      | none =>
          rw [hf] at hstep
          rw [Option.toList_none, List.nil_append, ← ih hrest, ← Option.some.inj hstep]
      | some b =>
          rw [hf] at hstep
          have hmoved : step' (abs s) b = some (abs s₁) := hstep
          rw [Option.toList_some, List.singleton_append, run_cons, hmoved, Option.bind_some,
            ih hrest]

end

/-! ## The same run under other names

Where renaming the states and the labels commutes with every step, enabled
or not, it commutes with every run. -/

theorem run_map {σ ℓ τ β : Type*} {step : σ → ℓ → Option σ} {step' : τ → β → Option τ}
    {g : σ → τ} {f : ℓ → β} (h : ∀ s l, step' (g s) (f l) = (step s l).map g) (s : σ)
    (ls : List ℓ) : run step' (g s) (ls.map f) = (run step s ls).map g := by
  induction ls generalizing s with
  | nil => rfl
  | cons l ls ih =>
      rw [List.map_cons, run_cons, run_cons, h]
      cases step s l with
      | none => rfl
      | some s' => exact ih s'

/-! ## Runs that end

Where every step of some kind makes a measure smaller, a run of such steps
is no longer than the measure, and one of them goes on until no step of
that kind is left. -/

section
variable {σ ℓ : Type*} (step : σ → ℓ → Option σ) (p : ℓ → Prop)

/-- No step of the kind is enabled. -/
def AtRest (s : σ) : Prop := ∀ l, p l → step s l = none

variable {step p} {I : σ → Prop} {w : σ → Nat}

theorem run_le_measure
    (hstep : ∀ s l s', I s → p l → step s l = some s' → I s' ∧ w s' < w s)
    {s s' : σ} {ls : List ℓ} (h : I s) (hp : ∀ l ∈ ls, p l) (hrun : run step s ls = some s') :
    I s' ∧ ls.length + w s' ≤ w s := by
  induction ls generalizing s with
  | nil =>
      cases hrun
      exact ⟨h, by simp⟩
  | cons l ls ih =>
      obtain ⟨s₁, h₁, hrest⟩ := Option.bind_eq_some_iff.mp hrun
      obtain ⟨hI, hlt⟩ := hstep s l s₁ h (hp l List.mem_cons_self) h₁
      obtain ⟨hI', hle⟩ := ih hI (fun l hl => hp l (List.mem_cons_of_mem _ hl)) hrest
      refine ⟨hI', ?_⟩
      rw [List.length_cons]
      omega

theorem exists_run_to_rest
    (hstep : ∀ s l s', I s → p l → step s l = some s' → I s' ∧ w s' < w s) {s : σ} (h : I s) :
    ∃ ls s', (∀ l ∈ ls, p l) ∧ run step s ls = some s' ∧ AtRest step p s' := by
  -- induction on the measure: take any step there is
  induction hw : w s using Nat.strong_induction_on generalizing s with
  | _ n ih =>
      by_cases hrest : AtRest step p s
      · exact ⟨[], s, by simp, rfl, hrest⟩
      · unfold AtRest at hrest
        push Not at hrest
        obtain ⟨l, hl, hsome⟩ := hrest
        obtain ⟨s₁, h₁⟩ := Option.ne_none_iff_exists'.mp hsome
        obtain ⟨hI, hlt⟩ := hstep s l s₁ h hl h₁
        obtain ⟨ls, s', hp, hrun, hend⟩ := ih (w s₁) (by omega) hI rfl
        refine ⟨l :: ls, s', ?_, ?_, hend⟩
        · intro l' hl'
          rcases List.mem_cons.mp hl' with rfl | hl'
          · exact hl
          · exact hp l' hl'
        · rw [run_cons, h₁]
          exact hrun

end

/-! ## One process moves

A system of many processes keeps them in a list: a new process is put at
the end, and a step of one of them is a `modify` or a `set` at its
position. -/

theorem getElem?_concat_eq_some {α : Type*} {l : List α} {j : Nat} {x y : α} :
    (l ++ [x])[j]? = some y ↔ l[j]? = some y ∨ j = l.length ∧ y = x := by
  rcases Nat.lt_trichotomy j l.length with hlt | rfl | hgt
  · rw [List.getElem?_append_left hlt]
    simp [Nat.ne_of_lt hlt]
  · simp [eq_comm]
  · rw [List.getElem?_eq_none (by simp; omega), List.getElem?_eq_none (by omega)]
    simp [Nat.ne_of_gt hgt]

theorem getElem?_modify_eq_some {α : Type*} {l : List α} {i j : Nat} {g : α → α} {y : α} :
    (l.modify i g)[j]? = some y ↔
      j ≠ i ∧ l[j]? = some y ∨ j = i ∧ ∃ x, l[j]? = some x ∧ y = g x := by
  rw [List.getElem?_modify]
  by_cases hj : i = j
  · subst hj
    cases l[i]? <;> simp [eq_comm]
  · simp [hj, Ne.symm hj]

theorem getElem?_set_eq_some {α : Type*} {l : List α} {i j : Nat} {x y : α} :
    (l.set i x)[j]? = some y ↔
      j ≠ i ∧ l[j]? = some y ∨ j = i ∧ i < l.length ∧ y = x := by
  rw [List.getElem?_set]
  by_cases hj : i = j
  · subst hj
    by_cases hi : i < l.length <;> simp [hi, eq_comm]
  · simp [hj, Ne.symm hj]

/-- The process that moved is at its position. -/
theorem getElem?_set_of_some {α : Type*} {l : List α} {i : Nat} {x : α} (h : l[i]? = some x)
    (y : α) : (l.set i y)[i]? = some y := by
  obtain ⟨hlt, _⟩ := List.getElem?_eq_some_iff.mp h
  exact List.getElem?_set_self hlt

/-- Counting the processes that are in some kind of state. -/
theorem countP_set_add {α : Type*} (p : α → Bool) {l : List α} {i : Nat} {x : α}
    (h : l[i]? = some x) (y : α) :
    (l.set i y).countP p + (if p x then 1 else 0) = l.countP p + if p y then 1 else 0 := by
  obtain ⟨hi, hx⟩ := List.getElem?_eq_some_iff.mp h
  have hset := List.countP_set (p := p) (a := y) hi
  have hle := List.boole_getElem_le_countP (p := p) hi
  rw [hx] at hset hle
  omega

theorem countP_modify_add {α : Type*} (p : α → Bool) {l : List α} {i : Nat} {x : α}
    (h : l[i]? = some x) (g : α → α) :
    (l.modify i g).countP p + (if p x then 1 else 0) = l.countP p + if p (g x) then 1 else 0 := by
  rw [List.modify_eq_set_getElem?, h]
  exact countP_set_add p h (g x)

theorem countP_modify_of_eq {α : Type*} (p : α → Bool) (g : α → α) (hg : ∀ x, p (g x) = p x)
    (l : List α) (i : Nat) : (l.modify i g).countP p = l.countP p := by
  cases h : l[i]? with
  | none => rw [List.modify_eq_set_getElem?, h]; rfl
  | some x =>
      have hadd := countP_modify_add p h g
      rw [hg] at hadd
      omega

/-- What the processes have left to do. -/
theorem sum_set_add {α : Type*} (w : α → Nat) {l : List α} {i : Nat} {x : α}
    (h : l[i]? = some x) (y : α) :
    ((l.set i y).map w).sum + w x = (l.map w).sum + w y := by
  induction l generalizing i with
  | nil => cases h
  | cons a l ih =>
      cases i with
      | zero =>
          cases h
          simp only [List.set_cons_zero, List.map_cons, List.sum_cons]
          omega
      | succ i =>
          have hrest := ih (i := i) h
          simp only [List.set_cons_succ, List.map_cons, List.sum_cons]
          omega

theorem sum_modify_add {α : Type*} (w : α → Nat) {l : List α} {i : Nat} {x : α}
    (h : l[i]? = some x) (g : α → α) :
    ((l.modify i g).map w).sum + w x = (l.map w).sum + w (g x) := by
  rw [List.modify_eq_set_getElem?, h]
  exact sum_set_add w h (g x)

end Lib
