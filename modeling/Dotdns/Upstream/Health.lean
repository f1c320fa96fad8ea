import Mathlib.Data.List.DropRight
import Mathlib.Data.List.Infix
import Dotdns.Lib.Run
import Dotdns.Upstream.Pool

/-!
# Upstream — passive health

`UpstreamHealth` keeps two numbers. Called one after another, its
operations make them mean what they should: how many failures there have
been since the last success, and until when the upstream is sidelined.

Queries that overlap do not take turns. Each operation is two accesses to
two atomics, so another call may come between them; the second half of
this module takes one access as one step.
-/

namespace Dotdns

open Lib

/-! ## One after another -/

/-- A call with the clock reading it is made at. -/
inductive HealthCall where
  | success (nowMs : UInt64)
  | failure (nowMs : UInt64)
  deriving DecidableEq, Repr

namespace HealthCall

/-- When the call is made. -/
def nowMs : HealthCall → UInt64
  | .success nowMs | .failure nowMs => nowMs

/-- The call is a `record_failure`. -/
def isFailure : HealthCall → Bool
  | .success _ => false
  | .failure _ => true

/-- The failures since the last success, oldest first. -/
def recentFailures (calls : List HealthCall) : List HealthCall := calls.rtakeWhile isFailure

@[simp] theorem recentFailures_nil : recentFailures [] = [] := rfl

@[simp] theorem recentFailures_success (calls : List HealthCall) (nowMs : UInt64) :
    recentFailures (calls ++ [.success nowMs]) = [] :=
  List.rtakeWhile_concat_neg _ _ _ (by simp [isFailure])

@[simp] theorem recentFailures_failure (calls : List HealthCall) (nowMs : UInt64) :
    recentFailures (calls ++ [.failure nowMs]) = recentFailures calls ++ [.failure nowMs] :=
  List.rtakeWhile_concat_pos _ _ _ rfl

end HealthCall

namespace UpstreamHealth

open HealthCall

/-- The record after a call. -/
def call (h : UpstreamHealth) : HealthCall → UpstreamHealth
  | .success _ => h.recordSuccess
  | .failure nowMs => (h.recordFailure nowMs).1

/-- The health of an upstream after a sequence of calls. -/
def after (calls : List HealthCall) : UpstreamHealth := calls.foldl call {}

@[simp] theorem after_concat (calls : List HealthCall) (c : HealthCall) :
    after (calls ++ [c]) = (after calls).call c := by
  simp [after]

/-- The two numbers say what the calls were. -/
structure Means (h : UpstreamHealth) (calls : List HealthCall) : Prop where
  failures : h.consecutiveFailures.toNat = (recentFailures calls).length
  healthy : (recentFailures calls).length < 3 → h.degradedUntilMs = 0
  degraded : 3 ≤ (recentFailures calls).length → ∃ last,
    (recentFailures calls).getLast? = some last ∧
      h.degradedUntilMs.toNat = last.nowMs.toNat + 30000

section
variable {h : UpstreamHealth} {calls : List HealthCall} {nowMs : UInt64}

theorem toNat_failures_succ (hcount : h.consecutiveFailures.toNat + 1 < 2 ^ 32) :
    (h.consecutiveFailures + 1).toNat = h.consecutiveFailures.toNat + 1 := by
  rw [UInt32.toNat_add]
  exact Nat.mod_eq_of_lt hcount

theorem toNat_until (hclock : nowMs.toNat + 30000 < 2 ^ 64) :
    (nowMs + healthCooldownMs).toNat = nowMs.toNat + 30000 := by
  rw [UInt64.toNat_add]
  exact Nat.mod_eq_of_lt hclock

/-- What a failure does, by how many there have been. -/
theorem recordFailure_cases (nowMs : UInt64)
    (hcount : h.consecutiveFailures.toNat + 1 < 2 ^ 32) :
    (h.consecutiveFailures.toNat + 1 < 3 ∧
      h.recordFailure nowMs =
        ({ h with consecutiveFailures := h.consecutiveFailures + 1 }, false)) ∨
    3 ≤ h.consecutiveFailures.toNat + 1 ∧
      h.recordFailure nowMs =
        (⟨h.consecutiveFailures + 1, nowMs + healthCooldownMs⟩,
          decide (h.degradedUntilMs ≤ nowMs)) := by
  have hthreshold : (h.consecutiveFailures + 1 ≥ healthFailureThreshold) ↔
      3 ≤ h.consecutiveFailures.toNat + 1 := by
    rw [ge_iff_le, UInt32.le_iff_toNat_le, toNat_failures_succ hcount]
    rfl
  unfold recordFailure
  by_cases hge : 3 ≤ h.consecutiveFailures.toNat + 1
  · exact .inr ⟨hge, if_pos (hthreshold.mpr hge)⟩
  · exact .inl ⟨by omega, if_neg fun hc => hge (hthreshold.mp hc)⟩

theorem Means.failure (hm : Means h calls) (nowMs : UInt64)
    (hcount : (recentFailures calls).length + 1 < 2 ^ 32)
    (hclock : nowMs.toNat + 30000 < 2 ^ 64) :
    Means (h.recordFailure nowMs).1 (calls ++ [.failure nowMs]) := by
  rw [← hm.failures] at hcount
  have hlen : (recentFailures (calls ++ [.failure nowMs])).length =
      h.consecutiveFailures.toNat + 1 := by simp [hm.failures]
  rcases recordFailure_cases nowMs hcount with ⟨hlt, heq⟩ | ⟨hge, heq⟩
  · rw [heq]
    refine ⟨by rw [hlen]; exact toNat_failures_succ hcount, ?_, ?_⟩
    · intro _
      exact hm.healthy (by rw [← hm.failures]; omega)
    · intro hge
      omega
  · rw [heq]
    refine ⟨by rw [hlen]; exact toNat_failures_succ hcount, ?_, ?_⟩
    · intro hlt
      omega
    · intro _
      exact ⟨.failure nowMs, by simp, toNat_until hclock⟩

end

/-- In a stretch of calls that neither the counter nor the clock outgrows
the two numbers keep their meaning. -/
theorem means_after {calls : List HealthCall}
    (hcount : ∀ pre, pre <+: calls → (recentFailures pre).length < 2 ^ 32)
    (hclock : ∀ nowMs, .failure nowMs ∈ calls → nowMs.toNat + 30000 < 2 ^ 64) :
    Means (after calls) calls := by
  induction calls using List.reverseRecOn with
  | nil => exact ⟨rfl, fun _ => rfl, fun h => by simp at h⟩
  | append_singleton calls c ih =>
      have hm := ih (fun pre hpre => hcount pre (hpre.trans (List.prefix_append _ _)))
        (fun nowMs hmem => hclock nowMs (List.mem_append_left _ hmem))
      rw [after_concat]
      cases c with
      | success nowMs =>
          exact ⟨by simp [call, recordSuccess], fun _ => rfl, fun h => by simp at h⟩
      | failure nowMs =>
          have hlast := hcount _ (List.prefix_refl _)
          rw [recentFailures_failure, List.length_append] at hlast
          exact hm.failure nowMs hlast (hclock nowMs (by simp))

/-- At every moment from the last call on, degraded means enough failures
since the last success, the last of them less than the cooldown ago; and
`record_failure` reports exactly the calls that make the upstream
degraded. -/
def Tracks (calls : List HealthCall) : Prop :=
  (∀ t : UInt64, (∀ c ∈ calls, c.nowMs ≤ t) →
    ((after calls).isDegraded t = true ↔
      healthFailureThreshold.toNat ≤ (recentFailures calls).length ∧ ∃ last,
        (recentFailures calls).getLast? = some last ∧
          t.toNat < last.nowMs.toNat + healthCooldownMs.toNat)) ∧
  ∀ pre nowMs, pre ++ [.failure nowMs] <+: calls →
    (((after pre).recordFailure nowMs).2 = true ↔
      (after pre).isDegraded nowMs = false ∧
        ((after pre).recordFailure nowMs).1.isDegraded nowMs = true)

theorem Means.isDegraded_iff {h : UpstreamHealth} {calls : List HealthCall} (hm : Means h calls)
    (t : UInt64) :
    h.isDegraded t = true ↔ 3 ≤ (recentFailures calls).length ∧ ∃ last,
      (recentFailures calls).getLast? = some last ∧ t.toNat < last.nowMs.toNat + 30000 := by
  rw [isDegraded, decide_eq_true_eq, gt_iff_lt, UInt64.lt_iff_toNat_lt]
  by_cases hge : 3 ≤ (recentFailures calls).length
  · obtain ⟨last, hlast, huntil⟩ := hm.degraded hge
    simp [hge, hlast, huntil]
  · rw [hm.healthy (by omega)]
    simp [hge]

/-- A failure that does not wrap reports a change of state. -/
theorem Means.recordFailure_iff {h : UpstreamHealth} {calls : List HealthCall}
    (hm : Means h calls) {nowMs : UInt64} (hcount : (recentFailures calls).length + 1 < 2 ^ 32)
    (hclock : nowMs.toNat + 30000 < 2 ^ 64) :
    (h.recordFailure nowMs).2 = true ↔
      h.isDegraded nowMs = false ∧ (h.recordFailure nowMs).1.isDegraded nowMs = true := by
  rw [← hm.failures] at hcount
  rcases recordFailure_cases nowMs hcount with ⟨hlt, heq⟩ | ⟨hge, heq⟩
  · rw [heq]
    -- below the threshold nothing is degraded, before and after
    have hzero : h.degradedUntilMs = 0 := hm.healthy (by rw [← hm.failures]; omega)
    simp [isDegraded, hzero]
  · rw [heq]
    have hafter : isDegraded nowMs
        ⟨h.consecutiveFailures + 1, nowMs + healthCooldownMs⟩ = true := by
      rw [isDegraded, decide_eq_true_eq, gt_iff_lt, UInt64.lt_iff_toNat_lt, toNat_until hclock]
      omega
    rw [hafter, isDegraded, decide_eq_true_eq, decide_eq_false_iff_not, gt_iff_lt, UInt64.not_lt]
    simp

end UpstreamHealth

open HealthCall in
/-- **Health over time.** After any calls one after another, with fewer
than `2^32` failures in a row and no failure within the cooldown of the
end of the 64-bit millisecond clock. -/
theorem health_tracks_failures (calls : List HealthCall)
    (hcount : ∀ pre, pre <+: calls → (recentFailures pre).length < 2 ^ 32)
    (hclock : ∀ nowMs, .failure nowMs ∈ calls →
      nowMs.toNat + healthCooldownMs.toNat < 2 ^ 64) :
    UpstreamHealth.Tracks calls := by
  have hm := UpstreamHealth.means_after hcount hclock
  refine ⟨fun t _ => hm.isDegraded_iff t, ?_⟩
  intro pre nowMs hpre
  have hsub : pre <+: calls := (List.prefix_append _ _).trans hpre
  have hpm := UpstreamHealth.means_after (fun p hp => hcount p (hp.trans hsub))
    (fun n hn => hclock n (hsub.mem hn))
  have hlen := hcount _ hpre
  rw [recentFailures_failure, List.length_append] at hlen
  exact hpm.recordFailure_iff hlen (hclock nowMs (hpre.mem (by simp)))

theorem HealthCall.length_recentFailures_le (calls : List HealthCall) :
    (recentFailures calls).length ≤ calls.length :=
  (List.rtakeWhile_suffix _ _).length_le

/-- Three failures within twenty milliseconds: degraded until thirty
seconds after the last. -/
theorem health_tracks_failures_three :
    let calls : List HealthCall := [.failure 0, .failure 10, .failure 20]
    (UpstreamHealth.after calls).isDegraded 30019 = true ∧
      (UpstreamHealth.after calls).isDegraded 30020 = false ∧ UpstreamHealth.Tracks calls := by
  refine ⟨by decide, by decide, health_tracks_failures _ ?_ ?_⟩
  · intro pre hpre
    have hlen := hpre.length_le
    have hle := HealthCall.length_recentFailures_le pre
    simp only [List.length_cons, List.length_nil] at hlen
    omega
  · intro nowMs hmem
    simp only [List.mem_cons, List.not_mem_nil, HealthCall.failure.injEq, or_false] at hmem
    rcases hmem with rfl | rfl | rfl <;> decide

/-- In the last milliseconds of the clock the sum wraps: three failures do
not make the upstream degraded. -/
theorem health_clock_wraps :
    let nowMs : UInt64 := 0xFFFFFFFFFFFFFFFF
    let calls : List HealthCall := [.failure nowMs, .failure nowMs, .failure nowMs]
    calls.Pairwise (fun a b => a.nowMs ≤ b.nowMs) ∧
      (∀ pre, pre <+: calls → (HealthCall.recentFailures pre).length < 2 ^ 32) ∧
      ¬ UpstreamHealth.Tracks calls := by
  intro nowMs calls
  refine ⟨by decide, ?_, ?_⟩
  · intro pre hpre
    have hlen := hpre.length_le
    have hle := HealthCall.length_recentFailures_le pre
    simp only [calls, List.length_cons, List.length_nil] at hlen
    omega
  · intro h
    have hdegraded : (UpstreamHealth.after calls).isDegraded nowMs = true :=
      (h.1 nowMs (by decide)).mpr ⟨by decide, .failure nowMs, by decide, by decide⟩
    exact absurd hdegraded (by decide)

/-! ## Access by access -/

/-- The access to an atomic that a call makes next. -/
inductive HealthPhase where
  | storeFailures
  | storeDegraded
  | fetchAdd (nowMs : UInt64)
  | swap (nowMs : UInt64)
  /-- What `record_failure` returned, `none` for `record_success`. -/
  | returned (pushed : Option Bool)
  deriving DecidableEq, Repr

/-- A call with the clock it was given, before its first access. -/
def HealthCall.start : HealthCall → HealthPhase
  | .success _ => .storeFailures
  | .failure nowMs => .fetchAdd nowMs

/-- One atomic access. -/
def HealthPhase.access (h : UpstreamHealth) :
    HealthPhase → Option (UpstreamHealth × HealthPhase)
  | .storeFailures => some ({ h with consecutiveFailures := 0 }, .storeDegraded)
  | .storeDegraded => some ({ h with degradedUntilMs := 0 }, .returned none)
  | .fetchAdd nowMs =>
      let failures := h.consecutiveFailures + 1
      some ({ h with consecutiveFailures := failures },
        if failures ≥ healthFailureThreshold then .swap nowMs else .returned (some false))
  | .swap nowMs =>
      some ({ h with degradedUntilMs := nowMs + healthCooldownMs },
        .returned (some (decide (h.degradedUntilMs ≤ nowMs))))
  | .returned _ => none

/-- A health record and the calls that are changing it. -/
structure HealthState where
  health : UpstreamHealth := {}
  calls : List HealthPhase := []
  deriving DecidableEq, Repr

/-- A call starts, or makes its next access. -/
inductive HealthEvent where
  | call (c : HealthCall)
  | access (i : Nat)
  deriving DecidableEq, Repr

namespace HealthState

/-- One access of an atomic. -/
def step (s : HealthState) : HealthEvent → Option HealthState
  | .call c => some { s with calls := s.calls ++ [c.start] }
  | .access i => do
      let phase ← s.calls[i]?
      let (health, phase) ← phase.access s.health
      some { health, calls := s.calls.set i phase }

/-- No call is in progress. -/
def Quiet (s : HealthState) : Prop := ∀ phase ∈ s.calls, ∃ pushed, phase = .returned pushed

/-- The step does not sideline the upstream after the failures that it
counted have been reset, and the counter does not wrap. -/
def timely (s : HealthState) : HealthEvent → Bool
  | .call _ => true
  | .access i =>
      match s.calls[i]? with
      | some (.swap _) => decide (healthFailureThreshold ≤ s.health.consecutiveFailures)
      | some (.fetchAdd _) => decide (s.health.consecutiveFailures.toNat + 1 < 2 ^ 32)
      | _ => true

/-- A sidelined upstream has its failures, or a success is about to put it
back. -/
def Accounted (s : HealthState) : Prop :=
  s.health.degradedUntilMs ≠ 0 →
    healthFailureThreshold ≤ s.health.consecutiveFailures ∨ .storeDegraded ∈ s.calls

variable {s s' : HealthState} {ev : HealthEvent}

/-- Whoever is not moved stays. -/
theorem mem_set_of_ne {calls : List HealthPhase} {i : Nat} {phase phase' other : HealthPhase}
    (hi : calls[i]? = some phase) (hne : other ≠ phase) (hmem : other ∈ calls) :
    other ∈ calls.set i phase' := by
  obtain ⟨j, hj⟩ := List.mem_iff_getElem?.mp hmem
  refine List.mem_iff_getElem?.mpr ⟨j, getElem?_set_eq_some.mpr (.inl ⟨?_, hj⟩)⟩
  rintro rfl
  exact hne (Option.some_inj.mp (hj.symm.trans hi))

theorem Accounted.step (h : Accounted s) (hev : s.timely ev = true) (hs : s.step ev = some s') :
    Accounted s' := by
  cases ev with
  | call c =>
      cases hs
      intro hne
      exact (h hne).imp_right fun hmem => List.mem_append_left _ hmem
  | access i =>
      obtain ⟨phase, hphase, hs⟩ := Option.bind_eq_some_iff.mp hs
      obtain ⟨⟨health, phase'⟩, hacc, hs⟩ := Option.bind_eq_some_iff.mp hs
      cases hs
      intro hne
      cases phase with
      | storeFailures =>
          cases hacc
          -- the other half of the success is still to come
          exact .inr (List.mem_of_getElem? (getElem?_set_of_some hphase _))
      | storeDegraded =>
          cases hacc
          exact absurd rfl hne
      | fetchAdd nowMs =>
          cases hacc
          simp only [timely, hphase, decide_eq_true_eq] at hev
          rcases h hne with hge | hmem
          · refine .inl ?_
            rw [UInt32.le_iff_toNat_le] at hge ⊢
            rw [UpstreamHealth.toNat_failures_succ hev]
            omega
          · exact .inr (mem_set_of_ne hphase (by simp) hmem)
      | swap nowMs =>
          have hge : healthFailureThreshold ≤ s.health.consecutiveFailures := by
            simpa only [timely, hphase, decide_eq_true_eq] using hev
          have hkeep : health.consecutiveFailures = s.health.consecutiveFailures := by
            cases hacc
            rfl
          refine .inl ?_
          show healthFailureThreshold ≤ health.consecutiveFailures
          rw [hkeep]
          exact hge
      | returned pushed => cases hacc

/-- A call that nobody interrupts is `record_success`. -/
theorem run_success (h : UpstreamHealth) (calls : List HealthPhase) (nowMs : UInt64) :
    run step ⟨h, calls⟩ [.call (.success nowMs), .access calls.length, .access calls.length] =
      some ⟨h.recordSuccess, calls ++ [.returned none]⟩ := by
  simp [step, HealthCall.start, HealthPhase.access, UpstreamHealth.recordSuccess]

/-- A call that nobody interrupts is `record_failure`. -/
theorem run_failure (h : UpstreamHealth) (calls : List HealthPhase) (nowMs : UInt64) :
    ∃ es, run step ⟨h, calls⟩ (.call (.failure nowMs) :: es) =
      some ⟨(h.recordFailure nowMs).1,
        calls ++ [.returned (some (h.recordFailure nowMs).2)]⟩ := by
  unfold UpstreamHealth.recordFailure
  by_cases hge : h.consecutiveFailures + 1 ≥ healthFailureThreshold
  · refine ⟨[.access calls.length, .access calls.length], ?_⟩
    simp [step, HealthCall.start, HealthPhase.access, hge]
  · refine ⟨[.access calls.length], ?_⟩
    simp [step, HealthCall.start, HealthPhase.access, hge]

end HealthState

/-- **Health access by access.** In every run in which no call sidelines
the upstream once its failures have been reset and the counter does not
wrap: whenever no call is in progress, a sidelined upstream still has the
failures it is sidelined for. -/
theorem quiet_health_consistent (es : List HealthEvent)
    (htimely : ∀ s ev s', Takes HealthState.step {} es s ev s' → s.timely ev = true) :
    ∀ s, Passes HealthState.step {} es s → s.Quiet → s.health.degradedUntilMs ≠ 0 →
      healthFailureThreshold ≤ s.health.consecutiveFailures := by
  intro s hs hquiet hne
  -- carried: a deadline without its failures has a success under way that takes it back
  have hinv : s.Accounted := by
    refine hs.invariant ?_ fun s ev s' ht hi => hi.step (htimely s ev s' ht) ht.step_eq
    intro hne
    exact absurd rfl hne
  rcases hinv hne with hge | hmem
  · exact hge
  · obtain ⟨pushed, hpushed⟩ := hquiet _ hmem
    cases hpushed

/-- Three failures one after another. -/
theorem quiet_health_consistent_in_turn :
    let es : List HealthEvent :=
      [.call (.failure 1), .access 0, .call (.failure 2), .access 1, .call (.failure 3),
       .access 2, .access 2]
    ∃ s, Passes HealthState.step {} es s ∧ s.health.degradedUntilMs ≠ 0 ∧
      healthFailureThreshold ≤ s.health.consecutiveFailures := by
  intro es
  have hrun : run HealthState.step {} es = some
      ⟨⟨3, 30003⟩, [.returned (some false), .returned (some false), .returned (some true)]⟩ := by
    decide
  have hne : (30003 : UInt64) ≠ 0 := by decide
  refine ⟨_, .finish hrun, hne, quiet_health_consistent es ?_ _ (.finish hrun) ?_ hne⟩
  · intro s ev s' ht
    exact test_of_along (p := HealthState.timely) (by decide) ht
  · intro phase hmem
    simp only [List.mem_cons, List.not_mem_nil, or_false] at hmem
    rcases hmem with rfl | rfl | rfl <;> exact ⟨_, rfl⟩

/-- The third failure has counted; a success resets both numbers; then the
failure sidelines the upstream, with no failure on record. -/
theorem sidelined_after_reset :
    let es : List HealthEvent :=
      [.call (.failure 1), .access 0, .call (.failure 2), .access 1, .call (.failure 3),
       .access 2, .call (.success 4), .access 3, .access 3, .access 2]
    ∃ s, Passes HealthState.step {} es s ∧ s.Quiet ∧ s.health.degradedUntilMs ≠ 0 ∧
      ¬ healthFailureThreshold ≤ s.health.consecutiveFailures := by
  intro es
  have hrun : run HealthState.step {} es = some
      ⟨⟨0, 30003⟩, [.returned (some false), .returned (some false), .returned (some true),
        .returned none]⟩ := by
    decide
  refine ⟨_, .finish hrun, ?_, by decide, by decide⟩
  intro phase hmem
  simp only [List.mem_cons, List.not_mem_nil, or_false] at hmem
  rcases hmem with rfl | rfl | rfl | rfl <;> exact ⟨_, rfl⟩

end Dotdns
