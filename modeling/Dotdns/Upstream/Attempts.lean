import Mathlib.Data.List.Perm.Basic
import Dotdns.Upstream.Accounting

/-!
# Upstream — what a failure means

Calls of `UpstreamPool::query` that run at once share the health of the
upstreams, so each changes the orders that later ones get. What a call has
tried is its own all the same: a call that returns an error has tried every
upstream of the pool once, and its error is the last one's.
-/

namespace Dotdns

open Lib

/-- An attempt that is over: whose it was, and what became of it. -/
structure MadeAttempt where
  call : Nat
  upstream : Nat
  result : PendingResult

namespace PoolState

/-- The attempt that a step completes. -/
def attempted (s : PoolState) : PoolEvent → Option MadeAttempt
  | .attempt i a =>
      match s.calls[i]? with
      | some (.trying idx _) => some ⟨i, idx, a.result⟩
      | _ => none
  | .call _ | .cancel _ => none

/-- The attempts of call `i`, in order. -/
def attemptsOf (i : Nat) (made : List MadeAttempt) : List MadeAttempt :=
  made.filter fun a => a.call == i

end PoolState

/-- The upstream did not answer. -/
def MadeAttempt.Failed (a : MadeAttempt) : Prop := ∃ e, a.result = .error e

/-- What a call has tried, of `n` upstreams, by where it stands. -/
def PoolCall.Tried (n : Nat) (tried : List MadeAttempt) : PoolCall → Prop
  | .trying idx order =>
      (tried.map MadeAttempt.upstream ++ idx :: order).Perm (List.range n) ∧
        ∀ a ∈ tried, a.Failed
  | .returned (.ok response) =>
      ∃ before last, tried = before ++ [last] ∧ last.result = .ok response ∧
        (tried.map MadeAttempt.upstream).Subperm (List.range n) ∧ ∀ a ∈ before, a.Failed
  | .returned (.error e) =>
      (tried.map MadeAttempt.upstream).Perm (List.range n) ∧ (∀ a ∈ tried, a.Failed) ∧
        (tried.getLast?.map MadeAttempt.result).getD (.error .allFailed) = .error e
  | .cancelled =>
      (tried.map MadeAttempt.upstream).Subperm (List.range n) ∧ ∀ a ∈ tried, a.Failed

section
variable {n : Nat} {tried : List MadeAttempt}

/-- The head of the loop, with all but `order` tried. -/
theorem PoolCall.tried_next {order : List Nat}
    (hperm : (tried.map MadeAttempt.upstream ++ order).Perm (List.range n))
    (hfailed : ∀ a ∈ tried, a.Failed) {lastErr : Option UpstreamError}
    (hlast : (tried.getLast?.map MadeAttempt.result).getD (.error .allFailed) =
      .error (lastErr.getD .allFailed)) :
    (PoolCall.next lastErr order).Tried n tried := by
  cases order with
  | nil =>
      rw [List.append_nil] at hperm
      exact ⟨hperm, hfailed, hlast⟩
  | cons idx order => exact ⟨hperm, hfailed⟩

/-- One more attempt. -/
theorem PoolCall.tried_after {idx : Nat} {order : List Nat}
    (h : (PoolCall.trying idx order).Tried n tried) (i : Nat) (a : Attempt) :
    (PoolCall.after order a).Tried n (tried ++ [⟨i, idx, a.result⟩]) := by
  obtain ⟨hperm, hfailed⟩ := h
  have hperm' : ((tried ++ [(⟨i, idx, a.result⟩ : MadeAttempt)]).map MadeAttempt.upstream ++
      order).Perm (List.range n) := by
    rw [List.map_append, List.append_assoc]
    exact hperm
  unfold PoolCall.after
  cases hres : a.result with
  | ok response =>
      rw [hres] at hperm'
      have hsub := (List.sublist_append_left _ _).subperm.trans hperm'.subperm
      exact ⟨tried, _, rfl, rfl, hsub, hfailed⟩
  | error e =>
      rw [hres] at hperm'
      refine tried_next hperm' ?_ ?_
      · intro b hb
        rcases List.mem_append.mp hb with hb | hb
        · exact hfailed b hb
        · rw [List.mem_singleton.mp hb]
          exact ⟨e, rfl⟩
      · rw [List.getLast?_concat]
        rfl

/-- A call that is dropped stops trying. -/
theorem PoolCall.tried_cancelled {idx : Nat} {order : List Nat}
    (h : (PoolCall.trying idx order).Tried n tried) : PoolCall.cancelled.Tried n tried :=
  ⟨(List.sublist_append_left _ _).subperm.trans h.1.subperm, h.2⟩

end

/-! ## Every run -/

namespace PoolState

/-- What each call has tried; a call that is yet to come has tried
nothing. -/
structure TriedOk (n : Nat) (made : List MadeAttempt) (s : PoolState) : Prop where
  calls : ∀ (i : Nat) (c : PoolCall), s.calls[i]? = some c → c.Tried n (attemptsOf i made)
  fresh : ∀ i, s.calls.length ≤ i → attemptsOf i made = []
  names : s.pool.names.length = n

section
variable {n : Nat} {made : List MadeAttempt} {s s' : PoolState} {e : PoolEvent}

theorem attemptsOf_concat (i : Nat) (a : MadeAttempt) :
    attemptsOf i (made ++ [a]) = attemptsOf i made ++ if a.call == i then [a] else [] := by
  unfold attemptsOf
  rw [List.filter_append, List.filter_singleton]
  cases a.call == i <;> rfl

theorem TriedOk.init (names : List Str) (policy : UpstreamSelectionPolicy) (m : Metrics) :
    TriedOk names.length [] (.init names policy m) where
  calls i c h := by cases h
  fresh i _ := rfl
  names := rfl

/-- A new call has all the upstreams before it. -/
theorem TriedOk.call (h : TriedOk n made s) {nowMs : UInt64}
    (hs : s.step (.call nowMs) = some s') : TriedOk n made s' := by
  have hnew : ∀ {pool : UpstreamPool} {c : PoolCall}, pool.names.length = n → c.Tried n [] →
      TriedOk n made { s with pool, calls := s.calls ++ [c] } := by
    intro pool c hn hc
    refine ⟨?_, ?_, hn⟩
    · intro i c' hi
      rcases getElem?_concat_eq_some.mp hi with hi | ⟨rfl, rfl⟩
      · exact h.calls i c' hi
      · rw [h.fresh _ (Nat.le_refl _)]
        exact hc
    · intro i hi
      rw [List.length_append] at hi
      exact h.fresh i (by omega)
  simp only [PoolState.step] at hs
  split at hs
  · rename_i hlen
    cases hs
    obtain rfl : n = 0 := h.names.symm.trans hlen
    exact hnew h.names ⟨.nil, by simp, rfl⟩
  · cases hs
    have hnames := s.pool.takeStart_names
    refine hnew (by rw [hnames]; exact h.names) (PoolCall.tried_next ?_ (by simp) rfl)
    have hperm := s.pool.takeStart.2.attemptOrder_perm s.pool.takeStart.1 nowMs
    rw [hnames, h.names] at hperm
    exact hperm

/-- An attempt is entered for its own call and no other. -/
theorem TriedOk.attempt (h : TriedOk n made s) {i : Nat} {a : Attempt}
    (hs : s.step (.attempt i a) = some s') :
    TriedOk n (made ++ (s.attempted (.attempt i a)).toList) s' := by
  simp only [PoolState.step] at hs
  split at hs
  · rename_i idx order hi
    cases hs
    have hlt := (List.getElem?_eq_some_iff.mp hi).1
    simp only [attempted, hi, Option.toList_some]
    refine ⟨?_, ?_, (congrArg List.length (s.pool.names_noteAttempt idx a)).trans h.names⟩
    · intro j c hj
      rw [attemptsOf_concat]
      rcases getElem?_set_eq_some.mp hj with ⟨hne, hj⟩ | ⟨rfl, _, rfl⟩
      · have hother : (i == j) = false := by simpa using Ne.symm hne
        simp only [hother, Bool.false_eq_true, if_false, List.append_nil]
        exact h.calls j c hj
      · simp only [BEq.rfl, if_true]
        exact PoolCall.tried_after (h.calls j _ hi) j a
    · intro j hj
      rw [List.length_set] at hj
      have hother : (i == j) = false := beq_eq_false_iff_ne.mpr (by omega)
      simp only [attemptsOf_concat, hother, Bool.false_eq_true, if_false, List.append_nil]
      exact h.fresh j hj
  · cases hs

theorem TriedOk.step (h : TriedOk n made s) (hs : s.step e = some s') :
    TriedOk n (made ++ (s.attempted e).toList) s' := by
  cases e with
  | call nowMs =>
      rw [attempted, Option.toList_none, List.append_nil]
      exact h.call hs
  | attempt i a => exact h.attempt hs
  | cancel i =>
      rw [attempted, Option.toList_none, List.append_nil]
      simp only [PoolState.step] at hs
      split at hs
      · rename_i idx order hi
        cases hs
        refine ⟨?_, ?_, h.names⟩
        · intro j c hj
          rcases getElem?_set_eq_some.mp hj with ⟨_, hj⟩ | ⟨rfl, _, rfl⟩
          · exact h.calls j c hj
          · exact PoolCall.tried_cancelled (h.calls j _ hi)
        · intro j hj
          rw [List.length_set] at hj
          exact h.fresh j hj
      · cases hs

theorem triedOk_of_run {names : List Str} {policy : UpstreamSelectionPolicy} {m : Metrics}
    {es : List PoolEvent} (hrun : run PoolState.step (.init names policy m) es = some s) :
    TriedOk names.length
      (trace PoolState.step attempted (.init names policy m) es) s := by
  refine run_induction (I := fun es s => TriedOk names.length
    (trace PoolState.step attempted (.init names policy m) es) s) (.init names policy m) ?_ hrun
  intro es s e s' hrun h hs
  rw [trace_concat hrun]
  exact h.step hs

end

end PoolState

/-- **What a call of the pool has tried.** In every run of any number of
calls at once: a call that returned an error has tried each upstream of the
pool exactly once, every attempt has failed, and the error is that of the
last one (or that there is no upstream); a call that returned a response
has it from its last attempt, all before having failed; and no call tries
an upstream twice. -/
theorem pool_calls_try_all (names : List Str) (policy : UpstreamSelectionPolicy) (m : Metrics)
    (es : List PoolEvent) (s : PoolState)
    (hrun : run PoolState.step (.init names policy m) es = some s) (i : Nat) (c : PoolCall)
    (hc : s.calls[i]? = some c) :
    c.Tried names.length (PoolState.attemptsOf i
      (trace PoolState.step PoolState.attempted (.init names policy m) es)) :=
  (PoolState.triedOk_of_run hrun).calls i c hc

/-- Two calls at once on two upstreams: the first finds both down, the
second is answered by the one it starts with. -/
theorem pool_calls_try_all_two_calls :
    let es : List PoolEvent :=
      [.call 0, .call 0, .attempt 0 { result := .error .timeout },
       .attempt 1 { result := .ok {} }, .attempt 0 { result := .error .allFailed }]
    ∃ s, run PoolState.step (.init ["a".toList, "b".toList] .roundRobin {}) es = some s ∧
      (PoolCall.returned (.error .allFailed)).Tried 2 (PoolState.attemptsOf 0
        (trace PoolState.step PoolState.attempted
          (.init ["a".toList, "b".toList] .roundRobin {}) es)) := by
  intro es
  exact ⟨_, rfl, pool_calls_try_all ["a".toList, "b".toList] .roundRobin {} es _ rfl 0 _ rfl⟩

end Dotdns
