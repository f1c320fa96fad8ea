import Dotdns.Lib.Run
import Dotdns.Upstream.Pool

/-!
# Upstream — two books

`UpstreamPool::query` enters every attempt in two places: the process-wide
counters, where a timeout is also a failure, and the registry, where it is
not, and where upstreams that share a name share an entry.

Any number of `query` calls run at once, each with its own order, on one
pool; the code after an attempt runs without an await and is one step. The
headline is that the two books agree, and agree with the number of
attempts, until a 64-bit counter runs over.
-/

namespace Dotdns

open Lib

namespace UpstreamPool

/-- What `query` does once attempt `a` on upstream `idx` is over. -/
def noteAttempt (p : UpstreamPool) (idx : Nat) (a : Attempt) : UpstreamPool :=
  match a.result with
  | .ok _ => p.noteSuccess idx a.elapsedMs
  | .error e => p.noteFailure idx e a.nowMs

end UpstreamPool

/-- Where a `query` call stands: before its attempt on `idx`, with the rest
of its order; or at its end. -/
inductive PoolCall where
  | trying (idx : Nat) (order : List Nat)
  | returned (result : PendingResult)
  | cancelled

/-- The head of the loop. -/
def PoolCall.next (lastErr : Option UpstreamError) : List Nat → PoolCall
  | [] => .returned (.error (lastErr.getD .allFailed))
  | idx :: order => .trying idx order

/-- The call after attempt `a`, with `order` left to try. -/
def PoolCall.after (order : List Nat) (a : Attempt) : PoolCall :=
  match a.result with
  | .ok response => .returned (.ok response)
  | .error e => .next (some e) order

/-- What the calls of the pool do, one await at a time. -/
inductive PoolEvent where
  /-- A new call, when the clock reads `nowMs`. -/
  | call (nowMs : UInt64)
  /-- The attempt of call `i` is over. -/
  | attempt (i : Nat) (a : Attempt)
  /-- The future of call `i` is dropped at an await. -/
  | cancel (i : Nat)

/-- The pool and its calls. -/
structure PoolState where
  pool : UpstreamPool
  calls : List PoolCall
  /-- Ghost: the attempts that have been completed. -/
  made : Nat

namespace PoolState

/-- As `run_serve` wires it: the registry has the pool's names. -/
def init (names : List Str) (policy : UpstreamSelectionPolicy) (metrics : Metrics) : PoolState where
  pool := .new names policy (some metrics) (some (.withUpstreams names))
  calls := []
  made := 0

/-- One step of a call. -/
def step (s : PoolState) : PoolEvent → Option PoolState
  | .call nowMs =>
      if s.pool.names.length = 0 then
        some { s with calls := s.calls ++ [.returned (.error .allFailed)] }
      else
        let (start, pool) := s.pool.takeStart
        some { s with pool, calls := s.calls ++ [.next none (pool.attemptOrder start nowMs)] }
  | .attempt i a =>
      match s.calls[i]? with
      | some (.trying idx order) =>
          some ⟨s.pool.noteAttempt idx a, s.calls.set i (.after order a), s.made + 1⟩
      | _ => none
  | .cancel i =>
      match s.calls[i]? with
      | some (.trying _ _) => some { s with calls := s.calls.set i .cancelled }
      | _ => none

theorem step_attempt {s : PoolState} {i idx : Nat} {order : List Nat}
    (hi : s.calls[i]? = some (.trying idx order)) (a : Attempt) :
    s.step (.attempt i a) =
      some ⟨s.pool.noteAttempt idx a, s.calls.set i (.after order a), s.made + 1⟩ := by
  simp only [step, hi]

/-- Call `i`, which stands at the head of its loop, is left alone. -/
theorem run_attempts (attempts : Nat → Attempt) (order : List Nat) (k : Nat)
    (lastErr : Option UpstreamError) (s : PoolState) (i : Nat)
    (hi : s.calls[i]? = some (.next lastErr order)) :
    ∃ es s', run step s es = some s' ∧
      s'.pool = (UpstreamPool.attemptLoop attempts order k lastErr s.pool).2.1 ∧
      s'.calls[i]? =
        some (.returned (UpstreamPool.attemptLoop attempts order k lastErr s.pool).1) ∧
      s'.made =
        s.made + (UpstreamPool.attemptLoop attempts order k lastErr s.pool).2.2.length := by
  induction order generalizing k lastErr s with
  | nil => exact ⟨[], s, rfl, rfl, hi, rfl⟩
  | cons idx order ih =>
      have hstep := step_attempt hi (attempts k)
      have hcall := getElem?_set_of_some hi (.after order (attempts k))
      cases hres : (attempts k).result with
      | ok response =>
          rw [UpstreamPool.attemptLoop_ok hres]
          simp only [PoolCall.after, UpstreamPool.noteAttempt, hres] at hstep hcall
          refine ⟨[.attempt i (attempts k)],
            ⟨s.pool.noteSuccess idx (attempts k).elapsedMs, _, s.made + 1⟩, ?_, rfl, hcall, rfl⟩
          rw [run_cons, hstep]
          rfl
      | error e =>
          rw [UpstreamPool.attemptLoop_error hres]
          simp only [PoolCall.after, UpstreamPool.noteAttempt, hres] at hstep hcall
          obtain ⟨es, s', hrun, hpool, hreturned, hmade⟩ := ih (k + 1) (some e)
            ⟨s.pool.noteFailure idx e (attempts k).nowMs, _, s.made + 1⟩ hcall
          refine ⟨.attempt i (attempts k) :: es, s', ?_, hpool, hreturned, ?_⟩
          · rw [run_cons, hstep]
            exact hrun
          · dsimp only at hmade
            rw [hmade, List.length_cons]
            omega

/-- A call that is left alone does what `UpstreamPool.query` says. -/
theorem run_query (s : PoolState) (nowMs : UInt64) (attempts : Nat → Attempt) :
    ∃ es s', run step s (.call nowMs :: es) = some s' ∧
      s'.pool = (s.pool.query nowMs attempts).2.1 ∧
      s'.calls[s.calls.length]? = some (.returned (s.pool.query nowMs attempts).1) ∧
      s'.made = s.made + (s.pool.query nowMs attempts).2.2.length := by
  by_cases hlen : s.pool.names.length = 0
  · have hstep : s.step (.call nowMs) =
        some { s with calls := s.calls ++ [.returned (.error .allFailed)] } := by
      simp only [step, hlen, if_true]
    have hquery : s.pool.query nowMs attempts = (.error .allFailed, s.pool, []) := by
      simp only [UpstreamPool.query, hlen, if_true]
    rw [hquery]
    refine ⟨[], { s with calls := _ }, ?_, rfl, getElem?_concat_eq_some.mpr (.inr ⟨rfl, rfl⟩), rfl⟩
    rw [run_cons, hstep]
    rfl
  · let s₁ : PoolState :=
      { s with
        pool := s.pool.takeStart.2
        calls := s.calls ++
          [.next none (s.pool.takeStart.2.attemptOrder s.pool.takeStart.1 nowMs)] }
    have hs₁ : s.step (.call nowMs) = some s₁ := by
      simp only [step, hlen, if_false]
      rfl
    have hi₁ : s₁.calls[s.calls.length]? =
        some (.next none (s.pool.takeStart.2.attemptOrder s.pool.takeStart.1 nowMs)) :=
      getElem?_concat_eq_some.mpr (.inr ⟨rfl, rfl⟩)
    obtain ⟨es, s', hrun, hpool, hcall, hmade⟩ :=
      run_attempts attempts _ 0 none s₁ s.calls.length hi₁
    have hquery : s.pool.query nowMs attempts = UpstreamPool.attemptLoop attempts
        (s.pool.takeStart.2.attemptOrder s.pool.takeStart.1 nowMs) 0 none
        s.pool.takeStart.2 := by
      simp only [UpstreamPool.query, hlen, if_false]
    rw [hquery]
    refine ⟨es, s', ?_, hpool, hcall, hmade⟩
    simp only [run_cons, hs₁, Option.bind_some, hrun]

end PoolState

/-! ## One entry in the books -/

/-- What an attempt is entered as. -/
inductive Entry where
  | success (latencyMs : UInt64)
  | failure
  | timeout

/-- How the attempt is entered in both books. -/
def Attempt.entry (a : Attempt) : Entry :=
  match a.result with
  | .ok _ => .success a.elapsedMs
  | .error e => if e = .timeout then .timeout else .failure

namespace Entry

/-- A timeout is two entries in the counters ... -/
def inMetrics : Entry → Metrics → Metrics
  | success _, m => m.recordUpstreamSuccess
  | failure, m => m.recordUpstreamFailure
  | timeout, m => m.recordUpstreamTimeout.recordUpstreamFailure

/-- ... and one in the registry. -/
def inStats : Entry → UpstreamStats → UpstreamStats
  | success latencyMs, stats => stats.recordSuccess latencyMs
  | failure, stats => stats.recordFailure
  | timeout, stats => stats.recordTimeout

end Entry

namespace UpstreamPool

theorem names_noteAttempt (p : UpstreamPool) (idx : Nat) (a : Attempt) :
    (p.noteAttempt idx a).names = p.names := by
  unfold noteAttempt
  cases a.result <;> rfl

theorem metrics_noteAttempt (p : UpstreamPool) (idx : Nat) (a : Attempt) :
    (p.noteAttempt idx a).metrics = p.metrics.map a.entry.inMetrics := by
  unfold noteAttempt Attempt.entry
  cases a.result with
  | ok response => rfl
  | error e => by_cases he : e = .timeout <;> simp only [noteFailure, he, if_true, if_false] <;> rfl

theorem observability_noteAttempt (p : UpstreamPool) (idx : Nat) (a : Attempt) :
    (p.noteAttempt idx a).observability =
      p.observability.map fun reg => reg.withUpstream (p.names.getD idx []) a.entry.inStats := by
  unfold noteAttempt Attempt.entry
  cases a.result with
  | ok response => rfl
  | error e => by_cases he : e = .timeout <;> simp only [noteFailure, he, if_true, if_false] <;> rfl

end UpstreamPool

/-- The sum of a counter over the entries of the registry. -/
def ObservabilityRegistry.upstreamTotal (reg : ObservabilityRegistry)
    (counter : UpstreamStats → UInt64) : Nat :=
  reg.upstreams.sumBy fun stats => (counter stats).toNat

namespace ObservabilityRegistry

/-- An entry changes, and the totals by what it changes. -/
theorem upstreamTotal_withUpstream {reg : ObservabilityRegistry} {name : Str}
    {stats : UpstreamStats} (h : reg.upstreams.get? name = some stats)
    (f : UpstreamStats → UpstreamStats) (counter : UpstreamStats → UInt64) :
    (reg.withUpstream name f).upstreamTotal counter + (counter stats).toNat =
      reg.upstreamTotal counter + (counter (f stats)).toNat := by
  unfold withUpstream
  rw [h]
  exact AssocMap.sumBy_insert_of_some h _ _

theorem upstreamTotal_withUpstream_same {reg : ObservabilityRegistry} {name : Str}
    {stats : UpstreamStats} (h : reg.upstreams.get? name = some stats)
    (f : UpstreamStats → UpstreamStats) (counter : UpstreamStats → UInt64)
    (hf : counter (f stats) = counter stats) :
    (reg.withUpstream name f).upstreamTotal counter = reg.upstreamTotal counter := by
  have hsum := upstreamTotal_withUpstream h f counter
  rw [hf] at hsum
  omega

theorem upstreamTotal_withUpstream_add_one {reg : ObservabilityRegistry} {name : Str}
    {stats : UpstreamStats} (h : reg.upstreams.get? name = some stats)
    (f : UpstreamStats → UpstreamStats) (counter : UpstreamStats → UInt64)
    (hf : counter (f stats) = counter stats + 1) (hlt : reg.upstreamTotal counter + 1 < 2 ^ 64) :
    (reg.withUpstream name f).upstreamTotal counter = reg.upstreamTotal counter + 1 := by
  have hsum := upstreamTotal_withUpstream h f counter
  have hle : (counter stats).toNat ≤ reg.upstreamTotal counter :=
    AssocMap.le_sumBy h fun stats => (counter stats).toNat
  have hone := (Metrics.gauge_add_one_iff (g := counter stats) rfl).mpr (by omega)
  rw [hf, hone] at hsum
  omega

/-- The registry knows every name. -/
def Knows (reg : ObservabilityRegistry) (names : List Str) : Prop :=
  ∀ name ∈ names, (reg.upstreams.get? name).isSome

theorem Knows.withUpstream {reg : ObservabilityRegistry} {names : List Str} (h : reg.Knows names)
    (name : Str) (f : UpstreamStats → UpstreamStats) : (reg.withUpstream name f).Knows names := by
  unfold ObservabilityRegistry.withUpstream
  split
  · intro n hn
    rw [AssocMap.get?_insert]
    split
    · rfl
    · exact h n hn
  · exact h

/-- The registry that is built from a list of names, repeated or not, knows
them, and every counter starts at zero. -/
theorem foldl_insert_names (names : List Str) (map : AssocMap Str UpstreamStats)
    (hzero : ∀ name stats, map.get? name = some stats → stats = {}) :
    let built := names.foldl (fun map name => map.insert name {}) map
    (∀ name stats, built.get? name = some stats → stats = {}) ∧
    (∀ name, name ∈ names ∨ (map.get? name).isSome → (built.get? name).isSome) := by
  induction names generalizing map with
  | nil =>
      refine ⟨hzero, ?_⟩
      intro name h
      rcases h with h | h
      · cases h
      · exact h
  | cons n names ih =>
      have hstep : ∀ name stats, (map.insert n {}).get? name = some stats → stats = {} := by
        intro name stats hget
        rw [AssocMap.get?_insert] at hget
        split at hget
        · exact (Option.some.inj hget).symm
        · exact hzero name stats hget
      obtain ⟨hz, hk⟩ := ih (map.insert n {}) hstep
      refine ⟨hz, ?_⟩
      intro name h
      apply hk name
      by_cases hn : n == name
      · right
        rw [AssocMap.get?_insert, if_pos hn]
        rfl
      · rcases h with h | h
        · rcases List.mem_cons.mp h with rfl | h
          · exact absurd (BEq.refl name) hn
          · exact .inl h
        · right
          rw [AssocMap.get?_insert, if_neg hn]
          exact h

theorem knows_withUpstreams (names : List Str) : (withUpstreams names).Knows names := by
  intro name hn
  exact (foldl_insert_names names .empty (by intro name stats h; cases h)).2 name (.inl hn)

theorem upstreamTotal_withUpstreams (names : List Str) (counter : UpstreamStats → UInt64)
    (hzero : counter {} = 0) : (withUpstreams names).upstreamTotal counter = 0 := by
  have hfresh := (foldl_insert_names names .empty (by intro name stats h; cases h)).1
  apply List.sum_eq_zero_iff_forall_eq_nat.mpr
  intro x hx
  obtain ⟨e, he, rfl⟩ := List.mem_map.mp hx
  show (counter e.2).toNat = 0
  rw [hfresh e.1 e.2 (AssocMap.get?_of_mem he), hzero]
  rfl

end ObservabilityRegistry

/-- The counters, which stood at `start`, agree with the registry and with
the number of attempts. -/
structure BooksAgree (start now : Metrics) (reg : ObservabilityRegistry) (made : Nat) : Prop where
  successes : increase start.upstreamSuccesses now.upstreamSuccesses =
    reg.upstreamTotal UpstreamStats.successCount
  timeouts : increase start.upstreamTimeouts now.upstreamTimeouts =
    reg.upstreamTotal UpstreamStats.timeoutCount
  failures : increase start.upstreamFailures now.upstreamFailures =
    reg.upstreamTotal UpstreamStats.failureCount + reg.upstreamTotal UpstreamStats.timeoutCount
  attempts : increase start.upstreamSuccesses now.upstreamSuccesses +
    increase start.upstreamFailures now.upstreamFailures = made

namespace BooksAgree

open ObservabilityRegistry

section
variable {start now : Metrics} {reg : ObservabilityRegistry} {made : Nat} {name : Str}
  {stats : UpstreamStats}

theorem success (h : BooksAgree start now reg made) (hlt : made + 1 < 2 ^ 64)
    (hname : reg.upstreams.get? name = some stats) (latencyMs : UInt64) :
    BooksAgree start now.recordUpstreamSuccess (reg.recordUpstreamSuccess name latencyMs)
      (made + 1) := by
  obtain ⟨hs, ht, hf, hn⟩ := h
  have hinc : increase start.upstreamSuccesses (now.upstreamSuccesses + 1) = _ :=
    increase_add_one (by omega)
  have hsuccesses := upstreamTotal_withUpstream_add_one hname (.recordSuccess latencyMs)
    UpstreamStats.successCount rfl (by omega)
  have hfailures := upstreamTotal_withUpstream_same hname (.recordSuccess latencyMs)
    UpstreamStats.failureCount rfl
  have htimeouts := upstreamTotal_withUpstream_same hname (.recordSuccess latencyMs)
    UpstreamStats.timeoutCount rfl
  constructor <;> simp only [Metrics.recordUpstreamSuccess, recordUpstreamSuccess, hinc,
    hsuccesses, hfailures, htimeouts] <;> omega

/-- A failure that is not a timeout. -/
theorem failure (h : BooksAgree start now reg made) (hlt : made + 1 < 2 ^ 64)
    (hname : reg.upstreams.get? name = some stats) :
    BooksAgree start now.recordUpstreamFailure (reg.recordUpstreamFailure name) (made + 1) := by
  obtain ⟨hs, ht, hf, hn⟩ := h
  have hinc : increase start.upstreamFailures (now.upstreamFailures + 1) = _ :=
    increase_add_one (by omega)
  have hsuccesses := upstreamTotal_withUpstream_same hname .recordFailure
    UpstreamStats.successCount rfl
  have hfailures := upstreamTotal_withUpstream_add_one hname .recordFailure
    UpstreamStats.failureCount rfl (by omega)
  have htimeouts := upstreamTotal_withUpstream_same hname .recordFailure
    UpstreamStats.timeoutCount rfl
  constructor <;> simp only [Metrics.recordUpstreamFailure, recordUpstreamFailure, hinc,
    hsuccesses, hfailures, htimeouts] <;> omega

theorem timeout (h : BooksAgree start now reg made) (hlt : made + 1 < 2 ^ 64)
    (hname : reg.upstreams.get? name = some stats) :
    BooksAgree start now.recordUpstreamTimeout.recordUpstreamFailure
      (reg.recordUpstreamTimeout name) (made + 1) := by
  obtain ⟨hs, ht, hf, hn⟩ := h
  have hinc : increase start.upstreamFailures (now.upstreamFailures + 1) = _ :=
    increase_add_one (by omega)
  have hinc' : increase start.upstreamTimeouts (now.upstreamTimeouts + 1) = _ :=
    increase_add_one (by omega)
  have hsuccesses := upstreamTotal_withUpstream_same hname .recordTimeout
    UpstreamStats.successCount rfl
  have hfailures := upstreamTotal_withUpstream_same hname .recordTimeout
    UpstreamStats.failureCount rfl
  have htimeouts := upstreamTotal_withUpstream_add_one hname .recordTimeout
    UpstreamStats.timeoutCount rfl (by omega)
  constructor <;> simp only [Metrics.recordUpstreamFailure, Metrics.recordUpstreamTimeout,
    recordUpstreamTimeout, hinc, hinc', hsuccesses, hfailures, htimeouts] <;> omega

theorem entered (h : BooksAgree start now reg made) (hlt : made + 1 < 2 ^ 64)
    (hname : reg.upstreams.get? name = some stats) (entry : Entry) :
    BooksAgree start (entry.inMetrics now) (reg.withUpstream name entry.inStats) (made + 1) := by
  cases entry with
  | success latencyMs => exact h.success hlt hname latencyMs
  | failure => exact h.failure hlt hname
  | timeout => exact h.timeout hlt hname

end

/-- Nothing is entered yet. -/
theorem start (m : Metrics) (names : List Str) : BooksAgree m m (.withUpstreams names) 0 := by
  have hsuccesses := upstreamTotal_withUpstreams names UpstreamStats.successCount rfl
  have hfailures := upstreamTotal_withUpstreams names UpstreamStats.failureCount rfl
  have htimeouts := upstreamTotal_withUpstreams names UpstreamStats.timeoutCount rfl
  constructor <;> simp only [increase_self, hsuccesses, hfailures, htimeouts]

end BooksAgree

/-! ## Every run -/

namespace PoolState

open ObservabilityRegistry

/-- Every call tries upstreams of the pool, both stores are there, and they
agree as long as the number of attempts fits in 64 bits. -/
structure Inv (names : List Str) (start : Metrics) (s : PoolState) : Prop where
  names_eq : s.pool.names = names
  calls : ∀ idx order, .trying idx order ∈ s.calls → ∀ j ∈ idx :: order, j < names.length
  books : ∃ now reg, s.pool.metrics = some now ∧ s.pool.observability = some reg ∧
    reg.Knows names ∧ (s.made < 2 ^ 64 → BooksAgree start now reg s.made)

section
variable {names : List Str} {start : Metrics} {s s' : PoolState}

theorem inv_init (names : List Str) (policy : UpstreamSelectionPolicy) (start : Metrics) :
    Inv names start (init names policy start) where
  names_eq := rfl
  calls := by
    intro idx order h
    cases h
  books := ⟨start, .withUpstreams names, rfl, rfl, knows_withUpstreams names,
    fun _ => BooksAgree.start start names⟩

/-- Both stores are there, and the registry has an entry for every
upstream. -/
theorem Inv.entry (h : Inv names start s) {idx : Nat} (hidx : idx < names.length) :
    ∃ now reg stats, s.pool.metrics = some now ∧ s.pool.observability = some reg ∧
      reg.Knows names ∧ (s.made < 2 ^ 64 → BooksAgree start now reg s.made) ∧
      reg.upstreams.get? (s.pool.names.getD idx []) = some stats := by
  obtain ⟨now, reg, hm, hobs, hknows, hagree⟩ := h.books
  have hmem : s.pool.names.getD idx [] ∈ names := by
    rw [h.names_eq, List.getD_eq_getElem?_getD, List.getElem?_eq_getElem hidx]
    exact List.getElem_mem hidx
  obtain ⟨stats, hstats⟩ := Option.isSome_iff_exists.mp (hknows _ hmem)
  exact ⟨now, reg, stats, hm, hobs, hknows, hagree, hstats⟩

/-- The attempt is entered under a name that the registry knows. -/
theorem Inv.noteAttempt (h : Inv names start s) {idx : Nat} (hidx : idx < names.length)
    (a : Attempt) :
    (s.pool.noteAttempt idx a).names = names ∧
    ∃ now reg, (s.pool.noteAttempt idx a).metrics = some now ∧
      (s.pool.noteAttempt idx a).observability = some reg ∧ reg.Knows names ∧
      (s.made + 1 < 2 ^ 64 → BooksAgree start now reg (s.made + 1)) := by
  obtain ⟨now, reg, stats, hm, hobs, hknows, hagree, hstats⟩ := h.entry hidx
  rw [UpstreamPool.names_noteAttempt, UpstreamPool.metrics_noteAttempt,
    UpstreamPool.observability_noteAttempt, hm, hobs]
  refine ⟨h.names_eq, _, _, rfl, rfl, hknows.withUpstream _ _, ?_⟩
  intro hlt
  exact (hagree (by omega)).entered hlt hstats a.entry

/-- The next attempt of a call is one that was left in its order. -/
theorem lt_of_next {lastErr : Option UpstreamError} {order : List Nat} {n : Nat}
    (horder : ∀ j ∈ order, j < n) {idx : Nat} {rest : List Nat}
    (h : PoolCall.trying idx rest = .next lastErr order) : ∀ j ∈ idx :: rest, j < n := by
  cases order with
  | nil => cases h
  | cons i order =>
      cases h
      exact horder

theorem Inv.step (h : Inv names start s) {e : PoolEvent} (hs : s.step e = some s') :
    Inv names start s' := by
  cases e with
  | call nowMs =>
      simp only [PoolState.step] at hs
      split at hs
      · cases hs
        refine ⟨h.names_eq, ?_, h.books⟩
        intro idx order hcall
        rcases List.mem_append.mp hcall with hcall | hcall
        · exact h.calls idx order hcall
        · cases List.mem_singleton.mp hcall
      · cases hs
        -- taking a start moves the tickets and nothing else
        have hsame : s.pool.takeStart.2.names = s.pool.names ∧
            s.pool.takeStart.2.metrics = s.pool.metrics ∧
            s.pool.takeStart.2.observability = s.pool.observability := by
          unfold UpstreamPool.takeStart
          cases s.pool.policy <;> exact ⟨rfl, rfl, rfl⟩
        obtain ⟨hnames, hm, hobs⟩ := hsame
        refine ⟨hnames.trans h.names_eq, ?_, ?_⟩
        · intro idx order hcall
          rcases List.mem_append.mp hcall with hcall | hcall
          · exact h.calls idx order hcall
          · refine lt_of_next ?_ (List.mem_singleton.mp hcall)
            intro j hj
            have hrange := (UpstreamPool.attemptOrder_perm _ _ _).mem_iff.mp hj
            rw [hnames, h.names_eq] at hrange
            exact List.mem_range.mp hrange
        · dsimp only
          rw [hm, hobs]
          exact h.books
  | attempt i a =>
      simp only [PoolState.step] at hs
      split at hs
      · rename_i idx order hi
        cases hs
        have hlt := h.calls idx order (List.mem_of_getElem? hi)
        obtain ⟨hnames, hbooks⟩ := h.noteAttempt (hlt idx List.mem_cons_self) a
        refine ⟨hnames, ?_, hbooks⟩
        intro idx' order' hcall
        -- the call goes on with the rest of its own order
        rcases List.mem_or_eq_of_mem_set hcall with hcall | hcall
        · exact h.calls idx' order' hcall
        · unfold PoolCall.after at hcall
          split at hcall
          · cases hcall
          · exact lt_of_next (fun j hj => hlt j (List.mem_cons_of_mem _ hj)) hcall
      · cases hs
  | cancel i =>
      simp only [PoolState.step] at hs
      split at hs
      · cases hs
        refine ⟨h.names_eq, ?_, h.books⟩
        intro idx order hcall
        rcases List.mem_or_eq_of_mem_set hcall with hcall | hcall
        · exact h.calls idx order hcall
        · cases hcall
      · cases hs

theorem inv_of_passes {policy : UpstreamSelectionPolicy} {es : List PoolEvent}
    (h : Passes PoolState.step (init names policy start) es s) : Inv names start s :=
  h.invariant_of_step (inv_init names policy start) fun _ _ _ hi hs => hi.step hs

end

end PoolState

/-- **The two books agree.** For every run of any number of `query` calls on
a pool that shares its names, repeated or not, with its registry, and for
every state in which fewer than 2^64 attempts have been made: the
successes, the timeouts and the failures that the counters have gained are
those of the registry, and successes and failures are the attempts. -/
theorem upstream_books_agree (names : List Str) (policy : UpstreamSelectionPolicy)
    (start : Metrics) (es : List PoolEvent) (s : PoolState)
    (h : Passes PoolState.step (.init names policy start) es s) (hmade : s.made < 2 ^ 64) :
    ∃ now reg, s.pool.metrics = some now ∧ s.pool.observability = some reg ∧
      BooksAgree start now reg s.made := by
  obtain ⟨now, reg, hm, hobs, _, hagree⟩ := (PoolState.inv_of_passes h).books
  exact ⟨now, reg, hm, hobs, hagree hmade⟩

/-- Two upstreams of one name: the first times out and the second answers. -/
theorem upstream_books_agree_shared_name :
    let names : List Str := ["dns".toList, "dns".toList]
    let es : List PoolEvent :=
      [.call 0, .attempt 0 { result := .error .timeout }, .attempt 0 { result := .ok {} }]
    ∃ s now reg, Passes PoolState.step (.init names .sequential {}) es s ∧ s.made = 2 ∧
      s.pool.metrics = some now ∧ s.pool.observability = some reg ∧
      BooksAgree {} now reg s.made := by
  intro names es
  have hpass : Passes PoolState.step (.init names .sequential {}) es _ := .finish rfl
  obtain ⟨now, reg, hm, hobs, hagree⟩ :=
    upstream_books_agree names .sequential {} es _ hpass (by decide)
  exact ⟨_, now, reg, hpass, rfl, hm, hobs, hagree⟩

/-! ## A counter runs over -/

/-- One upstream, and `n` calls one after another that it answers. -/
def answeredCalls (n : Nat) : List PoolEvent :=
  (List.range n).flatMap fun i => [.call 0, .attempt i { result := .ok {} }]

/-- A pool of one upstream has one order. -/
theorem attemptOrder_single {p : UpstreamPool} (h : p.names.length = 1) (start : Nat)
    (nowMs : UInt64) : p.attemptOrder start nowMs = [0] := by
  have hperm := p.attemptOrder_perm start nowMs
  rw [h] at hperm
  exact List.perm_singleton.mp hperm

theorem run_answeredCalls (n : Nat) :
    ∃ s, run PoolState.step (.init ["dns".toList] .sequential {}) (answeredCalls n) = some s ∧
      s.made = n ∧ s.calls.length = n ∧ s.pool.names.length = 1 ∧ s.pool.policy = .sequential ∧
      ∃ now, s.pool.metrics = some now ∧ now.upstreamFailures = 0 := by
  induction n with
  | zero => exact ⟨_, rfl, rfl, rfl, rfl, rfl, _, rfl, rfl⟩
  | succ n ih =>
      obtain ⟨s, hrun, hmade, hcalls, hnames, hpolicy, now, hm, hfailures⟩ := ih
      have hcall : s.step (.call 0) = some { s with calls := s.calls ++ [.trying 0 []] } := by
        simp only [PoolState.step, UpstreamPool.takeStart, hpolicy, hnames]
        rw [attemptOrder_single hnames]
        rfl
      have hi : (s.calls ++ [PoolCall.trying 0 []])[n]? = some (.trying 0 []) :=
        getElem?_concat_eq_some.mpr (.inr ⟨hcalls.symm, rfl⟩)
      let answered : Attempt := { result := .ok {} }
      have hattempt := PoolState.step_attempt (s := { s with calls := _ }) hi answered
      refine ⟨⟨s.pool.noteAttempt 0 answered,
        (s.calls ++ [PoolCall.trying 0 []]).set n (.after [] answered), s.made + 1⟩, ?_,
        congrArg (· + 1) hmade, ?_, hnames, hpolicy, now.recordUpstreamSuccess,
        congrArg (Option.map Metrics.recordUpstreamSuccess) hm, hfailures⟩
      · rw [answeredCalls, List.range_succ, List.flatMap_append, run_append]
        rw [answeredCalls] at hrun
        rw [hrun, Option.bind_some, List.flatMap_singleton, run_cons, hcall, Option.bind_some,
          run_cons, hattempt]
        rfl
      · rw [List.length_set, List.length_append, hcalls]
        rfl

/-- After 2^64 answered calls the counters have not gained 2^64: a `u64`
holds no such number. -/
theorem upstream_books_run_over :
    ∃ s now,
      Passes PoolState.step (.init ["dns".toList] .sequential {}) (answeredCalls (2 ^ 64)) s ∧
      s.pool.metrics = some now ∧ s.made = 2 ^ 64 ∧
      increase 0 now.upstreamSuccesses + increase 0 now.upstreamFailures ≠ s.made := by
  obtain ⟨s, hrun, hmade, _, _, _, now, hm, hfailures⟩ := run_answeredCalls (2 ^ 64)
  refine ⟨s, now, .finish hrun, hm, hmade, ?_⟩
  have hsuccesses : increase 0 now.upstreamSuccesses < 2 ^ 64 := UInt64.toNat_lt _
  rw [hmade, hfailures, increase_self]
  omega

end Dotdns
