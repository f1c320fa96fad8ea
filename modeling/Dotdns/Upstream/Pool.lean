import Dotdns.Lib.Turns
import Dotdns.Metrics
import Dotdns.Observability
import Dotdns.Upstream.Error
import Dotdns.Validate

/-!
# Upstream — the pool

`UpstreamPool::query`: the upstreams are tried one after another, the
healthy ones first, until one answers. Health is passive: an upstream
that failed `HEALTH_FAILURE_THRESHOLD` times in a row is degraded for
`HEALTH_COOLDOWN`, and a success restores it.

What each upstream answers and what the clock says at each attempt is the
`Attempt` argument; attempts are numbered as the loop makes them. The
loop also returns the upstreams it tried (ghost).
-/

namespace Dotdns

open Lib

/-! ## Health -/

/-- `HEALTH_FAILURE_THRESHOLD`. -/
def healthFailureThreshold : UInt32 := 3

/-- `HEALTH_COOLDOWN` in milliseconds. -/
def healthCooldownMs : UInt64 := 30000

structure UpstreamHealth where
  consecutiveFailures : UInt32 := 0
  degradedUntilMs : UInt64 := 0
  deriving DecidableEq, Repr

namespace UpstreamHealth

/-- `is_degraded`. -/
def isDegraded (nowMs : UInt64) (h : UpstreamHealth) : Bool :=
  decide (h.degradedUntilMs > nowMs)

def recordSuccess (_ : UpstreamHealth) : UpstreamHealth := ⟨0, 0⟩

/-- With `true` when this failure pushed the upstream into the degraded
state. -/
def recordFailure (nowMs : UInt64) (h : UpstreamHealth) : UpstreamHealth × Bool :=
  let failures := h.consecutiveFailures + 1
  if failures ≥ healthFailureThreshold then
    (⟨failures, nowMs + healthCooldownMs⟩, decide (h.degradedUntilMs ≤ nowMs))
  else ({ h with consecutiveFailures := failures }, false)

end UpstreamHealth

/-! ## The pool -/

/-- `UpstreamSelectionPolicy`. -/
inductive UpstreamSelectionPolicy where
  | sequential
  | roundRobin
  deriving DecidableEq, Repr

/-- The pool, without the upstreams themselves: their names, and one health
record for each. -/
structure UpstreamPool where
  names : List Str
  policy : UpstreamSelectionPolicy := .sequential
  roundRobinNext : UInt64 := 0
  health : List UpstreamHealth
  metrics : Option Metrics := none
  observability : Option ObservabilityRegistry := none
  health_length : health.length = names.length

/-- One attempt as the environment decides it: what the upstream's `query`
returns, how long a success took, and the clock after a failure. -/
structure Attempt where
  result : PendingResult
  elapsedMs : UInt64 := 0
  nowMs : UInt64 := 0

namespace UpstreamPool

/-- `UpstreamPool::new`. -/
def new (names : List Str) (policy : UpstreamSelectionPolicy) (metrics : Option Metrics)
    (observability : Option ObservabilityRegistry) : UpstreamPool where
  names
  policy
  health := names.map fun _ => {}
  metrics
  observability
  health_length := List.length_map _

/-- `self.health[idx].is_degraded(now_ms)`. -/
def degradedAt (p : UpstreamPool) (nowMs : UInt64) (idx : Nat) : Bool :=
  p.health[idx]?.any (UpstreamHealth.isDegraded nowMs)

/-- `attempt_order`: one loop with two accumulators. -/
def attemptOrder (p : UpstreamPool) (start : Nat) (nowMs : UInt64) : List Nat :=
  let len := p.names.length
  let (healthy, degraded) := (List.range len).foldl
    (fun (healthy, degraded) offset =>
      let idx := (start + offset) % len
      if p.degradedAt nowMs idx then (healthy, degraded ++ [idx])
      else (healthy ++ [idx], degraded))
    ([], [])
  healthy ++ degraded

/-- One health record changes. -/
def setHealth (p : UpstreamPool) (idx : Nat) (f : UpstreamHealth → UpstreamHealth) :
    UpstreamPool :=
  { p with
    health := p.health.modify idx f
    health_length := (List.length_modify f _ idx).trans p.health_length }

/-- The bookkeeping after an upstream has answered. -/
def noteSuccess (p : UpstreamPool) (idx : Nat) (elapsedMs : UInt64) : UpstreamPool :=
  { p.setHealth idx UpstreamHealth.recordSuccess with
    metrics := p.metrics.map Metrics.recordUpstreamSuccess
    observability := p.observability.map fun obs =>
      obs.recordUpstreamSuccess (p.names.getD idx []) elapsedMs }

/-- The bookkeeping after an upstream has failed; the counters tell a
timeout from the other errors, the health does not. -/
def noteFailure (p : UpstreamPool) (idx : Nat) (e : UpstreamError) (nowMs : UInt64) :
    UpstreamPool :=
  { p.setHealth idx (fun h => (h.recordFailure nowMs).1) with
    metrics := p.metrics.map fun m =>
      (if e = .timeout then m.recordUpstreamTimeout else m).recordUpstreamFailure
    observability := p.observability.map fun obs =>
      if e = .timeout then obs.recordUpstreamTimeout (p.names.getD idx [])
      else obs.recordUpstreamFailure (p.names.getD idx []) }

/-- The loop of `query` from attempt number `k`. -/
def attemptLoop (attempts : Nat → Attempt) :
    List Nat → Nat → Option UpstreamError → UpstreamPool →
      PendingResult × UpstreamPool × List Nat
  | [], _, lastErr, p => (.error (lastErr.getD .allFailed), p, [])
  | idx :: order, k, _, p =>
      match (attempts k).result with
      | .ok response => (.ok response, p.noteSuccess idx (attempts k).elapsedMs, [idx])
      | .error e =>
          let (result, p', tried) :=
            attemptLoop attempts order (k + 1) (some e) (p.noteFailure idx e (attempts k).nowMs)
          (result, p', idx :: tried)

/-- The upstream to start from, and the next ticket. -/
def takeStart (p : UpstreamPool) : Nat × UpstreamPool :=
  match p.policy with
  | .sequential => (0, p)
  | .roundRobin =>
      (p.roundRobinNext.toNat % p.names.length,
        { p with roundRobinNext := p.roundRobinNext + 1 })

/-- `query` called when the clock reads `nowMs`. -/
def query (p : UpstreamPool) (nowMs : UInt64) (attempts : Nat → Attempt) :
    PendingResult × UpstreamPool × List Nat :=
  if p.names.length = 0 then (.error .allFailed, p, [])
  else
    let (start, p') := p.takeStart
    attemptLoop attempts (p'.attemptOrder start nowMs) 0 none p'

end UpstreamPool

/-! ## The order -/

/-- A loop that pushes each element on one of two accumulators is a stable
partition. -/
theorem foldl_partition {α β : Type*} (f : α → β) (p : β → Bool) (l : List α) (a b : List β) :
    l.foldl (fun acc x => if p (f x) then (acc.1, acc.2 ++ [f x]) else (acc.1 ++ [f x], acc.2))
        (a, b) =
      (a ++ (l.map f).filter (fun y => !p y), b ++ (l.map f).filter p) := by
  induction l generalizing a b with
  | nil => simp
  | cons x l ih =>
      rw [List.foldl_cons]
      cases hp : p (f x) <;> simp [hp, ih]

/-- The indices below `n` in cyclic order from `start`. -/
def cyclic (n start : Nat) : List Nat := (List.range n).map fun offset => (start + offset) % n

/-- The turns of one round. -/
theorem cyclic_perm (n start : Nat) : (cyclic n start).Perm (List.range n) := turns_perm n start

namespace UpstreamPool

/-- The healthy upstreams in cyclic order, then the degraded ones. -/
theorem attemptOrder_eq (p : UpstreamPool) (start : Nat) (nowMs : UInt64) :
    p.attemptOrder start nowMs =
      (cyclic p.names.length start).filter (fun idx => !p.degradedAt nowMs idx) ++
        (cyclic p.names.length start).filter (p.degradedAt nowMs) := by
  unfold attemptOrder
  simp only [foldl_partition (fun offset => (start + offset) % p.names.length)
    (p.degradedAt nowMs), List.nil_append]
  rfl

theorem attemptOrder_perm (p : UpstreamPool) (start : Nat) (nowMs : UInt64) :
    (p.attemptOrder start nowMs).Perm (List.range p.names.length) := by
  rw [attemptOrder_eq]
  have hsplit := List.filter_append_perm (fun idx => !p.degradedAt nowMs idx)
    (cyclic p.names.length start)
  simp only [Bool.not_not] at hsplit
  exact hsplit.trans (cyclic_perm _ _)

/-! ## The loop -/

/-- The one update that an attempt makes to the health of its upstream. -/
def healthUpdate (a : Attempt) : UpstreamHealth → UpstreamHealth :=
  match a.result with
  | .ok _ => UpstreamHealth.recordSuccess
  | .error _ => fun h => (h.recordFailure a.nowMs).1

/-- The upstream did not answer. -/
def Failed (a : Attempt) : Prop := ∃ e, a.result = .error e

/-- The error that is returned when all of `n` attempts from number `k` on
have failed. -/
def finalError (attempts : Nat → Attempt) (k n : Nat) (lastErr : Option UpstreamError) :
    PendingResult :=
  if n = 0 then .error (lastErr.getD .allFailed) else (attempts (k + n - 1)).result

theorem attemptLoop_ok {attempts : Nat → Attempt} {k : Nat} {response : Message}
    (h : (attempts k).result = .ok response) (idx : Nat) (order : List Nat)
    (lastErr : Option UpstreamError) (p : UpstreamPool) :
    attemptLoop attempts (idx :: order) k lastErr p =
      (.ok response, p.noteSuccess idx (attempts k).elapsedMs, [idx]) := by
  simp only [attemptLoop, h]

theorem attemptLoop_error {attempts : Nat → Attempt} {k : Nat} {e : UpstreamError}
    (h : (attempts k).result = .error e) (idx : Nat) (order : List Nat)
    (lastErr : Option UpstreamError) (p : UpstreamPool) :
    attemptLoop attempts (idx :: order) k lastErr p =
      let r := attemptLoop attempts order (k + 1) (some e) (p.noteFailure idx e (attempts k).nowMs)
      (r.1, r.2.1, idx :: r.2.2) := by
  simp only [attemptLoop, h]

/-- A loop ends at its first success, or with the last error. -/
theorem attemptLoop_cases (attempts : Nat → Attempt) (order : List Nat) (k : Nat)
    (lastErr : Option UpstreamError) (p : UpstreamPool) :
    let r := attemptLoop attempts order k lastErr p
    (∃ j response, j < order.length ∧ (∀ i < j, Failed (attempts (k + i))) ∧
      (attempts (k + j)).result = .ok response ∧ r.1 = .ok response ∧
      r.2.2 = order.take (j + 1)) ∨
    (∀ i < order.length, Failed (attempts (k + i))) ∧
      r.1 = finalError attempts k order.length lastErr ∧ r.2.2 = order := by
  induction order generalizing k lastErr p with
  | nil =>
      refine .inr ⟨?_, rfl, rfl⟩
      intro i hi
      cases hi
  | cons idx order ih =>
      cases hres : (attempts k).result with
      | ok response =>
          rw [attemptLoop_ok hres]
          refine .inl ⟨0, response, by simp, ?_, hres, rfl, rfl⟩
          intro i hi
          cases hi
      | error e =>
          have hshift : ∀ {n : Nat}, (∀ i < n, Failed (attempts (k + 1 + i))) →
              ∀ i < n + 1, Failed (attempts (k + i)) := by
            intro n hn i hi
            cases i with
            | zero => exact ⟨e, hres⟩
            | succ i =>
                have hpos : k + (i + 1) = k + 1 + i := by omega
                rw [hpos]
                exact hn i (by omega)
          have hrec := ih (k + 1) (some e) (p.noteFailure idx e (attempts k).nowMs)
          rw [attemptLoop_error hres]
          rcases hrec with ⟨j, response, hj, hfail, hok, hres', htried⟩ | ⟨hfail, hres', htried⟩
          · refine .inl ⟨j + 1, response, by simpa using hj, hshift hfail, ?_, hres', ?_⟩
            · have hpos : k + (j + 1) = k + 1 + j := by omega
              rw [hpos]
              exact hok
            · exact congrArg (idx :: ·) htried
          · refine .inr ⟨hshift hfail, ?_, ?_⟩
            · rw [hres']
              unfold finalError
              cases hlen : order.length with
              | zero => simp [hlen, hres]
              | succ n =>
                  have hpos : k + (n + 1 + 1) - 1 = k + 1 + (n + 1) - 1 := by omega
                  simp [hlen, hpos]
            · exact congrArg (idx :: ·) htried

theorem attemptLoop_tried (attempts : Nat → Attempt) (order : List Nat) (k : Nat)
    (lastErr : Option UpstreamError) (p : UpstreamPool) :
    (attemptLoop attempts order k lastErr p).2.2 <+: order := by
  rcases attemptLoop_cases attempts order k lastErr p with ⟨j, _, _, _, _, _, h⟩ | ⟨_, _, h⟩
  · rw [h]
    exact List.take_prefix _ _
  · rw [h]

theorem getElem?_setHealth (p : UpstreamPool) (idx i : Nat)
    (f : UpstreamHealth → UpstreamHealth) :
    (p.setHealth idx f).health[i]? = if i = idx then p.health[i]?.map f else p.health[i]? := by
  show (p.health.modify idx f)[i]? = _
  rw [List.getElem?_modify]
  by_cases h : i = idx
  · subst h
    simp
  · simp [h, Ne.symm h]

/-- Each upstream tried is updated once, by its own attempt; the others are
left alone. -/
theorem attemptLoop_health (attempts : Nat → Attempt) (order : List Nat) (hnodup : order.Nodup)
    (k : Nat) (lastErr : Option UpstreamError) (p : UpstreamPool) :
    let r := attemptLoop attempts order k lastErr p
    (∀ i, i ∉ r.2.2 → r.2.1.health[i]? = p.health[i]?) ∧
    ∀ (j i : Nat), r.2.2[j]? = some i →
      r.2.1.health[i]? = p.health[i]?.map (healthUpdate (attempts (k + j))) := by
  induction order generalizing k lastErr p with
  | nil =>
      refine ⟨fun i _ => rfl, ?_⟩
      intro j i hj
      cases hj
  | cons idx order ih =>
      obtain ⟨hidx, hrest⟩ := List.nodup_cons.mp hnodup
      cases hres : (attempts k).result with
      | ok response =>
          have hupdate : healthUpdate (attempts k) = UpstreamHealth.recordSuccess := by
            simp [healthUpdate, hres]
          rw [attemptLoop_ok hres]
          constructor
          · intro i hi
            rw [List.mem_singleton] at hi
            exact (getElem?_setHealth p idx i _).trans (if_neg hi)
          · intro j i hj
            obtain ⟨rfl, rfl⟩ : j = 0 ∧ idx = i := by
              cases j with
              | zero => exact ⟨rfl, Option.some.inj hj⟩
              | succ j => cases hj
            rw [Nat.add_zero, hupdate]
            exact (getElem?_setHealth p idx idx _).trans (if_pos rfl)
      | error e =>
          have hupdate : healthUpdate (attempts k) =
              fun h => (h.recordFailure (attempts k).nowMs).1 := by
            simp [healthUpdate, hres]
          obtain ⟨hother, htried⟩ :=
            ih hrest (k + 1) (some e) (p.noteFailure idx e (attempts k).nowMs)
          have hpre := attemptLoop_tried attempts order (k + 1) (some e)
            (p.noteFailure idx e (attempts k).nowMs)
          have hfirst := getElem?_setHealth p idx
          rw [attemptLoop_error hres]
          dsimp only
          constructor
          · intro i hi
            rw [List.mem_cons, not_or] at hi
            obtain ⟨hne, hi⟩ := hi
            exact (hother i hi).trans ((hfirst i _).trans (if_neg hne))
          · intro j i hj
            cases j with
            | zero =>
                -- the upstream that failed is not tried again
                obtain rfl := Option.some.inj hj
                show _ = p.health[idx]?.map (healthUpdate (attempts k))
                rw [hupdate]
                exact (hother idx fun hmem => hidx (hpre.subset hmem)).trans
                  ((hfirst idx _).trans (if_pos rfl))
            | succ j =>
                have hmem := hpre.subset (List.mem_of_getElem? hj)
                have hne : i ≠ idx := fun h => hidx (h ▸ hmem)
                have hpos : k + (j + 1) = k + 1 + j := by omega
                rw [hpos]
                refine (htried j i hj).trans (congrArg _ ?_)
                exact (hfirst i _).trans (if_neg hne)

/-! ## The query -/

theorem takeStart_health (p : UpstreamPool) : p.takeStart.2.health = p.health := by
  unfold takeStart
  split <;> rfl

theorem takeStart_names (p : UpstreamPool) : p.takeStart.2.names = p.names := by
  unfold takeStart
  split <;> rfl

/-- The ticket does not change the order. -/
theorem attemptOrder_takeStart (p : UpstreamPool) (start : Nat) (nowMs : UInt64) :
    p.takeStart.2.attemptOrder start nowMs = p.attemptOrder start nowMs := by
  unfold attemptOrder degradedAt
  rw [takeStart_health, takeStart_names]

theorem query_eq (p : UpstreamPool) (hne : p.names ≠ []) (nowMs : UInt64)
    (attempts : Nat → Attempt) :
    p.query nowMs attempts =
      attemptLoop attempts (p.attemptOrder p.takeStart.1 nowMs) 0 none p.takeStart.2 := by
  unfold query
  rw [if_neg (by simpa using hne)]
  exact congrArg (fun order => attemptLoop attempts order 0 none p.takeStart.2)
    (attemptOrder_takeStart p p.takeStart.1 nowMs)

end UpstreamPool

/-- **One pass over the pool.** The order of attempts is a permutation of
the upstreams: from any start, the healthy ones in cyclic order and then
the degraded ones in cyclic order. `query` tries a prefix of it; it stops
at the first success and returns that response, or tries every upstream
and returns the last error. Every upstream tried gets one health update,
by its own attempt, and no other upstream gets any. -/
theorem pool_query_attempts (p : UpstreamPool) (hne : p.names ≠ []) (nowMs : UInt64)
    (attempts : Nat → Attempt) :
    (∀ start, (p.attemptOrder start nowMs).Perm (List.range p.names.length) ∧
      p.attemptOrder start nowMs =
        (cyclic p.names.length start).filter (fun idx => !p.degradedAt nowMs idx) ++
          (cyclic p.names.length start).filter (p.degradedAt nowMs)) ∧
    let order := p.attemptOrder p.takeStart.1 nowMs
    let (result, p', tried) := p.query nowMs attempts
    tried <+: order ∧
    ((∃ j response, tried.length = j + 1 ∧ (∀ i < j, UpstreamPool.Failed (attempts i)) ∧
        (attempts j).result = .ok response ∧ result = .ok response) ∨
      ∃ e, tried = order ∧ (∀ i < p.names.length, UpstreamPool.Failed (attempts i)) ∧
        (attempts (p.names.length - 1)).result = .error e ∧ result = .error e) ∧
    (∀ i, i ∉ tried → p'.health[i]? = p.health[i]?) ∧
    ∀ (j i : Nat), tried[j]? = some i →
      p'.health[i]? = p.health[i]?.map (UpstreamPool.healthUpdate (attempts j)) := by
  have hperm := p.attemptOrder_perm
  refine ⟨fun start => ⟨hperm start nowMs, p.attemptOrder_eq start nowMs⟩, ?_⟩
  have hlen : (p.attemptOrder p.takeStart.1 nowMs).length = p.names.length := by
    rw [(hperm _ nowMs).length_eq, List.length_range]
  have hpos : 0 < p.names.length := List.length_pos_iff.mpr hne
  -- no upstream is tried twice, so each has the update of its one attempt
  have hnodup : (p.attemptOrder p.takeStart.1 nowMs).Nodup :=
    (hperm _ nowMs).nodup_iff.mpr List.nodup_range
  have hhealth := UpstreamPool.attemptLoop_health attempts _ hnodup 0 none p.takeStart.2
  have hcases := UpstreamPool.attemptLoop_cases attempts
    (p.attemptOrder p.takeStart.1 nowMs) 0 none p.takeStart.2
  simp only [Nat.zero_add, UpstreamPool.takeStart_health] at hhealth hcases
  rw [p.query_eq hne]
  refine ⟨UpstreamPool.attemptLoop_tried _ _ _ _ _, ?_, hhealth⟩
  rcases hcases with ⟨j, response, hj, hfail, hok, hres, htried⟩ | ⟨hfail, hres, htried⟩
  · refine .inl ⟨j, response, ?_, hfail, hok, hres⟩
    rw [htried, List.length_take]
    omega
  · rw [hlen] at hfail hres
    obtain ⟨e, he⟩ := hfail (p.names.length - 1) (by omega)
    refine .inr ⟨e, htried, hfail, he, ?_⟩
    rw [hres, UpstreamPool.finalError, if_neg (by omega), Nat.zero_add, he]

/-- Of two upstreams, the first times out and the second answers. -/
theorem pool_query_attempts_failover :
    let p : UpstreamPool := .new ["a".toList, "b".toList] .sequential none none
    let attempts : Nat → Attempt := fun k =>
      if k = 0 then { result := .error .timeout, nowMs := 5000 }
      else { result := .ok { messageType := .response } }
    (p.query 0 attempts).1 = .ok { messageType := .response } ∧
    (p.query 0 attempts).2.2 = [0, 1] ∧
    (p.query 0 attempts).2.1.health[0]? = some ⟨1, 0⟩ ∧
    (p.query 0 attempts).2.1.health[1]? = some ⟨0, 0⟩ := by
  intro p attempts
  have hupdates := (pool_query_attempts p (by decide) 0 attempts).2.2.2.2
  exact ⟨rfl, rfl, hupdates 0 0 rfl, hupdates 1 1 rfl⟩

end Dotdns
