import Dotdns.Lib.Run
import Dotdns.Lib.Turns
import Dotdns.Upstream.Accounting

/-!
# Upstream — round robin

A `query` call takes its ticket with a `fetch_add`, reads the clock, looks
at the health of one upstream after another, and makes its first attempt;
there is no await before that, but other threads run at the same time. Here
each of these accesses is one step, and clones of the pool share its
counter and its health, so that they are this one pool.

A call that comes from `PoolState` starts in one step; `run_of_step` says
that its steps are runs of this system. The headline is that tickets are
turns: while no upstream looks degraded, the first attempts are spread
evenly, whatever the calls do to each other.
-/

namespace Dotdns

open Lib

namespace UpstreamPool

/-- The body of the loop of `attempt_order`; `sorted` are its two vectors. -/
def look (p : UpstreamPool) (start : Nat) (nowMs : UInt64) (sorted : List Nat × List Nat)
    (offset : Nat) : List Nat × List Nat :=
  let idx := (start + offset) % p.names.length
  if p.degradedAt nowMs idx then (sorted.1, sorted.2 ++ [idx])
  else (sorted.1 ++ [idx], sorted.2)

theorem attemptOrder_eq_foldl (p : UpstreamPool) (start : Nat) (nowMs : UInt64) :
    p.attemptOrder start nowMs =
      let sorted := (List.range p.names.length).foldl (p.look start nowMs) ([], [])
      sorted.1 ++ sorted.2 := rfl

end UpstreamPool

/-- Where a call stands. -/
inductive SharedPhase where
  /-- Before it reads the clock. -/
  | ticketed (start : Nat)
  /-- In `attempt_order`, before it looks at upstream `start + offset`. -/
  | ordering (start : Nat) (nowMs : UInt64) (offset : Nat) (sorted : List Nat × List Nat)
  | running (call : PoolCall)

/-- A call of `query` under way. -/
structure SharedCall where
  /-- Ghost: what the counter was when the call started. -/
  ticket : UInt64
  phase : SharedPhase
  /-- Ghost: the upstream of its first attempt. -/
  first : Option Nat

/-- What the calls do, one access at a time. -/
inductive SharedEvent where
  | call
  | clock (i : Nat) (nowMs : UInt64)
  /-- The next iteration of the loop of `attempt_order`. -/
  | look (i : Nat)
  /-- The order of call `i` is complete, and its first attempt begins. -/
  | begin (i : Nat)
  | attempt (i : Nat) (a : Attempt)
  | cancel (i : Nat)
  /-- One access of a `record_success` or `record_failure` that is under way
  leaves the health of upstream `idx` at `h`. -/
  | health (idx : Nat) (h : UpstreamHealth)

/-- The pool that the clones share, and their calls. -/
structure SharedPool where
  pool : UpstreamPool
  calls : List SharedCall

namespace SharedPool

/-- A new pool. -/
def init (names : List Str) (policy : UpstreamSelectionPolicy) (metrics : Option Metrics)
    (observability : Option ObservabilityRegistry) : SharedPool :=
  ⟨.new names policy metrics observability, []⟩

/-- Call `i` moves on. -/
def setCall (s : SharedPool) (i : Nat) (c : SharedCall) : SharedPool :=
  { s with calls := s.calls.set i c }

/-- One access of a call. -/
def step (s : SharedPool) : SharedEvent → Option SharedPool
  | .call =>
      let ticket := s.pool.roundRobinNext
      -- an empty pool takes no ticket
      if s.pool.names.length = 0 then
        let returned : SharedPhase := .running (.returned (.error .allFailed))
        some { s with calls := s.calls ++ [⟨ticket, returned, none⟩] }
      else
        let (start, pool) := s.pool.takeStart
        some ⟨pool, s.calls ++ [⟨ticket, .ticketed start, none⟩]⟩
  | .clock i nowMs =>
      match s.calls[i]? with
      | some ⟨ticket, .ticketed start, first⟩ =>
          some (s.setCall i ⟨ticket, .ordering start nowMs 0 ([], []), first⟩)
      | _ => none
  | .look i =>
      match s.calls[i]? with
      | some ⟨ticket, .ordering start nowMs offset sorted, first⟩ =>
          if offset < s.pool.names.length then
            let sorted := s.pool.look start nowMs sorted offset
            some (s.setCall i ⟨ticket, .ordering start nowMs (offset + 1) sorted, first⟩)
          else none
      | _ => none
  | .begin i =>
      match s.calls[i]? with
      | some ⟨ticket, .ordering _ _ offset (healthy, degraded), _⟩ =>
          if offset < s.pool.names.length then none
          else
            let order := healthy ++ degraded
            some (s.setCall i ⟨ticket, .running (.next none order), order.head?⟩)
      | _ => none
  | .attempt i a =>
      match s.calls[i]? with
      | some ⟨ticket, .running (.trying idx order), first⟩ =>
          some ⟨s.pool.noteAttempt idx a,
            s.calls.set i ⟨ticket, .running (.after order a), first⟩⟩
      | _ => none
  | .cancel i =>
      match s.calls[i]? with
      | some ⟨ticket, .running (.trying _ _), first⟩ =>
          some (s.setCall i ⟨ticket, .running .cancelled, first⟩)
      | _ => none
  | .health idx h => some { s with pool := s.pool.setHealth idx fun _ => h }

/-- The upstreams of the first attempts, in the order of the tickets. -/
def firsts (s : SharedPool) : List Nat := s.calls.filterMap SharedCall.first

/-- The first attempts that upstream `u` has received. -/
def firstAttempts (s : SharedPool) (u : Nat) : Nat := s.firsts.count u

/-- The calls that have not come to their first attempt. -/
def starting (s : SharedPool) : Nat := s.calls.countP fun c => c.first.isNone

/-- A step that looks at an upstream does not find it degraded. -/
def looksHealthy (s : SharedPool) : SharedEvent → Bool
  | .look i =>
      match s.calls[i]? with
      | some ⟨_, .ordering start nowMs offset _, _⟩ =>
          !s.pool.degradedAt nowMs ((start + offset) % s.pool.names.length)
      | _ => true
  | _ => true

/-- A call starts while every upstream is healthy. -/
def startsHealthy (s : SharedPool) : SharedEvent → Bool
  | .call => s.pool.health.all fun h => decide (h.degradedUntilMs = 0)
  | _ => true

/-- Healthy is: degraded at no time. -/
theorem degradedAt_of_startsHealthy {s : SharedPool} (h : s.startsHealthy .call = true)
    (nowMs : UInt64) (idx : Nat) : s.pool.degradedAt nowMs idx = false := by
  rw [UpstreamPool.degradedAt]
  cases hidx : s.pool.health[idx]? with
  | none => rfl
  | some health =>
      have huntil := of_decide_eq_true (List.all_eq_true.mp h health (List.mem_of_getElem? hidx))
      simp [UpstreamHealth.isDegraded, huntil]

/-! ## Calls that start at once -/

/-- `p` is `s` when every call has come to its first attempt. -/
structure Shows (p : PoolState) (s : SharedPool) : Prop where
  pool : s.pool = p.pool
  calls : s.calls.map SharedCall.phase = p.calls.map .running

section
variable {pool : UpstreamPool} {calls : List SharedCall} {c : SharedCall}

@[simp] theorem setCall_concat (c' : SharedCall) :
    (SharedPool.mk pool (calls ++ [c])).setCall calls.length c' = ⟨pool, calls ++ [c']⟩ := by
  simp [setCall]

/-- The newest call looks at `k` upstreams. -/
theorem run_looks (pool : UpstreamPool) (calls : List SharedCall) (ticket : UInt64) (start : Nat)
    (nowMs : UInt64) (k : Nat) (hk : k ≤ pool.names.length) :
    run step ⟨pool, calls ++ [⟨ticket, .ordering start nowMs 0 ([], []), none⟩]⟩
        (List.replicate k (.look calls.length)) =
      some ⟨pool, calls ++ [⟨ticket, .ordering start nowMs k
        ((List.range k).foldl (pool.look start nowMs) ([], [])), none⟩]⟩ := by
  induction k with
  | zero => rfl
  | succ k ih =>
      have hlt : k < pool.names.length := hk
      rw [List.replicate_succ', run_concat (ih (by omega)), List.range_succ, List.foldl_append]
      simp only [step, List.getElem?_concat_length, hlt, if_true, setCall_concat]
      rfl

/-- From the ticket to the first attempt without a break. -/
theorem run_start (s : SharedPool) (nowMs : UInt64) (hne : s.pool.names ≠ []) :
    let order := s.pool.takeStart.2.attemptOrder s.pool.takeStart.1 nowMs
    ∃ es, run step s es = some ⟨s.pool.takeStart.2,
      s.calls ++ [⟨s.pool.roundRobinNext, .running (.next none order), order.head?⟩]⟩ := by
  intro order
  let pool := s.pool.takeStart.2
  let start := s.pool.takeStart.1
  let ticket := s.pool.roundRobinNext
  have hcall : s.step .call = some ⟨pool, s.calls ++ [⟨ticket, .ticketed start, none⟩]⟩ := by
    simp only [step, List.length_eq_zero_iff, hne, if_false]
    rfl
  have hclock : step ⟨pool, s.calls ++ [⟨ticket, .ticketed start, none⟩]⟩
      (.clock s.calls.length nowMs) =
        some ⟨pool, s.calls ++ [⟨ticket, .ordering start nowMs 0 ([], []), none⟩]⟩ := by
    simp only [step, List.getElem?_concat_length, setCall_concat]
  have hlooks := run_looks pool s.calls ticket start nowMs pool.names.length (Nat.le_refl _)
  have horder : order = _ := pool.attemptOrder_eq_foldl start nowMs
  refine ⟨.call :: .clock s.calls.length nowMs ::
    (List.replicate pool.names.length (.look s.calls.length) ++ [.begin s.calls.length]), ?_⟩
  rw [run_cons, hcall, Option.bind_some, run_cons, hclock, Option.bind_some, run_concat hlooks]
  simp only [step, List.getElem?_concat_length, Nat.lt_irrefl, if_false, setCall_concat, horder]
  rfl

end

section
variable {p p' : PoolState} {s : SharedPool}

/-- A call of `PoolState` is at the same place here. -/
theorem Shows.getElem? (h : Shows p s) {i : Nat} {call : PoolCall}
    (hi : p.calls[i]? = some call) :
    ∃ ticket first, s.calls[i]? = some ⟨ticket, .running call, first⟩ := by
  have hphase := congrArg (·[i]?) h.calls
  simp only [List.getElem?_map, hi, Option.map_some] at hphase
  obtain ⟨⟨ticket, phase, first⟩, hc, rfl⟩ := Option.map_eq_some_iff.mp hphase
  exact ⟨ticket, first, hc⟩

theorem Shows.set (h : Shows p s) (i : Nat) (call : PoolCall) (ticket : UInt64)
    (first : Option Nat) :
    (s.calls.set i ⟨ticket, .running call, first⟩).map SharedCall.phase =
      (p.calls.set i call).map .running := by
  rw [List.map_set, List.map_set, h.calls]

theorem Shows.of_step {s' : SharedPool} {e : SharedEvent} (hs : s.step e = some s')
    (h : Shows p' s') : ∃ es s', run step s es = some s' ∧ Shows p' s' :=
  ⟨[e], s', (run_singleton s e).trans hs, h⟩

/-- A step in which a call starts at once, or goes on, is a run of this
system. -/
theorem run_of_step (h : Shows p s) {e : PoolEvent} (hp : p.step e = some p') :
    ∃ es s', run step s es = some s' ∧ Shows p' s' := by
  cases e with
  | call nowMs =>
      simp only [PoolState.step] at hp
      split at hp
      · rename_i hlen
        cases hp
        have hs : s.step .call = some { s with calls := s.calls ++
            [⟨s.pool.roundRobinNext, .running (.returned (.error .allFailed)), none⟩] } := by
          rw [← h.pool] at hlen
          simp only [step, hlen, if_true]
        refine Shows.of_step hs ⟨h.pool, ?_⟩
        rw [List.map_append, List.map_append, h.calls]
        rfl
      · rename_i hlen
        cases hp
        rw [← h.pool] at hlen ⊢
        obtain ⟨es, hes⟩ := run_start s nowMs fun hnil => hlen (by rw [hnil]; rfl)
        refine ⟨es, _, hes, rfl, ?_⟩
        rw [List.map_append, List.map_append, h.calls]
        rfl
  | attempt i a =>
      simp only [PoolState.step] at hp
      split at hp
      · rename_i idx order hi
        cases hp
        obtain ⟨ticket, first, hc⟩ := h.getElem? hi
        have hs : s.step (.attempt i a) = some ⟨s.pool.noteAttempt idx a,
            s.calls.set i ⟨ticket, .running (.after order a), first⟩⟩ := by
          simp only [step, hc]
        refine Shows.of_step hs ⟨?_, h.set i _ _ _⟩
        exact congrArg (UpstreamPool.noteAttempt · idx a) h.pool
      · cases hp
  | cancel i =>
      simp only [PoolState.step] at hp
      split at hp
      · rename_i idx order hi
        cases hp
        obtain ⟨ticket, first, hc⟩ := h.getElem? hi
        have hs : s.step (.cancel i) = some (s.setCall i ⟨ticket, .running .cancelled, first⟩) := by
          simp only [step, hc]
        exact Shows.of_step hs ⟨h.pool, h.set i _ _ _⟩
      · cases hp

end

/-! ## The invariant -/

/-- How far a call has come whose turn is that of upstream `start`. -/
inductive Fits (n start : Nat) : SharedPhase → Option Nat → Prop
  | ticketed : Fits n start (.ticketed start) none
  | ordering (nowMs : UInt64) (offset : Nat) (le : offset ≤ n) :
      Fits n start (.ordering start nowMs offset (turns n start offset, [])) none
  | running (call : PoolCall) : Fits n start (.running call) (some start)

/-! What is known of a call from where it stands. -/

section
variable {n turn start offset : Nat} {nowMs : UInt64} {sorted : List Nat × List Nat}
  {first : Option Nat} {call : PoolCall}

theorem Fits.of_ticketed (h : Fits n turn (.ticketed start) first) :
    start = turn ∧ first = none := by
  cases h with
  | ticketed => exact ⟨rfl, rfl⟩

theorem Fits.of_ordering (h : Fits n turn (.ordering start nowMs offset sorted) first) :
    start = turn ∧ offset ≤ n ∧ sorted = (turns n turn offset, []) ∧ first = none := by
  cases h with
  | ordering _ _ hle => exact ⟨rfl, hle, rfl, rfl⟩

theorem Fits.of_running (h : Fits n turn (.running call) first) : first = some turn := by
  cases h with
  | running => rfl

end

/-- Call `i` has ticket `i`, and its turn. -/
structure CallOk (n i : Nat) (c : SharedCall) : Prop where
  ticket : c.ticket = UInt64.ofNat i
  fits : Fits n (c.ticket.toNat % n) c.phase c.first

/-- The counter is the number of calls, and each call keeps to its turn. -/
structure Inv (n : Nat) (s : SharedPool) : Prop where
  names : s.pool.names.length = n
  policy : s.pool.policy = .roundRobin
  counter : s.pool.roundRobinNext = UInt64.ofNat s.calls.length
  calls : ∀ i c, s.calls[i]? = some c → CallOk n i c

section
variable {n : Nat} {s s' : SharedPool}

theorem inv_init (names : List Str) (metrics : Option Metrics)
    (observability : Option ObservabilityRegistry) :
    Inv names.length (init names .roundRobin metrics observability) where
  names := rfl
  policy := rfl
  counter := rfl
  calls := by
    intro i c hi
    cases hi

/-- One call moves, and the pool keeps what a ticket depends on. -/
theorem Inv.set (h : Inv n s) {pool : UpstreamPool} {i : Nat} {c c' : SharedCall}
    (hi : s.calls[i]? = some c) (hticket : c'.ticket = c.ticket)
    (hfits : Fits n (c.ticket.toNat % n) c'.phase c'.first) (hnames : pool.names = s.pool.names)
    (hpolicy : pool.policy = s.pool.policy)
    (hcounter : pool.roundRobinNext = s.pool.roundRobinNext) :
    Inv n ⟨pool, s.calls.set i c'⟩ where
  names := (congrArg List.length hnames).trans h.names
  policy := hpolicy.trans h.policy
  counter := by
    show pool.roundRobinNext = UInt64.ofNat (s.calls.set i c').length
    rw [hcounter, List.length_set]
    exact h.counter
  calls := by
    intro j x hj
    rcases getElem?_set_eq_some.mp hj with ⟨_, hj⟩ | ⟨rfl, _, rfl⟩
    · exact h.calls j x hj
    · rw [← hticket] at hfits
      exact ⟨hticket.trans (h.calls j c hi).ticket, hfits⟩

theorem Inv.setCall (h : Inv n s) {i : Nat} {c c' : SharedCall} (hi : s.calls[i]? = some c)
    (hticket : c'.ticket = c.ticket) (hfits : Fits n (c.ticket.toNat % n) c'.phase c'.first) :
    Inv n (s.setCall i c') :=
  h.set hi hticket hfits rfl rfl rfl

/-- The ticket of a new call is its number. -/
theorem Inv.called (h : Inv n s) :
    Inv n ⟨s.pool.takeStart.2,
      s.calls ++ [⟨s.pool.roundRobinNext, .ticketed s.pool.takeStart.1, none⟩]⟩ := by
  have htake : s.pool.takeStart = (s.pool.roundRobinNext.toNat % n,
      { s.pool with roundRobinNext := s.pool.roundRobinNext + 1 }) := by
    rw [← h.names, UpstreamPool.takeStart]
    split
    · rename_i hpolicy
      rw [h.policy] at hpolicy
      cases hpolicy
    · rfl
  rw [htake]
  refine ⟨h.names, h.policy, ?_, ?_⟩
  · show s.pool.roundRobinNext + 1 = UInt64.ofNat (s.calls ++ _).length
    rw [h.counter, List.length_append, List.length_singleton, UInt64.ofNat_add]
    rfl
  · intro i c hi
    rcases getElem?_concat_eq_some.mp hi with hi | ⟨rfl, rfl⟩
    · exact h.calls i c hi
    · exact ⟨h.counter, .ticketed⟩

/-- An upstream that does not look degraded is the next in turn. -/
theorem Inv.looked (h : Inv n s) {i : Nat} (hs : s.step (.look i) = some s')
    (hlooks : s.looksHealthy (.look i) = true) : Inv n s' := by
  simp only [step] at hs
  split at hs
  · rename_i ticket start nowMs offset sorted first hi
    split at hs
    · rename_i hlt
      cases hs
      rw [h.names] at hlt
      simp only [looksHealthy, hi, Bool.not_eq_true'] at hlooks
      have hfits : Fits n (ticket.toNat % n) (.ordering start nowMs offset sorted) first :=
        (h.calls i _ hi).fits
      obtain ⟨rfl, _, rfl, rfl⟩ := hfits.of_ordering
      have hlook : s.pool.look (ticket.toNat % n) nowMs (turns n (ticket.toNat % n) offset, [])
          offset = (turns n (ticket.toNat % n) (offset + 1), []) := by
        rw [UpstreamPool.look, hlooks, if_neg (by decide), turns_succ, h.names]
      rw [hlook]
      exact h.setCall hi rfl (.ordering nowMs (offset + 1) hlt)
    · cases hs
  · cases hs

/-- The order begins with the upstream whose turn it is. -/
theorem Inv.begun (h : Inv n s) (hn : 0 < n) {i : Nat} (hs : s.step (.begin i) = some s') :
    Inv n s' := by
  simp only [step] at hs
  split at hs
  · rename_i ticket start nowMs offset healthy degraded first hi
    split at hs
    · cases hs
    · rename_i hge
      cases hs
      rw [h.names] at hge
      have hfits : Fits n (ticket.toNat % n) (.ordering start nowMs offset (healthy, degraded))
          first := (h.calls i _ hi).fits
      obtain ⟨rfl, hle, hsorted, rfl⟩ := hfits.of_ordering
      cases hsorted
      have hhead : (turns n (ticket.toNat % n) offset ++ []).head? = some (ticket.toNat % n) := by
        rw [List.append_nil, head?_turns (by omega), Nat.mod_mod]
      rw [hhead]
      exact h.setCall hi rfl (.running _)
  · cases hs

theorem pool_noteAttempt (p : UpstreamPool) (idx : Nat) (a : Attempt) :
    (p.noteAttempt idx a).names = p.names ∧ (p.noteAttempt idx a).policy = p.policy ∧
      (p.noteAttempt idx a).roundRobinNext = p.roundRobinNext := by
  unfold UpstreamPool.noteAttempt
  cases a.result <;> exact ⟨rfl, rfl, rfl⟩

theorem Inv.step (h : Inv n s) (hn : 0 < n) {e : SharedEvent} (hs : s.step e = some s')
    (hlooks : s.looksHealthy e = true) : Inv n s' := by
  cases e with
  | call =>
      have hne : ¬ s.pool.names.length = 0 := by
        rw [h.names]
        omega
      simp only [SharedPool.step, hne, if_false] at hs
      cases hs
      exact h.called
  | clock i nowMs =>
      simp only [SharedPool.step] at hs
      split at hs
      · rename_i ticket start first hi
        cases hs
        have hfits : Fits n (ticket.toNat % n) (.ticketed start) first := (h.calls i _ hi).fits
        obtain ⟨rfl, rfl⟩ := hfits.of_ticketed
        exact h.setCall hi rfl (.ordering nowMs 0 (Nat.zero_le n))
      · cases hs
  | look i => exact h.looked hs hlooks
  | begin i => exact h.begun hn hs
  | attempt i a =>
      simp only [SharedPool.step] at hs
      split at hs
      · rename_i ticket idx order first hi
        cases hs
        obtain ⟨hnames, hpolicy, hcounter⟩ := pool_noteAttempt s.pool idx a
        have hfirst := (h.calls i _ hi).fits.of_running
        refine h.set hi rfl ?_ hnames hpolicy hcounter
        rw [hfirst]
        exact .running _
      · cases hs
  | cancel i =>
      simp only [SharedPool.step] at hs
      split at hs
      · rename_i ticket idx order first hi
        cases hs
        have hfirst := (h.calls i _ hi).fits.of_running
        refine h.setCall hi rfl ?_
        rw [hfirst]
        exact .running _
      · cases hs
  | health idx health =>
      cases hs
      exact ⟨h.names, h.policy, h.counter, h.calls⟩

/-! ## Every run -/

theorem inv_of_passes {names : List Str} (hne : names ≠ []) {metrics : Option Metrics}
    {observability : Option ObservabilityRegistry} {es : List SharedEvent}
    (h : Passes step (init names .roundRobin metrics observability) es s)
    (hlooks : ∀ s e s', Takes step (init names .roundRobin metrics observability) es s e s' →
      s.looksHealthy e = true) : Inv names.length s :=
  h.invariant (inv_init names metrics observability) fun s e s' ht hi =>
    hi.step (List.length_pos_iff.mpr hne) ht.step_eq (hlooks s e s' ht)

/-- The first attempts of a stretch of calls are turns that have been
taken. -/
theorem Inv.firsts_sublist (h : Inv n s) (hlt : s.calls.length < 2 ^ 64) (t m : Nat) :
    (((s.calls.drop t).take m).filterMap SharedCall.first).Sublist
      (turns n t ((s.calls.drop t).take m).length) := by
  apply filterMap_sublist_turns
  intro k c hk
  have hi : s.calls[t + k]? = some c := by
    rw [List.getElem?_take, List.getElem?_drop] at hk
    split at hk
    · exact hk
    · cases hk
  obtain ⟨hticket, hfits⟩ := h.calls (t + k) c hi
  -- below 2^64 the ticket is the number of the call
  have hturn : c.ticket.toNat = t + k := by
    have hbound := (List.getElem?_eq_some_iff.mp hi).1
    rw [hticket]
    exact UInt64.toNat_ofNat_of_lt' (Nat.lt_trans hbound hlt)
  rw [hturn] at hfits
  cases hphase : c.phase with
  | ticketed start =>
      rw [hphase] at hfits
      exact .inl hfits.of_ticketed.2
  | ordering start nowMs offset sorted =>
      rw [hphase] at hfits
      exact .inl hfits.of_ordering.2.2.2
  | running call =>
      rw [hphase] at hfits
      exact .inr hfits.of_running

theorem Inv.tickets (h : Inv n s) :
    s.calls.map SharedCall.ticket = (List.range s.calls.length).map UInt64.ofNat := by
  apply List.ext_getElem (by simp)
  intro i hi _
  rw [List.length_map] at hi
  rw [List.getElem_map, List.getElem_map, List.getElem_range]
  exact (h.calls i _ (List.getElem?_eq_getElem hi)).ticket

/-- Every call has made its first attempt or is still starting. -/
theorem length_firsts (s : SharedPool) : s.firsts.length + s.starting = s.calls.length := by
  have hcount := List.length_eq_countP_add_countP (fun c : SharedCall => c.first.isSome)
    (l := s.calls)
  rw [hcount, firsts, List.length_filterMap_eq_countP, starting]
  congr 2
  funext c
  cases c.first <;> rfl

/-- Where no call is starting, every call of a stretch has made its first
attempt. -/
theorem length_filterMap_first (h : s.starting = 0) {l : List SharedCall}
    (hl : ∀ c ∈ l, c ∈ s.calls) : (l.filterMap SharedCall.first).length = l.length := by
  rw [List.length_filterMap_eq_countP, List.countP_eq_length]
  intro c hc
  have hnone := List.countP_eq_zero.mp h c (hl c hc)
  cases hfirst : c.first with
  | none => exact absurd (congrArg Option.isNone hfirst) hnone
  | some u => rfl

end

end SharedPool

/-- **Round robin is even.** For every run of fewer than 2^64 calls on a
pool of at least one upstream, whatever the order of the steps, in which
every look finds an upstream that is not degraded: the tickets are
consecutive; of the calls that have come to their first attempt, no
upstream has received two more than another, and where none is still on
its way there the numbers differ by at most one; and the first attempts of
any stretch of as many tickets as there are upstreams go to different
ones. -/
theorem round_robin_even (names : List Str) (hne : names ≠ []) (metrics : Option Metrics)
    (observability : Option ObservabilityRegistry) (es : List SharedEvent) (s : SharedPool)
    (h : Passes SharedPool.step (.init names .roundRobin metrics observability) es s)
    (hlooks : ∀ s e s',
      Takes SharedPool.step (.init names .roundRobin metrics observability) es s e s' →
      s.looksHealthy e = true)
    (hlt : s.calls.length < 2 ^ 64) :
    s.calls.map SharedCall.ticket = (List.range s.calls.length).map UInt64.ofNat ∧
    (∀ u v, u < names.length → v < names.length →
      s.firstAttempts u ≤ s.firstAttempts v + 1 + s.starting) ∧
    ∀ t, let firsts := ((s.calls.drop t).take names.length).filterMap SharedCall.first
      firsts.Nodup ∧
      (s.starting = 0 → t + names.length ≤ s.calls.length →
        firsts.Perm (List.range names.length)) := by
  have hinv := SharedPool.inv_of_passes hne h hlooks
  have hpos : 0 < names.length := List.length_pos_iff.mpr hne
  refine ⟨hinv.tickets, ?_, ?_⟩
  · intro u v hu hv
    -- all calls are one stretch, from the first ticket on
    have hsub := hinv.firsts_sublist hlt 0 s.calls.length
    rw [List.drop_zero, List.take_length] at hsub
    have hle := count_sublist_turns_le hsub hu hv
    have hlen := s.length_firsts
    simp only [SharedPool.firstAttempts, SharedPool.firsts] at hlen ⊢
    omega
  · intro t firsts
    have hsub := hinv.firsts_sublist hlt t names.length
    have hwindow : ((s.calls.drop t).take names.length).length ≤ names.length :=
      List.length_take_le _ _
    refine ⟨(nodup_turns hwindow).sublist hsub, ?_⟩
    intro hstarting ht
    have hfull : ((s.calls.drop t).take names.length).length = names.length := by
      rw [List.length_take, List.length_drop]
      omega
    have hmem : ∀ c ∈ (s.calls.drop t).take names.length, c ∈ s.calls :=
      fun c hc => List.mem_of_mem_drop (List.mem_of_mem_take hc)
    have hlen := SharedPool.length_filterMap_first hstarting hmem
    have heq : firsts = turns names.length t names.length := by
      rw [hfull] at hsub hlen
      exact hsub.eq_of_length (hlen.trans (length_turns _ _ _).symm)
    rw [heq]
    exact turns_perm names.length t

/-- Two upstreams and three calls: the second looks and tries before the
first, and the third comes after a failure. -/
theorem round_robin_even_overtaken :
    let names : List Str := ["a".toList, "b".toList]
    let es : List SharedEvent :=
      [.call, .call, .clock 1 5, .clock 0 6, .look 1, .look 0, .look 1, .begin 1, .look 0,
        .begin 0, .attempt 1 { result := .error .timeout, nowMs := 7 }, .call, .clock 2 8,
        .look 2, .look 2, .begin 2]
    ∃ s, Passes SharedPool.step (.init names .roundRobin none none) es s ∧
      s.calls.map SharedCall.first = [some 0, some 1, some 0] ∧
      s.firstAttempts 0 ≤ s.firstAttempts 1 + 1 + s.starting := by
  intro names es
  have hrun : (run SharedPool.step (.init names .roundRobin none none) es).map
      (fun s => s.calls.map SharedCall.first) = some [some 0, some 1, some 0] := by
    decide +kernel
  obtain ⟨s, hs, hfirsts⟩ := Option.map_eq_some_iff.mp hrun
  have hcalls : s.calls.length = 3 := by
    rw [← List.length_map (f := SharedCall.first), hfirsts]
    rfl
  have heven := round_robin_even names (by decide) none none es s (.finish hs)
    (fun s e s' ht => test_of_along (p := SharedPool.looksHealthy) (by decide +kernel) ht)
    (by rw [hcalls]; decide)
  exact ⟨s, .finish hs, hfirsts, heven.2.1 0 1 (by decide) (by decide)⟩

/-- Four calls, all of them started before anything has failed: by the time
the third one looks, the other calls' failures have sidelined the upstream
whose turn it is. -/
theorem round_robin_uneven_stragglers :
    let names : List Str := ["a".toList, "b".toList]
    let failed : Attempt := { result := .error .timeout, nowMs := 6 }
    let es : List SharedEvent :=
      [.call, .call, .call, .call,
        .clock 0 5, .look 0, .look 0, .begin 0, .attempt 0 failed,
        .clock 1 5, .look 1, .look 1, .begin 1, .attempt 1 failed, .attempt 1 failed,
        .clock 3 5, .look 3, .look 3, .begin 3, .attempt 3 failed, .attempt 3 failed,
        .clock 2 7, .look 2, .look 2, .begin 2]
    ∃ s, Passes SharedPool.step (.init names .roundRobin none none) es s ∧
      (∀ s₁ s₂, Takes SharedPool.step (.init names .roundRobin none none) es s₁ .call s₂ →
        ∀ nowMs idx, s₁.pool.degradedAt nowMs idx = false) ∧
      s.starting = 0 ∧
      s.calls.map SharedCall.first = [some 0, some 1, some 1, some 1] ∧
      ¬ s.firstAttempts 1 ≤ s.firstAttempts 0 + 1 := by
  intro names failed es
  have hrun : (run SharedPool.step (.init names .roundRobin none none) es).map
      (fun s => s.calls.map SharedCall.first) = some [some 0, some 1, some 1, some 1] := by
    decide +kernel
  obtain ⟨s, hs, hfirsts⟩ := Option.map_eq_some_iff.mp hrun
  refine ⟨s, .finish hs, ?_, ?_, hfirsts, ?_⟩
  -- no call starts while an upstream is degraded, though attempts look later
  · intro s₁ s₂ ht nowMs idx
    exact SharedPool.degradedAt_of_startsHealthy
      (test_of_along (p := SharedPool.startsHealthy) (by decide +kernel) ht) nowMs idx
  · have hnone : s.starting = (s.calls.map SharedCall.first).countP Option.isNone := by
      rw [List.countP_map]
      rfl
    rw [hnone, hfirsts]
    rfl
  · have hcount (u : Nat) : s.firstAttempts u =
        ((s.calls.map SharedCall.first).filterMap id).count u := by
      rw [List.filterMap_map]
      rfl
    rw [hcount, hcount, hfirsts]
    decide

end Dotdns
