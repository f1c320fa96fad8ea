import Mathlib.Logic.Function.Basic
import Dotdns.Listeners
import Dotdns.Server.Progress
import Dotdns.Upstream.Accounting

/-!
# Serve — the resolver, its coalescers and the pool as one system

A resolve call that misses the cache awaits `pending.query` of the server
it came in on; the leader task of a flight awaits `pool.query`. Here the
three systems run together: what one of them awaits is what the next one
has come to, and no step is taken on its behalf by the environment.

Each part has the counters that it moves itself; in the source they are
fields of one recorder, and no two parts move the same one.
-/

namespace Dotdns

open Lib

/-- The resolver, both coalescers and the pool. -/
structure ServeState where
  resolver : ResolverState
  listeners : Listeners
  /-- The resolve call that made the `k`-th call of a listener's coalescer. -/
  owners : Listener → List Nat
  pool : PoolState
  /-- The flight whose task made the `p`-th call of the pool. -/
  tasks : List (Listener × Nat)

/-- What they do, one await at a time. -/
inductive ServeEvent where
  /-- A step of the resolver that awaits nothing. -/
  | resolver (e : ResolverEvent)
  /-- Call `i`, which came in at `l`, reads the cache, and on a miss goes on
  to `pending.query`. -/
  | lookup (l : Listener) (i : Nat)
  /-- A step of a coalescer's own calls and tasks. -/
  | pending (l : Listener) (e : PendingEvent)
  /-- The task of flight `f` calls `pool.query`. -/
  | query (l : Listener) (f : Nat) (nowMs : UInt64)
  /-- The attempt of pool call `p` is over. -/
  | attempt (p : Nat) (a : Attempt)
  /-- Pool call `p` returns to its task. -/
  | answer (p : Nat)
  /-- Pending call `k` returns to its resolve call. -/
  | resume (l : Listener) (k : Nat)
  /-- The future that awaits pending call `k` is dropped, and both with it. -/
  | cancel (l : Listener) (k : Nat)

/-- The steps of the resolver that neither begin, end nor drop a wait. -/
def ResolverEvent.alone : ResolverEvent → Bool
  | .lookup _ | .reply _ _ | .cancel _ => false
  | .arrive _ _ | .store _ _ | .insert _ _ | .manage _ _ _ | .refresh _ _ | .tick _ => true

namespace ServeState

/-- As `run_serve` wires them. -/
def init (cfg : ResolveConfig) (now : Nat) (m : Metrics) (blocklist : ReloadableBlocklist)
    (observability : Option ObservabilityRegistry) (names : List Str)
    (policy : UpstreamSelectionPolicy) : ServeState where
  resolver := .init cfg now m blocklist observability
  listeners := .init m
  owners _ := []
  pool := .init names policy m
  tasks := []

/-- What the resolve call of the label `l` asks its coalescer, once it is
past its look at the cache. -/
def asked (cfg : ResolveConfig) (resolver : ResolverState) (i : Nat) : Option Message :=
  match resolver.calls[i]? with
  | some c =>
      match c.phase with
      | .waiting => some (c.upstreamQuery cfg)
      | _ => none
  | none => none

/-- What pending call `k` has returned, and the resolve call it returns to. -/
def returning (s : ServeState) (l : Listener) (k : Nat) : Option (Nat × PendingResult) :=
  match (s.owners l)[k]?, ((s.listeners.pending l).callers[k]?).bind (·.phase.returnedValue) with
  | some i, some result => some (i, result)
  | _, _ => none

/-- What pool call `p` has returned, and the flight it returns to. -/
def answering (s : ServeState) (p : Nat) : Option ((Listener × Nat) × PendingResult) :=
  match s.tasks[p]?, s.pool.calls[p]? with
  | some task, some (.returned result) => some (task, result)
  | _, _ => none

/-- The query that pool call `p` sends. -/
def sends (s : ServeState) (p : Nat) : Option Message :=
  (s.tasks[p]?).bind fun task =>
    ((s.listeners.pending task.1).flights[task.2]?).map Flight.query

section
variable (U : UnicodeCase) (text : LabelText) (cfg : ResolveConfig) (toBytes : ToBytes)

/-- One step of a part, or of two that hand a query or a result on. -/
def step (s : ServeState) : ServeEvent → Option ServeState
  | .resolver e =>
      if e.alone then (s.resolver.step U text cfg e).map fun resolver => { s with resolver }
      else none
  | .lookup l i =>
      (s.resolver.step U text cfg (.lookup i)).bind fun resolver =>
        match asked cfg resolver i with
        | some query =>
            (s.listeners.step toBytes (l, .call query)).map fun listeners =>
              { s with
                resolver, listeners
                owners := Function.update s.owners l (s.owners l ++ [i]) }
        | none => some { s with resolver }
  | .pending l e =>
      if e.own then (s.listeners.step toBytes (l, e)).map fun listeners => { s with listeners }
      else none
  | .query l f nowMs =>
      match ((s.listeners.pending l).flights[f]?).map Flight.phase with
      | some .running =>
          -- a flight is handed on once
          if (l, f) ∈ s.tasks then none
          else
            (s.pool.step (.call nowMs)).map fun pool =>
              { s with pool, tasks := s.tasks ++ [(l, f)] }
      | _ => none
  | .attempt p a => (s.pool.step (.attempt p a)).map fun pool => { s with pool }
  | .answer p =>
      match s.answering p with
      | some ((l, f), result) =>
          (s.listeners.step toBytes (l, .answer f result)).map fun listeners =>
            { s with listeners }
      | none => none
  | .resume l k =>
      match s.returning l k with
      | some (i, result) =>
          (s.resolver.step U text cfg (.reply i result)).map fun resolver => { s with resolver }
      | none => none
  | .cancel l k =>
      match (s.owners l)[k]? with
      | some i =>
          (s.resolver.step U text cfg (.cancel i)).bind fun resolver =>
            (s.listeners.step toBytes (l, .cancel k)).map fun listeners =>
              { s with resolver, listeners }
      | none => none

end

/-! ## What a step can do -/

/-- The steps as a relation, guards included. -/
inductive Step (U : UnicodeCase) (text : LabelText) (cfg : ResolveConfig) (toBytes : ToBytes)
    (s : ServeState) : ServeEvent → ServeState → Prop
  | resolver {e : ResolverEvent} {r : ResolverState} : e.alone = true →
      s.resolver.step U text cfg e = some r →
      Step U text cfg toBytes s (.resolver e) { s with resolver := r }
  | hit {l : Listener} {i : Nat} {r : ResolverState} :
      s.resolver.step U text cfg (.lookup i) = some r → asked cfg r i = none →
      Step U text cfg toBytes s (.lookup l i) { s with resolver := r }
  | missed {l : Listener} {i : Nat} {query : Message} {r : ResolverState} {ls : Listeners} :
      s.resolver.step U text cfg (.lookup i) = some r → asked cfg r i = some query →
      s.listeners.step toBytes (l, .call query) = some ls →
      Step U text cfg toBytes s (.lookup l i)
        { s with
          resolver := r, listeners := ls
          owners := Function.update s.owners l (s.owners l ++ [i]) }
  | pending {l : Listener} {e : PendingEvent} {ls : Listeners} : e.own = true →
      s.listeners.step toBytes (l, e) = some ls →
      Step U text cfg toBytes s (.pending l e) { s with listeners := ls }
  | query {l : Listener} {f : Nat} {fl : Flight} {nowMs : UInt64} {pool : PoolState} :
      (s.listeners.pending l).flights[f]? = some fl → fl.phase = .running →
      (l, f) ∉ s.tasks → s.pool.step (.call nowMs) = some pool →
      Step U text cfg toBytes s (.query l f nowMs) { s with pool, tasks := s.tasks ++ [(l, f)] }
  | attempt {p : Nat} {a : Attempt} {pool : PoolState} :
      s.pool.step (.attempt p a) = some pool →
      Step U text cfg toBytes s (.attempt p a) { s with pool }
  | answer {p f : Nat} {l : Listener} {result : PendingResult} {ls : Listeners} :
      s.tasks[p]? = some (l, f) → s.pool.calls[p]? = some (.returned result) →
      s.listeners.step toBytes (l, .answer f result) = some ls →
      Step U text cfg toBytes s (.answer p) { s with listeners := ls }
  | resume {l : Listener} {k i : Nat} {c : Caller} {result : PendingResult}
      {r : ResolverState} : (s.owners l)[k]? = some i →
      (s.listeners.pending l).callers[k]? = some c → c.phase.returnedValue = some result →
      s.resolver.step U text cfg (.reply i result) = some r →
      Step U text cfg toBytes s (.resume l k) { s with resolver := r }
  | cancel {l : Listener} {k i : Nat} {r : ResolverState} {ls : Listeners} :
      (s.owners l)[k]? = some i → s.resolver.step U text cfg (.cancel i) = some r →
      s.listeners.step toBytes (l, .cancel k) = some ls →
      Step U text cfg toBytes s (.cancel l k) { s with resolver := r, listeners := ls }

section
variable {U : UnicodeCase} {text : LabelText} {cfg : ResolveConfig} {toBytes : ToBytes}
variable {s s' : ServeState} {e : ServeEvent}

theorem answering_eq_some {p f : Nat} {l : Listener} {result : PendingResult} :
    s.answering p = some ((l, f), result) ↔
      s.tasks[p]? = some (l, f) ∧ s.pool.calls[p]? = some (.returned result) := by
  unfold answering
  constructor
  · intro h
    split at h
    · rename_i htask hreturned
      cases h
      exact ⟨htask, hreturned⟩
    · cases h
  · rintro ⟨htask, hreturned⟩
    rw [htask, hreturned]

theorem returning_eq_some {k i : Nat} {l : Listener} {result : PendingResult} :
    s.returning l k = some (i, result) ↔
      (s.owners l)[k]? = some i ∧
        ∃ c, (s.listeners.pending l).callers[k]? = some c ∧
          c.phase.returnedValue = some result := by
  unfold returning
  rw [← Option.bind_eq_some_iff]
  constructor
  · intro h
    split at h
    · rename_i howner hvalue
      cases h
      exact ⟨howner, hvalue⟩
    · cases h
  · rintro ⟨howner, hvalue⟩
    rw [howner, hvalue]

theorem asked_eq_some {r : ResolverState} {i : Nat} {query : Message} :
    asked cfg r i = some query ↔
      ∃ c, r.calls[i]? = some c ∧ c.phase = .waiting ∧ query = c.upstreamQuery cfg := by
  unfold asked
  constructor
  · intro h
    split at h
    · rename_i c hc
      split at h
      · rename_i hw
        cases h
        exact ⟨c, hc, hw, rfl⟩
      · cases h
    · cases h
  · rintro ⟨c, hc, hw, rfl⟩
    simp only [hc, hw]

theorem step_cases (hs : s.step U text cfg toBytes e = some s') :
    Step U text cfg toBytes s e s' := by
  cases e with
  | resolver e =>
      simp only [step] at hs
      split at hs
      · rename_i halone
        obtain ⟨r, hr, rfl⟩ := Option.map_eq_some_iff.mp hs
        exact .resolver halone hr
      · cases hs
  | lookup l i =>
      obtain ⟨r, hr, hs⟩ := Option.bind_eq_some_iff.mp hs
      split at hs
      · rename_i query hasked
        obtain ⟨ls, hls, rfl⟩ := Option.map_eq_some_iff.mp hs
        exact .missed hr hasked hls
      · rename_i hasked
        cases hs
        exact .hit hr hasked
  | pending l e =>
      simp only [step] at hs
      split at hs
      · rename_i hown
        obtain ⟨ls, hls, rfl⟩ := Option.map_eq_some_iff.mp hs
        exact .pending hown hls
      · cases hs
  | query l f nowMs =>
      simp only [step] at hs
      split at hs
      · rename_i hphase
        obtain ⟨fl, hf, hrun⟩ := Option.map_eq_some_iff.mp hphase
        split at hs
        · cases hs
        · rename_i hnew
          obtain ⟨pool, hp, rfl⟩ := Option.map_eq_some_iff.mp hs
          exact .query hf hrun hnew hp
      · cases hs
  | attempt p a =>
      obtain ⟨pool, hp, rfl⟩ := Option.map_eq_some_iff.mp hs
      exact .attempt hp
  | answer p =>
      simp only [step] at hs
      split at hs
      · rename_i l f result hanswering
        obtain ⟨htask, hreturned⟩ := answering_eq_some.mp hanswering
        obtain ⟨ls, hls, rfl⟩ := Option.map_eq_some_iff.mp hs
        exact .answer htask hreturned hls
      · cases hs
  | resume l k =>
      simp only [step] at hs
      split at hs
      · rename_i i result hreturning
        obtain ⟨howner, c, hc, hvalue⟩ := returning_eq_some.mp hreturning
        obtain ⟨r, hr, rfl⟩ := Option.map_eq_some_iff.mp hs
        exact .resume howner hc hvalue hr
      · cases hs
  | cancel l k =>
      simp only [step] at hs
      split at hs
      · rename_i i howner
        obtain ⟨r, hr, hs⟩ := Option.bind_eq_some_iff.mp hs
        obtain ⟨ls, hls, rfl⟩ := Option.map_eq_some_iff.mp hs
        exact .cancel howner hr hls
      · cases hs

end

/-! ## The three parts -/

/-- The step of the resolver that a step is. -/
def resolverEvent (s : ServeState) : ServeEvent → Option ResolverEvent
  | .resolver e => some e
  | .lookup _ i => some (.lookup i)
  | .resume l k => (s.returning l k).map fun r => .reply r.1 r.2
  | .cancel l k => ((s.owners l)[k]?).map .cancel
  | .pending _ _ | .query _ _ _ | .attempt _ _ | .answer _ => none

/-- The step of a coalescer that a step is. -/
def listenersEvent (U : UnicodeCase) (text : LabelText) (cfg : ResolveConfig) (s : ServeState) :
    ServeEvent → Option (Listener × PendingEvent)
  | .lookup l i =>
      ((s.resolver.step U text cfg (.lookup i)).bind fun r => asked cfg r i).map fun query =>
        (l, .call query)
  | .pending l e => some (l, e)
  | .answer p => (s.answering p).map fun r => (r.1.1, .answer r.1.2 r.2)
  | .cancel l k => some (l, .cancel k)
  | .resolver _ | .query _ _ _ | .attempt _ _ | .resume _ _ => none

/-- The step of the pool that a step is. -/
def poolEvent : ServeEvent → Option PoolEvent
  | .query _ _ nowMs => some (.call nowMs)
  | .attempt p a => some (.attempt p a)
  | .resolver _ | .lookup _ _ | .pending _ _ | .answer _ | .resume _ _ | .cancel _ _ => none

section
variable {U : UnicodeCase} {text : LabelText} {cfg : ResolveConfig} {toBytes : ToBytes}
variable {s s' : ServeState} {e : ServeEvent}

theorem resolver_step (hs : s.step U text cfg toBytes e = some s') :
    stepSeen (ResolverState.step U text cfg) s.resolver (s.resolverEvent e) =
      some s'.resolver := by
  cases step_cases hs with
  | resolver _ hr => exact hr
  | hit hr _ => exact hr
  | missed hr _ _ => exact hr
  | resume howner hc hvalue hr =>
      rw [resolverEvent, returning_eq_some.mpr ⟨howner, _, hc, hvalue⟩]
      exact hr
  | cancel howner hr _ =>
      rw [resolverEvent, howner]
      exact hr
  | pending _ _ => rfl
  | query _ _ _ _ => rfl
  | attempt _ => rfl
  | answer _ _ _ => rfl

theorem listeners_step (hs : s.step U text cfg toBytes e = some s') :
    stepSeen (Listeners.step toBytes) s.listeners (s.listenersEvent U text cfg e) =
      some s'.listeners := by
  cases step_cases hs with
  | hit hr hasked =>
      rw [listenersEvent, hr, Option.bind_some, hasked, Option.map_none]
      rfl
  | missed hr hasked hls =>
      rw [listenersEvent, hr, Option.bind_some, hasked, Option.map_some]
      exact hls
  | pending _ hls => exact hls
  | answer htask hreturned hls =>
      rw [listenersEvent, answering_eq_some.mpr ⟨htask, hreturned⟩]
      exact hls
  | cancel _ _ hls => exact hls
  | resolver _ _ => rfl
  | query _ _ _ _ => rfl
  | attempt _ => rfl
  | resume _ _ _ _ => rfl

theorem pool_step (hs : s.step U text cfg toBytes e = some s') :
    stepSeen PoolState.step s.pool (poolEvent e) = some s'.pool := by
  cases step_cases hs with
  | query _ _ _ hp => exact hp
  | attempt hp => exact hp
  | resolver _ _ => rfl
  | hit _ _ => rfl
  | missed _ _ _ => rfl
  | pending _ _ => rfl
  | answer _ _ _ => rfl
  | resume _ _ _ _ => rfl
  | cancel _ _ _ => rfl

end

end ServeState

end Dotdns
