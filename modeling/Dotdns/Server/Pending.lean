import Dotdns.Lib.AssocMap
import Dotdns.Lib.Run
import Dotdns.Metrics
import Dotdns.Upstream.Error

/-!
# Server — coalescing of pending queries

`PendingQueries` as a transition system: any number of `query` calls and
of detached leader tasks, one step per stretch of code between two await
points (and, finer than that, the removal and the publication of a
result as two steps).

A FLIGHT is what a leader creates: the watch channel and the task that
owns the upstream query. Flight `f`'s channel is named `f`. The task does
not hold its own sender: it takes whatever sender is in the map under its
key, and that this is its own is a theorem (`PendingInv.removed`), not a
part of the model.
-/

namespace Dotdns

open Lib

/-- What `pending_key` returns: the encoding of the query with ID zero. -/
abbrev PendingKey := List UInt8

/-- `pending_key`: the wire form with the transaction ID zeroed. -/
def pendingKey (toBytes : ToBytes) (query : Message) : Except UpstreamError PendingKey :=
  (toBytes (query.setId 0)).mapError UpstreamError.fromProto

/-- Where a leader task stands. `removed` holds the sender that the removal
returned. -/
inductive FlightPhase where
  | running
  | completed (result : PendingResult)
  | removed (result : PendingResult) (tx : Option Nat)
  | done (result : PendingResult)

/-- The task a leader has spawned, with its channel. -/
structure Flight where
  key : PendingKey
  query : Message
  phase : FlightPhase
  /-- The value in the watch channel. -/
  value : Option PendingResult

/-- The task has not executed its remove step. -/
def FlightPhase.active : FlightPhase → Bool
  | .running | .completed _ => true
  | .removed _ _ | .done _ => false

/-- What `pool.query` returned to the task. -/
def FlightPhase.result : FlightPhase → Option PendingResult
  | .running => none
  | .completed r | .removed r _ | .done r => some r

/-- Where a `query` call stands. `orphaned` is the branch that finds the
channel closed without a value. -/
inductive CallerPhase where
  | starting (key : PendingKey)
  | waiting (leader : Bool) (flight : Nat)
  | failed (e : UpstreamError)
  | returned (leader : Bool) (flight : Nat) (result : PendingResult)
  | orphaned (leader : Bool) (flight : Nat)
  | timedOut (leader : Bool) (flight : Nat)
  | cancelled

/-- A call of `query` under way. -/
structure Caller where
  query : Message
  phase : CallerPhase

/-- The call holds a receiver of channel `f`. -/
def CallerPhase.waitsOn (f : Nat) : CallerPhase → Bool
  | .waiting _ g => g == f
  | _ => false

/-- The value a call returned. -/
def CallerPhase.returnedValue : CallerPhase → Option PendingResult
  | .starting _ | .waiting _ _ | .cancelled => none
  | .failed e => some (.error e)
  | .returned _ _ r => some r
  | .orphaned _ _ => some (.error (.network "pending upstream request was cancelled".toList))
  | .timedOut _ _ => some (.error .timeout)

/-- `PendingQueries`: `inner` has the flight of each key. -/
structure PendingState where
  inner : AssocMap PendingKey Nat
  flights : List Flight
  callers : List Caller
  metrics : Metrics

/-- What callers and tasks do, one await at a time. -/
inductive PendingEvent where
  /-- A new call: it computes its key and waits for the lock. -/
  | call (query : Message)
  /-- Caller `i` gets the lock: joins the entry, or inserts one and spawns. -/
  | join (i : Nat)
  /-- `pool.query` of flight `f` returns. -/
  | answer (f : Nat) (result : PendingResult)
  /-- The task of flight `f` gets the lock and removes the entry. -/
  | remove (f : Nat)
  /-- The task sends what it has and ends. -/
  | publish (f : Nat)
  /-- Caller `i` looks at its channel and returns. -/
  | poll (i : Nat)
  | timeout (i : Nat)
  /-- The future of caller `i` is dropped at an await. -/
  | cancel (i : Nat)

namespace PendingState

/-- `PendingQueries::new`. -/
def init (metrics : Metrics) : PendingState := ⟨.empty, [], [], metrics⟩

/-- Some sender of channel `f` is alive: in the map, or held by a task. -/
def hasSender (s : PendingState) (f : Nat) : Bool :=
  s.inner.entries.any (fun e => e.2 == f) ||
    s.flights.any fun fl => match fl.phase with
      | .removed _ tx => tx == some f
      | _ => false

/-- Some receiver of channel `f` is alive: in the map, or held by a
caller. -/
def hasReceiver (s : PendingState) (f : Nat) : Bool :=
  s.inner.entries.any (fun e => e.2 == f) ||
    s.callers.any fun c => c.phase.waitsOn f

/-- Caller `i` moves on, and the counters with it. -/
def setCaller (s : PendingState) (i : Nat) (c : Caller) (metrics : Metrics) : PendingState :=
  { s with callers := s.callers.set i c, metrics }

/-- The task of flight `f` moves on. -/
def setPhase (s : PendingState) (f : Nat) (phase : FlightPhase) : PendingState :=
  { s with flights := s.flights.modify f fun fl => { fl with phase } }

/-- The code from the lock to the first wait. -/
def join (s : PendingState) (i : Nat) (query : Message) (key : PendingKey) : PendingState :=
  match s.inner.get? key with
  | some f =>
      { s with
        callers := s.callers.set i ⟨query, .waiting false f⟩
        metrics := s.metrics.recordPendingFollowerJoined }
  | none =>
      let f := s.flights.length
      { inner := s.inner.insert key f
        flights := s.flights ++ [⟨key, query, .running, none⟩]
        callers := s.callers.set i ⟨query, .waiting true f⟩
        metrics := s.metrics.recordPendingLeaderStarted }

/-- `tx.send`: stores the value when a receiver is alive. -/
def send (s : PendingState) (f : Nat) (result : PendingResult) : PendingState :=
  if s.hasReceiver f
  then { s with flights := s.flights.modify f fun fl => { fl with value := some result } }
  else s

/-- What the channel of flight `f` holds. -/
def channelValue (s : PendingState) (f : Nat) : Option PendingResult :=
  (s.flights[f]?).bind Flight.value

/-- One step of a caller or of a task. -/
def step (toBytes : ToBytes) (s : PendingState) : PendingEvent → Option PendingState
  | .call query =>
      let phase := match pendingKey toBytes query with
        | .ok key => .starting key
        | .error e => .failed e
      some { s with callers := s.callers ++ [⟨query, phase⟩] }
  | .join i =>
      match s.callers[i]? with
      | some ⟨query, .starting key⟩ => some (s.join i query key)
      | _ => none
  | .answer f result =>
      match (s.flights[f]?).map Flight.phase with
      | some .running =>
          some { s.setPhase f (.completed result) with
            metrics := s.metrics.recordPendingLeaderCompleted }
      | _ => none
  | .remove f =>
      match s.flights[f]? with
      | some ⟨key, _, .completed result, _⟩ =>
          some { s.setPhase f (.removed result (s.inner.get? key)) with
            inner := s.inner.erase key }
      | _ => none
  | .publish f =>
      match (s.flights[f]?).map Flight.phase with
      | some (.removed result tx) =>
          let sent := match tx with
            | some g => s.send g result
            | none => s
          -- the task ends and drops its sender
          some (sent.setPhase f (.done result))
      | _ => none
  | .poll i =>
      match s.callers[i]? with
      | some ⟨query, .waiting leader f⟩ =>
          match s.channelValue f with
          | some result =>
              some (s.setCaller i ⟨query, .returned leader f result⟩
                (if leader then s.metrics else s.metrics.recordPendingFollowerResolved))
          | none =>
              if s.hasSender f then none
              else some (s.setCaller i ⟨query, .orphaned leader f⟩
                (if leader then s.metrics else s.metrics.recordPendingFollowerTimeout))
      | _ => none
  | .timeout i =>
      match s.callers[i]? with
      | some ⟨query, .waiting leader f⟩ =>
          -- the deadline is looked at only when the channel has nothing to say
          if (s.channelValue f).isNone && s.hasSender f then
            some (s.setCaller i ⟨query, .timedOut leader f⟩
              (if leader then s.metrics else s.metrics.recordPendingFollowerTimeout))
          else none
      | _ => none
  | .cancel i =>
      match s.callers[i]? with
      | some ⟨query, .starting _⟩ => some (s.setCaller i ⟨query, .cancelled⟩ s.metrics)
      | some ⟨query, .waiting _ _⟩ => some (s.setCaller i ⟨query, .cancelled⟩ s.metrics)
      | _ => none

end PendingState

/-! ## The invariant -/

/-- What a call may say about the flights. -/
def CallerOk (toBytes : ToBytes) (flights : List Flight) (c : Caller) : Prop :=
  match c.phase with
  | .starting key => pendingKey toBytes c.query = .ok key
  | .failed e => pendingKey toBytes c.query = .error e
  | .waiting _ f | .timedOut _ f =>
      ∃ fl, flights[f]? = some fl ∧ pendingKey toBytes c.query = .ok fl.key
  | .returned _ f r =>
      ∃ fl, flights[f]? = some fl ∧ pendingKey toBytes c.query = .ok fl.key ∧
        fl.phase = .done r
  | .orphaned _ _ => False
  | .cancelled => True

/-- At most one task is at work on a key, and callers wait for the right one. -/
structure PendingInv (toBytes : ToBytes) (s : PendingState) : Prop where
  /-- A flight is filed under the key of its leader's query. -/
  key : ∀ (f : Nat) (fl : Flight), s.flights[f]? = some fl →
    pendingKey toBytes fl.query = .ok fl.key
  /-- An entry belongs to a task that has not removed it. -/
  entry : ∀ k f, s.inner.get? k = some f →
    ∃ fl, s.flights[f]? = some fl ∧ fl.key = k ∧ fl.phase.active = true
  /-- Such a task has its own entry in the map. -/
  active : ∀ (f : Nat) (fl : Flight), s.flights[f]? = some fl → fl.phase.active = true →
    s.inner.get? fl.key = some f
  /-- What a task removed was its own. -/
  removed : ∀ (f : Nat) (fl : Flight) r tx, s.flights[f]? = some fl →
    fl.phase = .removed r tx → tx = some f
  /-- A channel holds nothing but its task's final result. -/
  value : ∀ (f : Nat) (fl : Flight) r, s.flights[f]? = some fl → fl.value = some r →
    fl.phase = .done r
  /-- No lost wake-up: a finished task has published, or nobody waits. -/
  published : ∀ (f : Nat) (fl : Flight) r, s.flights[f]? = some fl → fl.phase = .done r →
    fl.value = some r ∨ ∀ c ∈ s.callers, c.phase.waitsOn f = false
  callers : ∀ c ∈ s.callers, CallerOk toBytes s.flights c

section
variable {toBytes : ToBytes} {s s' : PendingState}

theorem pendingInv_init (m : Metrics) : PendingInv toBytes (PendingState.init m) where
  key f fl h := by cases h
  entry k f h := by cases h
  active f fl h := by cases h
  removed f fl r tx h := by cases h
  value f fl r h := by cases h
  published f fl r h := by cases h
  callers c h := by cases h

/-- A call's view survives when flights keep their keys and final results. -/
theorem CallerOk.mono {flights flights' : List Flight} {c : Caller}
    (hkeep : ∀ (f : Nat) (fl : Flight), flights[f]? = some fl →
      ∃ fl' : Flight, flights'[f]? = some fl' ∧ fl'.key = fl.key ∧
        ∀ r, fl.phase = .done r → fl'.phase = .done r)
    (h : CallerOk toBytes flights c) : CallerOk toBytes flights' c := by
  obtain ⟨query, phase⟩ := c
  cases phase with
  | starting key => exact h
  | failed e => exact h
  | orphaned l f => exact h
  | cancelled => trivial
  | waiting l f =>
      obtain ⟨fl, hf, hk⟩ := h
      obtain ⟨fl', hf', hkey, _⟩ := hkeep f fl hf
      exact ⟨fl', hf', by rw [hkey]; exact hk⟩
  | timedOut l f =>
      obtain ⟨fl, hf, hk⟩ := h
      obtain ⟨fl', hf', hkey, _⟩ := hkeep f fl hf
      exact ⟨fl', hf', by rw [hkey]; exact hk⟩
  | returned l f r =>
      obtain ⟨fl, hf, hk, hd⟩ := h
      obtain ⟨fl', hf', hkey, hdone⟩ := hkeep f fl hf
      exact ⟨fl', hf', by rw [hkey]; exact hk, hdone r hd⟩

/-- One caller moves on, the flights stay. -/
theorem PendingInv.setCaller (h : PendingInv toBytes s) (i : Nat) {c : Caller} (m : Metrics)
    (hc : CallerOk toBytes s.flights c)
    (hwait : ∀ (f : Nat) (fl : Flight) r, c.phase.waitsOn f = true → s.flights[f]? = some fl →
      fl.phase ≠ .done r) :
    PendingInv toBytes (s.setCaller i c m) where
  key := h.key
  entry := h.entry
  active := h.active
  removed := h.removed
  value := h.value
  published f fl r hf hd := by
    rcases h.published f fl r hf hd with hv | hnone
    · exact .inl hv
    · refine .inr fun c' hc' => ?_
      rcases List.mem_or_eq_of_mem_set hc' with hc' | rfl
      · exact hnone c' hc'
      · rw [Bool.eq_false_iff]
        intro hw
        exact hwait f fl r hw hf hd
  callers c' hc' := by
    rcases List.mem_or_eq_of_mem_set hc' with hc' | rfl
    · exact h.callers c' hc'
    · exact hc

/-- `flights'` is `flights` with flight `f` replaced by `fl₁`. -/
def Replaces (flights flights' : List Flight) (f : Nat) (fl₁ : Flight) : Prop :=
  ∀ j fl, flights'[j]? = some fl ↔ j = f ∧ fl = fl₁ ∨ j ≠ f ∧ flights[j]? = some fl

theorem replaces_modify {flights : List Flight} {f : Nat} {fl₀ : Flight}
    (hf : flights[f]? = some fl₀) (g : Flight → Flight) :
    Replaces flights (flights.modify f g) f (g fl₀) := by
  intro j fl
  rw [getElem?_modify_eq_some]
  by_cases hj : j = f
  · subst hj
    simp [hf]
  · simp [hj]

/-- One flight moves on, the callers stay. -/
theorem PendingInv.replace (h : PendingInv toBytes s) {f : Nat} {fl₀ fl₁ : Flight}
    {flights' : List Flight} {inner' : AssocMap PendingKey Nat} (m : Metrics)
    (hf : s.flights[f]? = some fl₀) (hrep : Replaces s.flights flights' f fl₁)
    (hkey : fl₁.key = fl₀.key) (hquery : fl₁.query = fl₀.query) (hopen : ∀ r, fl₀.phase ≠ .done r)
    (hentry : ∀ k g, inner'.get? k = some g →
      s.inner.get? k = some g ∧ (g = f → fl₁.phase.active = true))
    (hactive : ∀ j fl, flights'[j]? = some fl → fl.phase.active = true →
      inner'.get? fl.key = some j)
    (hremoved : ∀ r tx, fl₁.phase = .removed r tx → tx = some f)
    (hvalue : ∀ r, fl₁.value = some r → fl₁.phase = .done r)
    (hpub : ∀ r, fl₁.phase = .done r →
      fl₁.value = some r ∨ ∀ c ∈ s.callers, c.phase.waitsOn f = false) :
    PendingInv toBytes ⟨inner', flights', s.callers, m⟩ where
  key j fl hj := by
    rcases (hrep j fl).mp hj with ⟨rfl, rfl⟩ | ⟨_, hj⟩
    · rw [hkey, hquery]
      exact h.key j fl₀ hf
    · exact h.key j fl hj
  entry k g hk := by
    obtain ⟨hk, hact⟩ := hentry k g hk
    obtain ⟨fl, hg, hflk, hfla⟩ := h.entry k g hk
    by_cases hgf : g = f
    · subst hgf
      rw [hf] at hg
      cases hg
      exact ⟨fl₁, (hrep g fl₁).mpr (.inl ⟨rfl, rfl⟩), by rw [hkey]; exact hflk, hact rfl⟩
    · exact ⟨fl, (hrep g fl).mpr (.inr ⟨hgf, hg⟩), hflk, hfla⟩
  active := hactive
  removed j fl r tx hj hp := by
    rcases (hrep j fl).mp hj with ⟨rfl, rfl⟩ | ⟨_, hj⟩
    · exact hremoved r tx hp
    · exact h.removed j fl r tx hj hp
  value j fl r hj hv := by
    rcases (hrep j fl).mp hj with ⟨rfl, rfl⟩ | ⟨_, hj⟩
    · exact hvalue r hv
    · exact h.value j fl r hj hv
  published j fl r hj hp := by
    rcases (hrep j fl).mp hj with ⟨rfl, rfl⟩ | ⟨_, hj⟩
    · exact hpub r hp
    · exact h.published j fl r hj hp
  callers c hc := by
    refine (h.callers c hc).mono fun g fl hg => ?_
    by_cases hgf : g = f
    · subst hgf
      rw [hf] at hg
      cases hg
      exact ⟨fl₁, (hrep g fl₁).mpr (.inl ⟨rfl, rfl⟩), hkey, fun r hr => absurd hr (hopen r)⟩
    · exact ⟨fl, (hrep g fl).mpr (.inr ⟨hgf, hg⟩), rfl, fun _ hr => hr⟩

/-! ## One lemma per step -/

/-- A leader: the new flight's entry is the only one for its key. -/
theorem PendingInv.lead (h : PendingInv toBytes s) (i : Nat) (query : Message)
    {key : PendingKey} (hkey : pendingKey toBytes query = .ok key)
    (hnone : s.inner.get? key = none) (m : Metrics) :
    PendingInv toBytes
      { inner := s.inner.insert key s.flights.length
        flights := s.flights ++ [⟨key, query, .running, none⟩]
        callers := s.callers.set i ⟨query, .waiting true s.flights.length⟩
        metrics := m } := by
  have hold : ∀ {f : Nat} {fl : Flight}, s.flights[f]? = some fl →
      (s.flights ++ [⟨key, query, .running, none⟩])[f]? = some fl :=
    fun hf => getElem?_concat_eq_some.mpr (.inl hf)
  have hnew : ∀ {f : Nat} {fl : Flight},
      (s.flights ++ [⟨key, query, .running, none⟩])[f]? = some fl →
      s.flights[f]? = some fl ∨ f = s.flights.length ∧ fl = ⟨key, query, .running, none⟩ :=
    getElem?_concat_eq_some.mp
  have hlast : (s.flights ++ [(⟨key, query, .running, none⟩ : Flight)])[s.flights.length]? =
      some ⟨key, query, .running, none⟩ := by simp
  refine ⟨?_, ?_, ?_, ?_, ?_, ?_, ?_⟩
  · intro f fl hf
    rcases hnew hf with hf | ⟨rfl, rfl⟩
    · exact h.key f fl hf
    · exact hkey
  · intro k f hk
    rw [AssocMap.get?_insert] at hk
    split at hk
    · rename_i hkk
      cases hk
      exact ⟨_, hlast, by simpa using hkk, rfl⟩
    · obtain ⟨fl, hf, hflk, hact⟩ := h.entry k f hk
      exact ⟨fl, hold hf, hflk, hact⟩
  · intro f fl hf hact
    rw [AssocMap.get?_insert]
    rcases hnew hf with hf | ⟨rfl, rfl⟩
    · -- an older active flight cannot have this key: the map had no entry for it
      have hin := h.active f fl hf hact
      rw [if_neg, hin]
      intro hkk
      rw [← beq_iff_eq.mp hkk, hnone] at hin
      cases hin
    · simp
  · intro f fl r tx hf hp
    rcases hnew hf with hf | ⟨rfl, rfl⟩
    · exact h.removed f fl r tx hf hp
    · cases hp
  · intro f fl r hf hv
    rcases hnew hf with hf | ⟨rfl, rfl⟩
    · exact h.value f fl r hf hv
    · cases hv
  · intro f fl r hf hd
    rcases hnew hf with hf | ⟨rfl, rfl⟩
    · rcases h.published f fl r hf hd with hv | hw
      · exact .inl hv
      · refine .inr fun c hc => ?_
        rcases List.mem_or_eq_of_mem_set hc with hc | rfl
        · exact hw c hc
        · have hlt := (List.getElem?_eq_some_iff.mp hf).1
          simp only [CallerPhase.waitsOn, beq_eq_false_iff_ne]
          omega
    · cases hd
  · intro c hc
    rcases List.mem_or_eq_of_mem_set hc with hc | rfl
    · exact (h.callers c hc).mono fun f fl hf => ⟨fl, hold hf, rfl, fun _ hr => hr⟩
    · exact ⟨_, hlast, hkey⟩

theorem PendingInv.call (h : PendingInv toBytes s) {query : Message}
    (hs : s.step toBytes (.call query) = some s') : PendingInv toBytes s' := by
  cases hs
  refine ⟨h.key, h.entry, h.active, h.removed, h.value, ?_, ?_⟩
  · intro f fl r hf hd
    rcases h.published f fl r hf hd with hv | hnone
    · exact .inl hv
    · refine .inr fun c hc => ?_
      rcases List.mem_append.mp hc with hc | hc
      · exact hnone c hc
      · cases List.mem_singleton.mp hc
        cases pendingKey toBytes query <;> rfl
  · intro c hc
    rcases List.mem_append.mp hc with hc | hc
    · exact h.callers c hc
    · cases List.mem_singleton.mp hc
      cases hk : pendingKey toBytes query with
      | ok key => exact hk
      | error e => exact hk

theorem PendingInv.join (h : PendingInv toBytes s) {i : Nat}
    (hs : s.step toBytes (.join i) = some s') : PendingInv toBytes s' := by
  simp only [PendingState.step] at hs
  split at hs
  · rename_i query key hc
    cases hs
    have hkey : pendingKey toBytes query = .ok key := h.callers _ (List.mem_of_getElem? hc)
    unfold PendingState.join
    split
    · -- a follower: the entry it found belongs to an unfinished flight
      rename_i f hf
      obtain ⟨fl, hfl, hflk, hact⟩ := h.entry key f hf
      refine h.setCaller i _ ⟨fl, hfl, by rw [hflk]; exact hkey⟩ ?_
      intro g fl' r hw hg hd
      have hgf : f = g := by simpa [CallerPhase.waitsOn] using hw
      subst hgf
      rw [hfl] at hg
      cases hg
      rw [hd] at hact
      cases hact
    · rename_i hnone
      exact h.lead i query hkey hnone _
  · cases hs

theorem PendingInv.answer (h : PendingInv toBytes s) {f : Nat} {result : PendingResult}
    (hs : s.step toBytes (.answer f result) = some s') : PendingInv toBytes s' := by
  simp only [PendingState.step] at hs
  split at hs
  · rename_i hphase
    cases hs
    obtain ⟨fl₀, hf, hrun⟩ := Option.map_eq_some_iff.mp hphase
    have hrep := replaces_modify hf fun fl => { fl with phase := .completed result }
    refine h.replace _ hf hrep rfl rfl (by rw [hrun]; intro r hr; cases hr) ?_ ?_ ?_ ?_ ?_
    · intro k g hk
      exact ⟨hk, fun _ => rfl⟩
    · intro j fl hj hact
      rcases (hrep j fl).mp hj with ⟨rfl, rfl⟩ | ⟨_, hj⟩
      · exact h.active j fl₀ hf (by rw [hrun]; rfl)
      · exact h.active j fl hj hact
    · intro r tx hp
      cases hp
    · intro r hv
      have := h.value f fl₀ r hf hv
      rw [hrun] at this
      cases this
    · intro r hp
      cases hp
  · cases hs

theorem PendingInv.remove (h : PendingInv toBytes s) {f : Nat}
    (hs : s.step toBytes (.remove f) = some s') : PendingInv toBytes s' := by
  simp only [PendingState.step] at hs
  split at hs
  · rename_i key query result value hf
    cases hs
    -- the entry under the task's key is the task's own
    have hown : s.inner.get? key = some f := h.active f _ hf rfl
    have hrep := replaces_modify hf fun fl =>
      { fl with phase := .removed result (s.inner.get? key) }
    refine h.replace _ hf hrep rfl rfl (by intro r hr; cases hr) ?_ ?_ ?_ ?_ ?_
    · intro k g hk
      rw [AssocMap.get?_erase] at hk
      split at hk
      · cases hk
      · rename_i hkk
        refine ⟨hk, fun hgf => absurd ?_ hkk⟩
        subst hgf
        obtain ⟨fl, hg, hflk, _⟩ := h.entry k g hk
        rw [hf] at hg
        cases hg
        rw [← hflk]
        exact BEq.rfl
    · intro j fl hj hact
      rcases (hrep j fl).mp hj with ⟨rfl, rfl⟩ | ⟨hne, hj⟩
      · cases hact
      · have hin := h.active j fl hj hact
        rw [AssocMap.get?_erase, if_neg, hin]
        intro hkk
        rw [← beq_iff_eq.mp hkk, hown] at hin
        exact hne (Option.some.inj hin).symm
    · intro r tx hp
      cases hp
      exact hown
    · intro r hv
      cases h.value f _ r hf hv
    · intro r hp
      cases hp
  · cases hs

theorem PendingInv.publish (h : PendingInv toBytes s) {f : Nat}
    (hs : s.step toBytes (.publish f) = some s') : PendingInv toBytes s' := by
  simp only [PendingState.step] at hs
  split at hs
  · rename_i result tx hphase
    cases hs
    obtain ⟨fl₀, hf, hrem⟩ := Option.map_eq_some_iff.mp hphase
    obtain rfl := h.removed f fl₀ result tx hf hrem
    have hempty : fl₀.value = none := by
      cases hv : fl₀.value with
      | none => rfl
      | some r =>
          have := h.value f fl₀ r hf hv
          rw [hrem] at this
          cases this
    have hactive : ∀ fl₁ : Flight, fl₁.phase = .done result →
        ∀ flights', Replaces s.flights flights' f fl₁ →
        ∀ (j : Nat) (fl : Flight), flights'[j]? = some fl → fl.phase.active = true →
          s.inner.get? fl.key = some j := by
      intro fl₁ hd flights' hrep j fl hj hact
      rcases (hrep j fl).mp hj with ⟨rfl, rfl⟩ | ⟨_, hj⟩
      · rw [hd] at hact
        cases hact
      · exact h.active j fl hj hact
    -- the task's entry is gone since its remove step
    have hentry : ∀ (k : PendingKey) (g : Nat), s.inner.get? k = some g → g ≠ f := by
      intro k g hk hgf
      subst hgf
      obtain ⟨fl, hg, _, hact⟩ := h.entry k g hk
      rw [hf] at hg
      cases hg
      rw [hrem] at hact
      cases hact
    have hopen : ∀ r, fl₀.phase ≠ .done r := by
      rw [hrem]
      intro r hr
      cases hr
    show PendingInv toBytes ((s.send f result).setPhase f (.done result))
    unfold PendingState.send
    by_cases hrecv : s.hasReceiver f = true
    · -- someone still holds a receiver: the value is stored
      rw [if_pos hrecv]
      have hrep : Replaces s.flights
          ((s.flights.modify f fun fl => { fl with value := some result }).modify f
            fun fl => { fl with phase := .done result }) f
          { fl₀ with value := some result, phase := .done result } := by
        rw [List.modify_modify_eq]
        exact replaces_modify hf _
      refine h.replace _ hf hrep rfl rfl hopen ?_ (hactive _ rfl _ hrep) ?_ ?_ ?_
      · intro k g hk
        exact ⟨hk, fun hgf => absurd hgf (hentry k g hk)⟩
      · intro r tx hp
        cases hp
      · intro r hv
        cases hv
        rfl
      · intro r hp
        cases hp
        exact .inl rfl
    · -- no receiver is left, so nobody waits for the value that is dropped
      rw [if_neg hrecv]
      have hrep := replaces_modify hf fun fl => { fl with phase := .done result }
      refine h.replace _ hf hrep rfl rfl hopen ?_ (hactive _ rfl _ hrep) ?_ ?_ ?_
      · intro k g hk
        exact ⟨hk, fun hgf => absurd hgf (hentry k g hk)⟩
      · intro r tx hp
        cases hp
      · intro r hv
        rw [hempty] at hv
        cases hv
      · intro r hp
        refine .inr fun c hc => ?_
        rw [Bool.eq_false_iff]
        intro hw
        refine hrecv ?_
        unfold PendingState.hasReceiver
        rw [Bool.or_eq_true, List.any_eq_true, List.any_eq_true]
        exact .inr ⟨c, hc, hw⟩
  · cases hs

/-- Whoever waits on a channel without a value has a live sender to wait
for. -/
theorem PendingInv.hasSender (h : PendingInv toBytes s) {c : Caller} (hc : c ∈ s.callers)
    {leader : Bool} {f : Nat} (hw : c.phase = .waiting leader f)
    (hv : s.channelValue f = none) : s.hasSender f = true := by
  have hok := h.callers c hc
  unfold CallerOk at hok
  rw [hw] at hok
  obtain ⟨fl, hf, hkey⟩ := hok
  have hval : fl.value = none := by simpa [PendingState.channelValue, hf] using hv
  have hmap : fl.phase.active = true →
      s.inner.entries.any (fun e => e.2 == f) = true := by
    intro hact
    obtain ⟨k, hmem, _⟩ := AssocMap.exists_mem_of_get? (h.active f fl hf hact)
    rw [List.any_eq_true]
    exact ⟨_, hmem, BEq.rfl⟩
  unfold PendingState.hasSender
  rw [Bool.or_eq_true]
  -- before its remove step the sender is in the map, then in the task's hands
  cases hp : fl.phase with
  | running => exact .inl (hmap (by rw [hp]; rfl))
  | completed r => exact .inl (hmap (by rw [hp]; rfl))
  | removed r tx =>
      refine .inr (List.any_eq_true.mpr ⟨fl, List.mem_of_getElem? hf, ?_⟩)
      rw [hp, h.removed f fl r tx hf hp]
      exact BEq.rfl
  | done r =>
      rcases h.published f fl r hf hp with hsome | hnone
      · rw [hval] at hsome
        cases hsome
      · have := hnone c hc
        rw [hw] at this
        simp [CallerPhase.waitsOn] at this

theorem PendingInv.poll (h : PendingInv toBytes s) {i : Nat}
    (hs : s.step toBytes (.poll i) = some s') : PendingInv toBytes s' := by
  simp only [PendingState.step] at hs
  split at hs
  · rename_i query leader f hc
    have hmem := List.mem_of_getElem? hc
    split at hs
    · rename_i result hv
      cases hs
      obtain ⟨fl, hf, hkey⟩ : ∃ fl, s.flights[f]? = some fl ∧
          pendingKey toBytes query = .ok fl.key := h.callers _ hmem
      have hval : fl.value = some result := by simpa [PendingState.channelValue, hf] using hv
      refine h.setCaller i _ ⟨fl, hf, hkey, h.value f fl result hf hval⟩ ?_
      intro g fl' r hw
      cases hw
    · rename_i hv
      rw [if_pos (h.hasSender hmem rfl hv)] at hs
      cases hs
  · cases hs

theorem PendingInv.timeout (h : PendingInv toBytes s) {i : Nat}
    (hs : s.step toBytes (.timeout i) = some s') : PendingInv toBytes s' := by
  simp only [PendingState.step] at hs
  split at hs
  · rename_i query leader f hc
    split at hs
    · cases hs
      have hok := h.callers _ (List.mem_of_getElem? hc)
      refine h.setCaller i _ hok ?_
      intro g fl r hw
      cases hw
    · cases hs
  · cases hs

theorem PendingInv.cancel (h : PendingInv toBytes s) {i : Nat}
    (hs : s.step toBytes (.cancel i) = some s') : PendingInv toBytes s' := by
  simp only [PendingState.step] at hs
  split at hs
  · cases hs
    refine h.setCaller i _ trivial ?_
    intro g fl r hw
    cases hw
  · cases hs
    refine h.setCaller i _ trivial ?_
    intro g fl r hw
    cases hw
  · cases hs

theorem PendingInv.step (h : PendingInv toBytes s) (e : PendingEvent)
    (hs : s.step toBytes e = some s') : PendingInv toBytes s' := by
  cases e with
  | call query => exact h.call hs
  | join i => exact h.join hs
  | answer f result => exact h.answer hs
  | remove f => exact h.remove hs
  | publish f => exact h.publish hs
  | poll i => exact h.poll hs
  | timeout i => exact h.timeout hs
  | cancel i => exact h.cancel hs

end

/-- **Coalescing is sound.** In every reachable state: the map holds an
entry for a key exactly when exactly one leader task for it has not run
its remove step, so at most one upstream query per key is in flight; and
a call that has returned without timing out has the one result of the
task whose entry it joined, filed under the same pending key — never the
"cancelled" error — or could not be encoded and joined nothing. -/
theorem pendingQueries_single_flight (toBytes : ToBytes) (m : Metrics)
    (es : List PendingEvent) (s : PendingState)
    (hrun : run (PendingState.step toBytes) (PendingState.init m) es = some s) :
    (∀ k, (s.inner.get? k).isSome = true ↔ ∃! f : Nat, ∃ fl : Flight,
      s.flights[f]? = some fl ∧ fl.key = k ∧ fl.phase.active = true) ∧
    (∀ (f g : Nat) (fl fl' : Flight), s.flights[f]? = some fl → s.flights[g]? = some fl' →
      fl.phase = .running → fl'.phase = .running → fl.key = fl'.key → f = g) ∧
    ∀ c ∈ s.callers, ∀ res, c.phase.returnedValue = some res →
      (∃ e, c.phase = .failed e ∧ pendingKey toBytes c.query = .error e) ∨
      (∃ leader f, c.phase = .timedOut leader f) ∨
      ∃ (leader : Bool) (f : Nat) (fl : Flight), c.phase = .returned leader f res ∧
        s.flights[f]? = some fl ∧
        pendingKey toBytes c.query = .ok fl.key ∧ pendingKey toBytes fl.query = .ok fl.key ∧
        fl.phase.result = some res := by
  have h : PendingInv toBytes s :=
    (Passes.finish hrun).invariant_of_step (pendingInv_init m)
      fun s e s' hi hs => hi.step e hs
  refine ⟨?_, ?_, ?_⟩
  · intro k
    constructor
    -- an entry stands for its flight exactly as long as the flight is active
    · intro hk
      obtain ⟨f, hf⟩ := Option.isSome_iff_exists.mp hk
      refine ⟨f, h.entry k f hf, ?_⟩
      intro g hg
      obtain ⟨fl, hgfl, rfl, hact⟩ := hg
      rw [h.active g fl hgfl hact] at hf
      exact Option.some.inj hf
    · intro hk
      obtain ⟨f, ⟨fl, hf, rfl, hact⟩, _⟩ := hk
      rw [h.active f fl hf hact]
      rfl
  -- two running flights of one key would share its entry
  · intro f g fl fl' hf hg hrun hrun' hkey
    have h1 := h.active f fl hf (by rw [hrun]; rfl)
    have h2 := h.active g fl' hg (by rw [hrun']; rfl)
    rw [hkey, h2] at h1
    exact (Option.some.inj h1).symm
  · intro c hc res hres
    have hok := h.callers c hc
    obtain ⟨query, phase⟩ := c
    -- of the callers that have a value, only `returned` took it from a flight
    cases phase with
    | starting key => cases hres
    | waiting leader f => cases hres
    | cancelled => cases hres
    | failed e => exact .inl ⟨e, rfl, hok⟩
    | timedOut leader f => exact .inr (.inl ⟨leader, f, rfl⟩)
    | orphaned leader f => exact hok.elim
    | returned leader f r =>
        cases hres
        obtain ⟨fl, hf, hkey, hdone⟩ := hok
        refine .inr (.inr ⟨leader, f, fl, rfl, hf, hkey, h.key f fl hf, ?_⟩)
        rw [hdone]
        rfl

/-- Two calls with different transaction IDs for the empty message, whose
wire form is twelve zero bytes: the second joins the first's flight and
both return its result. -/
theorem pendingQueries_two_calls :
    let toBytes : ToBytes := fun _ => .ok (List.replicate 12 0)
    let es : List PendingEvent :=
      [.call { id := 1 }, .call { id := 2 }, .join 0, .join 1,
       .answer 0 (.ok { messageType := .response }), .remove 0, .publish 0, .poll 1, .poll 0]
    ∃ s, run (PendingState.step toBytes) (PendingState.init {}) es = some s ∧
      s.callers.map (fun c => c.phase.returnedValue) =
        [some (.ok { messageType := .response }), some (.ok { messageType := .response })] ∧
      ∀ c ∈ s.callers, ∀ res, c.phase.returnedValue = some res →
        (∃ e, c.phase = .failed e ∧ pendingKey toBytes c.query = .error e) ∨
        (∃ leader f, c.phase = .timedOut leader f) ∨
        ∃ (leader : Bool) (f : Nat) (fl : Flight), c.phase = .returned leader f res ∧
          s.flights[f]? = some fl ∧
          pendingKey toBytes c.query = .ok fl.key ∧ pendingKey toBytes fl.query = .ok fl.key ∧
          fl.phase.result = some res := by
  intro toBytes es
  refine ⟨_, rfl, rfl, ?_⟩
  exact (pendingQueries_single_flight toBytes {} es _ rfl).2.2

end Dotdns
