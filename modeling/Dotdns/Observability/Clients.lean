import Dotdns.Lib.Lru
import Dotdns.Observability

/-!
# Observability — the client table

The `record_client_*` calls, one after another, as a least-recently-used
table (`Lib.Lru`): `with_client` is the ticked map, so the registry holds
exactly the clients most recently active, each with the counts of its
calls since it was last taken in.

The clock and the counters are `u64`: all of it holds for fewer than 2^64
calls.
-/

namespace Dotdns

open Lib

/-- What a client's calls are counted by. -/
inductive ClientCounter where
  | query
  | blocked
  | cacheHit
  | cacheMiss
  deriving DecidableEq, Repr

/-- What is recorded of a client. -/
inductive ClientOp where
  | count (c : ClientCounter)
  | connectionOpened
  | connectionClosed
  deriving DecidableEq, Repr

/-- A `record_client_*` call. -/
structure ClientCall where
  ip : IpAddr
  op : ClientOp
  deriving DecidableEq

/-- The counter that such a call moves. -/
def ClientStats.counter (s : ClientStats) : ClientCounter → UInt64
  | .query => s.totalQueries
  | .blocked => s.blockedQueries
  | .cacheHit => s.cacheHits
  | .cacheMiss => s.cacheMisses

/-- What it does to the client's counters. -/
def ClientOp.record : ClientOp → ClientStats → ClientStats
  | .count .query => ClientStats.recordQuery
  | .count .blocked => ClientStats.recordBlocked
  | .count .cacheHit => ClientStats.recordCacheHit
  | .count .cacheMiss => ClientStats.recordCacheMiss
  | .connectionOpened => ClientStats.recordConnectionOpened
  | .connectionClosed => ClientStats.recordConnectionClosed

namespace ObservabilityRegistry

/-- One call. -/
def record (reg : ObservabilityRegistry) (call : ClientCall) : ObservabilityRegistry :=
  match call.op with
  | .count .query => reg.recordClientQuery call.ip
  | .count .blocked => reg.recordClientBlocked call.ip
  | .count .cacheHit => reg.recordClientCacheHit call.ip
  | .count .cacheMiss => reg.recordClientCacheMiss call.ip
  | .connectionOpened => reg.recordClientConnectionOpened call.ip
  | .connectionClosed => reg.recordClientConnectionClosed call.ip

/-- The calls, one after another. -/
def recordAll (reg : ObservabilityRegistry) (calls : List ClientCall) : ObservabilityRegistry :=
  calls.foldl record reg

theorem record_eq (reg : ObservabilityRegistry) (call : ClientCall) :
    reg.record call = reg.withClient call.ip call.op.record := by
  obtain ⟨ip, op⟩ := call
  cases op with
  | count c => cases c <;> rfl
  | connectionOpened => rfl
  | connectionClosed => rfl

theorem recordAll_concat (reg : ObservabilityRegistry) (calls : List ClientCall)
    (call : ClientCall) : reg.recordAll (calls ++ [call]) = (reg.recordAll calls).record call := by
  rw [recordAll, List.foldl_append]
  rfl

end ObservabilityRegistry

/-- Closing a connection moves its gauge and nothing else. -/
theorem ClientStats.recordConnectionClosed_eq (s : ClientStats) :
    s.recordConnectionClosed =
      { s with activeConnections := s.recordConnectionClosed.activeConnections } := by
  unfold recordConnectionClosed
  split <;> rfl

/-- A call of one kind moves one counter. -/
theorem ClientOp.counter_record (op : ClientOp) (s : ClientStats) (c : ClientCounter) :
    (op.record s).counter c = s.counter c + if op = .count c then 1 else 0 := by
  cases op with
  | count c' => cases c' <;> cases c <;> simp [record, ClientStats.counter,
      ClientStats.recordQuery, ClientStats.recordBlocked, ClientStats.recordCacheHit,
      ClientStats.recordCacheMiss]
  | connectionOpened => cases c <;> simp [record, ClientStats.counter,
      ClientStats.recordConnectionOpened]
  | connectionClosed =>
      rw [record, ClientStats.recordConnectionClosed_eq]
      cases c <;> simp [ClientStats.counter]

theorem ClientOp.lastActivity_record (op : ClientOp) (s : ClientStats) :
    (op.record s).lastActivity = s.lastActivity := by
  cases op with
  | count c => cases c <;> rfl
  | connectionOpened => rfl
  | connectionClosed => rw [record, ClientStats.recordConnectionClosed_eq]

/-! ## The registry as a table -/

/-- The calls, newest first. -/
def history (calls : List ClientCall) : List (IpAddr × ClientOp) :=
  calls.reverse.map fun call => (call.ip, call.op)

/-- The calls, newest first, each with its tick. -/
def ticked : List (IpAddr × ClientOp) → List (IpAddr × ClientOp × UInt64)
  | [] => []
  | (ip, op) :: h => (ip, op, UInt64.ofNat (h.length + 1)) :: ticked h

/-- What a call does to its client. -/
def stamp (a : ClientOp × UInt64) (s : ClientStats) : ClientStats :=
  a.1.record (s.touchActivity a.2)

/-- The table of a history. -/
def clientTable (cap : Nat) (h : List (IpAddr × ClientOp)) : List (IpAddr × ClientStats) :=
  Lru.table cap {} ((ticked h).map fun e => (e.1, stamp e.2))

theorem history_concat (calls : List ClientCall) (call : ClientCall) :
    history (calls ++ [call]) = (call.ip, call.op) :: history calls := by
  simp [history]

theorem length_history (calls : List ClientCall) : (history calls).length = calls.length := by
  simp [history]

theorem ticked_ops (h : List (IpAddr × ClientOp)) :
    (ticked h).map (fun e => (e.1, e.2.1)) = h := by
  induction h with
  | nil => rfl
  | cons e h ih => rw [ticked, List.map_cons, ih]

/-- A client that is tracked is updated in place. -/
theorem get?_record_self (reg : ObservabilityRegistry) (call : ClientCall) :
    (reg.record call).clients.get? call.ip =
      some (call.op.record (((reg.clients.get? call.ip).getD {}).touchActivity
        reg.activityClock)) := by
  rw [ObservabilityRegistry.record_eq, ObservabilityRegistry.withClient]
  cases reg.clients.get? call.ip with
  | some stats => simp only [AssocMap.get?_insert, BEq.rfl, if_true, Option.getD_some]
  | none => simp only [AssocMap.get?_insert, BEq.rfl, if_true, Option.getD_none]

/-- A call leaves another client as it is, or takes its place. -/
theorem get?_record_other (reg : ObservabilityRegistry) (call : ClientCall) {ip : IpAddr}
    (hne : ip ≠ call.ip) :
    (reg.record call).clients.get? ip = none ∨
      (reg.record call).clients.get? ip = reg.clients.get? ip := by
  have hbeq : (call.ip == ip) = false := by simpa using Ne.symm hne
  rw [ObservabilityRegistry.record_eq, ObservabilityRegistry.withClient]
  cases reg.clients.get? call.ip with
  | some stats =>
      simp only [AssocMap.get?_insert, hbeq, Bool.false_eq_true, if_false, or_true]
  | none =>
      simp only [AssocMap.get?_insert, hbeq, Bool.false_eq_true, if_false]
      split
      · cases ObservabilityRegistry.oldest reg.clients with
        | none => exact .inr rfl
        | some old =>
            simp only [AssocMap.get?_erase]
            split
            · exact .inl rfl
            · exact .inr rfl
      · exact .inr rfl

/-- `with_client` touches the ticked map. -/
theorem clients_withClient (reg : ObservabilityRegistry) (ip : IpAddr)
    (f : ClientStats → ClientStats) :
    (reg.withClient ip f).clients =
      Lru.tickTouch (fun s => s.lastActivity.toNat) reg.clientCapacity {} ip
        (fun s => f (s.touchActivity reg.activityClock)) reg.clients := by
  have hold : Lru.oldest (fun s => s.lastActivity.toNat) reg.clients =
      ObservabilityRegistry.oldest reg.clients := rfl
  unfold ObservabilityRegistry.withClient Lru.tickTouch Lru.makeRoom
  rw [hold]
  cases reg.clients.get? ip with
  | some stats => rfl
  | none => cases ObservabilityRegistry.oldest reg.clients <;> rfl

/-- The registry is the table of the calls made so far. -/
structure HoldsTable (cap : Nat) (h : List (IpAddr × ClientOp)) (reg : ObservabilityRegistry) :
    Prop where
  capacity : reg.clientCapacity = cap
  clock : reg.activityClock = UInt64.ofNat (h.length + 1)
  table : reg.clients.entries = clientTable cap h
  ordered : Lru.Ordered (fun s : ClientStats => s.lastActivity.toNat) (h.length + 1)
    reg.clients.entries

theorem withClient_capacity (reg : ObservabilityRegistry) (ip : IpAddr)
    (f : ClientStats → ClientStats) :
    (reg.withClient ip f).clientCapacity = reg.clientCapacity := by
  unfold ObservabilityRegistry.withClient
  cases reg.clients.get? ip <;> rfl

theorem withClient_clock (reg : ObservabilityRegistry) (ip : IpAddr)
    (f : ClientStats → ClientStats) :
    (reg.withClient ip f).activityClock = reg.activityClock + 1 := by
  unfold ObservabilityRegistry.withClient
  cases reg.clients.get? ip <;> rfl

theorem HoldsTable.record {cap : Nat} {h : List (IpAddr × ClientOp)} {reg : ObservabilityRegistry}
    (hreg : HoldsTable cap h reg) (hcap : 0 < cap) (hlen : h.length + 1 < 2 ^ 64)
    (call : ClientCall) : HoldsTable cap ((call.ip, call.op) :: h) (reg.record call) := by
  have hsize : reg.clients.size ≤ cap := by
    show reg.clients.entries.length ≤ cap
    rw [hreg.table]
    exact Lru.length_table_le _ _ _
  have hentries : (reg.record call).clients.entries =
      Lru.touch cap {} call.ip (stamp (call.op, UInt64.ofNat (h.length + 1)))
        reg.clients.entries := by
    rw [ObservabilityRegistry.record_eq, clients_withClient, hreg.capacity, hreg.clock]
    exact Lru.entries_tickTouch hcap hsize hreg.ordered {} call.ip _
  refine ⟨?_, ?_, ?_, ?_⟩
  · rw [ObservabilityRegistry.record_eq, withClient_capacity, hreg.capacity]
  · rw [ObservabilityRegistry.record_eq, withClient_clock, hreg.clock, List.length_cons]
    exact (UInt64.ofNat_add _ _).symm
  · rw [hentries, hreg.table]
    rfl
  · rw [hentries, List.length_cons]
    refine hreg.ordered.touch cap {} call.ip fun s => ?_
    rw [stamp, ClientOp.lastActivity_record]
    exact UInt64.toNat_ofNat_of_lt' hlen

/-- **The run lemma.** -/
theorem holdsTable_recordAll (names : List Str) {cap : Nat} (hcap : 0 < cap)
    (calls : List ClientCall) (hlen : calls.length < 2 ^ 64) :
    HoldsTable cap (history calls)
      ((ObservabilityRegistry.withUpstreamsAndCapacity names cap).recordAll calls) := by
  induction calls using List.reverseRecOn with
  | nil => exact ⟨rfl, rfl, rfl, Lru.ordered_nil _ _⟩
  | append_singleton calls call ih =>
      rw [List.length_append, List.length_singleton] at hlen
      rw [history_concat, ObservabilityRegistry.recordAll_concat]
      exact (ih (by omega)).record hcap (by rw [length_history]; exact hlen) call

/-- The counters of a session count its calls, as far as 64 bits go. -/
theorem counter_valueOf (l : List (ClientOp × UInt64)) (c : ClientCounter) :
    (Lru.valueOf ({} : ClientStats) (l.map stamp)).counter c =
      UInt64.ofNat ((l.map Prod.fst).count (.count c)) := by
  induction l with
  | nil => cases c <;> rfl
  | cons a l ih =>
      have hstamp : (Lru.valueOf ({} : ClientStats) ((a :: l).map stamp)).counter c =
          (Lru.valueOf ({} : ClientStats) (l.map stamp)).counter c +
            if a.1 = .count c then 1 else 0 := by
        rw [List.map_cons]
        show (stamp a _).counter c = _
        rw [stamp, ClientOp.counter_record]
        cases c <;> rfl
      rw [hstamp, ih, List.map_cons, List.count_cons, UInt64.ofNat_add]
      by_cases ha : a.1 = .count c
      · rw [if_pos ha, if_pos (by simpa using ha)]
        rfl
      · rw [if_neg ha, if_neg (by simpa using ha)]
        rfl

theorem ticked_keys (h : List (IpAddr × ClientOp)) :
    ((ticked h).map fun e => (e.1, stamp e.2)).map Prod.fst = h.map Prod.fst := by
  conv_rhs => rw [← ticked_ops h]
  rw [List.map_map, List.map_map]
  rfl

section
variable {cap : Nat} {h : List (IpAddr × ClientOp)} {reg : ObservabilityRegistry}

/-- What the registry says of an address. -/
theorem HoldsTable.get? (hreg : HoldsTable cap h reg) (hcap : 0 < cap) (ip : IpAddr) :
    reg.clients.get? ip =
      if ip ∈ Lru.held cap (h.map Prod.fst)
      then some (Lru.valueOf {} ((Lru.session cap ip (ticked h)).map stamp)) else none := by
  show Lru.find? ip reg.clients.entries = _
  rw [hreg.table, clientTable, Lru.table_eq hcap, Lru.find?_map, ticked_keys,
    Lru.session_map]

theorem HoldsTable.size (hreg : HoldsTable cap h reg) (hcap : 0 < cap) :
    reg.clients.size = min cap (Lru.recents (h.map Prod.fst)).length := by
  show reg.clients.entries.length = _
  rw [hreg.table, clientTable, Lru.table_eq hcap, ticked_keys, List.length_map, Lru.held,
    List.length_take]

theorem HoldsTable.counter (hreg : HoldsTable cap h reg) (hcap : 0 < cap) {ip : IpAddr}
    {stats : ClientStats} (hget : reg.clients.get? ip = some stats) (c : ClientCounter) :
    stats.counter c = UInt64.ofNat ((Lru.session cap ip h).count (.count c)) := by
  rw [hreg.get? hcap] at hget
  split at hget
  · cases hget
    rw [counter_valueOf, ← Lru.session_map, ticked_ops]
  · cases hget

theorem HoldsTable.isSome_iff (hreg : HoldsTable cap h reg) (hcap : 0 < cap) (ip : IpAddr) :
    (reg.clients.get? ip).isSome = true ↔ ip ∈ Lru.held cap (h.map Prod.fst) := by
  rw [hreg.get? hcap]
  split
  · rename_i hin
    exact iff_of_true rfl hin
  · rename_i hout
    exact iff_of_false (by simp) hout

end

/-! ## Most recently active -/

/-- The addresses of the calls, newest first. -/
def addresses (calls : List ClientCall) : List IpAddr := (history calls).map Prod.fst

/-- The registry tracks the addresses most recently active, and its counters
are those of their calls since they were last taken in. -/
structure TracksRecent (cap : Nat) (calls : List ClientCall) (reg : ObservabilityRegistry) :
    Prop where
  tracked : ∀ ip, (reg.clients.get? ip).isSome = true ↔ ip ∈ Lru.held cap (addresses calls)
  size : reg.clients.size = min cap (Lru.recents (addresses calls)).length
  counters : ∀ ip stats, reg.clients.get? ip = some stats →
    ∀ c, (stats.counter c).toNat = (Lru.session cap ip (history calls)).count (.count c)

/-- One call: the caller is tracked, a client that is evicted is the least
recently active one of a full table, and every other is as it was. -/
structure EvictsOldest (cap : Nat) (pre : List ClientCall) (call : ClientCall)
    (before after : ObservabilityRegistry) : Prop where
  caller : (after.clients.get? call.ip).isSome = true
  evicted : ∀ ip, (before.clients.get? ip).isSome = true → after.clients.get? ip = none →
    (Lru.held cap (addresses pre)).getLast? = some ip ∧ before.clients.get? call.ip = none ∧
      before.clients.size = cap
  others : ∀ ip, ip ≠ call.ip → after.clients.get? ip = none ∨
    after.clients.get? ip = before.clients.get? ip

/-- **The client table.** For every capacity from one on and every sequence
of fewer than 2^64 calls: the clients tracked are the ones most recently
active, as many as fit; their counters are the calls made for them since
they were last taken in; and the last call has taken its client in, evicted
at most the least recently active one, and touched no other. -/
theorem clients_track_recent (names : List Str) (cap : Nat) (calls : List ClientCall)
    (hcap : 1 ≤ cap) (hlen : calls.length < 2 ^ 64) :
    let run (calls : List ClientCall) :=
      (ObservabilityRegistry.withUpstreamsAndCapacity names cap).recordAll calls
    TracksRecent cap calls (run calls) ∧
      ∀ pre call, calls = pre ++ [call] → EvictsOldest cap pre call (run pre) (run calls) := by
  intro run
  -- the table is the recent part of the history, newest first
  have hreg : HoldsTable cap (history calls) (run calls) :=
    holdsTable_recordAll names hcap calls hlen
  constructor
  · refine ⟨hreg.isSome_iff hcap, hreg.size hcap, ?_⟩
    intro ip stats hget c
    have hcount : (Lru.session cap ip (history calls)).count (.count c) < 2 ^ 64 := by
      refine Nat.lt_of_le_of_lt (List.count_le_length.trans (Lru.length_session_le _ _ _)) ?_
      rw [length_history]
      exact hlen
    rw [hreg.counter hcap hget]
    exact UInt64.toNat_ofNat_of_lt' hcount
  · rintro pre call rfl
    rw [List.length_append, List.length_singleton] at hlen
    -- before the last call, and the one step it adds
    have hbefore : HoldsTable cap (history pre) (run pre) :=
      holdsTable_recordAll names hcap pre (by omega)
    have hstep : run (pre ++ [call]) = (run pre).record call :=
      ObservabilityRegistry.recordAll_concat _ _ _
    rw [history_concat] at hreg
    refine ⟨?_, ?_, ?_⟩
    · rw [hreg.isSome_iff hcap]
      exact Lru.mem_held_cons hcap _ _
    · intro ip hin hout
      have hin' := (hbefore.isSome_iff hcap ip).mp hin
      have hout' : ip ∉ Lru.held cap (((call.ip, call.op) :: history pre).map Prod.fst) := by
        rw [← hreg.isSome_iff hcap, hout]
        simp
      obtain ⟨hlast, hnew, hfull⟩ := Lru.getLast?_held hcap hin' hout'
      refine ⟨hlast, ?_, ?_⟩
      · rw [hbefore.get? hcap, if_neg hnew]
      · rw [hbefore.size hcap, ← List.length_take]
        exact hfull
    · intro ip hne
      rw [hstep]
      exact get?_record_other (run pre) call hne

/-- Capacity two and three clients: the first makes room for the third. -/
theorem clients_track_recent_three :
    let calls : List ClientCall :=
      [⟨.v4 0xC0A80101, .count .query⟩, ⟨.v4 0xC0A80102, .count .query⟩,
        ⟨.v4 0xC0A80103, .count .query⟩]
    let reg := (ObservabilityRegistry.withUpstreamsAndCapacity [] 2).recordAll calls
    reg.clients.get? (.v4 0xC0A80101) = none ∧ TracksRecent 2 calls reg := by
  intro calls reg
  exact ⟨by decide +kernel, (clients_track_recent [] 2 calls (by decide) (by decide)).1⟩

/-- The same query over and over, and what 64 bits make of their number. -/
theorem totalQueries_replicate (names : List Str) (cap : Nat) (ip : IpAddr) (n : Nat) :
    ∃ stats, ((ObservabilityRegistry.withUpstreamsAndCapacity names cap).recordAll
        (List.replicate (n + 1) ⟨ip, .count .query⟩)).clients.get? ip = some stats ∧
      stats.totalQueries = UInt64.ofNat (n + 1) := by
  induction n with
  | zero =>
      rw [List.replicate_succ', ObservabilityRegistry.recordAll_concat]
      exact ⟨_, get?_record_self _ _, rfl⟩
  | succ n ih =>
      obtain ⟨stats, hget, hcount⟩ := ih
      rw [List.replicate_succ', ObservabilityRegistry.recordAll_concat]
      refine ⟨_, get?_record_self _ _, ?_⟩
      rw [hget]
      show stats.totalQueries + 1 = _
      rw [hcount, UInt64.ofNat_add (n + 1) 1]
      rfl

/-- One client that makes 2^64 queries is back at zero. -/
theorem clients_counter_wraps :
    let calls : List ClientCall := List.replicate (2 ^ 64) ⟨.v4 0xC0A80101, .count .query⟩
    ¬ TracksRecent 1 calls
      ((ObservabilityRegistry.withUpstreamsAndCapacity [] 1).recordAll calls) := by
  intro calls h
  obtain ⟨stats, hget, hcount⟩ :=
    totalQueries_replicate [] 1 (.v4 0xC0A80101) (2 ^ 64 - 1)
  have hcounter := h.counters _ stats hget .query
  have hhistory : history calls = List.replicate (2 ^ 64) (.v4 0xC0A80101, .count .query) := by
    rw [history, List.reverse_replicate, List.map_replicate]
  rw [hhistory, Lru.session_replicate (by decide), List.count_replicate_self] at hcounter
  have hzero : stats.counter .query = 0 := by
    show stats.totalQueries = 0
    rw [hcount]
    decide
  rw [hzero] at hcounter
  exact absurd hcounter (by decide)

end Dotdns
