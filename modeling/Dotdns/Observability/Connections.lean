import Dotdns.Lib.Run
import Dotdns.Metrics
import Dotdns.Observability.Clients

/-!
# Observability — connections

Connections that open and close beside the client table. The gauge of a
client lives in its entry: when the table drops the entry the count is
gone, while the connections it counted go on. The client comes back with
a gauge at zero, and a close that finds zero there leaves it.
-/

namespace Dotdns

open Lib

/-- A connection of a client. -/
structure Connection where
  ip : IpAddr
  isOpen : Bool
  deriving DecidableEq

/-- What happens to the connections and the registry. -/
inductive ConnectionEvent where
  /-- A connection is accepted. -/
  | opened (ip : IpAddr)
  /-- Connection `i` ends. -/
  | closed (i : Nat)
  /-- One of the other `record_client_*` calls. -/
  | recorded (ip : IpAddr) (c : ClientCounter)

/-- The registry and all connections there have been. -/
structure ConnectionState where
  registry : ObservabilityRegistry
  connections : List Connection

namespace ConnectionState

/-- Nobody is connected. -/
def init (names : List Str) (cap : Nat) : ConnectionState :=
  ⟨.withUpstreamsAndCapacity names cap, []⟩

/-- The open connections of an address. -/
def openCount (s : ConnectionState) (ip : IpAddr) : Nat :=
  s.connections.countP fun c => c.isOpen && c.ip == ip

/-- One event. -/
def step (s : ConnectionState) : ConnectionEvent → Option ConnectionState
  | .opened ip =>
      some ⟨s.registry.recordClientConnectionOpened ip, s.connections ++ [⟨ip, true⟩]⟩
  | .closed i =>
      match s.connections[i]? with
      | some ⟨ip, true⟩ =>
          some ⟨s.registry.recordClientConnectionClosed ip, s.connections.set i ⟨ip, false⟩⟩
      | _ => none
  | .recorded ip c => some ⟨s.registry.record ⟨ip, .count c⟩, s.connections⟩

/-- The gauge of every tracked client is the number of its open
connections. -/
def GaugesRight (s : ConnectionState) : Prop :=
  ∀ ip stats, s.registry.clients.get? ip = some stats →
    stats.activeConnections.toNat = s.openCount ip

/-- The address is tracked. -/
def tracks (s : ConnectionState) (ip : IpAddr) : Bool := (s.registry.clients.get? ip).isSome

/-- A call for an address that is not tracked finds no connection of it
open, its own aside; an opening leaves fewer than 2^64 open. -/
def keepsGauges (s : ConnectionState) : ConnectionEvent → Bool
  | .opened ip =>
      if s.tracks ip then decide (s.openCount ip + 1 < 2 ^ 64) else decide (s.openCount ip = 0)
  | .closed i =>
      match s.connections[i]? with
      | some ⟨ip, true⟩ => s.tracks ip || decide (s.openCount ip = 1)
      | _ => true
  | .recorded ip _ => s.tracks ip || decide (s.openCount ip = 0)

end ConnectionState

/-- What a call does to the gauge it finds. -/
def ClientOp.gauge (g : UInt64) : ClientOp → UInt64
  | .count _ => g
  | .connectionOpened => g + 1
  | .connectionClosed => if g > 0 then g - 1 else g

theorem ClientOp.activeConnections_record (op : ClientOp) (s : ClientStats) :
    (op.record s).activeConnections = op.gauge s.activeConnections := by
  cases op with
  | count c => cases c <;> rfl
  | connectionOpened => rfl
  | connectionClosed =>
      by_cases hpos : s.activeConnections > 0
      · simp only [record, ClientStats.recordConnectionClosed, gauge, hpos, if_true]
      · simp only [record, ClientStats.recordConnectionClosed, gauge, hpos, if_false]

namespace ConnectionState

/-! ## One call -/

section
variable {s s' : ConnectionState}

/-- The gauge a call for the address finds. -/
def gauge (s : ConnectionState) (ip : IpAddr) : UInt64 :=
  ((s.registry.clients.get? ip).getD {}).activeConnections

theorem gauge_of_not_tracked {ip : IpAddr} (h : s.tracks ip = false) : s.gauge ip = 0 := by
  rw [tracks, Option.isSome_eq_false_iff, Option.isNone_iff_eq_none] at h
  rw [gauge, h]
  rfl

theorem GaugesRight.gauge_of_tracked (hright : s.GaugesRight) {ip : IpAddr}
    (h : s.tracks ip = true) : (s.gauge ip).toNat = s.openCount ip := by
  obtain ⟨stats, hget⟩ := Option.isSome_iff_exists.mp h
  rw [gauge, hget]
  exact hright ip stats hget

/-- Only the caller's own gauge is in question. -/
theorem GaugesRight.record_iff (h : s.GaugesRight) {call : ClientCall}
    (hreg : s'.registry = s.registry.record call)
    (hcount : ∀ ip, ip ≠ call.ip → s'.openCount ip = s.openCount ip) :
    s'.GaugesRight ↔ (s'.gauge call.ip).toNat = s'.openCount call.ip := by
  have hself := get?_record_self s.registry call
  rw [← hreg] at hself
  constructor
  · intro h'
    rw [gauge, hself]
    exact h' _ _ hself
  · intro hcaller ip stats hget
    by_cases hip : ip = call.ip
    · subst hip
      rw [gauge, hget] at hcaller
      exact hcaller
    · rw [hcount ip hip]
      have hother := get?_record_other s.registry call hip
      rw [← hreg, hget] at hother
      rcases hother with hother | hother
      · cases hother
      · exact h ip stats hother.symm

theorem gauge_record {call : ClientCall} (hreg : s'.registry = s.registry.record call) :
    s'.gauge call.ip = call.op.gauge (s.gauge call.ip) := by
  rw [gauge, hreg, get?_record_self, Option.getD_some, ClientOp.activeConnections_record]
  rfl

theorem GaugesRight.opened_iff (h : s.GaugesRight) {ip : IpAddr}
    (hs : s.step (.opened ip) = some s') :
    s'.GaugesRight ↔ s.keepsGauges (.opened ip) = true := by
  have hreg : s'.registry = s.registry.record ⟨ip, .connectionOpened⟩ := by cases hs; rfl
  have hcount : ∀ ip', s'.openCount ip' = s.openCount ip' + if ip = ip' then 1 else 0 := by
    intro ip'
    cases hs
    rw [openCount, List.countP_append, openCount]
    by_cases hip : ip = ip' <;> simp [hip]
  rw [h.record_iff hreg fun ip' hne => by rw [hcount, if_neg (Ne.symm hne), Nat.add_zero],
    gauge_record hreg, hcount, if_pos rfl, keepsGauges]
  show (s.gauge ip + 1).toNat = s.openCount ip + 1 ↔ _
  cases ht : s.tracks ip with
  | true =>
      rw [Metrics.gauge_add_one_iff (h.gauge_of_tracked ht)]
      simp
  | false =>
      rw [gauge_of_not_tracked ht]
      show 1 = s.openCount ip + 1 ↔ _
      simp

theorem GaugesRight.recorded_iff (h : s.GaugesRight) {ip : IpAddr} {c : ClientCounter}
    (hs : s.step (.recorded ip c) = some s') :
    s'.GaugesRight ↔ s.keepsGauges (.recorded ip c) = true := by
  have hreg : s'.registry = s.registry.record ⟨ip, .count c⟩ := by cases hs; rfl
  have hcount : ∀ ip', s'.openCount ip' = s.openCount ip' := by
    intro ip'
    cases hs
    rfl
  rw [h.record_iff hreg fun ip' _ => hcount ip', gauge_record hreg, hcount, keepsGauges]
  show (s.gauge ip).toNat = s.openCount ip ↔ _
  cases ht : s.tracks ip with
  | true => exact iff_of_true (h.gauge_of_tracked ht) rfl
  | false =>
      rw [gauge_of_not_tracked ht]
      show 0 = s.openCount ip ↔ _
      simp
      omega

theorem GaugesRight.closed_iff (h : s.GaugesRight) {i : Nat} (hs : s.step (.closed i) = some s') :
    s'.GaugesRight ↔ s.keepsGauges (.closed i) = true := by
  obtain ⟨ip, hi, hs'⟩ : ∃ ip, s.connections[i]? = some ⟨ip, true⟩ ∧
      s' = ⟨s.registry.recordClientConnectionClosed ip, s.connections.set i ⟨ip, false⟩⟩ := by
    simp only [step] at hs
    split at hs
    · rename_i ip hi
      exact ⟨ip, hi, (Option.some.inj hs).symm⟩
    · cases hs
  have hreg : s'.registry = s.registry.record ⟨ip, .connectionClosed⟩ := by rw [hs']; rfl
  have hcount : ∀ ip', s'.openCount ip' + (if ip = ip' then 1 else 0) = s.openCount ip' := by
    intro ip'
    have hset := countP_set_add (fun c : Connection => c.isOpen && c.ip == ip') hi ⟨ip, false⟩
    rw [hs', openCount, openCount]
    by_cases hip : ip = ip' <;> simpa [hip] using hset
  have hown := hcount ip
  rw [if_pos rfl] at hown
  rw [h.record_iff hreg fun ip' hne => by
      have hother := hcount ip'
      rw [if_neg (Ne.symm hne)] at hother
      exact hother, gauge_record hreg, keepsGauges, hi]
  show ((if s.gauge ip > 0 then s.gauge ip - 1 else s.gauge ip) : UInt64).toNat =
    s'.openCount ip ↔ (s.tracks ip || decide (s.openCount ip = 1)) = true
  cases ht : s.tracks ip with
  | true =>
      have hgauge := h.gauge_of_tracked ht
      have hpos : s.gauge ip > 0 := by
        show (0 : UInt64) < s.gauge ip
        rw [UInt64.lt_iff_toNat_lt, hgauge, ← hown]
        exact Nat.succ_pos _
      rw [if_pos hpos]
      exact iff_of_true (Metrics.gauge_sub_one (hgauge.trans hown.symm)) rfl
  | false =>
      -- the close finds a gauge at zero
      rw [gauge_of_not_tracked ht, if_neg (by decide)]
      show 0 = s'.openCount ip ↔ _
      simp
      omega

/-- One event from right gauges. -/
theorem GaugesRight.step_iff (h : s.GaugesRight) {e : ConnectionEvent}
    (hs : s.step e = some s') : s'.GaugesRight ↔ s.keepsGauges e = true := by
  cases e with
  | opened ip => exact h.opened_iff hs
  | closed i => exact h.closed_iff hs
  | recorded ip c => exact h.recorded_iff hs

theorem gaugesRight_init (names : List Str) (cap : Nat) : (init names cap).GaugesRight := by
  intro ip stats hget
  cases hget

end

end ConnectionState

/-- **The connection gauges.** For every capacity and every run of
connections that open and close and of other calls: in every state on the
way the gauge of each tracked client is the number of its open connections,
exactly when each call for an address that is not tracked is made with no
other connection of that address open, and no opening is the 2^64th. -/
theorem connection_gauges_iff (names : List Str) (cap : Nat) (es : List ConnectionEvent) :
    (∀ s, Passes ConnectionState.step (.init names cap) es s → s.GaugesRight) ↔
      ∀ s e s', Takes ConnectionState.step (.init names cap) es s e s' →
        s.keepsGauges e = true := by
  exact passes_iff_takes (ConnectionState.gaugesRight_init names cap)
    fun s e s' hi hs => hi.step_iff hs

/-- Capacity one: a client opens a connection, another makes a query and
takes its place, and the first comes back with a gauge at zero. -/
theorem connection_gauge_lost :
    let es : List ConnectionEvent :=
      [.opened (.v4 0xC0A80101), .recorded (.v4 0xC0A80102) .query,
        .recorded (.v4 0xC0A80101) .query]
    ∃ s stats, run ConnectionState.step (.init [] 1) es = some s ∧
      s.registry.clients.get? (.v4 0xC0A80101) = some stats ∧
      stats.activeConnections = 0 ∧ s.openCount (.v4 0xC0A80101) = 1 := by
  intro es
  exact ⟨_, _, rfl, rfl, by decide +kernel, by decide +kernel⟩

end Dotdns
