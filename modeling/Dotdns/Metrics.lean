import Mathlib.Algebra.Ring.Nat
import Mathlib.Data.List.Basic

/-!
# Metrics — the shared counters

`MetricsRecorder`: process-wide `AtomicU64` counters and gauges. Every
update is one relaxed `fetch_add`, `fetch_sub` or `store`, so the
arithmetic wraps at `2^64` as the atomics do.
-/

namespace Dotdns

/-- `MetricsRecorder`: fifteen counters and four gauges, in `u64`s. -/
structure Metrics where
  totalQueries : UInt64 := 0
  cacheHits : UInt64 := 0
  cacheMisses : UInt64 := 0
  blockedQueries : UInt64 := 0
  upstreamFailures : UInt64 := 0
  upstreamSuccesses : UInt64 := 0
  upstreamTimeouts : UInt64 := 0
  cacheEntries : UInt64 := 0
  cacheEvictions : UInt64 := 0
  acceptedConnections : UInt64 := 0
  activeConnections : UInt64 := 0
  tlsHandshakeSuccess : UInt64 := 0
  tlsHandshakeFailures : UInt64 := 0
  dnsReadFailures : UInt64 := 0
  dnsWriteFailures : UInt64 := 0
  pendingLeaders : UInt64 := 0
  pendingFollowers : UInt64 := 0
  pendingFollowerTimeouts : UInt64 := 0
  pendingFollowerSuccesses : UInt64 := 0
  deriving DecidableEq, Repr

namespace Metrics

def recordQuery (m : Metrics) : Metrics :=
  { m with totalQueries := m.totalQueries + 1 }

def recordCacheHit (m : Metrics) : Metrics :=
  { m with cacheHits := m.cacheHits + 1 }

def recordCacheMiss (m : Metrics) : Metrics :=
  { m with cacheMisses := m.cacheMisses + 1 }

def recordBlocked (m : Metrics) : Metrics :=
  { m with blockedQueries := m.blockedQueries + 1 }

def recordUpstreamFailure (m : Metrics) : Metrics :=
  { m with upstreamFailures := m.upstreamFailures + 1 }

def recordUpstreamSuccess (m : Metrics) : Metrics :=
  { m with upstreamSuccesses := m.upstreamSuccesses + 1 }

def recordUpstreamTimeout (m : Metrics) : Metrics :=
  { m with upstreamTimeouts := m.upstreamTimeouts + 1 }

def setCacheEntries (m : Metrics) (n : UInt64) : Metrics :=
  { m with cacheEntries := n }

def recordCacheEviction (m : Metrics) : Metrics :=
  { m with cacheEvictions := m.cacheEvictions + 1 }

/-- `record_accepted_connection`: the counter and the gauge. -/
def recordAcceptedConnection (m : Metrics) : Metrics :=
  { m with
    acceptedConnections := m.acceptedConnections + 1
    activeConnections := m.activeConnections + 1 }

/-- `record_active_connection_closed` from its guard on: `current` is what
it loaded before. -/
def recordActiveConnectionClosed (m : Metrics) (current : UInt64) : Metrics :=
  if current > 0 then { m with activeConnections := m.activeConnections - 1 } else m

def recordTlsHandshakeSuccess (m : Metrics) : Metrics :=
  { m with tlsHandshakeSuccess := m.tlsHandshakeSuccess + 1 }

def recordTlsHandshakeFailure (m : Metrics) : Metrics :=
  { m with tlsHandshakeFailures := m.tlsHandshakeFailures + 1 }

def recordDnsReadFailure (m : Metrics) : Metrics :=
  { m with dnsReadFailures := m.dnsReadFailures + 1 }

def recordDnsWriteFailure (m : Metrics) : Metrics :=
  { m with dnsWriteFailures := m.dnsWriteFailures + 1 }

def recordPendingLeaderStarted (m : Metrics) : Metrics :=
  { m with pendingLeaders := m.pendingLeaders + 1 }

def recordPendingLeaderCompleted (m : Metrics) : Metrics :=
  { m with pendingLeaders := m.pendingLeaders - 1 }

def recordPendingFollowerJoined (m : Metrics) : Metrics :=
  { m with pendingFollowers := m.pendingFollowers + 1 }

def recordPendingFollowerResolved (m : Metrics) : Metrics :=
  { m with
    pendingFollowers := m.pendingFollowers - 1
    pendingFollowerSuccesses := m.pendingFollowerSuccesses + 1 }

def recordPendingFollowerTimeout (m : Metrics) : Metrics :=
  { m with
    pendingFollowers := m.pendingFollowers - 1
    pendingFollowerTimeouts := m.pendingFollowerTimeouts + 1 }

/-! ## Gauges

A gauge is a `u64` moved by one at a time; it follows a count as long as
the count fits. -/

theorem gauge_add_one_iff {g : UInt64} {n : Nat} (h : g.toNat = n) :
    (g + 1).toNat = n + 1 ↔ n + 1 < 2 ^ 64 := by
  rw [UInt64.toNat_add, h]
  have hone : (1 : UInt64).toNat = 1 := rfl
  omega

theorem gauge_sub_one {g : UInt64} {n : Nat} (h : g.toNat = n + 1) : (g - 1).toNat = n := by
  have hle : (1 : UInt64) ≤ g := by
    rw [UInt64.le_iff_toNat_le, h]
    exact Nat.le_add_left 1 n
  rw [UInt64.toNat_sub_of_le _ _ hle, h]
  rfl

end Metrics

/-! ## Counters

A counter starts at whatever was saved and wraps at `2^64`. -/

/-- How far a counter has moved since it stood at `start`. -/
def increase (start now : UInt64) : Nat := (now - start).toNat

@[simp] theorem increase_self (x : UInt64) : increase x x = 0 := by
  simp [increase]

/-- Until it runs over, a counter gains what is added to it. -/
theorem increase_add {start now : UInt64} {n : Nat} (h : increase start now + n < 2 ^ 64) :
    increase start (now + UInt64.ofNat n) = increase start now + n := by
  have hmove : now + UInt64.ofNat n - start = now - start + UInt64.ofNat n := by
    rw [UInt64.sub_eq_add_neg, UInt64.sub_eq_add_neg, UInt64.add_assoc,
      UInt64.add_comm (UInt64.ofNat n), UInt64.add_assoc]
  rw [increase] at h
  have hn : (UInt64.ofNat n).toNat = n := UInt64.toNat_ofNat_of_lt' (by
    show n < 2 ^ 64
    omega)
  rw [increase, hmove, UInt64.toNat_add, hn, Nat.mod_eq_of_lt h, increase]

theorem increase_add_one {start now : UInt64} (h : increase start now + 1 < 2 ^ 64) :
    increase start (now + 1) = increase start now + 1 :=
  increase_add h

end Dotdns
