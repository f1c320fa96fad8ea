import Dotdns.Lib.AssocMap
import Dotdns.Dns

/-!
# Observability — per-client and per-upstream statistics

`ObservabilityRegistry`: counters per upstream name, for the names it was
built with, and counters per client address, bounded by a capacity. A
call for an address that is not tracked evicts the client with the
smallest `last_activity` once the map is full.
-/

namespace Dotdns

open Lib

/-- `UpstreamStats`. -/
structure UpstreamStats where
  successCount : UInt64 := 0
  failureCount : UInt64 := 0
  timeoutCount : UInt64 := 0
  totalSuccessLatencyMs : UInt64 := 0
  /-- `u64::MAX` before the first success. -/
  lastSuccessLatencyMs : UInt64 := 0xFFFFFFFFFFFFFFFF
  deriving DecidableEq, Repr

namespace UpstreamStats

def recordSuccess (latencyMs : UInt64) (s : UpstreamStats) : UpstreamStats :=
  { s with
    successCount := s.successCount + 1
    totalSuccessLatencyMs := s.totalSuccessLatencyMs + latencyMs
    lastSuccessLatencyMs := latencyMs }

def recordFailure (s : UpstreamStats) : UpstreamStats :=
  { s with failureCount := s.failureCount + 1 }

/-- `record_timeout`: a timeout is no failure here. -/
def recordTimeout (s : UpstreamStats) : UpstreamStats :=
  { s with timeoutCount := s.timeoutCount + 1 }

end UpstreamStats

/-- `ClientStats`; `lastActivity` is a reading of the registry's clock. -/
structure ClientStats where
  totalQueries : UInt64 := 0
  blockedQueries : UInt64 := 0
  cacheHits : UInt64 := 0
  cacheMisses : UInt64 := 0
  activeConnections : UInt64 := 0
  lastActivity : UInt64 := 0
  deriving DecidableEq, Repr

namespace ClientStats

def recordQuery (s : ClientStats) : ClientStats :=
  { s with totalQueries := s.totalQueries + 1 }

def recordBlocked (s : ClientStats) : ClientStats :=
  { s with blockedQueries := s.blockedQueries + 1 }

def recordCacheHit (s : ClientStats) : ClientStats :=
  { s with cacheHits := s.cacheHits + 1 }

def recordCacheMiss (s : ClientStats) : ClientStats :=
  { s with cacheMisses := s.cacheMisses + 1 }

def recordConnectionOpened (s : ClientStats) : ClientStats :=
  { s with activeConnections := s.activeConnections + 1 }

/-- A close without a matching open leaves the gauge at zero. -/
def recordConnectionClosed (s : ClientStats) : ClientStats :=
  if s.activeConnections > 0
  then { s with activeConnections := s.activeConnections - 1 }
  else s

/-- `touch_activity`. -/
def touchActivity (tick : UInt64) (s : ClientStats) : ClientStats :=
  { s with lastActivity := tick }

end ClientStats

/-- `ObservabilityRegistry`: clients by address, upstreams by name. -/
structure ObservabilityRegistry where
  clients : AssocMap IpAddr ClientStats := .empty
  clientCapacity : Nat := 10000
  activityClock : UInt64 := 1
  upstreams : AssocMap Str UpstreamStats := .empty

namespace ObservabilityRegistry

/-- `with_upstreams`: one entry for each name. -/
def withUpstreams (names : List Str) : ObservabilityRegistry :=
  { upstreams := names.foldl (fun map name => map.insert name {}) .empty }

/-- `with_upstreams_and_capacity`. -/
def withUpstreamsAndCapacity (names : List Str) (clientCapacity : Nat) : ObservabilityRegistry :=
  { upstreams := names.foldl (fun map name => map.insert name {}) .empty
    clientCapacity }

/-- The counters of an upstream that the registry knows. -/
def withUpstream (reg : ObservabilityRegistry) (name : Str)
    (f : UpstreamStats → UpstreamStats) : ObservabilityRegistry :=
  match reg.upstreams.get? name with
  | some stats => { reg with upstreams := reg.upstreams.insert name (f stats) }
  | none => reg

def recordUpstreamSuccess (reg : ObservabilityRegistry) (name : Str) (latencyMs : UInt64) :=
  reg.withUpstream name (UpstreamStats.recordSuccess latencyMs)

def recordUpstreamFailure (reg : ObservabilityRegistry) (name : Str) :=
  reg.withUpstream name UpstreamStats.recordFailure

def recordUpstreamTimeout (reg : ObservabilityRegistry) (name : Str) :=
  reg.withUpstream name UpstreamStats.recordTimeout

/-- The tracked client with the least `last_activity`. -/
def oldest (clients : AssocMap IpAddr ClientStats) : Option IpAddr :=
  (clients.entries.minOn? fun e => e.2.lastActivity.toNat).map Prod.fst

/-- `with_client`: find the client or make room and insert it, stamp the
next activity tick and apply `f`. -/
def withClient (reg : ObservabilityRegistry) (ip : IpAddr)
    (f : ClientStats → ClientStats) : ObservabilityRegistry :=
  let clock := reg.activityClock + 1
  match reg.clients.get? ip with
  | some stats =>
      { reg with
        clients := reg.clients.insert ip (f (stats.touchActivity reg.activityClock))
        activityClock := clock }
  | none =>
      let kept :=
        if reg.clients.size ≥ reg.clientCapacity ∧ reg.clients.size ≠ 0
        then match oldest reg.clients with
          | some old => reg.clients.erase old
          | none => reg.clients
        else reg.clients
      let stats : ClientStats := {}
      { reg with
        clients := kept.insert ip (f (stats.touchActivity reg.activityClock))
        activityClock := clock }

def recordClientQuery (reg : ObservabilityRegistry) (ip : IpAddr) :=
  reg.withClient ip ClientStats.recordQuery

def recordClientBlocked (reg : ObservabilityRegistry) (ip : IpAddr) :=
  reg.withClient ip ClientStats.recordBlocked

def recordClientCacheHit (reg : ObservabilityRegistry) (ip : IpAddr) :=
  reg.withClient ip ClientStats.recordCacheHit

def recordClientCacheMiss (reg : ObservabilityRegistry) (ip : IpAddr) :=
  reg.withClient ip ClientStats.recordCacheMiss

def recordClientConnectionOpened (reg : ObservabilityRegistry) (ip : IpAddr) :=
  reg.withClient ip ClientStats.recordConnectionOpened

def recordClientConnectionClosed (reg : ObservabilityRegistry) (ip : IpAddr) :=
  reg.withClient ip ClientStats.recordConnectionClosed

end ObservabilityRegistry

end Dotdns
