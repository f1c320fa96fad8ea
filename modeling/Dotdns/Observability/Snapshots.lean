import Dotdns.Metrics
import Dotdns.Observability

/-!
# Observability — snapshots

What the management protocol shows of the counters: `MetricsSnapshot`,
`UpstreamSnapshot` and `ClientSnapshot`. The maps are listed in their own
order, which carries no meaning.
-/

namespace Dotdns

open Lib

/-- The counters, and the seconds since the recorder was made. -/
structure MetricsSnapshot extends Metrics where
  uptimeSecs : UInt64
  deriving DecidableEq, Repr

/-- `snapshot`, the whole seconds of `start_time.elapsed()` given. -/
def Metrics.snapshot (m : Metrics) (uptimeSecs : UInt64) : MetricsSnapshot := { m with uptimeSecs }

/-- `UpstreamSnapshot`: a line of the list. -/
structure UpstreamSnapshot where
  name : Str
  successCount : UInt64
  failureCount : UInt64
  timeoutCount : UInt64
  lastSuccessLatencyMs : Option UInt64
  avgSuccessLatencyMs : Option UInt64
  deriving DecidableEq, Repr

/-- `UpstreamStats::snapshot`: no latency before the first success. -/
def UpstreamStats.snapshot (s : UpstreamStats) (name : Str) : UpstreamSnapshot where
  name
  successCount := s.successCount
  failureCount := s.failureCount
  timeoutCount := s.timeoutCount
  lastSuccessLatencyMs :=
    if s.lastSuccessLatencyMs = 0xFFFFFFFFFFFFFFFF then none else some s.lastSuccessLatencyMs
  avgSuccessLatencyMs :=
    if s.successCount > 0 then some (s.totalSuccessLatencyMs / s.successCount) else none

structure ClientSnapshot where
  ip : IpAddr
  totalQueries : UInt64
  blockedQueries : UInt64
  cacheHits : UInt64
  cacheMisses : UInt64
  activeConnections : UInt64
  deriving DecidableEq, Repr

def ClientStats.snapshot (s : ClientStats) (ip : IpAddr) : ClientSnapshot where
  ip
  totalQueries := s.totalQueries
  blockedQueries := s.blockedQueries
  cacheHits := s.cacheHits
  cacheMisses := s.cacheMisses
  activeConnections := s.activeConnections

namespace ObservabilityRegistry

/-- `upstream_snapshot`, in no order. -/
def upstreamSnapshot (reg : ObservabilityRegistry) : List UpstreamSnapshot :=
  reg.upstreams.entries.map fun e => e.2.snapshot e.1

/-- `client_snapshot`, in no order. -/
def clientSnapshot (reg : ObservabilityRegistry) : List ClientSnapshot :=
  reg.clients.entries.map fun e => e.2.snapshot e.1

end ObservabilityRegistry

end Dotdns
