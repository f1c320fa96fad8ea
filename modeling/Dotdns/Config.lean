import Dotdns.Dns

/-!
# Config — the configuration the core reads

The parts of `config.rs` that the resolver, the cache and the blocklist
are built from. A duration or a clock reading is a number of
NANOSECONDS, as precise as the source's `Duration` and `Instant`.
-/

namespace Dotdns

open Lib

/-- `Duration::from_secs`. -/
def Duration.fromSecs (secs : Nat) : Nat := secs * 1000000000

/-- `Duration::as_secs`: the whole seconds. -/
def Duration.asSecs (d : Nat) : Nat := d / 1000000000

/-- `CacheConfig`; `validate` looks at none of it. -/
structure CacheConfig where
  capacity : Nat := 10000
  minTtl : Option Nat := none
  maxTtl : Option Nat := none
  deriving DecidableEq, Repr

/-- The two bounds are those `Config::validate` checks: a configuration in
force has them. -/
structure ClientSubnetConfig where
  enabled : Bool := false
  ipv4Prefix : UInt8 := 24
  ipv6Prefix : UInt8 := 56
  excludePrivate : Bool := true
  ipv4_le : ipv4Prefix.toNat ≤ 32 := by decide
  ipv6_le : ipv6Prefix.toNat ≤ 128 := by decide
  deriving DecidableEq, Repr

/-- `EdnsConfig`, its prefixes checked. -/
structure EdnsConfig where
  enabled : Bool := true
  preserveClient : Bool := true
  clientSubnet : ClientSubnetConfig := {}
  deriving DecidableEq, Repr

/-- How a blocked query is answered. -/
inductive BlocklistResponseMode where
  | nullIp
  | noData
  | nxDomain
  deriving DecidableEq, Repr

/-- A path, as the text the configuration gives. -/
abbrev Path := Str

/-- `BlocklistConfig` with its defaults. -/
structure BlocklistConfig where
  paths : List Path := []
  urls : List Str := []
  allowlistPaths : List Path := []
  allowlistUrls : List Str := []
  downloadDir : Path := "/var/lib/dotdns/blocklists".toList
  refreshInterval : Option Nat := none
  downloadTimeout : Nat := Duration.fromSecs 30
  enabled : Bool := true
  responseMode : BlocklistResponseMode := .nullIp
  blockedTtl : Nat := Duration.fromSecs 300
  deriving DecidableEq, Repr

end Dotdns
