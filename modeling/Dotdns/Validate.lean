import Dotdns.Lib.Except
import Dotdns.Config

/-!
# Config — validation

`Config::validate`: what a configuration file must satisfy before the
process starts. The checks are made in the source's order and the first
that fails is the error; `Config.validate_eq_ok` lists them as one
predicate, `Config.Valid`.

The client subnet section is kept as read (`Raw`): its two prefixes are
the ones that `mask_bits` later subtracts from the width of an address.
-/

namespace Dotdns

open Lib

/-- `ConfigError`, as far as `validate` builds it. -/
inductive ConfigError where
  | invalidValue (field message : Str)
  | noUpstreams
  | blocklistPathNotFound (path : Path)
  | allowlistPathNotFound (path : Path)
  | invalidBlocklistUrl (url : Str)
  | invalidAllowlistUrl (url : Str)
  | tlsIncomplete
  | managementNotLoopback (bind : SocketAddr)
  deriving DecidableEq, Repr

inductive UpstreamProtocol where
  | plain
  | tls
  | https
  deriving DecidableEq, Repr

structure UpstreamEntry where
  name : Str
  address : Str
  protocol : UpstreamProtocol := .plain
  timeout : Nat := Duration.fromSecs 5
  deriving DecidableEq, Repr

inductive ManagementTransport where
  | unix (path : Path)
  | tcp (bind : SocketAddr)
  deriving DecidableEq, Repr

namespace Raw

/-- `edns.client_subnet` as read. -/
structure ClientSubnetConfig where
  enabled : Bool := false
  ipv4Prefix : UInt8 := 24
  ipv6Prefix : UInt8 := 56
  excludePrivate : Bool := true
  deriving DecidableEq, Repr

/-- `EdnsConfig` as it is read. -/
structure EdnsConfig where
  enabled : Bool := true
  preserveClient : Bool := true
  clientSubnet : ClientSubnetConfig := {}
  deriving DecidableEq, Repr

end Raw

/-- `Config`, as far as `validate` and the start read it. -/
structure Config where
  serverBinds : List SocketAddr
  certPath : Option Path := none
  keyPath : Option Path := none
  upstreams : List UpstreamEntry := []
  bootstrapDns : List SocketAddr := []
  cache : CacheConfig := {}
  edns : Raw.EdnsConfig := {}
  blocklist : BlocklistConfig := {}
  management : ManagementTransport := .unix "/tmp/dotdns.sock".toList
  dohBinds : Option (List SocketAddr) := none
  deriving DecidableEq, Repr

/-- `IpAddr::is_loopback`. -/
def IpAddr.isLoopback : IpAddr → Bool
  | .v4 ip => ip >>> 24 == 127#32
  | .v6 ip => ip == 1#128

/-- `rsplit_once(':')`, the part before the last colon. -/
def beforeLastColon (s : Str) : Option Str :=
  if ':' ∈ s then some (s.rdropWhile (· != ':')).dropLast else none

/-- `host_from_address`. -/
def hostFromAddress (address : Str) : Str :=
  match address with
  | '[' :: rest => if ']' ∈ rest then rest.takeWhile (· != ']') else address
  | _ => (beforeLastColon address).getD address

namespace Config

/-- `upstreams[{i}].{name}` and the like. -/
def indexedField (list : String) (i : Nat) (rest : String) : Str :=
  list.toList ++ '[' :: (Nat.toDigits 10 i ++ ']' :: rest.toList)

/-- An `InvalidValue`. -/
def invalid (field message : String) : ConfigError := .invalidValue field.toList message.toList

section
variable (isIp : Str → Bool) (pathExists : Path → Bool)

/-- The body of the loop over the upstreams; `isIp` is whether the host
parses as an address. -/
def validateUpstream (i : Nat) (u : UpstreamEntry) : Except ConfigError Unit := do
  reject (decide (u.address = [])) (.invalidValue (indexedField "upstreams" i ".address")
    "upstream address must not be empty".toList)
  reject (decide (u.timeout = 0)) (.invalidValue (indexedField "upstreams" i ".timeout")
    "upstream timeout must be greater than zero".toList)
  reject (decide (u.protocol = .tls) && isIp (hostFromAddress u.address))
    (.invalidValue (indexedField "upstreams" i ".address")
      "DoT upstream needs a hostname, not an IP".toList)

/-- The check of a bootstrap server. -/
def validateBootstrap (i : Nat) (server : SocketAddr) : Except ConfigError Unit :=
  reject (decide (server.port = 0)) (.invalidValue (indexedField "bootstrap.dns" i "")
    "bootstrap DNS server port must be greater than zero".toList)

/-- The checks of the DoH section. -/
def validateDoh (certPath : Option Path) : Option (List SocketAddr) → Except ConfigError Unit
  | none => .ok ()
  | some binds => do
      reject binds.isEmpty (invalid "doh.binds" "at least one listen address is required")
      reject certPath.isNone (invalid "doh" "DoH requires TLS certificate")

/-- Management over TCP is for loopback only. -/
def validateManagement : ManagementTransport → Except ConfigError Unit
  | .unix _ => .ok ()
  | .tcp bind => reject (!bind.ip.isLoopback) (.managementNotLoopback bind)

/-- `url.starts_with("http://") || url.starts_with("https://")`. -/
def isHttpUrl (url : Str) : Bool :=
  "http://".toList.isPrefixOf url || "https://".toList.isPrefixOf url

/-- `Config::validate`: the first check that fails is the error. -/
def validate (c : Config) : Except ConfigError Unit := do
  reject c.upstreams.isEmpty .noUpstreams
  reject c.serverBinds.isEmpty
    (invalid "server.binds" "at least one listen address is required")
  rejectEach (validateUpstream isIp) 0 c.upstreams
  rejectEach validateBootstrap 0 c.bootstrapDns
  reject (c.certPath.isSome != c.keyPath.isSome) .tlsIncomplete
  validateDoh c.certPath c.dohBinds
  validateManagement c.management
  rejectEach (fun _ p => reject (!pathExists p) (.blocklistPathNotFound p)) 0 c.blocklist.paths
  rejectEach (fun _ p => reject (!pathExists p) (.allowlistPathNotFound p)) 0
    c.blocklist.allowlistPaths
  rejectEach (fun _ url => reject (!isHttpUrl url) (.invalidBlocklistUrl url)) 0 c.blocklist.urls
  rejectEach (fun _ url => reject (!isHttpUrl url) (.invalidAllowlistUrl url)) 0
    c.blocklist.allowlistUrls
  reject (c.blocklist.refreshInterval.any (· == 0))
    (invalid "blocklist.refresh_interval" "refresh interval must be greater than zero")
  reject (c.blocklist.downloadTimeout == 0)
    (invalid "blocklist.download_timeout" "download timeout must be greater than zero")
  reject (c.blocklist.blockedTtl == 0)
    (invalid "blocklist.blocked_ttl" "blocked TTL must be greater than zero")
  reject (decide (c.edns.clientSubnet.ipv4Prefix > 32))
    (invalid "edns.client_subnet.ipv4_prefix" "IPv4 ECS prefix must be between 0 and 32")
  reject (decide (c.edns.clientSubnet.ipv6Prefix > 128))
    (invalid "edns.client_subnet.ipv6_prefix" "IPv6 ECS prefix must be between 0 and 128")

/-- What one upstream entry must satisfy. -/
structure ValidUpstream (u : UpstreamEntry) : Prop where
  address : u.address ≠ []
  timeout : u.timeout ≠ 0
  host : u.protocol = .tls → isIp (hostFromAddress u.address) = false

/-- Everything `validate` checks. -/
structure Valid (c : Config) : Prop where
  upstreams : c.upstreams ≠ []
  serverBinds : c.serverBinds ≠ []
  upstream : ∀ u ∈ c.upstreams, ValidUpstream isIp u
  bootstrap : ∀ server ∈ c.bootstrapDns, server.port ≠ 0
  tls : c.certPath.isSome = c.keyPath.isSome
  doh : ∀ binds, c.dohBinds = some binds → binds ≠ [] ∧ c.certPath.isSome = true
  management : ∀ bind, c.management = .tcp bind → bind.ip.isLoopback = true
  paths : ∀ p ∈ c.blocklist.paths, pathExists p = true
  allowlistPaths : ∀ p ∈ c.blocklist.allowlistPaths, pathExists p = true
  urls : ∀ url ∈ c.blocklist.urls, isHttpUrl url = true
  allowlistUrls : ∀ url ∈ c.blocklist.allowlistUrls, isHttpUrl url = true
  refreshInterval : c.blocklist.refreshInterval ≠ some 0
  downloadTimeout : c.blocklist.downloadTimeout ≠ 0
  blockedTtl : c.blocklist.blockedTtl ≠ 0
  ipv4Prefix : c.edns.clientSubnet.ipv4Prefix.toNat ≤ 32
  ipv6Prefix : c.edns.clientSubnet.ipv6Prefix.toNat ≤ 128

end

section
variable {isIp : Str → Bool} {pathExists : Path → Bool}

theorem validateUpstream_eq_ok (i : Nat) (u : UpstreamEntry) :
    validateUpstream isIp i u = .ok () ↔ ValidUpstream isIp u := by
  simp only [validateUpstream, seq_eq_ok, reject_eq_ok, Bool.and_eq_false_imp,
    decide_eq_false_iff_not, decide_eq_true_eq]
  exact ⟨fun ⟨h1, h2, h3⟩ => ⟨h1, h2, h3⟩, fun h => ⟨h.address, h.timeout, h.host⟩⟩

theorem validateBootstrap_eq_ok (i : Nat) (server : SocketAddr) :
    validateBootstrap i server = .ok () ↔ server.port ≠ 0 := by
  simp [validateBootstrap, reject_eq_ok]

theorem validateDoh_eq_ok (certPath : Option Path) (doh : Option (List SocketAddr)) :
    validateDoh certPath doh = .ok () ↔
      ∀ binds, doh = some binds → binds ≠ [] ∧ certPath.isSome = true := by
  cases doh with
  | none => simp [validateDoh]
  | some binds => simp [validateDoh, seq_eq_ok, reject_eq_ok]

theorem validateManagement_eq_ok (t : ManagementTransport) :
    validateManagement t = .ok () ↔ ∀ bind, t = .tcp bind → bind.ip.isLoopback = true := by
  cases t with
  | unix path => simp [validateManagement]
  | tcp bind => simp [validateManagement, reject_eq_ok]

/-- A loop that rejects what fails a test. -/
theorem rejectEach_test {α : Type} {test : α → Bool} {err : α → ConfigError} (xs : List α) :
    rejectEach (fun _ x => reject (!test x) (err x)) 0 xs = .ok () ↔
      ∀ x ∈ xs, test x = true :=
  rejectEach_eq_ok (fun i x => by simp [reject_eq_ok]) 0 xs

/-- **What `validate` accepts.** -/
theorem validate_eq_ok {c : Config} :
    c.validate isIp pathExists = .ok () ↔ c.Valid isIp pathExists := by
  simp only [validate, seq_eq_ok, reject_eq_ok, rejectEach_test, validateDoh_eq_ok,
    validateManagement_eq_ok, rejectEach_eq_ok validateUpstream_eq_ok,
    rejectEach_eq_ok validateBootstrap_eq_ok]
  constructor
  · intro h
    obtain ⟨h1, h2, h3, h4, h5, h6, h7, h8, h9, h10, h11, h12, h13, h14, h15, h16⟩ := h
    refine ⟨?_, ?_, h3, h4, ?_, h6, h7, h8, h9, h10, h11, ?_, ?_, ?_, ?_, ?_⟩
    · simpa using h1
    · simpa using h2
    · simpa using h5
    · intro hzero
      simp [hzero] at h12
    · simpa using h13
    · simpa using h14
    · simpa [UInt8.lt_iff_toNat_lt] using h15
    · simpa [UInt8.lt_iff_toNat_lt] using h16
  · intro h
    refine ⟨?_, ?_, h.upstream, h.bootstrap, ?_, h.doh, h.management, h.paths,
      h.allowlistPaths, h.urls, h.allowlistUrls, ?_, ?_, ?_, ?_, ?_⟩
    · simpa using h.upstreams
    · simpa using h.serverBinds
    · simpa using h.tls
    · have hne := h.refreshInterval
      cases hr : c.blocklist.refreshInterval with
      | none => rfl
      | some interval =>
          rw [hr] at hne
          simpa using hne
    · simpa using h.downloadTimeout
    · simpa using h.blockedTtl
    · simpa [UInt8.lt_iff_toNat_lt] using h.ipv4Prefix
    · simpa [UInt8.lt_iff_toNat_lt] using h.ipv6Prefix

end

end Config

end Dotdns
