import Dotdns.Lib.Except
import Dotdns.Upstream.Attempts
import Dotdns.Upstream.Bootstrap
import Dotdns.Upstream.Endpoints
import Dotdns.Upstream.Timeouts
import Dotdns.Validate

/-!
# Upstream — from the configuration to the pool

`pool_from_config` makes an upstream of each entry of the configuration,
one after another, and gives up at the first that it cannot make. A DoT or
DoH upstream is resolved once, here: the endpoints it gets are the ones all
its queries go to.

The URL type and the HTTP client are parameters, as is the system's
resolver; the bootstrap lookups are those of `query_bootstrap_dns`.
-/

namespace Dotdns

open Lib

/-- The libraries that an upstream is built with. -/
structure BuildLib (Url : Type) extends UpstreamCodec where
  nameFromStr : NameFromStr
  /-- `str::parse::<IpAddr>`. -/
  parseIp : Str → Option IpAddr
  urlParse : Str → Except Str Url
  urlScheme : Url → Str
  urlPath : Url → Str
  urlSetPath : Url → Str → Url
  urlText : Url → Str
  urlHostStr : Url → Option Str
  urlPort : Url → Option UInt16

/-- What the builder of an HTTP client is told. -/
structure HttpClientConfig where
  httpsOnly : Bool
  timeout : Nat
  /-- The host whose connections go to a fixed address. -/
  resolve : Str × SocketAddr
  deriving DecidableEq, Repr

/-- What the network and the system do while one entry is built. -/
structure BuildIo where
  bootstrap : Nat → RecordType → BootstrapIo
  lookupHost : Str → Except Str (List IpAddr)
  httpClient : HttpClientConfig → Except ReqwestError Unit := fun _ => .ok ()

/-- An entry with the setting that only the pool looks at. -/
structure ConfiguredUpstream extends UpstreamEntry where
  tlsCertPath : Option Path := none
  deriving DecidableEq, Repr

/-! ## Ports -/

/-- `rsplit_once(':')`, the part after the last colon. -/
def afterLastColon (s : Str) : Option Str :=
  if ':' ∈ s then some (s.rtakeWhile (· != ':')) else none

/-- `str::parse::<u16>`: a sign is allowed, an empty number is not. -/
def parseU16 (s : Str) : Option UInt16 :=
  let digits := if s.head? = some '+' then s.tail else s
  if digits ≠ [] ∧ digits.all Char.isDigit ∧ Nat.ofDigitChars 10 digits 0 < 65536 then
    some (UInt16.ofNat (Nat.ofDigitChars 10 digits 0))
  else none

/-- `port_from_address`; the source has the same code for an address in
brackets. -/
def portFromAddress (address : Str) : Option UInt16 := (afterLastColon address).bind parseU16

/-! ## Hosts -/

section
variable {Url : Type} (lib : BuildLib Url) (io : BuildIo) (bootstrapDns : List SocketAddr)

/-- The lookups of `resolve_host_with_bootstrap`. -/
def BuildIo.lookup (host : Str) :
    Nat → SocketAddr → RecordType → Except UpstreamError (List IpAddr) :=
  bootstrapLookup lib.toBytes lib.fromBytes lib.nameFromStr io.bootstrap host

/-- The system's resolver is asked only where no bootstrap server is
configured. -/
def resolveHost (host : Str) (port : UInt16) : Except UpstreamError (List SocketAddr) :=
  match lib.parseIp host with
  | some ip => .ok [⟨ip, port⟩]
  | none =>
      if bootstrapDns ≠ [] then
        resolveHostWithBootstrap (io.lookup lib host) lib.showAddr host bootstrapDns >>= fun ips =>
          .ok (ips.map fun ip => ⟨ip, port⟩)
      else
        (io.lookupHost host).mapError
            (fun e => .network ("failed to resolve host ".toList ++ host ++ ": ".toList ++ e)) >>=
          fun ips =>
            if ips = [] then
              .error (.network ("failed to resolve host ".toList ++ host ++
                ": no addresses returned".toList))
            else .ok (ips.map fun ip => ⟨ip, port⟩)

/-! ## DNS over TLS -/

/-- `DotUpstream::new`. -/
def DotUpstream.new (address : Str) (timeout : Nat) : Except UpstreamError DotUpstream := do
  let hostname := hostFromAddress address
  let port := (portFromAddress address).getD 853
  let endpoints ← resolveHost lib io bootstrapDns hostname port
  .ok { address, hostname, endpoints, timeout }

/-! ## DNS over HTTPS -/

/-- `Duration::MAX`. -/
def Duration.max : Nat := 2 ^ 64 * 1000000000 - 1

/-- `DohEndpoint`: one address, one client. -/
structure DohEndpoint where
  addr : SocketAddr
  client : HttpClientConfig
  deriving DecidableEq, Repr

/-- The client's settings: HTTPS only, pinned to one address. -/
def dohClient (host : Str) (addr : SocketAddr) (requestTimeout : Nat) : HttpClientConfig where
  httpsOnly := true
  timeout :=
    Nat.max (Nat.min (requestTimeout + Duration.fromSecs 5) Duration.max) (Duration.fromSecs 10)
  resolve := (host, addr)

/-- `build_doh_endpoint`. -/
def buildDohEndpoint (host : Str) (addr : SocketAddr) (requestTimeout : Nat) :
    Except UpstreamError DohEndpoint := do
  let client := dohClient host addr requestTimeout
  (io.httpClient client).mapError .fromReqwest
  .ok ⟨addr, client⟩

/-- The error for a URL that does not parse. -/
def invalidDohUrl (e : Str) : UpstreamError := .invalidResponse ("invalid DoH URL: ".toList ++ e)

/-- The URL of a DoH upstream: with a scheme, which is `https`, and with a
path. -/
def normalizeDohUrl (address : Str) : Except UpstreamError Str := do
  let raw := trim address
  let withScheme := if Config.isHttpUrl raw then raw else "https://".toList ++ raw
  let url ← (lib.urlParse withScheme).mapError invalidDohUrl
  reject (decide (lib.urlScheme url ≠ "https".toList))
    (.unsupportedFeature "DoH upstreams require https URLs".toList)
  if lib.urlPath url = [] ∨ lib.urlPath url = "/".toList then
    .ok (lib.urlText (lib.urlSetPath url "/dns-query".toList))
  else .ok (lib.urlText url)

/-- `DohUpstream::new`. -/
def DohUpstream.new (entry : UpstreamEntry) : Except UpstreamError DohUpstream := do
  let url ← normalizeDohUrl lib entry.address
  let urlParts ← (lib.urlParse url).mapError invalidDohUrl
  let host ← (lib.urlHostStr urlParts).elim
    (.error (.invalidResponse "DoH URL has no host".toList)) .ok
  let port := (lib.urlPort urlParts).getD 443
  let resolvedAddrs ← resolveHost lib io bootstrapDns host port
  let endpoints ←
    collectEach (fun _ addr => buildDohEndpoint io host addr entry.timeout) 0 resolvedAddrs
  .ok { url, timeout := entry.timeout, endpoints := endpoints.map DohEndpoint.addr }

/-! ## The pool -/

/-- `Upstream::from_entry`. -/
def Upstream.fromEntry (entry : ConfiguredUpstream) : Except UpstreamError Upstream := do
  reject entry.tlsCertPath.isSome
    (.unsupportedFeature "tls_cert_path is not supported".toList)
  match entry.protocol with
  | .plain => .ok (.plain (.new entry.address entry.timeout))
  | .tls => do
      let up ← DotUpstream.new lib io bootstrapDns entry.address entry.timeout
      .ok (.dot up)
  | .https => do
      let up ← DohUpstream.new lib io bootstrapDns entry.toUpstreamEntry
      .ok (.doh up)

end

/-- A pool with its upstreams: `UpstreamPool` has their names. -/
structure BuiltPool where
  upstreams : List (Upstream × Str)
  pool : UpstreamPool
  names_eq : pool.names = upstreams.map Prod.snd

section
variable {Url : Type} (lib : BuildLib Url) (io : Nat → BuildIo) (bootstrapDns : List SocketAddr)

/-- The loop of `pool_from_config`; `io k` is for entry `k`. -/
def upstreamsFromConfig (entries : List ConfiguredUpstream) :
    Except UpstreamError (List (Upstream × Str)) :=
  collectEach (fun k entry => Upstream.fromEntry lib (io k) bootstrapDns entry >>= fun up =>
    .ok (up, entry.name)) 0 entries

/-- `pool_from_config`. -/
def poolFromConfig (entries : List ConfiguredUpstream) (metrics : Option Metrics)
    (observability : Option ObservabilityRegistry) (policy : UpstreamSelectionPolicy) :
    Except UpstreamError BuiltPool := do
  let upstreams ← upstreamsFromConfig lib io bootstrapDns entries
  .ok
    { upstreams
      pool := .new (upstreams.map Prod.snd) policy metrics observability
      names_eq := rfl }

end

/-! ## What a host is resolved to -/

section
variable {Url : Type} (lib : BuildLib Url) (io : BuildIo) (bootstrapDns : List SocketAddr)

/-- The three ways to an address: the host is one, or the first bootstrap
server that has any gives them, or the system does. -/
inductive ResolvesTo (host : Str) : List IpAddr → Prop
  | literal {ip : IpAddr} : lib.parseIp host = some ip → ResolvesTo host [ip]
  | bootstrap {k : Nat} {ips : List IpAddr} : lib.parseIp host = none →
      FirstYield (io.lookup lib host) bootstrapDns k ips → ResolvesTo host (dedup ips)
  | system {ips : List IpAddr} : lib.parseIp host = none → bootstrapDns = [] →
      io.lookupHost host = .ok ips → ips ≠ [] → ResolvesTo host ips

/-- An upstream made of an entry. -/
inductive BuiltFrom (entry : ConfiguredUpstream) : Upstream → Prop
  | plain : entry.protocol = .plain → BuiltFrom entry (.plain (.new entry.address entry.timeout))
  | dot {ips : List IpAddr} : entry.protocol = .tls →
      ResolvesTo lib io bootstrapDns (hostFromAddress entry.address) ips →
      BuiltFrom entry (.dot
        { address := entry.address
          hostname := hostFromAddress entry.address
          endpoints := ips.map fun ip => ⟨ip, (portFromAddress entry.address).getD 853⟩
          timeout := entry.timeout })
  | doh {url host : Str} {parts : Url} {ips : List IpAddr} : entry.protocol = .https →
      normalizeDohUrl lib entry.address = .ok url → lib.urlParse url = .ok parts →
      lib.urlHostStr parts = some host → ResolvesTo lib io bootstrapDns host ips →
      (∀ ip ∈ ips, io.httpClient
        (dohClient host ⟨ip, (lib.urlPort parts).getD 443⟩ entry.timeout) = .ok ()) →
      BuiltFrom entry (.doh
        { url
          timeout := entry.timeout
          endpoints := ips.map fun ip => ⟨ip, (lib.urlPort parts).getD 443⟩ })

end

section
variable {Url : Type} {lib : BuildLib Url} {io : BuildIo} {bootstrapDns : List SocketAddr}
variable {host : Str} {port : UInt16} {ips : List IpAddr} {entry : ConfiguredUpstream}

theorem resolveHost_eq_ok {addrs : List SocketAddr} :
    resolveHost lib io bootstrapDns host port = .ok addrs ↔
      ∃ ips, ResolvesTo lib io bootstrapDns host ips ∧ addrs = ips.map fun ip => ⟨ip, port⟩ := by
  unfold resolveHost
  cases hhost : lib.parseIp host with
  | some ip =>
      constructor
      · intro h
        cases h
        exact ⟨[ip], .literal hhost, rfl⟩
      · rintro ⟨ips, hips, rfl⟩
        cases hips with
        | literal hip =>
            cases hhost.symm.trans hip
            rfl
        | bootstrap hnone _ => cases hhost.symm.trans hnone
        | system hnone _ _ _ => cases hhost.symm.trans hnone
  | none =>
      by_cases hdns : bootstrapDns = []
      · simp only [hdns, ne_eq, not_true_eq_false, if_false, bind_eq_ok, mapError_eq_ok]
        constructor
        · rintro ⟨ips, hips, h⟩
          by_cases hne : ips = []
          · rw [if_pos hne] at h
            cases h
          · rw [if_neg hne] at h
            exact ⟨ips, .system hhost rfl hips hne, (Except.ok.inj h).symm⟩
        · rintro ⟨ips, hips, rfl⟩
          cases hips with
          | literal hip => cases hhost.symm.trans hip
          | bootstrap _ hfirst =>
              obtain ⟨server, hserver, _⟩ := Option.map_eq_some_iff.mp hfirst.here
              cases hserver
          | system _ _ hlookup hne => exact ⟨ips, hlookup, if_neg hne⟩
      · simp only [ne_eq, hdns, not_false_eq_true, if_true, bind_eq_ok]
        rcases resolveHostWithBootstrap_cases (io.lookup lib host) lib.showAddr host bootstrapDns
          with ⟨k, ips, hfirst, hok⟩ | ⟨hnone, _, e, herr⟩
        · rw [hok]
          constructor
          · rintro ⟨ips', hips', h⟩
            cases hips'
            exact ⟨dedup ips, .bootstrap hhost hfirst, (Except.ok.inj h).symm⟩
          · rintro ⟨ips', hips', rfl⟩
            cases hips' with
            | literal hip => cases hhost.symm.trans hip
            | bootstrap _ hfirst' => exact ⟨_, rfl, by rw [hfirst.unique hfirst']⟩
            | system _ hempty _ _ => exact absurd hempty hdns
        · rw [herr]
          constructor
          · rintro ⟨ips', hips', _⟩
            cases hips'
          · rintro ⟨ips', hips', rfl⟩
            cases hips' with
            | literal hip => cases hhost.symm.trans hip
            | bootstrap _ hfirst => exact absurd hfirst (hnone _ _)
            | system _ hempty _ _ => exact absurd hempty hdns

theorem dotUpstream_new_eq_ok {address : Str} {timeout : Nat} {up : DotUpstream} :
    DotUpstream.new lib io bootstrapDns address timeout = .ok up ↔
      ∃ ips, ResolvesTo lib io bootstrapDns (hostFromAddress address) ips ∧
        up =
          { address
            hostname := hostFromAddress address
            endpoints := ips.map fun ip => ⟨ip, (portFromAddress address).getD 853⟩
            timeout } := by
  unfold DotUpstream.new
  rw [bind_eq_ok]
  constructor
  · rintro ⟨addrs, haddrs, h⟩
    cases h
    obtain ⟨ips, hips, rfl⟩ := resolveHost_eq_ok.mp haddrs
    exact ⟨ips, hips, rfl⟩
  · rintro ⟨ips, hips, rfl⟩
    exact ⟨_, resolveHost_eq_ok.mpr ⟨ips, hips, rfl⟩, rfl⟩

theorem buildDohEndpoint_eq_ok {addr : SocketAddr} {requestTimeout : Nat} {d : DohEndpoint} :
    buildDohEndpoint io host addr requestTimeout = .ok d ↔
      io.httpClient (dohClient host addr requestTimeout) = .ok () ∧
        d = ⟨addr, dohClient host addr requestTimeout⟩ := by
  unfold buildDohEndpoint
  rw [seq_eq_ok, mapError_eq_ok]
  exact ⟨fun ⟨h, heq⟩ => ⟨h, (Except.ok.inj heq).symm⟩, fun ⟨h, heq⟩ => ⟨h, by rw [heq]⟩⟩

/-- The client of every endpoint is built. -/
theorem buildDohEndpoints_eq_ok {addrs : List SocketAddr} {requestTimeout : Nat}
    {endpoints : List DohEndpoint} :
    collectEach (fun _ addr => buildDohEndpoint io host addr requestTimeout) 0 addrs =
        .ok endpoints ↔
      (∀ addr ∈ addrs, io.httpClient (dohClient host addr requestTimeout) = .ok ()) ∧
        endpoints = addrs.map fun addr => ⟨addr, dohClient host addr requestTimeout⟩ := by
  apply collectEach_eq_map
  intro _ addr d
  exact buildDohEndpoint_eq_ok

theorem dohUpstream_new_eq_ok {entry : UpstreamEntry} {up : DohUpstream} :
    DohUpstream.new lib io bootstrapDns entry = .ok up ↔
      ∃ url parts host ips, normalizeDohUrl lib entry.address = .ok url ∧
        lib.urlParse url = .ok parts ∧ lib.urlHostStr parts = some host ∧
        ResolvesTo lib io bootstrapDns host ips ∧
        (∀ ip ∈ ips, io.httpClient
          (dohClient host ⟨ip, (lib.urlPort parts).getD 443⟩ entry.timeout) = .ok ()) ∧
        up =
          { url
            timeout := entry.timeout
            endpoints := ips.map fun ip => ⟨ip, (lib.urlPort parts).getD 443⟩ } := by
  have hhost : ∀ {h : Option Str} {host : Str},
      h.elim (.error (.invalidResponse "DoH URL has no host".toList)) .ok =
        (.ok host : Except UpstreamError Str) ↔ h = some host := by
    intro h host
    cases h <;> simp
  unfold DohUpstream.new
  simp only [bind_eq_ok, mapError_eq_ok, hhost, resolveHost_eq_ok, buildDohEndpoints_eq_ok]
  constructor
  · rintro ⟨url, hurl, parts, hparts, host, hhost, _, ⟨ips, hips, rfl⟩, _, ⟨hclient, rfl⟩, h⟩
    refine ⟨url, parts, host, ips, hurl, hparts, hhost, hips, ?_, ?_⟩
    · intro ip hip
      exact hclient _ (List.mem_map_of_mem hip)
    · rw [← Except.ok.inj h, List.map_map]
      simp [Function.comp_def]
  · rintro ⟨url, parts, host, ips, hurl, hparts, hhost, hips, hclient, rfl⟩
    refine ⟨url, hurl, parts, hparts, host, hhost, _, ⟨ips, hips, rfl⟩, _, ⟨?_, rfl⟩, ?_⟩
    · intro addr haddr
      obtain ⟨ip, hip, rfl⟩ := List.mem_map.mp haddr
      exact hclient ip hip
    · simp [Function.comp_def]

/-- What an entry is made into. -/
theorem fromEntry_eq_ok {up : Upstream} :
    Upstream.fromEntry lib io bootstrapDns entry = .ok up ↔
      entry.tlsCertPath = none ∧ BuiltFrom lib io bootstrapDns entry up := by
  unfold Upstream.fromEntry
  rw [seq_eq_ok, reject_eq_ok, Option.isSome_eq_false_iff, Option.isNone_iff_eq_none]
  refine and_congr_right fun _ => ?_
  cases hp : entry.protocol with
  | plain =>
      constructor
      · intro h
        cases h
        exact .plain hp
      · intro h
        cases h with
        | plain _ => rfl
        | dot htls _ => cases hp.symm.trans htls
        | doh hhttps _ _ _ _ _ => cases hp.symm.trans hhttps
  | tls =>
      simp only [bind_eq_ok, dotUpstream_new_eq_ok]
      constructor
      · rintro ⟨_, ⟨ips, hips, rfl⟩, h⟩
        cases h
        exact .dot hp hips
      · intro h
        cases h with
        | plain hplain => cases hp.symm.trans hplain
        | dot _ hips => exact ⟨_, ⟨_, hips, rfl⟩, rfl⟩
        | doh hhttps _ _ _ _ _ => cases hp.symm.trans hhttps
  | https =>
      simp only [bind_eq_ok, dohUpstream_new_eq_ok]
      constructor
      · rintro ⟨_, ⟨url, parts, host, ips, hurl, hparts, hhost, hips, hclient, rfl⟩, h⟩
        cases h
        exact .doh hp hurl hparts hhost hips hclient
      · intro h
        cases h with
        | plain hplain => cases hp.symm.trans hplain
        | dot htls _ => cases hp.symm.trans htls
        | doh _ hurl hparts hhost hips hclient =>
            exact ⟨_, ⟨_, _, _, _, hurl, hparts, hhost, hips, hclient, rfl⟩, rfl⟩

end

/-! ## The whole pool -/

section
variable {Url : Type} {lib : BuildLib Url} {io : Nat → BuildIo} {bootstrapDns : List SocketAddr}
variable {entries : List ConfiguredUpstream} {upstreams : List (Upstream × Str)}

/-- One turn of the loop. -/
theorem entry_eq_ok {k : Nat} {entry : ConfiguredUpstream} {up : Upstream} {name : Str} :
    (Upstream.fromEntry lib (io k) bootstrapDns entry >>= fun up => .ok (up, entry.name)) =
        .ok (up, name) ↔
      entry.name = name ∧ entry.tlsCertPath = none ∧
        BuiltFrom lib (io k) bootstrapDns entry up := by
  rw [bind_eq_ok, ← fromEntry_eq_ok]
  constructor
  · rintro ⟨up', hup, h⟩
    cases h
    exact ⟨rfl, hup⟩
  · rintro ⟨rfl, hup⟩
    exact ⟨up, hup, rfl⟩

theorem upstreamsFromConfig_getElem?
    (h : upstreamsFromConfig lib io bootstrapDns entries = .ok upstreams) {k : Nat}
    {up : Upstream} {name : Str} (hk : upstreams[k]? = some (up, name)) :
    ∃ entry, entries[k]? = some entry ∧ entry.name = name ∧ entry.tlsCertPath = none ∧
      BuiltFrom lib (io k) bootstrapDns entry up := by
  obtain ⟨entry, hentry, hf⟩ := collectEach_getElem? h hk
  rw [Nat.zero_add] at hf
  exact ⟨entry, hentry, entry_eq_ok.mp hf⟩

theorem names_upstreamsFromConfig
    (h : upstreamsFromConfig lib io bootstrapDns entries = .ok upstreams) :
    upstreams.map Prod.snd = entries.map fun entry => entry.name := by
  refine map_collectEach ?_ h
  rintro k entry ⟨up, name⟩ hk
  exact (entry_eq_ok.mp hk).1.symm

theorem poolFromConfig_eq_ok {metrics : Option Metrics}
    {observability : Option ObservabilityRegistry} {policy : UpstreamSelectionPolicy}
    {built : BuiltPool} :
    poolFromConfig lib io bootstrapDns entries metrics observability policy = .ok built ↔
      upstreamsFromConfig lib io bootstrapDns entries = .ok built.upstreams ∧
        built.pool = .new (built.upstreams.map Prod.snd) policy metrics observability := by
  unfold poolFromConfig
  rw [bind_eq_ok]
  constructor
  · rintro ⟨upstreams, hups, h⟩
    cases h
    exact ⟨hups, rfl⟩
  · rintro ⟨hups, hpool⟩
    refine ⟨built.upstreams, hups, ?_⟩
    obtain ⟨upstreams, pool, names_eq⟩ := built
    dsimp only at hpool
    subst hpool
    rfl

end

def sampleName : Name := ⟨[labelOf "dns", labelOf "example"], true⟩

/-- What the bootstrap server answers. -/
def sampleAnswer : Message where
  id := bootstrapQueryId 7 0
  messageType := .response
  queries := [⟨sampleName, .A, .IN⟩]
  answers := [.fromRdata sampleName 60 (.a 0xC0000201)]

/-- A URL of `dns.example`, as its path. -/
def sampleBuildLib : BuildLib Str where
  toUpstreamCodec := { sampleCodec with fromBytes := fun _ => .ok sampleAnswer }
  nameFromStr := fun _ => .ok sampleName
  parseIp := fun _ => none
  urlParse url :=
    .ok (if url = "https://dns.example".toList then "/".toList else "/dns-query".toList)
  urlScheme _ := "https".toList
  urlPath path := path
  urlSetPath _ path := path
  urlText path := "https://dns.example".toList ++ path
  urlHostStr _ := some "dns.example".toList
  urlPort _ := some 443

/-- The bootstrap server answers, the system resolver does not. -/
def sampleBuildIo : BuildIo where
  bootstrap _ _ := { nanos := 7, inbox := [⟨1, .ok []⟩] }
  lookupHost _ := .error "unreachable".toList

/-- One upstream of each protocol. -/
def sampleEntries : List ConfiguredUpstream :=
  [{ name := "tls".toList, address := "dns.example:8853".toList, protocol := .tls },
   { name := "https".toList, address := "dns.example".toList, protocol := .https },
   { name := "plain".toList, address := "192.0.2.1:53".toList }]

/-- These upstreams and one bootstrap server. -/
def buildConfig : Config where
  serverBinds := [⟨.v4 0, 853⟩]
  upstreams := sampleEntries.map ConfiguredUpstream.toUpstreamEntry
  bootstrapDns := [⟨.v4 0x01010101, 53⟩]

theorem validate_buildConfig :
    buildConfig.validate (fun host => (sampleBuildLib.parseIp host).isSome) (fun _ => true) =
      .ok () := by
  decide +kernel

def sampleUpstreams : List (Upstream × Str) :=
  [(.dot ⟨"dns.example:8853".toList, "dns.example".toList, [⟨.v4 0xC0000201, 8853⟩],
      Duration.fromSecs 5⟩, "tls".toList),
   (.doh ⟨"https://dns.example/dns-query".toList, Duration.fromSecs 5, [⟨.v4 0xC0000201, 443⟩]⟩,
      "https".toList),
   (.plain (.new "192.0.2.1:53".toList (Duration.fromSecs 5)), "plain".toList)]

def samplePool (m : Option Metrics) (observability : Option ObservabilityRegistry) : BuiltPool where
  upstreams := sampleUpstreams
  pool := .new (sampleUpstreams.map Prod.snd) .sequential m observability
  names_eq := rfl

theorem build_samplePool (m : Option Metrics) (observability : Option ObservabilityRegistry) :
    poolFromConfig sampleBuildLib (fun _ => sampleBuildIo) buildConfig.bootstrapDns sampleEntries m
      observability .sequential = .ok (samplePool m observability) := by
  have hups : upstreamsFromConfig sampleBuildLib (fun _ => sampleBuildIo)
      buildConfig.bootstrapDns sampleEntries = .ok sampleUpstreams := by
    decide +kernel
  exact poolFromConfig_eq_ok.mpr ⟨hups, rfl⟩

/-- The attempt came to what the `query` of its upstream returns. -/
def BuiltPool.Answered (lib : UpstreamCodec) (built : BuiltPool) (a : MadeAttempt) : Prop :=
  ∃ up name io message, built.upstreams[a.upstream]? = some (up, name) ∧
    a.result = (up.query lib io message).1

/-- A call that has made the attempts `made` returns the error `e`. -/
structure PoolFailure (entries : List ConfiguredUpstream) (made : List MadeAttempt)
    (e : UpstreamError) : Prop where
  all : (made.map MadeAttempt.upstream).Perm (List.range entries.length)
  failed : ∀ a ∈ made, a.Failed
  last : made.getLast?.map MadeAttempt.result = some (.error e)
  kind : (∃ detail, e = .network detail) ∨ (∃ detail, e = .serialization detail) ∨ e = .timeout
  timeout : e = .timeout → ∃ entry ∈ entries, entry.protocol = .plain

/-- The pool of a fresh start. -/
theorem init_of_built {Url : Type} {lib : BuildLib Url} {io : Nat → BuildIo}
    {bootstrapDns : List SocketAddr} {entries : List ConfiguredUpstream} {m : Metrics}
    {policy : UpstreamSelectionPolicy} {built : BuiltPool}
    (h : poolFromConfig lib io bootstrapDns entries (some m)
      (some (.withUpstreams (entries.map fun entry => entry.name))) policy = .ok built) :
    (⟨built.pool, [], 0⟩ : PoolState) =
      .init (entries.map fun entry => entry.name) policy m := by
  obtain ⟨hups, hpool⟩ := poolFromConfig_eq_ok.mp h
  rw [hpool, names_upstreamsFromConfig hups]
  rfl

/-- A plain upstream is made of a plain entry. -/
theorem BuiltFrom.isPlain {Url : Type} {lib : BuildLib Url} {io : BuildIo}
    {bootstrapDns : List SocketAddr} {entry : ConfiguredUpstream} {up : Upstream}
    (h : BuiltFrom lib io bootstrapDns entry up) :
    up.isPlain = true ↔ entry.protocol = .plain := by
  cases h with
  | plain hp => simp [Upstream.isPlain, hp]
  | dot hp _ => simp [Upstream.isPlain, hp]
  | doh hp _ _ _ _ _ => simp [Upstream.isPlain, hp]

/-- **What a pool built from an accepted configuration fails with.** In
every run of any number of queries at once, each attempt of which comes to
what the upstream's own `query` returns: a query that returns an error has
asked every upstream once, all have failed, and its error is the last one's;
it is a network error, an encoding error, or a timeout, and a timeout only
where a plain upstream is configured. So `AllFailed` and the errors of the
start are never returned. -/
theorem accepted_pool_errors {Url : Type} (lib : BuildLib Url) (io : Nat → BuildIo)
    (c : Config) (pathExists : Path → Bool)
    (hvalid : c.validate (fun host => (lib.parseIp host).isSome) pathExists = .ok ())
    (entries : List ConfiguredUpstream)
    (hentries : entries.map ConfiguredUpstream.toUpstreamEntry = c.upstreams)
    (policy : UpstreamSelectionPolicy) (m : Metrics) (built : BuiltPool)
    (hbuilt : poolFromConfig lib io c.bootstrapDns entries (some m)
      (some (.withUpstreams (entries.map fun entry => entry.name))) policy = .ok built)
    (es : List PoolEvent) (s : PoolState)
    (hrun : run PoolState.step ⟨built.pool, [], 0⟩ es = some s)
    (hanswered : ∀ a ∈ trace PoolState.step PoolState.attempted ⟨built.pool, [], 0⟩ es,
      built.Answered lib.toUpstreamCodec a)
    (i : Nat) (e : UpstreamError) (hi : s.calls[i]? = some (.returned (.error e))) :
    PoolFailure entries
      (PoolState.attemptsOf i (trace PoolState.step PoolState.attempted ⟨built.pool, [], 0⟩ es))
      e := by
  have hups := (poolFromConfig_eq_ok.mp hbuilt).1
  have htried : (PoolCall.returned (.error e)).Tried entries.length (PoolState.attemptsOf i
      (trace PoolState.step PoolState.attempted ⟨built.pool, [], 0⟩ es)) := by
    rw [init_of_built hbuilt] at hrun ⊢
    have h := (PoolState.triedOk_of_run hrun).calls i _ hi
    rwa [List.length_map] at h
  obtain ⟨hperm, hfailed, hlast⟩ := htried
  generalize hmade : PoolState.attemptsOf i
    (trace PoolState.step PoolState.attempted ⟨built.pool, [], 0⟩ es) = made at *
  -- there is an upstream, so there is a last attempt
  have hpos : entries ≠ [] := by
    intro hnil
    apply (Config.validate_eq_ok.mp hvalid).upstreams
    rw [← hentries, hnil]
    rfl
  have hne : made ≠ [] := by
    intro hnil
    rw [hnil] at hperm
    have hlen := hperm.length_eq
    rw [List.length_range] at hlen
    exact hpos (List.length_eq_zero_iff.mp hlen.symm)
  have hget := List.getLast?_eq_getLast_of_ne_nil hne
  generalize made.getLast hne = last at hget
  have hres : last.result = .error e := by
    rw [hget] at hlast
    exact hlast
  have hmem : last ∈ made := List.mem_of_getLast? hget
  obtain ⟨up, name, uio, message, hup, hquery⟩ := hanswered last (by
    rw [← hmade] at hmem
    exact List.mem_of_mem_filter hmem)
  have hkind := Upstream.query_failsWith (hquery.symm.trans hres)
  obtain ⟨entry, hentry, _, _, hfrom⟩ := upstreamsFromConfig_getElem? hups hup
  refine ⟨hperm, hfailed, ?_, ?_, ?_⟩
  · rw [hget, Option.map_some, hres]
  · cases e with
    | network detail => exact .inl ⟨detail, rfl⟩
    | serialization detail => exact .inr (.inl ⟨detail, rfl⟩)
    | timeout => exact .inr (.inr rfl)
    | invalidResponse _ => exact hkind.elim
    | allFailed => exact hkind.elim
    | unsupportedFeature _ => exact hkind.elim
  · rintro rfl
    exact ⟨entry, List.mem_of_getElem? hentry, hfrom.isPlain.mp hkind⟩

/-- Nobody answers any of the three upstreams: the plain one, asked last,
times out. -/
theorem accepted_pool_errors_silent :
    let obs := some (ObservabilityRegistry.withUpstreams (sampleEntries.map fun e => e.name))
    let pool := samplePool (some {}) obs
    let attempt := fun (up : Upstream) =>
      PoolEvent.attempt 0 { result := (up.query sampleBuildLib.toUpstreamCodec silentIo {}).1 }
    let es := .call 0 :: sampleUpstreams.map fun up => attempt up.1
    ∃ s, run PoolState.step ⟨pool.pool, [], 0⟩ es = some s ∧
      PoolFailure sampleEntries
        (PoolState.attemptsOf 0 (trace PoolState.step PoolState.attempted ⟨pool.pool, [], 0⟩ es))
        .timeout := by
  intro obs pool attempt es
  have hmade : trace PoolState.step PoolState.attempted ⟨pool.pool, [], 0⟩ es =
      sampleUpstreams.zipIdx.map fun up =>
        ⟨0, up.2, (up.1.1.query sampleBuildLib.toUpstreamCodec silentIo {}).1⟩ := rfl
  refine ⟨_, rfl, accepted_pool_errors sampleBuildLib (fun _ => sampleBuildIo) buildConfig
    (fun _ => true) validate_buildConfig sampleEntries rfl .sequential {} pool
    (build_samplePool _ obs) es _ rfl ?_ 0 .timeout rfl⟩
  intro a ha
  rw [hmade] at ha
  obtain ⟨⟨⟨up, name⟩, k⟩, hk, rfl⟩ := List.mem_map.mp ha
  exact ⟨up, name, silentIo, {}, List.mem_zipIdx_iff_getElem?.mp hk, rfl⟩

end Dotdns
