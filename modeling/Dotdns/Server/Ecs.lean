import Dotdns.Validate
import Dotdns.Cache.Basic
import Dotdns.Server.Pending
import Dotdns.Server.Response

/-!
# Server — what the client subnet gives away

`query_with_ecs` on the configuration as it was read, in the source's
machine arithmetic: the `u8` subtraction of a prefix from the width of an
address may underflow and the shift by the difference may reach the
width, both of which abort (`none`). For a configuration that
`Config::validate` accepts neither happens, and the result is
`queryWithEcs`.

The headline compares two clients: their queries for the upstream are
told apart exactly by the prefix of the address that the configuration
releases.
-/

namespace Dotdns

open Lib

namespace Raw

/-- `mask_bits` with its two ways to abort. -/
def maskBits {w : Nat} (value : BitVec w) (keep : UInt8) : Option (BitVec w) :=
  if keep = 0 then some 0#w
  else if w < keep.toNat then none
  else if w ≤ w - keep.toNat then none
  else some (value &&& (BitVec.allOnes w <<< (w - keep.toNat)))

/-- `mask_ip`. -/
def maskIp (ip : IpAddr) (keep : UInt8) : Option IpAddr :=
  match ip with
  | .v4 a => (maskBits a keep).map .v4
  | .v6 a => (maskBits a keep).map .v6

/-- The configured prefix of an address family. -/
def ClientSubnetConfig.prefixFor (c : ClientSubnetConfig) : IpAddr → UInt8
  | .v4 _ => c.ipv4Prefix
  | .v6 _ => c.ipv6Prefix

/-- The client is one whose subnet is not sent. -/
def ClientSubnetConfig.excludes (c : ClientSubnetConfig) (ip : IpAddr) : Bool :=
  c.excludePrivate && !isPublicClientIp ip

/-- `client_subnet`; the outer `none` is an abort. -/
def clientSubnet (ip : IpAddr) (config : EdnsConfig) : Option (Option ClientSubnet) :=
  if config.clientSubnet.excludes ip then some none
  else
    let keep := config.clientSubnet.prefixFor ip
    (maskIp ip keep).map fun masked => some ⟨masked, keep, 0⟩

/-- `query_with_ecs`; `none` is an abort. -/
def queryWithEcs (query : Message) (clientIp : Option IpAddr) (config : EdnsConfig) :
    Option Message :=
  if !config.enabled || !config.clientSubnet.enabled then some query
  else if config.preserveClient && queryHasEcs query then some query
  else match clientIp with
    | none => some query
    | some ip =>
        (clientSubnet ip config).map fun
          | none => query
          | some subnet =>
              { query with edns := some ((query.edns.getD {}).insertOption (.subnet subnet)) }

/-- The configuration in force. -/
def EdnsConfig.checked (config : EdnsConfig)
    (h4 : config.clientSubnet.ipv4Prefix.toNat ≤ 32)
    (h6 : config.clientSubnet.ipv6Prefix.toNat ≤ 128) : Dotdns.EdnsConfig :=
  { enabled := config.enabled
    preserveClient := config.preserveClient
    clientSubnet :=
      { enabled := config.clientSubnet.enabled
        ipv4Prefix := config.clientSubnet.ipv4Prefix
        ipv6Prefix := config.clientSubnet.ipv6Prefix
        excludePrivate := config.clientSubnet.excludePrivate
        ipv4_le := h4
        ipv6_le := h6 } }

/-- A prefix within the width: neither the subtraction nor the shift can go
wrong. -/
theorem maskBits_eq {w : Nat} (value : BitVec w) {keep : UInt8} (h : keep.toNat ≤ w) :
    maskBits value keep = some (Dotdns.maskBits value keep h) := by
  unfold maskBits Dotdns.maskBits
  by_cases h0 : keep = 0
  · rw [if_pos h0, if_pos h0]
  · have hpos : 0 < keep.toNat := by
      rcases Nat.eq_zero_or_pos keep.toNat with hz | hp
      · exact absurd (UInt8.toNat_inj.mp hz) h0
      · exact hp
    have h1 : ¬ w < keep.toNat := by omega
    have h2 : ¬ w ≤ w - keep.toNat := by omega
    rw [if_neg h0, if_neg h0, if_neg h1, if_neg h2]

theorem clientSubnet_eq (ip : IpAddr) (config : EdnsConfig)
    (h4 : config.clientSubnet.ipv4Prefix.toNat ≤ 32)
    (h6 : config.clientSubnet.ipv6Prefix.toNat ≤ 128) :
    clientSubnet ip config = some (Dotdns.clientSubnet ip (config.checked h4 h6)) := by
  unfold clientSubnet Dotdns.clientSubnet
  cases hex : config.clientSubnet.excludes ip with
  | true =>
      have hex' : ((config.checked h4 h6).clientSubnet.excludePrivate &&
        !isPublicClientIp ip) = true := hex
      rw [if_pos rfl, if_pos hex']
  | false =>
      have hex' : ((config.checked h4 h6).clientSubnet.excludePrivate &&
        !isPublicClientIp ip) = false := hex
      rw [if_neg Bool.false_ne_true, if_neg (by rw [hex']; exact Bool.false_ne_true)]
      cases ip with
      | v4 a => simp only [maskIp, ClientSubnetConfig.prefixFor, maskBits_eq a h4, Option.map_some,
          EdnsConfig.checked]
      | v6 a => simp only [maskIp, ClientSubnetConfig.prefixFor, maskBits_eq a h6, Option.map_some,
          EdnsConfig.checked]

/-- The model on the configuration in force is the code on the one read. -/
theorem queryWithEcs_eq (query : Message) (clientIp : Option IpAddr) (config : EdnsConfig)
    (h4 : config.clientSubnet.ipv4Prefix.toNat ≤ 32)
    (h6 : config.clientSubnet.ipv6Prefix.toNat ≤ 128) :
    queryWithEcs query clientIp config =
      some (Dotdns.queryWithEcs query clientIp (config.checked h4 h6)) := by
  have henabled : (config.checked h4 h6).enabled = config.enabled := rfl
  have hsubnet : (config.checked h4 h6).clientSubnet.enabled = config.clientSubnet.enabled := rfl
  have hkeep : (config.checked h4 h6).preserveClient = config.preserveClient := rfl
  unfold queryWithEcs Dotdns.queryWithEcs
  rw [henabled, hsubnet, hkeep]
  split
  · rfl
  split
  · rfl
  cases clientIp with
  | none => rfl
  | some ip =>
      dsimp only
      rw [clientSubnet_eq ip config h4 h6, Option.bind_some]
      cases Dotdns.clientSubnet ip (config.checked h4 h6) <;> rfl

end Raw

/-! ## Prefixes, bit by bit -/

/-- Bit `i` counts from the front, as a prefix does. -/
theorem getMsbD_maskBits {w : Nat} (a : BitVec w) (keep : UInt8) (h : keep.toNat ≤ w) (i : Nat) :
    (maskBits a keep h).getMsbD i = (decide (i < keep.toNat) && a.getMsbD i) := by
  unfold maskBits
  by_cases h0 : keep = 0
  · subst h0
    simp
  · rw [if_neg h0, BitVec.getMsbD_and, BitVec.getMsbD_shiftLeft, BitVec.getMsbD_allOnes,
      Bool.and_comm]
    congr 1
    rw [decide_eq_decide]
    omega

theorem maskBits_eq_iff {w : Nat} {a b : BitVec w} {keep : UInt8} (h : keep.toNat ≤ w) :
    maskBits a keep h = maskBits b keep h ↔
      ∀ i < keep.toNat, a.getMsbD i = b.getMsbD i := by
  constructor
  · intro heq i hi
    have hbit := congrArg (fun m => BitVec.getMsbD m i) heq
    simpa [getMsbD_maskBits, hi] using hbit
  · intro hagree
    refine BitVec.eq_of_getMsbD_eq fun i _ => ?_
    rw [getMsbD_maskBits, getMsbD_maskBits]
    by_cases hi : i < keep.toNat
    · rw [hagree i hi]
    · simp [hi]

theorem testBit_octet (v s : Nat) {k : Nat} (hk : k < 8) :
    (UInt8.ofNat (v >>> s)).toNat.testBit k = v.testBit (s + k) := by
  rw [UInt8.toNat_ofNat', Nat.testBit_mod_two_pow, Nat.testBit_shiftRight]
  simp [hk]

/-- The first `m` of `n` big-endian octets determine the first `8 * m`
bits. -/
theorem testBit_of_octets {n m v v' : Nat} (hm : m ≤ n)
    (h : ((List.range n).map fun j => UInt8.ofNat (v >>> (8 * (n - 1 - j)))).take m =
      ((List.range n).map fun j => UInt8.ofNat (v' >>> (8 * (n - 1 - j)))).take m)
    {i : Nat} (hi : i < 8 * m) : v.testBit (8 * n - 1 - i) = v'.testBit (8 * n - 1 - i) := by
  have hj : i / 8 < m := by omega
  have hjn : i / 8 < n := by omega
  have hoctet := congrArg (fun l => l[i / 8]?) h
  simp only [List.getElem?_take, hj, if_true, List.getElem?_map, List.getElem?_range hjn,
    Option.map_some, Option.some.injEq] at hoctet
  have hbit := congrArg (fun o : UInt8 => o.toNat.testBit (7 - i % 8)) hoctet
  simp only [testBit_octet _ _ (by omega : 7 - i % 8 < 8)] at hbit
  have hpos : 8 * (n - 1 - i / 8) + (7 - i % 8) = 8 * n - 1 - i := by omega
  rw [hpos] at hbit
  exact hbit

/-! ## The option on the wire -/

/-- Two addresses of one width whose leading octets agree, and whose bits
beyond the prefix are clear, are equal. -/
theorem eq_of_octets {n : Nat} {keep : UInt8} (hkeep : keep.toNat ≤ 8 * n)
    {x y : BitVec (8 * n)}
    (h : ((List.range n).map fun j => UInt8.ofNat (x.toNat >>> (8 * (n - 1 - j)))).take
        ((keep.toNat + 7) / 8) =
      ((List.range n).map fun j => UInt8.ofNat (y.toNat >>> (8 * (n - 1 - j)))).take
        ((keep.toNat + 7) / 8)) :
    maskBits x keep hkeep = maskBits y keep hkeep := by
  rw [maskBits_eq_iff]
  intro i hi
  have hm : (keep.toNat + 7) / 8 ≤ n := by omega
  have hbit := testBit_of_octets hm h (i := i) (by omega)
  simp only [BitVec.getMsbD, BitVec.getLsbD, hbit]

/-- A masked address is masked already. -/
theorem maskBits_maskBits {w : Nat} (a : BitVec w) {keep : UInt8} (h : keep.toNat ≤ w) :
    maskBits (maskBits a keep h) keep h = maskBits a keep h := by
  rw [maskBits_eq_iff]
  intro i hi
  simp [getMsbD_maskBits, hi]

/-- The option for a client that is not excluded. -/
def EdnsConfig.subnetOf (config : EdnsConfig) : IpAddr → ClientSubnet
  | .v4 a => ⟨.v4 (maskBits a config.clientSubnet.ipv4Prefix config.clientSubnet.ipv4_le),
      config.clientSubnet.ipv4Prefix, 0⟩
  | .v6 a => ⟨.v6 (maskBits a config.clientSubnet.ipv6Prefix config.clientSubnet.ipv6_le),
      config.clientSubnet.ipv6Prefix, 0⟩

/-- Of one family, and equal on the prefix configured for it. -/
def SameSubnet (p4 p6 : UInt8) : IpAddr → IpAddr → Prop
  | .v4 a, .v4 b => ∀ i < p4.toNat, a.getMsbD i = b.getMsbD i
  | .v6 a, .v6 b => ∀ i < p6.toNat, a.getMsbD i = b.getMsbD i
  | _, _ => False

/-- `masked` is `ip` on the prefix configured for its family, and zero
beyond. -/
def Released (p4 p6 : UInt8) : IpAddr → IpAddr → Prop
  | .v4 a, .v4 masked => ∀ i, masked.getMsbD i = (decide (i < p4.toNat) && a.getMsbD i)
  | .v6 a, .v6 masked => ∀ i, masked.getMsbD i = (decide (i < p6.toNat) && a.getMsbD i)
  | _, _ => False

section
variable {config : EdnsConfig} {a b : IpAddr}

theorem clientSubnet_of_included
    (h : (config.clientSubnet.excludePrivate && !isPublicClientIp a) = false) :
    clientSubnet a config = some (config.subnetOf a) := by
  unfold clientSubnet
  rw [if_neg (by rw [h]; exact Bool.false_ne_true)]
  cases a <;> rfl

theorem subnetOf_released : Released config.clientSubnet.ipv4Prefix
    config.clientSubnet.ipv6Prefix a (config.subnetOf a).address := by
  cases a with
  | v4 x => exact getMsbD_maskBits x _ _
  | v6 x => exact getMsbD_maskBits x _ _

theorem subnetOf_eq_iff : config.subnetOf a = config.subnetOf b ↔
    SameSubnet config.clientSubnet.ipv4Prefix config.clientSubnet.ipv6Prefix a b := by
  cases a with
  | v4 x =>
      cases b with
      | v4 y => simp [EdnsConfig.subnetOf, SameSubnet, maskBits_eq_iff]
      | v6 y => simp [EdnsConfig.subnetOf, SameSubnet]
  | v6 x =>
      cases b with
      | v4 y => simp [EdnsConfig.subnetOf, SameSubnet]
      | v6 y => simp [EdnsConfig.subnetOf, SameSubnet, maskBits_eq_iff]

/-- The wire form of the option tells apart what the masks tell apart. -/
theorem subnetOf_toBytes_inj (h : (config.subnetOf a).toBytes = (config.subnetOf b).toBytes) :
    config.subnetOf a = config.subnetOf b := by
  have h4 := config.clientSubnet.ipv4_le
  have h6 := config.clientSubnet.ipv6_le
  have hlen4 : (config.clientSubnet.ipv4Prefix.toNat + 7) / 8 ≤ 4 := by omega
  have hlen6 : (config.clientSubnet.ipv6Prefix.toNat + 7) / 8 ≤ 16 := by omega
  cases a with
  | v4 x =>
      cases b with
      | v4 y =>
          simp only [EdnsConfig.subnetOf, ClientSubnet.toBytes, IpAddr.octets, List.length_map,
            List.length_range, hlen4, if_true, Option.some.injEq,
            List.append_cancel_left_eq] at h
          have hmask := eq_of_octets (n := 4) h4 h
          rw [maskBits_maskBits, maskBits_maskBits] at hmask
          rw [EdnsConfig.subnetOf, EdnsConfig.subnetOf, hmask]
      | v6 y =>
          -- the second byte is the family
          simp [EdnsConfig.subnetOf, ClientSubnet.toBytes, IpAddr.octets, hlen4, hlen6] at h
  | v6 x =>
      cases b with
      | v4 y => simp [EdnsConfig.subnetOf, ClientSubnet.toBytes, IpAddr.octets, hlen4, hlen6] at h
      | v6 y =>
          simp only [EdnsConfig.subnetOf, ClientSubnet.toBytes, IpAddr.octets, List.length_map,
            List.length_range, hlen6, if_true, Option.some.injEq,
            List.append_cancel_left_eq] at h
          have hmask := eq_of_octets (n := 16) h6 h
          rw [maskBits_maskBits, maskBits_maskBits] at hmask
          rw [EdnsConfig.subnetOf, EdnsConfig.subnetOf, hmask]

end

/-! ## The query for the upstream -/

theorem Edns.option_insertOption (e : Edns) (o : EdnsOption) (code : UInt16) :
    (e.insertOption o).option code = if o.code = code then some o else e.option code := by
  unfold Edns.insertOption Edns.option
  rw [List.find?_cons]
  by_cases h : o.code = code
  · simp [h]
  · have hfilter : (e.options.filter fun o' => !(o'.code == o.code)).find? (·.code == code) =
        e.options.find? (·.code == code) := by
      rw [List.find?_filter]
      refine congrArg (fun p => List.find? p e.options) (funext fun o' => ?_)
      by_cases h' : o'.code = code
      · simp [h', Ne.symm h]
      · simp [h']
    simp only [beq_eq_false_iff_ne.mpr h, h, if_false]
    exact hfilter

theorem Edns.option_insertSubnet (e : Edns) (subnet : ClientSubnet) :
    (e.insertOption (.subnet subnet)).option ednsCodeSubnet = some (.subnet subnet) := by
  rw [Edns.option_insertOption]
  exact if_pos rfl

/-- `out` is `query` with the subnet of `ip` as its client subnet option and
nothing else changed; without an EDNS section the option goes in a default
one. -/
structure SubnetAdded (config : Raw.EdnsConfig) (query : Message) (ip : IpAddr) (out : Message) :
    Prop where
  rest : out = { query with edns := out.edns }
  edns : ∃ e subnet, out.edns = some e ∧
    e = { query.edns.getD {} with options := e.options } ∧
    (∀ code, code ≠ ednsCodeSubnet → e.option code = (query.edns.getD {}).option code) ∧
    e.option ednsCodeSubnet = some (.subnet subnet) ∧
    subnet.sourcePrefix = config.clientSubnet.prefixFor ip ∧ subnet.scopePrefix = 0 ∧
    Released config.clientSubnet.ipv4Prefix config.clientSubnet.ipv6Prefix ip subnet.address

section
variable {config : EdnsConfig} {query : Message} {ip a b : IpAddr}

/-- The query with the option in place. -/
def withSubnet (query : Message) (subnet : ClientSubnet) : Message :=
  { query with edns := some ((query.edns.getD {}).insertOption (.subnet subnet)) }

theorem queryWithEcs_of_included (hen : config.enabled = true)
    (hecs : config.clientSubnet.enabled = true)
    (hown : config.preserveClient = false ∨ queryHasEcs query = false)
    (hincl : (config.clientSubnet.excludePrivate && !isPublicClientIp ip) = false) :
    queryWithEcs query (some ip) config = withSubnet query (config.subnetOf ip) := by
  have hkeep : (config.preserveClient && queryHasEcs query) = false := by
    rcases hown with h | h <;> simp [h]
  unfold queryWithEcs
  simp only [hen, hecs, hkeep, Bool.not_true, Bool.or_self, Bool.false_eq_true, if_false,
    Option.bind_some, clientSubnet_of_included hincl]
  rfl

theorem ecsBytes_withSubnet (query : Message) (subnet : ClientSubnet) :
    (withSubnet query subnet).ecsBytes = subnet.toBytes := by
  unfold Message.ecsBytes withSubnet
  rw [Option.bind_some, Edns.option_insertSubnet]

theorem withSubnet_inj {s s' : ClientSubnet} :
    withSubnet query s = withSubnet query s' ↔ s = s' := by
  constructor
  · intro h
    have hopt := congrArg (fun m => m.edns.bind fun e => e.option ednsCodeSubnet) h
    simp only [withSubnet, Option.bind_some, Edns.option_insertSubnet] at hopt
    injection hopt with hopt
    injection hopt
  · intro h
    rw [h]

/-- Keys of queries with different options differ. -/
theorem key_withSubnet_ne {s s' : ClientSubnet} (hne : s.toBytes ≠ s'.toBytes)
    {k k' : CacheKey} (hk : CacheKey.fromMessage (withSubnet query s) = some k)
    (hk' : CacheKey.fromMessage (withSubnet query s') = some k') : (k == k') = false := by
  obtain ⟨q, _, rfl⟩ := Option.map_eq_some_iff.mp hk
  obtain ⟨q', _, rfl⟩ := Option.map_eq_some_iff.mp hk'
  rw [Bool.eq_false_iff]
  intro heq
  have hecs := (CacheKey.beq_iff.mp heq).2.2.2.2.2
  dsimp only at hecs
  rw [ecsBytes_withSubnet, ecsBytes_withSubnet] at hecs
  exact hne hecs

end

/-- **A query for the upstream tells of the client's address exactly the
configured prefix.** For every configuration that `validate` accepts, with
client subnets on, no client's query makes `mask_bits` abort; it differs
from the client's message in the client subnet option only; and the
queries of two clients are the same, with the same cache key and the same
pending key, exactly when the clients are of one family and agree on the
prefix, and have different cache keys otherwise. -/
theorem ecs_releases_prefix (config : Config) (isIp : Str → Bool) (pathExists : Path → Bool)
    (query : Message) (a b : IpAddr)
    (hvalid : config.validate isIp pathExists = .ok ())
    (hen : config.edns.enabled = true) (hecs : config.edns.clientSubnet.enabled = true)
    (hown : config.edns.preserveClient = false ∨ queryHasEcs query = false)
    (hincl : config.edns.clientSubnet.excludePrivate = false ∨
      isPublicClientIp a = true ∧ isPublicClientIp b = true) :
    let p4 := config.edns.clientSubnet.ipv4Prefix
    let p6 := config.edns.clientSubnet.ipv6Prefix
    ∃ qa qb, Raw.queryWithEcs query (some a) config.edns = some qa ∧
      Raw.queryWithEcs query (some b) config.edns = some qb ∧
      SubnetAdded config.edns query a qa ∧ SubnetAdded config.edns query b qb ∧
      (qa = qb ↔ SameSubnet p4 p6 a b) ∧
      (SameSubnet p4 p6 a b → CacheKey.fromMessage qa = CacheKey.fromMessage qb ∧
        ∀ toBytes, pendingKey toBytes qa = pendingKey toBytes qb) ∧
      (¬ SameSubnet p4 p6 a b → ∀ ka kb, CacheKey.fromMessage qa = some ka →
        CacheKey.fromMessage qb = some kb → (ka == kb) = false) := by
  intro p4 p6
  have hv := Config.validate_eq_ok.mp hvalid
  let checked := config.edns.checked hv.ipv4Prefix hv.ipv6Prefix
  -- the prefixes are in range, so the query goes out with the subnet of the address
  have hquery : ∀ ip, config.edns.clientSubnet.excludes ip = false →
      Raw.queryWithEcs query (some ip) config.edns =
        some (withSubnet query (checked.subnetOf ip)) := by
    intro ip hip
    rw [Raw.queryWithEcs_eq query (some ip) config.edns hv.ipv4Prefix hv.ipv6Prefix]
    exact congrArg some (queryWithEcs_of_included hen hecs hown hip)
  have hadded : ∀ ip, SubnetAdded config.edns query ip
      (withSubnet query (checked.subnetOf ip)) := by
    intro ip
    refine ⟨rfl, _, checked.subnetOf ip, rfl, rfl, ?_, ?_, ?_, ?_, ?_⟩
    · intro code hcode
      rw [Edns.option_insertOption]
      exact if_neg (Ne.symm hcode)
    · exact Edns.option_insertSubnet _ _
    · cases ip <;> rfl
    · cases ip <;> rfl
    · exact subnetOf_released
  have hiff : withSubnet query (checked.subnetOf a) = withSubnet query (checked.subnetOf b) ↔
      SameSubnet p4 p6 a b := withSubnet_inj.trans subnetOf_eq_iff
  have hexcl : config.edns.clientSubnet.excludes a = false ∧
      config.edns.clientSubnet.excludes b = false := by
    unfold Raw.ClientSubnetConfig.excludes
    rcases hincl with h | ⟨ha, hb⟩
    · simp [h]
    · simp [ha, hb]
  refine ⟨_, _, hquery a hexcl.1, hquery b hexcl.2, hadded a, hadded b, hiff, ?_, ?_⟩
  · intro hsame
    rw [hiff.mpr hsame]
    exact ⟨rfl, fun _ => rfl⟩
  · intro hdiff ka kb hka hkb
    -- the key holds the option's bytes, and equal bytes would be equal subnets
    refine key_withSubnet_ne ?_ hka hkb
    intro hbytes
    exact hdiff (subnetOf_eq_iff.mp (subnetOf_toBytes_inj hbytes))

/-- The defaults, with client subnets on. -/
def ecsConfig : Config where
  serverBinds := [⟨.v4 0, 853⟩]
  upstreams := [{ name := "cloudflare".toList, address := "1.1.1.1:53".toList }]
  edns := { clientSubnet := { enabled := true } }

/-- A recursive query for one name. -/
def exampleQuery : Message :=
  { recursionDesired := true, queries := [⟨⟨[labelOf "example"], true⟩, .A, .IN⟩] }

/-- 8.8.8.8 and 8.8.8.9 are one /24; 8.8.4.4 is another. -/
theorem ecs_releases_prefix_default :
    (∃ q, Raw.queryWithEcs exampleQuery (some (.v4 0x08080808)) ecsConfig.edns = some q ∧
      Raw.queryWithEcs exampleQuery (some (.v4 0x08080809)) ecsConfig.edns = some q) ∧
    ∃ q q', Raw.queryWithEcs exampleQuery (some (.v4 0x08080808)) ecsConfig.edns = some q ∧
      Raw.queryWithEcs exampleQuery (some (.v4 0x08080404)) ecsConfig.edns = some q' ∧
      q ≠ q' := by
  have hvalid : ecsConfig.validate (fun s => decide (s = "1.1.1.1".toList)) (fun _ => true) =
      .ok () := by decide
  constructor
  · obtain ⟨qa, qb, ha, hb, _, _, hiff, _⟩ := ecs_releases_prefix ecsConfig _ _ exampleQuery
      (.v4 0x08080808) (.v4 0x08080809) hvalid rfl rfl (.inr rfl) (.inr ⟨by decide, by decide⟩)
    have heq : qa = qb := hiff.mpr (by
      show ∀ i < 24, _
      decide)
    exact ⟨qa, ha, heq ▸ hb⟩
  · obtain ⟨qa, qb, ha, hb, _, _, hiff, _⟩ := ecs_releases_prefix ecsConfig _ _ exampleQuery
      (.v4 0x08080808) (.v4 0x08080404) hvalid rfl rfl (.inr rfl) (.inr ⟨by decide, by decide⟩)
    refine ⟨qa, qb, ha, hb, ?_⟩
    intro heq
    -- the two differ in bit 20
    have hbit := hiff.mp heq 20 (by decide)
    exact absurd hbit (by decide)

/-! ## The client's own option -/

/-- The client subnet option of a message. -/
def Message.ecsOption (msg : Message) : Option EdnsOption :=
  msg.edns.bind fun edns => edns.option ednsCodeSubnet

theorem ecsOption_withSubnet (query : Message) (subnet : ClientSubnet) :
    (withSubnet query subnet).ecsOption = some (.subnet subnet) := by
  unfold Message.ecsOption withSubnet
  rw [Option.bind_some, Edns.option_insertSubnet]

/-- The option comes from the client's address: it is the prefix of the
address, and whatever subnet the client had put in its own message, the
option would be the same. -/
structure FromAddress (config : Raw.EdnsConfig) (query : Message) (clientIp : Option IpAddr)
    (option : EdnsOption) : Prop where
  subnet : ∃ ip subnet, clientIp = some ip ∧ option = .subnet subnet ∧
    subnet.sourcePrefix = config.clientSubnet.prefixFor ip ∧ subnet.scopePrefix = 0 ∧
    Released config.clientSubnet.ipv4Prefix config.clientSubnet.ipv6Prefix ip subnet.address
  independent : ∀ own, (Raw.queryWithEcs (withSubnet query own) clientIp config).map
    Message.ecsOption = some (some option)

/-- The query for the upstream carries no client subnet, or one that comes
from the client's address. -/
def OwnEcsDropped (config : Raw.EdnsConfig) (query : Message) (clientIp : Option IpAddr) : Prop :=
  ∀ out, Raw.queryWithEcs query clientIp config = some out →
    ∀ option, out.ecsOption = some option → FromAddress config query clientIp option

namespace Raw

theorem maskBits_eq_some {w : Nat} {value masked : BitVec w} {keep : UInt8}
    (h : maskBits value keep = some masked) (i : Nat) :
    masked.getMsbD i = (decide (i < keep.toNat) && value.getMsbD i) := by
  by_cases hkeep : keep.toNat ≤ w
  · rw [maskBits_eq value hkeep] at h
    cases h
    exact getMsbD_maskBits value keep hkeep i
  · have h0 : keep ≠ 0 := by
      rintro rfl
      exact hkeep (Nat.zero_le w)
    rw [maskBits, if_neg h0, if_pos (by omega)] at h
    cases h

theorem maskIp_released {config : EdnsConfig} {ip masked : IpAddr}
    (h : maskIp ip (config.clientSubnet.prefixFor ip) = some masked) :
    Released config.clientSubnet.ipv4Prefix config.clientSubnet.ipv6Prefix ip masked := by
  cases ip with
  | v4 a =>
      obtain ⟨m, hm, rfl⟩ := Option.map_eq_some_iff.mp h
      exact maskBits_eq_some hm
  | v6 a =>
      obtain ⟨m, hm, rfl⟩ := Option.map_eq_some_iff.mp h
      exact maskBits_eq_some hm

/-- The early returns: the client's message goes out as it came. -/
theorem queryWithEcs_passed_on {config : EdnsConfig} {clientIp : Option IpAddr}
    (h : ¬ (config.enabled = true ∧
      ∃ ip, clientIp = some ip ∧ config.clientSubnet.excludes ip = false)) (query : Message) :
    queryWithEcs query clientIp config = some query := by
  unfold queryWithEcs
  split
  · rfl
  split
  · rfl
  cases clientIp with
  | none => rfl
  | some ip =>
      have hex : config.clientSubnet.excludes ip = true := by
        rw [← Bool.not_eq_false]
        intro hincl
        rename_i hon _
        refine h ⟨?_, ip, rfl, hincl⟩
        simp only [Bool.or_eq_true, Bool.not_eq_true', not_or] at hon
        simpa using hon.1
      simp only [clientSubnet, hex, if_true, Option.map_some]

/-- A client that is included: the option is replaced. -/
theorem queryWithEcs_included {config : EdnsConfig} {ip : IpAddr}
    (hen : config.enabled = true) (hecs : config.clientSubnet.enabled = true)
    (hown : config.preserveClient = false) (hincl : config.clientSubnet.excludes ip = false)
    (query : Message) :
    queryWithEcs query (some ip) config =
      (maskIp ip (config.clientSubnet.prefixFor ip)).map fun masked =>
        withSubnet query ⟨masked, config.clientSubnet.prefixFor ip, 0⟩ := by
  simp only [queryWithEcs, hen, hecs, hown, clientSubnet, hincl, Bool.not_true, Bool.or_self,
    Bool.false_and, Bool.false_eq_true, if_false, Option.map_map]
  rfl

end Raw

/-- **The client's own subnet.** With `preserve_client` off and client
subnets on, for every query and client: the query for the upstream carries
no client subnet option or one that comes from the client's address,
exactly when the client sent none, or EDNS is on and the client has an
address that is not excluded. -/
theorem own_ecs_dropped_iff (config : Raw.EdnsConfig) (query : Message)
    (clientIp : Option IpAddr) (hown : config.preserveClient = false)
    (hecs : config.clientSubnet.enabled = true) :
    OwnEcsDropped config query clientIp ↔
      queryHasEcs query = false ∨ (config.enabled = true ∧
        ∃ ip, clientIp = some ip ∧ config.clientSubnet.excludes ip = false) := by
  by_cases hincl : config.enabled = true ∧
      ∃ ip, clientIp = some ip ∧ config.clientSubnet.excludes ip = false
  · refine iff_of_true ?_ (.inr hincl)
    obtain ⟨hen, ip, rfl, hip⟩ := hincl
    intro out hout option hoption
    have hquery := Raw.queryWithEcs_included hen hecs hown hip
    rw [hquery] at hout
    obtain ⟨masked, hmask, rfl⟩ := Option.map_eq_some_iff.mp hout
    rw [ecsOption_withSubnet] at hoption
    cases hoption
    refine ⟨⟨ip, _, rfl, rfl, rfl, rfl, Raw.maskIp_released hmask⟩, ?_⟩
    intro own
    rw [hquery, hmask, Option.map_some, Option.map_some, ecsOption_withSubnet]
  · have hpass := Raw.queryWithEcs_passed_on hincl
    have hdropped : OwnEcsDropped config query clientIp ↔ queryHasEcs query = false := by
      constructor
      · intro h
        cases hopt : query.ecsOption with
        | none => rw [queryHasEcs, ← Message.ecsOption, hopt]; rfl
        | some option =>
            -- two subnets the client may send instead go out as two options
            have hfrom := h query (hpass query) option hopt
            have h0 := hfrom.independent ⟨.v4 0, 0, 0⟩
            have h1 := hfrom.independent ⟨.v4 0, 1, 0⟩
            rw [hpass, Option.map_some, ecsOption_withSubnet] at h0 h1
            rw [← h1] at h0
            exact absurd h0 (by decide)
      · intro hno out hout option hoption
        rw [hpass] at hout
        cases hout
        rw [queryHasEcs, ← Message.ecsOption, hoption] at hno
        cases hno
    rw [hdropped]
    exact ⟨.inl, fun h => h.resolve_right hincl⟩

/-- The defaults, with client subnets on and `preserve_client` off. -/
def hideOwnConfig : Raw.EdnsConfig :=
  { preserveClient := false, clientSubnet := { enabled := true } }

/-- A query whose client names 203.0.113.0/24 as its subnet. -/
def ownEcsQuery : Message := withSubnet exampleQuery ⟨.v4 0xCB007100, 24, 0⟩

/-- From 8.8.8.8 the option is replaced. -/
theorem own_ecs_dropped_public : OwnEcsDropped hideOwnConfig ownEcsQuery (some (.v4 0x08080808)) :=
  (own_ecs_dropped_iff hideOwnConfig ownEcsQuery (some (.v4 0x08080808)) rfl rfl).mpr
    (.inr ⟨rfl, .v4 0x08080808, rfl, by decide⟩)

/-- From 192.168.1.10, which is private and so excluded, the message goes
out with the client's own option in it. -/
theorem own_ecs_passed_on :
    Raw.queryWithEcs ownEcsQuery (some (.v4 0xC0A8010A)) hideOwnConfig = some ownEcsQuery ∧
      ownEcsQuery.ecsOption = some (.subnet ⟨.v4 0xCB007100, 24, 0⟩) ∧
      ¬ OwnEcsDropped hideOwnConfig ownEcsQuery (some (.v4 0xC0A8010A)) := by
  have hout : Raw.queryWithEcs ownEcsQuery (some (.v4 0xC0A8010A)) hideOwnConfig =
      some ownEcsQuery := by decide
  refine ⟨hout, rfl, ?_⟩
  intro h
  obtain ⟨ip, subnet, hip, hopt, -, -, hrel⟩ := (h ownEcsQuery hout _ rfl).subnet
  cases hip
  cases hopt
  -- the option is not the client's address in bit 4
  exact absurd (hrel 4) (by decide)

end Dotdns
