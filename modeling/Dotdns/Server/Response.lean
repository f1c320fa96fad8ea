import Mathlib.Data.List.Forall2
import Dotdns.Config

/-!
# Server — queries for the upstream, answers of our own

The pure parts of `server.rs`: the client subnet added to a query before
it goes upstream (`query_with_ecs`), and the messages the resolver makes
itself, for a blocked name and for an error.
-/

namespace Dotdns

open Lib

/-! ## Client subnet -/

/-- `Ipv4Addr::is_private`. -/
def isPrivate (ip : BitVec 32) : Bool :=
  ip >>> 24 == 10#32 || ip >>> 20 == 0xAC1#32 || ip >>> 16 == 0xC0A8#32

/-- `Ipv4Addr::is_documentation`. -/
def isDocumentation (ip : BitVec 32) : Bool :=
  ip >>> 8 == 0xC00002#32 || ip >>> 8 == 0xC63364#32 || ip >>> 8 == 0xCB0071#32

/-- `is_public_client_ip`. -/
def isPublicClientIp : IpAddr → Bool
  | .v4 ip =>
      !isPrivate ip
        && !(ip >>> 24 == 127#32)     -- loopback
        && !(ip >>> 16 == 0xA9FE#32)  -- link local
        && !(ip == 0xFFFFFFFF#32)     -- broadcast
        && !isDocumentation ip
        && !(ip == 0#32)              -- unspecified
  | .v6 ip =>
      !(ip == 1#128)                  -- loopback
        && !(ip == 0#128)             -- unspecified
        && !(ip >>> 121 == 0x7E#128)  -- unique local, fc00::/7
        && !(ip >>> 118 == 0x3FA#128) -- link local, fe80::/10

/-- `mask_bits`: the bits beyond the first `keep` cleared. The bound is
what keeps the source's subtraction and shift in range. -/
def maskBits {w : Nat} (value : BitVec w) (keep : UInt8) (_ : keep.toNat ≤ w) : BitVec w :=
  if keep = 0 then 0#w
  else value &&& (BitVec.allOnes w <<< (w - keep.toNat))

/-- `client_subnet`; the masked address with its prefix, scope 0. -/
def clientSubnet (ip : IpAddr) (config : EdnsConfig) : Option ClientSubnet :=
  let c := config.clientSubnet
  if c.excludePrivate && !isPublicClientIp ip then none
  else match ip with
    | .v4 a => some ⟨.v4 (maskBits a c.ipv4Prefix c.ipv4_le), c.ipv4Prefix, 0⟩
    | .v6 a => some ⟨.v6 (maskBits a c.ipv6Prefix c.ipv6_le), c.ipv6Prefix, 0⟩

/-- `query_has_ecs`. -/
def queryHasEcs (query : Message) : Bool :=
  (query.edns.bind fun edns => edns.option ednsCodeSubnet).isSome

/-- `query_with_ecs`. -/
def queryWithEcs (query : Message) (clientIp : Option IpAddr) (config : EdnsConfig) : Message :=
  if !config.enabled || !config.clientSubnet.enabled then query
  else if config.preserveClient && queryHasEcs query then query
  else match clientIp.bind fun ip => clientSubnet ip config with
    | none => query
    | some subnet =>
        { query with edns := some ((query.edns.getD {}).insertOption (.subnet subnet)) }

/-! ## Answers made here -/

/-- `apply_query_meta` on a new message. -/
def queryMeta (query : Message) : Message :=
  { id := query.id
    messageType := .response
    opCode := query.opCode
    recursionDesired := query.recursionDesired
    edns := query.edns }

/-- `make_error_response`. -/
def makeErrorResponse (query : Message) (code : ResponseCode) : Message :=
  { queryMeta query with responseCode := code }

/-- `config.blocked_ttl.as_secs().min(u32::MAX as u64) as u32`. -/
def blockedTtl (config : BlocklistConfig) : UInt32 :=
  UInt32.ofNat (min (Duration.asSecs config.blockedTtl) (2 ^ 32 - 1))

/-- The primary of the SOA record. -/
def blockedMname : Name := ⟨[labelOf "blocked", labelOf "dotdns"], true⟩

/-- The mailbox of the SOA record. -/
def blockedRname : Name := ⟨[labelOf "hostmaster", labelOf "blocked", labelOf "dotdns"], true⟩

/-- The record of `add_blocked_soa`. -/
def blockedSoa (name : Name) (ttl : UInt32) : Record :=
  .fromRdata name ttl (.soa blockedMname blockedRname 1 1800 900 604800 ttl)

/-- `make_blocked_response`: only the first question is answered. -/
def makeBlockedResponse (query : Message) (config : BlocklistConfig) : Message :=
  let resp := queryMeta query
  let ttl := blockedTtl config
  match query.queries.head? with
  | none => { resp with responseCode := .formErr }
  | some q =>
      match config.responseMode with
      | .nullIp =>
          match q.queryType with
          | .A => { resp with answers := [.fromRdata q.name ttl (.a 0)] }
          | .AAAA => { resp with answers := [.fromRdata q.name ttl (.aaaa 0)] }
          | .other _ => { resp with nameServers := [blockedSoa q.name ttl] }
      | .noData => { resp with nameServers := [blockedSoa q.name ttl] }
      | .nxDomain =>
          { resp with responseCode := .nxDomain, nameServers := [blockedSoa q.name ttl] }

/-! ## The block answer, TTLs aside -/

/-- The same record up to its TTL and the letter case of its owner. -/
def Record.SameButTtl (r r' : Record) : Prop :=
  (r.name == r'.name) = true ∧ r.dnsClass = r'.dnsClass ∧ r.data = r'.data

/-- The same response code and the same records, TTLs aside. -/
structure SameAnswer (m m' : Message) : Prop where
  responseCode : m.responseCode = m'.responseCode
  answers : List.Forall₂ Record.SameButTtl m.answers m'.answers
  nameServers : List.Forall₂ Record.SameButTtl m.nameServers m'.nameServers
  additionals : List.Forall₂ Record.SameButTtl m.additionals m'.additionals

/-- `msg` is the answer `make_blocked_response` builds for this query. -/
def IsBlockAnswer (config : BlocklistConfig) (query msg : Message) : Prop :=
  SameAnswer msg (makeBlockedResponse query config)

theorem SameAnswer.refl (m : Message) : SameAnswer m m := by
  have hrec : ∀ rs : List Record, List.Forall₂ Record.SameButTtl rs rs :=
    fun rs => List.forall₂_same.mpr fun r _ => ⟨BEq.rfl, rfl, rfl⟩
  exact ⟨rfl, hrec _, hrec _, hrec _⟩

theorem SameAnswer.withTtl {m m' : Message} (h : SameAnswer m m') (ttl : UInt32) :
    SameAnswer (m.withTtl ttl) m' := by
  have hset : ∀ {rs rs' : List Record}, List.Forall₂ Record.SameButTtl rs rs' →
      List.Forall₂ Record.SameButTtl (rs.map (Record.setTtl ttl)) rs' := by
    intro rs rs' hrs
    rw [List.forall₂_map_left_iff]
    exact hrs.imp fun _ _ hr => hr
  exact ⟨h.responseCode, hset h.answers, hset h.nameServers, hset h.additionals⟩

theorem SameAnswer.setId {m m' : Message} (h : SameAnswer m m') (id : UInt16) :
    SameAnswer (m.setId id) m' := ⟨h.responseCode, h.answers, h.nameServers, h.additionals⟩

/-- The block answer depends on the question's name, up to case, and type. -/
theorem makeBlockedResponse_congr {query query' : Message} {q q' : Query}
    (hq : query.queries.head? = some q) (hq' : query'.queries.head? = some q')
    (hname : (q.name == q'.name) = true) (htype : q.queryType = q'.queryType)
    (config : BlocklistConfig) :
    SameAnswer (makeBlockedResponse query config) (makeBlockedResponse query' config) := by
  have hrec : ∀ (ttl : UInt32) (data : RData),
      (Record.fromRdata q.name ttl data).SameButTtl (Record.fromRdata q'.name ttl data) :=
    fun _ _ => ⟨hname, rfl, rfl⟩
  unfold makeBlockedResponse
  rw [hq, hq']
  dsimp only
  rw [htype]
  cases config.responseMode with
  | nullIp =>
      cases q'.queryType with
      | A => exact ⟨rfl, .cons (hrec _ _) .nil, .nil, .nil⟩
      | AAAA => exact ⟨rfl, .cons (hrec _ _) .nil, .nil, .nil⟩
      | other code => exact ⟨rfl, .nil, .cons (hrec _ _) .nil, .nil⟩
  | noData => exact ⟨rfl, .nil, .cons (hrec _ _) .nil, .nil⟩
  | nxDomain => exact ⟨rfl, .nil, .cons (hrec _ _) .nil, .nil⟩

/-- Client subnet handling touches the EDNS section only. -/
theorem queryWithEcs_eq (query : Message) (clientIp : Option IpAddr) (config : EdnsConfig) :
    queryWithEcs query clientIp config =
      { query with edns := (queryWithEcs query clientIp config).edns } := by
  unfold queryWithEcs
  split
  · rfl
  split
  · rfl
  split <;> rfl

@[simp] theorem queryWithEcs_queries (query : Message) (clientIp : Option IpAddr)
    (config : EdnsConfig) : (queryWithEcs query clientIp config).queries = query.queries := by
  rw [queryWithEcs_eq]

@[simp] theorem queryWithEcs_recursionDesired (query : Message) (clientIp : Option IpAddr)
    (config : EdnsConfig) :
    (queryWithEcs query clientIp config).recursionDesired = query.recursionDesired := by
  rw [queryWithEcs_eq]

end Dotdns
