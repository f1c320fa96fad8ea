import Dotdns.Lib.Text

/-!
# Dns — the message model

The DNS message types of `hickory-proto` as far as `dotdns` reads, writes
or compares them. A message keeps every header flag, its four record
sections and the EDNS section; the SIG(0) records, which no function
here touches, are left out.

Names compare ASCII case-insensitively, exactly as `hickory`'s `Name`
does (`Name.beq`), so a cache key's `==` is an equivalence and not
equality.
-/

namespace Dotdns

open Lib

/-! ## Names -/

/-- One label: its raw bytes. -/
abbrev Label := List UInt8

/-- `u8::to_ascii_lowercase`. -/
def toAsciiLowercase (b : UInt8) : UInt8 :=
  if 65 ≤ b ∧ b ≤ 90 then b + 32 else b

/-- ASCII letters in lower case, as names compare. -/
def Label.lower (l : Label) : Label := l.map toAsciiLowercase

/-- A label from ASCII text. -/
def labelOf (s : String) : Label := s.toList.map fun c => UInt8.ofNat c.toNat

/-- `Name`: its labels, the leftmost first. -/
structure Name where
  labels : List Label
  isFqdn : Bool := true
  deriving DecidableEq, Repr

/-- The case-folded labels: what name equality compares. -/
def Name.folded (n : Name) : List Label := n.labels.map Label.lower

instance : BEq Name :=
  ⟨fun a b => a.isFqdn == b.isFqdn && a.folded == b.folded⟩

theorem Name.beq_iff {a b : Name} :
    (a == b) = true ↔ a.isFqdn = b.isFqdn ∧ a.folded = b.folded := by
  show (a.isFqdn == b.isFqdn && a.folded == b.folded) = true ↔ _
  rw [Bool.and_eq_true, beq_iff_eq, beq_iff_eq]

instance : EquivBEq Name where
  rfl := Name.beq_iff.mpr ⟨rfl, rfl⟩
  symm h := by
    obtain ⟨h1, h2⟩ := Name.beq_iff.mp h
    exact Name.beq_iff.mpr ⟨h1.symm, h2.symm⟩
  trans h h' := by
    obtain ⟨h1, h2⟩ := Name.beq_iff.mp h
    obtain ⟨h1', h2'⟩ := Name.beq_iff.mp h'
    exact Name.beq_iff.mpr ⟨h1.trans h1', h2.trans h2'⟩

/-- How the DNS library renders one label in `Name::to_utf8`: IDNA
decoding and escapes live there, outside this program. -/
abbrev LabelText := Label → Str

/-- `Name::to_utf8`: the rendered labels joined by dots, with a final dot
for the root and for a fully qualified name. -/
def Name.toUtf8 (text : LabelText) (n : Name) : Str :=
  List.intercalate ['.'] (n.labels.map text)
    ++ if n.labels = [] || n.isFqdn then ['.'] else []

/-! ## Addresses and EDNS -/

inductive IpAddr where
  | v4 (addr : BitVec 32)
  | v6 (addr : BitVec 128)
  deriving DecidableEq, Repr

structure SocketAddr where
  ip : IpAddr
  port : UInt16
  deriving DecidableEq, Repr

/-- Big-endian octets of an address. -/
def IpAddr.octets : IpAddr → List UInt8
  | .v4 a => (List.range 4).map fun i => UInt8.ofNat (a.toNat >>> (8 * (3 - i)))
  | .v6 a => (List.range 16).map fun i => UInt8.ofNat (a.toNat >>> (8 * (15 - i)))

/-- The EDNS client subnet option. -/
structure ClientSubnet where
  address : IpAddr
  sourcePrefix : UInt8
  scopePrefix : UInt8
  deriving DecidableEq, Repr

/-- Wire form: family, source prefix, scope prefix, and the first
`ceil(source / 8)` address octets; fails when the address is shorter. -/
def ClientSubnet.toBytes (s : ClientSubnet) : Option (List UInt8) :=
  let family : List UInt8 := match s.address with | .v4 _ => [0, 1] | .v6 _ => [0, 2]
  let addrLen := (s.sourcePrefix.toNat + 7) / 8
  if addrLen ≤ s.address.octets.length
  then some (family ++ [s.sourcePrefix, s.scopePrefix] ++ s.address.octets.take addrLen)
  else none

/-- `EdnsOption`: the client subnet, and whatever else. -/
inductive EdnsOption where
  | subnet (s : ClientSubnet)
  | unknown (code : UInt16) (data : List UInt8)
  deriving DecidableEq, Repr

/-- Option code of the client subnet option. -/
def ednsCodeSubnet : UInt16 := 8

/-- The option's code on the wire. -/
def EdnsOption.code : EdnsOption → UInt16
  | .subnet _ => ednsCodeSubnet
  | .unknown code _ => code

/-- The EDNS section. `options` is the library's map from option code to
option, as a list without an order of its own. -/
structure Edns where
  rcodeHigh : UInt8 := 0
  version : UInt8 := 0
  dnssecOk : Bool := false
  maxPayload : UInt16 := 512
  options : List EdnsOption := []
  deriving DecidableEq, Repr

/-- `Edns::option`. -/
def Edns.option (e : Edns) (code : UInt16) : Option EdnsOption :=
  e.options.find? fun o => o.code == code

/-- `OPT::insert`: replaces an option of the same code. -/
def Edns.insertOption (e : Edns) (o : EdnsOption) : Edns :=
  { e with options := o :: e.options.filter fun o' => !(o'.code == o.code) }

/-! ## Questions and records -/

/-- `RecordType`; only addresses matter here. -/
inductive RecordType where
  | A
  | AAAA
  | other (code : UInt16)
  deriving DecidableEq, Repr

inductive DnsClass where
  | IN
  | other (code : UInt16)
  deriving DecidableEq, Repr

/-- A question. -/
structure Query where
  name : Name
  queryType : RecordType
  queryClass : DnsClass := .IN
  deriving DecidableEq, Repr

/-- The same question, names up to ASCII case. -/
def Query.Same (q q' : Query) : Prop :=
  (q.name == q'.name) = true ∧ q.queryType = q'.queryType ∧ q.queryClass = q'.queryClass

/-- Record data; what is not looked into is bytes. -/
inductive RData where
  | a (addr : BitVec 32)
  | aaaa (addr : BitVec 128)
  | soa (mname rname : Name) (serial refresh retry expire minimum : UInt32)
  | other (rtype : RecordType) (bytes : List UInt8)
  deriving DecidableEq, Repr

/-- A resource record. -/
structure Record where
  name : Name
  dnsClass : DnsClass := .IN
  ttl : UInt32
  data : Option RData
  deriving DecidableEq, Repr

/-- `Record::from_rdata`: class IN. -/
def Record.fromRdata (name : Name) (ttl : UInt32) (data : RData) : Record :=
  { name, ttl, data := some data }

/-- `set_ttl`. -/
def Record.setTtl (ttl : UInt32) (r : Record) : Record := { r with ttl }

/-! ## Messages -/

inductive MessageType where
  | query
  | response
  deriving DecidableEq, Repr

inductive OpCode where
  | query
  | status
  | notify
  | update
  deriving DecidableEq, Repr

inductive ResponseCode where
  | noError
  | formErr
  | servFail
  | nxDomain
  | other (code : UInt16)
  deriving DecidableEq, Repr

/-- A DNS message; the field defaults are those of `Message::new`. -/
structure Message where
  id : UInt16 := 0
  messageType : MessageType := .query
  opCode : OpCode := .query
  authoritative : Bool := false
  truncated : Bool := false
  recursionDesired : Bool := false
  recursionAvailable : Bool := false
  authenticData : Bool := false
  checkingDisabled : Bool := false
  responseCode : ResponseCode := .noError
  queries : List Query := []
  answers : List Record := []
  nameServers : List Record := []
  additionals : List Record := []
  edns : Option Edns := none
  deriving DecidableEq, Repr

/-- `set_id`. -/
def Message.setId (m : Message) (id : UInt16) : Message := { m with id }

/-- The records of the three sections, in order. -/
def Message.records (m : Message) : List Record :=
  m.answers ++ m.nameServers ++ m.additionals

/-- The message with one TTL written in every record. -/
def Message.withTtl (m : Message) (ttl : UInt32) : Message :=
  { m with
    answers := m.answers.map (Record.setTtl ttl)
    nameServers := m.nameServers.map (Record.setTtl ttl)
    additionals := m.additionals.map (Record.setTtl ttl) }

end Dotdns
