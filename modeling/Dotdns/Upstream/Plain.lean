import Dotdns.Lib.Frame
import Dotdns.Config
import Dotdns.Upstream.Error

/-!
# Upstream — plain DNS

`PlainUpstream`: one UDP attempt, then TCP when the attempt fails or its
answer is truncated. What the network does is the `PlainIo` argument: how
and when each operation completes, and which datagrams reach the socket,
from anyone.

The UDP attempt takes the FIRST datagram and looks at nothing but its
bytes; the headline says when that is enough.
-/

namespace Dotdns

open Lib

/-! ## The network -/

/-- What an operation completes with, and when, counted from the start of
its attempt. -/
structure Timed (α : Type) where
  elapsed : Nat := 0
  value : α

/-- The `?` of an I/O operation inside `tokio::time::timeout`. -/
def Timed.within {α : Type} (deadline : Nat) (t : Timed (Except Str α)) :
    Except UpstreamError α :=
  if t.elapsed < deadline then t.value.mapError .network else .error .timeout

/-- A UDP datagram, and who sent it. -/
structure Datagram where
  source : SocketAddr
  payload : List UInt8
  deriving DecidableEq, Repr

/-- The UDP side. `peer` is what the configured address stands for, the
destination of the query; `inbox` is what `recv_from` returns, call after
call. -/
structure UdpIo where
  bind : Except Str Unit := .ok ()
  peer : SocketAddr
  send : List UInt8 → Timed (Except Str Unit) := fun _ => { value := .ok () }
  inbox : List (Timed (Except Str Datagram)) := []

/-- The TCP side: the bytes that come in, and the error that ends them. -/
structure TcpIo where
  connect : Timed (Except Str Unit)
  write : List UInt8 → Timed (Except Str Unit) := fun _ => { value := .ok () }
  incoming : List (Timed UInt8) := []
  ending : Timed Str

/-- What the network does with the query on both transports. -/
structure PlainIo where
  udp : UdpIo
  tcp : TcpIo

/-- `read_exact` of `n` bytes: they and the bytes after them. -/
def TcpIo.readExact (io : TcpIo) (deadline n : Nat) (incoming : List (Timed UInt8)) :
    Except UpstreamError (List UInt8 × List (Timed UInt8)) :=
  let read := incoming.take n
  if read.length < n then
    -- the stream ends, or stays silent, before the last byte
    if io.ending.elapsed < deadline then .error (.network io.ending.value) else .error .timeout
  else if read.all fun b => decide (b.elapsed < deadline) then
    .ok (read.map Timed.value, incoming.drop n)
  else .error .timeout

/-! ## The upstream -/

/-- `PLAIN_UDP_TIMEOUT_CAP`. -/
def plainUdpTimeoutCap : Nat := Duration.fromSecs 2

/-- `PlainUpstream`. -/
structure PlainUpstream where
  address : Str
  udpTimeout : Nat
  tcpTimeout : Nat
  deriving DecidableEq, Repr

/-- Ghost: what a message was received over. -/
inductive Via where
  | udp (datagram : Datagram)
  | tcp
  deriving DecidableEq, Repr

/-- `is_truncated`: the TC bit of the message as it would be sent. -/
def isTruncated (toBytes : ToBytes) (msg : Message) : Bool :=
  match toBytes msg with
  | .ok bytes => bytes[2]?.any fun b => b &&& 0x02 != 0
  | .error _ => false

namespace PlainUpstream

/-- `PlainUpstream::new`. -/
def new (address : Str) (timeout : Nat) : PlainUpstream where
  address := address
  udpTimeout := min timeout plainUdpTimeoutCap
  tcpTimeout := timeout

section
variable (toBytes : ToBytes) (fromBytes : FromBytes) (up : PlainUpstream)

/-- The message of the first datagram, whoever sent it, and the datagram. -/
def queryUdp (io : UdpIo) (message : Message) : Except UpstreamError (Message × Datagram) := do
  io.bind.mapError .network
  let msgBytes ← (toBytes message).mapError .fromProto
  (io.send msgBytes).within up.udpTimeout
  match io.inbox with
  | [] => .error .timeout
  | first :: _ =>
      let datagram ← first.within up.udpTimeout
      let response ← (fromBytes (datagram.payload.take 65535)).mapError .fromProto
      .ok (response, datagram)

/-- `query_tcp`. -/
def queryTcp (io : TcpIo) (message : Message) : Except UpstreamError Message := do
  let msgBytes ← (toBytes message).mapError .fromProto
  io.connect.within up.tcpTimeout
  -- `msg_bytes.len() as u16`: the prefix of a longer message wraps
  (io.write (u16Bytes (UInt16.ofNat msgBytes.length))).within up.tcpTimeout
  (io.write msgBytes).within up.tcpTimeout
  let (len, rest) ← io.readExact up.tcpTimeout 2 io.incoming
  let (buf, _) ← io.readExact up.tcpTimeout (u16OfBytes len) rest
  (fromBytes buf).mapError .fromProto

/-- `PlainUpstream::query`: TCP after a truncated answer or an error. -/
def query (io : PlainIo) (message : Message) : Except UpstreamError (Message × Via) :=
  let overTcp := (up.queryTcp toBytes fromBytes io.tcp message).map fun response => (response, .tcp)
  match up.queryUdp toBytes fromBytes io.udp message with
  | .ok (response, datagram) =>
      if isTruncated toBytes response then overTcp else .ok (response, .udp datagram)
  | .error _ => overTcp

end

end PlainUpstream

/-! ## What a UDP answer is -/

/-- `datagram`, decoded as `msg`, answers `query` sent to `peer`. -/
structure Answers (peer : SocketAddr) (query : Message) (datagram : Datagram) (msg : Message) :
    Prop where
  source : datagram.source = peer
  response : msg.messageType = .response
  id : msg.id = query.id
  question : List.Forall₂ Query.Same msg.queries query.queries

section
variable {toBytes : ToBytes} {fromBytes : FromBytes} {up : PlainUpstream}

/-- The query is sent and `datagram` is the first to reach the socket, all
before the deadline. -/
structure FirstDatagram (toBytes : ToBytes) (up : PlainUpstream) (io : UdpIo) (query : Message)
    (datagram : Datagram) : Prop where
  bound : io.bind = .ok ()
  sent : ∃ bytes, toBytes query = .ok bytes ∧ (io.send bytes).value = .ok () ∧
    (io.send bytes).elapsed < up.udpTimeout
  arrived : ∃ first, io.inbox.head? = some first ∧ first.value = .ok datagram ∧
    first.elapsed < up.udpTimeout

/-- The first datagram does not decode, or is truncated, or is an answer. -/
def FirstDatagramOk (toBytes : ToBytes) (fromBytes : FromBytes) (up : PlainUpstream)
    (io : UdpIo) (query : Message) : Prop :=
  ∀ datagram msg, FirstDatagram toBytes up io query datagram →
    fromBytes (datagram.payload.take 65535) = .ok msg → isTruncated toBytes msg = false →
    Answers io.peer query datagram msg

theorem within_eq_ok {α : Type} {deadline : Nat} {t : Timed (Except Str α)} {a : α} :
    t.within deadline = .ok a ↔ t.value = .ok a ∧ t.elapsed < deadline := by
  unfold Timed.within
  split
  · rename_i hlt
    rw [mapError_eq_ok]
    exact ⟨fun h => ⟨h, hlt⟩, And.left⟩
  · rename_i hge
    constructor
    · intro h
      cases h
    · intro h
      exact absurd h.2 hge

/-- The UDP attempt returns whatever the first datagram decodes to. -/
theorem queryUdp_eq_ok {io : UdpIo} {query msg : Message} {datagram : Datagram} :
    up.queryUdp toBytes fromBytes io query = .ok (msg, datagram) ↔
      FirstDatagram toBytes up io query datagram ∧
        fromBytes (datagram.payload.take 65535) = .ok msg := by
  unfold PlainUpstream.queryUdp
  simp only [bind_eq_ok, mapError_eq_ok, within_eq_ok]
  constructor
  · intro h
    obtain ⟨_, hbind, bytes, hbytes, _, hsend, h⟩ := h
    split at h
    · cases h
    · rename_i first rest hinbox
      simp only [bind_eq_ok, mapError_eq_ok, within_eq_ok] at h
      obtain ⟨d, hfirst, m, hdec, heq⟩ := h
      cases heq
      exact ⟨⟨hbind, ⟨bytes, hbytes, hsend⟩, first, by rw [hinbox]; rfl, hfirst⟩, hdec⟩
  · intro h
    obtain ⟨⟨hbind, ⟨bytes, hbytes, hsend⟩, first, hhead, hfirst⟩, hdec⟩ := h
    refine ⟨(), hbind, bytes, hbytes, (), hsend, ?_⟩
    cases hinbox : io.inbox with
    | nil =>
        rw [hinbox] at hhead
        cases hhead
    | cons d rest =>
        rw [hinbox] at hhead
        cases hhead
        simp only [bind_eq_ok, mapError_eq_ok, within_eq_ok]
        exact ⟨datagram, hfirst, msg, hdec, rfl⟩

/-- A message received over UDP is the first datagram, not truncated. -/
theorem query_eq_udp {io : PlainIo} {query msg : Message} {datagram : Datagram} :
    up.query toBytes fromBytes io query = .ok (msg, .udp datagram) ↔
      up.queryUdp toBytes fromBytes io.udp query = .ok (msg, datagram) ∧
        isTruncated toBytes msg = false := by
  have htcp : ∀ r : Except UpstreamError Message,
      r.map (fun response => (response, Via.tcp)) ≠ .ok (msg, .udp datagram) := by
    intro r
    cases r <;> simp [Except.map]
  unfold PlainUpstream.query
  split
  · rename_i response d heq
    rw [heq]
    split
    · rename_i htrunc
      refine iff_of_false (htcp _) ?_
      intro h
      cases h.1
      rw [h.2] at htrunc
      cases htrunc
    · rename_i htrunc
      constructor
      · intro h
        cases h
        exact ⟨rfl, Bool.eq_false_iff.mpr htrunc⟩
      · intro h
        cases h.1
        rfl
  · rename_i heq
    rw [heq]
    refine iff_of_false (htcp _) ?_
    intro h
    cases h.1

/-- **When the first datagram is enough.** -/
theorem query_answers {io : PlainIo} {query : Message} :
    (∀ msg datagram, up.query toBytes fromBytes io query = .ok (msg, .udp datagram) →
      Answers io.udp.peer query datagram msg) ↔
    FirstDatagramOk toBytes fromBytes up io.udp query := by
  constructor
  · intro h datagram msg hfirst hdec htrunc
    exact h msg datagram (query_eq_udp.mpr ⟨queryUdp_eq_ok.mpr ⟨hfirst, hdec⟩, htrunc⟩)
  · intro h msg datagram hq
    obtain ⟨hudp, htrunc⟩ := query_eq_udp.mp hq
    obtain ⟨hfirst, hdec⟩ := queryUdp_eq_ok.mp hudp
    exact h datagram msg hfirst hdec htrunc

end

end Dotdns
