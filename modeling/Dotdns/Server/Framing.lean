import Dotdns.Lib.Except
import Dotdns.Accept

/-!
# Server — messages on a DoT stream

`read_message` and `write_message` over the bytes of a connection. A frame
is a 16-bit length and that many bytes; the writer narrows the length with
an unchecked cast, and the reader takes a length of zero for the end.

The headline is the round trip of any list of messages, with whatever
comes behind them left unread. Of a frame that is cut short nothing is
ever a message.
-/

namespace Dotdns

open Lib

/-! ## Reading -/

/-- What is still to come in on a connection, every byte of it in time. -/
structure ByteStream where
  bytes : List UInt8
  /-- What a read gets that runs out of bytes: the error of the socket, or
  silence until the timeout. -/
  ending : Option Str
  deriving DecidableEq, Repr

namespace ByteStream

/-- What comes after `n` bytes. -/
def drop (n : Nat) (s : ByteStream) : ByteStream := { s with bytes := s.bytes.drop n }

/-- `read_exact`; `none` while bytes are missing and may still come. -/
def readExact (s : ByteStream) (n : Nat) : Awaited (List UInt8) :=
  if n ≤ s.bytes.length then some (.ok (s.bytes.take n)) else s.ending.map .error

/-- The length that the next two bytes spell. -/
def bodyLength (s : ByteStream) : UInt16 := UInt16.ofNat (u16OfBytes (s.bytes.take 2))

/-- `read_u16`, the same for two bytes. -/
def readU16 (s : ByteStream) : Awaited UInt16 :=
  if 2 ≤ s.bytes.length then some (.ok s.bodyLength) else s.ending.map .error

/-- The two reads of `read_message` on this stream. -/
def readIo (s : ByteStream) : ReadIo where
  len := s.readU16
  body := (s.drop 2).readExact

section
variable (fromBytes : FromBytes)

/-- One call of `read_message`, and what it leaves unread. -/
def next (s : ByteStream) : Except ServerError (Option Message) × ByteStream :=
  (readMessage fromBytes s.readIo, s.drop (2 + s.bodyLength.toNat))

/-- `n` calls, one after another. -/
def readMessages : Nat → ByteStream → List (Except ServerError (Option Message)) × ByteStream
  | 0, s => ([], s)
  | n + 1, s =>
      let (result, s) := s.next fromBytes
      let (results, s) := readMessages n s
      (result :: results, s)

end

end ByteStream

/-! ## Writing -/

section
variable (toBytes : ToBytes)

/-- What `write_message` hands to its writer. -/
def messageBytes (msg : Message) : Except ServerError (List UInt8) :=
  ((toBytes msg).mapError .dns).map frame

theorem writeMessage_eq (io : WriteIo) (msg : Message) :
    writeMessage toBytes io msg = messageBytes toBytes msg >>= fun bytes => (io bytes).result := by
  unfold writeMessage messageBytes
  cases toBytes msg <;> rfl

/-- Calls of `write_message`, one after another: the bytes that the writer
got, and the messages whose call succeeded. A call that cannot encode its
message writes nothing. -/
def writeMessages : List Message → List UInt8 × List Message
  | [] => ([], [])
  | msg :: msgs =>
      let (out, sent) := writeMessages msgs
      match messageBytes toBytes msg with
      | .ok bytes => (bytes ++ out, msg :: sent)
      | .error _ => (out, sent)

end

section
variable {toBytes : ToBytes}

theorem messageBytes_eq_ok {msg : Message} {bytes : List UInt8} :
    messageBytes toBytes msg = .ok bytes ↔
      ∃ payload, toBytes msg = .ok payload ∧ bytes = frame payload := by
  unfold messageBytes
  cases toBytes msg with
  | error e => simp [Except.mapError, Except.map]
  | ok payload => simp [Except.mapError, Except.map, eq_comm]

/-- The stream is the frames of the messages that were sent. -/
theorem writeMessages_frames (msgs : List Message) :
    ∃ payloads, (writeMessages toBytes msgs).1 = payloads.flatMap frame ∧
      List.Forall₂ (fun payload msg => toBytes msg = .ok payload) payloads
        (writeMessages toBytes msgs).2 := by
  induction msgs with
  | nil => exact ⟨[], rfl, .nil⟩
  | cons msg msgs ih =>
      obtain ⟨payloads, hout, hsent⟩ := ih
      rw [writeMessages]
      cases hbytes : messageBytes toBytes msg with
      | error e => exact ⟨payloads, hout, hsent⟩
      | ok bytes =>
          obtain ⟨payload, hpayload, rfl⟩ := messageBytes_eq_ok.mp hbytes
          refine ⟨payload :: payloads, ?_, .cons hpayload hsent⟩
          rw [List.flatMap_cons, ← hout]

theorem sent_writeMessages {msgs : List Message}
    (h : ∀ msg ∈ msgs, ∃ bytes, messageBytes toBytes msg = .ok bytes) :
    (writeMessages toBytes msgs).2 = msgs := by
  induction msgs with
  | nil => rfl
  | cons msg msgs ih =>
      obtain ⟨⟨bytes, hbytes⟩, hrest⟩ := List.forall_mem_cons.mp h
      rw [writeMessages, hbytes]
      exact congrArg (msg :: ·) (ih hrest)

end

/-! ## Frames on a stream -/

section
variable {fromBytes : FromBytes} {io : ReadIo}

theorem readMessage_of_len_error {e : ServerError} (h : io.len.result = .error e) :
    readMessage fromBytes io = .error e := by
  rw [readMessage, h]
  rfl

theorem readMessage_of_len {len : UInt16} (h : io.len = some (.ok len)) (hne : len ≠ 0) :
    readMessage fromBytes io = (io.body len.toNat).result >>= fun buf =>
      ((fromBytes buf).mapError .dns).map some := by
  rw [readMessage, h]
  exact if_neg hne

end

/-- `payload` is a complete body that decodes to `msg`. -/
structure Carries (fromBytes : FromBytes) (payload : List UInt8) (msg : Message) : Prop where
  nonempty : payload ≠ []
  fits : payload.length < 65536
  decodes : fromBytes payload = .ok msg

namespace ByteStream

section
variable {fromBytes : FromBytes} {payload rest : List UInt8} {ending : Option Str}

theorem bodyLength_frame (hfits : payload.length < 65536) (rest : List UInt8)
    (ending : Option Str) :
    (ByteStream.mk (frame payload ++ rest) ending).bodyLength.toNat = payload.length := by
  rw [bodyLength, take_two_frame_append, u16OfBytes_u16Bytes, UInt16.ofNat_toNat]
  exact UInt16.toNat_ofNat_of_lt' hfits

/-- A whole frame is read, and the rest is left. -/
theorem next_frame (hne : payload ≠ []) (hfits : payload.length < 65536) :
    (ByteStream.mk (frame payload ++ rest) ending).next fromBytes =
      (((fromBytes payload).mapError .dns).map some, ⟨rest, ending⟩) := by
  have hlen := bodyLength_frame hfits rest ending
  have hpos : 0 < payload.length := List.length_pos_iff.mpr hne
  let s : ByteStream := ⟨frame payload ++ rest, ending⟩
  have hu16 : s.readU16 = some (.ok s.bodyLength) := if_pos (by simp [s]; omega)
  have hzero : s.bodyLength ≠ 0 := by
    intro h
    rw [h] at hlen
    exact absurd hlen (Nat.ne_of_lt hpos)
  have hbody : (s.drop 2).readExact s.bodyLength.toNat = some (.ok payload) := by
    rw [hlen, readExact, drop, drop_two_frame_append, if_pos (by simp), List.take_left]
  apply Prod.ext
  · show readMessage fromBytes s.readIo = _
    rw [readMessage_of_len hu16 hzero]
    show Awaited.result ((s.drop 2).readExact s.bodyLength.toNat) >>= _ = _
    rw [hbody]
    rfl
  · show s.drop (2 + s.bodyLength.toNat) = _
    rw [hlen, drop, drop_frame_append]

theorem next_carries {msg : Message} (h : Carries fromBytes payload msg) (rest : List UInt8)
    (ending : Option Str) :
    (ByteStream.mk (frame payload ++ rest) ending).next fromBytes =
      (.ok (some msg), ⟨rest, ending⟩) := by
  rw [next_frame h.nonempty h.fits, h.decodes]
  rfl

/-- What is read was there as a frame. -/
theorem carries_of_next {s s' : ByteStream} {msg : Message}
    (h : s.next fromBytes = (.ok (some msg), s')) :
    ∃ payload, Carries fromBytes payload msg ∧ s.bytes = frame payload ++ s'.bytes := by
  have hthere : ∀ {α : Type} {p : Prop} [Decidable p] {x a : α},
      Awaited.result (if p then some (.ok x) else s.ending.map .error) = .ok a → p ∧ x = a := by
    intro α p _ x a h
    by_cases hp : p
    · rw [if_pos hp] at h
      cases h
      exact ⟨hp, rfl⟩
    · rw [if_neg hp] at h
      cases hending : s.ending <;> (rw [hending] at h; cases h)
  have hread : readMessage fromBytes s.readIo = .ok (some msg) := congrArg Prod.fst h
  have hdrop : s.drop (2 + s.bodyLength.toNat) = s' := congrArg Prod.snd h
  obtain ⟨len, hlen, hread⟩ := bind_eq_ok.mp hread
  split at hread
  · cases hread
  · rename_i hzero
    obtain ⟨payload, hbody, hread⟩ := bind_eq_ok.mp hread
    have hmsg : fromBytes payload = .ok msg := by
      cases hdecode : fromBytes payload with
      | error e =>
          rw [hdecode] at hread
          cases hread
      | ok msg' =>
          rw [hdecode] at hread
          cases hread
          rfl
    obtain ⟨htwo, rfl⟩ := hthere hlen
    obtain ⟨hfits, rfl⟩ : s.bodyLength.toNat ≤ (s.bytes.drop 2).length ∧ _ = payload :=
      hthere hbody
    have hlength : ((s.bytes.drop 2).take s.bodyLength.toNat).length = s.bodyLength.toNat :=
      List.length_take_of_le hfits
    have hpos : 0 < s.bodyLength.toNat :=
      Nat.pos_of_ne_zero fun hz => hzero (UInt16.toNat_inj.mp hz)
    refine ⟨_, ⟨List.ne_nil_of_length_pos ?_, ?_, hmsg⟩, ?_⟩
    · rw [drop, hlength]
      exact hpos
    · rw [drop, hlength]
      exact s.bodyLength.toNat_lt
    · have hprefix : u16Bytes s.bodyLength = s.bytes.take 2 :=
        u16Bytes_u16OfBytes (List.length_take_of_le htwo)
      rw [← hdrop, frame, drop, hlength, UInt16.ofNat_toNat, hprefix, drop, ← List.drop_drop,
        List.append_assoc, List.take_append_drop, List.take_append_drop]

variable (fromBytes) in
/-- A frame that is not whole is an error. -/
theorem next_of_wanted {s : ByteStream} (h : wanted s.bytes ≠ 0) :
    ∃ e, (s.next fromBytes).1 = .error e := by
  have hended : ∀ {α : Type}, ∃ e, Awaited.result (s.ending.map Except.error : Awaited α) =
      .error e := by
    intro α
    cases s.ending with
    | none => exact ⟨_, rfl⟩
    | some e => exact ⟨_, rfl⟩
  have hlen : s.bodyLength.toNat = u16OfBytes (s.bytes.take 2) :=
    UInt16.toNat_ofNat_of_lt' (u16OfBytes_lt (List.length_take_le _ _))
  by_cases hshort : s.bytes.length < 2
  · have hu16 : s.readU16 = s.ending.map .error := if_neg (Nat.not_le.mpr hshort)
    obtain ⟨e, he⟩ := hended (α := UInt16)
    rw [← hu16] at he
    exact ⟨e, readMessage_of_len_error he⟩
  · have hu16 : s.readU16 = some (.ok s.bodyLength) := if_pos (Nat.le_of_not_lt hshort)
    rw [wanted, if_neg hshort] at h
    have hzero : s.bodyLength ≠ 0 := by
      intro hzero
      rw [hzero] at hlen
      have hz : (0 : UInt16).toNat = 0 := rfl
      omega
    have hbody : (s.drop 2).readExact s.bodyLength.toNat = s.ending.map .error := by
      apply if_neg
      simp only [drop, List.length_drop]
      omega
    obtain ⟨e, he⟩ := hended (α := List UInt8)
    rw [← hbody] at he
    refine ⟨e, ?_⟩
    show readMessage fromBytes s.readIo = .error e
    rw [readMessage_of_len hu16 hzero]
    show Awaited.result ((s.drop 2).readExact s.bodyLength.toNat) >>= _ = _
    rw [he]
    rfl

/-- Any number of whole frames. -/
theorem readMessages_frames {payloads : List (List UInt8)} {msgs : List Message}
    (h : List.Forall₂ (Carries fromBytes) payloads msgs) :
    readMessages fromBytes msgs.length ⟨payloads.flatMap frame ++ rest, ending⟩ =
      (msgs.map fun msg => .ok (some msg), ⟨rest, ending⟩) := by
  induction h with
  | nil => rfl
  | @cons payload msg payloads msgs hcarries _ ih =>
      rw [List.flatMap_cons, List.append_assoc, List.length_cons, readMessages,
        next_carries hcarries]
      simp only [ih]
      rfl

end

end ByteStream

/-- **The framing round trip.** Where the encoder fails or yields between
12 and 65535 bytes that the decoder takes back: for every list of messages
written one after another and every trailing bytes, as many calls of
`read_message` give back exactly the messages whose write succeeded, all of
them where every write did, and leave exactly the trailing bytes unread;
and a frame that is cut short is an error. -/
theorem framing_round_trip (toBytes : ToBytes) (fromBytes : FromBytes)
    (hlen : ∀ msg payload, toBytes msg = .ok payload →
      12 ≤ payload.length ∧ payload.length ≤ 65535)
    (hinv : ∀ msg payload, toBytes msg = .ok payload → fromBytes payload = .ok msg) :
    (∀ msgs trailing ending,
      let out := (writeMessages toBytes msgs).1
      let sent := (writeMessages toBytes msgs).2
      (ByteStream.mk (out ++ trailing) ending).readMessages fromBytes sent.length =
          (sent.map fun msg => .ok (some msg), ⟨trailing, ending⟩) ∧
        ((∀ msg ∈ msgs, ∃ bytes, messageBytes toBytes msg = .ok bytes) → sent = msgs)) ∧
    ∀ msg bytes part ending, messageBytes toBytes msg = .ok bytes → part <+: bytes →
      part ≠ bytes → ∃ e, ((ByteStream.mk part ending).next fromBytes).1 = .error e := by
  -- a message that can be written is one that can be read back
  have hcarries : ∀ {payload msg}, toBytes msg = .ok payload →
      Carries fromBytes payload msg := by
    intro payload msg h
    obtain ⟨hmin, hmax⟩ := hlen msg payload h
    exact ⟨List.ne_nil_of_length_pos (by omega), by omega, hinv msg payload h⟩
  constructor
  · intro msgs trailing ending out sent
    obtain ⟨payloads, hout, hsent⟩ : ∃ payloads, out = payloads.flatMap frame ∧
        List.Forall₂ (fun payload msg => toBytes msg = .ok payload) payloads sent :=
      writeMessages_frames msgs
    refine ⟨?_, sent_writeMessages⟩
    rw [hout]
    exact ByteStream.readMessages_frames (hsent.imp fun _ _ h => hcarries h)
  · intro msg bytes part ending hbytes hpart hne
    obtain ⟨payload, hpayload, rfl⟩ := messageBytes_eq_ok.mp hbytes
    -- part of a frame leaves the reader wanting more
    apply ByteStream.next_of_wanted
    intro hzero
    exact hne ((wanted_eq_zero (hcarries hpayload).fits hpart).mp hzero)

/-! A codec for messages of nothing but their ID: the header as it is sent. -/

/-- A DNS header with nothing but an ID. -/
def idBytes (id : UInt16) : List UInt8 := u16Bytes id ++ List.replicate 10 0

def idToBytes : ToBytes := fun msg =>
  if msg = { id := msg.id } then .ok (idBytes msg.id) else .error "more than a header".toList

/-- The decoder: of any message its ID. -/
def idFromBytes : FromBytes := fun bytes =>
  if bytes.length < 12 then .error "unexpected end of input".toList
  else .ok { id := UInt16.ofNat (u16OfBytes (bytes.take 2)) }

theorem toBytes_id {msg : Message} {payload : List UInt8}
    (h : idToBytes msg = .ok payload) :
    msg = { id := msg.id } ∧ payload = idBytes msg.id := by
  unfold idToBytes at h
  split at h
  · rename_i hmsg
    cases h
    exact ⟨hmsg, rfl⟩
  · cases h

theorem fromBytes_id (id : UInt16) : idFromBytes (idBytes id) = .ok { id } := by
  have htake : (idBytes id).take 2 = u16Bytes id := rfl
  have hlen : ¬ (idBytes id).length < 12 := by simp [idBytes, u16Bytes]
  rw [idFromBytes, if_neg hlen, htake, u16OfBytes_u16Bytes, UInt16.ofNat_toNat]

/-- Two headers, and the first byte of something else. -/
theorem framing_round_trip_headers :
    let msgs : List Message := [{ id := 7 }, { id := 258 }]
    let out := (writeMessages idToBytes msgs).1
    (ByteStream.mk (out ++ [1]) none).readMessages idFromBytes 2 =
      ([.ok (some { id := 7 }), .ok (some { id := 258 })], ⟨[1], none⟩) := by
  intro msgs out
  have htrip := framing_round_trip idToBytes idFromBytes
    (by
      intro msg payload h
      rw [(toBytes_id h).2]
      simp [idBytes, u16Bytes])
    (by
      intro msg payload h
      obtain ⟨hmsg, rfl⟩ := toBytes_id h
      rw [fromBytes_id, ← hmsg])
  exact (htrip.1 msgs [1] none).1

end Dotdns
