import Dotdns.Server.Framing

/-!
# Server — one DoT connection

`handle_connection`: the handshake, and then query after query until the
stream gives no further one. The loop knows three ways to go on from
`read_message`: a query, the end, or an error that is counted as a read
failure. The end is a length of zero; a client that simply closes its
stream is an error like any other.

The headline says what becomes of an orderly client, and that its close is
counted against it every time.
-/

namespace Dotdns

open Lib

/-- The other side of a DoT connection, and what its queries resolve to. -/
structure DotConnection where
  handshake : Awaited Unit
  incoming : ByteStream
  /-- What `resolve_with_context` returns for the `k`th query. -/
  resolve : Nat → Message → Message
  /-- The outcome of the `k`th write. -/
  write : Nat → WriteIo

/-- What `handle_connection` records in the counters itself. -/
inductive ConnectionNote where
  | tlsHandshakeSuccess
  | tlsHandshakeFailure
  | dnsReadFailure
  | dnsWriteFailure
  deriving DecidableEq, Repr

/-- The counter of the note. -/
def ConnectionNote.record : ConnectionNote → Metrics → Metrics
  | tlsHandshakeSuccess, m => m.recordTlsHandshakeSuccess
  | tlsHandshakeFailure, m => m.recordTlsHandshakeFailure
  | dnsReadFailure, m => m.recordDnsReadFailure
  | dnsWriteFailure, m => m.recordDnsWriteFailure

/-- Ghost: the queries read, the frames written and the records made, each
in order. -/
structure Served where
  reads : List Message := []
  written : List (List UInt8) := []
  notes : List ConnectionNote := []
  deriving DecidableEq, Repr

namespace Served

/-- One more query is read. -/
def read (query : Message) (out : Served) : Served := { out with reads := query :: out.reads }

/-- One more frame is out, if it is. -/
def wrote (bytes : Option (List UInt8)) (out : Served) : Served :=
  { out with written := bytes.toList ++ out.written }

/-- One more record is made. -/
def noted (note : ConnectionNote) (out : Served) : Served := { out with notes := note :: out.notes }

/-- What the records do to the counters. -/
def record (out : Served) (m : Metrics) : Metrics := out.notes.foldl (fun m note => note.record m) m

end Served

section
variable (toBytes : ToBytes) (fromBytes : FromBytes)

theorem ByteStream.next_shorter {s s' : ByteStream} {query : Message}
    (h : s.next fromBytes = (.ok (some query), s')) : s'.bytes.length < s.bytes.length := by
  have hne : s.bytes ≠ [] := by
    intro hnil
    have hwanted : wanted s.bytes ≠ 0 := by
      rw [hnil]
      decide
    obtain ⟨e, he⟩ := next_of_wanted fromBytes hwanted
    rw [h] at he
    cases he
  have hpos := List.length_pos_iff.mpr hne
  have hdrop : s.drop (2 + s.bodyLength.toNat) = s' := congrArg Prod.snd h
  rw [← hdrop, drop, List.length_drop]
  omega

/-- The loop, before its `k`th read. -/
def connectionLoop (conn : DotConnection) (k : Nat) (s : ByteStream) : Served :=
  match _h : s.next fromBytes with
  | (.ok (some query), rest) =>
      let response := conn.resolve k query
      match writeMessage toBytes (conn.write k) response with
      | .ok () =>
          ((connectionLoop conn (k + 1) rest).wrote (messageBytes toBytes response).toOption).read
            query
      | .error _ => { reads := [query], notes := [.dnsWriteFailure] }
  -- a length of zero
  | (.ok none, _) => {}
  -- a close of the stream is here too
  | (.error _, _) => { notes := [.dnsReadFailure] }
termination_by s.bytes.length
decreasing_by exact ByteStream.next_shorter fromBytes ‹_›

/-- `handle_connection`, from the handshake on. -/
def handleConnection (conn : DotConnection) : Except ServerError Unit × Served :=
  match conn.handshake with
  | some (.ok ()) =>
      (.ok (), (connectionLoop toBytes fromBytes conn 0 conn.incoming).noted .tlsHandshakeSuccess)
  | some (.error e) => (.error (.tls e), { notes := [.tlsHandshakeFailure] })
  | none => (.error .timeout, { notes := [.tlsHandshakeFailure] })

end

section
variable {toBytes : ToBytes} {fromBytes : FromBytes} {conn : DotConnection} {k : Nat}
  {s rest : ByteStream} {query : Message}

/-- One round of the loop, without the proof that it ends. -/
theorem connectionLoop_eq (conn : DotConnection) (k : Nat) (s : ByteStream) :
    connectionLoop toBytes fromBytes conn k s =
      match s.next fromBytes with
      | (.ok (some query), rest) =>
          match writeMessage toBytes (conn.write k) (conn.resolve k query) with
          | .ok () =>
              ((connectionLoop toBytes fromBytes conn (k + 1) rest).wrote
                (messageBytes toBytes (conn.resolve k query)).toOption).read query
          | .error _ => { reads := [query], notes := [.dnsWriteFailure] }
      | (.ok none, _) => {}
      | (.error _, _) => { notes := [.dnsReadFailure] } := by
  rw [connectionLoop]
  split <;> rename_i h <;> rw [h]

theorem connectionLoop_wrote (h : s.next fromBytes = (.ok (some query), rest))
    (hw : writeMessage toBytes (conn.write k) (conn.resolve k query) = .ok ()) :
    connectionLoop toBytes fromBytes conn k s =
      ((connectionLoop toBytes fromBytes conn (k + 1) rest).wrote
        (messageBytes toBytes (conn.resolve k query)).toOption).read query := by
  rw [connectionLoop_eq, h]
  simp only [hw]

theorem connectionLoop_write_failed {e : ServerError}
    (h : s.next fromBytes = (.ok (some query), rest))
    (hw : writeMessage toBytes (conn.write k) (conn.resolve k query) = .error e) :
    connectionLoop toBytes fromBytes conn k s =
      { reads := [query], notes := [.dnsWriteFailure] } := by
  rw [connectionLoop_eq, h]
  simp only [hw]

theorem connectionLoop_read_failed {e : ServerError} (h : (s.next fromBytes).1 = .error e) :
    connectionLoop toBytes fromBytes conn k s = { notes := [.dnsReadFailure] } := by
  have hnext : s.next fromBytes = (.error e, (s.next fromBytes).2) := Prod.ext h rfl
  rw [connectionLoop_eq, hnext]

theorem connectionLoop_ended (h : s.next fromBytes = (.ok none, rest)) :
    connectionLoop toBytes fromBytes conn k s = {} := by
  rw [connectionLoop_eq, h]

end

/-! ## The task does what the function says -/

namespace ConnectionTasks

section
variable {toBytes : ToBytes} {fromBytes : FromBytes} {s : ConnectionTasks} {i n : Nat}
  {l : Listener}

theorem setTask_setTask (t t' : ConnectionTask) (m m' : Metrics) :
    (s.setTask i t m).setTask i t' m' = s.setTask i t' m' := by
  simp only [setTask, List.set_set]

/-- From a read to the next: the query resolves to `response`, and the write
succeeds. -/
theorem run_query (toBytes : ToBytes) {io : ReadIo} {query : Message}
    (hi : s.tasks[i]? = some ⟨l, .reading, n⟩)
    (hread : readMessage fromBytes io = .ok (some query)) (response : Message) (write : WriteIo) :
    run (step toBytes fromBytes) s [.read i io, .resolved i response, .write i write] =
      match writeMessage toBytes write response with
      | .ok () => some (s.setTask i ⟨l, .reading, n⟩ s.metrics)
      | .error _ => some (s.setTask i ⟨l, .closing, n⟩ s.metrics.recordDnsWriteFailure) := by
  have hget : ∀ (t : ConnectionTask) (m : Metrics), (s.setTask i t m).tasks[i]? = some t :=
    fun t m => getElem?_set_of_some hi t
  have h₁ : s.step toBytes fromBytes (.read i io) =
      some (s.setTask i ⟨l, .resolving query, n⟩ s.metrics) := by
    simp only [step, hi, hread]
  have h₂ : (s.setTask i ⟨l, .resolving query, n⟩ s.metrics).step toBytes fromBytes
      (.resolved i response) = some (s.setTask i ⟨l, .writing response, n⟩ s.metrics) := by
    simp only [step, hget, setTask_setTask]
    rfl
  rw [run_cons, h₁, Option.bind_some, run_cons, h₂, Option.bind_some, run_cons]
  simp only [step, hget, setTask_setTask]
  cases writeMessage toBytes write response <;> rfl

variable (toBytes fromBytes) in
/-- A DoT task that is left alone from a read on. -/
theorem run_connectionLoop (conn : DotConnection) (k : Nat) (stream : ByteStream)
    (s : ConnectionTasks) (hi : s.tasks[i]? = some ⟨.dot, .reading, n⟩) :
    ∃ es, run (step toBytes fromBytes) s es = some (s.setTask i ⟨.dot, .closing, n⟩
      ((connectionLoop toBytes fromBytes conn k stream).record s.metrics)) := by
  induction k, stream using connectionLoop.induct toBytes fromBytes conn generalizing s with
  | case1 k stream query rest hnext response hw ih =>
      have hquery := run_query toBytes hi (congrArg Prod.fst hnext) response (conn.write k)
      rw [hw] at hquery
      obtain ⟨es, hes⟩ := ih (s.setTask i ⟨.dot, .reading, n⟩ s.metrics)
        (getElem?_set_of_some hi _)
      refine ⟨[.read i stream.readIo, .resolved i response, .write i (conn.write k)] ++ es, ?_⟩
      rw [run_append, hquery, Option.bind_some, hes, connectionLoop_wrote hnext hw, setTask_setTask]
      rfl
  | case2 k stream query rest hnext response e hw =>
      have hquery := run_query toBytes hi (congrArg Prod.fst hnext) response (conn.write k)
      rw [hw] at hquery
      refine ⟨_, hquery.trans ?_⟩
      rw [connectionLoop_write_failed hnext hw]
      rfl
  | case3 k stream rest hnext =>
      have hread : readMessage fromBytes stream.readIo = .ok none := congrArg Prod.fst hnext
      refine ⟨[.read i stream.readIo], ?_⟩
      rw [connectionLoop_ended hnext, run_cons]
      simp only [step, hi, hread]
      rfl
  | case4 k stream e rest hnext =>
      have hread : readMessage fromBytes stream.readIo = .error e := congrArg Prod.fst hnext
      refine ⟨[.read i stream.readIo], ?_⟩
      rw [connectionLoop_read_failed (congrArg Prod.fst hnext), run_cons]
      simp only [step, hi, hread]
      rfl

/-- A DoT task that is left alone from its handshake to its close. -/
theorem run_handleConnection (conn : DotConnection)
    (hi : s.tasks[i]? = some ⟨.dot, .handshake, n⟩) :
    ∃ es, run (step toBytes fromBytes) s es = some (s.setTask i ⟨.dot, .closing, n⟩
      ((handleConnection toBytes fromBytes conn).2.record s.metrics)) := by
  cases hshake : conn.handshake with
  | none =>
      refine ⟨[.handshake i none], ?_⟩
      rw [handleConnection, hshake, run_cons]
      simp only [step, hi]
      rfl
  | some outcome =>
      cases outcome with
      | error e =>
          refine ⟨[.handshake i (some (.error e))], ?_⟩
          rw [handleConnection, hshake, run_cons]
          simp only [step, hi]
          rfl
      | ok done =>
          have hstep : s.step toBytes fromBytes (.handshake i (some (.ok ()))) =
              some (s.setTask i ⟨.dot, .reading, n⟩ s.metrics.recordTlsHandshakeSuccess) := by
            simp only [step, hi]
          obtain ⟨es, hes⟩ := run_connectionLoop toBytes fromBytes conn 0 conn.incoming
            (s.setTask i ⟨.dot, .reading, n⟩ s.metrics.recordTlsHandshakeSuccess)
            (getElem?_set_of_some hi _)
          refine ⟨.handshake i (some (.ok ())) :: es, ?_⟩
          rw [run_cons, hstep, Option.bind_some, hes, handleConnection, hshake, setTask_setTask]
          rfl

end

end ConnectionTasks

/-! ## An orderly client -/

namespace DotConnection

/-- What the queries resolve to, from the `k`th on. -/
def responses (conn : DotConnection) : Nat → List Message → List Message
  | _, [] => []
  | k, query :: queries => conn.resolve k query :: conn.responses (k + 1) queries

/-- Every response can be encoded, and its write succeeds. -/
def Delivers (toBytes : ToBytes) (conn : DotConnection) : Nat → List Message → Prop
  | _, [] => True
  | k, query :: queries =>
      writeMessage toBytes (conn.write k) (conn.resolve k query) = .ok () ∧
        conn.Delivers toBytes (k + 1) queries

end DotConnection

/-- Every query is read, every response is one frame, and no read failure
is counted. -/
structure ServesAll (toBytes : ToBytes) (conn : DotConnection) (queries : List Message)
    (out : Served) : Prop where
  reads : out.reads = queries
  written : List.Forall₂ (fun response bytes => messageBytes toBytes response = .ok bytes)
    (conn.responses 0 queries) out.written
  uncounted : ∀ m : Metrics, (out.record m).dnsReadFailures = m.dnsReadFailures

section
variable {toBytes : ToBytes} {fromBytes : FromBytes} {conn : DotConnection} {eof : Str}
  {payloads : List (List UInt8)} {queries : List Message}

theorem messageBytes_of_written {io : WriteIo} {msg : Message}
    (h : writeMessage toBytes io msg = .ok ()) :
    ∃ bytes, messageBytes toBytes msg = .ok bytes := by
  rw [writeMessage_eq] at h
  cases hbytes : messageBytes toBytes msg with
  | ok bytes => exact ⟨bytes, rfl⟩
  | error e =>
      rw [hbytes] at h
      cases h

/-- Behind the last frame there is no length to read. -/
theorem connectionLoop_closed (k : Nat) :
    connectionLoop toBytes fromBytes conn k ⟨[], some eof⟩ = { notes := [.dnsReadFailure] } := by
  have hwanted : wanted (ByteStream.mk [] (some eof)).bytes ≠ 0 := by
    show wanted [] ≠ 0
    decide
  obtain ⟨e, he⟩ := ByteStream.next_of_wanted fromBytes hwanted
  exact connectionLoop_read_failed he

/-- The loop over whole frames: where every write succeeds, it is stopped
by the close. -/
theorem connectionLoop_frames (h : List.Forall₂ (Carries fromBytes) payloads queries) (eof : Str)
    (k : Nat) (hdelivers : conn.Delivers toBytes k queries) :
    let out := connectionLoop toBytes fromBytes conn k ⟨payloads.flatMap frame, some eof⟩
    out.reads = queries ∧
    List.Forall₂ (fun response bytes => messageBytes toBytes response = .ok bytes)
      (conn.responses k queries) out.written ∧
    out.notes = [.dnsReadFailure] := by
  -- induction on the frames; the number of the next read goes with them
  induction h generalizing k with
  | nil =>
      rw [List.flatMap_nil, connectionLoop_closed]
      exact ⟨rfl, .nil, rfl⟩
  | @cons payload query payloads queries hcarries _ ih =>
      obtain ⟨hwrite, hdelivers⟩ := hdelivers
      obtain ⟨bytes, hbytes⟩ := messageBytes_of_written hwrite
      obtain ⟨hreads, hwritten, hnotes⟩ := ih (k + 1) hdelivers
      have hnext := ByteStream.next_carries hcarries (payloads.flatMap frame) (some eof)
      rw [List.flatMap_cons, connectionLoop_wrote hnext hwrite, hbytes]
      exact ⟨congrArg (query :: ·) hreads, .cons hbytes hwritten, hnotes⟩

/-- Where some write fails, it is stopped there. -/
theorem connectionLoop_undelivered (h : List.Forall₂ (Carries fromBytes) payloads queries)
    (eof : Str) (k : Nat) (hdelivers : ¬ conn.Delivers toBytes k queries) :
    (connectionLoop toBytes fromBytes conn k ⟨payloads.flatMap frame, some eof⟩).written.length <
      queries.length := by
  induction h generalizing k with
  | nil => exact absurd trivial hdelivers
  | @cons payload query payloads queries hcarries _ ih =>
      have hnext := ByteStream.next_carries hcarries (payloads.flatMap frame) (some eof)
      rw [List.flatMap_cons]
      cases hwrite : writeMessage toBytes (conn.write k) (conn.resolve k query) with
      | error e =>
          rw [connectionLoop_write_failed hnext hwrite]
          exact Nat.succ_pos _
      | ok done =>
          obtain ⟨bytes, hbytes⟩ := messageBytes_of_written hwrite
          have hlt := ih (k + 1) fun hrest => hdelivers ⟨hwrite, hrest⟩
          rw [connectionLoop_wrote hnext hwrite, hbytes]
          exact Nat.succ_lt_succ hlt

theorem length_responses (k : Nat) (queries : List Message) :
    (conn.responses k queries).length = queries.length := by
  induction queries generalizing k with
  | nil => rfl
  | cons query queries ih => exact congrArg (· + 1) (ih (k + 1))

/-- An orderly client whose every response is delivered: its close is a
read failure. -/
theorem handleConnection_frames (hshake : conn.handshake = some (.ok ()))
    (hcarries : List.Forall₂ (Carries fromBytes) payloads queries)
    (hincoming : conn.incoming = ⟨payloads.flatMap frame, some eof⟩)
    (hdelivers : conn.Delivers toBytes 0 queries) :
    let out := (handleConnection toBytes fromBytes conn).2
    out.reads = queries ∧
    List.Forall₂ (fun response bytes => messageBytes toBytes response = .ok bytes)
      (conn.responses 0 queries) out.written ∧
    out.notes = [.tlsHandshakeSuccess, .dnsReadFailure] := by
  obtain ⟨hreads, hwritten, hnotes⟩ := connectionLoop_frames hcarries eof 0 hdelivers
  rw [handleConnection, hshake, hincoming]
  exact ⟨hreads, hwritten, congrArg (ConnectionNote.tlsHandshakeSuccess :: ·) hnotes⟩

/-- The counter that the close moves. -/
theorem Served.record_closed {out : Served} (m : Metrics)
    (h : out.notes = [.tlsHandshakeSuccess, .dnsReadFailure]) :
    (out.record m).dnsReadFailures = m.dnsReadFailures + 1 := by
  rw [Served.record, h]
  rfl

end

/-- **Every orderly close is counted.** A client completes the handshake,
sends any number of complete queries and closes its stream behind the last
one. Where every response is delivered, all queries are read and every
response is one frame, in order, and one read failure is counted; so no
such connection is served without a read failure. -/
theorem orderly_close_counted (toBytes : ToBytes) (fromBytes : FromBytes) (conn : DotConnection)
    (payloads : List (List UInt8)) (queries : List Message) (eof : Str)
    (hshake : conn.handshake = some (.ok ()))
    (hcarries : List.Forall₂ (Carries fromBytes) payloads queries)
    (hincoming : conn.incoming = ⟨payloads.flatMap frame, some eof⟩) :
    let out := (handleConnection toBytes fromBytes conn).2
    ¬ ServesAll toBytes conn queries out ∧
    (conn.Delivers toBytes 0 queries →
      out.reads = queries ∧
      List.Forall₂ (fun response bytes => messageBytes toBytes response = .ok bytes)
        (conn.responses 0 queries) out.written ∧
      ∀ m : Metrics, (out.record m).dnsReadFailures = m.dnsReadFailures + 1) := by
  intro out
  constructor
  · intro hserves
    by_cases hdelivers : conn.Delivers toBytes 0 queries
    -- all is served, so the close itself has been counted
    · obtain ⟨_, _, hnotes⟩ := handleConnection_frames hshake hcarries hincoming hdelivers
      have hsame := hserves.uncounted {}
      rw [Served.record_closed {} hnotes] at hsame
      exact absurd hsame (by decide)
    -- something was not delivered, so fewer answers are out than queries came in
    · have hlt := connectionLoop_undelivered hcarries eof 0 hdelivers
      have hlen := hserves.written.length_eq
      have hwritten : out.written =
          (connectionLoop toBytes fromBytes conn 0 ⟨payloads.flatMap frame, some eof⟩).written := by
        simp only [out, handleConnection, hshake, hincoming]
        rfl
      rw [length_responses, hwritten] at hlen
      omega
  · intro hdelivers
    obtain ⟨hreads, hwritten, hnotes⟩ :=
      handleConnection_frames hshake hcarries hincoming hdelivers
    exact ⟨hreads, hwritten, fun m => Served.record_closed m hnotes⟩

/-- A client that sends headers with these IDs and closes; each is answered
with itself. -/
def echoConnection (ids : List UInt16) : DotConnection where
  handshake := some (.ok ())
  incoming := ⟨(ids.map idBytes).flatMap frame, some "unexpected end of file".toList⟩
  resolve _ query := query
  write _ _ := some (.ok ())

theorem carries_idBytes (id : UInt16) : Carries idFromBytes (idBytes id) { id } where
  nonempty := by simp [idBytes, u16Bytes]
  fits := by simp [idBytes, u16Bytes]
  decodes := fromBytes_id id

/-- Two queries, and the close. -/
theorem orderly_close_counted_echo :
    let out := (handleConnection idToBytes idFromBytes (echoConnection [7, 258])).2
    out.reads = [{ id := 7 }, { id := 258 }] ∧ (out.record {}).dnsReadFailures = 1 := by
  intro out
  have hcounted := (orderly_close_counted idToBytes idFromBytes (echoConnection [7, 258]) _
    [{ id := 7 }, { id := 258 }] _ rfl
    (.cons (carries_idBytes 7) (.cons (carries_idBytes 258) .nil)) rfl).2
    ⟨rfl, rfl, trivial⟩
  exact ⟨hcounted.1, hcounted.2.2 {}⟩

/-- One query that is read and answered, and one read failure. -/
theorem orderly_close_is_read_failure :
    let conn := echoConnection [7]
    let out := (handleConnection idToBytes idFromBytes conn).2
    conn.incoming.bytes = frame (idBytes 7) ∧ out.reads = [{ id := 7 }] ∧
      out.written = [frame (idBytes 7)] ∧ (out.record {}).dnsReadFailures = 1 ∧
      ¬ ServesAll idToBytes conn [{ id := 7 }] out := by
  intro conn out
  have hcarries : List.Forall₂ (Carries idFromBytes) [idBytes 7] [{ id := 7 }] :=
    .cons (carries_idBytes 7) .nil
  have hdelivers : conn.Delivers idToBytes 0 [{ id := 7 }] := ⟨rfl, trivial⟩
  obtain ⟨hreads, hwritten, hnotes⟩ := handleConnection_frames rfl hcarries rfl hdelivers
  have hcounted : (out.record {}).dnsReadFailures = 1 := Served.record_closed {} hnotes
  refine ⟨rfl, hreads, ?_, hcounted, ?_⟩
  · obtain ⟨bytes, rest, hbytes, hrest, hout⟩ := List.forall₂_cons_left_iff.mp hwritten
    cases hrest
    cases hbytes
    exact hout
  · intro hserves
    have hsame := hserves.uncounted {}
    rw [hcounted] at hsame
    cases hsame

end Dotdns
