import Dotdns.Doh
import Dotdns.Server.Framing
import Dotdns.Server.Resolve

/-!
# Clients — the connections of both servers over one resolver

What arrives at the resolver comes from the connection tasks, and what it
returns goes back to them. A DoT task reads frames as their bytes come in,
has one query at a time resolved, and writes the answer before it reads on;
an HTTP connection has one request at a time in service. Here the tasks run
together with the resolver: a query arrives there because a task has read
it, and a task goes on with what its call has come to.

The counters that the tasks move are apart from the resolver's, as in the
source no counter is moved by both.
-/

namespace Dotdns

open Lib

/-- A connection task's peer, and what has passed between the two. -/
structure Session where
  peer : IpAddr
  /-- Ghost: all that has come in. -/
  received : List UInt8 := []
  /-- What of it has not been read. -/
  input : List UInt8 := []
  output : List UInt8 := []
  /-- The resolve call that the task awaits. -/
  call : Option Nat := none
  /-- The HTTP request it is for. -/
  request : Option DohRequest := none
  /-- Ghost: the HTTP requests and what they were answered. -/
  exchanges : List (DohRequest × DohResponse) := []

/-- Both servers' connections over one resolver. -/
structure ClientsState where
  resolver : ResolverState
  tasks : ConnectionTasks
  sessions : List Session
  /-- Ghost: the task that made the `k`-th resolve call. -/
  owners : List Nat

/-- What the connections do, one await at a time. -/
inductive ClientsEvent where
  | accept (l : Listener) (peer : IpAddr)
  /-- More bytes come in. -/
  | receive (i : Nat) (bytes : List UInt8)
  /-- `read_message`; `ending` is what it gets for bytes that are missing. -/
  | read (i : Nat) (ending : Option Str)
  /-- `resolve_with_context` returns to DoT task `i`. -/
  | resolved (i : Nat)
  /-- `write_message`; of a write that fails, `sent` bytes go out. -/
  | write (i : Nat) (outcome : Awaited Unit) (sent : Nat)
  /-- A request comes in on HTTP connection `i`, none being in service. -/
  | request (i : Nat) (req : DohRequest)
  /-- `doh_resolve` returns, and the handler with it. -/
  | respond (i : Nat)
  /-- HTTP connection `i` is over, and a handler that it awaits is dropped. -/
  | served (i : Nat) (outcome : Except Str Unit)
  /-- A step of a task that exchanges nothing. -/
  | task (e : ConnectionTaskEvent)
  /-- A step of the resolver that is no task's. -/
  | resolver (e : ResolverEvent)

/-- The steps of a task in which no message comes in or goes out. -/
def ConnectionTaskEvent.silent : ConnectionTaskEvent → Bool
  | .handshake _ _ | .load _ | .subtract _ | .finish _ | .elsewhere _ => true
  | .accept _ | .read _ _ | .resolved _ _ | .write _ _ | .served _ _ => false

/-- The steps of the resolver in which no call begins or is dropped. -/
def ResolverEvent.inner : ResolverEvent → Bool
  | .arrive _ _ | .cancel _ => false
  | .lookup _ | .store _ _ | .reply _ _ | .insert _ _ | .manage _ _ _ | .refresh _ _ | .tick _ =>
      true

/-- What `resolve_with_context` returns, once it does. -/
def Call.answer? (c : Call) : Option Message :=
  match c.phase with
  | .done answer _ => some answer
  | _ => none

/-! ## What a task can do -/

/-- A task before and after a silent step. -/
inductive ConnectionTask.Quiet : ConnectionTask → ConnectionTask → Prop
  | same (t : ConnectionTask) : Quiet t t
  | reading (n : Nat) : Quiet ⟨.dot, .handshake, n⟩ ⟨.dot, .reading, n⟩
  | serving (n : Nat) : Quiet ⟨.doh, .handshake, n⟩ ⟨.doh, .serving, n⟩
  | refused (l : Listener) (n : Nat) : Quiet ⟨l, .handshake, n⟩ ⟨l, .closing, n⟩
  | closing {l : Listener} {phase phase' : TaskPhase} (n n' : Nat) : phase.working = false →
      phase'.working = false → Quiet ⟨l, phase, n⟩ ⟨l, phase', n'⟩

namespace ConnectionTasks

section
variable {toBytes : ToBytes} {fromBytes : FromBytes} {ts ts' : ConnectionTasks} {i : Nat}

theorem quiet_set {t t' : ConnectionTask} {m : Metrics} (hi : ts.tasks[i]? = some t)
    (hq : t.Quiet t') {j : Nat} {u' : ConnectionTask}
    (hj : (ts.setTask i t' m).tasks[j]? = some u') :
    ∃ u, ts.tasks[j]? = some u ∧ u.Quiet u' := by
  rcases getElem?_set_eq_some.mp hj with ⟨_, hj⟩ | ⟨rfl, _, rfl⟩
  · exact ⟨u', hj, .same u'⟩
  · exact ⟨t, hi, hq⟩

theorem quiet_of_silent {e : ConnectionTaskEvent} (he : e.silent = true)
    (hs : ts.step toBytes fromBytes e = some ts') {j : Nat} {u' : ConnectionTask}
    (hj : ts'.tasks[j]? = some u') : ∃ u, ts.tasks[j]? = some u ∧ u.Quiet u' := by
  cases e with
  | handshake i outcome =>
      simp only [step] at hs
      split at hs
      · rename_i l n hi
        split at hs <;> cases hs
        · exact quiet_set hi (.reading n) hj
        · exact quiet_set hi (.serving n) hj
        · exact quiet_set hi (.refused l n) hj
        · exact quiet_set hi (.refused l n) hj
      · cases hs
  | load i =>
      simp only [step] at hs
      split at hs
      · rename_i l n hi
        cases hs
        exact quiet_set hi (.closing _ _ rfl rfl) hj
      · cases hs
  | subtract i =>
      simp only [step] at hs
      split at hs
      · rename_i l current n hi
        cases hs
        exact quiet_set hi (.closing _ _ rfl rfl) hj
      · cases hs
  | finish i =>
      simp only [step] at hs
      split at hs
      · rename_i l n hi
        cases hs
        exact quiet_set hi (.closing _ _ rfl rfl) hj
      · cases hs
  | elsewhere m =>
      cases hs
      exact ⟨u', hj, .same u'⟩
  | accept _ => cases he
  | read _ _ => cases he
  | resolved _ _ => cases he
  | write _ _ => cases he
  | served _ _ => cases he

theorem length_silent {e : ConnectionTaskEvent} (he : e.silent = true)
    (hs : ts.step toBytes fromBytes e = some ts') : ts'.tasks.length = ts.tasks.length := by
  cases effect_of_step hs with
  | accepted l _ => cases he
  | worked i t phase m _ _ _ _ _ => exact List.length_set
  | loaded i l n _ => exact List.length_set
  | subtracted i l current n _ => exact List.length_set
  | finished i l n _ => exact List.length_set
  | elsewhere m => rfl

theorem accept_cases {l : Listener} (hs : ts.step toBytes fromBytes (.accept l) = some ts') :
    ts'.tasks = ts.tasks ++ [⟨l, .handshake, 0⟩] := by
  simp only [step] at hs
  split at hs
  · cases hs
    rfl
  · cases hs

theorem read_cases {io : ReadIo} (hs : ts.step toBytes fromBytes (.read i io) = some ts') :
    ∃ l n m, ts.tasks[i]? = some ⟨l, .reading, n⟩ ∧
      ((∃ query, readMessage fromBytes io = .ok (some query) ∧
          ts' = ts.setTask i ⟨l, .resolving query, n⟩ m) ∨
        (∀ query, readMessage fromBytes io ≠ .ok (some query)) ∧
          ts' = ts.setTask i ⟨l, .closing, n⟩ m) := by
  simp only [step] at hs
  split at hs
  · rename_i l n hi
    split at hs <;> cases hs
    · rename_i query hread
      exact ⟨l, n, _, hi, .inl ⟨query, hread, rfl⟩⟩
    · rename_i hread
      refine ⟨l, n, _, hi, .inr ⟨?_, rfl⟩⟩
      intro query h
      rw [hread] at h
      cases h
    · rename_i hread
      refine ⟨l, n, _, hi, .inr ⟨?_, rfl⟩⟩
      intro query h
      rw [hread] at h
      cases h
  · cases hs

theorem resolved_cases {answer : Message}
    (hs : ts.step toBytes fromBytes (.resolved i answer) = some ts') :
    ∃ l query n, ts.tasks[i]? = some ⟨l, .resolving query, n⟩ ∧
      ts' = ts.setTask i ⟨l, .writing answer, n⟩ ts.metrics := by
  simp only [step] at hs
  split at hs
  · rename_i l query n hi
    cases hs
    exact ⟨l, query, n, hi, rfl⟩
  · cases hs

theorem write_cases {io : WriteIo} {l : Listener} {answer : Message} {n : Nat}
    (hi : ts.tasks[i]? = some ⟨l, .writing answer, n⟩)
    (hs : ts.step toBytes fromBytes (.write i io) = some ts') :
    ∃ m, writeMessage toBytes io answer = .ok () ∧ ts' = ts.setTask i ⟨l, .reading, n⟩ m ∨
      (∃ e, writeMessage toBytes io answer = .error e) ∧
        ts' = ts.setTask i ⟨l, .closing, n⟩ m := by
  simp only [ConnectionTasks.step, hi] at hs
  split at hs <;> cases hs
  · rename_i hwrite
    exact ⟨_, .inl ⟨hwrite, rfl⟩⟩
  · rename_i e hwrite
    exact ⟨_, .inr ⟨⟨e, hwrite⟩, rfl⟩⟩

theorem served_cases {outcome : Except Str Unit}
    (hs : ts.step toBytes fromBytes (.served i outcome) = some ts') :
    ∃ l n, ts.tasks[i]? = some ⟨l, .serving, n⟩ ∧
      ts' = ts.setTask i ⟨l, .closing, n⟩ ts.metrics := by
  simp only [step] at hs
  split at hs
  · rename_i l n hi
    cases hs
    exact ⟨l, n, hi, rfl⟩
  · cases hs

end

end ConnectionTasks

namespace ClientsState

/-- As `run_serve` starts. -/
def init (resolver : ResolverState) (persisted : PersistedMetrics) : ClientsState :=
  ⟨resolver, .init persisted, [], []⟩

/-- What the call that task `i` awaits has returned. -/
def answerTo (s : ClientsState) (c : Session) : Option Message :=
  (c.call.bind fun k => s.resolver.calls[k]?).bind Call.answer?

/-- Connection `i` moves on. -/
def setSession (s : ClientsState) (i : Nat) (c : Session) : ClientsState :=
  { s with sessions := s.sessions.set i c }

section
variable (U : UnicodeCase) (text : LabelText) (cfg : ResolveConfig) (toBytes : ToBytes)
  (fromBytes : FromBytes)

/-- Task `i`, whose session becomes `c`, calls `resolve_with_context`. -/
def ask (s : ClientsState) (i : Nat) (c : Session) (query : Message) : ClientsState :=
  { s with
    resolver := s.resolver.arrive U text query (some c.peer)
    owners := s.owners ++ [i]
    sessions := s.sessions.set i { c with call := some s.owners.length } }

/-- The handler that a connection awaits when it ends is dropped at its
await; one that has returned is only forgotten. -/
def dropHandler (s : ClientsState) (c : Session) : Option ResolverState :=
  match c.call with
  | none => some s.resolver
  | some k =>
      match (s.resolver.calls[k]?).map Call.phase with
      | some .waiting => s.resolver.step U text cfg (.cancel k)
      | some (.done _ _) => some s.resolver
      | _ => none

/-- One step of a connection, of its task, or of the resolver. -/
def step (s : ClientsState) : ClientsEvent → Option ClientsState
  | .accept l peer =>
      (s.tasks.step toBytes fromBytes (.accept l)).map fun tasks =>
        { s with tasks, sessions := s.sessions ++ [{ peer }] }
  | .receive i bytes =>
      match s.tasks.tasks[i]?, s.sessions[i]? with
      | some ⟨.dot, _, _⟩, some c =>
          some (s.setSession i
            { c with received := c.received ++ bytes, input := c.input ++ bytes })
      | _, _ => none
  | .read i ending =>
      (s.sessions[i]?).bind fun c =>
        let stream : ByteStream := ⟨c.input, ending⟩
        (s.tasks.step toBytes fromBytes (.read i stream.readIo)).map fun tasks =>
          match stream.next fromBytes with
          | (.ok (some query), rest) =>
              ask U text { s with tasks } i { c with input := rest.bytes } query
          | _ => { s with tasks }
  | .resolved i =>
      (s.sessions[i]?).bind fun c =>
        (s.answerTo c).bind fun answer =>
          (s.tasks.step toBytes fromBytes (.resolved i answer)).map fun tasks =>
            { s with tasks, sessions := s.sessions.set i { c with call := none } }
  | .write i outcome sent =>
      match s.tasks.tasks[i]?, s.sessions[i]? with
      | some ⟨_, .writing answer, _⟩, some c =>
          (s.tasks.step toBytes fromBytes (.write i fun _ => outcome)).map fun tasks =>
            let bytes := (messageBytes toBytes answer).toOption.getD []
            -- a write that fails may have sent any part
            let out := if outcome = some (.ok ()) then bytes else bytes.take sent
            { s with tasks, sessions := s.sessions.set i { c with output := c.output ++ out } }
      | _, _ => none
  | .request i req =>
      match s.tasks.tasks[i]?, s.sessions[i]? with
      | some ⟨_, .serving, _⟩, some c =>
          -- one request at a time on a connection
          if c.call.isSome then none
          else
            match route fromBytes req with
            | .error refusal =>
                some (s.setSession i { c with
                  exchanges := c.exchanges ++ [(req, refusal.sentTo req)] })
            | .ok query => some (ask U text s i { c with request := some req } query)
      | _, _ => none
  | .respond i =>
      match s.tasks.tasks[i]?, s.sessions[i]? with
      | some ⟨_, .serving, _⟩, some c =>
          match c.request, s.answerTo c with
          | some req, some answer =>
              some (s.setSession i { c with
                call := none
                request := none
                exchanges := c.exchanges ++ [(req, (respond toBytes answer).sentTo req)] })
          | _, _ => none
      | _, _ => none
  | .served i outcome =>
      (s.sessions[i]?).bind fun c =>
        (s.tasks.step toBytes fromBytes (.served i outcome)).bind fun tasks =>
          (s.dropHandler U text cfg c).map fun resolver =>
            { s with
              resolver, tasks
              sessions := s.sessions.set i { c with call := none, request := none } }
  | .task e =>
      if e.silent then (s.tasks.step toBytes fromBytes e).map fun tasks => { s with tasks }
      else none
  | .resolver e =>
      if e.inner then (s.resolver.step U text cfg e).map fun resolver => { s with resolver }
      else none

end

/-! ## What a step can do -/

/-- Task `i` is now `t`, and its session `c`. -/
def moved (s : ClientsState) (i : Nat) (t : ConnectionTask) (m : Metrics) (c : Session) :
    ClientsState :=
  { s with tasks := s.tasks.setTask i t m, sessions := s.sessions.set i c }

/-- The steps as a relation, guards included. -/
inductive Step (U : UnicodeCase) (text : LabelText) (cfg : ResolveConfig) (toBytes : ToBytes)
    (fromBytes : FromBytes) (s : ClientsState) : ClientsEvent → ClientsState → Prop
  | accept {l : Listener} {peer : IpAddr} {tasks : ConnectionTasks} :
      s.tasks.step toBytes fromBytes (.accept l) = some tasks →
      Step U text cfg toBytes fromBytes s (.accept l peer)
        { s with tasks, sessions := s.sessions ++ [{ peer }] }
  | receive {i : Nat} {c : Session} {phase : TaskPhase} {n : Nat} (bytes : List UInt8) :
      s.tasks.tasks[i]? = some ⟨.dot, phase, n⟩ → s.sessions[i]? = some c →
      Step U text cfg toBytes fromBytes s (.receive i bytes)
        (s.setSession i { c with received := c.received ++ bytes, input := c.input ++ bytes })
  | read {i : Nat} {c : Session} {l : Listener} {n : Nat} {m : Metrics} {ending : Option Str}
      {query : Message} {rest : ByteStream} : s.sessions[i]? = some c →
      s.tasks.tasks[i]? = some ⟨l, .reading, n⟩ →
      (ByteStream.mk c.input ending).next fromBytes = (.ok (some query), rest) →
      Step U text cfg toBytes fromBytes s (.read i ending)
        (ask U text { s with tasks := s.tasks.setTask i ⟨l, .resolving query, n⟩ m } i
          { c with input := rest.bytes } query)
  | unread {i : Nat} {c : Session} {l : Listener} {n : Nat} {m : Metrics}
      (ending : Option Str) : s.sessions[i]? = some c →
      s.tasks.tasks[i]? = some ⟨l, .reading, n⟩ →
      Step U text cfg toBytes fromBytes s (.read i ending) (s.moved i ⟨l, .closing, n⟩ m c)
  | resolved {i : Nat} {c : Session} {l : Listener} {n : Nat} {query answer : Message} :
      s.sessions[i]? = some c → s.tasks.tasks[i]? = some ⟨l, .resolving query, n⟩ →
      s.answerTo c = some answer →
      Step U text cfg toBytes fromBytes s (.resolved i)
        (s.moved i ⟨l, .writing answer, n⟩ s.tasks.metrics { c with call := none })
  | written {i : Nat} {c : Session} {l : Listener} {n : Nat} {m : Metrics} {answer : Message}
      {payload : List UInt8} (sent : Nat) : s.sessions[i]? = some c →
      s.tasks.tasks[i]? = some ⟨l, .writing answer, n⟩ → toBytes answer = .ok payload →
      Step U text cfg toBytes fromBytes s (.write i (some (.ok ())) sent)
        (s.moved i ⟨l, .reading, n⟩ m { c with output := c.output ++ frame payload })
  | unwritten {i : Nat} {c : Session} {l : Listener} {n : Nat} {m : Metrics} {answer : Message}
      {part : List UInt8} (outcome : Awaited Unit) (sent : Nat) : s.sessions[i]? = some c →
      s.tasks.tasks[i]? = some ⟨l, .writing answer, n⟩ →
      part <+: ((messageBytes toBytes answer).toOption.getD []) →
      Step U text cfg toBytes fromBytes s (.write i outcome sent)
        (s.moved i ⟨l, .closing, n⟩ m { c with output := c.output ++ part })
  | rejected {i : Nat} {c : Session} {l : Listener} {n : Nat} {req : DohRequest}
      {refusal : DohResponse} : s.sessions[i]? = some c →
      s.tasks.tasks[i]? = some ⟨l, .serving, n⟩ → c.call = none →
      route fromBytes req = .error refusal →
      Step U text cfg toBytes fromBytes s (.request i req)
        (s.setSession i { c with exchanges := c.exchanges ++ [(req, refusal.sentTo req)] })
  | request {i : Nat} {c : Session} {l : Listener} {n : Nat} {req : DohRequest}
      {query : Message} : s.sessions[i]? = some c →
      s.tasks.tasks[i]? = some ⟨l, .serving, n⟩ → c.call = none →
      route fromBytes req = .ok query →
      Step U text cfg toBytes fromBytes s (.request i req)
        (ask U text s i { c with request := some req } query)
  | respond {i : Nat} {c : Session} {l : Listener} {n : Nat} {req : DohRequest}
      {answer : Message} : s.sessions[i]? = some c →
      s.tasks.tasks[i]? = some ⟨l, .serving, n⟩ → c.request = some req →
      s.answerTo c = some answer →
      Step U text cfg toBytes fromBytes s (.respond i) (s.setSession i { c with
        call := none
        request := none
        exchanges := c.exchanges ++ [(req, (respond toBytes answer).sentTo req)] })
  | served {i : Nat} {c : Session} {l : Listener} {n : Nat} {resolver : ResolverState}
      (outcome : Except Str Unit) : s.sessions[i]? = some c →
      s.tasks.tasks[i]? = some ⟨l, .serving, n⟩ →
      s.dropHandler U text cfg c = some resolver →
      Step U text cfg toBytes fromBytes s (.served i outcome)
        { s.moved i ⟨l, .closing, n⟩ s.tasks.metrics { c with call := none, request := none }
            with resolver }
  | task {e : ConnectionTaskEvent} {tasks : ConnectionTasks} : e.silent = true →
      s.tasks.step toBytes fromBytes e = some tasks →
      Step U text cfg toBytes fromBytes s (.task e) { s with tasks }
  | resolver {e : ResolverEvent} {resolver : ResolverState} : e.inner = true →
      s.resolver.step U text cfg e = some resolver →
      Step U text cfg toBytes fromBytes s (.resolver e) { s with resolver }

section
variable {U : UnicodeCase} {text : LabelText} {cfg : ResolveConfig} {toBytes : ToBytes}
  {fromBytes : FromBytes} {s s' : ClientsState} {e : ClientsEvent}

theorem set_self {i : Nat} {c : Session} (hc : s.sessions[i]? = some c) :
    s.sessions.set i c = s.sessions := by
  obtain ⟨hlt, rfl⟩ := List.getElem?_eq_some_iff.mp hc
  exact List.set_getElem_self hlt

theorem step_read_cases {i : Nat} {ending : Option Str}
    (hs : s.step U text cfg toBytes fromBytes (.read i ending) = some s') :
    Step U text cfg toBytes fromBytes s (.read i ending) s' := by
  obtain ⟨c, hc, hs⟩ := Option.bind_eq_some_iff.mp hs
  obtain ⟨tasks, htasks, rfl⟩ := Option.map_eq_some_iff.mp hs
  obtain ⟨l, n, m, hi, ⟨query, hread, rfl⟩ | ⟨hread, rfl⟩⟩ := ConnectionTasks.read_cases htasks
  · obtain ⟨rest, hnext⟩ : ∃ rest, (ByteStream.mk c.input ending).next fromBytes =
        (.ok (some query), rest) := ⟨_, Prod.ext hread rfl⟩
    simp only [hnext]
    exact .read hc hi hnext
  · have hself : { s with tasks := s.tasks.setTask i ⟨l, .closing, n⟩ m } =
        s.moved i ⟨l, .closing, n⟩ m c := by
      rw [moved, set_self hc]
    split
    · rename_i query rest hnext
      exact absurd (congrArg Prod.fst hnext) (hread query)
    · rw [hself]
      exact .unread ending hc hi

theorem step_write_cases {i sent : Nat} {outcome : Awaited Unit}
    (hs : s.step U text cfg toBytes fromBytes (.write i outcome sent) = some s') :
    Step U text cfg toBytes fromBytes s (.write i outcome sent) s' := by
  simp only [step] at hs
  split at hs
  · rename_i l answer n c hi hc
    obtain ⟨tasks, htasks, rfl⟩ := Option.map_eq_some_iff.mp hs
    obtain ⟨m, ⟨hwrite, rfl⟩ | ⟨⟨err, hwrite⟩, rfl⟩⟩ := ConnectionTasks.write_cases hi htasks
    · rw [writeMessage_eq] at hwrite
      obtain ⟨bytes, hbytes, hout⟩ := bind_eq_ok.mp hwrite
      obtain ⟨payload, hpayload, rfl⟩ := messageBytes_eq_ok.mp hbytes
      have hok : outcome = some (.ok ()) := by
        cases outcome with
        | none => cases hout
        | some r =>
            cases r with
            | ok _ => rfl
            | error _ => cases hout
      subst hok
      rw [hbytes]
      exact .written sent hc hi hpayload
    · refine .unwritten outcome sent hc hi ?_
      split
      · exact List.prefix_rfl
      · exact List.take_prefix ..
  · cases hs

/-- **Every step is one of these.** -/
theorem step_cases (hs : s.step U text cfg toBytes fromBytes e = some s') :
    Step U text cfg toBytes fromBytes s e s' := by
  cases e with
  | accept l peer =>
      obtain ⟨tasks, htasks, rfl⟩ := Option.map_eq_some_iff.mp hs
      exact .accept htasks
  | receive i bytes =>
      simp only [step] at hs
      split at hs
      · rename_i hi hc
        cases hs
        exact .receive bytes hi hc
      · cases hs
  | read i ending => exact step_read_cases hs
  | resolved i =>
      obtain ⟨c, hc, hs⟩ := Option.bind_eq_some_iff.mp hs
      obtain ⟨answer, hanswer, hs⟩ := Option.bind_eq_some_iff.mp hs
      obtain ⟨tasks, htasks, rfl⟩ := Option.map_eq_some_iff.mp hs
      obtain ⟨l, query, n, hi, rfl⟩ := ConnectionTasks.resolved_cases htasks
      exact .resolved hc hi hanswer
  | write i outcome sent => exact step_write_cases hs
  | request i req =>
      simp only [step] at hs
      split at hs
      · rename_i l n c hi hc
        split at hs
        · cases hs
        · rename_i hcall
          have hcall : c.call = none := by simpa using hcall
          split at hs <;> cases hs
          · rename_i refusal hroute
            exact .rejected hc hi hcall hroute
          · rename_i query hroute
            exact .request hc hi hcall hroute
      · cases hs
  | respond i =>
      simp only [step] at hs
      split at hs
      · rename_i l n c hi hc
        split at hs
        · rename_i req answer hreq hanswer
          cases hs
          exact .respond hc hi hreq hanswer
        · cases hs
      · cases hs
  | served i outcome =>
      obtain ⟨c, hc, hs⟩ := Option.bind_eq_some_iff.mp hs
      obtain ⟨tasks, htasks, hs⟩ := Option.bind_eq_some_iff.mp hs
      obtain ⟨resolver, hresolver, rfl⟩ := Option.map_eq_some_iff.mp hs
      obtain ⟨l, n, hi, rfl⟩ := ConnectionTasks.served_cases htasks
      exact .served outcome hc hi hresolver
  | task e =>
      simp only [step] at hs
      split at hs
      · rename_i he
        obtain ⟨tasks, htasks, rfl⟩ := Option.map_eq_some_iff.mp hs
        exact .task he htasks
      · cases hs
  | resolver e =>
      simp only [step] at hs
      split at hs
      · rename_i he
        obtain ⟨resolver, hresolver, rfl⟩ := Option.map_eq_some_iff.mp hs
        exact .resolver he hresolver
      · cases hs

end

end ClientsState

end Dotdns
