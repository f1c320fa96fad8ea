import Dotdns.Clients.Replies

/-!
# Clients — GET and POST

Whether a query comes in a GET or in a POST makes no difference to anything
but the request itself: a whole run with the one in place of the other goes
the same way, with the same responses.
-/

namespace Dotdns

open Lib

/-! ## Other requests in the same places -/

/-- The connection with each of its requests respelt by `f`. -/
def Session.mapRequests (f : DohRequest → DohRequest) (c : Session) : Session :=
  { c with
    request := c.request.map f
    exchanges := c.exchanges.map fun e => (f e.1, e.2) }

/-- The step with its request, if it has one, respelt. -/
def ClientsEvent.mapRequests (f : DohRequest → DohRequest) : ClientsEvent → ClientsEvent
  | .request i req => .request i (f req)
  | .accept l peer => .accept l peer
  | .receive i bytes => .receive i bytes
  | .read i ending => .read i ending
  | .resolved i => .resolved i
  | .write i outcome sent => .write i outcome sent
  | .respond i => .respond i
  | .served i outcome => .served i outcome
  | .task e => .task e
  | .resolver e => .resolver e

namespace ClientsState

/-- The state with every request respelt. -/
def mapRequests (f : DohRequest → DohRequest) (s : ClientsState) : ClientsState :=
  { s with sessions := s.sessions.map (Session.mapRequests f) }

/-- `f` changes neither what a request asks nor how its response goes out. -/
structure Respelling (fromBytes : FromBytes) (f : DohRequest → DohRequest) : Prop where
  route : ∀ req, route fromBytes (f req) = route fromBytes req
  sentTo : ∀ req resp, DohResponse.sentTo (f req) resp = resp.sentTo req

section
variable {U : UnicodeCase} {text : LabelText} {cfg : ResolveConfig} {toBytes : ToBytes}
  {fromBytes : FromBytes} {f : DohRequest → DohRequest}

@[simp] theorem mapRequests_tasks (s : ClientsState) : (s.mapRequests f).tasks = s.tasks := rfl

@[simp] theorem mapRequests_resolver (s : ClientsState) :
    (s.mapRequests f).resolver = s.resolver := rfl

@[simp] theorem sessions_mapRequests (s : ClientsState) (i : Nat) :
    (s.mapRequests f).sessions[i]? = (s.sessions[i]?).map (Session.mapRequests f) :=
  List.getElem?_map

@[simp] theorem answerTo_mapRequests (s : ClientsState) (c : Session) :
    (s.mapRequests f).answerTo (c.mapRequests f) = s.answerTo c := rfl

theorem setSession_mapRequests (s : ClientsState) (i : Nat) (c : Session) :
    (s.mapRequests f).setSession i (c.mapRequests f) = (s.setSession i c).mapRequests f := by
  simp only [setSession, mapRequests, List.map_set]

theorem ask_mapRequests (s : ClientsState) (i : Nat) (c : Session) (query : Message) :
    ask U text (s.mapRequests f) i (c.mapRequests f) query =
      (ask U text s i c query).mapRequests f := by
  simp only [ask, mapRequests, List.map_set]
  rfl

theorem moved_mapRequests (s : ClientsState) (i : Nat) (c : Session)
    (r : ResolverState) (ts : ConnectionTasks) :
    { s.mapRequests f with
      resolver := r, tasks := ts
      sessions := (s.mapRequests f).sessions.set i (c.mapRequests f) } =
      mapRequests f { s with resolver := r, tasks := ts, sessions := s.sessions.set i c } := by
  simp only [mapRequests, List.map_set]

theorem step_read_mapRequests (s : ClientsState) (i : Nat) (ending : Option Str) :
    (s.mapRequests f).step U text cfg toBytes fromBytes (.read i ending) =
      (s.step U text cfg toBytes fromBytes (.read i ending)).map (mapRequests f) := by
  simp only [step, sessions_mapRequests]
  cases s.sessions[i]? with
  | none => rfl
  | some c =>
      have hinput : (c.mapRequests f).input = c.input := rfl
      simp only [Option.map_some, Option.bind_some, mapRequests_tasks, hinput]
      cases s.tasks.step toBytes fromBytes (.read i (ByteStream.mk c.input ending).readIo) with
      | none => rfl
      | some tasks =>
          simp only [Option.map_some]
          obtain ⟨result, rest⟩ := (ByteStream.mk c.input ending).next fromBytes
          cases result with
          | error err => rfl
          | ok query =>
              cases query with
              | none => rfl
              | some query =>
                  exact congrArg some (ask_mapRequests { s with tasks } i
                    { c with input := rest.bytes } query)

theorem step_write_mapRequests (s : ClientsState) (i sent : Nat) (outcome : Awaited Unit) :
    (s.mapRequests f).step U text cfg toBytes fromBytes (.write i outcome sent) =
      (s.step U text cfg toBytes fromBytes (.write i outcome sent)).map (mapRequests f) := by
  simp only [step, sessions_mapRequests, mapRequests_tasks]
  cases s.tasks.tasks[i]? with
  | none => rfl
  | some t =>
      obtain ⟨l, phase, n⟩ := t
      cases phase with
      | writing answer =>
          cases s.sessions[i]? with
          | none => rfl
          | some c =>
              simp only [Option.map_some]
              cases s.tasks.step toBytes fromBytes (.write i fun _ => outcome) with
              | none => rfl
              | some tasks =>
                  exact congrArg some (moved_mapRequests s i
                    { c with output := c.output ++ _ } s.resolver tasks)
      | _ => rfl

theorem step_request_mapRequests (hf : Respelling fromBytes f) (s : ClientsState) (i : Nat)
    (req : DohRequest) :
    (s.mapRequests f).step U text cfg toBytes fromBytes (.request i (f req)) =
      (s.step U text cfg toBytes fromBytes (.request i req)).map (mapRequests f) := by
  simp only [step, sessions_mapRequests, mapRequests_tasks, hf.route]
  cases s.tasks.tasks[i]? with
  | none => rfl
  | some t =>
      obtain ⟨l, phase, n⟩ := t
      cases phase with
      | serving =>
          cases s.sessions[i]? with
          | none => rfl
          | some c =>
              have hcall : (c.mapRequests f).call = c.call := rfl
              simp only [Option.map_some, hcall]
              by_cases hbusy : c.call.isSome = true
              · rw [if_pos hbusy, if_pos hbusy]
                rfl
              · rw [if_neg hbusy, if_neg hbusy]
                cases route fromBytes req with
                | error refusal =>
                    have hset := setSession_mapRequests (f := f) s i
                      { c with exchanges := c.exchanges ++ [(req, refusal.sentTo req)] }
                    rw [Session.mapRequests, List.map_append] at hset
                    simp only [hf.sentTo]
                    exact congrArg some hset
                | ok query =>
                    exact congrArg some
                      (ask_mapRequests s i { c with request := some req } query)
      | _ => rfl

theorem step_respond_mapRequests (hf : Respelling fromBytes f) (s : ClientsState) (i : Nat) :
    (s.mapRequests f).step U text cfg toBytes fromBytes (.respond i) =
      (s.step U text cfg toBytes fromBytes (.respond i)).map (mapRequests f) := by
  simp only [step, sessions_mapRequests, mapRequests_tasks]
  cases s.tasks.tasks[i]? with
  | none => rfl
  | some t =>
      obtain ⟨l, phase, n⟩ := t
      cases phase with
      | serving =>
          cases s.sessions[i]? with
          | none => rfl
          | some c =>
              have hreq : (c.mapRequests f).request = c.request.map f := rfl
              simp only [Option.map_some, hreq, answerTo_mapRequests]
              cases c.request with
              | none => rfl
              | some req =>
                  cases s.answerTo c with
                  | none => rfl
                  | some answer =>
                      have hset := setSession_mapRequests (f := f) s i { c with
                        call := none
                        request := none
                        exchanges := c.exchanges ++
                          [(req, (respond toBytes answer).sentTo req)] }
                      rw [Session.mapRequests, List.map_append] at hset
                      simp only [Option.map_some, hf.sentTo]
                      exact congrArg some hset
      | _ => rfl

theorem step_mapRequests (hf : Respelling fromBytes f) (s : ClientsState) (e : ClientsEvent) :
    (s.mapRequests f).step U text cfg toBytes fromBytes (e.mapRequests f) =
      (s.step U text cfg toBytes fromBytes e).map (mapRequests f) := by
  cases e with
  | accept l peer =>
      simp only [ClientsEvent.mapRequests, step, mapRequests_tasks]
      cases s.tasks.step toBytes fromBytes (.accept l) with
      | none => rfl
      | some tasks =>
          simp only [Option.map_some, mapRequests, List.map_append]
          rfl
  | receive i bytes =>
      simp only [ClientsEvent.mapRequests, step, sessions_mapRequests, mapRequests_tasks]
      cases s.tasks.tasks[i]? with
      | none => rfl
      | some t =>
          obtain ⟨l, phase, n⟩ := t
          cases l with
          | doh => rfl
          | dot =>
              cases s.sessions[i]? with
              | none => rfl
              | some c =>
                  exact congrArg some (setSession_mapRequests s i { c with
                    received := c.received ++ bytes
                    input := c.input ++ bytes })
  | read i ending => exact step_read_mapRequests s i ending
  | resolved i =>
      simp only [ClientsEvent.mapRequests, step, sessions_mapRequests, mapRequests_tasks]
      cases s.sessions[i]? with
      | none => rfl
      | some c =>
          simp only [Option.map_some, Option.bind_some, answerTo_mapRequests]
          cases s.answerTo c with
          | none => rfl
          | some answer =>
              simp only [Option.bind_some]
              cases s.tasks.step toBytes fromBytes (.resolved i answer) with
              | none => rfl
              | some tasks =>
                  exact congrArg some
                    (moved_mapRequests s i { c with call := none } s.resolver tasks)
  | write i outcome sent => exact step_write_mapRequests s i sent outcome
  | request i req => exact step_request_mapRequests hf s i req
  | respond i => exact step_respond_mapRequests hf s i
  | served i outcome =>
      simp only [ClientsEvent.mapRequests, step, sessions_mapRequests, mapRequests_tasks]
      cases s.sessions[i]? with
      | none => rfl
      | some c =>
          have hdrop : (s.mapRequests f).dropHandler U text cfg (c.mapRequests f) =
            s.dropHandler U text cfg c := rfl
          simp only [Option.map_some, Option.bind_some, hdrop]
          cases s.tasks.step toBytes fromBytes (.served i outcome) with
          | none => rfl
          | some tasks =>
              simp only [Option.bind_some]
              cases s.dropHandler U text cfg c with
              | none => rfl
              | some resolver =>
                  exact congrArg some (moved_mapRequests s i
                    { c with call := none, request := none } resolver tasks)
  | task ev =>
      simp only [ClientsEvent.mapRequests, step, mapRequests_tasks]
      split
      · cases s.tasks.step toBytes fromBytes ev <;> rfl
      · rfl
  | resolver ev =>
      simp only [ClientsEvent.mapRequests, step, mapRequests_resolver]
      split
      · cases s.resolver.step U text cfg ev <;> rfl
      · rfl

end

end ClientsState

/-! ## One method for the other -/

section
variable {fromBytes : FromBytes}

theorem sentTo_of_method {req req' : DohRequest} (resp : DohResponse)
    (h : req.method ≠ .head) (h' : req'.method ≠ .head) : resp.sentTo req = resp.sentTo req' := by
  rw [DohResponse.sentTo, DohResponse.sentTo, if_neg h, if_neg h']

theorem respelling_asPost : ClientsState.Respelling fromBytes DohRequest.asPost where
  route := route_asPost
  sentTo req resp := by
    unfold DohRequest.asPost
    split
    · rename_i params hmethod _
      split
      · exact sentTo_of_method resp (by simp) (by simp [hmethod])
      · rfl
    · rfl

theorem respelling_asGet : ClientsState.Respelling fromBytes DohRequest.asGet where
  route := route_asGet
  sentTo req resp := by
    unfold DohRequest.asGet
    split
    · rename_i body hmethod _
      split
      · exact sentTo_of_method resp (by simp) (by simp [hmethod])
      · rfl
    · rfl

end

/-- **GET and POST are one.** Replace, in any run of the two servers, every
GET that has a body encoded in its URL by the POST of that body, or every
POST of a DNS message by the GET that encodes it: the run is possible
exactly when it was, and leads to the same state, the same responses to the
replaced requests included. -/
theorem doh_methods_agree (U : UnicodeCase) (text : LabelText) (cfg : ResolveConfig)
    (toBytes : ToBytes) (fromBytes : FromBytes) (s : ClientsState) (es : List ClientsEvent) :
    run (ClientsState.step U text cfg toBytes fromBytes) (s.mapRequests .asPost)
        (es.map (.mapRequests .asPost)) =
      (run (ClientsState.step U text cfg toBytes fromBytes) s es).map (.mapRequests .asPost) ∧
    run (ClientsState.step U text cfg toBytes fromBytes) (s.mapRequests .asGet)
        (es.map (.mapRequests .asGet)) =
      (run (ClientsState.step U text cfg toBytes fromBytes) s es).map (.mapRequests .asGet) ∧
    (∀ (req : DohRequest) (body : List UInt8), req.method = .get →
      req.params = .ok ⟨urlSafeNoPad.encode body⟩ →
      req.asPost.method = .post ∧ req.asPost.contentType = some dnsMessageType ∧
        req.asPost.body = .ok body) ∧
    ∀ (req : DohRequest) (body : List UInt8), req.method = .post →
      req.contentType = some dnsMessageType → req.body = .ok body →
      req.asGet.method = .get ∧ req.asGet.params = .ok ⟨urlSafeNoPad.encode body⟩ := by
  refine ⟨run_map (ClientsState.step_mapRequests respelling_asPost) s es,
    run_map (ClientsState.step_mapRequests respelling_asGet) s es, ?_, ?_⟩
  · intro req body hmethod hparams
    have heq : req.asPost = { req with
        method := .post
        headers := (contentTypeHeader, utf8 dnsMessageType) :: req.headers
        body := .ok body } := by
      unfold DohRequest.asPost
      simp only [hmethod, hparams, urlSafeNoPad.decode_encode]
    rw [heq]
    exact ⟨rfl, contentType_dnsMessageType _ _ rfl, rfl⟩
  · intro req body hmethod htype hbody
    have heq : req.asGet = { req with
        method := .get
        params := .ok ⟨urlSafeNoPad.encode body⟩ } := by
      unfold DohRequest.asGet
      simp only [hmethod, hbody, htype, if_true]
    rw [heq]
    exact ⟨rfl, rfl⟩

/-- A GET that is answered, and the same query as a POST. -/
theorem doh_methods_agree_one_query :
    let step := ClientsState.step .ascii sampleText adsConfig formErrToBytes idFromBytes
    let start := ClientsState.init (ResolverState.init adsConfig 0 {} adsStart.blocklist none) {}
    (getRequest 9).asPost.body = .ok (idBytes 9) ∧
    (run step (start.mapRequests .asPost) (twoClientsRun.map (.mapRequests .asPost))).isSome := by
  intro step start
  obtain ⟨hpost, _, hbody, _⟩ :=
    doh_methods_agree .ascii sampleText adsConfig formErrToBytes idFromBytes start twoClientsRun
  refine ⟨(hbody (getRequest 9) (idBytes 9) rfl rfl).2.2, ?_⟩
  rw [hpost, Option.isSome_map]
  decide +kernel

end Dotdns
