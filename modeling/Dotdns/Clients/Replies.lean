import Dotdns.Clients
import Dotdns.Server.Answers

/-!
# Clients — what the connections are sent

The headline is about any interleaving of any number of connections of both
servers with the resolver and with each other. A DoT connection has been
sent the answers to the queries it sent, in order and each in one frame,
up to the one that is being worked on; an HTTP connection has been given
one response for each request, in order, and the resolver has been asked
for exactly those requests that carry a query.
-/

namespace Dotdns

open Lib

/-! ## The calls of a task -/

/-- The calls that task `i` has made, in their order. -/
def callsOf (owners : List Nat) (i : Nat) : List Nat :=
  (List.range owners.length).filter fun k => owners[k]? = some i

theorem mem_callsOf {owners : List Nat} {i k : Nat} :
    k ∈ callsOf owners i ↔ owners[k]? = some i := by
  constructor
  · intro h
    simpa using (List.mem_filter.mp h).2
  · intro h
    have hlt := (List.getElem?_eq_some_iff.mp h).1
    exact List.mem_filter.mpr ⟨List.mem_range.mpr hlt, by simpa using h⟩

theorem callsOf_concat (owners : List Nat) (i j : Nat) :
    callsOf (owners ++ [j]) i = callsOf owners i ++ if j = i then [owners.length] else [] := by
  have hold : (List.range owners.length).filter
      (fun k => (owners ++ [j])[k]? = some i) = callsOf owners i := by
    refine List.filter_congr fun k hk => ?_
    rw [List.getElem?_append_left (List.mem_range.mp hk)]
  rw [callsOf, List.length_append, List.length_singleton, List.range_succ, List.filter_append,
    hold]
  by_cases hij : j = i <;> simp [hij]

theorem callsOf_eq_nil {owners : List Nat} {i : Nat} (h : i ∉ owners) : callsOf owners i = [] := by
  refine List.eq_nil_iff_forall_not_mem.mpr fun k hk => h ?_
  exact List.mem_of_getElem? (mem_callsOf.mp hk)

/-! ## What a task has from the resolver -/

/-- Call `k` is for `query`, which came from `peer`. -/
def IsFor (r : ResolverState) (peer : IpAddr) (k : Nat) (query : Message) : Prop :=
  ∃ call, r.calls[k]? = some call ∧ call.query = query ∧ call.clientIp = some peer

/-- Call `k` has returned `answer`. -/
def HasReturned (r : ResolverState) (k : Nat) (answer : Message) : Prop :=
  ∃ call o, r.calls[k]? = some call ∧ call.phase = .done answer o

/-- The calls of `r` are still there, for the same queries and with what
they have returned. -/
def Keeps (r r' : ResolverState) : Prop :=
  ∀ (k : Nat) (call : Call), r.calls[k]? = some call →
    ∃ phase, r'.calls[k]? = some { call with phase } ∧
      ∀ answer o, call.phase = .done answer o → phase = .done answer o

theorem Keeps.refl (r : ResolverState) : Keeps r r :=
  fun _ call hk => ⟨call.phase, hk, fun _ _ h => h⟩

section
variable {r r' : ResolverState} {peer : IpAddr} {k : Nat} {query answer : Message}

theorem IsFor.kept (h : IsFor r peer k query) (hr : Keeps r r') : IsFor r' peer k query := by
  obtain ⟨call, hk, hquery, hip⟩ := h
  obtain ⟨phase, hk', _⟩ := hr k call hk
  exact ⟨_, hk', hquery, hip⟩

theorem HasReturned.kept (h : HasReturned r k answer) (hr : Keeps r r') :
    HasReturned r' k answer := by
  obtain ⟨call, o, hk, hdone⟩ := h
  obtain ⟨phase, hk', hphase⟩ := hr k call hk
  exact ⟨_, o, hk', hphase answer o hdone⟩

end

/-- The encoded answers of `ks`, one frame each. -/
def Replied (toBytes : ToBytes) (r : ResolverState) (ks : List Nat) (out : List UInt8) : Prop :=
  ∃ payloads, List.Forall₂ (fun k payload => ∃ answer, HasReturned r k answer ∧
    toBytes answer = .ok payload) ks payloads ∧ out = payloads.flatMap frame

section
variable {toBytes : ToBytes} {r r' : ResolverState} {ks : List Nat} {out : List UInt8}

theorem replied_nil : Replied toBytes r [] [] := ⟨[], .nil, rfl⟩

theorem Replied.kept (h : Replied toBytes r ks out) (hr : Keeps r r') :
    Replied toBytes r' ks out := by
  obtain ⟨payloads, hall, hout⟩ := h
  refine ⟨payloads, hall.imp ?_, hout⟩
  rintro k payload ⟨answer, hk, hpayload⟩
  exact ⟨answer, hk.kept hr, hpayload⟩

theorem Replied.concat (h : Replied toBytes r ks out) {k : Nat} {answer : Message}
    {payload : List UInt8} (hk : HasReturned r k answer) (hpayload : toBytes answer = .ok payload) :
    Replied toBytes r (ks ++ [k]) (out ++ frame payload) := by
  obtain ⟨payloads, hall, rfl⟩ := h
  refine ⟨payloads ++ [payload], List.rel_append hall (.cons ⟨answer, hk, hpayload⟩ .nil), ?_⟩
  rw [List.flatMap_append, List.flatMap_singleton]

end

/-! ## What a connection is owed -/

/-- What has come in on a DoT connection are the frames of the queries that
its calls are for, and what has not been read. -/
def Reads (fromBytes : FromBytes) (r : ResolverState) (c : Session) (ks : List Nat) : Prop :=
  ∃ payloads queries, List.Forall₂ (Carries fromBytes) payloads queries ∧
    c.received = payloads.flatMap frame ++ c.input ∧ List.Forall₂ (IsFor r c.peer) ks queries

/-- All answers are out, or all but the last, and of that one a part. -/
def CutOff (toBytes : ToBytes) (r : ResolverState) (c : Session) (ks : List Nat) : Prop :=
  Replied toBytes r ks c.output ∨
  ∃ done k answer whole part, ks = done ++ [k] ∧ HasReturned r k answer ∧
    Replied toBytes r done whole ∧ c.output = whole ++ part ∧
    part <+: (messageBytes toBytes answer).toOption.getD []

/-- What is out on a DoT connection, by where its task stands. -/
def DotReplies (toBytes : ToBytes) (r : ResolverState) (c : Session) (ks : List Nat) :
    TaskPhase → Prop
  | .handshake | .reading => Replied toBytes r ks c.output
  | .resolving _ => ∃ done k, ks = done ++ [k] ∧ c.call = some k ∧ Replied toBytes r done c.output
  | .writing answer =>
      ∃ done k, ks = done ++ [k] ∧ HasReturned r k answer ∧ Replied toBytes r done c.output
  | .serving => False
  | .closing | .loaded _ | .closed | .ended => CutOff toBytes r c ks

/-- The calls `ks` were made for the requests that carry a query, and each
was answered with what its call returned; the others were refused. -/
structure Exchanged (toBytes : ToBytes) (fromBytes : FromBytes) (r : ResolverState)
    (peer : IpAddr) (exchanges : List (DohRequest × DohResponse)) (ks : List Nat) : Prop where
  answered : List.Forall₂ (fun k (e : DohRequest × DohResponse) => ∃ query answer,
      route fromBytes e.1 = .ok query ∧ IsFor r peer k query ∧ HasReturned r k answer ∧
        e.2 = (respond toBytes answer).sentTo e.1)
    ks (exchanges.filter fun e => (route fromBytes e.1).isOk)
  refused : ∀ e ∈ exchanges, ∀ refusal, route fromBytes e.1 = .error refusal →
    e.2 = refusal.sentTo e.1

/-- What has been answered on an HTTP connection, by where its task stands. -/
def DohReplies (toBytes : ToBytes) (fromBytes : FromBytes) (r : ResolverState) (c : Session)
    (ks : List Nat) : TaskPhase → Prop
  | .handshake => c.call = none ∧ Exchanged toBytes fromBytes r c.peer c.exchanges ks
  | .serving =>
      c.call = none ∧ Exchanged toBytes fromBytes r c.peer c.exchanges ks ∨
      ∃ done k req query, ks = done ++ [k] ∧ c.call = some k ∧ c.request = some req ∧
        route fromBytes req = .ok query ∧ IsFor r c.peer k query ∧
        Exchanged toBytes fromBytes r c.peer c.exchanges done
  | .closing | .loaded _ | .closed | .ended =>
      Exchanged toBytes fromBytes r c.peer c.exchanges ks ∨
      ∃ done k, ks = done ++ [k] ∧ Exchanged toBytes fromBytes r c.peer c.exchanges done
  | .reading | .resolving _ | .writing _ => False

/-- What a connection has read, asked and been sent. -/
def SessionOk (toBytes : ToBytes) (fromBytes : FromBytes) (r : ResolverState) (c : Session)
    (ks : List Nat) (t : ConnectionTask) : Prop :=
  match t.listener with
  | .dot => Reads fromBytes r c ks ∧ DotReplies toBytes r c ks t.phase
  | .doh => DohReplies toBytes fromBytes r c ks t.phase

section
variable {toBytes : ToBytes} {fromBytes : FromBytes} {r r' : ResolverState} {c c' : Session}
  {ks : List Nat} {t t' : ConnectionTask} {peer : IpAddr}
  {exchanges : List (DohRequest × DohResponse)}

theorem Reads.kept (h : Reads fromBytes r c ks) (hr : Keeps r r') : Reads fromBytes r' c ks := by
  obtain ⟨payloads, queries, hcarries, hreceived, hfor⟩ := h
  exact ⟨payloads, queries, hcarries, hreceived, hfor.imp fun _ _ hk => hk.kept hr⟩

theorem CutOff.kept (h : CutOff toBytes r c ks) (hr : Keeps r r') : CutOff toBytes r' c ks := by
  rcases h with h | ⟨done, k, answer, whole, part, hks, hk, hdone, hout, hpart⟩
  · exact .inl (h.kept hr)
  · exact .inr ⟨done, k, answer, whole, part, hks, hk.kept hr, hdone.kept hr, hout, hpart⟩

theorem DotReplies.kept {phase : TaskPhase} (h : DotReplies toBytes r c ks phase)
    (hr : Keeps r r') : DotReplies toBytes r' c ks phase := by
  cases phase with
  | handshake => exact Replied.kept h hr
  | reading => exact Replied.kept h hr
  | resolving query =>
      obtain ⟨done, k, hks, hcall, hdone⟩ := h
      exact ⟨done, k, hks, hcall, hdone.kept hr⟩
  | writing answer =>
      obtain ⟨done, k, hks, hk, hdone⟩ := h
      exact ⟨done, k, hks, hk.kept hr, hdone.kept hr⟩
  | serving => exact h
  | closing => exact CutOff.kept h hr
  | loaded current => exact CutOff.kept h hr
  | closed => exact CutOff.kept h hr
  | ended => exact CutOff.kept h hr

theorem Exchanged.kept (h : Exchanged toBytes fromBytes r peer exchanges ks) (hr : Keeps r r') :
    Exchanged toBytes fromBytes r' peer exchanges ks where
  answered := by
    refine h.answered.imp ?_
    rintro k e ⟨query, answer, hroute, hfor, hk, he⟩
    exact ⟨query, answer, hroute, hfor.kept hr, hk.kept hr, he⟩
  refused := h.refused

/-- A refused request leaves the calls where they are. -/
theorem Exchanged.rejected {req : DohRequest} {refusal : DohResponse}
    (h : Exchanged toBytes fromBytes r peer exchanges ks)
    (hroute : route fromBytes req = .error refusal) :
    Exchanged toBytes fromBytes r peer (exchanges ++ [(req, refusal.sentTo req)]) ks where
  answered := by
    have hnot : (route fromBytes req).isOk = false := by
      rw [hroute]
      rfl
    rw [List.filter_append, List.filter_cons_of_neg (by simp [hnot]), List.filter_nil,
      List.append_nil]
    exact h.answered
  refused e he refusal' hrefusal := by
    rcases List.mem_append.mp he with he | he
    · exact h.refused e he refusal' hrefusal
    · obtain rfl := List.mem_singleton.mp he
      rw [hroute] at hrefusal
      cases hrefusal
      rfl

theorem Exchanged.respond {k : Nat} {req : DohRequest} {query answer : Message}
    (h : Exchanged toBytes fromBytes r peer exchanges ks)
    (hroute : route fromBytes req = .ok query) (hfor : IsFor r peer k query)
    (hk : HasReturned r k answer) :
    Exchanged toBytes fromBytes r peer
      (exchanges ++ [(req, (respond toBytes answer).sentTo req)]) (ks ++ [k]) where
  answered := by
    have hok : (route fromBytes req).isOk = true := by
      rw [hroute]
      rfl
    rw [List.filter_append, List.filter_cons_of_pos (by simp [hok]), List.filter_nil]
    exact List.rel_append h.answered (.cons ⟨query, answer, hroute, hfor, hk, rfl⟩ .nil)
  refused e he refusal hrefusal := by
    rcases List.mem_append.mp he with he | he
    · exact h.refused e he refusal hrefusal
    · obtain rfl := List.mem_singleton.mp he
      rw [hroute] at hrefusal
      cases hrefusal

/-- One more query read, one more call made for it. -/
theorem Reads.next {k : Nat} {query : Message} {ending : Option Str} {rest : ByteStream}
    (h : Reads fromBytes r c ks) (hr : Keeps r r') (hfor : IsFor r' c.peer k query)
    (hnext : (ByteStream.mk c.input ending).next fromBytes = (.ok (some query), rest)) :
    Reads fromBytes r' { c with input := rest.bytes, call := some k } (ks ++ [k]) := by
  obtain ⟨payloads, queries, hcarries, hreceived, hfors⟩ := h.kept hr
  obtain ⟨payload, hcarry, hinput⟩ := ByteStream.carries_of_next hnext
  refine ⟨payloads ++ [payload], queries ++ [query], List.rel_append hcarries (.cons hcarry .nil),
    ?_, List.rel_append hfors (.cons hfor .nil)⟩
  rw [List.flatMap_append, List.flatMap_singleton, List.append_assoc, ← hinput]
  exact hreceived

theorem dohReplies_of_not_working {phase : TaskPhase} (hphase : phase.working = false) :
    DohReplies toBytes fromBytes r c ks phase ↔
      Exchanged toBytes fromBytes r c.peer c.exchanges ks ∨
        ∃ done k, ks = done ++ [k] ∧ Exchanged toBytes fromBytes r c.peer c.exchanges done := by
  cases phase <;> first | rfl | cases hphase

theorem dotReplies_of_not_working {phase : TaskPhase} (hphase : phase.working = false) :
    DotReplies toBytes r c ks phase ↔ CutOff toBytes r c ks := by
  cases phase <;> first | rfl | cases hphase

theorem DohReplies.kept {phase : TaskPhase} (h : DohReplies toBytes fromBytes r c ks phase)
    (hr : Keeps r r') : DohReplies toBytes fromBytes r' c ks phase := by
  by_cases hphase : phase.working = false
  · rw [dohReplies_of_not_working hphase] at h ⊢
    rcases h with h | ⟨done, k, hks, hdone⟩
    · exact .inl (h.kept hr)
    · exact .inr ⟨done, k, hks, hdone.kept hr⟩
  · cases phase with
    | handshake => exact ⟨h.1, h.2.kept hr⟩
    | serving =>
        rcases h with ⟨hcall, h⟩ | ⟨done, k, req, query, hks, hcall, hreq, hroute, hfor, hdone⟩
        · exact .inl ⟨hcall, h.kept hr⟩
        · exact .inr ⟨done, k, req, query, hks, hcall, hreq, hroute, hfor.kept hr, hdone.kept hr⟩
    | reading => exact h
    | resolving query => exact h
    | writing answer => exact h
    | _ => exact absurd rfl hphase

theorem SessionOk.kept (h : SessionOk toBytes fromBytes r c ks t) (hr : Keeps r r') :
    SessionOk toBytes fromBytes r' c ks t := by
  obtain ⟨l, phase, n⟩ := t
  cases l with
  | dot => exact ⟨h.1.kept hr, h.2.kept hr⟩
  | doh => exact DohReplies.kept h hr

/-- A silent step of the task owes nothing new. -/
theorem SessionOk.quiet (h : SessionOk toBytes fromBytes r c ks t) (hq : t.Quiet t') :
    SessionOk toBytes fromBytes r c ks t' := by
  cases hq with
  | same => exact h
  | reading n => exact h
  | serving n => exact Or.inl h
  | refused l n =>
      cases l with
      | dot => exact ⟨h.1, .inl h.2⟩
      | doh => exact .inl h.2
  | @closing l phase phase' n n' hphase hphase' =>
      cases l with
      | dot =>
          have hcut := (dotReplies_of_not_working hphase).mp h.2
          exact ⟨h.1, (dotReplies_of_not_working hphase').mpr hcut⟩
      | doh =>
          have hended := (dohReplies_of_not_working hphase).mp h
          exact (dohReplies_of_not_working hphase').mpr hended

end

/-! ## Over a step -/

namespace ClientsState

section
variable {U : UnicodeCase} {text : LabelText} {cfg : ResolveConfig} {toBytes : ToBytes}
  {fromBytes : FromBytes} {s s' : ClientsState} {e : ClientsEvent}

/-- The resolver takes a step of its own, or none; where a call begins, it
has an owner. -/
theorem resolver_step (hs : s.step U text cfg toBytes fromBytes e = some s') :
    s'.resolver = s.resolver ∧ s'.owners = s.owners ∨
      ∃ re, s.resolver.step U text cfg re = some s'.resolver ∧
        s'.resolver.calls.length + s.owners.length =
          s.resolver.calls.length + s'.owners.length := by
  have hask : ∀ {t : ClientsState} {i : Nat} {c : Session} {query : Message},
      t.resolver = s.resolver → t.owners = s.owners →
      ∃ re, s.resolver.step U text cfg re = some (ask U text t i c query).resolver ∧
        (ask U text t i c query).resolver.calls.length + s.owners.length =
          s.resolver.calls.length + (ask U text t i c query).owners.length := by
    intro t i c query hr ho
    refine ⟨.arrive query (some c.peer), by rw [ask, hr]; rfl, ?_⟩
    simp only [ask, hr, ho, ResolverState.calls_arrive, List.length_append,
      List.length_singleton]
    omega
  cases step_cases hs with
  | read hc hi hnext => exact .inr (hask rfl rfl)
  | request hc hi hcall hroute => exact .inr (hask rfl rfl)
  | @served i c l n resolver outcome hc hi hdrop =>
      unfold dropHandler at hdrop
      split at hdrop
      · cases hdrop
        exact .inl ⟨rfl, rfl⟩
      · rename_i k _
        split at hdrop
        · refine .inr ⟨.cancel k, hdrop, ?_⟩
          show resolver.calls.length + _ = _
          rw [length_calls_step hdrop (by simp)]
          rfl
        · cases hdrop
          exact .inl ⟨rfl, rfl⟩
        · cases hdrop
  | @resolver re r he hr =>
      refine .inr ⟨re, hr, ?_⟩
      show r.calls.length + _ = _
      rw [length_calls_step hr (by rintro query clientIp rfl; cases he)]
  | _ => exact .inl ⟨rfl, rfl⟩

theorem keeps_step (hs : s.step U text cfg toBytes fromBytes e = some s') :
    Keeps s.resolver s'.resolver := by
  rcases resolver_step hs with ⟨hr, _⟩ | ⟨re, hr, _⟩
  · rw [hr]
    exact .refl _
  · intro k call hk
    exact ResolverState.call_kept hr hk

/-- Every call has one owner, and every connection is served in order. -/
structure Inv (toBytes : ToBytes) (fromBytes : FromBytes) (s : ClientsState) : Prop where
  tasks : s.sessions.length = s.tasks.tasks.length
  calls : s.owners.length = s.resolver.calls.length
  owned : ∀ i ∈ s.owners, i < s.sessions.length
  sessions : ∀ (i : Nat) c t, s.sessions[i]? = some c → s.tasks.tasks[i]? = some t →
    SessionOk toBytes fromBytes s.resolver c (callsOf s.owners i) t

theorem Inv.start (resolver : ResolverState) (persisted : PersistedMetrics)
    (hnone : resolver.calls = []) : Inv toBytes fromBytes (.init resolver persisted) where
  tasks := rfl
  calls := by
    rw [init, hnone]
    rfl
  owned _ hi := by cases hi
  sessions _ _ _ hc := by cases hc

/-- One task and its session are updated, and the calls of no other. -/
theorem Inv.update (h : Inv toBytes fromBytes s) {i : Nat} {c c' : Session}
    {t t' : ConnectionTask} (hc : s.sessions[i]? = some c) (ht : s.tasks.tasks[i]? = some t)
    {r : ResolverState} (hr : Keeps s.resolver r) {owners : List Nat}
    (hcalls : owners.length = r.calls.length) (howned : ∀ j ∈ owners, j < s.sessions.length)
    (hother : ∀ j, j ≠ i → callsOf owners j = callsOf s.owners j)
    (hok : SessionOk toBytes fromBytes r c' (callsOf owners i) t') (m : Metrics) :
    Inv toBytes fromBytes ⟨r, s.tasks.setTask i t' m, s.sessions.set i c', owners⟩ where
  tasks := by
    show (s.sessions.set i c').length = (s.tasks.tasks.set i t').length
    rw [List.length_set, List.length_set, h.tasks]
  calls := hcalls
  owned j hj := by
    show j < (s.sessions.set i c').length
    rw [List.length_set]
    exact howned j hj
  sessions j d u hd hu := by
    rcases getElem?_set_eq_some.mp hd with ⟨hne, hd⟩ | ⟨rfl, _, rfl⟩
    · rcases getElem?_set_eq_some.mp hu with ⟨_, hu⟩ | ⟨rfl, _, _⟩
      · show SessionOk toBytes fromBytes r d (callsOf owners j) u
        rw [hother j hne]
        exact (h.sessions j d u hd hu).kept hr
      · exact absurd rfl hne
    · rcases getElem?_set_eq_some.mp hu with ⟨hne, _⟩ | ⟨_, _, rfl⟩
      · exact absurd rfl hne
      · exact hok

theorem Inv.moved (h : Inv toBytes fromBytes s) {i : Nat} {c c' : Session}
    {t t' : ConnectionTask} (hc : s.sessions[i]? = some c) (ht : s.tasks.tasks[i]? = some t)
    (hok : SessionOk toBytes fromBytes s.resolver c' (callsOf s.owners i) t') (m : Metrics) :
    Inv toBytes fromBytes (s.moved i t' m c') :=
  h.update hc ht (.refl _) h.calls h.owned (fun _ _ => rfl) hok m

theorem set_task_self {i : Nat} {t : ConnectionTask} (ht : s.tasks.tasks[i]? = some t) :
    s.tasks.setTask i t s.tasks.metrics = s.tasks := by
  obtain ⟨hlt, rfl⟩ := List.getElem?_eq_some_iff.mp ht
  rw [ConnectionTasks.setTask, List.set_getElem_self hlt]

theorem Inv.setSession (h : Inv toBytes fromBytes s) {i : Nat} {c c' : Session}
    {t : ConnectionTask} (hc : s.sessions[i]? = some c) (ht : s.tasks.tasks[i]? = some t)
    (hok : SessionOk toBytes fromBytes s.resolver c' (callsOf s.owners i) t) :
    Inv toBytes fromBytes (s.setSession i c') := by
  have hmoved := h.moved hc ht hok s.tasks.metrics
  rw [ClientsState.moved, set_task_self ht] at hmoved
  exact hmoved

/-- A new call is for the query that its task has read. -/
theorem isFor_arrive (h : Inv toBytes fromBytes s) (query : Message) (peer : IpAddr) :
    IsFor (s.resolver.arrive U text query (some peer)) peer s.owners.length query := by
  refine ⟨ResolverState.newCall U text s.resolver.blocklist query (some peer), ?_, ?_, ?_⟩
  · rw [ResolverState.calls_arrive, h.calls]
    exact List.getElem?_concat_length
  · exact newCall_query ..
  · unfold ResolverState.newCall
    cases query.queries.head? <;> rfl

theorem Inv.ask (h : Inv toBytes fromBytes s) {i : Nat} {c c' : Session} {t t' : ConnectionTask}
    (hc : s.sessions[i]? = some c) (ht : s.tasks.tasks[i]? = some t) (query : Message)
    (m : Metrics)
    (hok : ∀ r, Keeps s.resolver r → IsFor r c'.peer s.owners.length query →
      SessionOk toBytes fromBytes r { c' with call := some s.owners.length }
        (callsOf s.owners i ++ [s.owners.length]) t') :
    Inv toBytes fromBytes
      (ask U text { s with tasks := s.tasks.setTask i t' m } i c' query) := by
  have hr : Keeps s.resolver (s.resolver.arrive U text query (some c'.peer)) := by
    intro k call hk
    refine ⟨call.phase, ?_, fun _ _ hdone => hdone⟩
    rw [ResolverState.calls_arrive]
    exact getElem?_concat_eq_some.mpr (.inl hk)
  refine h.update hc ht hr ?_ ?_ ?_ ?_ m
  · rw [ResolverState.calls_arrive, List.length_append, List.length_append, h.calls]
    rfl
  · intro j hj
    rcases List.mem_append.mp hj with hj | hj
    · exact h.owned j hj
    · rw [List.mem_singleton.mp hj]
      exact (List.getElem?_eq_some_iff.mp hc).1
  · intro j hne
    rw [callsOf_concat, if_neg hne.symm, List.append_nil]
  · rw [callsOf_concat, if_pos rfl]
    exact hok _ hr (isFor_arrive h query c'.peer)

/-- What a session awaits has been returned. -/
theorem hasReturned_of_answerTo {c : Session} {k : Nat} {answer : Message}
    (hcall : c.call = some k) (h : s.answerTo c = some answer) :
    HasReturned s.resolver k answer := by
  rw [answerTo, hcall, Option.bind_some] at h
  obtain ⟨call, hk, hanswer⟩ := Option.bind_eq_some_iff.mp h
  unfold Call.answer? at hanswer
  split at hanswer
  · rename_i o hdone
    cases hanswer
    exact ⟨call, o, hk, hdone⟩
  · cases hanswer

theorem answerTo_of_none {c : Session} (hcall : c.call = none) : s.answerTo c = none := by
  rw [answerTo, hcall]
  rfl

theorem Inv.dot (h : Inv toBytes fromBytes s) {i : Nat} {c : Session} {phase : TaskPhase}
    {n : Nat} (hc : s.sessions[i]? = some c) (ht : s.tasks.tasks[i]? = some ⟨.dot, phase, n⟩) :
    Reads fromBytes s.resolver c (callsOf s.owners i) ∧
      DotReplies toBytes s.resolver c (callsOf s.owners i) phase :=
  h.sessions i c _ hc ht

theorem Inv.doh (h : Inv toBytes fromBytes s) {i : Nat} {c : Session} {phase : TaskPhase}
    {n : Nat} (hc : s.sessions[i]? = some c) (ht : s.tasks.tasks[i]? = some ⟨.doh, phase, n⟩) :
    DohReplies toBytes fromBytes s.resolver c (callsOf s.owners i) phase :=
  h.sessions i c _ hc ht

theorem Inv.step (h : Inv toBytes fromBytes s)
    (hs : s.step U text cfg toBytes fromBytes e = some s') : Inv toBytes fromBytes s' := by
  have hkeeps := keeps_step hs
  cases step_cases hs with
  | @accept l peer tasks htasks =>
      have htasks := ConnectionTasks.accept_cases htasks
      refine ⟨?_, h.calls, ?_, ?_⟩
      · show (s.sessions ++ [_]).length = tasks.tasks.length
        rw [htasks, List.length_append, List.length_append, h.tasks]
        rfl
      · intro i hi
        have hlt := h.owned i hi
        show i < (s.sessions ++ [_]).length
        rw [List.length_append]
        omega
      · intro i c t hc ht
        have ht : tasks.tasks[i]? = some t := ht
        rw [htasks] at ht
        rcases getElem?_concat_eq_some.mp hc with hc | ⟨rfl, rfl⟩
        · rcases getElem?_concat_eq_some.mp ht with ht | ⟨rfl, rfl⟩
          · exact h.sessions i c t hc ht
          · rw [← h.tasks] at hc
            exact absurd (List.getElem?_eq_some_iff.mp hc).1 (Nat.lt_irrefl _)
        · rw [h.tasks] at ht
          obtain rfl : ⟨l, .handshake, 0⟩ = t := by simpa using ht
          -- no call belongs to a session that is not there yet
          have hnil : callsOf s.owners s.sessions.length = [] :=
            callsOf_eq_nil fun hmem => Nat.lt_irrefl _ (h.owned _ hmem)
          show SessionOk toBytes fromBytes s.resolver _ (callsOf s.owners _) _
          rw [hnil]
          cases l with
          | dot => exact ⟨⟨[], [], .nil, rfl, .nil⟩, replied_nil⟩
          | doh =>
              refine ⟨rfl, .nil, ?_⟩
              intro e he
              cases he
  | @receive i c phase n bytes ht hc =>
      obtain ⟨⟨payloads, queries, hcarries, hreceived, hfor⟩, hreplies⟩ := h.dot hc ht
      refine h.setSession hc ht ⟨⟨payloads, queries, hcarries, ?_, hfor⟩, ?_⟩
      · show c.received ++ bytes = _
        rw [hreceived, List.append_assoc]
      · cases phase <;> exact hreplies
  | @read i c l n m ending query rest hc ht hnext =>
      cases l with
      | dot =>
          obtain ⟨hreads, hreplied⟩ := h.dot hc ht
          refine h.ask hc ht query m fun r hr hfor => ?_
          -- the message read is the next frame of what the client sent
          have hmore := Reads.next hreads hr hfor hnext
          exact ⟨hmore, _, _, rfl, rfl, Replied.kept hreplied hr⟩
      | doh => exact (h.doh hc ht).elim
  | @unread i c l n m ending hc ht =>
      cases l with
      | dot =>
          obtain ⟨hreads, hreplied⟩ := h.dot hc ht
          refine h.moved hc ht ?_ m
          exact ⟨hreads, .inl hreplied⟩
      | doh => exact (h.doh hc ht).elim
  | @resolved i c l n query answer hc ht hanswer =>
      cases l with
      | dot =>
          obtain ⟨hreads, done, k, hks, hcall, hreplied⟩ := h.dot hc ht
          have hk := hasReturned_of_answerTo hcall hanswer
          refine h.moved hc ht ?_ _
          exact ⟨hreads, done, k, hks, hk, hreplied⟩
      | doh => exact (h.doh hc ht).elim
  | @written i c l n m answer payload sent hc ht hpayload =>
      cases l with
      | dot =>
          obtain ⟨hreads, done, k, hks, hk, hreplied⟩ := h.dot hc ht
          have hmore := hreplied.concat hk hpayload
          rw [← hks] at hmore
          refine h.moved hc ht ?_ m
          exact ⟨hreads, hmore⟩
      | doh => exact (h.doh hc ht).elim
  | @unwritten i c l n m answer part outcome sent hc ht hpart =>
      cases l with
      | dot =>
          obtain ⟨hreads, done, k, hks, hk, hreplied⟩ := h.dot hc ht
          refine h.moved hc ht ?_ m
          exact ⟨hreads, .inr ⟨done, k, answer, _, part, hks, hk, hreplied, rfl, hpart⟩⟩
      | doh => exact (h.doh hc ht).elim
  | @rejected i c l n req refusal hc ht hcall hroute =>
      cases l with
      | dot => exact (h.dot hc ht).2.elim
      | doh =>
          rcases h.doh hc ht with ⟨_, hexch⟩ | ⟨_, k, _, _, _, hk, _⟩
          · exact h.setSession hc ht (.inl ⟨hcall, hexch.rejected hroute⟩)
          -- a session that resolves a request takes up no other
          · rw [hcall] at hk
            cases hk
  | @request i c l n req query hc ht hcall hroute =>
      cases l with
      | dot => exact (h.dot hc ht).2.elim
      | doh =>
          rcases h.doh hc ht with ⟨_, hexch⟩ | ⟨_, k, _, _, _, hk, _⟩
          · have hok : ∀ r, Keeps s.resolver r → IsFor r c.peer s.owners.length query →
                SessionOk toBytes fromBytes r
                  { c with call := some s.owners.length, request := some req }
                  (callsOf s.owners i ++ [s.owners.length]) ⟨.doh, .serving, n⟩ :=
              fun r hr hfor =>
                Or.inr ⟨_, _, req, query, rfl, rfl, rfl, hroute, hfor, hexch.kept hr⟩
            have hask : Inv toBytes fromBytes (ClientsState.ask U text { s with
                tasks := s.tasks.setTask i ⟨.doh, .serving, n⟩ s.tasks.metrics } i
                { c with request := some req } query) := h.ask hc ht query _ hok
            rw [set_task_self ht] at hask
            exact hask
          · rw [hcall] at hk
            cases hk
  | @respond i c l n req answer hc ht hreq hanswer =>
      cases l with
      | dot => exact (h.dot hc ht).2.elim
      | doh =>
          rcases h.doh hc ht with
            ⟨hcall, _⟩ | ⟨done, k, req', query, hks, hcall, hreq', hroute, hfor, hexch⟩
          · rw [answerTo_of_none hcall] at hanswer
            cases hanswer
          · rw [hreq] at hreq'
            cases hreq'
            have hk := hasReturned_of_answerTo hcall hanswer
            refine h.setSession hc ht (.inl ⟨rfl, ?_⟩)
            rw [hks]
            exact hexch.respond hroute hfor hk
  | @served i c l n resolver outcome hc ht hdrop =>
      cases l with
      | dot => exact (h.dot hc ht).2.elim
      | doh =>
          refine h.update hc ht hkeeps ?_ h.owned (fun _ _ => rfl) ?_ _
          -- a dropped call keeps its place, so the owners still match the calls
          · rcases resolver_step hs with ⟨hr, _⟩ | ⟨_, _, hlen⟩
            · exact h.calls.trans (congrArg (fun r => r.calls.length) hr).symm
            · have hcalls := h.calls
              have hlen : resolver.calls.length + s.owners.length =
                s.resolver.calls.length + s.owners.length := hlen
              show s.owners.length = resolver.calls.length
              omega
          · rcases h.doh hc ht with ⟨_, hexch⟩ | ⟨done, k, _, _, hks, _, _, _, _, hexch⟩
            · exact .inl (hexch.kept hkeeps)
            · exact .inr ⟨done, k, hks, hexch.kept hkeeps⟩
  | @task ev tasks he htasks =>
      refine ⟨?_, h.calls, h.owned, ?_⟩
      · show s.sessions.length = tasks.tasks.length
        rw [h.tasks, ConnectionTasks.length_silent he htasks]
      · intro i c t hc ht
        obtain ⟨t₀, ht₀, hquiet⟩ := ConnectionTasks.quiet_of_silent he htasks ht
        exact (h.sessions i c t₀ hc ht₀).quiet hquiet
  | @resolver re r he hr =>
      refine ⟨h.tasks, ?_, h.owned, ?_⟩
      · show s.owners.length = r.calls.length
        rw [h.calls, length_calls_step hr (by rintro query clientIp rfl; cases he)]
      · intro i c t hc ht
        exact (h.sessions i c t hc ht).kept hkeeps

end

end ClientsState

theorem ResolverState.answer_id_of_run {U : UnicodeCase} {text : LabelText} {cfg : ResolveConfig}
    {now : Nat} {m : Metrics} {b : ReloadableBlocklist} {obs : Option ObservabilityRegistry}
    {es : List ResolverEvent} {r : ResolverState}
    (hrun : run (ResolverState.step U text cfg) (.init cfg now m b obs) es = some r) {k : Nat}
    {call : Call} {answer : Message} {o : Option Origin} (hk : r.calls[k]? = some call)
    (hdone : call.phase = .done answer o) : answer.id = call.query.id := by
  have hids : ∀ (j : Nat) call, r.calls[j]? = some call → HasQueryId call := by
    refine (Passes.finish hrun).invariant_of_step ?_ fun r _ _ hi hr =>
      ResolverState.forall_calls_step hi hr (hasQueryId_newCall r.blocklist)
        fun _ _ _ _ _ hmove => hasQueryId_moves hmove
    intro j call hj
    cases hj
  exact hids k call hk answer o hdone

/-- **Every connection is served in order.** In every state of every run, with
any number of connections of both servers interleaved, each call of the
resolver was made by one connection; each connection has had its queries
resolved one after another, and has been sent the encoded answers of its
calls in the order of the queries, each with the ID of its query; and the
resolver has only taken steps of its own. -/
theorem connections_are_served (U : UnicodeCase) (text : LabelText) (cfg : ResolveConfig)
    (toBytes : ToBytes) (fromBytes : FromBytes) (now : Nat) (m : Metrics)
    (b : ReloadableBlocklist) (obs : Option ObservabilityRegistry)
    (persisted : PersistedMetrics) (es : List ClientsEvent) (s : ClientsState)
    (hpass : Passes (ClientsState.step U text cfg toBytes fromBytes)
      (.init (ResolverState.init cfg now m b obs) persisted) es s) :
    (∀ (i : Nat) c t, s.sessions[i]? = some c → s.tasks.tasks[i]? = some t →
      SessionOk toBytes fromBytes s.resolver c (callsOf s.owners i) t) ∧
    (∀ k < s.resolver.calls.length, ∃! i, i < s.sessions.length ∧ k ∈ callsOf s.owners i) ∧
    (∀ call ∈ s.resolver.calls, ∀ answer o, call.phase = .done answer o →
      answer.id = call.query.id) ∧
    ∃ res, run (ResolverState.step U text cfg) (ResolverState.init cfg now m b obs) res =
      some s.resolver := by
  have hinv : ClientsState.Inv toBytes fromBytes s :=
    hpass.invariant_of_step (.start _ _ rfl) fun _ _ _ h hs => h.step hs
  have hresolver : ∃ res, run (ResolverState.step U text cfg)
      (ResolverState.init cfg now m b obs) res = some s.resolver := by
    refine hpass.invariant_of_step (I := fun s : ClientsState => ∃ res,
      run (ResolverState.step U text cfg) _ res = some s.resolver) ⟨[], rfl⟩ ?_
    rintro s₁ e s₂ ⟨res, hres⟩ hs
    rcases ClientsState.resolver_step hs with ⟨hr, _⟩ | ⟨re, hr, _⟩
    · exact ⟨res, by rw [hr]; exact hres⟩
    · exact ⟨res ++ [re], by rw [run_concat hres]; exact hr⟩
  refine ⟨hinv.sessions, ?_, ?_, hresolver⟩
  · intro k hk
    rw [← hinv.calls] at hk
    have howner := List.getElem?_eq_getElem hk
    refine ⟨_, ⟨hinv.owned _ (List.mem_of_getElem? howner), mem_callsOf.mpr howner⟩, ?_⟩
    rintro j ⟨_, hj⟩
    rw [mem_callsOf, howner] at hj
    exact (Option.some.inj hj).symm
  · obtain ⟨res, hres⟩ := hresolver
    intro call hcall answer o hdone
    obtain ⟨j, hj⟩ := List.mem_iff_getElem?.mp hcall
    exact ResolverState.answer_id_of_run hres hj hdone

/-! Two connections, and queries without a question: each is answered at
once. -/

/-- The codec on headers, and on the answer to such a query. -/
def formErrToBytes : ToBytes := fun msg =>
  if msg = { id := msg.id, messageType := .response, responseCode := .formErr }
  then .ok (u16Bytes msg.id ++ [0x80, 1] ++ List.replicate 8 0)
  else idToBytes msg

/-- A GET with a query of nothing but a header. -/
def getRequest (id : UInt16) : DohRequest where
  method := .get
  path := dnsQueryPath
  headers := []
  params := .ok ⟨urlSafeNoPad.encode (idBytes id)⟩
  body := .ok []

/-- A POST of the wrong content type. -/
def textRequest : DohRequest where
  method := .post
  path := dnsQueryPath
  headers := [(contentTypeHeader, utf8 "text/plain".toList)]
  params := .error (.rejected .badRequest)
  body := .ok (idBytes 9)

/-- The frame of the second query comes in in two parts. -/
def twoClientsRun : List ClientsEvent :=
  [.accept .dot (.v4 0xCB007101), .accept .doh (.v4 0xCB007102),
   .task (.handshake 0 (some (.ok ()))), .task (.handshake 1 (some (.ok ()))),
   .receive 0 (frame (idBytes 7) ++ [0, 12]), .read 0 none, .request 1 (getRequest 9),
   .resolved 0, .respond 1, .receive 0 (idBytes 258), .write 0 (some (.ok ())) 0,
   .request 1 textRequest, .read 0 none, .resolved 0, .write 0 (some (.ok ())) 0]

/-- The answer to a query without a question, on the wire. -/
def formErrReply (id : UInt16) : List UInt8 := u16Bytes id ++ [0x80, 1] ++ List.replicate 8 0

theorem connections_are_served_two_clients :
    ∃ s c t, run (ClientsState.step .ascii sampleText adsConfig formErrToBytes idFromBytes)
        (.init (ResolverState.init adsConfig 0 {} adsStart.blocklist none) {}) twoClientsRun =
          some s ∧
      s.sessions[0]? = some c ∧ s.tasks.tasks[0]? = some t ∧
      c.output = frame (formErrReply 7) ++ frame (formErrReply 258) ∧
      (s.sessions[1]?).map (fun c => c.exchanges.map Prod.snd) =
        some [⟨.ok, some dnsMessageType, formErrReply 9⟩, .rejected .unsupportedMediaType] ∧
      SessionOk formErrToBytes idFromBytes s.resolver c [0, 2] t := by
  have hrun : ∃ s, run (ClientsState.step .ascii sampleText adsConfig formErrToBytes idFromBytes)
      (.init (ResolverState.init adsConfig 0 {} adsStart.blocklist none) {}) twoClientsRun =
        some s ∧
      ((s.sessions[0]?).map Session.output, s.tasks.tasks.length, callsOf s.owners 0,
        (s.sessions[1]?).map (fun c => c.exchanges.map Prod.snd)) =
      (some (frame (formErrReply 7) ++ frame (formErrReply 258)), 2, [0, 2],
        some [⟨.ok, some dnsMessageType, formErrReply 9⟩, .rejected .unsupportedMediaType]) :=
    Option.map_eq_some_iff.mp (by decide +kernel)
  obtain ⟨s, hs, hseen⟩ := hrun
  simp only [Prod.mk.injEq, Option.map_eq_some_iff] at hseen
  obtain ⟨⟨c, hc, hout⟩, hlen, hcalls, hexch⟩ := hseen
  have ht : s.tasks.tasks[0]? = some s.tasks.tasks[0] := List.getElem?_eq_getElem (by omega)
  have hserved := (connections_are_served .ascii sampleText adsConfig formErrToBytes idFromBytes
    0 {} adsStart.blocklist none {} twoClientsRun s (Passes.finish hs)).1 0 c _ hc ht
  rw [hcalls] at hserved
  exact ⟨s, c, _, hs, hc, ht, hout, by rw [Option.map_eq_some_iff]; exact hexch, hserved⟩

end Dotdns
