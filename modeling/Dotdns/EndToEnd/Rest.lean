import Dotdns.EndToEnd.Answers
import Dotdns.Serve.Rest

/-!
# The process — every query is answered

Left to itself the process stops: after the handshakes that have begun, the
whole frames that have come in, and all that follows from them. Where it
stops, a DoT connection that is still open has been sent one answer for each
frame that it has sent, and an HTTP connection has no request in service.

The bound is again the work that is left, a byte that has not been read
standing for all that it may begin.
-/

namespace Dotdns

open Lib

/-! ## The work before the resolver -/

/-- The steps a connection task has before it. -/
def TaskPhase.work : TaskPhase → Nat
  | .resolving _ => 6
  | .handshake | .writing _ => 5
  | .reading | .serving => 4
  | .closing => 3
  | .loaded _ => 2
  | .closed => 1
  | .ended => 0

/-- The steps that the session's input brings, `lead` for each byte, and the
response that is still to be made. -/
def Session.work (lead : Nat) (c : Session) : Nat :=
  lead * c.input.length + if c.call.isSome then 1 else 0

/-- What the connections have before them, with `n` upstreams. -/
def ClientsState.work (n : Nat) (s : ClientsState) : Nat :=
  (s.tasks.tasks.map fun t => t.phase.work).sum + (s.sessions.map (Session.work (n + 12))).sum

theorem ResolverState.work_arrive {U : UnicodeCase} {text : LabelText} {s : ResolverState}
    (lead : Nat) (query : Message) (clientIp : Option IpAddr) :
    (s.arrive U text query clientIp).work lead ≤ s.work lead + (lead + 8) := by
  have hnew : (newCall U text s.blocklist query clientIp).phase.work lead ≤ lead + 8 := by
    rcases @newCall_phase U text s.blocklist query clientIp with hp | hp
    · rw [hp]
      exact Nat.le_refl _
    · rw [hp]
      exact Nat.zero_le _
  unfold work
  rw [calls_arrive, List.map_append, List.sum_append, List.map_singleton, List.sum_singleton]
  omega

/-- Only `cancel` drops a call. -/
theorem ResolverState.cancelled_before {U : UnicodeCase} {text : LabelText} {cfg : ResolveConfig}
    {s s' : ResolverState} {e : ResolverEvent} (hs : s.step U text cfg e = some s') {k : Nat}
    {call' : Call} (hk : s'.calls[k]? = some call') (hp : call'.phase = .cancelled) :
    e = .cancel k ∨ ∃ call, s.calls[k]? = some call ∧ call.phase = .cancelled := by
  rcases step_calls hs hk with hold | ⟨query, clientIp, _, rfl⟩ | ⟨call, phase, hc, hmove, rfl⟩
  · exact .inr ⟨call', hold, hp⟩
  · rcases @newCall_phase U text s.blocklist query clientIp with hnew | hnew <;>
      (rw [hnew] at hp; cases hp)
  · have hp : phase = .cancelled := hp
    cases hmove with
    | cancelled he _ => exact .inl he
    | miss _ _ _ => split at hp <;> cases hp
    | _ => cases hp

/-- The steps of a connection that need nothing from its peer. A read is one
of them where there is a whole frame to read. -/
def ClientsState.due (s : ClientsState) : ClientsEvent → Bool
  | .read i _ => (s.sessions[i]?).any fun c => wanted c.input == 0
  | .task (.elsewhere _) => false
  | .resolved _ | .write _ _ _ | .respond _ | .task _ => true
  | .accept _ _ | .receive _ _ | .request _ _ | .served _ _ | .resolver _ => false

namespace ClientsState

section
variable {U : UnicodeCase} {text : LabelText} {cfg : ResolveConfig} {toBytes : ToBytes}
  {fromBytes : FromBytes} {s s' : ClientsState} {e : ClientsEvent}

/-- One task and its session have moved. -/
theorem work_set (n : Nat) {i : Nat} {t : ConnectionTask} {c : Session}
    (ht : s.tasks.tasks[i]? = some t) (hc : s.sessions[i]? = some c) (t' : ConnectionTask)
    (m : Metrics) (c' : Session) (r : ResolverState) (owners : List Nat) :
    (ClientsState.mk r (s.tasks.setTask i t' m) (s.sessions.set i c') owners).work n +
        (t.phase.work + c.work (n + 12)) =
      s.work n + (t'.phase.work + c'.work (n + 12)) := by
  have htasks := sum_set_add (fun t : ConnectionTask => t.phase.work) ht t'
  have hsessions := sum_set_add (Session.work (n + 12)) hc c'
  unfold work
  simp only [ConnectionTasks.setTask]
  omega

/-- What is read was there. -/
theorem length_of_next {c : Session} {ending : Option Str} {query : Message} {rest : ByteStream}
    (hnext : (ByteStream.mk c.input ending).next fromBytes = (.ok (some query), rest)) :
    rest.bytes.length + 2 ≤ c.input.length := by
  obtain ⟨payload, _, hinput⟩ := ByteStream.carries_of_next hnext
  have hlen := congrArg List.length hinput
  rw [List.length_append, length_frame] at hlen
  dsimp only at hlen
  omega

/-- The steps of a task that are about its connection alone. -/
theorem work_task (n : Nat) {ev : ConnectionTaskEvent} {tasks : ConnectionTasks}
    (hdue : s.due (.task ev) = true) (hev : ev.silent = true)
    (hs : s.tasks.step toBytes fromBytes ev = some tasks) :
    (ClientsState.mk s.resolver tasks s.sessions s.owners).work n < s.work n := by
  have hset : ∀ {i : Nat} {t t' : ConnectionTask} {m : Metrics}, s.tasks.tasks[i]? = some t →
      t'.phase.work < t.phase.work →
      (ClientsState.mk s.resolver (s.tasks.setTask i t' m) s.sessions s.owners).work n <
        s.work n := by
    intro i t t' m ht hlt
    have hsum := sum_set_add (fun t : ConnectionTask => t.phase.work) ht t'
    unfold work
    simp only [ConnectionTasks.setTask]
    omega
  cases ev with
  | handshake i outcome =>
      simp only [ConnectionTasks.step] at hs
      split at hs
      · rename_i l m hi
        split at hs <;> cases hs <;> exact hset hi (by simp [TaskPhase.work])
      · cases hs
  | load i =>
      simp only [ConnectionTasks.step] at hs
      split at hs
      · rename_i l m hi
        cases hs
        exact hset hi (by simp [TaskPhase.work])
      · cases hs
  | subtract i =>
      simp only [ConnectionTasks.step] at hs
      split at hs
      · rename_i l current m hi
        cases hs
        exact hset hi (by simp [TaskPhase.work])
      · cases hs
  | finish i =>
      simp only [ConnectionTasks.step] at hs
      split at hs
      · rename_i l m hi
        cases hs
        exact hset hi (by simp [TaskPhase.work])
      · cases hs
  | elsewhere m => cases hdue
  | accept _ => cases hev
  | read _ _ => cases hev
  | resolved _ _ => cases hev
  | write _ _ => cases hev
  | served _ _ => cases hev

/-- **A step that needs nothing from a peer leaves less work**, the call that
it begins included. -/
theorem work_step (n : Nat) (hdue : s.due e = true)
    (hs : s.step U text cfg toBytes fromBytes e = some s') :
    s'.work n + s'.resolver.work (n + 1) < s.work n + s.resolver.work (n + 1) := by
  cases step_cases hs with
  | @read i c l m metrics ending query rest hc ht hnext =>
      have hlen := length_of_next hnext
      have harrive := @ResolverState.work_arrive U text s.resolver (n + 1) query (some c.peer)
      have hset := work_set n ht hc ⟨l, .resolving query, m⟩ metrics
        { c with input := rest.bytes, call := some s.owners.length }
        (s.resolver.arrive U text query (some c.peer)) (s.owners ++ [i])
      -- two bytes of a length at least stand for the new call
      have hbytes : (n + 12) * (rest.bytes.length + 2) ≤ (n + 12) * c.input.length :=
        Nat.mul_le_mul_left _ hlen
      rw [Nat.mul_add] at hbytes
      simp only [TaskPhase.work, Session.work, Option.isSome_some, if_true] at hset
      show _ + (s.resolver.arrive U text query (some c.peer)).work (n + 1) < _
      simp only [ask]
      omega
  | @unread i c l m metrics ending hc ht =>
      have hset := work_set n ht hc ⟨l, .closing, m⟩ metrics c s.resolver s.owners
      simp only [TaskPhase.work] at hset
      show (s.moved i ⟨l, .closing, m⟩ metrics c).work n + s.resolver.work (n + 1) < _
      unfold moved
      omega
  | @resolved i c l m query answer hc ht hanswer =>
      have hset := work_set n ht hc ⟨l, .writing answer, m⟩ s.tasks.metrics
        { c with call := none } s.resolver s.owners
      simp only [TaskPhase.work, Session.work, Option.isSome_none, Bool.false_eq_true,
        if_false] at hset
      show (s.moved i ⟨l, .writing answer, m⟩ _ _).work n + s.resolver.work (n + 1) < _
      unfold moved
      omega
  | @written i c l m metrics answer payload sent hc ht hpayload =>
      have hset := work_set n ht hc ⟨l, .reading, m⟩ metrics
        { c with output := c.output ++ frame payload } s.resolver s.owners
      simp only [TaskPhase.work, Session.work] at hset
      show (s.moved i ⟨l, .reading, m⟩ metrics _).work n + s.resolver.work (n + 1) < _
      unfold moved
      omega
  | @unwritten i c l m metrics answer part outcome sent hc ht hpart =>
      have hset := work_set n ht hc ⟨l, .closing, m⟩ metrics
        { c with output := c.output ++ part } s.resolver s.owners
      simp only [TaskPhase.work, Session.work] at hset
      show (s.moved i ⟨l, .closing, m⟩ metrics _).work n + s.resolver.work (n + 1) < _
      unfold moved
      omega
  | @respond i c l m req answer hc ht hreq hanswer =>
      have hcall : c.call.isSome = true := by
        cases hnone : c.call with
        | none =>
            rw [answerTo_of_none hnone] at hanswer
            cases hanswer
        | some k => rfl
      have hset := work_set n ht hc ⟨l, .serving, m⟩ s.tasks.metrics
        { c with
          call := none
          request := none
          exchanges := c.exchanges ++ [(req, (respond toBytes answer).sentTo req)] }
        s.resolver s.owners
      simp only [set_task_self ht, TaskPhase.work, Session.work, hcall, Option.isSome_none,
        Bool.false_eq_true, if_false, if_true] at hset
      show (s.setSession i _).work n + s.resolver.work (n + 1) < _
      unfold setSession
      omega
  | task hev htasks => exact Nat.add_lt_add_right (work_task n hdue hev htasks) _
  | accept _ => cases hdue
  | receive _ _ _ => cases hdue
  | rejected _ _ _ _ => cases hdue
  | request _ _ _ _ => cases hdue
  | served _ _ _ _ => cases hdue
  | resolver _ _ => cases hdue

/-! ## What a session awaits -/

/-- The call that a session awaits is its own, and was not dropped. -/
def Awaits (s : ClientsState) : Prop :=
  ∀ (i : Nat) c k, s.sessions[i]? = some c → c.call = some k →
    s.owners[k]? = some i ∧ ∀ call, s.resolver.calls[k]? = some call → call.phase ≠ .cancelled

theorem Awaits.set (h : s.Awaits) {i : Nat} {c c' : Session} (hc : s.sessions[i]? = some c)
    (hcall : c'.call = none ∨ c'.call = c.call) (tasks : ConnectionTasks) :
    Awaits ⟨s.resolver, tasks, s.sessions.set i c', s.owners⟩ := by
  intro j d k hd hk
  rcases getElem?_set_eq_some.mp hd with ⟨_, hd⟩ | ⟨rfl, _, rfl⟩
  · exact h j d k hd hk
  · rcases hcall with hnone | hsame
    · rw [hnone] at hk
      cases hk
    · exact h j c k hc (hsame.symm.trans hk)

theorem Awaits.ask (h : s.Awaits) (hlen : s.owners.length = s.resolver.calls.length) (i : Nat)
    (c : Session) (query : Message) (tasks : ConnectionTasks) :
    Awaits (ask U text { s with tasks } i c query) := by
  intro j d k hd hk
  have hcalls : (s.resolver.arrive U text query (some c.peer)).calls = s.resolver.calls ++ [_] :=
    ResolverState.calls_arrive
  show (s.owners ++ [i])[k]? = some j ∧
    ∀ call, (s.resolver.arrive U text query (some c.peer)).calls[k]? = some call → _
  rw [hcalls]
  rcases getElem?_set_eq_some.mp hd with ⟨_, hd⟩ | ⟨rfl, _, rfl⟩
  · obtain ⟨howner, hlive⟩ := h j d k hd hk
    refine ⟨getElem?_concat_eq_some.mpr (.inl howner), fun call hcall => ?_⟩
    rcases getElem?_concat_eq_some.mp hcall with hcall | ⟨hnew, _⟩
    · exact hlive call hcall
    · have hlt := (List.getElem?_eq_some_iff.mp howner).1
      omega
  · obtain rfl : s.owners.length = k := Option.some.inj hk
    refine ⟨List.getElem?_concat_length, fun call hcall => ?_⟩
    rcases getElem?_concat_eq_some.mp hcall with hcall | ⟨_, rfl⟩
    · have hlt := (List.getElem?_eq_some_iff.mp hcall).1
      omega
    · rcases @ResolverState.newCall_phase U text s.resolver.blocklist query (some c.peer) with
          hp | hp <;>
        simp [hp]

theorem Awaits.step (h : s.Awaits) (hlen : s.owners.length = s.resolver.calls.length)
    (hs : s.step U text cfg toBytes fromBytes e = some s') : s'.Awaits := by
  cases step_cases hs with
  | accept htasks =>
      intro j d k hd hk
      rcases getElem?_concat_eq_some.mp hd with hd | ⟨_, rfl⟩
      · exact h j d k hd hk
      · cases hk
  | receive bytes hi hc =>
      refine h.set hc ?_ _
      exact .inr rfl
  | read hc hi hnext => exact h.ask hlen _ _ _ _
  | unread ending hc hi =>
      refine h.set hc ?_ _
      exact .inr rfl
  | resolved hc hi hanswer =>
      refine h.set hc ?_ _
      exact .inl rfl
  | written sent hc hi hpayload =>
      refine h.set hc ?_ _
      exact .inr rfl
  | unwritten outcome sent hc hi hpart =>
      refine h.set hc ?_ _
      exact .inr rfl
  | rejected hc hi hcall hroute =>
      refine h.set hc ?_ _
      exact .inr rfl
  | request hc hi hcall hroute => exact h.ask hlen _ _ _ _
  | respond hc hi hreq hanswer =>
      refine h.set hc ?_ _
      exact .inl rfl
  | @served i c l n resolver outcome hc hi hdrop =>
      intro j d k hd hk
      rcases getElem?_set_eq_some.mp hd with ⟨hne, hd⟩ | ⟨rfl, _, rfl⟩
      · obtain ⟨howner, hlive⟩ := h j d k hd hk
        refine ⟨howner, fun call hcall => ?_⟩
        unfold dropHandler at hdrop
        split at hdrop
        · cases hdrop
          exact hlive call hcall
        · rename_i k₁ hk₁
          split at hdrop
          · intro hp
            rcases ResolverState.cancelled_before hdrop hcall hp with he | ⟨call₀, hcall₀, hp₀⟩
            · -- the call of another session
              cases he
              have hother := (h i c k hc hk₁).1
              rw [howner] at hother
              exact hne (Option.some.inj hother)
            · exact hlive call₀ hcall₀ hp₀
          · cases hdrop
            exact hlive call hcall
          · cases hdrop
      · cases hk
  | task he htasks => exact h
  | @resolver re r he hr =>
      intro j d k hd hk
      obtain ⟨howner, hlive⟩ := h j d k hd hk
      refine ⟨howner, fun call hcall hp => ?_⟩
      rcases ResolverState.cancelled_before hr hcall hp with rfl | ⟨call₀, hcall₀, hp₀⟩
      · cases he
      · exact hlive call₀ hcall₀ hp₀

end

end ClientsState

/-- `reply` is the encoded answer to the query that `payload` carries. -/
def FrameAnswered (toBytes : ToBytes) (fromBytes : FromBytes) (r : ResolverState) (peer : IpAddr)
    (payload reply : List UInt8) : Prop :=
  ∃ k query answer, Carries fromBytes payload query ∧ IsFor r peer k query ∧
    HasReturned r k answer ∧ toBytes answer = .ok reply

theorem forall₂_frameAnswered {toBytes : ToBytes} {fromBytes : FromBytes} {r : ResolverState}
    {peer : IpAddr} {payloads replies : List (List UInt8)} {queries : List Message}
    {ks : List Nat} (hcarries : List.Forall₂ (Carries fromBytes) payloads queries)
    (hfor : List.Forall₂ (IsFor r peer) ks queries)
    (hreplies : List.Forall₂ (fun k reply => ∃ answer, HasReturned r k answer ∧
      toBytes answer = .ok reply) ks replies) :
    List.Forall₂ (FrameAnswered toBytes fromBytes r peer) payloads replies := by
  induction hcarries generalizing ks replies with
  | nil =>
      cases hfor
      cases hreplies
      exact .nil
  | cons hcarry _ ih =>
      cases hfor with
      | cons hk hfor =>
          cases hreplies with
          | cons hreply hreplies =>
              obtain ⟨answer, hreturned, hencoded⟩ := hreply
              exact .cons ⟨_, _, answer, hcarry, hk, hreturned, hencoded⟩ (ih hfor hreplies)

/-! ## The work of the process -/

namespace EndToEndState

/-- The steps that the process takes by itself: all but those of a peer,
management, reloads and time. -/
def due (s : EndToEndState) : EndToEndEvent → Bool
  | .client e => s.clients.due e
  | .serve e => e.own

/-- What is left to do, on both sides. -/
def work (n : Nat) (s : EndToEndState) : Nat :=
  s.clients.work n + s.serve.work n

section
variable (U : UnicodeCase) (text : LabelText) (cfg : ResolveConfig) (toBytes : ToBytes)
  (fromBytes : FromBytes)

/-- A step that waits for nobody outside the process. -/
def ownStep (s : EndToEndState) (e : EndToEndEvent) : Option EndToEndState :=
  if s.due e then s.step U text cfg toBytes fromBytes e else none

end

/-- What the process keeps to, in every run. -/
structure Inv (cfg : ResolveConfig) (toBytes : ToBytes) (fromBytes : FromBytes)
    (names : List Str) (m : Metrics) (s : EndToEndState) : Prop where
  clients : ClientsState.Inv toBytes fromBytes s.clients
  awaits : s.clients.Awaits
  serve : ServeState.Inv cfg toBytes names m s.serve

section
variable {U : UnicodeCase} {text : LabelText} {cfg : ResolveConfig} {toBytes : ToBytes}
  {fromBytes : FromBytes} {names : List Str} {m : Metrics} {s s' : EndToEndState}
  {e : EndToEndEvent}

theorem ownStep_eq_some :
    s.ownStep U text cfg toBytes fromBytes e = some s' ↔
      s.due e = true ∧ s.step U text cfg toBytes fromBytes e = some s' := by
  unfold ownStep
  split <;> simp_all

theorem Inv.start (now : Nat) (m : Metrics) (b : ReloadableBlocklist)
    (obs : Option ObservabilityRegistry) (persisted : PersistedMetrics) (names : List Str)
    (policy : UpstreamSelectionPolicy) : Inv cfg toBytes fromBytes names m
      (.init cfg now m b obs persisted names policy) where
  clients := .start _ _ rfl
  awaits i c k hc := by cases hc
  serve := ⟨ServeState.Linked.start now m b obs names policy, PoolState.inv_init names policy m⟩

theorem Inv.step (h : Inv cfg toBytes fromBytes names m s)
    (hs : s.step U text cfg toBytes fromBytes e = some s') :
    Inv cfg toBytes fromBytes names m s' := by
  have hserve : ServeState.Inv cfg toBytes names m s'.serve := by
    rcases stepSeen_eq_some.mp (serve_step hs) with ⟨_, _, hstep⟩ | ⟨_, hsame⟩
    · exact h.serve.step hstep
    · rw [hsame]
      exact h.serve
  rcases stepSeen_eq_some.mp (clients_step hs) with ⟨_, _, hstep⟩ | ⟨_, hsame⟩
  · exact ⟨h.clients.step hstep, h.awaits.step h.clients.calls hstep, hserve⟩
  · exact ⟨hsame ▸ h.clients, hsame ▸ h.awaits, hserve⟩

/-- **Every step of the process's own leaves less work.** -/
theorem work_step (h : Inv cfg toBytes fromBytes names m s) (hdue : s.due e = true)
    (hs : s.step U text cfg toBytes fromBytes e = some s') :
    s'.work names.length < s.work names.length := by
  cases step_cases hs with
  | client _ hclients _ =>
      have hlt := ClientsState.work_step names.length hdue hclients
      simp only [work, ServeState.work, serve]
      omega
  | dropped _ _ _ _ => cases hdue
  | serve _ ht =>
      have hlt := ServeState.work_step h.serve hdue ht
      exact Nat.add_lt_add_left hlt _

/-! ## Where it stops -/

variable (hrest : AtRest (ownStep U text cfg toBytes fromBytes) (fun _ => True) s)

include hrest in
theorem step_eq_none (hdue : s.due e = true) :
    s.step U text cfg toBytes fromBytes e = none := by
  have hstep := hrest e trivial
  rw [ownStep, if_pos hdue] at hstep
  exact hstep

include hrest in
theorem client_rest {e : ClientsEvent} (hdue : s.clients.due e = true) :
    s.clients.step U text cfg toBytes fromBytes e = none := by
  by_contra hsome
  obtain ⟨clients, hclients⟩ := Option.ne_none_iff_exists'.mp hsome
  have he : ∀ re, e ≠ .resolver re := by
    rintro re rfl
    cases hdue
  have hstep := step_eq_none hrest (e := .client e) hdue
  have hclient : s.step U text cfg toBytes fromBytes (.client e) =
      s.clientStep U text cfg toBytes fromBytes e := by
    cases e with
    | resolver re => exact absurd rfl (he re)
    | _ => rfl
  rw [hclient, clientStep, hclients, Option.bind_some] at hstep
  split at hstep
  · rename_i k hre
    rcases ClientsState.resolverEvent_cases he hre with
      ⟨_, _, harrive⟩ | ⟨i, outcome, _, rfl, _⟩
    · cases harrive
    · cases hdue
  · cases hstep

theorem Inv.listenerOf_eq_some (h : Inv cfg toBytes fromBytes names m s) {i : Nat}
    (hi : i < s.clients.resolver.calls.length) : ∃ l, s.listenerOf i = some l := by
  rw [← h.clients.calls] at hi
  have howner := List.getElem?_eq_getElem hi
  have hlt := h.clients.owned _ (List.mem_of_getElem? howner)
  rw [h.clients.tasks] at hlt
  exact ⟨_, by rw [listenerOf, howner, Option.bind_some, List.getElem?_eq_getElem hlt,
    Option.map_some]⟩

/-- A call looks at the cache at whichever server it came in. -/
theorem step_lookup_isSome {l : Listener} {i : Nat} {r : ResolverState}
    (hr : s.clients.resolver.step U text cfg (.lookup i) = some r) :
    s.serve.step U text cfg toBytes (.lookup l i) ≠ none := by
  have hr : s.serve.resolver.step U text cfg (.lookup i) = some r := hr
  simp only [ServeState.step, hr, Option.bind_some]
  split
  · simp [Listeners.step, PendingState.step]
  · simp

include hrest in
theorem serve_rest (h : Inv cfg toBytes fromBytes names m s) :
    AtRest (ServeState.step U text cfg toBytes) (fun e => e.own = true) s.serve := by
  have hadmitted : ∀ e, ServeEvent.own e = true → s.admits e = true →
      s.serve.step U text cfg toBytes e = none := by
    intro e hown hadmits
    have hstep := step_eq_none hrest (e := .serve e) hown
    rw [EndToEndState.step, if_pos hadmits] at hstep
    exact Option.map_eq_none_iff.mp hstep
  intro e hown
  by_contra hsome
  cases e with
  | lookup l i =>
      obtain ⟨t, ht⟩ := Option.ne_none_iff_exists'.mp hsome
      obtain ⟨r, hr, _⟩ := Option.bind_eq_some_iff.mp ht
      have hlt : i < s.clients.resolver.calls.length := by
        cases ResolverState.step_cases hr with
        | lookup hi _ => exact (List.getElem?_eq_some_iff.mp hi).1
      obtain ⟨l', hl'⟩ := h.listenerOf_eq_some hlt
      exact step_lookup_isSome hr (hadmitted (.lookup l' i) rfl (beq_iff_eq.mpr hl'))
  | resolver re =>
      refine hsome (hadmitted _ hown ?_)
      cases re with
      | arrive query clientIp => cases hown
      | _ => rfl
  | cancel l k => cases hown
  | _ => exact hsome (hadmitted _ hown rfl)

/-- Where a task of a server can be that has nothing to do. -/
theorem no_close_rest (hclient : ∀ e, s.clients.due e = true →
    s.clients.step U text cfg toBytes fromBytes e = none) {i : Nat} {l : Listener}
    {phase : TaskPhase} {n : Nat} (ht : s.clients.tasks.tasks[i]? = some ⟨l, phase, n⟩) :
    phase.working = true ∧ phase ≠ .handshake ∨ phase = .ended := by
  cases phase with
  | handshake =>
      have hstep := hclient (.task (.handshake i none)) rfl
      simp [ClientsState.step, ConnectionTaskEvent.silent, ConnectionTasks.step, ht] at hstep
  | closing =>
      have hstep := hclient (.task (.load i)) rfl
      simp [ClientsState.step, ConnectionTaskEvent.silent, ConnectionTasks.step, ht] at hstep
  | loaded current =>
      have hstep := hclient (.task (.subtract i)) rfl
      simp [ClientsState.step, ConnectionTaskEvent.silent, ConnectionTasks.step, ht] at hstep
  | closed =>
      have hstep := hclient (.task (.finish i)) rfl
      simp [ClientsState.step, ConnectionTaskEvent.silent, ConnectionTasks.step, ht] at hstep
  | ended => exact .inr rfl
  | _ => exact .inl ⟨rfl, by simp⟩

/-- What a session awaits has been returned. -/
theorem Inv.answerTo_eq_some (h : Inv cfg toBytes fromBytes names m s)
    (hfinished : s.serve.Finished) {i k : Nat} {c : Session} (hc : s.clients.sessions[i]? = some c)
    (hk : c.call = some k) : ∃ answer, s.clients.answerTo c = some answer := by
  obtain ⟨howner, hlive⟩ := h.awaits i c k hc hk
  have hlt := (List.getElem?_eq_some_iff.mp howner).1
  rw [h.clients.calls] at hlt
  have hcall := List.getElem?_eq_getElem hlt
  rcases hfinished.calls _ (List.mem_of_getElem? hcall) with ⟨answer, o, hdone⟩ | hcancelled
  · refine ⟨answer, ?_⟩
    rw [ClientsState.answerTo, hk, Option.bind_some, hcall, Option.bind_some, Call.answer?, hdone]
  · exact absurd hcancelled (hlive _ hcall)

theorem dot_rest (h : Inv cfg toBytes fromBytes names m s) (hfinished : s.serve.Finished)
    (hclient : ∀ e, s.clients.due e = true →
      s.clients.step U text cfg toBytes fromBytes e = none) {i : Nat} {c : Session}
    {phase : TaskPhase} {n : Nat} (hc : s.clients.sessions[i]? = some c)
    (ht : s.clients.tasks.tasks[i]? = some ⟨.dot, phase, n⟩) :
    phase = .ended ∨ phase = .reading ∧ wanted c.input ≠ 0 := by
  have hreplies := (h.clients.dot hc ht).2
  rcases no_close_rest hclient ht with ⟨hworking, hshaken⟩ | hended
  · cases phase with
    | reading =>
        refine .inr ⟨rfl, fun hwhole => ?_⟩
        have hdue : s.clients.due (.read i none) = true := by
          simp [ClientsState.due, hc, hwhole]
        have hstep := hclient (.read i none) hdue
        simp only [ClientsState.step, hc, Option.bind_some, Option.map_eq_none_iff,
          ConnectionTasks.step, ht] at hstep
        split at hstep <;> cases hstep
    | resolving query =>
        obtain ⟨done, k, _, hk, _⟩ := hreplies
        obtain ⟨answer, hanswer⟩ := h.answerTo_eq_some hfinished hc hk
        have hstep := hclient (.resolved i) rfl
        simp [ClientsState.step, ConnectionTasks.step, hc, hanswer, ht] at hstep
    | writing answer =>
        have hstep := hclient (.write i none 0) rfl
        simp only [ClientsState.step, hc, ht, Option.map_eq_none_iff, ConnectionTasks.step] at hstep
        split at hstep <;> cases hstep
    | serving => exact hreplies.elim
    | handshake => exact absurd rfl hshaken
    | _ => cases hworking
  · exact .inl hended

theorem doh_rest (h : Inv cfg toBytes fromBytes names m s) (hfinished : s.serve.Finished)
    (hclient : ∀ e, s.clients.due e = true →
      s.clients.step U text cfg toBytes fromBytes e = none) {i : Nat} {c : Session}
    {phase : TaskPhase} {n : Nat} (hc : s.clients.sessions[i]? = some c)
    (ht : s.clients.tasks.tasks[i]? = some ⟨.doh, phase, n⟩) :
    phase = .ended ∨ phase = .serving ∧ c.call = none ∧
      Exchanged toBytes fromBytes s.clients.resolver c.peer c.exchanges
        (callsOf s.clients.owners i) := by
  have hreplies := h.clients.doh hc ht
  rcases no_close_rest hclient ht with ⟨hworking, hshaken⟩ | hended
  · cases phase with
    | serving =>
        rcases hreplies with ⟨hcall, hexchanged⟩ | ⟨done, k, req, query, _, hk, hreq, _⟩
        · exact .inr ⟨rfl, hcall, hexchanged⟩
        · obtain ⟨answer, hanswer⟩ := h.answerTo_eq_some hfinished hc hk
          have hstep := hclient (.respond i) rfl
          simp [ClientsState.step, hc, ht, hreq, hanswer] at hstep
    | handshake => exact absurd rfl hshaken
    | reading => exact hreplies.elim
    | resolving query => exact hreplies.elim
    | writing answer => exact hreplies.elim
    | _ => cases hworking
  · exact .inl hended

/-- Every query that has come in has been answered. -/
structure Quiet (toBytes : ToBytes) (fromBytes : FromBytes) (s : EndToEndState) : Prop where
  dot : ∀ (i : Nat) c phase n, s.clients.sessions[i]? = some c →
    s.clients.tasks.tasks[i]? = some ⟨.dot, phase, n⟩ →
    phase = .ended ∨ phase = .reading ∧ ∃ replies, c.output = replies.flatMap frame ∧
      List.Forall₂ (FrameAnswered toBytes fromBytes s.clients.resolver c.peer)
        (frames c.received) replies
  doh : ∀ (i : Nat) c phase n, s.clients.sessions[i]? = some c →
    s.clients.tasks.tasks[i]? = some ⟨.doh, phase, n⟩ →
    phase = .ended ∨ phase = .serving ∧ c.call = none ∧
      Exchanged toBytes fromBytes s.clients.resolver c.peer c.exchanges
        (callsOf s.clients.owners i)
  serve : s.serve.Finished

theorem quiet_of_rest (h : Inv cfg toBytes fromBytes names m s)
    (hrest : AtRest (ownStep U text cfg toBytes fromBytes) (fun _ => True) s) :
    s.Quiet toBytes fromBytes := by
  have hclient : ∀ e, s.clients.due e = true →
      s.clients.step U text cfg toBytes fromBytes e = none := fun _ => client_rest hrest
  have hfinished : s.serve.Finished := ServeState.finished_of_rest (serve_rest hrest h) h.serve
  refine ⟨?_, fun i c phase n hc ht => doh_rest h hfinished hclient hc ht, hfinished⟩
  intro i c phase n hc ht
  rcases dot_rest h hfinished hclient hc ht with hended | ⟨rfl, hpart⟩
  · exact .inl hended
  · obtain ⟨⟨payloads, queries, hcarries, hreceived, hfor⟩, replies, hreplies, hout⟩ :=
      h.clients.dot hc ht
    have hframes : frames c.received = payloads := by
      have hfits : List.Forall₂ (fun payload query => payload.length < 65536 ∧
          Carries fromBytes payload query) payloads queries :=
        hcarries.imp fun _ _ h => ⟨h.fits, h⟩
      rw [hreceived]
      exact frames_of_wanted ((List.forall₂_and_left _ _).mp hfits).1 hpart
    refine .inr ⟨rfl, replies, hout, ?_⟩
    rw [hframes]
    exact forall₂_frameAnswered hcarries hfor hreplies

end

end EndToEndState

/-- **Every query is answered.** From every state that a run of the process
reaches, whatever its connections, futures and upstreams have been through,
it can take no more steps by itself than the work that is left there, in
any order and with any outcome of what it tries; and where it stops, which
it can, every DoT connection that is still open has been sent exactly one
frame for each whole frame that has come in, in their order, with the
answer to it; every HTTP connection has had a response to each request; and
nothing is left in the resolver, in the coalescers or in the pool. -/
theorem every_query_is_answered (U : UnicodeCase) (text : LabelText) (cfg : ResolveConfig)
    (toBytes : ToBytes) (fromBytes : FromBytes) (now : Nat) (m : Metrics)
    (b : ReloadableBlocklist) (obs : Option ObservabilityRegistry)
    (persisted : PersistedMetrics) (names : List Str) (policy : UpstreamSelectionPolicy)
    (es : List EndToEndEvent) (s : EndToEndState)
    (hrun : run (EndToEndState.step U text cfg toBytes fromBytes)
      (.init cfg now m b obs persisted names policy) es = some s) :
    let ownStep := EndToEndState.ownStep U text cfg toBytes fromBytes
    (∀ es' s', run ownStep s es' = some s' → es'.length ≤ s.work names.length ∧
      (AtRest ownStep (fun _ => True) s' → s'.Quiet toBytes fromBytes)) ∧
    ∃ es' s', run ownStep s es' = some s' ∧ s'.Quiet toBytes fromBytes := by
  intro ownStep
  have hinv : EndToEndState.Inv cfg toBytes fromBytes names m s :=
    (Passes.finish hrun).invariant_of_step (.start now m b obs persisted names policy)
      fun _ _ _ h hs => h.step hs
  have hstep : ∀ s e s', EndToEndState.Inv cfg toBytes fromBytes names m s → True →
      ownStep s e = some s' → EndToEndState.Inv cfg toBytes fromBytes names m s' ∧
        s'.work names.length < s.work names.length := by
    intro s e s' h _ hs
    obtain ⟨hdue, hs⟩ := EndToEndState.ownStep_eq_some.mp hs
    exact ⟨h.step hs, EndToEndState.work_step h hdue hs⟩
  constructor
  · intro es' s' hrun'
    obtain ⟨hinv', hle⟩ := run_le_measure hstep hinv (fun _ _ => trivial) hrun'
    exact ⟨by omega, fun hrest => EndToEndState.quiet_of_rest hinv' hrest⟩
  · obtain ⟨es', s', _, hrun', hrest⟩ := exists_run_to_rest hstep hinv
    obtain ⟨hinv', _⟩ := run_le_measure hstep hinv (fun _ _ => trivial) hrun'
    exact ⟨es', s', hrun', EndToEndState.quiet_of_rest hinv' hrest⟩

/-- Two frames and a part of a third have come in, and one request. -/
def quietStartRun : List EndToEndEvent :=
  bothServersRun.take 4 ++
    [.client (.receive 0 (frame (u16Bytes 1 ++ adsQueryTail) ++
        frame (u16Bytes 3 ++ adsQueryTail) ++ [0, 30, 1])),
     .client (.request 1 (adsPost 2))]

theorem every_query_is_answered_two_frames :
    ∃ s, run (EndToEndState.step .ascii sampleText adsConfig adsEncode adsDecode)
        bothServersStart quietStartRun = some s ∧ s.work 2 = 930 ∧
      ∃ es' s', run (EndToEndState.ownStep .ascii sampleText adsConfig adsEncode adsDecode) s
        es' = some s' ∧ s'.Quiet adsEncode adsDecode := by
  obtain ⟨s, hs, hwork⟩ := Option.map_eq_some_iff.mp (show
    (run (EndToEndState.step .ascii sampleText adsConfig adsEncode adsDecode) bothServersStart
      quietStartRun).map (EndToEndState.work 2) = some 930 by decide +kernel)
  exact ⟨s, hs, hwork, (every_query_is_answered .ascii sampleText adsConfig adsEncode adsDecode
    0 {} _ none {} ["a".toList, "b".toList] .sequential quietStartRun s hs).2⟩

end Dotdns
