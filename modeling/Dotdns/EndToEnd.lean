import Dotdns.Clients.Replies
import Dotdns.Serve.Failures

/-!
# The process, from the sockets to the upstreams

The connections of both servers on one side of the resolver, the
coalescers and the pool on its other side, all in one run. A query arrives
at the resolver because a connection task has read it, and is looked up and
coalesced at the server it came in at; an HTTP connection that ends takes
its handler with it, and the handler the call of the coalescer that it
awaits.

A step of the whole is a step of one of the two halves, and what it does to
the resolver is a step of the other half: so each half sees a run of its
own.
-/

namespace Dotdns

open Lib

/-- The whole process: connections, resolver, coalescers, pool. -/
structure EndToEndState where
  clients : ClientsState
  listeners : Listeners
  /-- As in `ServeState`. -/
  owners : Listener → List Nat
  pool : PoolState
  tasks : List (Listener × Nat)

/-- A step at the clients' side, or behind it. -/
inductive EndToEndEvent where
  /-- A step of a connection. -/
  | client (e : ClientsEvent)
  /-- A step of the resolver, a coalescer or the pool. -/
  | serve (e : ServeEvent)

/-- What a step of a connection is to the resolver. -/
def ClientsState.resolverEvent (fromBytes : FromBytes) (s : ClientsState) :
    ClientsEvent → Option ResolverEvent
  | .read i ending =>
      (s.sessions[i]?).bind fun c =>
        match ((ByteStream.mk c.input ending).next fromBytes).1 with
        | .ok (some query) => some (.arrive query (some c.peer))
        | _ => none
  | .request i req =>
      (s.sessions[i]?).bind fun c =>
        match route fromBytes req with
        | .ok query => some (.arrive query (some c.peer))
        | .error _ => none
  | .served i _ =>
      (s.sessions[i]?).bind fun c => c.call.bind fun k =>
        match (s.resolver.calls[k]?).map Call.phase with
        | some .waiting => some (.cancel k)
        | _ => none
  | .resolver e => some e
  | .accept _ _ | .receive _ _ | .resolved _ | .write _ _ _ | .respond _ | .task _ => none

/-- What a step of a connection is to its task. -/
def ClientsState.taskEvent (s : ClientsState) : ClientsEvent → Option ConnectionTaskEvent
  | .accept l _ => some (.accept l)
  | .read i ending => (s.sessions[i]?).map fun c => .read i (ByteStream.mk c.input ending).readIo
  | .resolved i => (s.sessions[i]?).bind fun c => (s.answerTo c).map (.resolved i)
  | .write i outcome _ => some (.write i fun _ => outcome)
  | .served i outcome => some (.served i outcome)
  | .task e => some e
  | .receive _ _ | .request _ _ | .respond _ | .resolver _ => none

namespace EndToEndState

/-- As `run_serve` wires them. -/
def init (cfg : ResolveConfig) (now : Nat) (m : Metrics) (blocklist : ReloadableBlocklist)
    (observability : Option ObservabilityRegistry) (persisted : PersistedMetrics)
    (names : List Str) (policy : UpstreamSelectionPolicy) : EndToEndState where
  clients := .init (ResolverState.init cfg now m blocklist observability) persisted
  listeners := .init m
  owners _ := []
  pool := .init names policy m
  tasks := []

/-- The half behind the resolver. -/
def serve (s : EndToEndState) : ServeState :=
  ⟨s.clients.resolver, s.listeners, s.owners, s.pool, s.tasks⟩

/-- The state with its part behind the connections at `t`. -/
def withServe (s : EndToEndState) (t : ServeState) : EndToEndState :=
  ⟨{ s.clients with resolver := t.resolver }, t.listeners, t.owners, t.pool, t.tasks⟩

/-- The server that resolve call `i` came in at. -/
def listenerOf (s : EndToEndState) (i : Nat) : Option Listener :=
  (s.clients.owners[i]?).bind fun task =>
    (s.clients.tasks.tasks[task]?).map ConnectionTask.listener

/-- A connection makes the calls and drops them, and each is coalesced at
its own server. -/
def admits (s : EndToEndState) : ServeEvent → Bool
  | .resolver (.arrive _ _) | .cancel _ _ => false
  | .lookup l i => s.listenerOf i == some l
  | .resolver _ | .pending _ _ | .query _ _ _ | .attempt _ _ | .answer _ | .resume _ _ => true

section
variable (U : UnicodeCase) (text : LabelText) (cfg : ResolveConfig) (toBytes : ToBytes)
  (fromBytes : FromBytes)

/-- A connection's step, with what it drops behind the resolver. -/
def clientStep (s : EndToEndState) (e : ClientsEvent) : Option EndToEndState :=
  (s.clients.step U text cfg toBytes fromBytes e).bind fun clients =>
    match s.clients.resolverEvent fromBytes e with
    | some (.cancel k) =>
        ((s.owners .doh).idxOf? k).bind fun p =>
          (s.listeners.step toBytes (.doh, .cancel p)).map fun listeners =>
            { s with clients, listeners }
    | _ => some { s with clients }

/-- One step of the process. -/
def step (s : EndToEndState) : EndToEndEvent → Option EndToEndState
  | .client (.resolver _) => none
  | .client e => s.clientStep U text cfg toBytes fromBytes e
  | .serve e =>
      if s.admits e then (s.serve.step U text cfg toBytes e).map s.withServe else none

/-- The step of the connections that a step is. -/
def clientsEvent (s : EndToEndState) : EndToEndEvent → Option ClientsEvent
  | .client e => some e
  | .serve e => (s.serve.resolverEvent e).map .resolver

/-- The step behind the resolver that a step is. -/
def serveEvent (s : EndToEndState) : EndToEndEvent → Option ServeEvent
  | .client e =>
      match s.clients.resolverEvent fromBytes e with
      | some (.cancel k) => ((s.owners .doh).idxOf? k).map (.cancel .doh)
      | some re => some (.resolver re)
      | none => none
  | .serve e => some e

end

end EndToEndState

/-! ## Two halves -/

theorem ConnectionTasks.listener_kept {toBytes : ToBytes} {fromBytes : FromBytes}
    {ts ts' : ConnectionTasks} {e : ConnectionTaskEvent}
    (hs : ts.step toBytes fromBytes e = some ts') {i : Nat} {t : ConnectionTask}
    (ht : ts.tasks[i]? = some t) : ∃ t', ts'.tasks[i]? = some t' ∧ t'.listener = t.listener := by
  have hset : ∀ {j : Nat} {u u' : ConnectionTask} {m : Metrics}, ts.tasks[j]? = some u →
      u'.listener = u.listener →
      ∃ t', (ts.setTask j u' m).tasks[i]? = some t' ∧ t'.listener = t.listener := by
    intro j u u' m hj hl
    by_cases hij : j = i
    · subst hij
      rw [ht] at hj
      cases hj
      exact ⟨u', getElem?_set_of_some ht u', hl⟩
    · exact ⟨t, getElem?_set_eq_some.mpr (.inl ⟨Ne.symm hij, ht⟩), rfl⟩
  cases effect_of_step hs with
  | accepted l _ => exact ⟨t, getElem?_concat_eq_some.mpr (.inl ht), rfl⟩
  | worked j u phase m hj _ _ _ _ => exact hset hj rfl
  | loaded j l n hj => exact hset hj rfl
  | subtracted j l current n hj => exact hset hj rfl
  | finished j l n hj => exact hset hj rfl
  | elsewhere m => exact ⟨t, ht, rfl⟩

namespace ClientsState

section
variable {U : UnicodeCase} {text : LabelText} {cfg : ResolveConfig} {toBytes : ToBytes}
  {fromBytes : FromBytes} {s s' : ClientsState} {e : ClientsEvent}

/-- The resolver has taken the step that it has seen. -/
theorem seen_step (hs : s.step U text cfg toBytes fromBytes e = some s') :
    stepSeen (ResolverState.step U text cfg) s.resolver (s.resolverEvent fromBytes e) =
      some s'.resolver := by
  cases e with
  | read i ending =>
      obtain ⟨c, hc, hs⟩ := Option.bind_eq_some_iff.mp hs
      obtain ⟨tasks, _, rfl⟩ := Option.map_eq_some_iff.mp hs
      simp only [resolverEvent, hc, Option.bind_some]
      generalize (ByteStream.mk c.input ending).next fromBytes = read
      obtain ⟨result, rest⟩ := read
      -- a failed read and the end of the stream ask nothing
      cases result with
      | error err => rfl
      | ok msg => cases msg <;> rfl
  | request i req =>
      simp only [step] at hs
      split at hs
      · rename_i l n c hi hc
        simp only [resolverEvent, hc, Option.bind_some]
        split at hs
        · cases hs
        · split at hs
          · rename_i status hroute
            cases hs
            rw [hroute]
            rfl
          · rename_i query hroute
            cases hs
            rw [hroute]
            rfl
      · cases hs
  | served i outcome =>
      obtain ⟨c, hc, hs⟩ := Option.bind_eq_some_iff.mp hs
      obtain ⟨tasks, _, hs⟩ := Option.bind_eq_some_iff.mp hs
      obtain ⟨resolver, hdrop, rfl⟩ := Option.map_eq_some_iff.mp hs
      simp only [resolverEvent, hc, Option.bind_some]
      -- a handler dropped while it waits cancels its call
      unfold dropHandler at hdrop
      cases hcall : c.call with
      | none =>
          rw [hcall] at hdrop
          exact hdrop
      | some k =>
          rw [hcall] at hdrop
          dsimp only at hdrop
          rw [Option.bind_some]
          split at hdrop
          · rename_i hwait
            rw [hwait]
            exact hdrop
          · rename_i answer o hdone
            rw [hdone]
            exact hdrop
          · cases hdrop
  | resolver re =>
      simp only [step] at hs
      split at hs
      · obtain ⟨resolver, hr, rfl⟩ := Option.map_eq_some_iff.mp hs
        exact hr
      · cases hs
  | _ => cases step_cases hs <;> rfl

theorem tasks_step (hs : s.step U text cfg toBytes fromBytes e = some s') :
    stepSeen (ConnectionTasks.step toBytes fromBytes) s.tasks (s.taskEvent e) =
      some s'.tasks := by
  cases e with
  | accept l peer =>
      obtain ⟨tasks, htasks, rfl⟩ := Option.map_eq_some_iff.mp hs
      exact htasks
  | read i ending =>
      obtain ⟨c, hc, hs⟩ := Option.bind_eq_some_iff.mp hs
      obtain ⟨tasks, htasks, rfl⟩ := Option.map_eq_some_iff.mp hs
      rw [taskEvent, hc, Option.map_some]
      refine Eq.trans htasks (congrArg some ?_)
      split <;> rfl
  | resolved i =>
      obtain ⟨c, hc, hs⟩ := Option.bind_eq_some_iff.mp hs
      obtain ⟨answer, hanswer, hs⟩ := Option.bind_eq_some_iff.mp hs
      obtain ⟨tasks, htasks, rfl⟩ := Option.map_eq_some_iff.mp hs
      rw [taskEvent, hc, Option.bind_some, hanswer]
      exact htasks
  | write i outcome sent =>
      simp only [step] at hs
      split at hs
      · obtain ⟨tasks, htasks, rfl⟩ := Option.map_eq_some_iff.mp hs
        exact htasks
      · cases hs
  | served i outcome =>
      obtain ⟨c, hc, hs⟩ := Option.bind_eq_some_iff.mp hs
      obtain ⟨tasks, htasks, hs⟩ := Option.bind_eq_some_iff.mp hs
      obtain ⟨resolver, _, rfl⟩ := Option.map_eq_some_iff.mp hs
      exact htasks
  | task e =>
      simp only [step] at hs
      split at hs
      · obtain ⟨tasks, htasks, rfl⟩ := Option.map_eq_some_iff.mp hs
        exact htasks
      · cases hs
  | _ => cases step_cases hs <;> rfl

/-- A connection stays at the server that has accepted it. -/
theorem listener_kept (hs : s.step U text cfg toBytes fromBytes e = some s') {i : Nat}
    {t : ConnectionTask} (ht : s.tasks.tasks[i]? = some t) :
    ∃ t', s'.tasks.tasks[i]? = some t' ∧ t'.listener = t.listener := by
  rcases stepSeen_eq_some.mp (tasks_step hs) with ⟨ev, _, htasks⟩ | ⟨_, htasks⟩
  · exact ConnectionTasks.listener_kept htasks ht
  · rw [htasks]
    exact ⟨t, ht, rfl⟩

theorem owner_kept (hs : s.step U text cfg toBytes fromBytes e = some s') {k i : Nat}
    (hk : s.owners[k]? = some i) : s'.owners[k]? = some i := by
  cases step_cases hs with
  | read _ _ _ => exact getElem?_concat_eq_some.mpr (.inl hk)
  | request _ _ _ _ => exact getElem?_concat_eq_some.mpr (.inl hk)
  | _ => exact hk

/-- A connection begins a call or drops one. -/
theorem resolverEvent_cases {re : ResolverEvent} (he : ∀ re, e ≠ .resolver re)
    (h : s.resolverEvent fromBytes e = some re) :
    (∃ query peer, re = .arrive query (some peer)) ∨ ∃ i outcome k, e = .served i outcome ∧
      re = .cancel k := by
  cases e with
  | read i ending =>
      obtain ⟨c, _, h⟩ := Option.bind_eq_some_iff.mp h
      split at h
      · exact .inl ⟨_, _, (Option.some.inj h).symm⟩
      · cases h
  | request i req =>
      obtain ⟨c, _, h⟩ := Option.bind_eq_some_iff.mp h
      split at h
      · exact .inl ⟨_, _, (Option.some.inj h).symm⟩
      · cases h
  | served i outcome =>
      obtain ⟨c, _, h⟩ := Option.bind_eq_some_iff.mp h
      obtain ⟨k, _, h⟩ := Option.bind_eq_some_iff.mp h
      split at h
      · exact .inr ⟨i, outcome, k, rfl, (Option.some.inj h).symm⟩
      · cases h
  | resolver re => exact absurd rfl (he re)
  | _ => cases h

end

end ClientsState

namespace EndToEndState

section
variable {U : UnicodeCase} {text : LabelText} {cfg : ResolveConfig} {toBytes : ToBytes}
  {fromBytes : FromBytes} {s s' : EndToEndState} {e : EndToEndEvent}

theorem step_client (h : s.step U text cfg toBytes fromBytes e = some s') {ce : ClientsEvent}
    (he : e = .client ce) : (∀ re, ce ≠ .resolver re) ∧
      s.clientStep U text cfg toBytes fromBytes ce = some s' := by
  subst he
  cases ce with
  | resolver re => cases h
  | _ => exact ⟨fun re => by simp, h⟩

/-- The steps as a relation, guards included. -/
inductive Step (U : UnicodeCase) (text : LabelText) (cfg : ResolveConfig) (toBytes : ToBytes)
    (fromBytes : FromBytes) (s : EndToEndState) : EndToEndEvent → EndToEndState → Prop
  /-- A connection moves, and may begin a call. -/
  | client {e : ClientsEvent} {clients : ClientsState} : (∀ re, e ≠ .resolver re) →
      s.clients.step U text cfg toBytes fromBytes e = some clients →
      (∀ re, s.clients.resolverEvent fromBytes e = some re →
        ∃ query peer, re = .arrive query (some peer)) →
      Step U text cfg toBytes fromBytes s (.client e) { s with clients }
  /-- An HTTP connection ends, and its handler with it. -/
  | dropped {i k p : Nat} {outcome : Except Str Unit} {clients : ClientsState}
      {listeners : Listeners} :
      s.clients.step U text cfg toBytes fromBytes (.served i outcome) = some clients →
      s.clients.resolverEvent fromBytes (.served i outcome) = some (.cancel k) →
      (s.owners .doh).idxOf? k = some p →
      s.listeners.step toBytes (.doh, .cancel p) = some listeners →
      Step U text cfg toBytes fromBytes s (.client (.served i outcome))
        { s with clients, listeners }
  | serve {e : ServeEvent} {t : ServeState} : s.admits e = true →
      s.serve.step U text cfg toBytes e = some t →
      Step U text cfg toBytes fromBytes s (.serve e) (s.withServe t)

theorem step_cases (hs : s.step U text cfg toBytes fromBytes e = some s') :
    Step U text cfg toBytes fromBytes s e s' := by
  cases e with
  | serve e =>
      simp only [step] at hs
      split at hs
      · rename_i hadmits
        obtain ⟨t, ht, rfl⟩ := Option.map_eq_some_iff.mp hs
        exact .serve hadmits ht
      · cases hs
  | client e =>
      obtain ⟨he, hs⟩ := step_client hs rfl
      obtain ⟨clients, hclients, hs⟩ := Option.bind_eq_some_iff.mp hs
      split at hs
      · rename_i k hre
        obtain ⟨p, hp, hs⟩ := Option.bind_eq_some_iff.mp hs
        obtain ⟨listeners, hls, rfl⟩ := Option.map_eq_some_iff.mp hs
        rcases ClientsState.resolverEvent_cases he hre with
          ⟨_, _, harrive⟩ | ⟨i, outcome, _, rfl, _⟩
        · cases harrive
        · exact .dropped hclients hre hp hls
      · rename_i hne
        cases hs
        refine .client he hclients fun re hre => ?_
        rcases ClientsState.resolverEvent_cases he hre with harrive | ⟨_, _, k, _, rfl⟩
        · exact harrive
        · exact absurd hre (hne k)

/-- What the resolver does in a step behind it, the connections allow. -/
theorem inner_of_admits {se : ServeEvent} (hadmits : s.admits se = true) {t : ServeState}
    (hs : s.serve.step U text cfg toBytes se = some t) {re : ResolverEvent}
    (hre : s.serve.resolverEvent se = some re) : re.inner = true := by
  cases ServeState.step_cases hs with
  | resolver halone _ =>
      cases hre
      cases re with
      | arrive query clientIp => cases hadmits
      | lookup i => cases halone
      | reply i result => cases halone
      | cancel i => cases halone
      | _ => rfl
  | hit _ _ =>
      cases hre
      rfl
  | missed _ _ _ =>
      cases hre
      rfl
  | resume _ _ _ _ =>
      obtain ⟨_, _, rfl⟩ := Option.map_eq_some_iff.mp hre
      rfl
  | cancel _ _ _ => cases hadmits
  | pending _ _ => cases hre
  | query _ _ _ _ => cases hre
  | attempt _ => cases hre
  | answer _ _ _ => cases hre

theorem clients_step (hs : s.step U text cfg toBytes fromBytes e = some s') :
    stepSeen (ClientsState.step U text cfg toBytes fromBytes) s.clients (s.clientsEvent e) =
      some s'.clients := by
  cases step_cases hs with
  | client _ hclients _ => exact hclients
  | dropped hclients _ _ _ => exact hclients
  | @serve se t hadmits ht =>
      have hseen := ServeState.resolver_step ht
      show stepSeen _ _ ((s.serve.resolverEvent se).map ClientsEvent.resolver) = _
      cases hre : s.serve.resolverEvent se with
      | none =>
          rw [hre] at hseen
          have hsame : t.resolver = s.clients.resolver := (Option.some.inj hseen).symm
          show some s.clients = some { s.clients with resolver := t.resolver }
          rw [hsame]
      | some re =>
          rw [hre] at hseen
          have hr : s.clients.resolver.step U text cfg re = some t.resolver := hseen
          show s.clients.step U text cfg toBytes fromBytes (.resolver re) = _
          simp only [ClientsState.step, inner_of_admits hadmits ht hre, if_true, hr,
            Option.map_some]
          rfl

theorem serve_step (hs : s.step U text cfg toBytes fromBytes e = some s') :
    stepSeen (ServeState.step U text cfg toBytes) s.serve (s.serveEvent fromBytes e) =
      some s'.serve := by
  cases step_cases hs with
  | serve _ ht => exact ht
  | @client ce clients _ hclients harrive =>
      have hseen := ClientsState.seen_step hclients
      simp only [serveEvent]
      cases hre : s.clients.resolverEvent fromBytes ce with
      | none =>
          rw [hre] at hseen
          have hsame : clients.resolver = s.clients.resolver := (Option.some.inj hseen).symm
          show some s.serve = some { s.serve with resolver := clients.resolver }
          rw [hsame]
          rfl
      | some re =>
          rw [hre] at hseen
          obtain ⟨query, peer, rfl⟩ := harrive re hre
          have hr : s.clients.resolver.step U text cfg (.arrive query (some peer)) =
            some clients.resolver := hseen
          have hr' : s.serve.resolver.step U text cfg (.arrive query (some peer)) =
            some clients.resolver := hr
          simp only [stepSeen, ServeState.step, ResolverEvent.alone, if_true, hr',
            Option.map_some]
          rfl
  | @dropped i k p outcome clients listeners hclients hre hp hls =>
      have hseen := ClientsState.seen_step hclients
      rw [hre] at hseen
      have howner : (s.serve.owners .doh)[p]? = some k := by
        obtain ⟨hlt, hk, _⟩ := List.idxOf?_eq_some_iff.mp hp
        exact List.getElem?_eq_some_iff.mpr ⟨hlt, hk⟩
      have hr : s.serve.resolver.step U text cfg (.cancel k) = some clients.resolver := hseen
      have hls' : s.serve.listeners.step toBytes (.doh, .cancel p) = some listeners := hls
      simp only [serveEvent, hre, hp, Option.map_some, stepSeen, ServeState.step, howner, hr, hls',
        Option.bind_some]
      rfl

end

end EndToEndState

end Dotdns
