import Dotdns.Serve.Provenance
import Dotdns.Upstream.Attempts

/-!
# Serve — why a query fails

An error answer is made for the query it goes to, and nothing in it says
why. The headline says why: the query had no question or could not be
encoded, its wait ran out, or every upstream failed for a query like it.
-/

namespace Dotdns

open Lib

/-! ## What has returned stays -/

theorem PendingState.returned_kept {toBytes : ToBytes} {s s' : PendingState} {e : PendingEvent}
    (hs : s.step toBytes e = some s') {k : Nat} {c : Caller} (hc : s.callers[k]? = some c)
    (hvalue : c.phase.returnedValue.isSome) : s'.callers[k]? = some c := by
  have hset : ∀ {i : Nat} {c₁ c₂ : Caller}, s.callers[i]? = some c₁ →
      c₁.phase.returnedValue = none → (s.callers.set i c₂)[k]? = some c := by
    intro i c₁ c₂ hi hnone
    refine getElem?_set_eq_some.mpr (.inl ⟨?_, hc⟩)
    rintro rfl
    rw [hi] at hc
    cases hc
    rw [hnone] at hvalue
    cases hvalue
  cases PendingState.step_cases hs with
  | called hk => exact getElem?_concat_eq_some.mpr (.inl hc)
  | refused hk => exact getElem?_concat_eq_some.mpr (.inl hc)
  | followed hi hk => exact hset hi rfl
  | led hi hk => exact hset hi rfl
  | answered result hf hp => exact hc
  | removed hf hp => exact hc
  | @published f fl result tx hf hp =>
      show (s.sent tx result).callers[k]? = some c
      rw [PendingState.callers_sent]
      exact hc
  | left m hi hphase => exact hset hi rfl
  | cancelled hi hp =>
      refine hset hi ?_
      rcases hp with ⟨key, hp⟩ | ⟨leader, f, hp⟩ <;> (rw [hp]; rfl)

theorem PoolState.returned_kept {s s' : PoolState} {e : PoolEvent} (hs : s.step e = some s')
    {p : Nat} {result : PendingResult} (hp : s.calls[p]? = some (.returned result)) :
    s'.calls[p]? = some (.returned result) := by
  have hset : ∀ {i idx : Nat} {order : List Nat} {c : PoolCall},
      s.calls[i]? = some (.trying idx order) →
      (s.calls.set i c)[p]? = some (.returned result) := by
    intro i idx order c hi
    refine getElem?_set_eq_some.mpr (.inl ⟨?_, hp⟩)
    rintro rfl
    rw [hi] at hp
    cases hp
  cases e with
  | call nowMs =>
      simp only [PoolState.step] at hs
      split at hs <;> (cases hs; exact getElem?_concat_eq_some.mpr (.inl hp))
  | attempt i a =>
      simp only [PoolState.step] at hs
      split at hs
      · rename_i hi
        cases hs
        exact hset hi
      · cases hs
  | cancel i =>
      simp only [PoolState.step] at hs
      split at hs
      · rename_i hi
        cases hs
        exact hset hi
      · cases hs

/-- Every way a call can come to an answer of no origin. -/
theorem ResolverState.error_before {U : UnicodeCase} {text : LabelText} {cfg : ResolveConfig}
    {s s' : ResolverState} {e : ResolverEvent} (hs : s.step U text cfg e = some s') {j : Nat}
    {c' : Call} {answer : Message} (hj : s'.calls[j]? = some c')
    (hp : c'.phase = .done answer none) :
    s.calls[j]? = some c' ∨
    (c'.query.queries = [] ∧ answer = makeErrorResponse c'.query .formErr) ∨
    ∃ err, e = .reply j (.error err) ∧ answer = makeErrorResponse c'.query .servFail := by
  rcases step_calls hs hj with hold | ⟨query, clientIp, _, rfl⟩ | ⟨c, phase, hc, hmove, rfl⟩
  · exact .inl hold
  · refine .inr (.inl ?_)
    unfold newCall at hp ⊢
    cases hq : query.queries with
    | nil =>
        simp only [hq, List.head?_nil, CallPhase.done.injEq, and_true] at hp ⊢
        exact ⟨trivial, hp.symm⟩
    | cons q qs => simp [hq] at hp
  · have hp : phase = .done answer none := hp
    cases hmove with
    | failed he _ =>
        cases hp
        exact .inr (.inr ⟨_, he, rfl⟩)
    | miss _ _ _ => split at hp <;> cases hp
    | _ => cases hp

namespace ServeState

section
variable {U : UnicodeCase} {text : LabelText} {cfg : ResolveConfig} {toBytes : ToBytes}
variable {s s' : ServeState} {e : ServeEvent}

theorem returned_kept (hs : s.step U text cfg toBytes e = some s') {l : Listener} {k : Nat}
    {c : Caller} (hc : (s.listeners.pending l).callers[k]? = some c)
    (hvalue : c.phase.returnedValue.isSome) :
    (s'.listeners.pending l).callers[k]? = some c := by
  rcases stepSeen_eq_some.mp (listeners_step hs) with ⟨⟨l₁, ev⟩, _, hls⟩ | ⟨_, hls⟩
  · by_cases hl : l = l₁
    · subst hl
      exact PendingState.returned_kept (Listeners.step_self hls) hc hvalue
    · obtain ⟨m, hm⟩ := Listeners.step_other hls hl
      rw [hm]
      exact hc
  · rw [hls]
    exact hc

theorem pool_returned_kept (hs : s.step U text cfg toBytes e = some s') {p : Nat}
    {result : PendingResult} (hp : s.pool.calls[p]? = some (.returned result)) :
    s'.pool.calls[p]? = some (.returned result) := by
  rcases stepSeen_eq_some.mp (pool_step hs) with ⟨_, _, hpool⟩ | ⟨_, hpool⟩
  · exact PoolState.returned_kept hpool hp
  · rw [hpool]
    exact hp

theorem task_kept (hs : s.step U text cfg toBytes e = some s') {p : Nat}
    {task : Listener × Nat} (hp : s.tasks[p]? = some task) : s'.tasks[p]? = some task := by
  cases step_cases hs with
  | query _ _ _ _ =>
      rw [← hp]
      exact List.getElem?_append_left (List.getElem?_eq_some_iff.mp hp).1
  | _ => exact hp

end

/-- The attempt that a step completes. -/
def attempted (s : ServeState) (e : ServeEvent) : Option MadeAttempt :=
  (poolEvent e).bind s.pool.attempted

/-- A call that resolve call `i` has made of its coalescer has returned an
error. -/
def ReturnedError (s : ServeState) (i : Nat) : Prop :=
  ∃ (l : Listener) (k : Nat) (caller : Caller) (err : UpstreamError),
    (s.owners l)[k]? = some i ∧ (s.listeners.pending l).callers[k]? = some caller ∧
      caller.phase.returnedValue = some (.error err)

/-- What the errors in the process go back to. -/
structure Failures (s : ServeState) : Prop where
  errors : ∀ (i : Nat) (c : Call) (answer : Message), s.resolver.calls[i]? = some c →
    c.phase = .done answer none →
    (c.query.queries = [] ∧ answer = makeErrorResponse c.query .formErr) ∨
      answer = makeErrorResponse c.query .servFail ∧ s.ReturnedError i
  answered : ∀ (l : Listener) (f : Nat) (fl : Flight) (result : PendingResult),
    (s.listeners.pending l).flights[f]? = some fl → fl.phase.result = some result →
    ∃ p : Nat, s.tasks[p]? = some (l, f) ∧ s.pool.calls[p]? = some (PoolCall.returned result)

section
variable {U : UnicodeCase} {text : LabelText} {cfg : ResolveConfig} {toBytes : ToBytes}
variable {s s' : ServeState} {e : ServeEvent}

theorem ReturnedError.kept {i : Nat} (h : s.ReturnedError i)
    (hs : s.step U text cfg toBytes e = some s') : s'.ReturnedError i := by
  obtain ⟨l, k, caller, err, howner, hc, hvalue⟩ := h
  exact ⟨l, k, caller, err, Linked.owner_after hs howner,
    returned_kept hs hc (by rw [hvalue]; rfl), hvalue⟩

/-- The resolver is given what a coalescer's call has returned. -/
theorem returned_of_reply (hs : s.step U text cfg toBytes e = some s') {i : Nat}
    {result : PendingResult} (he : s.resolverEvent e = some (.reply i result)) :
    ∃ (l : Listener) (k : Nat) (c : Caller), (s.owners l)[k]? = some i ∧
      (s.listeners.pending l).callers[k]? = some c ∧ c.phase.returnedValue = some result := by
  cases step_cases hs with
  | resolver halone _ =>
      cases he
      cases halone
  | resume howner hc hvalue _ =>
      rw [resolverEvent, returning_eq_some.mpr ⟨howner, _, hc, hvalue⟩] at he
      cases he
      exact ⟨_, _, _, howner, hc, hvalue⟩
  | cancel howner _ _ =>
      rw [resolverEvent, howner] at he
      cases he
  | hit _ _ => cases he
  | missed _ _ _ => cases he
  | pending _ _ => cases he
  | query _ _ _ _ => cases he
  | attempt _ => cases he
  | answer _ _ _ => cases he

theorem Failures.start (now : Nat) (m : Metrics) (b : ReloadableBlocklist)
    (obs : Option ObservabilityRegistry) (names : List Str) (policy : UpstreamSelectionPolicy) :
    Failures (.init cfg now m b obs names policy) where
  errors i c answer h := by cases h
  answered l f fl result h := by
    cases l <;> cases h

theorem Failures.step (h : Failures s) (hs : s.step U text cfg toBytes e = some s') :
    Failures s' where
  errors i c' answer hi hp := by
    have hold : s.resolver.calls[i]? = some c' →
        (c'.query.queries = [] ∧ answer = makeErrorResponse c'.query .formErr) ∨
          answer = makeErrorResponse c'.query .servFail ∧ s'.ReturnedError i :=
      fun hi => (h.errors i c' answer hi hp).imp_right fun hcause =>
        ⟨hcause.1, hcause.2.kept hs⟩
    rcases stepSeen_eq_some.mp (resolver_step hs) with ⟨e', he', hr⟩ | ⟨_, hr⟩
    · rcases ResolverState.error_before hr hi hp with hi | hform | ⟨err, rfl, hanswer⟩
      · exact hold hi
      · exact .inl hform
      · obtain ⟨l, k, caller, howner, hc, hvalue⟩ := returned_of_reply hs he'
        exact .inr ⟨hanswer,
          ReturnedError.kept ⟨l, k, caller, err, howner, hc, hvalue⟩ hs⟩
    · rw [hr] at hi
      exact hold hi
  answered l f fl' result hf hres := by
    rcases flight_before hs hf with
      ⟨fl, hfl, _, hsame | ⟨p, r, _, htask, hcall, hr⟩⟩ | ⟨_, hphase, _⟩
    · obtain ⟨p, htask, hcall⟩ := h.answered l f fl result hfl (hsame.symm.trans hres)
      exact ⟨p, task_kept hs htask, pool_returned_kept hs hcall⟩
    · rw [hr] at hres
      cases hres
      exact ⟨p, task_kept hs htask, pool_returned_kept hs hcall⟩
    · rw [hphase] at hres
      cases hres

theorem triedOk_step {n : Nat} {made : List MadeAttempt} (h : s.pool.TriedOk n made)
    (hs : s.step U text cfg toBytes e = some s') :
    s'.pool.TriedOk n (made ++ (s.attempted e).toList) := by
  unfold attempted
  rcases stepSeen_eq_some.mp (pool_step hs) with ⟨ev, hev, hpool⟩ | ⟨hev, hpool⟩
  · rw [hev]
    exact h.step hpool
  · rw [hev, hpool, Option.bind_none, Option.toList_none, List.append_nil]
    exact h

end

/-- Why the query `u` got an error: it has no wire form; or the wait of one
of its calls ran out; or a flight for its wire form, but for the ID, has
tried every one of `n` upstreams, once, and all have failed. -/
def Unanswered (toBytes : ToBytes) (n : Nat) (made : List MadeAttempt) (s : ServeState) (i : Nat)
    (u : Message) : Prop :=
  (∃ err, pendingKey toBytes u = .error err) ∨
  (∃ (l : Listener) (k : Nat) (caller : Caller) (leader : Bool) (f : Nat),
    (s.owners l)[k]? = some i ∧ (s.listeners.pending l).callers[k]? = some caller ∧
      caller.phase = .timedOut leader f) ∨
  ∃ (l : Listener) (f p : Nat) (fl : Flight), (s.listeners.pending l).flights[f]? = some fl ∧
    pendingKey toBytes u = .ok fl.key ∧ pendingKey toBytes fl.query = .ok fl.key ∧
    s.tasks[p]? = some (l, f) ∧
    ((PoolState.attemptsOf p made).map MadeAttempt.upstream).Perm (List.range n) ∧
    ∀ a ∈ PoolState.attemptsOf p made, a.Failed

section
variable {cfg : ResolveConfig} {toBytes : ToBytes} {s : ServeState}

theorem unanswered_of_returnedError (hlinked : Linked cfg toBytes s) (hfail : Failures s)
    {n : Nat} {made : List MadeAttempt} (htried : s.pool.TriedOk n made) {i : Nat} {c : Call}
    (hi : s.resolver.calls[i]? = some c) (h : s.ReturnedError i) :
    s.Unanswered toBytes n made i (c.upstreamQuery cfg) := by
  obtain ⟨l, k, caller, err, howner, hc, hvalue⟩ := h
  obtain ⟨call, hcall, hquery⟩ := hlinked.caller l k i caller howner hc
  rw [hi] at hcall
  cases hcall
  have hok := (hlinked.pending l).callers caller (List.mem_of_getElem? hc)
  rw [← hquery]
  obtain ⟨query, phase⟩ := caller
  cases phase with
  | starting key => cases hvalue
  | waiting leader f => cases hvalue
  | cancelled => cases hvalue
  | orphaned leader f => exact hok.elim
  | failed e => exact .inl ⟨e, hok⟩
  | timedOut leader f => exact .inr (.inl ⟨l, k, _, leader, f, howner, hc, rfl⟩)
  | returned leader f r =>
      cases hvalue
      obtain ⟨fl, hf, hkey, hdone⟩ := hok
      obtain ⟨p, htask, hreturned⟩ :=
        hfail.answered l f fl (.error err) hf (by rw [hdone]; rfl)
      obtain ⟨hperm, hfailed, _⟩ := htried.calls p _ hreturned
      exact .inr (.inr ⟨l, f, p, fl, hf, hkey, (hlinked.pending l).key f fl hf, htask, hperm,
        hfailed⟩)

end

section
variable {U : UnicodeCase} {text : LabelText} {cfg : ResolveConfig} {toBytes : ToBytes}
variable {now : Nat} {m : Metrics} {b : ReloadableBlocklist}
variable {obs : Option ObservabilityRegistry} {names : List Str}
variable {policy : UpstreamSelectionPolicy} {es : List ServeEvent} {s : ServeState}

theorem failures_of_run
    (hrun : run (step U text cfg toBytes) (.init cfg now m b obs names policy) es = some s) :
    Failures s :=
  (Passes.finish hrun).invariant_of_step (Failures.start now m b obs names policy)
    fun _ _ _ hi hs => hi.step hs

theorem triedOk_of_run
    (hrun : run (step U text cfg toBytes) (.init cfg now m b obs names policy) es = some s) :
    s.pool.TriedOk names.length
      (trace (step U text cfg toBytes) attempted (.init cfg now m b obs names policy) es) := by
  refine run_induction (I := fun es s => s.pool.TriedOk names.length
    (trace (step U text cfg toBytes) attempted (.init cfg now m b obs names policy) es))
    (PoolState.TriedOk.init names policy m) ?_ hrun
  intro es s e s' hrun h hs
  rw [trace_concat hrun]
  exact triedOk_step h hs

end

end ServeState

end Dotdns
