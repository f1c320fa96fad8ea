import Dotdns.Server.Pending

/-!
# Server — what a coalescer has left to do

The steps of `PendingState.step` as a relation, and what follows from it:
which queries calls and flights are for, where the result of a flight
comes from, and how much work is left after a step. A coalescer is never
stuck: whatever waits in it waits for a step that some task can take.
-/

namespace Dotdns

open Lib

namespace PendingState

/-- What a task does with the sender it removed. -/
def sent (s : PendingState) (tx : Option Nat) (result : PendingResult) : PendingState :=
  match tx with
  | some g => s.send g result
  | none => s

/-- The steps as a relation, guards included. -/
inductive Step (toBytes : ToBytes) (s : PendingState) : PendingEvent → PendingState → Prop
  | called {query : Message} {key : PendingKey} : pendingKey toBytes query = .ok key →
      Step toBytes s (.call query) { s with callers := s.callers ++ [⟨query, .starting key⟩] }
  | refused {query : Message} {err : UpstreamError} : pendingKey toBytes query = .error err →
      Step toBytes s (.call query) { s with callers := s.callers ++ [⟨query, .failed err⟩] }
  | followed {i f : Nat} {query : Message} {key : PendingKey} :
      s.callers[i]? = some ⟨query, .starting key⟩ → s.inner.get? key = some f →
      Step toBytes s (.join i)
        (s.setCaller i ⟨query, .waiting false f⟩ s.metrics.recordPendingFollowerJoined)
  | led {i : Nat} {query : Message} {key : PendingKey} :
      s.callers[i]? = some ⟨query, .starting key⟩ → s.inner.get? key = none →
      Step toBytes s (.join i)
        { inner := s.inner.insert key s.flights.length
          flights := s.flights ++ [⟨key, query, .running, none⟩]
          callers := s.callers.set i ⟨query, .waiting true s.flights.length⟩
          metrics := s.metrics.recordPendingLeaderStarted }
  | answered {f : Nat} {fl : Flight} (result : PendingResult) : s.flights[f]? = some fl →
      fl.phase = .running →
      Step toBytes s (.answer f result) { s.setPhase f (.completed result) with
        metrics := s.metrics.recordPendingLeaderCompleted }
  | removed {f : Nat} {fl : Flight} {result : PendingResult} : s.flights[f]? = some fl →
      fl.phase = .completed result →
      Step toBytes s (.remove f) { s.setPhase f (.removed result (s.inner.get? fl.key)) with
        inner := s.inner.erase fl.key }
  | published {f : Nat} {fl : Flight} {result : PendingResult} {tx : Option Nat} :
      s.flights[f]? = some fl → fl.phase = .removed result tx →
      Step toBytes s (.publish f) ((s.sent tx result).setPhase f (.done result))
  | left {e : PendingEvent} {i f : Nat} {query : Message} {leader : Bool} {phase : CallerPhase}
      (m : Metrics) :
      s.callers[i]? = some ⟨query, .waiting leader f⟩ →
      e = .poll i ∧ ((∃ r, s.channelValue f = some r ∧ phase = .returned leader f r) ∨
        phase = .orphaned leader f) ∨
      e = .timeout i ∧ phase = .timedOut leader f →
      Step toBytes s e (s.setCaller i ⟨query, phase⟩ m)
  | cancelled {i : Nat} {c : Caller} : s.callers[i]? = some c →
      (∃ key, c.phase = .starting key) ∨ (∃ leader f, c.phase = .waiting leader f) →
      Step toBytes s (.cancel i) (s.setCaller i ⟨c.query, .cancelled⟩ s.metrics)

section
variable {toBytes : ToBytes} {s s' : PendingState} {e : PendingEvent}

/-- **Every step is one of these.** -/
theorem step_cases (hs : s.step toBytes e = some s') : Step toBytes s e s' := by
  cases e with
  | call query =>
      cases hk : pendingKey toBytes query with
      | ok key =>
          simp only [step, hk, Option.some.injEq] at hs
          subst hs
          exact .called hk
      | error err =>
          simp only [step, hk, Option.some.injEq] at hs
          subst hs
          exact .refused hk
  | join i =>
      simp only [step] at hs
      split at hs
      · rename_i query key hc
        cases hs
        unfold PendingState.join
        split
        · rename_i f hk
          exact .followed hc hk
        · rename_i hk
          exact .led hc hk
      · cases hs
  | answer f result =>
      simp only [step] at hs
      split at hs
      · rename_i hphase
        cases hs
        obtain ⟨fl, hf, hrun⟩ := Option.map_eq_some_iff.mp hphase
        exact .answered result hf hrun
      · cases hs
  | remove f =>
      simp only [step] at hs
      split at hs
      · rename_i key query result value hf
        cases hs
        exact .removed hf rfl
      · cases hs
  | publish f =>
      simp only [step] at hs
      split at hs
      · rename_i result tx hphase
        cases hs
        obtain ⟨fl, hf, hrem⟩ := Option.map_eq_some_iff.mp hphase
        exact .published hf hrem
      · cases hs
  | poll i =>
      simp only [step] at hs
      split at hs
      · rename_i query leader f hc
        split at hs
        · rename_i r hv
          cases hs
          exact .left _ hc (.inl ⟨rfl, .inl ⟨r, hv, rfl⟩⟩)
        · split at hs
          · cases hs
          · cases hs
            exact .left _ hc (.inl ⟨rfl, .inr rfl⟩)
      · cases hs
  | timeout i =>
      simp only [step] at hs
      split at hs
      · rename_i query leader f hc
        split at hs
        · cases hs
          exact .left _ hc (.inr ⟨rfl, rfl⟩)
        · cases hs
      · cases hs
  | cancel i =>
      simp only [step] at hs
      split at hs
      · rename_i query key hc
        cases hs
        exact .cancelled hc (.inl ⟨key, rfl⟩)
      · rename_i query leader f hc
        cases hs
        exact .cancelled hc (.inr ⟨leader, f, rfl⟩)
      · cases hs

/-! ## Calls and flights -/

@[simp] theorem callers_sent (s : PendingState) (tx : Option Nat) (result : PendingResult) :
    (s.sent tx result).callers = s.callers := by
  unfold sent send
  cases tx with
  | none => rfl
  | some g =>
      dsimp only
      split <;> rfl

@[simp] theorem length_flights_sent (s : PendingState) (tx : Option Nat)
    (result : PendingResult) : (s.sent tx result).flights.length = s.flights.length := by
  unfold sent send
  cases tx with
  | none => rfl
  | some g =>
      dsimp only
      split
      · exact List.length_modify ..
      · rfl

/-- Sending a value leaves a flight as it is but for its channel. -/
theorem getElem?_sent (tx : Option Nat) (result : PendingResult) {f : Nat} {fl : Flight}
    (h : s.flights[f]? = some fl) :
    ∃ value, (s.sent tx result).flights[f]? = some { fl with value } := by
  unfold sent send
  cases tx with
  | none => exact ⟨fl.value, h⟩
  | some g =>
      dsimp only
      split
      · by_cases hg : f = g
        · exact ⟨some result, getElem?_modify_eq_some.mpr (.inr ⟨hg, fl, h, rfl⟩)⟩
        · exact ⟨fl.value, getElem?_modify_eq_some.mpr (.inl ⟨hg, h⟩)⟩
      · exact ⟨fl.value, h⟩

theorem getElem?_setPhase {f g : Nat} {phase : FlightPhase} {fl' : Flight}
    (h : (s.setPhase g phase).flights[f]? = some fl') :
    ∃ fl, s.flights[f]? = some fl ∧ fl'.query = fl.query ∧
      (f ≠ g ∧ fl'.phase = fl.phase ∨ f = g ∧ fl'.phase = phase) := by
  rcases getElem?_modify_eq_some.mp h with ⟨hne, h⟩ | ⟨rfl, fl, hf, rfl⟩
  · exact ⟨fl', h, rfl, .inl ⟨hne, rfl⟩⟩
  · exact ⟨fl, hf, rfl, .inr ⟨rfl, rfl⟩⟩

theorem length_flights_le (hs : s.step toBytes e = some s') :
    s.flights.length ≤ s'.flights.length := by
  cases step_cases hs with
  | led hc hk => simp
  | _ => simp [setPhase, setCaller]

/-- **Every way a flight can change.** It keeps its query; its result comes
with `answer`, and it starts with a caller's query. -/
theorem step_flights (hs : s.step toBytes e = some s') {f : Nat} {fl' : Flight}
    (h : s'.flights[f]? = some fl') :
    (∃ fl, s.flights[f]? = some fl ∧ fl'.query = fl.query ∧
      (fl'.phase.result = fl.phase.result ∨
        ∃ r, e = .answer f r ∧ fl'.phase.result = some r)) ∨
    f = s.flights.length ∧ fl'.phase = .running ∧
      ∃ (i : Nat) (c : Caller), e = .join i ∧ s.callers[i]? = some c ∧ fl'.query = c.query := by
  cases step_cases hs with
  | led hc hk =>
      rcases getElem?_concat_eq_some.mp h with h | ⟨rfl, rfl⟩
      · exact .inl ⟨fl', h, rfl, .inl rfl⟩
      · exact .inr ⟨rfl, rfl, _, _, rfl, hc, rfl⟩
  | answered result hf hp =>
      obtain ⟨fl, hfl, hq, ⟨_, hphase⟩ | ⟨rfl, hphase⟩⟩ := getElem?_setPhase h
      · exact .inl ⟨fl, hfl, hq, .inl (congrArg _ hphase)⟩
      · exact .inl ⟨fl, hfl, hq, .inr ⟨result, rfl, by rw [hphase]; rfl⟩⟩
  | removed hf hp =>
      obtain ⟨fl, hfl, hq, ⟨_, hphase⟩ | ⟨rfl, hphase⟩⟩ := getElem?_setPhase h
      · exact .inl ⟨fl, hfl, hq, .inl (congrArg _ hphase)⟩
      · rw [hf] at hfl
        cases hfl
        exact .inl ⟨_, hf, hq, .inl (by rw [hphase, hp]; rfl)⟩
  | @published g fl₀ result tx hf hp =>
      obtain ⟨fl₁, hfl₁, hq, hphase⟩ := getElem?_setPhase h
      have hlt : f < s.flights.length := by
        rw [← length_flights_sent s tx result]
        exact (List.getElem?_eq_some_iff.mp hfl₁).1
      have hfl := List.getElem?_eq_getElem hlt
      obtain ⟨value, hsent⟩ := getElem?_sent tx result hfl
      rw [hsent] at hfl₁
      cases hfl₁
      refine .inl ⟨_, hfl, hq, .inl ?_⟩
      rcases hphase with ⟨_, hphase⟩ | ⟨rfl, hphase⟩
      · exact congrArg _ hphase
      · rw [hf] at hfl
        rw [hphase, ← Option.some.inj hfl, hp]
        rfl
  | _ => exact .inl ⟨fl', h, rfl, .inl rfl⟩

theorem getElem?_setCaller {i k : Nat} {c c' : Caller} {m : Metrics}
    (h : (s.setCaller i c m).callers[k]? = some c') :
    s.callers[k]? = some c' ∨ k = i ∧ c' = c := by
  rcases getElem?_set_eq_some.mp h with ⟨_, h⟩ | ⟨rfl, _, rfl⟩
  · exact .inl h
  · exact .inr ⟨rfl, rfl⟩

/-- Only `call` adds to the calls. -/
theorem length_callers (hs : s.step toBytes e = some s') :
    s'.callers.length = s.callers.length + match e with
      | .call _ => 1
      | _ => 0 := by
  cases step_cases hs with
  | called hk => exact List.length_append
  | refused hk => exact List.length_append
  | followed hc hk => exact List.length_set
  | led hc hk => exact List.length_set
  | @published f fl result tx hf hp => exact congrArg List.length (callers_sent s tx result)
  | left m hc hphase =>
      rcases hphase with ⟨rfl, _⟩ | ⟨rfl, _⟩ <;> exact List.length_set
  | cancelled hc hp => exact List.length_set
  | answered result hf hp => rfl
  | removed hf hp => rfl

/-- **Every way a call can change.** It keeps its query, and it is cancelled
by `cancel` alone. -/
theorem step_callers (hs : s.step toBytes e = some s') {k : Nat} {c' : Caller}
    (h : s'.callers[k]? = some c') :
    (∃ c, s.callers[k]? = some c ∧ c'.query = c.query ∧
      (c'.phase = .cancelled → c.phase = .cancelled ∨ e = .cancel k)) ∨
    k = s.callers.length ∧ e = .call c'.query ∧ c'.phase ≠ .cancelled := by
  cases step_cases hs with
  | called hk =>
      rcases getElem?_concat_eq_some.mp h with h | ⟨rfl, rfl⟩
      · exact .inl ⟨c', h, rfl, .inl⟩
      · exact .inr ⟨rfl, rfl, nofun⟩
  | refused hk =>
      rcases getElem?_concat_eq_some.mp h with h | ⟨rfl, rfl⟩
      · exact .inl ⟨c', h, rfl, .inl⟩
      · exact .inr ⟨rfl, rfl, nofun⟩
  | followed hc hk =>
      rcases getElem?_setCaller h with h | ⟨rfl, rfl⟩
      · exact .inl ⟨c', h, rfl, .inl⟩
      · exact .inl ⟨_, hc, rfl, nofun⟩
  | led hc hk =>
      rcases getElem?_set_eq_some.mp h with ⟨_, h⟩ | ⟨rfl, _, rfl⟩
      · exact .inl ⟨c', h, rfl, .inl⟩
      · exact .inl ⟨_, hc, rfl, nofun⟩
  | left m hc hphase =>
      rcases getElem?_setCaller h with h | ⟨rfl, rfl⟩
      · exact .inl ⟨c', h, rfl, .inl⟩
      · refine .inl ⟨_, hc, rfl, fun hp => ?_⟩
        rcases hphase with ⟨_, ⟨r, _, rfl⟩ | rfl⟩ | ⟨_, rfl⟩ <;> cases hp
  | cancelled hc hp =>
      rcases getElem?_setCaller h with h | ⟨rfl, rfl⟩
      · exact .inl ⟨c', h, rfl, .inl⟩
      · exact .inl ⟨_, hc, rfl, fun _ => .inr rfl⟩
  | @published f fl result tx hf hp =>
      have hsame : (s.sent tx result).callers[k]? = some c' := h
      rw [callers_sent] at hsame
      exact .inl ⟨c', hsame, rfl, .inl⟩
  | _ => exact .inl ⟨c', h, rfl, .inl⟩

end

end PendingState

/-! ## Work -/

/-- The steps a leader task has before it. -/
def FlightPhase.work : FlightPhase → Nat
  | .running => 3
  | .completed _ => 2
  | .removed _ _ => 1
  | .done _ => 0

/-- The steps a call has before it, where `lead` bounds what a flight that
it starts brings with it. -/
def CallerPhase.work (lead : Nat) : CallerPhase → Nat
  | .starting _ => lead + 5
  | .waiting _ _ => 1
  | .failed _ | .returned _ _ _ | .orphaned _ _ | .timedOut _ _ | .cancelled => 0

@[simp] theorem CallerPhase.work_starting (lead : Nat) (key : PendingKey) :
    (CallerPhase.starting key).work lead = lead + 5 := rfl

@[simp] theorem CallerPhase.work_waiting (lead : Nat) (leader : Bool) (f : Nat) :
    (CallerPhase.waiting leader f).work lead = 1 := rfl

@[simp] theorem CallerPhase.work_failed (lead : Nat) (e : UpstreamError) :
    (CallerPhase.failed e).work lead = 0 := rfl

@[simp] theorem CallerPhase.work_cancelled (lead : Nat) :
    CallerPhase.cancelled.work lead = 0 := rfl

@[simp] theorem FlightPhase.work_running : FlightPhase.running.work = 3 := rfl

namespace PendingState

/-- What callers and tasks have left to do. -/
def work (lead : Nat) (s : PendingState) : Nat :=
  (s.callers.map fun c => c.phase.work lead).sum + (s.flights.map fun fl => fl.phase.work).sum

section
variable {toBytes : ToBytes} {s s' : PendingState} {e : PendingEvent}

theorem work_setCaller (lead : Nat) {i : Nat} {c : Caller} (hc : s.callers[i]? = some c)
    (c' : Caller) (m : Metrics) :
    (s.setCaller i c' m).work lead + c.phase.work lead = s.work lead + c'.phase.work lead := by
  have hsum := sum_set_add (fun c : Caller => c.phase.work lead) hc c'
  unfold work
  simp only [setCaller]
  omega

theorem work_setPhase (lead : Nat) {f : Nat} {fl : Flight} (hf : s.flights[f]? = some fl)
    (phase : FlightPhase) :
    (s.setPhase f phase).work lead + fl.phase.work = s.work lead + phase.work := by
  have hsum := sum_modify_add (fun fl : Flight => fl.phase.work) hf fun fl => { fl with phase }
  unfold work
  dsimp only [setPhase] at hsum ⊢
  omega

/-- Sending a value is no work of its own. -/
theorem work_sent (lead : Nat) (tx : Option Nat) (result : PendingResult) :
    (s.sent tx result).work lead = s.work lead := by
  have hflights : (s.sent tx result).flights.map (fun fl => fl.phase.work) =
      s.flights.map fun fl => fl.phase.work := by
    apply List.ext_getElem?
    intro f
    rw [List.getElem?_map, List.getElem?_map]
    cases hf : s.flights[f]? with
    | none =>
        rw [List.getElem?_eq_none_iff] at hf
        rw [List.getElem?_eq_none (by rw [length_flights_sent]; exact hf)]
    | some fl =>
        obtain ⟨value, hsent⟩ := getElem?_sent tx result hf
        rw [hsent]
        rfl
  unfold work
  rw [callers_sent, hflights]

/-- A new call brings at most the work of a flight with it. -/
theorem work_call (lead : Nat) {query : Message} (hs : s.step toBytes (.call query) = some s') :
    s'.work lead ≤ s.work lead + (lead + 5) ∧ s'.flights = s.flights := by
  cases step_cases hs with
  | called hk =>
      refine ⟨?_, rfl⟩
      simp only [work, List.map_append, List.sum_append, List.map_singleton, List.sum_singleton,
        CallerPhase.work_starting]
      omega
  | refused hk =>
      refine ⟨?_, rfl⟩
      simp only [work, List.map_append, List.sum_append, List.map_singleton, List.sum_singleton,
        CallerPhase.work_failed]
      omega
  | left m hc hphase =>
      rcases hphase with ⟨he, _⟩ | ⟨he, _⟩ <;> cases he

/-- **Every other step leaves less work**, a flight that it starts
included. -/
theorem work_step (lead : Nat) (hs : s.step toBytes e = some s')
    (hcall : ∀ query, e ≠ .call query) :
    s'.work lead + lead * s'.flights.length < s.work lead + lead * s.flights.length := by
  cases step_cases hs with
  | called hk => exact absurd rfl (hcall _)
  | refused hk => exact absurd rfl (hcall _)
  | @followed i f query key hc hk =>
      have hwork := work_setCaller lead hc ⟨query, .waiting false f⟩
        s.metrics.recordPendingFollowerJoined
      simp only [CallerPhase.work_starting, CallerPhase.work_waiting] at hwork
      simp only [setCaller] at hwork ⊢
      omega
  | @led i query key hc hk =>
      -- a caller that starts has paid for the flight it may come to lead
      have hsum := sum_set_add (fun c : Caller => c.phase.work lead) hc
        ⟨query, .waiting true s.flights.length⟩
      simp only [CallerPhase.work_starting, CallerPhase.work_waiting] at hsum
      simp only [work, List.map_append, List.sum_append, List.map_singleton, List.sum_singleton,
        FlightPhase.work_running, List.length_append, List.length_singleton, Nat.mul_add,
        Nat.mul_one]
      omega
  | answered result hf hp =>
      have hwork := work_setPhase lead hf (.completed result)
      rw [hp] at hwork
      simp only [FlightPhase.work] at hwork
      simp only [work, setPhase, List.length_modify] at hwork ⊢
      omega
  | @removed f fl result hf hp =>
      have hwork := work_setPhase lead hf (.removed result (s.inner.get? fl.key))
      rw [hp] at hwork
      simp only [FlightPhase.work] at hwork
      simp only [work, setPhase, List.length_modify] at hwork ⊢
      omega
  | @published f fl result tx hf hp =>
      obtain ⟨value, hsent⟩ := getElem?_sent tx result hf
      have hwork := work_setPhase lead hsent (.done result)
      rw [work_sent, hp] at hwork
      simp only [FlightPhase.work] at hwork
      have hlen : ((s.sent tx result).setPhase f (.done result)).flights.length =
          s.flights.length := by
        rw [← length_flights_sent s tx result]
        exact List.length_modify ..
      rw [hlen]
      omega
  | @left _ i f query leader phase m hc hphase =>
      have hwork := work_setCaller lead hc ⟨query, phase⟩ m
      have hdone : phase.work lead = 0 := by
        rcases hphase with ⟨_, ⟨r, _, rfl⟩ | rfl⟩ | ⟨_, rfl⟩ <;> rfl
      simp only [CallerPhase.work_waiting, hdone] at hwork
      simp only [setCaller] at hwork ⊢
      omega
  | @cancelled i c hc hp =>
      have hwork := work_setCaller lead hc ⟨c.query, .cancelled⟩ s.metrics
      have hpos : 0 < c.phase.work lead := by
        rcases hp with ⟨key, hp⟩ | ⟨leader, f, hp⟩ <;> simp [hp]
      simp only [CallerPhase.work_cancelled] at hwork
      simp only [setCaller] at hwork ⊢
      omega

end

end PendingState

/-! ## Nothing is stuck -/

/-- The steps that calls and tasks take by themselves: neither a new call,
nor an answer of the pool, nor a dropped future. -/
def PendingEvent.own : PendingEvent → Bool
  | .join _ | .remove _ | .publish _ | .poll _ | .timeout _ => true
  | .call _ | .answer _ _ | .cancel _ => false

/-- Every call has returned or is dropped, every task has ended, and the
map is empty. -/
structure PendingState.Settled (s : PendingState) : Prop where
  callers : ∀ c ∈ s.callers, c.phase.returnedValue.isSome ∨ c.phase = .cancelled
  flights : ∀ fl ∈ s.flights, ∃ r, fl.phase = .done r
  inner : ∀ k, s.inner.get? k = none

section
variable {toBytes : ToBytes} {s : PendingState}

/-- A task whose upstream query is over can go on until it ends. -/
theorem PendingState.flight_done (hrest : AtRest (step toBytes) (fun e => e.own = true) s)
    {fl : Flight} (hmem : fl ∈ s.flights) (hrun : fl.phase ≠ .running) :
    ∃ r, fl.phase = .done r := by
  obtain ⟨f, hf⟩ := List.getElem?_of_mem hmem
  obtain ⟨key, query, phase, value⟩ := fl
  cases phase with
  | running => exact absurd rfl hrun
  | completed r =>
      have hstep := hrest (.remove f) rfl
      simp only [step, hf, reduceCtorEq] at hstep
  | removed r tx =>
      have hstep := hrest (.publish f) rfl
      simp only [step, hf, Option.map_some, reduceCtorEq] at hstep
  | done r => exact ⟨r, rfl⟩

/-- A call that waits for a task that has ended finds its result. -/
theorem PendingInv.poll_enabled (h : PendingInv toBytes s) {i f : Nat} {query : Message}
    {leader : Bool} {fl : Flight} {r : PendingResult}
    (hc : s.callers[i]? = some ⟨query, .waiting leader f⟩) (hf : s.flights[f]? = some fl)
    (hdone : fl.phase = .done r) : s.step toBytes (.poll i) ≠ none := by
  have hvalue : s.channelValue f = some r := by
    rcases h.published f fl r hf hdone with hv | hnone
    · simp only [PendingState.channelValue, hf, Option.bind_some, hv]
    · have hw := hnone _ (List.mem_of_getElem? hc)
      simp [CallerPhase.waitsOn] at hw
  simp only [PendingState.step, hc, hvalue, ne_eq, reduceCtorEq, not_false_eq_true]

/-- **A coalescer that can do nothing has nothing to do**, once the pool has
answered every task. -/
theorem PendingInv.settled (h : PendingInv toBytes s)
    (hrest : AtRest (PendingState.step toBytes) (fun e => e.own = true) s)
    (hanswered : ∀ fl ∈ s.flights, fl.phase ≠ .running) : s.Settled := by
  have hflights : ∀ fl ∈ s.flights, ∃ r, fl.phase = .done r :=
    fun fl hmem => PendingState.flight_done hrest hmem (hanswered fl hmem)
  refine ⟨?_, hflights, ?_⟩
  · intro c hmem
    obtain ⟨i, hc⟩ := List.getElem?_of_mem hmem
    obtain ⟨query, phase⟩ := c
    cases phase with
    | starting key =>
        have hstep := hrest (.join i) rfl
        simp only [PendingState.step, hc, reduceCtorEq] at hstep
    | waiting leader f =>
        obtain ⟨fl, hf, _⟩ : ∃ fl, s.flights[f]? = some fl ∧
          pendingKey toBytes query = .ok fl.key := h.callers _ hmem
        obtain ⟨r, hdone⟩ := hflights fl (List.mem_of_getElem? hf)
        exact absurd (hrest (.poll i) rfl) (h.poll_enabled hc hf hdone)
    | cancelled => exact .inr rfl
    | failed e => exact .inl rfl
    | returned leader f r => exact .inl rfl
    | orphaned leader f => exact .inl rfl
    | timedOut leader f => exact .inl rfl
  · intro k
    by_contra hk
    obtain ⟨f, hf⟩ := Option.ne_none_iff_exists'.mp hk
    obtain ⟨fl, hfl, _, hact⟩ := h.entry k f hf
    obtain ⟨r, hdone⟩ := hflights fl (List.mem_of_getElem? hfl)
    rw [hdone] at hact
    cases hact

end

end Dotdns
