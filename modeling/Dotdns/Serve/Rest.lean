import Dotdns.Serve.Provenance

/-!
# Serve — every query comes to an answer

Left without new queries, a serving process stops after a bounded number
of steps, whichever of its futures and tasks the runtime polls first and
whatever the upstreams say; and where it stops, every query that was not
dropped has its answer, and no task, flight or entry is left behind.

The bound is the work that is left: the steps each call, flight and pool
call still has before it, with those of what it may yet start.
-/

namespace Dotdns

open Lib

/-! ## The work of each part -/

/-- The steps a resolve call has before it, with those of the call of the
coalescer that it may make. -/
def CallPhase.work (lead : Nat) : CallPhase → Nat
  | .lookup => lead + 8
  | .store => 1
  | .waiting => 2
  | .received _ => 1
  | .done _ _ | .cancelled => 0

/-- The attempts a call may still make. -/
def PoolCall.work : PoolCall → Nat
  | .trying _ order => order.length + 1
  | .returned _ | .cancelled => 0

/-- What the resolver's calls have left to do. -/
def ResolverState.work (lead : Nat) (s : ResolverState) : Nat :=
  (s.calls.map fun c => c.phase.work lead).sum

/-- What the pool's calls have left to do. -/
def PoolState.work (s : PoolState) : Nat :=
  (s.calls.map PoolCall.work).sum

/-- A sum over the two listeners. -/
def Listeners.total (s : Listeners) (f : PendingState → Nat) : Nat :=
  f s.dot + f s.doh

namespace ResolverState

section
variable {U : UnicodeCase} {text : LabelText} {cfg : ResolveConfig}
variable {s s' : ResolverState}

theorem work_modify (lead : Nat) {i : Nat} {c : Call} (hi : s.calls[i]? = some c)
    (phase : Call → CallPhase) :
    ((s.calls.modify i fun c => { c with phase := phase c }).map fun c => c.phase.work lead).sum +
        c.phase.work lead =
      s.work lead + (phase c).work lead :=
  sum_modify_add (fun c : Call => c.phase.work lead) hi fun c => { c with phase := phase c }

theorem work_lookup (lead : Nat) {i : Nat} (hs : s.step U text cfg (.lookup i) = some s') :
    s'.work lead + lead + 6 ≤ s.work lead := by
  cases step_cases hs with
  | @lookup _ c hi hp =>
      obtain ⟨phase, hcalls, hphase⟩ : ∃ phase : Call → CallPhase,
          (s.lookup cfg i c).calls = s.calls.modify i (fun c => { c with phase := phase c }) ∧
            (phase c).work lead ≤ 2 := by
        unfold lookup
        split
        · exact ⟨_, rfl, by simp [CallPhase.work]⟩
        · refine ⟨_, rfl, ?_⟩
          split <;> simp [CallPhase.work]
      have hsum := work_modify lead hi phase
      rw [hp] at hsum
      have hlookup : CallPhase.lookup.work lead = lead + 8 := rfl
      unfold work at hsum ⊢
      rw [hcalls]
      omega

/-- The steps that answer a call leave less work. -/
theorem work_step (lead : Nat) {e : ResolverEvent} (hs : s.step U text cfg e = some s')
    (he : (∃ i pick, e = .store i pick) ∨ (∃ i pick, e = .insert i pick) ∨
      ∃ i result, e = .reply i result) : s'.work lead < s.work lead := by
  have hone : ∀ {i : Nat} {c : Call} {phase : CallPhase}, s.calls[i]? = some c →
      phase.work lead < c.phase.work lead →
      s'.calls = s.calls.modify i (fun c => { c with phase }) → s'.work lead < s.work lead := by
    intro i c phase hi hlt hcalls
    have hsum := work_modify lead hi fun _ => phase
    unfold work at hsum ⊢
    rw [hcalls]
    omega
  cases step_cases hs with
  | store pick hi hp => exact hone hi (by rw [hp]; exact Nat.one_pos) (calls_finish ..)
  | replied response hi hp => exact hone hi (by rw [hp]; exact Nat.one_lt_two) (calls_setPhase ..)
  | failed err hi hp => exact hone hi (by rw [hp]; exact Nat.two_pos) (calls_setPhase ..)
  | insert pick hi hp => exact hone hi (by rw [hp]; exact Nat.one_pos) (calls_finish ..)
  | _ => simp at he

end

end ResolverState

namespace PoolState

section
variable {s s' : PoolState}

theorem work_next (lastErr : Option UpstreamError) (order : List Nat) :
    (PoolCall.next lastErr order).work = order.length := by
  cases order <;> rfl

/-- A new call has an attempt for each upstream before it. -/
theorem work_call {nowMs : UInt64} (hs : s.step (.call nowMs) = some s') :
    s'.work ≤ s.work + s.pool.names.length := by
  simp only [step] at hs
  split at hs
  · cases hs
    simp only [work, List.map_append, List.sum_append, List.map_singleton, List.sum_singleton]
    exact Nat.le_add_right _ _
  · cases hs
    have hlen := (s.pool.takeStart.2.attemptOrder_perm s.pool.takeStart.1 nowMs).length_eq
    rw [List.length_range, UpstreamPool.takeStart_names] at hlen
    simp only [work, List.map_append, List.sum_append, List.map_singleton, List.sum_singleton,
      work_next, hlen]
    exact Nat.le_refl _

theorem work_attempt {p : Nat} {a : Attempt} (hs : s.step (.attempt p a) = some s') :
    s'.work < s.work := by
  simp only [step] at hs
  split at hs
  · rename_i idx order hi
    cases hs
    have hsum := sum_set_add PoolCall.work hi (.after order a)
    have hafter : (PoolCall.after order a).work ≤ order.length := by
      unfold PoolCall.after
      split
      · exact Nat.zero_le _
      · exact Nat.le_of_eq (work_next _ _)
    have htrying : (PoolCall.trying idx order).work = order.length + 1 := rfl
    unfold work
    dsimp only
    omega
  · cases hs

end

end PoolState

namespace Listeners

section
variable {toBytes : ToBytes} {s s' : Listeners} {l : Listener} {e : PendingEvent}

/-- What one listener gains, both gain. -/
theorem total_step (hs : s.step toBytes (l, e) = some s') {f : PendingState → Nat}
    (hf : ∀ p m, f { p with metrics := m } = f p) :
    s'.total f + f (s.pending l) = s.total f + f (s'.pending l) := by
  have hother : f (s'.pending l.other) = f (s.pending l.other) := by
    obtain ⟨m, hm⟩ := step_other hs l.other_ne
    rw [hm, hf]
  unfold total
  cases l <;> simp only [pending, Listener.other] at hother ⊢ <;> omega

end

end Listeners

/-! ## The work of the whole -/

/-- The steps that a query or a task takes by itself: all but new queries,
management, reloads, time and dropped futures. The attempt of an upstream is
one of them, whatever comes of it. -/
def ServeEvent.own : ServeEvent → Bool
  | .resolver (.store _ _) | .resolver (.insert _ _) => true
  | .lookup _ _ | .pending _ _ | .query _ _ _ | .attempt _ _ | .answer _ | .resume _ _ => true
  | .resolver _ | .cancel _ _ => false

namespace ServeState

/-- With `n` upstreams, a flight that has not called the pool yet has `n + 1`
steps of it before it. -/
def work (n : Nat) (s : ServeState) : Nat :=
  s.resolver.work (n + 1) + s.listeners.total (PendingState.work (n + 1)) + s.pool.work +
    (n + 1) * (s.listeners.total (fun p => p.flights.length) - s.tasks.length)

/-- What the process keeps to, in every run. -/
structure Inv (cfg : ResolveConfig) (toBytes : ToBytes) (names : List Str) (m : Metrics)
    (s : ServeState) : Prop where
  linked : Linked cfg toBytes s
  pool : PoolState.Inv names m s.pool

section
variable {U : UnicodeCase} {text : LabelText} {cfg : ResolveConfig} {toBytes : ToBytes}
variable {names : List Str} {m : Metrics} {s s' : ServeState} {e : ServeEvent}

theorem Inv.step (h : Inv cfg toBytes names m s) (hs : s.step U text cfg toBytes e = some s') :
    Inv cfg toBytes names m s' where
  linked := h.linked.step hs
  pool := by
    rcases stepSeen_eq_some.mp (pool_step hs) with ⟨_, _, hp⟩ | ⟨_, hp⟩
    · exact h.pool.step hp
    · rw [hp]
      exact h.pool

/-- There are at most as many calls of the pool as there are flights. -/
theorem Linked.tasks_le (h : Linked cfg toBytes s) :
    s.tasks.length ≤ s.listeners.total fun p => p.flights.length := by
  let flightsOf (l : Listener) : List (Listener × Nat) :=
    (List.range (s.listeners.pending l).flights.length).map fun f => (l, f)
  have hsub : s.tasks ⊆ flightsOf .dot ++ flightsOf .doh := by
    intro t ht
    obtain ⟨l, f⟩ := t
    have hmem : (l, f) ∈ flightsOf l :=
      List.mem_map.mpr ⟨f, List.mem_range.mpr (h.task l f ht), rfl⟩
    cases l with
    | dot => exact List.mem_append_left _ hmem
    | doh => exact List.mem_append_right _ hmem
  have hle := (h.nodup.subperm hsub).length_le
  simp only [flightsOf, List.length_append, List.length_map, List.length_range] at hle
  exact hle

/-- A step of a coalescer's own. -/
theorem work_listeners (n : Nat) {l : Listener} {ev : PendingEvent} {ls : Listeners}
    (hls : s.listeners.step toBytes (l, ev) = some ls) (hcall : ∀ query, ev ≠ .call query)
    (htasks : s.tasks.length ≤ s.listeners.total fun p => p.flights.length) :
    ls.total (PendingState.work (n + 1)) +
        (n + 1) * (ls.total (fun p => p.flights.length) - s.tasks.length) <
      s.listeners.total (PendingState.work (n + 1)) +
        (n + 1) * (s.listeners.total (fun p => p.flights.length) - s.tasks.length) := by
  have hstep := PendingState.work_step (n + 1) (Listeners.step_self hls) hcall
  have hgrows := PendingState.length_flights_le (Listeners.step_self hls)
  have hwork := Listeners.total_step hls (f := PendingState.work (n + 1)) fun _ _ => rfl
  have hflights := Listeners.total_step hls (f := fun p => p.flights.length) fun _ _ => rfl
  generalize s.listeners.total (fun p => p.flights.length) = a at *
  generalize ls.total (fun p => p.flights.length) = b at *
  have hb : b = a + ((ls.pending l).flights.length - (s.listeners.pending l).flights.length) := by
    omega
  have hsplit : (n + 1) * (ls.pending l).flights.length =
      (n + 1) * (s.listeners.pending l).flights.length +
        (n + 1) * ((ls.pending l).flights.length - (s.listeners.pending l).flights.length) := by
    rw [← Nat.mul_add]
    congr 1
    omega
  have hrest : b - s.tasks.length = (a - s.tasks.length) +
      ((ls.pending l).flights.length - (s.listeners.pending l).flights.length) := by
    omega
  rw [hrest, Nat.mul_add]
  omega

/-- **Every step of the process's own leaves less work.** -/
theorem work_step (h : Inv cfg toBytes names m s) (he : e.own = true)
    (hs : s.step U text cfg toBytes e = some s') :
    s'.work names.length < s.work names.length := by
  have htasks := h.linked.tasks_le
  have htasks' := (h.step hs).linked.tasks_le
  cases step_cases hs with
  | @resolver ev r halone hr =>
      have hlt : r.work (names.length + 1) < s.resolver.work (names.length + 1) := by
        cases ev with
        | store i pick => exact ResolverState.work_step _ hr (.inl ⟨i, pick, rfl⟩)
        | insert i pick => exact ResolverState.work_step _ hr (.inr (.inl ⟨i, pick, rfl⟩))
        | _ => cases he
      simp only [work]
      omega
  | hit hr hasked =>
      have hlt := ResolverState.work_lookup (names.length + 1) hr
      simp only [work]
      omega
  | @missed l i query r ls hr hasked hls =>
      have hlt := ResolverState.work_lookup (names.length + 1) hr
      obtain ⟨hcall, hsame⟩ := PendingState.work_call (names.length + 1) (Listeners.step_self hls)
      have hwork := Listeners.total_step hls
        (f := PendingState.work (names.length + 1)) fun _ _ => rfl
      have hflights := Listeners.total_step hls (f := fun p => p.flights.length) fun _ _ => rfl
      rw [hsame] at hflights
      have heq : (ls.total fun p => p.flights.length) =
          s.listeners.total fun p => p.flights.length := by omega
      simp only [work, heq]
      omega
  | @pending l ev ls hown hls =>
      have hlt := work_listeners names.length hls (by rintro query rfl; cases hown) htasks
      simp only [work]
      omega
  | @query l f fl nowMs pool hf hrun hnew hp =>
      have hle := PoolState.work_call hp
      rw [h.pool.names_eq] at hle
      -- one flight fewer is without a task
      have hless : s.listeners.total (fun p => p.flights.length) - s.tasks.length =
          s.listeners.total (fun p => p.flights.length) - (s.tasks ++ [(l, f)]).length + 1 := by
        dsimp only at htasks'
        rw [List.length_append, List.length_singleton] at htasks' ⊢
        omega
      simp only [work]
      rw [hless, Nat.mul_add]
      omega
  | attempt hp =>
      have hlt := PoolState.work_attempt hp
      simp only [work]
      omega
  | answer htask hreturned hls =>
      have hlt := work_listeners names.length hls (by simp) htasks
      simp only [work]
      omega
  | resume howner hc hvalue hr =>
      have hlt := ResolverState.work_step (names.length + 1) hr (.inr (.inr ⟨_, _, rfl⟩))
      simp only [work]
      omega
  | cancel _ _ _ => cases he

/-! ## Where it stops -/

/-- Every query has its answer or was dropped, and nothing is left over. -/
structure Finished (s : ServeState) : Prop where
  calls : ∀ call ∈ s.resolver.calls,
    (∃ answer origin, call.phase = .done answer origin) ∨ call.phase = .cancelled
  settled : ∀ l, (s.listeners.pending l).Settled
  pool : ∀ call ∈ s.pool.calls, ∃ result, call = .returned result

variable (hrest : AtRest (ServeState.step U text cfg toBytes) (fun e => e.own = true) s)

theorem step_pending_isSome {l : Listener} {ev : PendingEvent}
    (h : (s.listeners.pending l).step toBytes ev ≠ none) :
    s.listeners.step toBytes (l, ev) ≠ none := by
  intro hnone
  exact h (Option.map_eq_none_iff.mp hnone)

include hrest in
theorem pool_finished (h : Inv cfg toBytes names m s) :
    ∀ call ∈ s.pool.calls, ∃ result, call = .returned result := by
  intro call hmem
  obtain ⟨p, hp⟩ := List.getElem?_of_mem hmem
  cases call with
  | trying idx order =>
      have hstep := hrest (.attempt p { result := .error .timeout }) rfl
      simp only [ServeState.step, PoolState.step, hp, Option.map_some, reduceCtorEq] at hstep
  | returned result => exact ⟨result, rfl⟩
  | cancelled => exact absurd hmem h.linked.uncancelled

/-- The pool takes any call. -/
theorem step_call_isSome (pool : PoolState) (nowMs : UInt64) :
    pool.step (.call nowMs) ≠ none := by
  simp only [PoolState.step]
  split <;> simp

include hrest in
/-- The pool has answered every task. -/
theorem flights_answered (h : Inv cfg toBytes names m s) {l : Listener} {fl : Flight}
    (hmem : fl ∈ (s.listeners.pending l).flights) : fl.phase ≠ .running := by
  intro hrun
  obtain ⟨f, hf⟩ := List.getElem?_of_mem hmem
  by_cases htask : (l, f) ∈ s.tasks
  · -- its call has returned, and the answer can be taken
    obtain ⟨p, hp⟩ := List.getElem?_of_mem htask
    have hlt : p < s.pool.calls.length := by
      rw [← h.linked.tasks]
      exact (List.getElem?_eq_some_iff.mp hp).1
    obtain ⟨result, hresult⟩ := pool_finished hrest h _ (List.getElem_mem hlt)
    have hreturned : s.pool.calls[p]? = some (.returned result) := by
      rw [List.getElem?_eq_getElem hlt, hresult]
    have hstep := hrest (.answer p) rfl
    simp only [ServeState.step, answering_eq_some.mpr ⟨hp, hreturned⟩,
      Option.map_eq_none_iff] at hstep
    refine step_pending_isSome ?_ hstep
    simp [PendingState.step, hf, hrun]
  · -- it can make its call
    have hstep := hrest (.query l f 0) rfl
    simp only [ServeState.step, hf, Option.map_some, hrun, if_neg htask,
      Option.map_eq_none_iff] at hstep
    exact step_call_isSome s.pool 0 hstep

include hrest in
theorem listeners_settled (h : Inv cfg toBytes names m s) (l : Listener) :
    (s.listeners.pending l).Settled := by
  refine (h.linked.pending l).settled ?_ fun fl hmem => flights_answered hrest h hmem
  intro ev hown
  have hstep := hrest (.pending l ev) rfl
  simp only [ServeState.step, hown, if_true, Option.map_eq_none_iff] at hstep
  exact Option.map_eq_none_iff.mp hstep

include hrest in
theorem calls_finished (h : Inv cfg toBytes names m s) {call : Call}
    (hmem : call ∈ s.resolver.calls) :
    (∃ answer origin, call.phase = .done answer origin) ∨ call.phase = .cancelled := by
  obtain ⟨i, hi⟩ := List.getElem?_of_mem hmem
  obtain ⟨query, clientIp, decision, phase⟩ := call
  cases phase with
  | lookup =>
      have hstep := hrest (.lookup .dot i) rfl
      simp only [ServeState.step, ResolverState.step, hi, Option.bind_some] at hstep
      split at hstep
      · simp [Listeners.step, PendingState.step] at hstep
      · cases hstep
  | store =>
      have hstep := hrest (.resolver (.store i 0)) rfl
      simp [ServeState.step, ResolverEvent.alone, ResolverState.step, hi] at hstep
  | received response =>
      have hstep := hrest (.resolver (.insert i 0)) rfl
      simp [ServeState.step, ResolverEvent.alone, ResolverState.step, hi] at hstep
  | waiting =>
      -- what it waits for has returned
      obtain ⟨l, k, c, howner, hc, hne⟩ := h.linked.awaited i _ hi rfl
      rcases (listeners_settled hrest h l).callers c (List.mem_of_getElem? hc) with hvalue | hp
      · obtain ⟨result, hresult⟩ := Option.isSome_iff_exists.mp hvalue
        have hstep := hrest (.resume l k) rfl
        simp only [ServeState.step, returning_eq_some.mpr ⟨howner, c, hc, hresult⟩,
          Option.map_eq_none_iff] at hstep
        cases result <;> simp [ResolverState.step, hi] at hstep
      · exact absurd hp hne
  | done answer origin => exact .inl ⟨answer, origin, rfl⟩
  | cancelled => exact .inr rfl

include hrest in
theorem finished_of_rest (h : Inv cfg toBytes names m s) : s.Finished where
  calls _ hmem := calls_finished hrest h hmem
  settled := listeners_settled hrest h
  pool := pool_finished hrest h

end

end ServeState

/-- **Every query comes to an answer.** From every state that a run reaches,
whatever was dropped or has timed out on the way, the process can take no
more steps of its own than the work that is left there; if it goes on as
far as it can, in any order and with any outcome of its attempts, every
query that was not dropped has its answer, every task has ended, both maps
of pending queries are empty and every call of the pool has returned; and
it can go on so far. -/
theorem serve_comes_to_rest (U : UnicodeCase) (text : LabelText) (cfg : ResolveConfig)
    (toBytes : ToBytes) (now : Nat) (m : Metrics) (b : ReloadableBlocklist)
    (obs : Option ObservabilityRegistry) (names : List Str) (policy : UpstreamSelectionPolicy)
    (es : List ServeEvent) (s : ServeState)
    (hrun : run (ServeState.step U text cfg toBytes) (.init cfg now m b obs names policy) es =
      some s) :
    let step := ServeState.step U text cfg toBytes
    let own : ServeEvent → Prop := fun e => e.own = true
    (∀ es' s', (∀ e ∈ es', own e) → run step s es' = some s' →
      es'.length ≤ s.work names.length ∧ (AtRest step own s' → s'.Finished)) ∧
    ∃ es' s', (∀ e ∈ es', own e) ∧ run step s es' = some s' ∧ s'.Finished := by
  intro step own
  have hinv : ServeState.Inv cfg toBytes names m s := by
    refine (Passes.finish hrun).invariant_of_step ⟨?_, ?_⟩ fun _ _ _ hi hs => hi.step hs
    · exact ServeState.Linked.start now m b obs names policy
    · exact PoolState.inv_init names policy m
  have hstep : ∀ s e s', ServeState.Inv cfg toBytes names m s → own e → step s e = some s' →
      ServeState.Inv cfg toBytes names m s' ∧ s'.work names.length < s.work names.length :=
    fun s e s' hi he hs => ⟨hi.step hs, ServeState.work_step hi he hs⟩
  constructor
  · intro es' s' hown hrun'
    obtain ⟨hinv', hle⟩ := run_le_measure hstep hinv hown hrun'
    exact ⟨by omega, fun hrest => ServeState.finished_of_rest hrest hinv'⟩
  · obtain ⟨es', s', hown, hrun', hrest⟩ := exists_run_to_rest hstep hinv
    obtain ⟨hinv', _⟩ := run_le_measure hstep hinv hown hrun'
    exact ⟨es', s', hown, hrun', ServeState.finished_of_rest hrest hinv'⟩

/-- The only client that waits for a flight is gone; the flight still comes
to its end. -/
theorem serve_comes_to_rest_dropped :
    ∃ s, run (ServeState.step .ascii sampleText adsConfig adsToBytes) serveStart
        [.resolver (.arrive (adsQuery 1) none), .lookup .dot 0, .pending .dot (.join 0),
         .cancel .dot 0] = some s ∧
      s.work 2 = 6 ∧
      ∃ es' s', (∀ e ∈ es', e.own = true) ∧
        run (ServeState.step .ascii sampleText adsConfig adsToBytes) s es' = some s' ∧
        s'.Finished := by
  obtain ⟨s, hs, hwork⟩ := Option.map_eq_some_iff.mp (show
    (run (ServeState.step .ascii sampleText adsConfig adsToBytes) serveStart
      [.resolver (.arrive (adsQuery 1) none), .lookup .dot 0, .pending .dot (.join 0),
       .cancel .dot 0]).map (ServeState.work 2) = some 6 by decide +kernel)
  exact ⟨s, hs, hwork, (serve_comes_to_rest .ascii sampleText adsConfig adsToBytes 0 {} _ none
    ["a".toList, "b".toList] .sequential _ s hs).2⟩

end Dotdns
