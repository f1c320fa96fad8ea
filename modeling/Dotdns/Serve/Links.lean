import Dotdns.Serve

/-!
# Serve — what the parts hold of each other

A coalescer's calls belong to calls of the resolver and the pool's calls to
flights; `Linked` says so, and that nobody waits for something that is
gone.
-/

namespace Dotdns

open Lib

/-! ## Lists that a step leaves in place -/

namespace ResolverState

section
variable {U : UnicodeCase} {text : LabelText} {cfg : ResolveConfig}
variable {s s' : ResolverState} {e : ResolverEvent}

/-- A call that waits has waited before, and the step was not what it waits
for; or it has just looked at the cache. -/
theorem waiting_before (hs : s.step U text cfg e = some s') {j : Nat} {c' : Call}
    (hj : s'.calls[j]? = some c') (hw : c'.phase = .waiting) :
    s.calls[j]? = some c' ∧ e ≠ .cancel j ∧ (∀ r, e ≠ .reply j r) ∨ e = .lookup j := by
  -- a call moved to another phase is not the one that waits
  have hmodify : ∀ {i : Nat} {phase : CallPhase}, phase ≠ .waiting →
      (s.calls.modify i fun c => { c with phase })[j]? = some c' →
      j ≠ i ∧ s.calls[j]? = some c' := by
    intro i phase hphase h
    rcases getElem?_modify_eq_some.mp h with h | ⟨_, c, _, rfl⟩
    · exact h
    · exact absurd hw hphase
  cases step_cases hs with
  | arrive query clientIp =>
      rw [calls_arrive] at hj
      rcases getElem?_concat_eq_some.mp hj with hj | ⟨_, rfl⟩
      · exact .inl ⟨hj, by simp, by simp⟩
      · have hnew : (newCall U text s.blocklist query clientIp).phase = .lookup ∨ _ :=
          newCall_phase s.blocklist query clientIp
        rcases hnew with hnew | hnew <;>
          (rw [hnew] at hw; cases hw)
  | @lookup i c hi hp =>
      obtain ⟨phase, hcalls⟩ := calls_lookup_eq cfg s i c
      rw [hcalls] at hj
      rcases getElem?_modify_eq_some.mp hj with ⟨_, hj⟩ | ⟨rfl, _⟩
      · exact .inl ⟨hj, by simp, by simp⟩
      · exact .inr rfl
  | store pick hi hp =>
      rw [calls_finish] at hj
      exact .inl ⟨(hmodify (by simp) hj).2, by simp, by simp⟩
  | replied response hi hp =>
      rw [calls_setPhase] at hj
      obtain ⟨hne, hj⟩ := hmodify (by simp) hj
      refine .inl ⟨hj, by simp, ?_⟩
      intro r he
      cases he
      exact hne rfl
  | failed err hi hp =>
      rw [calls_setPhase] at hj
      obtain ⟨hne, hj⟩ := hmodify (by simp) hj
      refine .inl ⟨hj, by simp, ?_⟩
      intro r he
      cases he
      exact hne rfl
  | insert pick hi hp =>
      rw [calls_finish] at hj
      exact .inl ⟨(hmodify (by simp) hj).2, by simp, by simp⟩
  | cancel hi hp =>
      rw [calls_setPhase] at hj
      obtain ⟨hne, hj⟩ := hmodify (by simp) hj
      refine .inl ⟨hj, ?_, by simp⟩
      intro he
      cases he
      exact hne rfl
  | manage req io disk =>
      refine .inl ⟨?_, by simp, by simp⟩
      cases req <;> exact hj
  | refresh io disk _ _ => exact .inl ⟨hj, by simp, by simp⟩
  | tick elapsed => exact .inl ⟨hj, by simp, by simp⟩

end

end ResolverState

namespace Listeners

section
variable {toBytes : ToBytes} {s s' : Listeners} {l : Listener} {e : PendingEvent}

theorem step_self (hs : s.step toBytes (l, e) = some s') :
    (s.pending l).step toBytes e = some (s'.pending l) := by
  obtain ⟨p, hp, rfl⟩ := Option.map_eq_some_iff.mp hs
  rw [pending_update_self]
  exact hp

/-- The other listener keeps all but the counters. -/
theorem step_other (hs : s.step toBytes (l, e) = some s') {l' : Listener} (hl : l' ≠ l) :
    ∃ m, s'.pending l' = { s.pending l' with metrics := m } := by
  obtain ⟨p, hp, rfl⟩ := Option.map_eq_some_iff.mp hs
  obtain rfl : l' = l.other := by
    cases l <;> cases l' <;> first | rfl | exact absurd rfl hl
  exact ⟨p.metrics, pending_update_other s l p⟩

theorem each_step (h : ∀ l, PendingInv toBytes (s.pending l))
    (hs : s.step toBytes (l, e) = some s') (l' : Listener) :
    PendingInv toBytes (s'.pending l') := by
  by_cases hl : l' = l
  · subst hl
    exact (h _).step e (step_self hs)
  · obtain ⟨m, hm⟩ := step_other hs hl
    rw [hm]
    exact (h l').setMetrics m

end

end Listeners

/-! ## What a step leaves in place -/

namespace ServeState

section
variable {U : UnicodeCase} {text : LabelText} {cfg : ResolveConfig} {toBytes : ToBytes}
variable {s s' : ServeState} {e : ServeEvent}

theorem call_kept (hs : s.step U text cfg toBytes e = some s') {i : Nat} {c : Call}
    (hi : s.resolver.calls[i]? = some c) :
    ∃ phase, s'.resolver.calls[i]? = some { c with phase } := by
  rcases stepSeen_eq_some.mp (resolver_step hs) with ⟨_, _, hr⟩ | ⟨_, hr⟩
  · obtain ⟨phase, hkept, _⟩ := ResolverState.call_kept hr hi
    exact ⟨phase, hkept⟩
  · rw [hr]
    exact ⟨c.phase, hi⟩

theorem caller_before (hs : s.step U text cfg toBytes e = some s') {l : Listener} {k : Nat}
    {c' : Caller} (h : (s'.listeners.pending l).callers[k]? = some c') :
    (∃ c, (s.listeners.pending l).callers[k]? = some c ∧ c'.query = c.query ∧
      (c'.phase = .cancelled → c.phase = .cancelled ∨ e = .cancel l k)) ∨
    k = (s.listeners.pending l).callers.length ∧ c'.phase ≠ .cancelled ∧
      ∃ i, e = .lookup l i ∧ asked cfg s'.resolver i = some c'.query ∧
        s'.owners l = s.owners l ++ [i] := by
  have hone : ∀ {l₁ : Listener} {ev : PendingEvent} {ls : Listeners},
      s.listeners.step toBytes (l₁, ev) = some ls → (ls.pending l).callers[k]? = some c' →
      (∃ c, (s.listeners.pending l).callers[k]? = some c ∧ c'.query = c.query ∧
        (c'.phase = .cancelled → c.phase = .cancelled ∨ l₁ = l ∧ ev = .cancel k)) ∨
      l₁ = l ∧ k = (s.listeners.pending l).callers.length ∧ ev = .call c'.query ∧
        c'.phase ≠ .cancelled := by
    intro l₁ ev ls hls h
    by_cases hl : l = l₁
    · subst hl
      rcases PendingState.step_callers (Listeners.step_self hls) h with
        ⟨c, hc, hq, hcancel⟩ | ⟨hk, hev, hp⟩
      · exact .inl ⟨c, hc, hq, fun hp => (hcancel hp).imp_right fun he => ⟨rfl, he⟩⟩
      · exact .inr ⟨rfl, hk, hev, hp⟩
    · obtain ⟨m, hm⟩ := Listeners.step_other hls hl
      rw [hm] at h
      exact .inl ⟨c', h, rfl, .inl⟩
  cases step_cases hs with
  | @missed l₁ i query r ls hr hasked hls =>
      rcases hone hls h with ⟨c, hc, hq, hcancel⟩ | ⟨rfl, hk, he, hp⟩
      · exact .inl ⟨c, hc, hq, fun hp => (hcancel hp).imp_right fun he => by cases he.2⟩
      · cases he
        exact .inr ⟨hk, hp, i, rfl, hasked, Function.update_self ..⟩
  | @pending l₁ ev ls hown hls =>
      rcases hone hls h with ⟨c, hc, hq, hcancel⟩ | ⟨_, _, he, _⟩
      · refine .inl ⟨c, hc, hq, fun hp => (hcancel hp).imp_right fun he => ?_⟩
        rw [he.2] at hown
        cases hown
      · rw [he] at hown
        cases hown
  | answer htask hreturned hls =>
      rcases hone hls h with ⟨c, hc, hq, hcancel⟩ | ⟨_, _, he, _⟩
      · exact .inl ⟨c, hc, hq, fun hp => (hcancel hp).imp_right fun he => by cases he.2⟩
      · cases he
  | cancel howner hr hls =>
      rcases hone hls h with ⟨c, hc, hq, hcancel⟩ | ⟨_, _, he, _⟩
      · refine .inl ⟨c, hc, hq, fun hp => (hcancel hp).imp_right fun he => ?_⟩
        obtain ⟨rfl, he⟩ := he
        cases he
        rfl
      · cases he
  | _ => exact .inl ⟨c', h, rfl, .inl⟩

theorem flight_before (hs : s.step U text cfg toBytes e = some s') {l : Listener} {f : Nat}
    {fl' : Flight} (h : (s'.listeners.pending l).flights[f]? = some fl') :
    (∃ fl, (s.listeners.pending l).flights[f]? = some fl ∧ fl'.query = fl.query ∧
      (fl'.phase.result = fl.phase.result ∨
        ∃ p r, e = .answer p ∧ s.tasks[p]? = some (l, f) ∧
          s.pool.calls[p]? = some (.returned r) ∧ fl'.phase.result = some r)) ∨
    f = (s.listeners.pending l).flights.length ∧ fl'.phase = .running ∧
      ∃ c ∈ (s.listeners.pending l).callers, fl'.query = c.query := by
  -- the listener that steps, and the other one, whose flights stay
  have hone : ∀ {l₁ : Listener} {ev : PendingEvent} {ls : Listeners},
      s.listeners.step toBytes (l₁, ev) = some ls → (ls.pending l).flights[f]? = some fl' →
      (∃ fl, (s.listeners.pending l).flights[f]? = some fl ∧ fl'.query = fl.query ∧
        (fl'.phase.result = fl.phase.result ∨
          ∃ r, l₁ = l ∧ ev = .answer f r ∧ fl'.phase.result = some r)) ∨
      f = (s.listeners.pending l).flights.length ∧ fl'.phase = .running ∧
        ∃ c ∈ (s.listeners.pending l).callers, fl'.query = c.query := by
    intro l₁ ev ls hls h
    by_cases hl : l = l₁
    · subst hl
      rcases PendingState.step_flights (Listeners.step_self hls) h with
        ⟨fl, hf, hq, hres⟩ | ⟨hlen, hrun, k, c, _, hc, hq⟩
      · refine .inl ⟨fl, hf, hq, hres.imp_right ?_⟩
        rintro ⟨r, he, hr⟩
        exact ⟨r, rfl, he, hr⟩
      · exact .inr ⟨hlen, hrun, c, List.mem_of_getElem? hc, hq⟩
    · obtain ⟨m, hm⟩ := Listeners.step_other hls hl
      rw [hm] at h
      exact .inl ⟨fl', h, rfl, .inl rfl⟩
  cases step_cases hs with
  | missed hr hasked hls =>
      refine (hone hls h).imp_left ?_
      rintro ⟨fl, hf, hq, hres⟩
      refine ⟨fl, hf, hq, hres.imp_right ?_⟩
      rintro ⟨r, _, he, _⟩
      cases he
  | pending hown hls =>
      refine (hone hls h).imp_left ?_
      rintro ⟨fl, hf, hq, hres⟩
      refine ⟨fl, hf, hq, hres.imp_right ?_⟩
      rintro ⟨r, _, rfl, _⟩
      cases hown
  | answer htask hreturned hls =>
      refine (hone hls h).imp_left ?_
      rintro ⟨fl, hf, hq, hres⟩
      refine ⟨fl, hf, hq, hres.imp_right ?_⟩
      rintro ⟨r, rfl, he, hr⟩
      cases he
      exact ⟨_, _, rfl, htask, hreturned, hr⟩
  | cancel howner hr hls =>
      refine (hone hls h).imp_left ?_
      rintro ⟨fl, hf, hq, hres⟩
      refine ⟨fl, hf, hq, hres.imp_right ?_⟩
      rintro ⟨r, _, he, _⟩
      cases he
  | _ => exact .inl ⟨fl', h, rfl, .inl rfl⟩

theorem length_callers (hs : s.step U text cfg toBytes e = some s') (l : Listener)
    (h : (s.owners l).length = (s.listeners.pending l).callers.length) :
    (s'.owners l).length = (s'.listeners.pending l).callers.length := by
  have hother : ∀ {l₁ : Listener} {ev : PendingEvent} {ls : Listeners},
      s.listeners.step toBytes (l₁, ev) = some ls → (∀ query, ev = .call query → l ≠ l₁) →
      (ls.pending l).callers.length = (s.listeners.pending l).callers.length := by
    intro l₁ ev ls hls hcall
    by_cases hl : l = l₁
    · subst hl
      rw [PendingState.length_callers (Listeners.step_self hls)]
      cases ev with
      | call query => exact absurd rfl (hcall query rfl)
      | _ => rfl
    · obtain ⟨m, hm⟩ := Listeners.step_other hls hl
      rw [hm]
  cases step_cases hs with
  | @missed l₁ i query r ls hr hasked hls =>
      by_cases hl : l = l₁
      · subst hl
        dsimp only
        rw [Function.update_self, List.length_append,
          PendingState.length_callers (Listeners.step_self hls), h]
        rfl
      · dsimp only
        rw [Function.update_of_ne hl, hother hls fun _ _ => hl]
        exact h
  | pending hown hls =>
      refine h.trans (hother hls ?_).symm
      rintro query rfl
      cases hown
  | answer _ _ hls => exact h.trans (hother hls (by simp)).symm
  | cancel _ _ hls => exact h.trans (hother hls (by simp)).symm
  | _ => exact h

theorem owner_kept (hs : s.step U text cfg toBytes e = some s') (l : Listener) :
    s.owners l <+: s'.owners l := by
  cases step_cases hs with
  | @missed l₁ i query r ls hr hasked hls =>
      by_cases hl : l = l₁
      · subst hl
        dsimp only
        rw [Function.update_self]
        exact List.prefix_append _ _
      · dsimp only
        rw [Function.update_of_ne hl]
  | _ => exact List.prefix_refl _

/-- The lists of the coalescers only grow. -/
theorem pending_grows (hs : s.step U text cfg toBytes e = some s') (l : Listener) :
    (s.listeners.pending l).callers.length ≤ (s'.listeners.pending l).callers.length ∧
      (s.listeners.pending l).flights.length ≤ (s'.listeners.pending l).flights.length := by
  rcases stepSeen_eq_some.mp (listeners_step hs) with ⟨⟨l₁, ev⟩, _, hls⟩ | ⟨_, hls⟩
  · by_cases hl : l = l₁
    · subst hl
      have hone := Listeners.step_self hls
      refine ⟨?_, PendingState.length_flights_le hone⟩
      rw [PendingState.length_callers hone]
      exact Nat.le_add_right _ _
    · obtain ⟨m, hm⟩ := Listeners.step_other hls hl
      rw [hm]
      exact ⟨Nat.le_refl _, Nat.le_refl _⟩
  · rw [hls]
    exact ⟨Nat.le_refl _, Nat.le_refl _⟩

theorem caller_kept (hs : s.step U text cfg toBytes e = some s') {l : Listener} {k : Nat}
    {c : Caller} (h : (s.listeners.pending l).callers[k]? = some c) :
    ∃ c', (s'.listeners.pending l).callers[k]? = some c' ∧ c'.query = c.query ∧
      (c'.phase = .cancelled → c.phase = .cancelled ∨ e = .cancel l k) := by
  have hlt := (List.getElem?_eq_some_iff.mp h).1
  have hc' := List.getElem?_eq_getElem (Nat.lt_of_lt_of_le hlt (pending_grows hs l).1)
  refine ⟨_, hc', ?_⟩
  rcases caller_before hs hc' with ⟨c₀, hc₀, hq, hcancel⟩ | ⟨hk, _⟩
  · rw [h] at hc₀
    cases hc₀
    exact ⟨hq, hcancel⟩
  · omega

theorem flight_kept (hs : s.step U text cfg toBytes e = some s') {l : Listener} {f : Nat}
    {fl : Flight} (h : (s.listeners.pending l).flights[f]? = some fl) :
    ∃ fl', (s'.listeners.pending l).flights[f]? = some fl' ∧ fl'.query = fl.query := by
  have hlt := (List.getElem?_eq_some_iff.mp h).1
  have hfl' := List.getElem?_eq_getElem (Nat.lt_of_lt_of_le hlt (pending_grows hs l).2)
  refine ⟨_, hfl', ?_⟩
  rcases flight_before hs hfl' with ⟨fl₀, hfl₀, hq, _⟩ | ⟨hf, _⟩
  · rw [h] at hfl₀
    cases hfl₀
    exact hq
  · omega

end

/-! ## The links -/

/-- Who belongs to whom. -/
structure Linked (cfg : ResolveConfig) (toBytes : ToBytes) (s : ServeState) : Prop where
  pending : ∀ l, PendingInv toBytes (s.listeners.pending l)
  owners : ∀ l, (s.owners l).length = (s.listeners.pending l).callers.length
  /-- A coalescer's call is for the query of the resolve call that made it. -/
  caller : ∀ (l : Listener) (k i : Nat) (c : Caller), (s.owners l)[k]? = some i →
    (s.listeners.pending l).callers[k]? = some c →
    ∃ call, s.resolver.calls[i]? = some call ∧ c.query = call.upstreamQuery cfg
  /-- A resolve call that waits has a call to wait for. -/
  awaited : ∀ (i : Nat) (call : Call), s.resolver.calls[i]? = some call →
    call.phase = .waiting →
    ∃ (l : Listener) (k : Nat) (c : Caller), (s.owners l)[k]? = some i ∧
      (s.listeners.pending l).callers[k]? = some c ∧ c.phase ≠ .cancelled
  /-- A flight is for the query of one of its coalescer's calls. -/
  flight : ∀ (l : Listener) (f : Nat) (fl : Flight),
    (s.listeners.pending l).flights[f]? = some fl →
    ∃ c ∈ (s.listeners.pending l).callers, fl.query = c.query
  /-- The pool's calls are made by flights, each at most one. -/
  tasks : s.tasks.length = s.pool.calls.length
  nodup : s.tasks.Nodup
  task : ∀ l f, (l, f) ∈ s.tasks → f < (s.listeners.pending l).flights.length
  uncancelled : .cancelled ∉ s.pool.calls

namespace Linked

section
variable {U : UnicodeCase} {text : LabelText} {cfg : ResolveConfig} {toBytes : ToBytes}
variable {s s' : ServeState} {e : ServeEvent}

theorem start (now : Nat) (m : Metrics) (b : ReloadableBlocklist)
    (obs : Option ObservabilityRegistry) (names : List Str) (policy : UpstreamSelectionPolicy) :
    Linked cfg toBytes (.init cfg now m b obs names policy) where
  pending l := by
    cases l <;> exact pendingInv_init m
  owners l := by
    cases l <;> rfl
  caller l k i c h := by cases h
  awaited i call h := by cases h
  flight l f fl h := by
    cases l <;> cases h
  tasks := rfl
  nodup := .nil
  task l f h := by cases h
  uncancelled h := by cases h

/-- The owner of a call that was there. -/
theorem owner_before (h : Linked cfg toBytes s) (hs : s.step U text cfg toBytes e = some s')
    {l : Listener} {k i : Nat} {c : Caller} (hi : (s'.owners l)[k]? = some i)
    (hc : (s.listeners.pending l).callers[k]? = some c) : (s.owners l)[k]? = some i := by
  have hlt := (List.getElem?_eq_some_iff.mp hc).1
  rw [← h.owners l] at hlt
  rw [List.prefix_iff_getElem?.mp (owner_kept hs l) k hlt] at hi
  rw [List.getElem?_eq_getElem hlt]
  exact hi

theorem step_caller (h : Linked cfg toBytes s) (hs : s.step U text cfg toBytes e = some s')
    (l : Listener) (k i : Nat) (c' : Caller) (hi : (s'.owners l)[k]? = some i)
    (hc' : (s'.listeners.pending l).callers[k]? = some c') :
    ∃ call, s'.resolver.calls[i]? = some call ∧ c'.query = call.upstreamQuery cfg := by
  rcases caller_before hs hc' with ⟨c, hc, hq, _⟩ | ⟨hk, _, i₀, _, hasked, howners⟩
  · obtain ⟨call, hcall, hquery⟩ := h.caller l k i c (h.owner_before hs hi hc) hc
    obtain ⟨phase, hkept⟩ := call_kept hs hcall
    exact ⟨_, hkept, hq.trans hquery⟩
  · rw [howners, hk, ← h.owners l, List.getElem?_concat_length] at hi
    cases hi
    obtain ⟨call, hcall, _, hquery⟩ := asked_eq_some.mp hasked
    exact ⟨call, hcall, hquery⟩

theorem owner_after (hs : s.step U text cfg toBytes e = some s') {l : Listener} {k i : Nat}
    (hi : (s.owners l)[k]? = some i) : (s'.owners l)[k]? = some i := by
  obtain ⟨hlt, hget⟩ := List.getElem?_eq_some_iff.mp hi
  rw [List.prefix_iff_getElem?.mp (owner_kept hs l) k hlt, hget]

theorem step_awaited (h : Linked cfg toBytes s) (hs : s.step U text cfg toBytes e = some s')
    (i : Nat) (call : Call) (hi : s'.resolver.calls[i]? = some call)
    (hw : call.phase = .waiting) :
    ∃ (l : Listener) (k : Nat) (c : Caller), (s'.owners l)[k]? = some i ∧
      (s'.listeners.pending l).callers[k]? = some c ∧ c.phase ≠ .cancelled := by
  -- a call that waited before waits for what it waited for, unless that was dropped
  have hold : s.resolver.calls[i]? = some call →
      (∀ l k, e = .cancel l k → (s.owners l)[k]? ≠ some i) →
      ∃ (l : Listener) (k : Nat) (c : Caller), (s'.owners l)[k]? = some i ∧
        (s'.listeners.pending l).callers[k]? = some c ∧ c.phase ≠ .cancelled := by
    intro hi hdropped
    obtain ⟨l, k, c, howner, hc, hp⟩ := h.awaited i call hi hw
    obtain ⟨c', hc', _, hcancel⟩ := caller_kept hs hc
    refine ⟨l, k, c', owner_after hs howner, hc', fun hp' => ?_⟩
    rcases hcancel hp' with hp' | he
    · exact hp hp'
    · exact hdropped l k he howner
  rcases stepSeen_eq_some.mp (resolver_step hs) with ⟨e', he', hr⟩ | ⟨he', hr⟩
  · rcases ResolverState.waiting_before hr hi hw with ⟨hi, hcancel, _⟩ | rfl
    · refine hold hi ?_
      rintro l k rfl howner
      rw [resolverEvent, howner] at he'
      exact hcancel (Option.some.inj he').symm
    · -- the call has just missed
      cases step_cases hs with
      | resolver halone _ =>
          cases he'
          cases halone
      | hit _ hasked =>
          cases he'
          rw [asked_eq_some.mpr ⟨call, hi, hw, rfl⟩] at hasked
          cases hasked
      | @missed l₁ j query r ls hr' hasked hls =>
          cases he'
          have hlen := length_callers hs l₁ (h.owners l₁)
          dsimp only at hlen
          rw [Function.update_self, List.length_append] at hlen
          have hlt : (s.owners l₁).length < (ls.pending l₁).callers.length := by
            rw [← hlen]
            exact Nat.lt_succ_self _
          have hc := List.getElem?_eq_getElem hlt
          refine ⟨l₁, (s.owners l₁).length, _, ?_, hc, ?_⟩
          · dsimp only
            rw [Function.update_self, List.getElem?_concat_length]
          · rcases caller_before hs hc with ⟨c, hc₀, _⟩ | ⟨_, hp, _⟩
            · have hlt₀ := (List.getElem?_eq_some_iff.mp hc₀).1
              rw [← h.owners l₁] at hlt₀
              exact absurd hlt₀ (Nat.lt_irrefl _)
            · exact hp
      | pending _ _ => cases he'
      | query _ _ _ _ => cases he'
      | attempt _ => cases he'
      | answer _ _ _ => cases he'
      | resume howner hc hvalue _ =>
          rw [resolverEvent, returning_eq_some.mpr ⟨howner, _, hc, hvalue⟩] at he'
          cases he'
      | cancel howner _ _ =>
          rw [resolverEvent, howner] at he'
          cases he'
  · rw [hr] at hi
    refine hold hi ?_
    rintro l k rfl howner
    rw [resolverEvent, howner] at he'
    cases he'

theorem step_flight (h : Linked cfg toBytes s) (hs : s.step U text cfg toBytes e = some s')
    (l : Listener) (f : Nat) (fl' : Flight)
    (hf : (s'.listeners.pending l).flights[f]? = some fl') :
    ∃ c ∈ (s'.listeners.pending l).callers, fl'.query = c.query := by
  obtain ⟨c, hmem, hq⟩ : ∃ c ∈ (s.listeners.pending l).callers, fl'.query = c.query := by
    rcases flight_before hs hf with ⟨fl, hfl, hq, _⟩ | ⟨_, _, hc⟩
    · obtain ⟨c, hmem, hquery⟩ := h.flight l f fl hfl
      exact ⟨c, hmem, hq.trans hquery⟩
    · exact hc
  obtain ⟨k, hk⟩ := List.getElem?_of_mem hmem
  obtain ⟨c', hc', hq', _⟩ := caller_kept hs hk
  exact ⟨c', List.mem_of_getElem? hc', hq.trans hq'.symm⟩

/-- A step of the pool adds a call or leaves their number. -/
theorem length_pool_calls {pool pool' : PoolState} {ev : PoolEvent}
    (hp : pool.step ev = some pool') :
    pool'.calls.length = pool.calls.length + match ev with
      | .call _ => 1
      | _ => 0 := by
  cases ev with
  | call nowMs =>
      simp only [PoolState.step] at hp
      split at hp <;> (cases hp; exact List.length_append)
  | attempt p a =>
      simp only [PoolState.step] at hp
      split at hp
      · cases hp
        exact List.length_set
      · cases hp
  | cancel p =>
      simp only [PoolState.step] at hp
      split at hp
      · cases hp
        exact List.length_set
      · cases hp

theorem next_ne_cancelled (lastErr : Option UpstreamError) (order : List Nat) :
    PoolCall.next lastErr order ≠ .cancelled := by
  cases order <;> simp [PoolCall.next]

theorem uncancelled_step {pool pool' : PoolState} {ev : PoolEvent} (hne : ∀ p, ev ≠ .cancel p)
    (hp : pool.step ev = some pool') (h : .cancelled ∉ pool.calls) : .cancelled ∉ pool'.calls := by
  cases ev with
  | call nowMs =>
      simp only [PoolState.step] at hp
      split at hp
      · cases hp
        simp [h]
      · cases hp
        simp only [List.mem_append, List.mem_singleton, not_or]
        exact ⟨h, (next_ne_cancelled _ _).symm⟩
  | attempt p a =>
      simp only [PoolState.step] at hp
      split at hp
      · cases hp
        intro hmem
        rcases List.mem_or_eq_of_mem_set hmem with hmem | heq
        · exact h hmem
        · unfold PoolCall.after at heq
          split at heq
          · cases heq
          · exact next_ne_cancelled _ _ heq.symm
      · cases hp
  | cancel p => exact absurd rfl (hne p)

/-- **A step keeps the links.** -/
theorem step (h : Linked cfg toBytes s) (hs : s.step U text cfg toBytes e = some s') :
    Linked cfg toBytes s' where
  pending l := by
    rcases stepSeen_eq_some.mp (listeners_step hs) with ⟨_, _, hls⟩ | ⟨_, hls⟩
    · exact Listeners.each_step h.pending hls l
    · rw [hls]
      exact h.pending l
  owners l := length_callers hs l (h.owners l)
  caller := h.step_caller hs
  awaited := h.step_awaited hs
  flight := h.step_flight hs
  tasks := by
    cases step_cases hs with
    | query hf hrun hnew hp =>
        dsimp only
        rw [List.length_append, length_pool_calls hp, h.tasks]
        rfl
    | attempt hp =>
        dsimp only
        rw [length_pool_calls hp, h.tasks]
        rfl
    | _ => exact h.tasks
  nodup := by
    cases step_cases hs with
    | query hf hrun hnew hp => exact List.nodup_append.mpr ⟨h.nodup, by simp, by
        intro t ht t' ht' heq
        rw [List.mem_singleton] at ht'
        exact hnew (ht' ▸ heq ▸ ht)⟩
    | _ => exact h.nodup
  task l f hmem := by
    have hgrows := (pending_grows hs l).2
    cases step_cases hs with
    | @query l₁ f₁ fl nowMs pool hf hrun hnew hp =>
        rcases List.mem_append.mp hmem with hmem | hmem
        · exact h.task l f hmem
        · cases List.mem_singleton.mp hmem
          exact (List.getElem?_eq_some_iff.mp hf).1
    | _ => exact Nat.lt_of_lt_of_le (h.task l f hmem) hgrows
  uncancelled := by
    cases step_cases hs with
    | query hf hrun hnew hp => exact uncancelled_step (by simp) hp h.uncancelled
    | attempt hp => exact uncancelled_step (by simp) hp h.uncancelled
    | _ => exact h.uncancelled

end

end Linked

end ServeState

end Dotdns
