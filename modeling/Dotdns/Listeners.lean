import Dotdns.Process

/-!
# Process — two listeners, two coalescers

`run_serve` gives the DoT server and the DoH server the same cache,
blocklist, pool and counters, but not the same `PendingQueries`:
`Server::new` makes one, and the `DohState` literal makes another. The
process is therefore two coalescers side by side, each sound on its own,
over one set of counters.

The headline says when a key has at most one upstream query in flight in
the whole process.
-/

namespace Dotdns

open Lib

/-- The two servers. -/
inductive Listener where
  | dot
  | doh
  deriving DecidableEq, Repr

/-- The other of the two. -/
def Listener.other : Listener → Listener
  | .dot => .doh
  | .doh => .dot

theorem Listener.other_ne (l : Listener) : l.other ≠ l := by
  cases l <;> decide

/-- The coalescers of the two servers. -/
structure Listeners where
  dot : PendingState
  doh : PendingState

namespace Listeners

/-- The coalescer of a server. -/
def pending (s : Listeners) : Listener → PendingState
  | .dot => s.dot
  | .doh => s.doh

/-- Listener `l` is left in state `p`; the counters are shared. -/
def update (s : Listeners) (l : Listener) (p : PendingState) : Listeners :=
  match l with
  | .dot => ⟨p, { s.doh with metrics := p.metrics }⟩
  | .doh => ⟨{ s.dot with metrics := p.metrics }, p⟩

/-- A step of one coalescer. -/
def step (toBytes : ToBytes) (s : Listeners) (le : Listener × PendingEvent) : Option Listeners :=
  ((s.pending le.1).step toBytes le.2).map fun p => s.update le.1 p

/-- As `run_serve` builds them. -/
def init (metrics : Metrics) : Listeners := ⟨.init metrics, .init metrics⟩

@[simp] theorem pending_update_self (s : Listeners) (l : Listener) (p : PendingState) :
    (s.update l p).pending l = p := by
  cases l <;> rfl

theorem pending_update_other (s : Listeners) (l : Listener) (p : PendingState) :
    (s.update l p).pending l.other = { s.pending l.other with metrics := p.metrics } := by
  cases l <;> rfl

end Listeners

/-! ## Flights in the air -/

/-- Flight `f` of a coalescer is waiting for `pool.query`, under key `k`. -/
def PendingState.InFlight (p : PendingState) (f : Nat) (k : PendingKey) : Prop :=
  ∃ fl, p.flights[f]? = some fl ∧ fl.phase = .running ∧ fl.key = k

/-- Caller `i` is about to lead: it has the lock and finds no entry. -/
def PendingState.Leads (p : PendingState) (i : Nat) (k : PendingKey) : Prop :=
  ∃ query, p.callers[i]? = some ⟨query, .starting k⟩ ∧ p.inner.get? k = none

section
variable {toBytes : ToBytes} {p p' : PendingState} {e : PendingEvent}

theorem inFlight_modify {flights : List Flight} {g f : Nat} {h : Flight → Flight} {fl : Flight}
    (hh : ∀ x, (h x).phase = .running → x.phase = .running ∧ (h x).key = x.key)
    (hf : (flights.modify g h)[f]? = some fl) (hr : fl.phase = .running) :
    ∃ x, flights[f]? = some x ∧ x.phase = .running ∧ x.key = fl.key := by
  rcases getElem?_modify_eq_some.mp hf with ⟨_, hf⟩ | ⟨_, x, hx, rfl⟩
  · exact ⟨fl, hf, hr, rfl⟩
  · exact ⟨x, hx, (hh x hr).1, (hh x hr).2.symm⟩

/-- An upstream query is in flight after a step if it was before, or if the
step is the lock of a caller that leads. -/
theorem inFlight_step (hs : p.step toBytes e = some p') {f : Nat} {k : PendingKey}
    (hf : p'.InFlight f k) :
    p.InFlight f k ∨ ∃ i, e = .join i ∧ p.Leads i k := by
  obtain ⟨fl, hf, hr, rfl⟩ := hf
  cases e with
  | call query =>
      cases hs
      exact .inl ⟨fl, hf, hr, rfl⟩
  | join i =>
      simp only [PendingState.step] at hs
      split at hs
      · rename_i query key hc
        cases hs
        -- a flight is made only when the map has none for the key
        unfold PendingState.join at hf
        cases hk : p.inner.get? key with
        | some g =>
            rw [hk] at hf
            exact .inl ⟨fl, hf, hr, rfl⟩
        | none =>
            rw [hk] at hf
            dsimp only at hf
            rcases getElem?_concat_eq_some.mp hf with hf | ⟨_, rfl⟩
            · exact .inl ⟨fl, hf, hr, rfl⟩
            · exact .inr ⟨i, rfl, query, hc, hk⟩
      · cases hs
  | answer g result =>
      simp only [PendingState.step] at hs
      split at hs
      · cases hs
        exact .inl (inFlight_modify (by intro x hx; cases hx) hf hr)
      · cases hs
  | remove g =>
      simp only [PendingState.step] at hs
      split at hs
      · cases hs
        exact .inl (inFlight_modify (by intro x hx; cases hx) hf hr)
      · cases hs
  | publish g =>
      simp only [PendingState.step] at hs
      split at hs
      · rename_i result tx _
        cases hs
        obtain ⟨x, hx, hxr, hxk⟩ := inFlight_modify (by intro x hx; cases hx) hf hr
        rw [← hxk]
        cases tx with
        | none => exact .inl ⟨x, hx, hxr, rfl⟩
        | some h =>
            dsimp only [PendingState.send] at hx
            split at hx
            · obtain ⟨y, hy, hyr, hyk⟩ := inFlight_modify (by intro y hy; exact ⟨hy, rfl⟩) hx hxr
              exact .inl ⟨y, hy, hyr, hyk⟩
            · exact .inl ⟨x, hx, hxr, rfl⟩
      · cases hs
  | poll i =>
      simp only [PendingState.step] at hs
      split at hs
      · split at hs
        · cases hs
          exact .inl ⟨fl, hf, hr, rfl⟩
        · split at hs
          · cases hs
          · cases hs
            exact .inl ⟨fl, hf, hr, rfl⟩
      · cases hs
  | timeout i =>
      simp only [PendingState.step] at hs
      split at hs
      · split at hs
        · cases hs
          exact .inl ⟨fl, hf, hr, rfl⟩
        · cases hs
      · cases hs
  | cancel i =>
      simp only [PendingState.step] at hs
      split at hs
      · cases hs
        exact .inl ⟨fl, hf, hr, rfl⟩
      · cases hs
        exact .inl ⟨fl, hf, hr, rfl⟩
      · cases hs

/-- A caller that leads starts a flight. -/
theorem inFlight_of_leads {i : Nat} {k : PendingKey} (hs : p.step toBytes (.join i) = some p')
    (hl : p.Leads i k) : p'.InFlight p.flights.length k := by
  obtain ⟨query, hc, hk⟩ := hl
  simp only [PendingState.step, hc, Option.some.injEq] at hs
  subst hs
  unfold PendingState.join
  rw [hk]
  exact ⟨⟨k, query, .running, none⟩, by simp, rfl, rfl⟩

/-- Within one coalescer a key has one flight. -/
theorem PendingInv.inFlight_unique (h : PendingInv toBytes p) {f g : Nat} {k : PendingKey}
    (hf : p.InFlight f k) (hg : p.InFlight g k) : f = g := by
  obtain ⟨fl, hf, hr, hk⟩ := hf
  obtain ⟨fl', hg, hr', hk'⟩ := hg
  have h1 := h.active f fl hf (by rw [hr]; rfl)
  have h2 := h.active g fl' hg (by rw [hr']; rfl)
  rw [hk] at h1
  rw [hk', h1] at h2
  exact Option.some.inj h2

theorem PendingInv.setMetrics (h : PendingInv toBytes p) (m : Metrics) :
    PendingInv toBytes { p with metrics := m } :=
  ⟨h.key, h.entry, h.active, h.removed, h.value, h.published, h.callers⟩

end

/-! ## Both listeners -/

namespace Listeners

section
variable {toBytes : ToBytes} {s s' : Listeners}

/-- Each key is in flight at most once in the process. -/
def SingleFlight (s : Listeners) : Prop :=
  ∀ l l' f f' k, (s.pending l).InFlight f k → (s.pending l').InFlight f' k → l = l' ∧ f = f'

/-- No caller of `l` leads with a key that is in flight at the other
listener. -/
def LeadsAlone (s : Listeners) (l : Listener) (i : Nat) : Prop :=
  ∀ k f, (s.pending l).Leads i k → ¬ (s.pending l.other).InFlight f k

/-- Both invariants, and no key in flight on both sides. -/
structure Ok (toBytes : ToBytes) (s : Listeners) : Prop where
  each : ∀ l, PendingInv toBytes (s.pending l)
  apart : ∀ l f f' k, (s.pending l).InFlight f k → ¬ (s.pending l.other).InFlight f' k

theorem Ok.step (h : Ok toBytes s) {l : Listener} {e : PendingEvent}
    (hs : s.step toBytes (l, e) = some s') (halone : ∀ i, e = .join i → s.LeadsAlone l i) :
    Ok toBytes s' := by
  obtain ⟨p, hp, rfl⟩ := Option.map_eq_some_iff.mp hs
  have hapart : ∀ f f' k, p.InFlight f k → ¬ (s.pending l.other).InFlight f' k := by
    intro f f' k hf hf'
    rcases inFlight_step hp hf with hold | ⟨i, he, hl⟩
    · exact h.apart l f f' k hold hf'
    · exact halone i he k f' hl hf'
  have hcases : ∀ l', l' = l ∨ l' = l.other := by
    intro l'
    cases l <;> cases l' <;> simp [Listener.other]
  have hback : l.other.other = l := by
    cases l <;> rfl
  constructor
  · intro l'
    rcases hcases l' with rfl | rfl
    · rw [pending_update_self]
      exact (h.each _).step e hp
    · rw [pending_update_other]
      exact (h.each _).setMetrics _
  · intro l' f f' k hf hf'
    rcases hcases l' with rfl | rfl
    · rw [pending_update_self] at hf
      rw [pending_update_other] at hf'
      exact hapart f f' k hf hf'
    · rw [pending_update_other] at hf
      rw [hback, pending_update_self] at hf'
      exact hapart f' f k hf' hf

theorem Ok.singleFlight (h : Ok toBytes s) : SingleFlight s := by
  intro l l' f f' k hf hf'
  by_cases hl : l' = l
  · subst hl
    exact ⟨rfl, (h.each _).inFlight_unique hf hf'⟩
  · have hother : l' = l.other := by
      cases l <;> cases l' <;> simp_all [Listener.other]
    subst hother
    exact absurd hf' (h.apart l f f' k hf)

end

end Listeners

/-- **One upstream query per key in the whole process**, in every state of a
run over both listeners, exactly when no caller takes the lead at one
listener while a query with its key is in flight at the other. -/
theorem listeners_single_flight_iff (toBytes : ToBytes) (m : Metrics)
    (es : List (Listener × PendingEvent)) :
    (∀ s, Passes (Listeners.step toBytes) (Listeners.init m) es s → s.SingleFlight) ↔
    ∀ s l i s', Takes (Listeners.step toBytes) (Listeners.init m) es s (l, .join i) s' →
      s.LeadsAlone l i := by
  constructor
  · intro h s l i s' ht k f hl hf
    obtain ⟨p, hp, hs'⟩ := Option.map_eq_some_iff.mp ht.step_eq
    -- a join that leads although the other listener is asking breaks it at once
    have hsingle := h s' ht.target
    subst hs'
    have hnew := inFlight_of_leads hp hl
    have hself : ((s.update l p).pending l).InFlight (s.pending l).flights.length k := by
      rw [Listeners.pending_update_self]
      exact hnew
    have hother : ((s.update l p).pending l.other).InFlight f k := by
      rw [Listeners.pending_update_other]
      exact hf
    exact l.other_ne (hsingle _ _ _ _ k hother hself).1
  · intro halone s hpass
    -- and when none does, every flight in the air is the only one for its key
    have hok : Listeners.Ok toBytes s := by
      refine hpass.invariant ⟨?_, ?_⟩ ?_
      · intro l
        cases l <;> exact pendingInv_init m
      · intro l f f' k hf
        obtain ⟨fl, hf, _⟩ := hf
        cases l <;> cases hf
      · intro s le s' ht hi
        obtain ⟨l, e⟩ := le
        refine hi.step ht.step_eq ?_
        intro i he
        subst he
        exact halone s l i s' ht
    exact hok.singleFlight

/-- The encoder on the query for `ads.example` with its ID zeroed. -/
def adsToBytes : ToBytes := fun m =>
  if m = adsQuery 0 then .ok ([0, 0, 0x01, 0, 0, 1, 0, 0, 0, 0, 0, 0] ++ adsQuestionBytes)
  else .error []

/-- The same question over DoT and over DoH: two upstream queries in flight
under one key. -/
theorem listeners_two_flights :
    ∃ s, Passes (Listeners.step adsToBytes) (Listeners.init {})
      [(.dot, .call (adsQuery 1)), (.doh, .call (adsQuery 2)), (.dot, .join 0),
       (.doh, .join 0)] s ∧
    ∃ k, pendingKey adsToBytes (adsQuery 1) = .ok k ∧ pendingKey adsToBytes (adsQuery 2) = .ok k ∧
      (s.pending .dot).InFlight 0 k ∧ (s.pending .doh).InFlight 0 k :=
  ⟨_, .finish rfl, _, rfl, rfl, ⟨_, rfl, rfl, rfl⟩, ⟨_, rfl, rfl, rfl⟩⟩

end Dotdns
