import Dotdns.Server.Pending

/-!
# Server — the pending gauges

`pending_followers` and `pending_leaders` are moved by hand on both sides
of an await. The leader's task is detached, so its second half always
runs. A follower's does not: when its future is dropped while it waits, no
code runs at all, and the gauge keeps counting it.
-/

namespace Dotdns

open Lib

/-- A follower between its join and its return. -/
def CallerPhase.waitsAsFollower : CallerPhase → Bool
  | .waiting leader _ => !leader
  | _ => false

/-- The task's upstream query has not completed. -/
def FlightPhase.isRunning : FlightPhase → Bool
  | .running => true
  | _ => false

namespace PendingState

/-- What `pending_followers` is meant to count. -/
def waitingFollowers (s : PendingState) : Nat :=
  s.callers.countP fun c => c.phase.waitsAsFollower

/-- What `pending_leaders` is meant to count. -/
def runningLeaders (s : PendingState) : Nat :=
  s.flights.countP fun fl => fl.phase.isRunning

/-- The gauges say what is there. -/
structure GaugesRight (s : PendingState) : Prop where
  followers : s.metrics.pendingFollowers.toNat = s.waitingFollowers
  leaders : s.metrics.pendingLeaders.toNat = s.runningLeaders

/-- The step is not the cancellation of a waiting follower, and a join
finds its `u64` gauge below its last value. -/
def keepsGauges (s : PendingState) : PendingEvent → Bool
  | .join i =>
      match s.callers[i]? with
      | some ⟨_, .starting key⟩ =>
          if (s.inner.get? key).isSome then decide (s.waitingFollowers + 1 < 2 ^ 64)
          else decide (s.runningLeaders + 1 < 2 ^ 64)
      | _ => true
  | .cancel i => !(s.callers[i]?).any fun c => c.phase.waitsAsFollower
  | _ => true

/-! ## One lemma per step -/

section
variable {toBytes : ToBytes} {s s' : PendingState}

theorem waitingFollowers_setCaller {i : Nat} {c : Caller} (hc : s.callers[i]? = some c)
    (c' : Caller) (m : Metrics) :
    (s.setCaller i c' m).waitingFollowers + (if c.phase.waitsAsFollower then 1 else 0) =
      s.waitingFollowers + if c'.phase.waitsAsFollower then 1 else 0 :=
  countP_set_add (fun c : Caller => c.phase.waitsAsFollower) hc c'

theorem runningLeaders_modify {f : Nat} {fl : Flight} (hf : s.flights[f]? = some fl)
    (g : Flight → Flight) :
    (s.flights.modify f g).countP (fun fl => fl.phase.isRunning) +
        (if fl.phase.isRunning then 1 else 0) =
      s.runningLeaders + if (g fl).phase.isRunning then 1 else 0 :=
  countP_modify_add (fun fl : Flight => fl.phase.isRunning) hf g

/-- A waiting caller leaves, and a follower takes itself off the gauge. -/
theorem GaugesRight.leave (h : s.GaugesRight) {i : Nat} {query : Message} {leader : Bool}
    {f : Nat} (hc : s.callers[i]? = some ⟨query, .waiting leader f⟩) {c' : Caller} {m : Metrics}
    (hout : c'.phase.waitsAsFollower = false)
    (hpf : m.pendingFollowers = s.metrics.pendingFollowers - 1)
    (hpl : m.pendingLeaders = s.metrics.pendingLeaders) :
    (s.setCaller i c' (if leader then s.metrics else m)).GaugesRight := by
  have hcount := waitingFollowers_setCaller hc c' (if leader then s.metrics else m)
  rw [hout] at hcount
  cases leader with
  | true =>
      simp only [CallerPhase.waitsAsFollower, Bool.not_true, Bool.false_eq_true, if_false,
        Nat.add_zero] at hcount
      exact ⟨h.followers.trans hcount.symm, h.leaders⟩
  | false =>
      simp only [CallerPhase.waitsAsFollower, Bool.not_false, if_true, Bool.false_eq_true,
        if_false, Nat.add_zero] at hcount
      refine ⟨?_, (congrArg UInt64.toNat hpl).trans h.leaders⟩
      show m.pendingFollowers.toNat = _
      rw [hpf]
      exact Metrics.gauge_sub_one (h.followers.trans hcount.symm)

/-- A task moves between two phases that are not the upstream query. -/
theorem GaugesRight.modify (h : s.GaugesRight) {f : Nat} {fl : Flight}
    (hf : s.flights[f]? = some fl) (hbefore : fl.phase.isRunning = false) {g : Flight → Flight}
    (hafter : (g fl).phase.isRunning = false) (inner : AssocMap PendingKey Nat) :
    GaugesRight { s with inner, flights := s.flights.modify f g } := by
  have hcount := runningLeaders_modify hf g
  rw [hbefore, hafter] at hcount
  exact ⟨h.followers, h.leaders.trans hcount.symm⟩

theorem GaugesRight.call (h : s.GaugesRight) {query : Message}
    (hs : s.step toBytes (.call query) = some s') : s'.GaugesRight := by
  cases hs
  refine ⟨?_, h.leaders⟩
  show _ = List.countP _ (s.callers ++ [_])
  rw [List.countP_append, h.followers]
  cases pendingKey toBytes query <;> rfl

theorem GaugesRight.answer (h : s.GaugesRight) {f : Nat} {result : PendingResult}
    (hs : s.step toBytes (.answer f result) = some s') : s'.GaugesRight := by
  simp only [step] at hs
  split at hs
  · rename_i hphase
    cases hs
    obtain ⟨fl, hf, hrun⟩ := Option.map_eq_some_iff.mp hphase
    have hcount := runningLeaders_modify hf fun fl => { fl with phase := .completed result }
    simp only [hrun, FlightPhase.isRunning, if_true, Bool.false_eq_true, if_false,
      Nat.add_zero] at hcount
    exact ⟨h.followers, Metrics.gauge_sub_one (h.leaders.trans hcount.symm)⟩
  · cases hs

theorem GaugesRight.remove (h : s.GaugesRight) {f : Nat}
    (hs : s.step toBytes (.remove f) = some s') : s'.GaugesRight := by
  simp only [step] at hs
  split at hs
  · rename_i key query result value hf
    cases hs
    exact h.modify hf rfl rfl _
  · cases hs

theorem GaugesRight.send (h : s.GaugesRight) (f : Nat) (result : PendingResult) :
    (s.send f result).GaugesRight := by
  unfold PendingState.send
  split
  · refine ⟨h.followers, ?_⟩
    have hsame := countP_modify_of_eq (fun fl : Flight => fl.phase.isRunning)
      (fun fl => { fl with value := some result }) (fun _ => rfl) s.flights f
    exact h.leaders.trans hsame.symm
  · exact h

/-- Sending a value moves no task. -/
theorem phase_send (s : PendingState) (f g : Nat) (result : PendingResult) :
    ((s.send g result).flights[f]?).map Flight.phase = (s.flights[f]?).map Flight.phase := by
  unfold PendingState.send
  split
  · rw [List.getElem?_modify]
    cases s.flights[f]? with
    | none => rfl
    | some fl => by_cases hgf : g = f <;> simp [hgf]
  · rfl

theorem GaugesRight.publish (h : s.GaugesRight) {f : Nat}
    (hs : s.step toBytes (.publish f) = some s') : s'.GaugesRight := by
  simp only [step] at hs
  split at hs
  · rename_i result tx hphase
    cases hs
    cases tx with
    | none =>
        obtain ⟨fl, hf, hrem⟩ := Option.map_eq_some_iff.mp hphase
        exact h.modify hf (by rw [hrem]; rfl) rfl _
    | some g =>
        rw [← phase_send s f g result] at hphase
        obtain ⟨fl, hf, hrem⟩ := Option.map_eq_some_iff.mp hphase
        exact (h.send g result).modify hf (by rw [hrem]; rfl) rfl _
  · cases hs

theorem GaugesRight.poll (h : s.GaugesRight) {i : Nat}
    (hs : s.step toBytes (.poll i) = some s') : s'.GaugesRight := by
  simp only [step] at hs
  split at hs
  · rename_i query leader f hc
    split at hs
    · cases hs
      exact h.leave hc rfl rfl rfl
    · split at hs
      · cases hs
      · cases hs
        exact h.leave hc rfl rfl rfl
  · cases hs

theorem GaugesRight.timeout (h : s.GaugesRight) {i : Nat}
    (hs : s.step toBytes (.timeout i) = some s') : s'.GaugesRight := by
  simp only [step] at hs
  split at hs
  · rename_i query leader f hc
    split at hs
    · cases hs
      exact h.leave hc rfl rfl rfl
    · cases hs
  · cases hs

/-- A join moves one gauge up; the caller it moves was not counted. -/
theorem GaugesRight.join_iff (h : s.GaugesRight) {i : Nat}
    (hs : s.step toBytes (.join i) = some s') :
    s'.GaugesRight ↔ s.keepsGauges (.join i) = true := by
  simp only [step] at hs
  split at hs
  · rename_i query key hc
    cases hs
    rw [keepsGauges, hc]
    unfold PendingState.join
    cases hkey : s.inner.get? key with
    | some f =>
        have hcount : List.countP _ _ + 0 = s.waitingFollowers + 1 :=
          waitingFollowers_setCaller hc ⟨query, .waiting false f⟩ s.metrics
        have hup := Metrics.gauge_add_one_iff h.followers
        simp only [hkey, Option.isSome_some, if_true, decide_eq_true_eq]
        rw [← hup, ← hcount]
        exact ⟨fun h' => h'.followers, fun hf => ⟨hf, h.leaders⟩⟩
    | none =>
        have hcount : List.countP _ _ + 0 = s.waitingFollowers + 0 :=
          waitingFollowers_setCaller hc ⟨query, .waiting true s.flights.length⟩ s.metrics
        have hleaders : (s.flights ++ [(⟨key, query, .running, none⟩ : Flight)]).countP
            (fun fl : Flight => fl.phase.isRunning) = s.runningLeaders + 1 := List.countP_append
        have hup := Metrics.gauge_add_one_iff h.leaders
        simp only [hkey, Option.isSome_none, Bool.false_eq_true, if_false, decide_eq_true_eq]
        rw [← hup, ← hleaders]
        exact ⟨fun h' => h'.leaders, fun hl => ⟨h.followers.trans hcount.symm, hl⟩⟩
  · cases hs

/-- A cancellation moves no gauge. -/
theorem GaugesRight.cancel_iff (h : s.GaugesRight) {i : Nat}
    (hs : s.step toBytes (.cancel i) = some s') :
    s'.GaugesRight ↔ s.keepsGauges (.cancel i) = true := by
  obtain ⟨c, hc, hcall⟩ : ∃ c, s.callers[i]? = some c ∧
      s' = s.setCaller i ⟨c.query, .cancelled⟩ s.metrics := by
    simp only [step] at hs
    split at hs
    · rename_i query key hc
      exact ⟨_, hc, (Option.some.inj hs).symm⟩
    · rename_i query leader f hc
      exact ⟨_, hc, (Option.some.inj hs).symm⟩
    · cases hs
  subst hcall
  have hcount := waitingFollowers_setCaller hc ⟨c.query, .cancelled⟩ s.metrics
  rw [keepsGauges, hc, Option.any_some]
  have hright : (s.setCaller i ⟨c.query, .cancelled⟩ s.metrics).GaugesRight ↔
      s.waitingFollowers = (s.setCaller i ⟨c.query, .cancelled⟩ s.metrics).waitingFollowers :=
    ⟨fun h' => h.followers.symm.trans h'.followers, fun he => ⟨h.followers.trans he, h.leaders⟩⟩
  rw [hright]
  cases hw : c.phase.waitsAsFollower with
  | false =>
      rw [hw] at hcount
      exact iff_of_true hcount.symm rfl
  | true =>
      rw [hw, if_pos rfl] at hcount
      refine iff_of_false ?_ (by simp)
      intro he
      have hzero : (s.setCaller i ⟨c.query, .cancelled⟩ s.metrics).waitingFollowers + 1 =
        s.waitingFollowers := hcount
      omega

/-- One step from right gauges. -/
theorem GaugesRight.step_iff (h : s.GaugesRight) {e : PendingEvent}
    (hs : s.step toBytes e = some s') : s'.GaugesRight ↔ s.keepsGauges e = true := by
  cases e with
  | join i => exact h.join_iff hs
  | cancel i => exact h.cancel_iff hs
  | call query => exact iff_of_true (h.call hs) rfl
  | answer f result => exact iff_of_true (h.answer hs) rfl
  | remove f => exact iff_of_true (h.remove hs) rfl
  | publish f => exact iff_of_true (h.publish hs) rfl
  | poll i => exact iff_of_true (h.poll hs) rfl
  | timeout i => exact iff_of_true (h.timeout hs) rfl

end

end PendingState

/-- **The pending gauges.** For every run from gauges at zero:
`pending_followers` is the number of waiting followers and
`pending_leaders` the number of leader tasks whose upstream query has not
completed, in every state on the way, exactly when no waiting follower is
cancelled and no gauge runs out of its 64 bits. -/
theorem pending_gauges_iff (toBytes : ToBytes) (m : Metrics) (hpf : m.pendingFollowers = 0)
    (hpl : m.pendingLeaders = 0) (es : List PendingEvent) :
    (∀ s, Passes (PendingState.step toBytes) (PendingState.init m) es s → s.GaugesRight) ↔
      ∀ s e s', Takes (PendingState.step toBytes) (PendingState.init m) es s e s' →
        s.keepsGauges e = true := by
  have hinit : (PendingState.init m).GaugesRight :=
    ⟨congrArg UInt64.toNat hpf, congrArg UInt64.toNat hpl⟩
  exact passes_iff_takes hinit fun s e s' hi hs => hi.step_iff hs

/-- Two calls for one key; the leader's future is dropped while it waits,
and the gauges stay right to the end. -/
theorem pending_gauges_leader_dropped :
    let toBytes : ToBytes := fun _ => .ok (List.replicate 12 0)
    let es : List PendingEvent :=
      [.call { id := 1 }, .call { id := 2 }, .join 0, .join 1, .cancel 0,
       .answer 0 (.ok { messageType := .response }), .remove 0, .publish 0, .poll 1]
    ∀ s, Passes (PendingState.step toBytes) (PendingState.init {}) es s → s.GaugesRight := by
  intro toBytes es
  refine (pending_gauges_iff toBytes {} rfl rfl es).mpr fun s e s' ht => ?_
  have halong : along (PendingState.step toBytes) PendingState.keepsGauges (PendingState.init {})
      es = true := by decide +kernel
  exact test_of_along halong ht

/-- The follower's future is dropped while it waits: nothing waits and
nothing runs at the end, and the gauge still says one. -/
theorem pending_follower_dropped :
    let toBytes : ToBytes := fun _ => .ok (List.replicate 12 0)
    let es : List PendingEvent :=
      [.call { id := 1 }, .call { id := 2 }, .join 0, .join 1, .cancel 1,
       .answer 0 (.ok { messageType := .response }), .remove 0, .publish 0, .poll 0]
    ∃ s, run (PendingState.step toBytes) (PendingState.init {}) es = some s ∧
      s.waitingFollowers = 0 ∧ s.runningLeaders = 0 ∧
      s.metrics.pendingFollowers = 1 ∧ s.metrics.pendingLeaders = 0 := by
  intro toBytes es
  refine ⟨_, rfl, rfl, rfl, ?_, ?_⟩ <;> decide +kernel

end Dotdns
