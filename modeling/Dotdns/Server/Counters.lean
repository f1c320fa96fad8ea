import Dotdns.Observability.Clients
import Dotdns.Server.Origins

/-!
# Server — query counters

`resolve_with_context` counts a query, its block and its hit or miss by
hand in several branches, each time twice: in the process-wide counters and
in the client's. A call may be dropped at its await, after all of its
counting.

`notes` says once what each step counts; that the counts add up, and that
they add up the same in both places, follows from it by one induction over
the run.
-/

namespace Dotdns

open Lib

/-! ## Counting -/

/-- The process-wide counterpart of a client counter. -/
def Metrics.counter (m : Metrics) : ClientCounter → UInt64
  | .query => m.totalQueries
  | .blocked => m.blockedQueries
  | .cacheHit => m.cacheHits
  | .cacheMiss => m.cacheMisses

namespace Cache

variable {α : Type*}

/-- The cache keeps its own counters and moves no other. -/
theorem counter_get (c : Cache α) (m : Metrics) (now : Nat) (query : Message) :
    (c.get m now query).2.2.counter = m.counter := by
  unfold get
  split
  · rfl
  · split
    · rfl
    · dsimp only
      split
      · funext k
        cases k <;> rfl
      · rfl

theorem counter_insert (c : Cache α) (m : Metrics) (now pick : Nat) (query response : Message)
    (o : α) : (c.insert m now pick query response o).2.counter = m.counter := by
  unfold insert
  split
  · rfl
  · split
    · rfl
    · funext k
      cases hvictim : c.victim pick with
      | none =>
          simp only [makeRoom, hvictim]
          cases k <;> rfl
      | some key =>
          simp only [makeRoom, hvictim]
          cases k <;> rfl

theorem counter_flush (c : Cache α) (m : Metrics) : (c.flush m).2.counter = m.counter := by
  funext k
  cases k <;> rfl

end Cache

namespace ObservabilityRegistry

/-- The sum of a counter over the clients. -/
def clientTotal (reg : ObservabilityRegistry) (c : ClientCounter) : Nat :=
  reg.clients.sumBy fun stats => (stats.counter c).toNat

/-- The registry has an entry for the address. -/
def tracks (reg : ObservabilityRegistry) (ip : IpAddr) : Bool := (reg.clients.get? ip).isSome

/-- Every client that is tracked in `reg` is tracked in `reg'`. -/
def Keeps (reg reg' : ObservabilityRegistry) : Prop := ∀ ip, reg.tracks ip → reg'.tracks ip

/-- It is enough to look at the stored addresses. -/
theorem keeps_of_keys {reg reg' : ObservabilityRegistry}
    (h : (reg.clients.keys.all fun ip => reg'.tracks ip) = true) : reg.Keeps reg' := by
  intro ip htracked
  obtain ⟨stats, hget⟩ := Option.isSome_iff_exists.mp htracked
  obtain ⟨k, hmem, hk⟩ := AssocMap.exists_mem_of_get? hget
  rw [← eq_of_beq hk]
  exact List.all_eq_true.mp h k (List.mem_map.mpr ⟨_, hmem, rfl⟩)

theorem tracks_record_self (reg : ObservabilityRegistry) (call : ClientCall) :
    (reg.record call).tracks call.ip = true := by
  rw [tracks, get?_record_self]
  rfl

/-- A call brings in no client but its own. -/
theorem tracks_of_record {reg : ObservabilityRegistry} {call : ClientCall} {ip : IpAddr}
    (hne : ip ≠ call.ip) (h : (reg.record call).tracks ip = true) : reg.tracks ip = true := by
  rw [tracks] at h
  rcases get?_record_other reg call hne with hnone | hsame
  · rw [hnone] at h
    cases h
  · rw [hsame] at h
    exact h

/-- A call that keeps every client changes the entry of its own and no
other. -/
theorem clients_record_of_keeps {reg : ObservabilityRegistry} {call : ClientCall}
    (h : reg.Keeps (reg.record call)) :
    (reg.record call).clients = reg.clients.insert call.ip
      (call.op.record (((reg.clients.get? call.ip).getD {}).touchActivity reg.activityClock)) := by
  rw [record_eq] at h ⊢
  unfold withClient at h ⊢
  cases hget : reg.clients.get? call.ip with
  | some stats => rfl
  | none =>
      simp only [hget] at h ⊢
      by_cases hfull : reg.clients.size ≥ reg.clientCapacity ∧ reg.clients.size ≠ 0
      · rw [if_pos hfull] at h ⊢
        cases hold : oldest reg.clients with
        | none => rfl
        | some old =>
            -- the client that makes room was tracked, and is not any more
            simp only [hold] at h
            obtain ⟨e, hmin, rfl⟩ := Option.map_eq_some_iff.mp hold
            have htracked : reg.clients.get? e.1 = some e.2 :=
              AssocMap.get?_of_mem (List.minOn?_mem hmin)
            have hne : (call.ip == e.1) = false := by
              rw [beq_eq_false_iff_ne]
              intro heq
              rw [heq, htracked] at hget
              cases hget
            have hgone := h e.1 (by rw [tracks, htracked]; rfl)
            simp [tracks, AssocMap.get?_insert, AssocMap.get?_erase, hne] at hgone
      · rw [if_neg hfull]
        rfl

/-- One count, with no client dropped. -/
theorem clientTotal_record {reg : ObservabilityRegistry} {ip : IpAddr} {c : ClientCounter}
    (h : reg.Keeps (reg.record ⟨ip, .count c⟩)) (c' : ClientCounter)
    (hlt : reg.clientTotal c' + (if c = c' then 1 else 0) < 2 ^ 64) :
    (reg.record ⟨ip, .count c⟩).clientTotal c' =
      reg.clientTotal c' + if c = c' then 1 else 0 := by
  let F : ClientStats → Nat := fun stats => (stats.counter c').toNat
  let found := (reg.clients.get? ip).getD {}
  have hzero : F {} = 0 := by cases c' <;> rfl
  have hcounter : ∀ tick : UInt64,
      ((ClientOp.count c).record (found.touchActivity tick)).counter c' =
        found.counter c' + if c = c' then 1 else 0 := by
    intro tick
    rw [ClientOp.counter_record]
    cases c' <;> simp [ClientStats.counter, ClientStats.touchActivity]
  have hsum : (reg.record ⟨ip, .count c⟩).clientTotal c' + F found = reg.clientTotal c' +
      F ((ClientOp.count c).record (found.touchActivity reg.activityClock)) := by
    rw [clientTotal, clients_record_of_keeps h]
    exact AssocMap.sumBy_insert_getD hzero _
  have hle : F found ≤ reg.clientTotal c' := AssocMap.getD_le_sumBy hzero
  simp only [F, hcounter] at hsum hle
  by_cases hc : c = c'
  · rw [if_pos hc] at hlt
    have hone := (Metrics.gauge_add_one_iff (g := found.counter c') rfl).mpr (by omega)
    simp only [hc, if_true, hone] at hsum ⊢
    omega
  · simp only [hc, if_false, UInt64.add_zero] at hsum ⊢
    omega

/-- The counts of one client, one after another. -/
def countAll (reg : ObservabilityRegistry) (ip : IpAddr) (cs : List ClientCounter) :
    ObservabilityRegistry :=
  reg.recordAll (cs.map fun c => ⟨ip, .count c⟩)

theorem countAll_cons (reg : ObservabilityRegistry) (ip : IpAddr) (c : ClientCounter)
    (cs : List ClientCounter) :
    reg.countAll ip (c :: cs) = (reg.record ⟨ip, .count c⟩).countAll ip cs := rfl

theorem tracks_of_countAll {reg : ObservabilityRegistry} {ip ip' : IpAddr}
    {cs : List ClientCounter} (hne : ip' ≠ ip) (h : (reg.countAll ip cs).tracks ip' = true) :
    reg.tracks ip' = true := by
  induction cs generalizing reg with
  | nil => exact h
  | cons c cs ih => exact tracks_of_record hne (ih h)

/-- The caller stays tracked: it is the last one to be dropped. -/
theorem tracks_countAll_self {reg : ObservabilityRegistry} {ip : IpAddr} (cs : List ClientCounter)
    (h : reg.tracks ip = true) : (reg.countAll ip cs).tracks ip = true := by
  induction cs generalizing reg with
  | nil => exact h
  | cons c cs ih => exact ih (tracks_record_self reg ⟨ip, .count c⟩)

theorem clientTotal_countAll {reg : ObservabilityRegistry} {ip : IpAddr}
    {cs : List ClientCounter} (h : reg.Keeps (reg.countAll ip cs)) (c' : ClientCounter)
    (hlt : reg.clientTotal c' + cs.count c' < 2 ^ 64) :
    (reg.countAll ip cs).clientTotal c' = reg.clientTotal c' + cs.count c' := by
  induction cs generalizing reg with
  | nil => rfl
  | cons c cs ih =>
      rw [countAll_cons] at h ⊢
      have hself := tracks_record_self reg ⟨ip, .count c⟩
      have hfirst : reg.Keeps (reg.record ⟨ip, .count c⟩) := by
        intro ip' htracked
        by_cases heq : ip' = ip
        · subst heq
          exact hself
        · exact tracks_of_countAll heq (h ip' htracked)
      have hrest : (reg.record ⟨ip, .count c⟩).Keeps
          ((reg.record ⟨ip, .count c⟩).countAll ip cs) := by
        intro ip' htracked
        by_cases heq : ip' = ip
        · subst heq
          exact tracks_countAll_self cs hself
        · exact h ip' (tracks_of_record heq htracked)
      rw [List.count_cons] at hlt ⊢
      simp only [beq_iff_eq] at hlt ⊢
      have hone := clientTotal_record hfirst c' (by omega)
      rw [ih hrest (by omega), hone]
      omega

end ObservabilityRegistry

/-! ## What a step counts -/

/-- The call has been counted as a query, and not yet as a hit or a miss. -/
def CallPhase.isLookup : CallPhase → Bool
  | .lookup => true
  | .store | .waiting | .received _ | .done _ _ | .cancelled => false

/-- The call is at its await, or it is over. -/
def CallPhase.atAwait : CallPhase → Bool
  | .waiting | .done _ _ | .cancelled => true
  | .lookup | .store | .received _ => false

namespace ResolverState

/-- No call is between two awaits. -/
def AtAwait (s : ResolverState) : Prop := ∀ c ∈ s.calls, c.phase.atAwait = true

/-- The queries without a question. -/
def questionless (s : ResolverState) : Nat := s.calls.countP fun c => c.query.queries.isEmpty

/-- The queries whose first name was decided to be blocked. -/
def blocked (s : ResolverState) : Nat := s.calls.countP Call.isBlocked

/-- The calls that have yet to read the cache. -/
def lookingUp (s : ResolverState) : Nat := s.calls.countP fun c => c.phase.isLookup

section
variable (U : UnicodeCase) (text : LabelText) (cfg : ResolveConfig)

/-- What a step counts. -/
def notes (s : ResolverState) : ResolverEvent → List ClientCounter
  | .arrive query clientIp =>
      if (newCall U text s.blocklist query clientIp).isBlocked then [.query, .blocked]
      else [.query]
  | .lookup i =>
      match s.calls[i]? with
      | some c =>
          if (s.cache.get s.metrics s.now (c.upstreamQuery cfg)).1.isSome then [.cacheHit]
          else [.cacheMiss]
      | none => []
  | _ => []

/-- For whom. -/
def noted (s : ResolverState) : ResolverEvent → Option IpAddr
  | .arrive _ clientIp => clientIp
  | .lookup i => s.calls[i]?.bind Call.clientIp
  | _ => none

end

section
variable {U : UnicodeCase} {text : LabelText} {cfg : ResolveConfig}
variable {s s' : ResolverState} {e : ResolverEvent}

theorem metrics_arrive (query : Message) (clientIp : Option IpAddr) :
    (s.arrive U text query clientIp).metrics =
      if (newCall U text s.blocklist query clientIp).isBlocked then
        s.metrics.recordQuery.recordBlocked
      else s.metrics.recordQuery := by
  unfold arrive newCall Call.isBlocked
  cases query.queries.head? with
  | none => simp
  | some q =>
      cases hb : (s.blocklist.decide U (queryDomain text q.name)).isBlocked <;> simp [hb]

theorem observability_arrive (query : Message) (clientIp : Option IpAddr) :
    (s.arrive U text query clientIp).observability =
      if (newCall U text s.blocklist query clientIp).isBlocked then
        note .recordClientBlocked clientIp (note .recordClientQuery clientIp s.observability)
      else note .recordClientQuery clientIp s.observability := by
  unfold arrive newCall Call.isBlocked
  cases query.queries.head? with
  | none => simp
  | some q =>
      cases hb : (s.blocklist.decide U (queryDomain text q.name)).isBlocked <;> simp [hb]

theorem counter_arrive (query : Message) (clientIp : Option IpAddr) (c : ClientCounter) :
    (s.arrive U text query clientIp).metrics.counter c =
      s.metrics.counter c +
        UInt64.ofNat ((s.notes U text cfg (.arrive query clientIp)).count c) := by
  rw [metrics_arrive, notes]
  cases (newCall U text s.blocklist query clientIp).isBlocked <;>
    cases c <;> simp [Metrics.counter, Metrics.recordQuery, Metrics.recordBlocked]

theorem notes_lookup {i : Nat} {call : Call} (hi : s.calls[i]? = some call) :
    s.notes U text cfg (.lookup i) =
      if (s.cache.get s.metrics s.now (call.upstreamQuery cfg)).1.isSome then [.cacheHit]
      else [.cacheMiss] := by
  simp only [notes, hi]

theorem counter_lookup {i : Nat} {call : Call} (hi : s.calls[i]? = some call)
    (c : ClientCounter) :
    (s.lookup cfg i call).metrics.counter c =
      s.metrics.counter c + UInt64.ofNat ((s.notes U text cfg (.lookup i)).count c) := by
  have hcache := Cache.counter_get s.cache s.metrics s.now (call.upstreamQuery cfg)
  rw [notes_lookup hi]
  unfold lookup
  split
  · rename_i cached origin cache metrics hget
    simp only [hget] at hcache ⊢
    rw [← hcache]
    cases c <;> simp [Metrics.counter, Metrics.recordCacheHit]
  · rename_i cache metrics hget
    simp only [hget] at hcache ⊢
    rw [← hcache]
    cases c <;> simp [Metrics.counter, Metrics.recordCacheMiss]

/-- The counts of a step in the registry, when there is one and the client
has an address. -/
def countFor (ip : Option IpAddr) (cs : List ClientCounter) (obs : Option ObservabilityRegistry) :
    Option ObservabilityRegistry :=
  note (fun reg ip => reg.countAll ip cs) ip obs

theorem countFor_nil (ip : Option IpAddr) (obs : Option ObservabilityRegistry) :
    countFor ip [] obs = obs := by
  cases obs <;> cases ip <;> rfl

theorem countFor_arrive (query : Message) (clientIp : Option IpAddr) :
    (s.arrive U text query clientIp).observability =
      countFor clientIp (s.notes U text cfg (.arrive query clientIp)) s.observability := by
  rw [observability_arrive, notes]
  cases (newCall U text s.blocklist query clientIp).isBlocked <;>
    cases s.observability <;> cases clientIp <;> rfl

theorem countFor_lookup {i : Nat} {call : Call} (hi : s.calls[i]? = some call) :
    (s.lookup cfg i call).observability =
      countFor call.clientIp (s.notes U text cfg (.lookup i)) s.observability := by
  rw [notes_lookup hi]
  unfold lookup
  split
  · rename_i cached origin cache metrics hget
    simp only [hget]
    cases s.observability <;> cases call.clientIp <;> rfl
  · rename_i cache metrics hget
    simp only [hget]
    cases s.observability <;> cases call.clientIp <;> rfl

/-- **Every step counts its notes, in both places, and nothing else.** -/
theorem step_counts (hs : s.step U text cfg e = some s') :
    (∀ c, s'.metrics.counter c =
      s.metrics.counter c + UInt64.ofNat ((s.notes U text cfg e).count c)) ∧
    s'.observability = countFor (s.noted e) (s.notes U text cfg e) s.observability := by
  have hnone : ∀ m : Metrics, m.counter = s.metrics.counter → ∀ c,
      m.counter c = s.metrics.counter c + UInt64.ofNat (List.count c []) := by
    intro m hm c
    rw [hm, List.count_nil]
    exact (UInt64.add_zero _).symm
  cases step_cases hs with
  | arrive query clientIp => exact ⟨counter_arrive query clientIp, countFor_arrive query clientIp⟩
  | lookup hi hp =>
      refine ⟨counter_lookup hi, ?_⟩
      rw [countFor_lookup hi, noted, hi]
      rfl
  | store pick hi hp =>
      exact ⟨hnone _ (Cache.counter_insert _ _ _ _ _ _ _), (countFor_nil _ _).symm⟩
  | insert pick hi hp =>
      exact ⟨hnone _ (Cache.counter_insert _ _ _ _ _ _ _), (countFor_nil _ _).symm⟩
  | manage req io disk =>
      refine ⟨hnone _ ?_, ?_⟩
      · cases req with
        | cacheFlush => exact Cache.counter_flush _ _
        | _ => rfl
      · cases req <;> exact (countFor_nil _ _).symm
  | replied response hi hp => exact ⟨hnone _ rfl, (countFor_nil _ _).symm⟩
  | failed err hi hp => exact ⟨hnone _ rfl, (countFor_nil _ _).symm⟩
  | cancel hi hp => exact ⟨hnone _ rfl, (countFor_nil _ _).symm⟩
  | refresh io disk _ _ => exact ⟨hnone _ rfl, (countFor_nil _ _).symm⟩
  | tick elapsed => exact ⟨hnone _ rfl, (countFor_nil _ _).symm⟩

/-- The tallies over the calls and what is counted of them move together. -/
structure Tallied (cs : List ClientCounter) (s s' : ResolverState) : Prop where
  queries : s'.calls.length = s.calls.length + cs.count .query
  blocked : s'.blocked = s.blocked + cs.count .blocked
  lookups : s'.questionless + s'.lookingUp + cs.count .cacheHit + cs.count .cacheMiss =
    s.questionless + s.lookingUp + cs.count .query

theorem tallied_of_calls (h : s'.calls = s.calls) : Tallied [] s s' := by
  constructor <;> simp [ResolverState.blocked, questionless, lookingUp, h]

/-- A call that moves on keeps its query and its decision. -/
theorem tallies_modify {i : Nat} {c : Call} (hi : s.calls[i]? = some c) (f : Call → CallPhase)
    (h : s'.calls = s.calls.modify i fun c => { c with phase := f c }) :
    s'.calls.length = s.calls.length ∧ s'.blocked = s.blocked ∧
      s'.questionless = s.questionless ∧
      s'.lookingUp + (if c.phase.isLookup then 1 else 0) =
        s.lookingUp + if (f c).isLookup then 1 else 0 := by
  let move : Call → Call := fun c => { c with phase := f c }
  have hcount := countP_modify_add (fun c : Call => c.phase.isLookup) hi move
  simp only [ResolverState.blocked, questionless, lookingUp, h]
  refine ⟨List.length_modify _ _ _, ?_, ?_, hcount⟩
  · exact countP_modify_of_eq Call.isBlocked move (fun _ => rfl) _ _
  · exact countP_modify_of_eq (fun c : Call => c.query.queries.isEmpty) move (fun _ => rfl) _ _

theorem tallied_of_moves {i : Nat} {c : Call} (hi : s.calls[i]? = some c) (f : Call → CallPhase)
    (hbefore : c.phase.isLookup = false) (hafter : (f c).isLookup = false)
    (h : s'.calls = s.calls.modify i fun c => { c with phase := f c }) : Tallied [] s s' := by
  obtain ⟨hlen, hblocked, hless, hlook⟩ := tallies_modify hi f h
  rw [hbefore, hafter] at hlook
  constructor <;> simp only [hlen, hblocked, hless, List.count_nil] <;> omega

variable (U text) in
/-- A query without a question is answered at once; any other is looked
up. -/
theorem newCall_isLookup (b : ReloadableBlocklist) (query : Message) (clientIp : Option IpAddr) :
    (newCall U text b query clientIp).query.queries.isEmpty =
      !(newCall U text b query clientIp).phase.isLookup := by
  unfold newCall
  cases hq : query.queries with
  | nil =>
      simp only [List.head?_nil, hq]
      rfl
  | cons q qs =>
      simp only [List.head?_cons, hq]
      rfl

theorem tallied_arrive (query : Message) (clientIp : Option IpAddr) :
    Tallied (s.notes U text cfg (.arrive query clientIp)) s (s.arrive U text query clientIp) := by
  have hcalls : (s.arrive U text query clientIp).calls = _ := calls_arrive
  have hone := newCall_isLookup U text s.blocklist query clientIp
  rw [notes]
  generalize newCall U text s.blocklist query clientIp = c at hcalls hone
  constructor <;>
    simp only [ResolverState.blocked, questionless, lookingUp, hcalls, List.length_append,
      List.countP_append, List.countP_singleton, hone]
  · cases c.isBlocked <;> simp
  · cases c.isBlocked <;> simp
  · cases c.isBlocked <;> cases c.phase.isLookup <;> simp <;> omega

variable (cfg s) in
theorem calls_lookup_modify (i : Nat) (c : Call) :
    ∃ f : Call → CallPhase, (∀ c, (f c).isLookup = false) ∧
      (s.lookup cfg i c).calls = s.calls.modify i fun c => { c with phase := f c } := by
  unfold lookup
  split
  · rename_i hget
    exact ⟨_, fun _ => rfl, rfl⟩
  · rename_i hget
    refine ⟨_, ?_, rfl⟩
    intro c
    cases c.isBlocked <;> rfl

theorem tallied_lookup {i : Nat} {c : Call} (hi : s.calls[i]? = some c) (hp : c.phase = .lookup) :
    Tallied (s.notes U text cfg (.lookup i)) s (s.lookup cfg i c) := by
  obtain ⟨f, hf, hcalls⟩ := calls_lookup_modify cfg s i c
  obtain ⟨hlen, hblocked, hless, hlook⟩ := tallies_modify hi f hcalls
  rw [hf, hp] at hlook
  simp only [CallPhase.isLookup, if_true, Bool.false_eq_true, if_false, Nat.add_zero] at hlook
  rw [notes_lookup hi]
  cases (s.cache.get s.metrics s.now (c.upstreamQuery cfg)).1.isSome <;>
    constructor <;> simp [hlen, hblocked, hless] <;> omega

theorem step_tallied (hs : s.step U text cfg e = some s') :
    Tallied (s.notes U text cfg e) s s' := by
  cases step_cases hs with
  | arrive query clientIp => exact tallied_arrive query clientIp
  | lookup hi hp => exact tallied_lookup hi hp
  | store pick hi hp => exact tallied_of_moves hi _ (by rw [hp]; rfl) rfl rfl
  | replied response hi hp => exact tallied_of_moves hi _ (by rw [hp]; rfl) rfl rfl
  | failed err hi hp => exact tallied_of_moves hi _ (by rw [hp]; rfl) rfl rfl
  | insert pick hi hp => exact tallied_of_moves hi _ (by rw [hp]; rfl) rfl rfl
  | cancel hi hp => exact tallied_of_moves hi _ (by rw [hp]; rfl) rfl rfl
  | manage req io disk => cases req <;> exact tallied_of_calls rfl
  | refresh io disk _ _ => exact tallied_of_calls rfl
  | tick elapsed => exact tallied_of_calls rfl

/-! ## Every run -/

/-- The counters, which stood at `start`, in terms of the calls. -/
structure Counted (start : Metrics) (s : ResolverState) : Prop where
  queries : increase (start.counter .query) (s.metrics.counter .query) = s.calls.length
  blocked : increase (start.counter .blocked) (s.metrics.counter .blocked) = s.blocked
  lookups : increase (start.counter .cacheHit) (s.metrics.counter .cacheHit) +
    increase (start.counter .cacheMiss) (s.metrics.counter .cacheMiss) +
    (s.questionless + s.lookingUp) = s.calls.length

/-- Nothing is counted more often than there are calls. -/
theorem Counted.le_calls {start : Metrics} (h : Counted start s) (c : ClientCounter) :
    increase (start.counter c) (s.metrics.counter c) ≤ s.calls.length := by
  obtain ⟨hqueries, hblocked, hlookups⟩ := h
  have hle : s.blocked ≤ s.calls.length := List.countP_le_length
  cases c <;> omega

/-- A step takes no counter beyond the number of calls. -/
theorem Counted.increase_step {start : Metrics} (h : Counted start s)
    (hs : s.step U text cfg e = some s') (hlt : s'.calls.length < 2 ^ 64) (c : ClientCounter) :
    increase (start.counter c) (s'.metrics.counter c) =
      increase (start.counter c) (s.metrics.counter c) + (s.notes U text cfg e).count c := by
  obtain ⟨hqueries, hblocked, hlookups⟩ := h
  obtain ⟨htq, htb, htl⟩ := step_tallied hs
  have hle : s'.blocked ≤ s'.calls.length := List.countP_le_length
  rw [(step_counts hs).1 c]
  apply increase_add
  cases c <;> omega

theorem Counted.step {start : Metrics} (h : Counted start s)
    (hs : s.step U text cfg e = some s') (hlt : s'.calls.length < 2 ^ 64) : Counted start s' := by
  have hinc := h.increase_step hs hlt
  obtain ⟨hqueries, hblocked, hlookups⟩ := h
  obtain ⟨htq, htb, htl⟩ := step_tallied hs
  constructor
  · rw [hinc, hqueries, htq]
  · rw [hinc, hblocked, htb]
  · rw [hinc, hinc]
    omega

theorem calls_length_le (hs : s.step U text cfg e = some s') :
    s.calls.length ≤ s'.calls.length := by
  rw [(step_tallied hs).queries]
  exact Nat.le_add_right _ _

/-- The clients' counters, summed, are the counters. -/
def ClientsAgree (start : Metrics) (s : ResolverState) : Prop :=
  ∃ reg, s.observability = some reg ∧
    ∀ c, increase (start.counter c) (s.metrics.counter c) = reg.clientTotal c

/-- The step drops no client. -/
def KeepsClients (s s' : ResolverState) : Prop :=
  ∀ reg reg', s.observability = some reg → s'.observability = some reg' → reg.Keeps reg'

/-- Whoever is counted has an address. -/
theorem noted_of_notes {c : ClientCounter} (hs : s.step U text cfg e = some s')
    (haddress : ∀ query clientIp, e = .arrive query clientIp → clientIp.isSome)
    (hcalls : ∀ c ∈ s.calls, c.clientIp.isSome) (hc : c ∈ s.notes U text cfg e) :
    (s.noted e).isSome := by
  cases step_cases hs with
  | arrive query clientIp => exact haddress query clientIp rfl
  | lookup hi hp =>
      rw [noted, hi]
      exact hcalls _ (List.mem_of_getElem? hi)
  | _ => cases hc

theorem ClientsAgree.step {start : Metrics} (h : ClientsAgree start s) (hcounted : Counted start s)
    (hs : s.step U text cfg e = some s') (hlt : s'.calls.length < 2 ^ 64)
    (haddress : ∀ query clientIp, e = .arrive query clientIp → clientIp.isSome)
    (hcalls : ∀ c ∈ s.calls, c.clientIp.isSome) (hkeeps : s.KeepsClients s') :
    ClientsAgree start s' := by
  obtain ⟨reg, hreg, hagree⟩ := h
  have hinc := hcounted.increase_step hs hlt
  have hobs := (step_counts hs).2
  rw [hreg] at hobs
  cases hnotes : s.notes U text cfg e with
  | nil =>
      rw [hnotes, countFor_nil] at hobs
      refine ⟨reg, hobs, ?_⟩
      intro c
      rw [hinc, hnotes, hagree]
      rfl
  | cons c₀ cs =>
      have hmem : c₀ ∈ s.notes U text cfg e := by
        rw [hnotes]
        exact List.mem_cons_self
      obtain ⟨ip, hip⟩ :=
        Option.isSome_iff_exists.mp (noted_of_notes hs haddress hcalls hmem)
      rw [hip] at hobs
      have hnew : s'.observability = some (reg.countAll ip (s.notes U text cfg e)) := hobs
      refine ⟨_, hnew, ?_⟩
      intro c
      have hle := (hcounted.step hs hlt).le_calls c
      rw [hinc, hagree] at hle
      rw [hinc, hagree,
        ObservabilityRegistry.clientTotal_countAll (hkeeps reg _ hreg hnew) c (by omega)]

/-- Where every query comes with an address, every call has one. -/
theorem addresses_step (hcalls : ∀ c ∈ s.calls, c.clientIp.isSome)
    (hs : s.step U text cfg e = some s')
    (haddress : ∀ query clientIp, e = .arrive query clientIp → clientIp.isSome) :
    ∀ c ∈ s'.calls, c.clientIp.isSome := by
  intro c' hc'
  obtain ⟨j, hj⟩ := List.getElem?_of_mem hc'
  rcases step_calls hs hj with hold | ⟨query, clientIp, rfl, rfl⟩ | ⟨c, phase, hc, _, rfl⟩
  · exact hcalls c' (List.mem_of_getElem? hold)
  · have hip := haddress query clientIp rfl
    unfold newCall
    cases query.queries.head? <;> exact hip
  · exact hcalls c (List.mem_of_getElem? hc)

/-- At an await point no call is being looked up. -/
theorem lookingUp_of_atAwait (h : s.AtAwait) : s.lookingUp = 0 := by
  apply List.countP_eq_zero.mpr
  intro c hc hlook
  have hawait := h c hc
  cases hp : c.phase with
  | lookup =>
      rw [hp] at hawait
      cases hawait
  | _ =>
      rw [hp] at hlook
      cases hlook

variable (cfg) in
theorem counted_init (now : Nat) (start : Metrics) (blocklist : ReloadableBlocklist)
    (observability : Option ObservabilityRegistry) :
    Counted start (init cfg now start blocklist observability) := by
  have hsame : ∀ c, (init cfg now start blocklist observability).metrics.counter c =
      start.counter c := by
    intro c
    cases c <;> rfl
  constructor <;> simp only [hsame, increase_self] <;> rfl

end

end ResolverState

/-- **The query counters add up.** For every run of concurrent calls, with
any queries, cache and blocklist states, upstream outcomes and
cancellations, and every state in which fewer than 2^64 queries have
arrived: at an await point the queries counted are the hits, the misses and
the queries without a question; the blocked queries counted are those whose
name was decided to be blocked; and, with a registry, an address on every
query and no client dropped, the clients' counters sum up to the same
increases. -/
theorem query_counters_add_up (U : UnicodeCase) (text : LabelText) (cfg : ResolveConfig)
    (now : Nat) (start : Metrics) (blocklist : ReloadableBlocklist)
    (observability : Option ObservabilityRegistry) (es : List ResolverEvent) (s : ResolverState)
    (h : Passes (ResolverState.step U text cfg)
      (.init cfg now start blocklist observability) es s)
    (hlt : s.calls.length < 2 ^ 64) :
    increase start.totalQueries s.metrics.totalQueries = s.calls.length ∧
    (s.AtAwait → increase start.totalQueries s.metrics.totalQueries =
      increase start.cacheHits s.metrics.cacheHits +
        increase start.cacheMisses s.metrics.cacheMisses + s.questionless) ∧
    increase start.blockedQueries s.metrics.blockedQueries = s.blocked ∧
    ∀ names cap, observability = some (.withUpstreamsAndCapacity names cap) →
      (∀ query clientIp, .arrive query clientIp ∈ es → clientIp.isSome) →
      (∀ s e s', Takes (ResolverState.step U text cfg)
        (.init cfg now start blocklist observability) es s e s' → s.KeepsClients s') →
      ∃ reg, s.observability = some reg ∧
        increase start.totalQueries s.metrics.totalQueries = reg.clientTotal .query ∧
        increase start.blockedQueries s.metrics.blockedQueries = reg.clientTotal .blocked ∧
        increase start.cacheHits s.metrics.cacheHits = reg.clientTotal .cacheHit ∧
        increase start.cacheMisses s.metrics.cacheMisses = reg.clientTotal .cacheMiss := by
  have hinit := ResolverState.counted_init cfg now start blocklist observability
  have hcounted : s.Counted start := by
    refine h.invariant_of_step (I := fun s => s.calls.length < 2 ^ 64 → s.Counted start)
      (fun _ => hinit) ?_ hlt
    intro s e s' hi hs hlt
    have hle := ResolverState.calls_length_le hs
    exact (hi (by omega)).step hs hlt
  refine ⟨hcounted.queries, ?_, hcounted.blocked, ?_⟩
  · intro hawait
    have hlookups := hcounted.lookups
    rw [ResolverState.lookingUp_of_atAwait hawait, ← hcounted.queries] at hlookups
    exact hlookups.symm
  · intro names cap hobs haddress hkeeps
    -- the invariant also says that every call has an address
    have hinv : (∀ c ∈ s.calls, c.clientIp.isSome) ∧ (s.calls.length < 2 ^ 64 →
        s.Counted start ∧ s.ClientsAgree start) := by
      refine h.invariant (I := fun s => (∀ c ∈ s.calls, c.clientIp.isSome) ∧
        (s.calls.length < 2 ^ 64 → s.Counted start ∧ s.ClientsAgree start)) ⟨?_, ?_⟩ ?_
      · intro c hc
        cases hc
      · intro _
        refine ⟨hinit, _, hobs, ?_⟩
        intro c
        cases c <;> exact increase_self _
      · intro s e s' ht hi
        have haddr : ∀ query clientIp, e = .arrive query clientIp → clientIp.isSome := by
          intro query clientIp he
          exact haddress query clientIp (he ▸ ht.mem)
        refine ⟨ResolverState.addresses_step hi.1 ht.step_eq haddr, ?_⟩
        intro hlt
        have hle := ResolverState.calls_length_le ht.step_eq
        obtain ⟨hc, ha⟩ := hi.2 (by omega)
        exact ⟨hc.step ht.step_eq hlt,
          ha.step hc ht.step_eq hlt haddr hi.1 (hkeeps s e s' ht)⟩
    obtain ⟨reg, hreg, hagree⟩ := (hinv.2 hlt).2
    exact ⟨reg, hreg, hagree .query, hagree .blocked, hagree .cacheHit, hagree .cacheMiss⟩

/-- A step that keeps the stored addresses, as a test. -/
def keepsTest (U : UnicodeCase) (text : LabelText) (cfg : ResolveConfig) (s : ResolverState)
    (e : ResolverEvent) : Bool :=
  match s.observability, (s.step U text cfg e).bind ResolverState.observability with
  | some reg, some reg' => reg.clients.keys.all fun ip => reg'.tracks ip
  | _, _ => true

/-- A blocked query, one without a question, and one whose caller is
dropped while it waits for the upstream, from two clients. -/
theorem query_counters_add_up_two_clients :
    let obs : ObservabilityRegistry := .withUpstreamsAndCapacity [] 2
    let es : List ResolverEvent :=
      [reloadFrom sampleDisk, .arrive (adsQuery 1) (some (.v4 1)), .lookup 0, .store 0 0,
       .arrive {} (some (.v4 2)), .arrive { queries := [⟨⟨[], true⟩, .A, .IN⟩] } (some (.v4 2)),
       .lookup 2, .cancel 2]
    ∃ s reg, Passes (ResolverState.step .ascii sampleText adsConfig)
        (.init adsConfig 0 {} (.fromConfig adsConfig.blocklist) (some obs)) es s ∧ s.AtAwait ∧
      s.blocked = 1 ∧ s.questionless = 1 ∧ s.observability = some reg ∧
      increase 0 s.metrics.totalQueries = reg.clientTotal .query ∧
      increase 0 s.metrics.totalQueries =
        increase 0 s.metrics.cacheHits + increase 0 s.metrics.cacheMisses + s.questionless := by
  intro obs es
  have hlast : (run (ResolverState.step .ascii sampleText adsConfig)
      (.init adsConfig 0 {} (.fromConfig adsConfig.blocklist) (some obs)) es).map (fun s =>
        (s.calls.length, s.calls.all fun c => c.phase.atAwait, s.blocked, s.questionless)) =
      some (3, true, 1, 1) := by
    decide +kernel
  have halong : along (ResolverState.step .ascii sampleText adsConfig)
      (keepsTest .ascii sampleText adsConfig)
      (.init adsConfig 0 {} (.fromConfig adsConfig.blocklist) (some obs)) es = true := by
    decide +kernel
  obtain ⟨s, hrun, hs⟩ := Option.map_eq_some_iff.mp hlast
  simp only [Prod.mk.injEq] at hs
  obtain ⟨hlen, hawait, hblocked, hless⟩ := hs
  have hpass := Passes.finish hrun
  obtain ⟨_, htotal, _, hclients⟩ := query_counters_add_up .ascii sampleText adsConfig 0 {} _ _ es s
    hpass (by omega)
  have hat : s.AtAwait := fun c hc => List.all_eq_true.mp hawait c hc
  obtain ⟨reg, hreg, hquery, _⟩ := hclients [] 2 rfl
    (by
      intro query clientIp harr
      simp [es, reloadFrom] at harr
      rcases harr with ⟨_, rfl⟩ | ⟨_, rfl⟩ | ⟨_, rfl⟩ <;> rfl)
    (by
      intro s e s' ht reg reg' hreg hreg'
      have htest := test_of_along halong ht
      rw [keepsTest, hreg, ht.step_eq, Option.bind_some, hreg'] at htest
      exact ObservabilityRegistry.keeps_of_keys htest)
  exact ⟨s, reg, hpass, hat, hblocked, hless, hreg, hquery, htotal hat⟩

/-! ## A counter runs over -/

/-- `n` queries without a question. -/
theorem run_questionless (n : Nat) :
    ∃ s, run (ResolverState.step .ascii sampleText adsConfig) adsStart
        (List.replicate n (.arrive {} none)) = some s ∧
      s.calls = List.replicate n
        ⟨{}, none, none, .done (makeErrorResponse {} .formErr) none⟩ := by
  induction n with
  | zero => exact ⟨_, rfl, rfl⟩
  | succ n ih =>
      obtain ⟨s, hrun, hcalls⟩ := ih
      refine ⟨s.arrive .ascii sampleText {} none, ?_, ?_⟩
      · rw [List.replicate_succ', run_concat hrun]
        rfl
      · rw [ResolverState.calls_arrive, hcalls, List.replicate_succ']
        rfl

/-- After 2^64 queries without a question the counter has not gained 2^64. -/
theorem query_counter_runs_over :
    ∃ s, Passes (ResolverState.step .ascii sampleText adsConfig) adsStart
        (List.replicate (2 ^ 64) (.arrive {} none)) s ∧
      s.AtAwait ∧ s.questionless = 2 ^ 64 ∧
      increase 0 s.metrics.totalQueries ≠
        increase 0 s.metrics.cacheHits + increase 0 s.metrics.cacheMisses + s.questionless := by
  obtain ⟨s, hrun, hcalls⟩ := run_questionless (2 ^ 64)
  have hless : s.questionless = 2 ^ 64 := by
    rw [ResolverState.questionless, hcalls, List.countP_replicate]
    rfl
  refine ⟨s, .finish hrun, ?_, hless, ?_⟩
  · intro c hc
    rw [hcalls] at hc
    rw [List.eq_of_mem_replicate hc]
    rfl
  · have htotal : increase 0 s.metrics.totalQueries < 2 ^ 64 := UInt64.toNat_lt _
    omega

end Dotdns
