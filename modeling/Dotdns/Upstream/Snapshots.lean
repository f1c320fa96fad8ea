import Dotdns.Observability.Snapshots
import Dotdns.Upstream.Accounting

/-!
# Upstream — what the snapshots show

The management protocol lists, for each upstream, how often it has answered,
failed and timed out, the latency of its last answer and the average. The
headline compares the list with the attempts that the calls of the pool have
made. Upstreams of one name are one line of it. A snapshot is taken between
two steps, never in the middle of one.
-/

namespace Dotdns

open Lib

/-! ## The attempts -/

/-- The upstream that a step has tried, and what came of it. -/
def PoolState.tries (s : PoolState) : PoolEvent → Option (Nat × Attempt)
  | .attempt i a =>
      match s.calls[i]? with
      | some (.trying idx _) => some (idx, a)
      | _ => none
  | .call _ | .cancel _ => none

/-- The attempts on upstreams called `name`. -/
def attemptsUnder (names : List Str) (name : Str) (made : List (Nat × Attempt)) : List Attempt :=
  (made.filter fun t => names.getD t.1 [] == name).map Prod.snd

/-- How long an answer took. -/
def Attempt.latency? (a : Attempt) : Option UInt64 :=
  match a.result with
  | .ok _ => some a.elapsedMs
  | .error _ => none

/-- The attempt is entered as a timeout. -/
def Attempt.timedOut (a : Attempt) : Bool :=
  match a.result with
  | .ok _ => false
  | .error e => e = .timeout

/-- The attempt is entered as a failure. -/
def Attempt.failed (a : Attempt) : Bool :=
  match a.result with
  | .ok _ => false
  | .error e => e ≠ .timeout

/-- The latencies of the attempts that were answered. -/
def latencies (made : List Attempt) : List UInt64 := made.filterMap Attempt.latency?

/-- The line of an upstream says this of the attempts on it. -/
structure UpstreamSnapshot.Shows (line : UpstreamSnapshot) (made : List Attempt) : Prop where
  successes : line.successCount.toNat = (latencies made).length % 2 ^ 64
  failures : line.failureCount.toNat = made.countP Attempt.failed % 2 ^ 64
  timeouts : line.timeoutCount.toNat = made.countP Attempt.timedOut % 2 ^ 64
  /-- The largest number stands for no latency. -/
  last : line.lastSuccessLatencyMs =
    (latencies made).getLast?.filter (· ≠ 0xFFFFFFFFFFFFFFFF)
  average : (latencies made).length < 2 ^ 64 →
    ((latencies made).map UInt64.toNat).sum < 2 ^ 64 →
    line.avgSuccessLatencyMs.map UInt64.toNat =
      if latencies made = [] then none
      else some (((latencies made).map UInt64.toNat).sum / (latencies made).length)

/-! ## The counters of one upstream -/

/-- The counters after the attempts `made`. -/
def UpstreamStats.after (made : List Attempt) : UpstreamStats :=
  made.foldl (fun stats a => a.entry.inStats stats) {}

namespace UpstreamStats

theorem after_concat (made : List Attempt) (a : Attempt) :
    after (made ++ [a]) = a.entry.inStats (after made) := by
  rw [after, List.foldl_append]
  rfl

theorem latencies_concat (made : List Attempt) (a : Attempt) :
    latencies (made ++ [a]) = latencies made ++ a.latency?.toList := by
  rw [latencies, List.filterMap_append]
  cases h : a.latency? <;> simp [latencies, h]

/-- What the counters hold. -/
structure Holds (stats : UpstreamStats) (made : List Attempt) : Prop where
  successes : stats.successCount.toNat = (latencies made).length % 2 ^ 64
  failures : stats.failureCount.toNat = made.countP Attempt.failed % 2 ^ 64
  timeouts : stats.timeoutCount.toNat = made.countP Attempt.timedOut % 2 ^ 64
  total : stats.totalSuccessLatencyMs.toNat = ((latencies made).map UInt64.toNat).sum % 2 ^ 64
  last : stats.lastSuccessLatencyMs = (latencies made).getLast?.getD 0xFFFFFFFFFFFFFFFF

theorem Holds.concat {stats : UpstreamStats} {made : List Attempt} (h : stats.Holds made)
    (a : Attempt) : (a.entry.inStats stats).Holds (made ++ [a]) := by
  obtain ⟨hs, hf, ht, htotal, hlast⟩ := h
  have hlat := latencies_concat made a
  cases hr : a.result with
  | ok reply =>
      have hentry : a.entry = .success a.elapsedMs := by rw [Attempt.entry, hr]
      have hnew : a.latency? = some a.elapsedMs := by rw [Attempt.latency?, hr]
      have hfailed : a.failed = false := by rw [Attempt.failed, hr]
      have htimed : a.timedOut = false := by rw [Attempt.timedOut, hr]
      rw [hnew] at hlat
      rw [hentry]
      constructor
      · rw [hlat]
        simp [Entry.inStats, recordSuccess, UInt64.toNat_add, hs]
      · simp [Entry.inStats, recordSuccess, List.countP_append, hfailed, hf]
      · simp [Entry.inStats, recordSuccess, List.countP_append, htimed, ht]
      · rw [hlat]
        simp [Entry.inStats, recordSuccess, UInt64.toNat_add, htotal]
      · rw [hlat]
        simp [Entry.inStats, recordSuccess]
  | error e =>
      have hnew : a.latency? = none := by rw [Attempt.latency?, hr]
      rw [hnew, Option.toList_none, List.append_nil] at hlat
      by_cases he : e = .timeout
      · have hentry : a.entry = .timeout := by rw [Attempt.entry, hr]; exact if_pos he
        have hfailed : a.failed = false := by rw [Attempt.failed, hr]; simp [he]
        have htimed : a.timedOut = true := by rw [Attempt.timedOut, hr]; simp [he]
        rw [hentry]
        refine ⟨by rw [hlat]; exact hs, ?_, ?_, by rw [hlat]; exact htotal,
          by rw [hlat]; exact hlast⟩
        · simp [Entry.inStats, recordTimeout, List.countP_append, hfailed, hf]
        · simp [Entry.inStats, recordTimeout, List.countP_append, htimed, UInt64.toNat_add, ht]
      · have hentry : a.entry = .failure := by rw [Attempt.entry, hr]; exact if_neg he
        have hfailed : a.failed = true := by rw [Attempt.failed, hr]; simp [he]
        have htimed : a.timedOut = false := by rw [Attempt.timedOut, hr]; simp [he]
        rw [hentry]
        refine ⟨by rw [hlat]; exact hs, ?_, ?_, by rw [hlat]; exact htotal,
          by rw [hlat]; exact hlast⟩
        · simp [Entry.inStats, recordFailure, List.countP_append, hfailed, UInt64.toNat_add, hf]
        · simp [Entry.inStats, recordFailure, List.countP_append, htimed, ht]

theorem holds_after (made : List Attempt) : (after made).Holds made := by
  induction made using List.reverseRecOn with
  | nil => exact ⟨rfl, rfl, rfl, rfl, rfl⟩
  | append_singleton made a ih =>
      rw [after_concat]
      exact ih.concat a

end UpstreamStats

/-- A line of the list, made from such counters. -/
theorem UpstreamStats.Holds.shows {stats : UpstreamStats} {made : List Attempt}
    (h : stats.Holds made) (name : Str) : (stats.snapshot name).Shows made where
  successes := h.successes
  failures := h.failures
  timeouts := h.timeouts
  last := by
    rw [UpstreamStats.snapshot, h.last]
    cases hlast : (latencies made).getLast? with
    | none => rfl
    | some ms => by_cases hms : ms = 0xFFFFFFFFFFFFFFFF <;> simp [Option.filter, hms]
  average := by
    intro hcount hsum
    have hsuccesses := h.successes
    have htotal := h.total
    rw [Nat.mod_eq_of_lt hcount] at hsuccesses
    rw [Nat.mod_eq_of_lt hsum] at htotal
    unfold UpstreamStats.snapshot
    by_cases hnone : latencies made = []
    · rw [hnone] at hsuccesses
      have hzero : ¬ stats.successCount > 0 := by
        rw [gt_iff_lt, UInt64.lt_iff_toNat_lt, hsuccesses]
        simp
      simp [hnone, hzero]
    · have hpos : stats.successCount > 0 := by
        rw [gt_iff_lt, UInt64.lt_iff_toNat_lt, hsuccesses]
        exact List.length_pos_iff.mpr hnone
      simp [hnone, hpos, hsuccesses, htotal]

/-! ## Every run -/

namespace PoolState

/-- The registry holds what the attempts were entered as. -/
def Enters (names : List Str) (made : List (Nat × Attempt)) (s : PoolState) : Prop :=
  s.pool.names = names ∧ ∃ reg, s.pool.observability = some reg ∧
    ∀ name stats, reg.upstreams.get? name = some stats →
      stats = .after (attemptsUnder names name made)

theorem attemptsUnder_concat (names : List Str) (name : Str) (made : List (Nat × Attempt))
    (idx : Nat) (a : Attempt) : attemptsUnder names name (made ++ [(idx, a)]) =
      attemptsUnder names name made ++ if names.getD idx [] = name then [a] else [] := by
  simp only [attemptsUnder, List.filter_append, List.map_append, List.filter_cons,
    List.filter_nil, beq_iff_eq]
  split <;> rfl

section
variable {names : List Str} {policy : UpstreamSelectionPolicy} {m : Metrics} {s s' : PoolState}
  {e : PoolEvent} {es : List PoolEvent} {made : List (Nat × Attempt)}

theorem Enters.attempt (h : Enters names made s) (idx : Nat) (a : Attempt)
    (calls : List PoolCall) (n : Nat) :
    Enters names (made ++ [(idx, a)]) ⟨s.pool.noteAttempt idx a, calls, n⟩ := by
  obtain ⟨hnames, reg, hobs, hstats⟩ := h
  refine ⟨(UpstreamPool.names_noteAttempt ..).trans hnames, _,
    (UpstreamPool.observability_noteAttempt ..).trans (by rw [hobs]; rfl), ?_⟩
  intro name stats hget
  rw [attemptsUnder_concat]
  rw [hnames] at hget
  dsimp only [ObservabilityRegistry.withUpstream] at hget
  split at hget
  · rename_i old hold
    rw [AssocMap.get?_insert] at hget
    by_cases hname : names.getD idx [] = name
    · rw [if_pos (beq_iff_eq.mpr hname)] at hget
      rw [if_pos hname, UpstreamStats.after_concat, ← Option.some.inj hget,
        hstats _ old hold, hname]
    · rw [if_neg (fun h => hname (beq_iff_eq.mp h))] at hget
      rw [if_neg hname, List.append_nil]
      exact hstats name stats hget
  · rename_i hunknown
    have hname : names.getD idx [] ≠ name := by
      rintro rfl
      rw [hunknown] at hget
      cases hget
    rw [if_neg hname, List.append_nil]
    exact hstats name stats hget

theorem Enters.step (h : Enters names made s) (hs : s.step e = some s') :
    Enters names (made ++ (s.tries e).toList) s' := by
  cases e with
  | call nowMs =>
      rw [tries, Option.toList_none, List.append_nil]
      simp only [PoolState.step] at hs
      split at hs
      · cases hs
        exact h
      · cases hs
        unfold Enters UpstreamPool.takeStart at *
        cases s.pool.policy <;> exact h
  | attempt i a =>
      simp only [PoolState.step] at hs
      split at hs
      · rename_i idx order hi
        cases hs
        rw [tries, hi]
        exact h.attempt idx a _ _
      · cases hs
  | cancel i =>
      rw [tries, Option.toList_none, List.append_nil]
      simp only [PoolState.step] at hs
      split at hs
      · cases hs
        exact h
      · cases hs

theorem enters_of_run (hrun : run PoolState.step (.init names policy m) es = some s) :
    Enters names (trace PoolState.step tries (.init names policy m) es) s := by
  refine run_induction (I := fun es s =>
    Enters names (trace PoolState.step tries (.init names policy m) es) s) ?_ ?_ hrun
  · refine ⟨rfl, _, rfl, fun name stats hget => ?_⟩
    exact (ObservabilityRegistry.foldl_insert_names names .empty
      (by intro name stats h; cases h)).1 name stats hget
  · intro es s e s' hrun h hs
    rw [trace_concat hrun]
    exact h.step hs

end

end PoolState

/-- **The list of upstreams tells what they did.** In every run of any number
of queries at once, the list has one line for each name of an upstream, and
a line counts the answers, the failures and the timeouts of the attempts on
the upstreams of its name, modulo 2^64; its last latency is that of the
last answer, and its average is the mean of all, rounded down, as long as
their number and their sum fit in 64 bits. A snapshot is one step here, and
so is the bookkeeping after an attempt; the source reads and writes its
atomics one by one. -/
theorem snapshots_show_attempts (names : List Str) (policy : UpstreamSelectionPolicy)
    (m : Metrics) (es : List PoolEvent) (s : PoolState)
    (hrun : run PoolState.step (.init names policy m) es = some s) :
    let made := trace PoolState.step PoolState.tries (.init names policy m) es
    ∃ reg, s.pool.observability = some reg ∧
      (reg.upstreamSnapshot.map UpstreamSnapshot.name).Nodup ∧
      (∀ name ∈ names, name ∈ reg.upstreamSnapshot.map UpstreamSnapshot.name) ∧
      ∀ line ∈ reg.upstreamSnapshot, line.Shows (attemptsUnder names line.name made) := by
  intro made
  obtain ⟨_, reg, hobs, hstats⟩ := PoolState.enters_of_run hrun
  obtain ⟨_, reg', _, hobs', hknows, _⟩ := (PoolState.inv_of_passes (Passes.finish hrun)).books
  rw [hobs] at hobs'
  cases hobs'
  have hlines : reg.upstreamSnapshot.map UpstreamSnapshot.name =
      reg.upstreams.entries.map Prod.fst := by
    rw [ObservabilityRegistry.upstreamSnapshot, List.map_map]
    rfl
  refine ⟨reg, hobs, ?_, ?_, ?_⟩
  · rw [hlines, List.nodup_iff_pairwise_ne, List.pairwise_map]
    exact reg.upstreams.distinct.imp fun hne => by simpa using hne
  · intro name hname
    obtain ⟨stats, hget⟩ := Option.isSome_iff_exists.mp (hknows name hname)
    obtain ⟨k, hmem, hk⟩ := AssocMap.exists_mem_of_get? hget
    rw [hlines]
    exact List.mem_map.mpr ⟨_, hmem, beq_iff_eq.mp hk⟩
  · intro line hline
    obtain ⟨entry, hmem, rfl⟩ := List.mem_map.mp hline
    have hheld := hstats entry.1 entry.2 (AssocMap.get?_of_mem hmem)
    have hholds := UpstreamStats.holds_after (attemptsUnder names entry.1 made)
    rw [← hheld] at hholds
    exact hholds.shows entry.1

/-- The first upstream times out and then answers; the second answers in the
meantime. -/
def slowRun : List PoolEvent :=
  [.call 0, .call 0, .attempt 0 { result := .error .timeout },
   .attempt 1 { result := .ok {}, elapsedMs := 30 },
   .attempt 0 { result := .ok {}, elapsedMs := 7 }, .call 0,
   .attempt 2 { result := .ok {}, elapsedMs := 11 }]

theorem snapshots_show_attempts_slow :
    ∃ s reg, run PoolState.step (.init ["a".toList, "b".toList] .sequential {}) slowRun = some s ∧
      s.pool.observability = some reg ∧
      ⟨"a".toList, 2, 0, 1, some 11, some 20⟩ ∈ reg.upstreamSnapshot ∧
      UpstreamSnapshot.Shows ⟨"a".toList, 2, 0, 1, some 11, some 20⟩
        [{ result := .error .timeout }, { result := .ok {}, elapsedMs := 30 },
         { result := .ok {}, elapsedMs := 11 }] := by
  have hlast : ∃ s, run PoolState.step (.init ["a".toList, "b".toList] .sequential {}) slowRun =
      some s ∧ s.pool.observability.map ObservabilityRegistry.upstreamSnapshot =
        some [⟨"a".toList, 2, 0, 1, some 11, some 20⟩, ⟨"b".toList, 1, 0, 0, some 7, some 7⟩] :=
    Option.map_eq_some_iff.mp (by decide +kernel)
  obtain ⟨s, hs, hlines⟩ := hlast
  obtain ⟨reg, hobs, _, _, hshows⟩ :=
    snapshots_show_attempts ["a".toList, "b".toList] .sequential {} slowRun s hs
  rw [hobs, Option.map_some] at hlines
  have hmem : ⟨"a".toList, 2, 0, 1, some 11, some 20⟩ ∈ reg.upstreamSnapshot := by
    rw [Option.some.inj hlines]
    exact List.mem_cons_self
  exact ⟨s, reg, hs, hobs, hmem, hshows _ hmem⟩

end Dotdns
