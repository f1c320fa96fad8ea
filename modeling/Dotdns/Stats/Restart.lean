import Dotdns.Stats

/-!
# Stats — from one process to the next

A process may end at any step, in an orderly way or not; the next one
starts from what `load_stats` finds. The headline says what the counters
can lose and what they cannot: they never fall behind what an earlier
process started with, and nothing is restored that was not counted.
-/

namespace Dotdns

open Lib

theorem forall₂_trans {α : Type*} {R : α → α → Prop} (hR : ∀ a b c, R a b → R b c → R a c)
    {l₁ l₂ l₃ : List α} (h₁ : List.Forall₂ R l₁ l₂) (h₂ : List.Forall₂ R l₂ l₃) :
    List.Forall₂ R l₁ l₃ := by
  induction h₁ generalizing l₃ with
  | nil => exact h₂
  | cons hab _ ih =>
      cases h₂ with
      | cons hbc hrest => exact .cons (hR _ _ _ hab hbc) (ih hrest)

theorem PersistedMetrics.Le.trans {p q r : PersistedMetrics} (h₁ : p.Le q) (h₂ : q.Le r) :
    p.Le r :=
  forall₂_trans (R := (· ≤ ·)) (fun _ _ _ => UInt64.le_trans) h₁ h₂

/-- `run_serve` up to the savers: `MetricsRecorder::from_persisted` of what
is loaded, or a new one. -/
def StatsState.boot (fromJson : Bytes → Option PersistedMetrics) (path : Path) (readable : Bool)
    (files : Files) : StatsState :=
  match loadStats fromJson readable files path with
  | (some persisted, files) => .start (.fromPersisted persisted) files
  | (none, files) => .start {} files

/-- One process after another on the same files. -/
structure StatsHistory where
  life : StatsState
  /-- Ghost: what the counters were at each start. -/
  starts : List PersistedMetrics

/-- A step of the process, or its end. -/
inductive StatsHistoryEvent where
  | life (e : StatsEvent)
  /-- The process ends wherever it is, and the next one starts; `readable`
  says whether it can read the file. -/
  | restart (readable : Bool)

namespace StatsHistory

section
variable (toJson : PersistedMetrics → Bytes) (fromJson : Bytes → Option PersistedMetrics)
variable (path : Path)

/-- The first process has started. -/
def init (files : Files) : StatsHistory :=
  let life := StatsState.boot fromJson path true files
  ⟨life, [life.metrics.toPersisted]⟩

/-- One step; a restart reads the file. -/
def step (s : StatsHistory) : StatsHistoryEvent → Option StatsHistory
  | .life e => (s.life.step toJson path e).map fun life => { s with life }
  | .restart readable =>
      let life := StatsState.boot fromJson path readable s.life.files
      some ⟨life, s.starts ++ [life.metrics.toPersisted]⟩

/-- The savers keep out of each other's way, and a start can read the file. -/
def orderly (s : StatsHistory) : StatsHistoryEvent → Bool
  | .life e => writesAlone s.life e
  | .restart readable => readable

end

end StatsHistory

/-! ## One process -/

/-- The file at a start, and what the counters were then. -/
def StartsFrom (fromJson : Bytes → Option PersistedMetrics) (begun : PersistedMetrics) :
    Option Bytes → Prop
  | none => begun = {}
  | some content => fromJson content = some begun

/-- A process whose counters were `begun` at its start. -/
structure Lifetime (toJson : PersistedMetrics → Bytes)
    (fromJson : Bytes → Option PersistedMetrics) (path : Path) (begun : PersistedMetrics)
    (file : Option Bytes) (s : StatsState) : Prop where
  files : StatsInv toJson path file s
  counted : begun.Le s.metrics.toPersisted
  snapshots : ∀ p ∈ s.snapshots, begun.Le p ∧ p.Le s.metrics.toPersisted
  readable : ∀ p ∈ s.snapshots, fromJson (toJson p) = some p

section
variable {toJson : PersistedMetrics → Bytes} {fromJson : Bytes → Option PersistedMetrics}
variable {path : Path} {file : Option Bytes} {begun : PersistedMetrics}
variable {s s' : StatsState} {e : StatsEvent}

theorem statsInv_start (metrics : Metrics) (files : Files) :
    StatsInv toJson path (files path) (.start metrics files) where
  known w p hp := by
    cases w <;> cases hp
  temp w p hp := by
    cases w <;> cases hp
  apart p q hp := by cases hp
  late p q hp := by cases hp
  saved := .inl rfl
  final p hp := by cases hp

theorem Lifetime.start (metrics : Metrics) (files : Files) :
    Lifetime toJson fromJson path metrics.toPersisted (files path) (.start metrics files) where
  files := statsInv_start metrics files
  counted := .refl _
  snapshots p hp := by cases hp
  readable p hp := by cases hp

/-- The counters move on, or are taken as a snapshot, or are left alone. -/
theorem step_counters (hs : s.step toJson path e = some s') :
    s.metrics.toPersisted.Le s'.metrics.toPersisted ∧
      ∀ p ∈ s'.snapshots, p ∈ s.snapshots ∨
        p = s.metrics.toPersisted ∧ ∃ w, e = .snapshot w := by
  have hphase : ∀ w ph, (s.setPhase w ph).metrics = s.metrics := by
    intro w ph
    cases w <;> rfl
  -- only `count` moves the counters and only `snapshot` reads them
  have hsame : ∀ {t : StatsState}, t.metrics = s.metrics → t.snapshots = s.snapshots →
      s.metrics.toPersisted.Le t.metrics.toPersisted ∧
        ∀ p ∈ t.snapshots, p ∈ s.snapshots ∨
          p = s.metrics.toPersisted ∧ ∃ w, e = .snapshot w := by
    intro t hm hsnap
    rw [hm, hsnap]
    exact ⟨.refl _, fun p hp => .inl hp⟩
  cases e with
  | count metrics =>
      simp only [StatsState.step] at hs
      split at hs
      · rename_i hle
        cases hs
        exact ⟨hle, fun p hp => .inl hp⟩
      · cases hs
  | snapshot w =>
      simp only [StatsState.step] at hs
      split at hs
      · cases hs
        dsimp only
        rw [hphase]
        refine ⟨.refl _, fun p hp => ?_⟩
        rcases List.mem_append.mp hp with hp | hp
        · exact .inl hp
        · exact .inr ⟨List.mem_singleton.mp hp, w, rfl⟩
      · cases hs
  | dirFailed w =>
      simp only [StatsState.step] at hs
      split at hs
      · cases hs
        exact hsame (hphase w _) (StatsState.snapshots_setPhase s w _)
      · cases hs
  | write w =>
      simp only [StatsState.step] at hs
      split at hs
      · cases hs
        exact hsame (hphase w _) (StatsState.snapshots_setPhase s w _)
      · cases hs
  | writeFailed w left =>
      simp only [StatsState.step] at hs
      split at hs
      · cases hs
        exact hsame (hphase w _) (StatsState.snapshots_setPhase s w _)
      · cases hs
  | rename w =>
      simp only [StatsState.step] at hs
      split at hs
      · split at hs
        · cases hs
          exact hsame (hphase w _) (StatsState.snapshots_setPhase s w _)
        · cases hs
          exact hsame (hphase w _) (StatsState.snapshots_setPhase s w _)
      · cases hs
  | renameFailed w =>
      simp only [StatsState.step] at hs
      split at hs
      · cases hs
        exact hsame (hphase w _) (StatsState.snapshots_setPhase s w _)
      · cases hs

theorem Lifetime.step (h : Lifetime toJson fromJson path begun file s)
    (htmp : tempPath path ≠ path) (halone : writesAlone s e = true)
    (hround : ∀ w, e = .snapshot w →
      fromJson (toJson s.metrics.toPersisted) = some s.metrics.toPersisted)
    (hs : s.step toJson path e = some s') : Lifetime toJson fromJson path begun file s' := by
  obtain ⟨hle, hsnap⟩ := step_counters hs
  refine ⟨h.files.step htmp halone hs, h.counted.trans hle, ?_, ?_⟩
  · intro p hp
    rcases hsnap p hp with hp | ⟨rfl, _⟩
    · exact ⟨(h.snapshots p hp).1, (h.snapshots p hp).2.trans hle⟩
    · exact ⟨h.counted, hle⟩
  · intro p hp
    rcases hsnap p hp with hp | ⟨rfl, w, he⟩
    · exact h.readable p hp
    · exact hround w he

/-! ## The next start -/

section
variable {files : Files}

theorem boot_missing (hfile : files path = none) (readable : Bool) :
    StatsState.boot fromJson path readable files = .start {} files := by
  simp only [StatsState.boot, loadStats, hfile]

theorem boot_read {content : Bytes} {p : PersistedMetrics} (hfile : files path = some content)
    (hjson : fromJson content = some p) :
    StatsState.boot fromJson path true files = .start (.fromPersisted p) files := by
  simp only [StatsState.boot, loadStats, hfile, hjson, Bool.not_true, Bool.false_eq_true,
    if_false]

/-- A file that is not understood is removed. -/
theorem boot_corrupt {content : Bytes} (hfile : files path = some content)
    (hjson : fromJson content = none) :
    StatsState.boot fromJson path true files =
      .start {} (Function.update files path none) := by
  simp only [StatsState.boot, loadStats, hfile, hjson, Bool.not_true, Bool.false_eq_true,
    if_false]

end

theorem startsFrom_boot (files : Files) :
    StartsFrom fromJson (StatsState.boot fromJson path true files).metrics.toPersisted
      ((StatsState.boot fromJson path true files).files path) := by
  cases hfile : files path with
  | none =>
      rw [boot_missing hfile]
      show StartsFrom fromJson _ (files path)
      rw [hfile]
      rfl
  | some content =>
      cases hjson : fromJson content with
      | none =>
          rw [boot_corrupt hfile hjson]
          show StartsFrom fromJson _ (Function.update files path none path)
          rw [Function.update_self]
          rfl
      | some p =>
          rw [boot_read hfile hjson]
          show StartsFrom fromJson p (files path)
          rw [hfile]
          exact hjson

/-- What a file says is what a start makes of it. -/
theorem boot_eq {files : Files} (h : StartsFrom fromJson begun (files path)) :
    (StatsState.boot fromJson path true files).metrics.toPersisted = begun := by
  cases hfile : files path with
  | none =>
      rw [hfile] at h
      rw [boot_missing hfile]
      exact h.symm
  | some content =>
      rw [hfile] at h
      rw [boot_read hfile h]
      rfl

/-- **What the next process starts with**, should this one end here. -/
theorem Lifetime.next (h : Lifetime toJson fromJson path begun file s)
    (hbegun : StartsFrom fromJson begun file) :
    begun.Le (StatsState.boot fromJson path true s.files).metrics.toPersisted ∧
      (StatsState.boot fromJson path true s.files).metrics.toPersisted.Le
        s.metrics.toPersisted := by
  rcases h.files.saved with hsame | ⟨p, hp, hfile⟩
  · have hstart : StartsFrom fromJson begun (s.files path) := by
      rw [hsame]
      exact hbegun
    rw [boot_eq hstart]
    exact ⟨.refl _, h.counted⟩
  · have hstart : StartsFrom fromJson p (s.files path) := by
      rw [hfile]
      exact h.readable p hp
    rw [boot_eq hstart]
    exact h.snapshots p hp

end

/-! ## Every process -/

/-- The process at hand started with no less than any before it. -/
def StatsHistory.Ok (toJson : PersistedMetrics → Bytes)
    (fromJson : Bytes → Option PersistedMetrics) (path : Path) (s : StatsHistory) : Prop :=
  ∃ begun file, StartsFrom fromJson begun file ∧ Lifetime toJson fromJson path begun file s.life ∧
    ∀ start ∈ s.starts, start.Le begun

section
variable {toJson : PersistedMetrics → Bytes} {fromJson : Bytes → Option PersistedMetrics}
variable {path : Path} {s s' : StatsHistory} {e : StatsHistoryEvent}

theorem lifetime_boot (readable : Bool) (files : Files) :
    Lifetime toJson fromJson path (StatsState.boot fromJson path readable files).metrics.toPersisted
      ((StatsState.boot fromJson path readable files).files path)
      (StatsState.boot fromJson path readable files) := by
  unfold StatsState.boot
  split
  · exact .start _ _
  · exact .start _ _

theorem StatsHistory.ok_init (files : Files) :
    StatsHistory.Ok toJson fromJson path (.init fromJson path files) := by
  refine ⟨_, _, startsFrom_boot files, lifetime_boot true files, ?_⟩
  intro start hmem
  rw [List.mem_singleton.mp hmem]
  exact .refl _

theorem StatsHistory.Ok.step (h : s.Ok toJson fromJson path) (htmp : tempPath path ≠ path)
    (horderly : s.orderly e = true)
    (hround : ∀ w, e = .life (.snapshot w) →
      fromJson (toJson s.life.metrics.toPersisted) = some s.life.metrics.toPersisted)
    (hs : s.step toJson fromJson path e = some s') : s'.Ok toJson fromJson path := by
  obtain ⟨begun, file, hbegun, hlife, hstarts⟩ := h
  cases e with
  | life e =>
      obtain ⟨life, hlife', rfl⟩ := Option.map_eq_some_iff.mp hs
      refine ⟨begun, file, hbegun, hlife.step htmp horderly ?_ hlife', hstarts⟩
      rintro w rfl
      exact hround w rfl
  | restart readable =>
      obtain rfl : readable = true := horderly
      cases hs
      refine ⟨_, _, startsFrom_boot s.life.files, lifetime_boot true s.life.files, ?_⟩
      intro start hmem
      rcases List.mem_append.mp hmem with hmem | hmem
      · exact (hstarts start hmem).trans (hlife.next hbegun).1
      · rw [List.mem_singleton.mp hmem]
        exact .refl _

end

/-- **Counters across restarts.** In every history of processes, each of
which may end at any step of its savers, in which the savers keep out of
each other's way, every start can read the file and what is written for a
snapshot is read back as it: were the process to end here, the next one
would start with no counter below what any process started with, and none
above what has been counted. -/
theorem restarts_keep_counters (toJson : PersistedMetrics → Bytes)
    (fromJson : Bytes → Option PersistedMetrics) (path : Path) (htmp : tempPath path ≠ path)
    (files : Files) (es : List StatsHistoryEvent)
    (horderly : ∀ s e s',
      Takes (StatsHistory.step toJson fromJson path) (.init fromJson path files) es s e s' →
      s.orderly e = true)
    (hround : ∀ s w s',
      Takes (StatsHistory.step toJson fromJson path) (.init fromJson path files) es s
        (.life (.snapshot w)) s' →
      fromJson (toJson s.life.metrics.toPersisted) = some s.life.metrics.toPersisted)
    (s : StatsHistory)
    (hpass : Passes (StatsHistory.step toJson fromJson path) (.init fromJson path files) es s) :
    let next := (StatsState.boot fromJson path true s.life.files).metrics.toPersisted
    (∀ start ∈ s.starts, start.Le next) ∧ next.Le s.life.metrics.toPersisted := by
  have hok : s.Ok toJson fromJson path := by
    refine hpass.invariant (StatsHistory.ok_init files) ?_
    intro s e s' ht hi
    refine hi.step htmp (horderly s e s' ht) ?_ ht.step_eq
    rintro w rfl
    exact hround s w s' ht
  obtain ⟨begun, file, hbegun, hlife, hstarts⟩ := hok
  obtain ⟨hlow, hhigh⟩ := hlife.next hbegun
  exact ⟨fun start hmem => (hstarts start hmem).trans hlow, hhigh⟩

/-! A first process saves at one query, and is killed while it writes at
two. -/

/-- One save gets through, the next one is cut off. -/
def killedRun : List StatsHistoryEvent :=
  [.life (.count { totalQueries := 1 }), .life (.snapshot .periodic), .life (.write .periodic),
   .life (.rename .periodic), .life (.count { totalQueries := 2 }), .life (.snapshot .periodic),
   .life (.writeFailed .periodic (some [0x7B])), .restart true]

/-- The snapshot that a step takes can be read back. -/
def readBack (s : StatsHistory) : StatsHistoryEvent → Bool
  | .life (.snapshot _) =>
      readOneOf twoSaves (statsJson s.life.metrics.toPersisted) = some s.life.metrics.toPersisted
  | _ => true

theorem restarts_keep_counters_killed :
    ∃ s, Passes (StatsHistory.step statsJson (readOneOf twoSaves) statsPath)
        (.init (readOneOf twoSaves) statsPath fun _ => none) killedRun s ∧
      s.starts = [{}, { totalQueries := 1 }] ∧
      ∀ start ∈ s.starts, start.Le
        (StatsState.boot (readOneOf twoSaves) statsPath true s.life.files).metrics.toPersisted := by
  have hlast : (run (StatsHistory.step statsJson (readOneOf twoSaves) statsPath)
      (.init (readOneOf twoSaves) statsPath fun _ => none) killedRun).map StatsHistory.starts =
        some [{}, { totalQueries := 1 }] := by
    decide +kernel
  obtain ⟨s, hs, hstarts⟩ := Option.map_eq_some_iff.mp hlast
  refine ⟨s, .finish hs, hstarts, (restarts_keep_counters statsJson (readOneOf twoSaves) statsPath
    (by decide +kernel) (fun _ => none) killedRun ?_ ?_ s (.finish hs)).1⟩
  · intro s e s' ht
    exact test_of_along (p := StatsHistory.orderly) (by decide +kernel) ht
  · intro s w s' ht
    exact of_decide_eq_true (test_of_along (p := readBack) (by decide +kernel) ht)

end Dotdns
