import Mathlib.Data.List.Forall2
import Mathlib.Logic.Function.Basic
import Dotdns.Lib.Run
import Dotdns.Lib.Text
import Dotdns.Config
import Dotdns.Metrics

/-!
# Stats — counters that survive a restart

`save_stats` writes a snapshot of the counters to a temporary file and
renames it to `stats_path`; `run_serve` calls it every minute from a
blocking task that nothing joins, and once more at shutdown. Both savers
use the SAME temporary file.

The transition system has one step per file operation, any of which may
fail. The headline says which overlaps of the two savers must not happen
for the file to hold the final snapshot from the final save on. What
`serde_json` writes and reads is a parameter.
-/

namespace Dotdns

open Lib

/-- `PersistedMetrics`: the counters, without the gauges. -/
structure PersistedMetrics where
  totalQueries : UInt64 := 0
  cacheHits : UInt64 := 0
  cacheMisses : UInt64 := 0
  blockedQueries : UInt64 := 0
  upstreamFailures : UInt64 := 0
  upstreamSuccesses : UInt64 := 0
  upstreamTimeouts : UInt64 := 0
  cacheEvictions : UInt64 := 0
  acceptedConnections : UInt64 := 0
  tlsHandshakeSuccess : UInt64 := 0
  tlsHandshakeFailures : UInt64 := 0
  dnsReadFailures : UInt64 := 0
  dnsWriteFailures : UInt64 := 0
  pendingFollowerTimeouts : UInt64 := 0
  pendingFollowerSuccesses : UInt64 := 0
  deriving DecidableEq, Repr

/-- `to_persisted`. -/
def Metrics.toPersisted (m : Metrics) : PersistedMetrics where
  totalQueries := m.totalQueries
  cacheHits := m.cacheHits
  cacheMisses := m.cacheMisses
  blockedQueries := m.blockedQueries
  upstreamFailures := m.upstreamFailures
  upstreamSuccesses := m.upstreamSuccesses
  upstreamTimeouts := m.upstreamTimeouts
  cacheEvictions := m.cacheEvictions
  acceptedConnections := m.acceptedConnections
  tlsHandshakeSuccess := m.tlsHandshakeSuccess
  tlsHandshakeFailures := m.tlsHandshakeFailures
  dnsReadFailures := m.dnsReadFailures
  dnsWriteFailures := m.dnsWriteFailures
  pendingFollowerTimeouts := m.pendingFollowerTimeouts
  pendingFollowerSuccesses := m.pendingFollowerSuccesses

/-- The gauges start at zero. -/
def Metrics.fromPersisted (p : PersistedMetrics) : Metrics where
  totalQueries := p.totalQueries
  cacheHits := p.cacheHits
  cacheMisses := p.cacheMisses
  blockedQueries := p.blockedQueries
  upstreamFailures := p.upstreamFailures
  upstreamSuccesses := p.upstreamSuccesses
  upstreamTimeouts := p.upstreamTimeouts
  cacheEvictions := p.cacheEvictions
  acceptedConnections := p.acceptedConnections
  tlsHandshakeSuccess := p.tlsHandshakeSuccess
  tlsHandshakeFailures := p.tlsHandshakeFailures
  dnsReadFailures := p.dnsReadFailures
  dnsWriteFailures := p.dnsWriteFailures
  pendingFollowerTimeouts := p.pendingFollowerTimeouts
  pendingFollowerSuccesses := p.pendingFollowerSuccesses

@[simp] theorem Metrics.toPersisted_fromPersisted (p : PersistedMetrics) :
    (Metrics.fromPersisted p).toPersisted = p := rfl

/-- The counters in the order of the record's fields. -/
def PersistedMetrics.counters (p : PersistedMetrics) : List UInt64 :=
  [p.totalQueries, p.cacheHits, p.cacheMisses, p.blockedQueries, p.upstreamFailures,
   p.upstreamSuccesses, p.upstreamTimeouts, p.cacheEvictions, p.acceptedConnections,
   p.tlsHandshakeSuccess, p.tlsHandshakeFailures, p.dnsReadFailures, p.dnsWriteFailures,
   p.pendingFollowerTimeouts, p.pendingFollowerSuccesses]

/-- No counter is smaller in `q`. -/
def PersistedMetrics.Le (p q : PersistedMetrics) : Prop :=
  List.Forall₂ (· ≤ ·) p.counters q.counters

instance (p q : PersistedMetrics) : Decidable (p.Le q) :=
  inferInstanceAs (Decidable (List.Forall₂ (· ≤ ·) p.counters q.counters))

theorem PersistedMetrics.Le.refl (p : PersistedMetrics) : p.Le p :=
  List.forall₂_same.mpr fun _ _ => UInt64.le_refl _

/-! ## Files -/

/-- The content of a file. -/
abbrev Bytes := List UInt8

/-- The contents of files. -/
abbrev Files := Path → Option Bytes

/-- `Path` ignores separators and `.` components at the end; here the path
is reversed. -/
def Path.trimEndRev : Path → Path
  | '/' :: rest => trimEndRev rest
  | '.' :: '/' :: rest => trimEndRev rest
  | rest => rest

/-- A path up to its last component. -/
def Path.trimEnd (p : Path) : Path := (trimEndRev p.reverse).reverse

/-- `file_name`. -/
def Path.fileName (p : Path) : Option Str :=
  let name := p.trimEnd.rtakeWhile (· != '/')
  if name = [] ∨ name = ['.'] ∨ name = ['.', '.'] then none else some name

/-- `rsplit_file_at_dot`: the stem and the extension of a file name. A name
whose only dot comes first is all stem. -/
def rsplitFileAtDot (name : Str) : Str × Option Str :=
  let upToDot := name.rdropWhile (· != '.')
  if upToDot.dropLast = [] then (name, none)
  else (upToDot.dropLast, some (name.drop upToDot.length))

/-- `extension`. -/
def Path.extension (p : Path) : Option Str := p.fileName.bind fun name => (rsplitFileAtDot name).2

/-- `set_extension`, on a path without a file name nothing. -/
def Path.setExtension (p : Path) (extension : Str) : Path :=
  match p.fileName with
  | none => p
  | some name =>
      p.trimEnd.take (p.trimEnd.length - name.length) ++
        (rsplitFileAtDot name).1 ++ '.' :: extension

/-- `with_extension`: the old extension goes first, and what is left need
not have a file name (`..x`). -/
def Path.withExtension (p : Path) (extension : Str) : Path :=
  let kept : Path := p.take (p.length - (p.extension.getD []).length)
  kept.setExtension extension

example : Path.withExtension "/tmp/stats.json/".toList "tmp".toList = "/tmp/stats.tmp".toList := by
  decide +kernel

example : Path.withExtension "..x".toList "tmp".toList = "..".toList := by decide +kernel

/-- `temp_path` of `save_stats`. -/
@[irreducible] def tempPath (path : Path) : Path := path.withExtension "tmp".toList

/-- A rename of `src` whose content is `content`. -/
def Files.rename (files : Files) (src dst : Path) (content : Bytes) : Files :=
  Function.update (Function.update files src none) dst (some content)

/-- `load_stats`, and the file system after it: a file that is read but not
understood is removed. -/
def loadStats (fromJson : Bytes → Option PersistedMetrics) (readable : Bool) (files : Files)
    (path : Path) : Option PersistedMetrics × Files :=
  match files path with
  | none => (none, files)
  | some content =>
      if !readable then (none, files)
      else match fromJson content with
        | some persisted => (some persisted, files)
        | none => (none, Function.update files path none)

/-! ## The savers -/

/-- The minute timer's task, and the end of `run_serve`. -/
inductive Saver where
  | periodic
  | final
  deriving DecidableEq, Repr

/-- Where a `save_stats` call stands. -/
inductive SavePhase where
  | idle
  | taken (snapshot : PersistedMetrics)
  | written (snapshot : PersistedMetrics)
  | ok (snapshot : PersistedMetrics)
  | failed
  deriving DecidableEq, Repr

/-- The recorder, the files, and both saves. -/
structure StatsState where
  metrics : Metrics
  files : Files
  periodic : SavePhase := .idle
  final : SavePhase := .idle
  /-- Ghost: every snapshot taken. -/
  snapshots : List PersistedMetrics := []

/-- What the savers do, one file operation at a time. -/
inductive StatsEvent where
  /-- The counters move on. -/
  | count (metrics : Metrics)
  | snapshot (w : Saver)
  /-- `create_dir_all` fails. -/
  | dirFailed (w : Saver)
  | write (w : Saver)
  /-- The write fails and leaves `left` behind. -/
  | writeFailed (w : Saver) (left : Option Bytes)
  | rename (w : Saver)
  | renameFailed (w : Saver)

namespace StatsState

/-- Where a saver stands. -/
def phase (s : StatsState) : Saver → SavePhase
  | .periodic => s.periodic
  | .final => s.final

/-- A saver moves on. -/
def setPhase (s : StatsState) (w : Saver) (phase : SavePhase) : StatsState :=
  match w with
  | .periodic => { s with periodic := phase }
  | .final => { s with final := phase }

/-- The periodic saver starts over when its last save has returned; the
final save is made once. -/
def mayStart : Saver → SavePhase → Bool
  | _, .idle => true
  | .periodic, .ok _ | .periodic, .failed => true
  | _, _ => false

/-- One operation of a saver, or the counters. -/
def step (toJson : PersistedMetrics → Bytes) (path : Path) (s : StatsState) :
    StatsEvent → Option StatsState
  | .count metrics =>
      if s.metrics.toPersisted.Le metrics.toPersisted then some { s with metrics } else none
  | .snapshot w =>
      if mayStart w (s.phase w) then
        let p := s.metrics.toPersisted
        some { s.setPhase w (.taken p) with snapshots := s.snapshots ++ [p] }
      else none
  | .dirFailed w =>
      match s.phase w with
      | .taken _ => some (s.setPhase w .failed)
      | _ => none
  | .write w =>
      match s.phase w with
      | .taken p => some { s.setPhase w (.written p) with
          files := Function.update s.files (tempPath path) (some (toJson p)) }
      | _ => none
  | .writeFailed w left =>
      match s.phase w with
      | .taken _ => some { s.setPhase w .failed with
          files := Function.update s.files (tempPath path) left }
      | _ => none
  | .rename w =>
      match s.phase w with
      | .written p =>
          -- the other saver may have renamed it away
          match s.files (tempPath path) with
          | some content => some { s.setPhase w (.ok p) with
              files := s.files.rename (tempPath path) path content }
          | none => some (s.setPhase w .failed)
      | _ => none
  | .renameFailed w =>
      match s.phase w with
      | .written _ => some (s.setPhase w .failed)
      | _ => none

theorem phase_setPhase (s : StatsState) (w w' : Saver) (ph : SavePhase) :
    (s.setPhase w ph).phase w' = if w' = w then ph else s.phase w' := by
  cases w <;> cases w' <;> rfl

@[simp] theorem files_setPhase (s : StatsState) (w : Saver) (ph : SavePhase) :
    (s.setPhase w ph).files = s.files := by
  cases w <;> rfl

@[simp] theorem snapshots_setPhase (s : StatsState) (w : Saver) (ph : SavePhase) :
    (s.setPhase w ph).snapshots = s.snapshots := by
  cases w <;> rfl

end StatsState

/-! ## When the savers keep out of each other's way -/

/-- The snapshot a save is working with or has saved. -/
def SavePhase.snapshot? : SavePhase → Option PersistedMetrics
  | .taken p | .written p | .ok p => some p
  | .idle | .failed => none

/-- The temporary file is written and not yet renamed. -/
def SavePhase.isWritten : SavePhase → Bool
  | .written _ => true
  | _ => false

/-- The save has returned `Ok`. -/
def SavePhase.isOk : SavePhase → Bool
  | .ok _ => true
  | _ => false

/-- Saver `w` may use the temporary file: the periodic one only while the
final save has not written it, the final one only while the periodic one
is not between its write and its rename. -/
def tempFree (s : StatsState) : Saver → Bool
  | .periodic => !s.final.isWritten && !s.final.isOk
  | .final => !s.periodic.isWritten

/-- A step that writes the temporary file finds it free. -/
def writesAlone (s : StatsState) : StatsEvent → Bool
  | .write w | .writeFailed w _ => tempFree s w
  | _ => true

/-- `file` is the content of the statistics file at the start. -/
structure StatsInv (toJson : PersistedMetrics → Bytes) (path : Path) (file : Option Bytes)
    (s : StatsState) : Prop where
  known : ∀ w p, (s.phase w).snapshot? = some p → p ∈ s.snapshots
  temp : ∀ w p, s.phase w = .written p → s.files (tempPath path) = some (toJson p)
  apart : ∀ p q, s.phase .periodic = .written p → s.phase .final ≠ .written q
  late : ∀ p q, s.phase .periodic = .written p → s.phase .final ≠ .ok q
  saved : s.files path = file ∨ ∃ p ∈ s.snapshots, s.files path = some (toJson p)
  final : ∀ p, s.phase .final = .ok p → s.files path = some (toJson p)

section
variable {toJson : PersistedMetrics → Bytes} {path : Path} {file : Option Bytes}
variable {s s' : StatsState} {e : StatsEvent}

/-- A save moves to a phase that says nothing about the files. -/
theorem StatsInv.setPhase (h : StatsInv toJson path file s) (w : Saver) (ph : SavePhase)
    (hknown : ∀ p, ph.snapshot? = some p → p ∈ s.snapshots)
    (hph : ∀ p, ph ≠ .written p ∧ ph ≠ .ok p) : StatsInv toJson path file (s.setPhase w ph) where
  known w' p hp := by
    rw [StatsState.phase_setPhase] at hp
    rw [StatsState.snapshots_setPhase]
    split at hp
    · exact hknown p hp
    · exact h.known w' p hp
  temp w' p hp := by
    rw [StatsState.phase_setPhase] at hp
    rw [StatsState.files_setPhase]
    split at hp
    · exact absurd hp (hph p).1
    · exact h.temp w' p hp
  apart p q hp hq := by
    rw [StatsState.phase_setPhase] at hp hq
    split at hp
    · exact (hph p).1 hp
    split at hq
    · exact (hph q).1 hq
    exact h.apart p q hp hq
  late p q hp hq := by
    rw [StatsState.phase_setPhase] at hp hq
    split at hp
    · exact (hph p).1 hp
    split at hq
    · exact (hph q).2 hq
    exact h.late p q hp hq
  saved := by
    rw [StatsState.files_setPhase, StatsState.snapshots_setPhase]
    exact h.saved
  final p hp := by
    rw [StatsState.phase_setPhase] at hp
    rw [StatsState.files_setPhase]
    split at hp
    · exact absurd hp (hph p).2
    · exact h.final p hp

theorem StatsInv.snapshot (h : StatsInv toJson path file s) (w : Saver) :
    StatsInv toJson path file { s.setPhase w (.taken s.metrics.toPersisted) with
      snapshots := s.snapshots ++ [s.metrics.toPersisted] } := by
  have hlonger : StatsInv toJson path file
      { s with snapshots := s.snapshots ++ [s.metrics.toPersisted] } :=
    { temp := h.temp
      apart := h.apart
      late := h.late
      final := h.final
      known := fun w p hp => List.mem_append_left _ (h.known w p hp)
      saved := by
        rcases h.saved with hsame | ⟨p, hp, hfile⟩
        · exact .inl hsame
        · exact .inr ⟨p, List.mem_append_left _ hp, hfile⟩ }
  have hmem : ∀ p, (SavePhase.taken s.metrics.toPersisted).snapshot? = some p →
      p ∈ s.snapshots ++ [s.metrics.toPersisted] := by
    intro p hp
    cases hp
    exact List.mem_append_right _ List.mem_cons_self
  cases w with
  | periodic => exact hlonger.setPhase .periodic (.taken s.metrics.toPersisted) hmem (by simp)
  | final => exact hlonger.setPhase .final (.taken s.metrics.toPersisted) hmem (by simp)

theorem tempFree_periodic (h : tempFree s .periodic = true) (p : PersistedMetrics) :
    s.final ≠ .written p ∧ s.final ≠ .ok p := by
  simp only [tempFree, Bool.and_eq_true, Bool.not_eq_true'] at h
  constructor
  · intro hp
    rw [hp] at h
    cases h.1
  · intro hp
    rw [hp] at h
    cases h.2

theorem tempFree_final (h : tempFree s .final = true) (p : PersistedMetrics) :
    s.periodic ≠ .written p := by
  intro hp
  simp [tempFree, hp, SavePhase.isWritten] at h

theorem update_temp_path (htmp : tempPath path ≠ path) (files : Files) (content : Option Bytes) :
    Function.update files (tempPath path) content path = files path :=
  Function.update_of_ne (Ne.symm htmp) _ _

theorem StatsInv.write (h : StatsInv toJson path file s) (htmp : tempPath path ≠ path) {w : Saver}
    (hfree : tempFree s w = true) {p : PersistedMetrics} (hp : s.phase w = .taken p) :
    StatsInv toJson path file { s.setPhase w (.written p) with
      files := Function.update s.files (tempPath path) (some (toJson p)) } := by
  have hmem : p ∈ s.snapshots := h.known w p (by rw [hp]; rfl)
  have hpath := update_temp_path htmp s.files (some (toJson p))
  have hself := Function.update_self (tempPath path) (some (toJson p)) s.files
  cases w with
  | periodic =>
      -- the final save has not written: nothing but this save is at work
      refine ⟨?_, ?_, ?_, ?_, ?_, ?_⟩
      · intro w' q hq
        cases w' with
        | periodic => cases hq; exact hmem
        | final => exact h.known .final q hq
      · intro w' q hq
        cases w' with
        | periodic => cases hq; exact hself
        | final => exact absurd hq (tempFree_periodic hfree q).1
      · intro _ q _ hq
        exact (tempFree_periodic hfree q).1 hq
      · intro _ q _ hq
        exact (tempFree_periodic hfree q).2 hq
      · rcases h.saved with hsame | ⟨q, hq, hfile⟩
        · exact .inl (hpath.trans hsame)
        · exact .inr ⟨q, hq, hpath.trans hfile⟩
      · intro q hq
        exact absurd hq (tempFree_periodic hfree q).2
  | final =>
      refine ⟨?_, ?_, ?_, ?_, ?_, ?_⟩
      · intro w' q hq
        cases w' with
        | periodic => exact h.known .periodic q hq
        | final => cases hq; exact hmem
      · intro w' q hq
        cases w' with
        | periodic => exact absurd hq (tempFree_final hfree q)
        | final => cases hq; exact hself
      · intro q _ hq _
        exact tempFree_final hfree q hq
      · intro q _ hq _
        exact tempFree_final hfree q hq
      · rcases h.saved with hsame | ⟨q, hq, hfile⟩
        · exact .inl (hpath.trans hsame)
        · exact .inr ⟨q, hq, hpath.trans hfile⟩
      · intro q hq
        cases hq

/-- A failed write spoils the temporary file, which nobody else is using. -/
theorem StatsInv.writeFailed (h : StatsInv toJson path file s) (htmp : tempPath path ≠ path)
    {w : Saver} (hfree : tempFree s w = true) (left : Option Bytes) :
    StatsInv toJson path file { s.setPhase w .failed with
      files := Function.update s.files (tempPath path) left } := by
  have hpath := update_temp_path htmp s.files left
  have hset := h.setPhase w .failed (by intro p hp; cases hp) (by simp)
  refine ⟨?_, ?_, ?_, ?_, ?_, ?_⟩
  · intro w' q hq
    have hq : ((s.setPhase w .failed).phase w').snapshot? = some q := by
      cases w <;> cases w' <;> exact hq
    have hmem := hset.known w' q hq
    cases w <;> exact hmem
  · intro w' q hq
    cases w with
    | periodic =>
        cases w' with
        | periodic => cases hq
        | final => exact absurd hq (tempFree_periodic hfree q).1
    | final =>
        cases w' with
        | periodic => exact absurd hq (tempFree_final hfree q)
        | final => cases hq
  · intro p q hp hq
    cases w <;> exact hset.apart p q hp hq
  · intro p q hp hq
    cases w <;> exact hset.late p q hp hq
  · have hsaved := h.saved
    rw [← hpath] at hsaved
    cases w <;> exact hsaved
  · intro q hq
    cases w with
    | periodic => exact hpath.trans (h.final q hq)
    | final => cases hq

theorem StatsInv.rename (h : StatsInv toJson path file s) {w : Saver} {p : PersistedMetrics}
    (hp : s.phase w = .written p) {content : Bytes}
    (hcontent : s.files (tempPath path) = some content) :
    StatsInv toJson path file { s.setPhase w (.ok p) with
      files := s.files.rename (tempPath path) path content } := by
  have hmem : p ∈ s.snapshots := h.known w p (by rw [hp]; rfl)
  -- what is renamed is what this saver wrote
  have hown : content = toJson p := Option.some.inj (hcontent.symm.trans (h.temp w p hp))
  have hpath : s.files.rename (tempPath path) path content path = some (toJson p) := by
    rw [Files.rename, Function.update_self, hown]
  cases w with
  | periodic =>
      refine ⟨?_, ?_, ?_, ?_, .inr ⟨p, hmem, hpath⟩, ?_⟩
      · intro w' q hq
        cases w' with
        | periodic => cases hq; exact hmem
        | final => exact h.known .final q hq
      · intro w' q hq
        cases w' with
        | periodic => cases hq
        | final => exact absurd hq (h.apart p q hp)
      · intro _ _ hq _
        cases hq
      · intro _ _ hq _
        cases hq
      · intro q hq
        exact absurd hq (h.late p q hp)
  | final =>
      refine ⟨?_, ?_, ?_, ?_, .inr ⟨p, hmem, hpath⟩, ?_⟩
      · intro w' q hq
        cases w' with
        | periodic => exact h.known .periodic q hq
        | final => cases hq; exact hmem
      · intro w' q hq
        cases w' with
        | periodic => exact absurd hp (h.apart q p hq)
        | final => cases hq
      · intro _ _ _ hq
        cases hq
      · intro q _ hq _
        exact h.apart q p hq hp
      · intro q hq
        cases hq
        exact hpath

theorem StatsInv.step (h : StatsInv toJson path file s) (htmp : tempPath path ≠ path)
    (halone : writesAlone s e = true) (hs : s.step toJson path e = some s') :
    StatsInv toJson path file s' := by
  have hfailed : ∀ w, StatsInv toJson path file (s.setPhase w .failed) :=
    fun w => h.setPhase w .failed (by intro p hp; cases hp) (by simp)
  cases e with
  | count metrics =>
      simp only [StatsState.step] at hs
      split at hs
      · cases hs
        exact ⟨h.known, h.temp, h.apart, h.late, h.saved, h.final⟩
      · cases hs
  | snapshot w =>
      simp only [StatsState.step] at hs
      split at hs
      · cases hs
        exact h.snapshot w
      · cases hs
  | dirFailed w =>
      simp only [StatsState.step] at hs
      split at hs
      · cases hs
        exact hfailed w
      · cases hs
  | write w =>
      simp only [StatsState.step] at hs
      split at hs
      · rename_i p hp
        cases hs
        exact h.write htmp halone hp
      · cases hs
  | writeFailed w left =>
      simp only [StatsState.step] at hs
      split at hs
      · cases hs
        exact h.writeFailed htmp halone left
      · cases hs
  | rename w =>
      simp only [StatsState.step] at hs
      split at hs
      · rename_i p hp
        split at hs
        · rename_i content hcontent
          cases hs
          exact h.rename hp hcontent
        · cases hs
          exact hfailed w
      · cases hs
  | renameFailed w =>
      simp only [StatsState.step] at hs
      split at hs
      · cases hs
        exact hfailed w
      · cases hs

end

/-- The state when the savers start: nothing saved yet in this process. -/
def StatsState.start (metrics : Metrics) (files : Files) : StatsState := { metrics, files }

/-- **The final snapshot stays.** In every run in which the periodic saver
does not write the temporary file once the final save has, and the final
save does not write it while the periodic one has yet to rename it, the
statistics file is in every state as it was at the start or the complete
serialization of one snapshot; once the final save has returned `Ok` it is
that of the final snapshot; and what a restart then reads back is not
smaller in any counter. -/
theorem final_stats_stay (toJson : PersistedMetrics → Bytes)
    (fromJson : Bytes → Option PersistedMetrics) (path : Path) (htmp : tempPath path ≠ path)
    (metrics : Metrics) (files : Files) (es : List StatsEvent)
    (halone : ∀ s e s', Takes (StatsState.step toJson path) (.start metrics files) es s e s' →
      writesAlone s e = true) (s : StatsState)
    (hpass : Passes (StatsState.step toJson path) (.start metrics files) es s)
    (hround : ∀ p ∈ s.snapshots, fromJson (toJson p) = some p) :
    (s.files path = files path ∨ ∃ p ∈ s.snapshots, s.files path = some (toJson p)) ∧
    ∀ p, s.final = .ok p → s.files path = some (toJson p) ∧
      ∃ restored, loadStats fromJson true s.files path = (some restored, s.files) ∧
        p.Le (Metrics.fromPersisted restored).toPersisted := by
  -- carried: who writes writes alone, so the file is one snapshot as a whole
  have hinv : StatsInv toJson path (files path) s := by
    refine hpass.invariant ⟨?_, ?_, ?_, ?_, .inl rfl, ?_⟩ fun s e s' ht hi =>
      hi.step htmp (halone s e s' ht) ht.step_eq
    · intro w p hp
      cases w <;> cases hp
    · intro w p hp
      cases w <;> cases hp
    · intro p q hp
      cases hp
    · intro p q hp
      cases hp
    · intro p hp
      cases hp
  refine ⟨hinv.saved, ?_⟩
  intro p hp
  have hfile := hinv.final p hp
  have hmem : p ∈ s.snapshots := hinv.known .final p (by
    show (s.final).snapshot? = some p
    rw [hp]
    rfl)
  -- the final snapshot is read back, and the counters start from it
  refine ⟨hfile, p, ?_, ?_⟩
  · simp only [loadStats, hfile, hround p hmem, Bool.not_true, Bool.false_eq_true, if_false]
  · rw [Metrics.toPersisted_fromPersisted]
    exact PersistedMetrics.Le.refl p

/-! Two processes, with the default path and the text that `serde_json`
writes for the record. -/

/-- The default of `stats_path`. -/
def statsPath : Path := "/var/lib/dotdns/stats.json".toList

/-- The fields as `serde_json` names them. -/
def statsFields : List String :=
  ["total_queries", "cache_hits", "cache_misses", "blocked_queries", "upstream_failures",
   "upstream_successes", "upstream_timeouts", "cache_evictions", "accepted_connections",
   "tls_handshake_success", "tls_handshake_failures", "dns_read_failures", "dns_write_failures",
   "pending_follower_timeouts", "pending_follower_successes"]

/-- One `"name":value`. -/
def jsonField (name : String) (value : UInt64) : Bytes :=
  0x22 :: (labelOf name ++ [0x22, 0x3A] ++
    (Nat.toDigits 10 value.toNat).map fun c => UInt8.ofNat c.toNat)

/-- The record as `serde_json` writes it. -/
def statsJson (p : PersistedMetrics) : Bytes :=
  0x7B :: (List.intercalate [0x2C] (List.zipWith jsonField statsFields p.counters) ++ [0x7D])

/-- The decoder on what was written for one of `ps`. -/
def readOneOf (ps : List PersistedMetrics) (content : Bytes) : Option PersistedMetrics :=
  ps.find? fun p => content = statsJson p

def twoSaves : List PersistedMetrics := [{ totalQueries := 1 }, { totalQueries := 2 }]

/-- A periodic save at one query, then the final one at two. -/
theorem final_stats_stay_in_turn :
    ∃ s, Passes (StatsState.step statsJson statsPath) (.start { totalQueries := 1 } fun _ => none)
      [.snapshot .periodic, .count { totalQueries := 2 }, .write .periodic, .rename .periodic,
       .snapshot .final, .write .final, .rename .final] s ∧
    s.final = .ok { totalQueries := 2 } ∧
    s.files statsPath = some (statsJson { totalQueries := 2 }) := by
  have hlast : (run (StatsState.step statsJson statsPath)
      (.start { totalQueries := 1 } fun _ => none)
      [.snapshot .periodic, .count { totalQueries := 2 }, .write .periodic, .rename .periodic,
       .snapshot .final, .write .final, .rename .final]).map
        (fun s => (s.final, s.snapshots)) = some (.ok { totalQueries := 2 }, twoSaves) := by
    decide +kernel
  obtain ⟨s, hs, heq⟩ := Option.map_eq_some_iff.mp hlast
  obtain ⟨hfinal, hsnaps⟩ := Prod.mk.inj heq
  refine ⟨s, .finish hs, hfinal, ((final_stats_stay statsJson (readOneOf twoSaves) statsPath
    (by decide +kernel) { totalQueries := 1 } (fun _ => none) _ ?_ s (.finish hs) ?_).2
      { totalQueries := 2 } hfinal).1⟩
  · intro s e s' ht
    exact test_of_along (p := writesAlone) (by decide +kernel) ht
  · rw [hsnaps]
    decide +kernel

/-- The periodic saver takes its snapshot at one query and is held up; the
final save, at two queries, returns `Ok`; then the periodic one writes and
renames: the file is back at one query. -/
theorem stale_stats_overwrite_final :
    ∃ s, Passes (StatsState.step statsJson statsPath) (.start { totalQueries := 1 } fun _ => none)
      [.snapshot .periodic, .count { totalQueries := 2 }, .snapshot .final, .write .final,
       .rename .final, .write .periodic, .rename .periodic] s ∧
    s.final = .ok { totalQueries := 2 } ∧
    s.files statsPath = some (statsJson { totalQueries := 1 }) ∧
    statsJson { totalQueries := 1 } ≠ statsJson { totalQueries := 2 } ∧
    ¬ PersistedMetrics.Le { totalQueries := 2 } { totalQueries := 1 } := by
  have hlast : (run (StatsState.step statsJson statsPath)
      (.start { totalQueries := 1 } fun _ => none)
      [.snapshot .periodic, .count { totalQueries := 2 }, .snapshot .final, .write .final,
       .rename .final, .write .periodic, .rename .periodic]).map
        (fun s => (s.final, s.files statsPath)) =
      some (.ok { totalQueries := 2 }, some (statsJson { totalQueries := 1 })) := by
    decide +kernel
  obtain ⟨s, hs, heq⟩ := Option.map_eq_some_iff.mp hlast
  obtain ⟨hfinal, hfile⟩ := Prod.mk.inj heq
  exact ⟨s, .finish hs, hfinal, hfile, by decide +kernel, by decide⟩

end Dotdns
