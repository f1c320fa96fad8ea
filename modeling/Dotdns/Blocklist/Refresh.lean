import Dotdns.Lib.Run
import Dotdns.Blocklist.Reload

/-!
# Blocklist — refreshes that overlap

`refresh_and_reload` as it runs beside itself and beside `decide`. A call
waits for `refresh_lock`, downloads and renames both remote lists, reads
every file and then replaces the engine under its write lock; it may fail
at every operation and be dropped at every `await`. The files it writes
are its own only because of the lock and of the way they are named.

One step of the system is one operation of one call or of one `decide`.
`decide` reads the two rule sets one after the other, and the engine is
replaced one set at a time: only the read and write guards keep a reader
from seeing rules of two engines.
-/

namespace Dotdns

open Lib

/-! ## Calls -/

/-- Where a `refresh_and_reload` call stands. `l` is the remote list being
refreshed, by the kind of its rules. -/
inductive RefreshPhase where
  /-- At `refresh_lock.lock().await`. -/
  | waiting
  | createDir (l : RuleTarget)
  | buildClient (l : RuleTarget)
  | download (l : RuleTarget) (idx : Nat)
  | stage (l : RuleTarget) (idx : Nat) (body : List UInt8)
  | rename (l : RuleTarget) (idx : Nat)
  /-- `from_sources` with the files left to read; at `engine.write()` when
  there are none. -/
  | read (todo : List (RuleTarget × Path)) (acc : BlocklistEngine × ParseReport)
  /-- Holds the write guard, with the first of the two sets replaced. -/
  | swapping (engine : BlocklistEngine) (report : ParseReport)
  | returned (result : Except BlocklistError ParseReport)
  | cancelled
  deriving DecidableEq

/-- The call holds `refresh_lock`. -/
def RefreshPhase.running : RefreshPhase → Bool
  | .waiting | .returned _ | .cancelled => false
  | _ => true

/-- The call holds the write guard. -/
def RefreshPhase.isSwapping : RefreshPhase → Bool
  | .swapping _ _ => true
  | _ => false

/-- A call of `refresh_and_reload` under way. -/
structure RefreshCall where
  phase : RefreshPhase := .waiting
  /-- Ghost: the engine when the call acquired `refresh_lock`. -/
  before : BlocklistEngine := {}
  /-- Ghost: the URLs of each list with the bodies staged from them. -/
  bodies : RuleTarget → List (Str × List UInt8) := fun _ => []
  /-- Ghost: the files read, with their texts. -/
  reads : List ((RuleTarget × Path) × Str) := []

/-- What the environment answers to the operation a call has under way. -/
inductive IoAnswer where
  | ok
  | body (bytes : List UInt8)
  /-- An error; a failed write leaves `left` behind. -/
  | failed (left : Option Str)

namespace ReloadableBlocklist

/-- The remote lists of one kind of rules. -/
def list (b : ReloadableBlocklist) : RuleTarget → RemoteBlocklists
  | .block => b.remote
  | .allow => b.allowlistRemote

/-- The files of `from_sources`, in the order it reads them. -/
def sources (b : ReloadableBlocklist) : List (RuleTarget × Path) :=
  b.allBlockPaths.map (.block, ·) ++ b.allAllowPaths.map (.allow, ·)

/-- `allowlist_remote.refresh()`, over at once without URLs; then `reload`. -/
def refreshAllow (b : ReloadableBlocklist) : RefreshPhase :=
  if b.allowlistRemote.urls = [] then .read b.sources ({}, {}) else .createDir .allow

/-- `remote.refresh()`. -/
def refreshBlock (b : ReloadableBlocklist) : RefreshPhase :=
  if b.remote.urls = [] then b.refreshAllow else .createDir .block

/-- Where a call goes when the lists of one kind are in place. -/
def afterRefresh (b : ReloadableBlocklist) : RuleTarget → RefreshPhase
  | .block => b.refreshAllow
  | .allow => .read b.sources ({}, {})

/-- The download loop goes on, or the rename loop starts. -/
def afterStage (b : ReloadableBlocklist) (l : RuleTarget) (idx : Nat) : RefreshPhase :=
  if idx + 1 < (b.list l).urls.length then .download l (idx + 1) else .rename l 0

/-- The next rename, or the end of this kind's. -/
def afterRename (b : ReloadableBlocklist) (l : RuleTarget) (idx : Nat) : RefreshPhase :=
  if idx + 1 < (b.list l).urls.length then .rename l (idx + 1) else b.afterRefresh l

end ReloadableBlocklist

namespace RefreshCall

/-- The call moves on. -/
def goto (c : RefreshCall) (phase : RefreshPhase) : RefreshCall := { c with phase }

/-- The call returns an error. -/
def fail (c : RefreshCall) (e : BlocklistError) : RefreshCall := c.goto (.returned (.error e))

/-- Ghost: note what was downloaded from `url`. -/
def keepBody (c : RefreshCall) (l : RuleTarget) (url : Str) (body : List UInt8) : RefreshCall :=
  { c with bodies := fun l' => if l' = l then c.bodies l' ++ [(url, body)] else c.bodies l' }

/-- One operation of a call that holds `refresh_lock`, up to the swap. -/
def advance (U : UnicodeCase) (b : ReloadableBlocklist) (disk : Disk) (c : RefreshCall)
    (answer : IoAnswer) : Option (RefreshCall × Disk) :=
  match c.phase, answer with
  | .createDir l, .ok => some (c.goto (.buildClient l), disk)
  | .createDir l, .failed _ => some (c.fail (.io (b.list l).downloadDir), disk)
  | .buildClient l, .ok => some (c.goto (.download l 0), disk)
  | .buildClient _, .failed _ => some (c.fail .httpClient, disk)
  | .download l idx, .body bytes => some (c.goto (.stage l idx bytes), disk)
  | .download l idx, .failed _ =>
      (b.list l).urls[idx]?.map fun url => (c.fail (.download url), disk)
  | .stage l idx body, .ok =>
      (b.list l).urls[idx]?.map fun url =>
        ((c.keepBody l url body).goto (b.afterStage l idx),
          disk.set ((b.list l).tmpPathFor idx) (some (fromUtf8Lossy body)))
  | .stage l idx _, .failed left =>
      some (c.fail (.io ((b.list l).tmpPathFor idx)), disk.set ((b.list l).tmpPathFor idx) left)
  | .rename l idx, .ok =>
      match disk ((b.list l).tmpPathFor idx) with
      | some text =>
          some (c.goto (b.afterRename l idx),
            (disk.set ((b.list l).pathFor idx) (some text)).set ((b.list l).tmpPathFor idx) none)
      | none => some (c.fail (.io ((b.list l).pathFor idx)), disk)
  | .rename l idx, .failed _ => some (c.fail (.io ((b.list l).pathFor idx)), disk)
  | .read ((l, p) :: todo) acc, .ok =>
      match disk p with
      | some text =>
          some ({ c with
              phase := .read todo ((lines text).foldl (BlocklistEngine.loadLine U l) acc)
              reads := c.reads ++ [((l, p), text)] }, disk)
      | none => some (c.fail (.io p), disk)
  | .read ((_, p) :: _) _, .failed _ => some (c.fail (.io p), disk)
  | _, _ => none

end RefreshCall

/-! ## Readers -/

/-- Where a `decide` call stands. -/
inductive ReaderPhase where
  | waiting
  /-- Holds the read guard, before `matches_exception`. -/
  | exceptions
  /-- Holds the read guard, before `matches_block`. -/
  | blocks
  | decided (decision : BlockDecision)
  deriving DecidableEq

/-- A call of `decide` under way. -/
structure Reader where
  domain : Str
  phase : ReaderPhase := .waiting

/-- The reader holds a read guard. -/
def ReaderPhase.holds : ReaderPhase → Bool
  | .exceptions | .blocks => true
  | _ => false

/-- One step of `decide` with the read guard, on what the engine holds at
that moment. -/
def Reader.look (U : UnicodeCase) (engine : BlocklistEngine) (r : Reader) : Option Reader :=
  let normalized := normalizeDomain U r.domain
  match r.phase with
  | .exceptions =>
      if BlocklistEngine.ruleMatches engine.exceptions normalized
      then some { r with phase := .decided .exception }
      else some { r with phase := .blocks }
  | .blocks =>
      if BlocklistEngine.ruleMatches engine.blocks normalized
      then some { r with phase := .decided .block }
      else some { r with phase := .decided .allow }
  | _ => none

/-! ## The system -/

/-- The blocklist with all calls that are using it. -/
structure RefreshState where
  engine : BlocklistEngine
  disk : Disk
  /-- Holder of `refresh_lock`. -/
  lock : Option Nat := none
  /-- Holder of the engine's write guard. -/
  writer : Option Nat := none
  calls : List RefreshCall := []
  readers : List Reader := []
  /-- Ghost: the engines there have been, the current one last. -/
  versions : List BlocklistEngine := [engine]

/-- What the calls do, one operation at a time. -/
inductive RefreshEvent where
  | call
  | acquire (i : Nat)
  | io (i : Nat) (answer : IoAnswer)
  /-- A half of `*guard = new_engine`. -/
  | swap (i : Nat)
  | cancel (i : Nat)
  /-- Somebody else changes a file. -/
  | edit (p : Path) (content : Option Str)
  | decide (domain : Str)
  | readLock (k : Nat)
  | look (k : Nat)

namespace RefreshState

variable (U : UnicodeCase) (b : ReloadableBlocklist)

/-- `from_config` with the disk it finds. -/
def start (disk : Disk) : RefreshState := { engine := b.engine, disk }

/-- One operation: a lock, a file, a half of the swap, a look. -/
def step (s : RefreshState) : RefreshEvent → Option RefreshState
  | .call => some { s with calls := s.calls ++ [{}] }
  | .acquire i => do
      let c ← s.calls[i]?
      match c.phase, s.lock with
      | .waiting, none => some { s with
          lock := some i
          calls := s.calls.set i { c with phase := b.refreshBlock, before := s.engine } }
      | _, _ => none
  | .io i answer => do
      let c ← s.calls[i]?
      let (c', disk) ← c.advance U b s.disk answer
      some { s with
        disk
        -- the guard is dropped where the call ends
        lock := if c'.phase.running then s.lock else none
        calls := s.calls.set i c' }
  | .swap i => do
      let c ← s.calls[i]?
      match c.phase with
      | .read [] (engine, report) =>
          -- `write` waits for every reader and for another writer
          if s.writer.isNone && !s.readers.any (·.phase.holds) then some { s with
            writer := some i
            engine := { s.engine with blocks := engine.blocks }
            calls := s.calls.set i (c.goto (.swapping engine report)) }
          else none
      | .swapping engine report => some { s with
          writer := none
          lock := none
          engine := { s.engine with exceptions := engine.exceptions }
          calls := s.calls.set i (c.goto (.returned (.ok report)))
          versions := s.versions ++ [engine] }
      | _ => none
  | .cancel i => do
      let c ← s.calls[i]?
      -- a call can be dropped where it awaits: the lock, or a download
      match c.phase with
      | .waiting => some { s with calls := s.calls.set i (c.goto .cancelled) }
      | .download _ _ => some { s with lock := none, calls := s.calls.set i (c.goto .cancelled) }
      | _ => none
  | .edit p content => some { s with disk := s.disk.set p content }
  | .decide domain => some { s with readers := s.readers ++ [{ domain }] }
  | .readLock k => do
      let r ← s.readers[k]?
      match r.phase, s.writer with
      | .waiting, none => some { s with
          readers := s.readers.set k { r with phase := .exceptions } }
      | _, _ => none
  | .look k => do
      let r ← s.readers[k]?
      let r' ← r.look U s.engine
      some { s with readers := s.readers.set k r' }

end RefreshState

/-! ## No two downloads share a file -/

theorem Path.join_inj_of_relative {base x y : Path} (hx : x.head? ≠ some '/')
    (hy : y.head? ≠ some '/') (h : Path.join base x = Path.join base y) : x = y := by
  unfold Path.join at h
  rw [if_neg hx, if_neg hy] at h
  split at h
  · exact h
  · split at h
    · exact List.append_cancel_left h
    · exact List.tail_eq_of_cons_eq (List.append_cancel_left h)

namespace ReloadableBlocklist

/-- The two remote lists have no file in common. -/
def Separate (b : ReloadableBlocklist) : Prop :=
  ∀ e e' i j, b.remote.fileFor e i ≠ b.allowlistRemote.fileFor e' j

/-- The names start with the letters `s` and `a`. -/
theorem fromConfig_separate (config : BlocklistConfig) : (fromConfig config).Separate := by
  intro e e' i j h
  have hname := Path.join_inj_of_relative (by simp [fromConfig]) (by simp [fromConfig]) h
  have hhead := congrArg List.head? hname
  simp [fromConfig] at hhead

/-- A download's file determines the list, the extension and the index. -/
theorem Separate.fileFor_inj {b : ReloadableBlocklist} (hb : b.Separate) {l l' : RuleTarget}
    {e e' : Str} {i j : Nat} (hlen : e.length = e'.length)
    (h : (b.list l).fileFor e i = (b.list l').fileFor e' j) : l = l' ∧ e = e' ∧ i = j := by
  cases l with
  | block =>
      cases l' with
      | block => exact ⟨rfl, RemoteBlocklists.fileFor_inj hlen h⟩
      | allow => exact absurd h (hb e e' i j)
  | allow =>
      cases l' with
      | block => exact absurd h.symm (hb e' e j i)
      | allow => exact ⟨rfl, RemoteBlocklists.fileFor_inj hlen h⟩

/-- A path that is neither a staging nor a final path of a download. -/
def NotDownload (b : ReloadableBlocklist) (p : Path) : Prop :=
  ∀ l k, p ≠ (b.list l).pathFor k ∧ p ≠ (b.list l).tmpPathFor k

end ReloadableBlocklist

/-! ## One operation -/

namespace RefreshPhase

/-- The files still to be read. -/
def unread (b : ReloadableBlocklist) : RefreshPhase → List (RuleTarget × Path)
  | .read todo _ => todo
  | .swapping _ _ => []
  | _ => b.sources

/-- The engine being built. -/
def building : RefreshPhase → BlocklistEngine × ParseReport
  | .read _ acc => acc
  | .swapping engine report => (engine, report)
  | _ => ({}, {})

end RefreshPhase

/-- A phase of the two refreshes: nothing has been read yet. -/
structure RefreshPhase.Early (b : ReloadableBlocklist) (ph : RefreshPhase) : Prop where
  running : ph.running = true
  swapping : ph.isSwapping = false
  unread : ph.unread b = b.sources
  building : ph.building = ({}, {})

namespace ReloadableBlocklist

variable (b : ReloadableBlocklist)

theorem early_refreshAllow : b.refreshAllow.Early b := by
  unfold refreshAllow
  split <;> exact ⟨rfl, rfl, rfl, rfl⟩

theorem early_refreshBlock : b.refreshBlock.Early b := by
  unfold refreshBlock
  split
  · exact b.early_refreshAllow
  · exact ⟨rfl, rfl, rfl, rfl⟩

theorem early_afterRefresh (l : RuleTarget) : (b.afterRefresh l).Early b := by
  cases l with
  | block => exact b.early_refreshAllow
  | allow => exact ⟨rfl, rfl, rfl, rfl⟩

theorem early_afterStage (l : RuleTarget) (idx : Nat) : (b.afterStage l idx).Early b := by
  unfold afterStage
  split <;> exact ⟨rfl, rfl, rfl, rfl⟩

theorem early_afterRename (l : RuleTarget) (idx : Nat) : (b.afterRename l idx).Early b := by
  unfold afterRename
  split
  · exact ⟨rfl, rfl, rfl, rfl⟩
  · exact b.early_afterRefresh l

end ReloadableBlocklist

namespace RefreshCall

variable {U : UnicodeCase} {b : ReloadableBlocklist} {disk disk' : Disk} {c c' : RefreshCall}
  {answer : IoAnswer}

variable (U b disk c answer) in
/-- **All that one operation can do**: fail, having changed no more than a
temporary file, or go on to the next operation. -/
inductive Advances : RefreshCall → Disk → Prop
  | fail (e : BlocklistError) (disk' : Disk) (hrun : c.phase.running = true)
      (hswap : c.phase.isSwapping = false)
      (hframe : ∀ p, (∀ l idx, p ≠ (b.list l).tmpPathFor idx) → disk' p = disk p) :
      Advances (c.fail e) disk'
  | createDir (l : RuleTarget) (hph : c.phase = .createDir l) :
      Advances (c.goto (.buildClient l)) disk
  | buildClient (l : RuleTarget) (hph : c.phase = .buildClient l) :
      Advances (c.goto (.download l 0)) disk
  | download (l : RuleTarget) (idx : Nat) (bytes : List UInt8)
      (hph : c.phase = .download l idx) (hans : answer = .body bytes) :
      Advances (c.goto (.stage l idx bytes)) disk
  | stage (l : RuleTarget) (idx : Nat) (body : List UInt8) (url : Str)
      (hph : c.phase = .stage l idx body) (hurl : (b.list l).urls[idx]? = some url) :
      Advances ((c.keepBody l url body).goto (b.afterStage l idx))
        (disk.set ((b.list l).tmpPathFor idx) (some (fromUtf8Lossy body)))
  | rename (l : RuleTarget) (idx : Nat) (text : Str) (hph : c.phase = .rename l idx)
      (htext : disk ((b.list l).tmpPathFor idx) = some text) :
      Advances (c.goto (b.afterRename l idx))
        ((disk.set ((b.list l).pathFor idx) (some text)).set ((b.list l).tmpPathFor idx) none)
  | read (l : RuleTarget) (p : Path) (todo : List (RuleTarget × Path))
      (acc : BlocklistEngine × ParseReport) (text : Str)
      (hph : c.phase = .read ((l, p) :: todo) acc) (htext : disk p = some text) :
      Advances
        { c with
          phase := .read todo ((lines text).foldl (BlocklistEngine.loadLine U l) acc)
          reads := c.reads ++ [((l, p), text)] } disk

theorem advances (h : c.advance U b disk answer = some (c', disk')) :
    Advances U b disk c answer c' disk' := by
  unfold advance at h
  split at h
  · rename_i l hph
    cases h
    exact .createDir l hph
  · rename_i hph
    cases h
    exact .fail _ _ (by rw [hph]; rfl) (by rw [hph]; rfl) fun _ _ => rfl
  · rename_i l hph
    cases h
    exact .buildClient l hph
  · rename_i hph
    cases h
    exact .fail _ _ (by rw [hph]; rfl) (by rw [hph]; rfl) fun _ _ => rfl
  · rename_i l idx bytes hph
    cases h
    exact .download l idx bytes hph rfl
  · rename_i hph
    obtain ⟨url, _, heq⟩ := Option.map_eq_some_iff.mp h
    cases heq
    exact .fail _ _ (by rw [hph]; rfl) (by rw [hph]; rfl) fun _ _ => rfl
  · rename_i l idx body hph
    obtain ⟨url, hurl, heq⟩ := Option.map_eq_some_iff.mp h
    cases heq
    exact .stage l idx body url hph hurl
  · rename_i l idx _ _ hph
    cases h
    exact .fail _ _ (by rw [hph]; rfl) (by rw [hph]; rfl) fun p hp => Disk.set_of_ne (hp l idx) _
  · rename_i l idx hph
    split at h
    · rename_i text htext
      cases h
      exact .rename l idx text hph htext
    · cases h
      exact .fail _ _ (by rw [hph]; rfl) (by rw [hph]; rfl) fun _ _ => rfl
  · rename_i hph
    cases h
    exact .fail _ _ (by rw [hph]; rfl) (by rw [hph]; rfl) fun _ _ => rfl
  · rename_i l p todo acc hph
    split at h
    · rename_i text htext
      cases h
      exact .read l p todo acc text hph htext
    · cases h
      exact .fail _ _ (by rw [hph]; rfl) (by rw [hph]; rfl) fun _ _ => rfl
  · rename_i hph
    cases h
    exact .fail _ _ (by rw [hph]; rfl) (by rw [hph]; rfl) fun _ _ => rfl
  · cases h

/-- An operation is one of a call that holds the lock and not the write
guard. -/
theorem Advances.running (h : Advances U b disk c answer c' disk') :
    c.phase.running = true ∧ c.phase.isSwapping = false := by
  cases h with
  | fail e _ hrun hswap hframe => exact ⟨hrun, hswap⟩
  | createDir l hph => rw [hph]; exact ⟨rfl, rfl⟩
  | buildClient l hph => rw [hph]; exact ⟨rfl, rfl⟩
  | download l idx bytes hph hans => rw [hph]; exact ⟨rfl, rfl⟩
  | stage l idx body url hph hurl => rw [hph]; exact ⟨rfl, rfl⟩
  | rename l idx text hph htext => rw [hph]; exact ⟨rfl, rfl⟩
  | read l p todo acc text hph htext => rw [hph]; exact ⟨rfl, rfl⟩

/-- After it the call runs on or has returned an error. -/
theorem Advances.outcome (h : Advances U b disk c answer c' disk') :
    c'.phase.running = true ∨ ∃ e, c'.phase = .returned (.error e) := by
  cases h with
  | fail e => exact .inr ⟨e, rfl⟩
  | createDir l hph => exact .inl rfl
  | buildClient l hph => exact .inl rfl
  | download l idx bytes hph hans => exact .inl rfl
  | stage l idx body url hph hurl => exact .inl (b.early_afterStage l idx).running
  | rename l idx text hph htext => exact .inl (b.early_afterRename l idx).running
  | read l p todo acc text hph htext => exact .inl rfl

theorem Advances.not_swapping (h : Advances U b disk c answer c' disk') :
    c'.phase.isSwapping = false := by
  cases h with
  | fail e => rfl
  | createDir l hph => rfl
  | buildClient l hph => rfl
  | download l idx bytes hph hans => rfl
  | stage l idx body url hph hurl => exact (b.early_afterStage l idx).swapping
  | rename l idx text hph htext => exact (b.early_afterRename l idx).swapping
  | read l p todo acc text hph htext => rfl

end RefreshCall

/-! ## One look of a reader -/

namespace Reader

variable {U : UnicodeCase} {engine : BlocklistEngine} {r r' : Reader}

theorem look_cases (h : r.look U engine = some r') :
    r.phase = .exceptions ∧
      BlocklistEngine.ruleMatches engine.exceptions (normalizeDomain U r.domain) = true ∧
      r' = { r with phase := .decided .exception } ∨
    r.phase = .exceptions ∧
      BlocklistEngine.ruleMatches engine.exceptions (normalizeDomain U r.domain) = false ∧
      r' = { r with phase := .blocks } ∨
    r.phase = .blocks ∧
      r' = { r with
        phase := .decided
          (if BlocklistEngine.ruleMatches engine.blocks (normalizeDomain U r.domain)
            then .block else .allow) } := by
  unfold look at h
  split at h
  · rename_i hph
    cases hm : BlocklistEngine.ruleMatches engine.exceptions (normalizeDomain U r.domain) with
    | true =>
        simp only [hm, if_true] at h
        cases h
        exact .inl ⟨hph, rfl, rfl⟩
    | false =>
        simp only [hm, Bool.false_eq_true, if_false] at h
        cases h
        exact .inr (.inl ⟨hph, rfl, rfl⟩)
  · rename_i hph
    refine .inr (.inr ⟨hph, ?_⟩)
    cases hm : BlocklistEngine.ruleMatches engine.blocks (normalizeDomain U r.domain) with
    | true =>
        simp only [hm, if_true] at h
        cases h
        rfl
    | false =>
        simp only [hm, Bool.false_eq_true, if_false] at h
        cases h
        rfl
  · cases h

theorem look_holds (h : r.look U engine = some r') : r.phase.holds = true := by
  rcases look_cases h with ⟨hph, _⟩ | ⟨hph, _⟩ | ⟨hph, _⟩
  · rw [hph]; rfl
  · rw [hph]; rfl
  · rw [hph]; rfl

/-- Two looks at one engine are its decision. -/
theorem look_decides (h : r.look U engine = some r') {decision : BlockDecision}
    (hdec : r'.phase = .decided decision)
    (hblocks : r.phase = .blocks →
      BlocklistEngine.ruleMatches engine.exceptions (normalizeDomain U r.domain) = false) :
    decision = engine.decide U r'.domain := by
  rcases look_cases h with ⟨_, hm, rfl⟩ | ⟨_, _, rfl⟩ | ⟨hph, rfl⟩
  · cases hdec
    simp only [BlocklistEngine.decide, hm, if_true]
  · cases hdec
  · cases hdec
    simp only [BlocklistEngine.decide, hblocks hph, Bool.false_eq_true, if_false]

end Reader

/-! ## One step of the system -/

namespace RefreshState

variable {U : UnicodeCase} {b : ReloadableBlocklist} {s s' : RefreshState} {ev : RefreshEvent}

variable (U b s) in
/-- **All that one step can do.** -/
inductive Steps : RefreshEvent → RefreshState → Prop
  | call : Steps .call { s with calls := s.calls ++ [{}] }
  | acquire (i : Nat) (c : RefreshCall) (hc : s.calls[i]? = some c)
      (hph : c.phase = .waiting) (hlock : s.lock = none) :
      Steps (.acquire i) { s with
        lock := some i
        calls := s.calls.set i { c with phase := b.refreshBlock, before := s.engine } }
  | io (i : Nat) (answer : IoAnswer) (c c' : RefreshCall) (disk : Disk)
      (hc : s.calls[i]? = some c) (hadv : RefreshCall.Advances U b s.disk c answer c' disk) :
      Steps (.io i answer) { s with
        disk
        lock := if c'.phase.running then s.lock else none
        calls := s.calls.set i c' }
  | swapBlocks (i : Nat) (c : RefreshCall) (engine : BlocklistEngine) (report : ParseReport)
      (hc : s.calls[i]? = some c) (hph : c.phase = .read [] (engine, report))
      (hw : s.writer = none) (hr : ∀ r ∈ s.readers, r.phase.holds = false) :
      Steps (.swap i) { s with
        writer := some i
        engine := { s.engine with blocks := engine.blocks }
        calls := s.calls.set i (c.goto (.swapping engine report)) }
  | swapExceptions (i : Nat) (c : RefreshCall) (engine : BlocklistEngine) (report : ParseReport)
      (hc : s.calls[i]? = some c) (hph : c.phase = .swapping engine report) :
      Steps (.swap i) { s with
        writer := none
        lock := none
        engine := { s.engine with exceptions := engine.exceptions }
        calls := s.calls.set i (c.goto (.returned (.ok report)))
        versions := s.versions ++ [engine] }
  | cancelWaiting (i : Nat) (c : RefreshCall) (hc : s.calls[i]? = some c)
      (hph : c.phase = .waiting) :
      Steps (.cancel i) { s with calls := s.calls.set i (c.goto .cancelled) }
  | cancelDownload (i : Nat) (c : RefreshCall) (l : RuleTarget) (idx : Nat)
      (hc : s.calls[i]? = some c) (hph : c.phase = .download l idx) :
      Steps (.cancel i) { s with lock := none, calls := s.calls.set i (c.goto .cancelled) }
  | edit (p : Path) (content : Option Str) :
      Steps (.edit p content) { s with disk := s.disk.set p content }
  | decide (domain : Str) : Steps (.decide domain) { s with readers := s.readers ++ [{ domain }] }
  | readLock (k : Nat) (r : Reader) (hr : s.readers[k]? = some r) (hph : r.phase = .waiting)
      (hw : s.writer = none) :
      Steps (.readLock k) { s with
        readers := s.readers.set k { r with phase := .exceptions } }
  | look (k : Nat) (r r' : Reader) (hr : s.readers[k]? = some r)
      (hlook : r.look U s.engine = some r') :
      Steps (.look k) { s with readers := s.readers.set k r' }

theorem steps (h : step U b s ev = some s') : Steps U b s ev s' := by
  cases ev with
  | call =>
      cases h
      exact .call
  | acquire i =>
      obtain ⟨c, hc, h⟩ := Option.bind_eq_some_iff.mp h
      split at h
      · rename_i hph hlock
        cases h
        exact .acquire i c hc hph hlock
      · cases h
  | io i answer =>
      obtain ⟨c, hc, h⟩ := Option.bind_eq_some_iff.mp h
      obtain ⟨⟨c', disk⟩, hadv, h⟩ := Option.bind_eq_some_iff.mp h
      cases h
      exact .io i answer c c' disk hc (RefreshCall.advances hadv)
  | swap i =>
      obtain ⟨c, hc, h⟩ := Option.bind_eq_some_iff.mp h
      split at h
      · rename_i engine report hph
        split at h
        · rename_i hfree
          cases h
          rw [Bool.and_eq_true, Option.isNone_iff_eq_none] at hfree
          exact .swapBlocks i c engine report hc hph hfree.1 (by simpa using hfree.2)
        · cases h
      · rename_i engine report hph
        cases h
        exact .swapExceptions i c engine report hc hph
      · cases h
  | cancel i =>
      obtain ⟨c, hc, h⟩ := Option.bind_eq_some_iff.mp h
      split at h
      · rename_i hph
        cases h
        exact .cancelWaiting i c hc hph
      · rename_i l idx hph
        cases h
        exact .cancelDownload i c l idx hc hph
      · cases h
  | edit p content =>
      cases h
      exact .edit p content
  | decide domain =>
      cases h
      exact .decide domain
  | readLock k =>
      obtain ⟨r, hr, h⟩ := Option.bind_eq_some_iff.mp h
      split at h
      · rename_i hph hw
        cases h
        exact .readLock k r hr hph hw
      · cases h
  | look k =>
      obtain ⟨r, hr, h⟩ := Option.bind_eq_some_iff.mp h
      obtain ⟨r', hlook, h⟩ := Option.bind_eq_some_iff.mp h
      cases h
      exact .look k r r' hr hlook

end RefreshState

end Dotdns
