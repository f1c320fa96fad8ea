import Dotdns.Blocklist.Refresh

/-!
# Blocklist — a refresh left alone

`ReloadableBlocklist.refreshAndReload` is the function as a caller sees it,
`RefreshState.step` the same code cut at every operation. A call that is
let run to its end with nobody in between does what the function says:
the same result, the same disk and the same engine.
-/

namespace Dotdns

open Lib

/-- The answers for the lists of one kind. -/
def ReloadIo.list (io : ReloadIo) : RuleTarget → RefreshIo
  | .block => io.block
  | .allow => io.allow

/-- The text of every body comes from some bytes. -/
def ReloadIo.Decoded (io : ReloadIo) : Prop :=
  ∀ l idx text, (io.list l).fetch idx = some text → ∃ bytes, fromUtf8Lossy bytes = text

/-- Where a call goes on: at `next`, or nowhere after an error. -/
def RefreshPhase.after {α : Type} (next : α → RefreshPhase) : Except BlocklistError α → RefreshPhase
  | .error e => .returned (.error e)
  | .ok a => next a

namespace RefreshCall

section
variable (U : UnicodeCase) (b : ReloadableBlocklist)

/-- The operations of the call, with some answers, take it to phase `ph`
and leave `disk'`. -/
inductive Reaches (ph : RefreshPhase) (disk' : Disk) : RefreshCall → Disk → Prop
  | here {c : RefreshCall} (hph : c.phase = ph) : Reaches ph disk' c disk'
  | next {c c₁ : RefreshCall} {disk disk₁ : Disk} (answer : IoAnswer)
      (hadv : c.advance U b disk answer = some (c₁, disk₁))
      (hrest : Reaches ph disk' c₁ disk₁) : Reaches ph disk' c disk

end

variable {U : UnicodeCase} {b : ReloadableBlocklist} {io : ReloadIo} {c : RefreshCall}
  {disk disk' disk'' : Disk} {ph ph' : RefreshPhase} {l : RuleTarget}

/-! ## Single operations -/

theorem advance_download_failed {idx : Nat} {url : Str} (hph : c.phase = .download l idx)
    (hurl : (b.list l).urls[idx]? = some url) :
    c.advance U b disk (.failed none) = some (c.fail (.download url), disk) := by
  simp only [advance, hph, hurl, Option.map_some]

theorem advance_stage_ok {idx : Nat} {body : List UInt8} {url : Str}
    (hph : c.phase = .stage l idx body) (hurl : (b.list l).urls[idx]? = some url) :
    c.advance U b disk .ok =
      some ((c.keepBody l url body).goto (b.afterStage l idx),
        disk.set ((b.list l).tmpPathFor idx) (some (fromUtf8Lossy body))) := by
  simp only [advance, hph, hurl, Option.map_some]

theorem advance_rename_ok {idx : Nat} {text : Str} (hph : c.phase = .rename l idx)
    (htext : disk ((b.list l).tmpPathFor idx) = some text) :
    c.advance U b disk .ok =
      some (c.goto (b.afterRename l idx),
        (disk.set ((b.list l).pathFor idx) (some text)).set ((b.list l).tmpPathFor idx) none) := by
  simp only [advance, hph, htext]

theorem advance_rename_failed {idx : Nat} (hph : c.phase = .rename l idx) :
    c.advance U b disk (.failed none) = some (c.fail (.io ((b.list l).pathFor idx)), disk) := by
  simp only [advance, hph]

theorem advance_read_failed {p : Path} {todo : List (RuleTarget × Path)}
    {acc : BlocklistEngine × ParseReport} (hph : c.phase = .read ((l, p) :: todo) acc) :
    c.advance U b disk (.failed none) = some (c.fail (.io p), disk) := by
  simp only [advance, hph]

theorem advance_read_ok {p : Path} {todo : List (RuleTarget × Path)}
    {acc : BlocklistEngine × ParseReport} {text : Str}
    (hph : c.phase = .read ((l, p) :: todo) acc) (htext : disk p = some text) :
    c.advance U b disk .ok =
      some ({ c with
        phase := .read todo ((lines text).foldl (BlocklistEngine.loadLine U l) acc)
        reads := c.reads ++ [((l, p), text)] }, disk) := by
  simp only [advance, hph, htext]

/-! ## Loops -/

theorem Reaches.trans (h : Reaches U b ph disk' c disk)
    (hthen : ∀ c', c'.phase = ph → Reaches U b ph' disk'' c' disk') :
    Reaches U b ph' disk'' c disk := by
  induction h with
  | here hph => exact hthen _ hph
  | next answer hadv _ ih => exact .next answer hadv ih

/-- The download loop, with `urls` left. -/
theorem reaches_stage (hio : io.Decoded) (disk : Disk) (done : List Str) {urls : List Str}
    (hurls : (b.list l).urls = done ++ urls)
    (hph : c.phase = if urls = [] then .rename l 0 else .download l done.length) :
    Reaches U b
      (.after (fun _ => .rename l 0) ((b.list l).stage (io.list l) urls done.length disk).1)
      ((b.list l).stage (io.list l) urls done.length disk).2 c disk := by
  induction urls generalizing done c disk with
  | nil => exact .here hph
  | cons url urls ih =>
      rw [if_neg (List.cons_ne_nil url urls)] at hph
      have hurl : (b.list l).urls[done.length]? = some url := by simp [hurls]
      rw [RemoteBlocklists.stage]
      cases hfetch : (io.list l).fetch done.length with
      | none => exact .next _ (advance_download_failed hph hurl) (.here rfl)
      | some text =>
          obtain ⟨bytes, rfl⟩ := hio l _ _ hfetch
          have hbody : c.advance U b disk (.body bytes) =
              some (c.goto (.stage l done.length bytes), disk) := by
            simp only [advance, hph]
          refine .next _ hbody ?_
          cases hwrite : (io.list l).write ((b.list l).tmpPathFor done.length) with
          | error left => exact .next (.failed left) rfl (.here rfl)
          | ok _ =>
              refine .next _ (advance_stage_ok rfl hurl) ?_
              have hnext : b.afterStage l done.length =
                  if urls = [] then .rename l 0 else .download l (done ++ [url]).length := by
                cases urls <;> simp [ReloadableBlocklist.afterStage, hurls]
              have hurls' : (b.list l).urls = (done ++ [url]) ++ urls := by
                rw [hurls, List.append_assoc]
                rfl
              have hrest := ih
                (c := ((c.goto (.stage l done.length bytes)).keepBody l url bytes).goto
                  (b.afterStage l done.length))
                (disk.set ((b.list l).tmpPathFor done.length) (some (fromUtf8Lossy bytes)))
                (done ++ [url]) hurls' hnext
              rw [List.length_append, List.length_singleton] at hrest
              cases hst : (b.list l).stage (io.list l) urls (done.length + 1)
                  (disk.set ((b.list l).tmpPathFor done.length)
                    (some (fromUtf8Lossy bytes))) with
              | mk result disk₁ =>
                  rw [hst] at hrest
                  dsimp only
                  rw [hst]
                  cases result with
                  | error e => exact hrest
                  | ok staged => exact hrest

/-- The rename loop, with `m` downloads left. -/
theorem reaches_renameAll {k m : Nat} (hlen : k + m = (b.list l).urls.length)
    (hph : c.phase = if m = 0 then b.afterRefresh l else .rename l k) :
    Reaches U b
      (.after (fun _ => b.afterRefresh l)
        ((b.list l).renameAll (io.list l) (List.range' k m) disk).1)
      ((b.list l).renameAll (io.list l) (List.range' k m) disk).2 c disk := by
  induction m generalizing k c disk with
  | zero => exact .here hph
  | succ m ih =>
      rw [if_neg m.succ_ne_zero] at hph
      rw [List.range'_succ, RemoteBlocklists.renameAll]
      split
      · rename_i hok
        obtain ⟨_, hsome⟩ := (Bool.and_eq_true _ _).mp hok
        obtain ⟨text, htext⟩ := Option.isSome_iff_exists.mp hsome
        refine .next _ (advance_rename_ok hph htext) ?_
        rw [htext]
        have hnext : b.afterRename l k = if m = 0 then b.afterRefresh l else .rename l (k + 1) := by
          cases m <;> simp [ReloadableBlocklist.afterRename, ← hlen]
        exact ih (by omega) hnext
      · exact .next _ (advance_rename_failed hph) (.here rfl)

/-- `RemoteBlocklists::refresh`. -/
theorem reaches_refresh (hio : io.Decoded) (disk : Disk)
    (hph : c.phase = if (b.list l).urls = [] then b.afterRefresh l else .createDir l) :
    Reaches U b (.after (fun _ => b.afterRefresh l) ((b.list l).refresh (io.list l) disk).1)
      ((b.list l).refresh (io.list l) disk).2 c disk := by
  unfold RemoteBlocklists.refresh
  split
  · rename_i hnil
    exact .here (hph.trans (if_pos hnil))
  · rename_i hne
    obtain ⟨phase, before, bodies, reads⟩ := c
    obtain rfl : phase = .createDir l := hph.trans (if_neg hne)
    split
    · exact .next (.failed none) rfl (.here rfl)
    refine .next .ok rfl ?_
    split
    · exact .next (.failed none) rfl (.here rfl)
    refine .next .ok rfl ?_
    have hstage := reaches_stage (U := U)
      (c := ⟨.download l 0, before, bodies, reads⟩) hio disk [] rfl
      (if_neg hne).symm
    cases hst : (b.list l).stage (io.list l) (b.list l).urls 0 disk with
    | mk result disk₁ =>
        rw [List.length_nil, hst] at hstage
        cases result with
        | error e => exact hstage
        | ok staged =>
            refine hstage.trans fun c' hc' => ?_
            rw [(RemoteBlocklists.stage_inv hst).1]
            refine reaches_renameAll (Nat.zero_add _) (hc'.trans (if_neg ?_).symm)
            exact fun hlen => hne (List.length_eq_zero_iff.mp hlen)

/-- `load_paths`, with the files `rest` to read after it. -/
theorem reaches_loadPaths (disk : Disk) {paths : List Path} {rest : List (RuleTarget × Path)}
    {acc : BlocklistEngine × ParseReport}
    (hph : c.phase = .read (paths.map (l, ·) ++ rest) acc) :
    Reaches U b (.after (.read rest) (BlocklistEngine.loadPaths U disk l paths acc)) disk
      c disk := by
  induction paths generalizing c acc with
  | nil => exact .here hph
  | cons p paths ih =>
      rw [BlocklistEngine.loadPaths]
      cases htext : disk p with
      | none => exact .next _ (advance_read_failed hph) (.here rfl)
      | some text => exact .next _ (advance_read_ok hph htext) (ih rfl)

theorem reaches_fromSources (disk : Disk) (hph : c.phase = .read b.sources ({}, {})) :
    Reaches U b
      (.after (.read [])
        (BlocklistEngine.fromSources U disk b.allBlockPaths b.allAllowPaths)) disk c disk := by
  have hblock := reaches_loadPaths (U := U) (b := b) disk hph
  unfold BlocklistEngine.fromSources
  cases hload : BlocklistEngine.loadPaths U disk .block b.allBlockPaths ({}, {}) with
  | error e =>
      rw [hload] at hblock
      exact hblock
  | ok acc =>
      rw [hload] at hblock
      refine hblock.trans fun c' hc' => ?_
      exact reaches_loadPaths disk (hc'.trans (by rw [RefreshPhase.after, List.append_nil]))

/-- `refresh_and_reload` up to the write guard. -/
theorem reaches_refreshAndReload (hio : io.Decoded) (disk : Disk)
    (hph : c.phase = b.refreshBlock) :
    Reaches U b
      (.after (fun report => .read [] ((b.refreshAndReload U io disk).2.1.engine, report))
        (b.refreshAndReload U io disk).1)
      (b.refreshAndReload U io disk).2.2 c disk := by
  have hblock := reaches_refresh (U := U) (l := .block) hio disk hph
  unfold ReloadableBlocklist.refreshAndReload
  cases hb : b.remote.refresh io.block disk with
  | mk result disk₁ =>
      rw [show (b.list .block).refresh (io.list .block) disk = _ from hb] at hblock
      cases result with
      | error e => exact hblock
      | ok _ =>
          refine hblock.trans fun c₁ hc₁ => ?_
          have hallow := reaches_refresh (U := U) (l := .allow) hio disk₁ hc₁
          dsimp only
          cases ha : b.allowlistRemote.refresh io.allow disk₁ with
          | mk result disk₂ =>
              rw [show (b.list .allow).refresh (io.list .allow) disk₁ = _ from ha] at hallow
              cases result with
              | error e => exact hallow
              | ok _ =>
                  refine hallow.trans fun c₂ hc₂ => ?_
                  have hread := reaches_fromSources (U := U) disk₂ hc₂
                  dsimp only [ReloadableBlocklist.reload]
                  cases hs : BlocklistEngine.fromSources U disk₂ b.allBlockPaths
                      b.allAllowPaths with
                  | error e =>
                      rw [hs] at hread
                      exact hread
                  | ok acc =>
                      rw [hs] at hread
                      exact hread

end RefreshCall

/-! ## The call in the system -/

namespace ReloadableBlocklist

/-- An error keeps the engine. -/
theorem refreshAndReload_error {U : UnicodeCase} {b : ReloadableBlocklist} {io : ReloadIo}
    {disk : Disk} {e : BlocklistError} (h : (b.refreshAndReload U io disk).1 = .error e) :
    (b.refreshAndReload U io disk).2.1 = b := by
  unfold refreshAndReload at h ⊢
  split at h
  · rfl
  · split at h
    · rfl
    · split at h
      rename_i hreload
      unfold reload at hreload
      split at hreload
      · cases hreload
        rfl
      · cases hreload
        cases h

end ReloadableBlocklist

namespace RefreshState

variable {U : UnicodeCase} {b : ReloadableBlocklist}

/-- The operations of call `i` one after the other. -/
theorem run_reaches {ph : RefreshPhase} {disk' : Disk} {c : RefreshCall} {disk : Disk}
    (h : RefreshCall.Reaches U b ph disk' c disk) {s : RefreshState} {i : Nat}
    (hc : s.calls[i]? = some c) (hdisk : s.disk = disk)
    (hlock : s.lock = if c.phase.running then some i else none) :
    ∃ (answers : List IoAnswer) (c' : RefreshCall), c'.phase = ph ∧
      run (step U b) s (answers.map (.io i)) = some { s with
        disk := disk'
        lock := if ph.running then some i else none
        calls := s.calls.set i c' } := by
  induction h generalizing s with
  | here hph =>
      obtain ⟨hi, hget⟩ := List.getElem?_eq_some_iff.mp hc
      refine ⟨[], _, hph, ?_⟩
      rw [← hph, ← hlock, ← hdisk, ← hget, List.set_getElem_self]
      rfl
  | @next c c₁ disk disk₁ answer hadv _ ih =>
      have hrun := (RefreshCall.advances hadv).running.1
      rw [hrun, if_pos rfl] at hlock
      obtain ⟨answers, c', hph, hrest⟩ := ih (s := { s with
          disk := disk₁
          lock := if c₁.phase.running then some i else none
          calls := s.calls.set i c₁ }) (getElem?_set_of_some hc c₁) rfl rfl
      refine ⟨answer :: answers, c', hph, ?_⟩
      rw [List.map_cons, run_cons]
      have hstep : step U b s (.io i answer) = some { s with
          disk := disk₁
          lock := if c₁.phase.running then some i else none
          calls := s.calls.set i c₁ } := by
        simp only [step, hc, hdisk, hadv, hlock, Option.bind_eq_bind, Option.bind_some]
      rw [hstep, Option.bind_some, hrest]
      simp only [List.set_set]

section
variable {s : RefreshState} {i : Nat} {c : RefreshCall} {engine : BlocklistEngine}
  {report : ParseReport}

theorem step_swapBlocks (hc : s.calls[i]? = some c) (hph : c.phase = .read [] (engine, report))
    (hwriter : s.writer = none) (hreaders : ∀ r ∈ s.readers, r.phase.holds = false) :
    step U b s (.swap i) = some { s with
      writer := some i
      engine := { s.engine with blocks := engine.blocks }
      calls := s.calls.set i (c.goto (.swapping engine report)) } := by
  have hfree : (s.writer.isNone && !s.readers.any (·.phase.holds)) = true := by
    simpa [hwriter] using hreaders
  simp only [step, hc, hph, hfree, if_true, Option.bind_eq_bind, Option.bind_some]

theorem step_swapExceptions (hc : s.calls[i]? = some c)
    (hph : c.phase = .swapping engine report) :
    step U b s (.swap i) = some { s with
      writer := none
      lock := none
      engine := { s.engine with exceptions := engine.exceptions }
      calls := s.calls.set i (c.goto (.returned (.ok report)))
      versions := s.versions ++ [engine] } := by
  simp only [step, hc, hph, Option.bind_eq_bind, Option.bind_some]

/-- The two halves of the swap, with nobody in between. -/
theorem run_swap (hc : s.calls[i]? = some c) (hph : c.phase = .read [] (engine, report))
    (hwriter : s.writer = none) (hreaders : ∀ r ∈ s.readers, r.phase.holds = false) :
    run (step U b) s [.swap i, .swap i] = some { s with
      lock := none
      engine
      calls := s.calls.set i (c.goto (.returned (.ok report)))
      versions := s.versions ++ [engine] } := by
  rw [run_cons, step_swapBlocks hc hph hwriter hreaders, Option.bind_some, run_cons,
    step_swapExceptions (getElem?_set_of_some hc _) rfl, Option.bind_some, run_nil]
  simp only [RefreshCall.goto, List.set_set, hwriter]

end

/-- The engine of the configuration is the one it starts with, no more. -/
theorem step_engine (engine : BlocklistEngine) : step U { b with engine } = step U b := rfl

/-- **A call left alone is the function.** While nobody holds the lock or
a guard, a waiting call can run to its end; the result, the disk and the
engine are then those of `refreshAndReload` with the same answers. -/
theorem run_refreshAndReload {io : ReloadIo} (hio : io.Decoded) {s : RefreshState} {i : Nat}
    {c : RefreshCall} (hc : s.calls[i]? = some c) (hph : c.phase = .waiting)
    (hlock : s.lock = none) (hwriter : s.writer = none)
    (hreaders : ∀ r ∈ s.readers, r.phase.holds = false) :
    let out := { b with engine := s.engine }.refreshAndReload U io s.disk
    ∃ (es : List RefreshEvent) (c' : RefreshCall) (versions : List BlocklistEngine),
      c'.phase = .returned out.1 ∧
      run (step U b) s es = some { s with
        disk := out.2.2, engine := out.2.1.engine, calls := s.calls.set i c', versions } := by
  intro out
  let c₁ : RefreshCall := { c with phase := b.refreshBlock, before := s.engine }
  let s₁ : RefreshState := { s with lock := some i, calls := s.calls.set i c₁ }
  have hacquire : step U b s (.acquire i) = some s₁ := by
    simp only [step, hc, hph, hlock, Option.bind_eq_bind, Option.bind_some, s₁, c₁]
  have hreach := RefreshCall.reaches_refreshAndReload (U := U) (b := { b with engine := s.engine })
    (c := c₁) hio s.disk rfl
  obtain ⟨answers, c₂, hph₂, hrun⟩ := run_reaches hreach (s := s₁)
    (getElem?_set_of_some hc c₁) rfl (if_pos b.early_refreshBlock.running).symm
  rw [step_engine] at hrun
  have hstart : run (step U b) s (.acquire i :: answers.map (.io i)) =
      run (step U b) s₁ (answers.map (.io i)) := by
    rw [run_cons, hacquire, Option.bind_some]
  cases hout : out.1 with
  | error e =>
      have hkept : out.2.1.engine = s.engine := by
        rw [ReloadableBlocklist.refreshAndReload_error hout]
      rw [show _ = Except.error e from hout] at hph₂ hrun
      refine ⟨.acquire i :: answers.map (.io i), c₂, s.versions, hph₂, ?_⟩
      rw [hstart, hrun, hkept, hlock]
      simp only [s₁, List.set_set]
      rfl
  | ok report =>
      rw [show _ = Except.ok report from hout] at hph₂ hrun
      let s₂ : RefreshState := { s₁ with disk := out.2.2, calls := s₁.calls.set i c₂ }
      have hrun₂ : run (step U b) s₁ (answers.map (.io i)) = some s₂ := hrun
      have hlast : s₂.calls[i]? = some c₂ := getElem?_set_of_some (getElem?_set_of_some hc c₁) c₂
      have hswap := run_swap (U := U) (b := b) hlast hph₂ hwriter hreaders
      refine ⟨(.acquire i :: answers.map (.io i)) ++ [.swap i, .swap i],
        c₂.goto (.returned (.ok report)), s.versions ++ [out.2.1.engine], rfl, ?_⟩
      rw [run_append, hstart, hrun₂, Option.bind_some, hswap, hlock]
      simp only [s₂, s₁, List.set_set]
      rfl

end RefreshState

end Dotdns
