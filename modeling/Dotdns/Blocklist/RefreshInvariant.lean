import Dotdns.Blocklist.Refresh

/-!
# Blocklist — the invariant of overlapping refreshes

A call that holds `refresh_lock` is the only one that touches the download
directory and the only one that replaces the engine. The invariant says
what it has done so far, from the phase it stands at, and that nobody
reads an engine that is half replaced.
-/

namespace Dotdns

open Lib

/-! ## What a call that holds the lock has done so far -/

/-- How many downloads of list `l'` are staged, and how many renamed, while
no operation on list `l` is done yet. -/
def ReloadableBlocklist.earlier (b : ReloadableBlocklist) : RuleTarget → RuleTarget → Nat × Nat
  | .allow, .block => (b.remote.urls.length, b.remote.urls.length)
  | _, _ => (0, 0)

namespace RefreshPhase

/-- How many downloads of a list are staged, and how many renamed. -/
def progress (b : ReloadableBlocklist) : RefreshPhase → RuleTarget → Nat × Nat
  | .createDir l, l' | .buildClient l, l' => b.earlier l l'
  | .download l idx, l' | .stage l idx _, l' => if l' = l then (idx, 0) else b.earlier l l'
  | .rename l idx, l' =>
      if l' = l then ((b.list l).urls.length, idx) else b.earlier l l'
  | .read _ _, l' | .swapping _ _, l' => ((b.list l').urls.length, (b.list l').urls.length)
  | .waiting, _ | .returned _, _ | .cancelled, _ => (0, 0)

end RefreshPhase

/-- What the texts read so far amount to. -/
def loadReads (U : UnicodeCase) (reads : List ((RuleTarget × Path) × Str)) :
    BlocklistEngine × ParseReport :=
  reads.foldl (fun acc x => (lines x.2).foldl (BlocklistEngine.loadLine U x.1.1) acc) ({}, {})

/-- The file download `k` of list `l` is in. -/
def ReloadableBlocklist.fileOf (b : ReloadableBlocklist) (l : RuleTarget) (k renamed : Nat) :
    Path :=
  if k < renamed then (b.list l).pathFor k else (b.list l).tmpPathFor k

/-- The engine is still the one the call found, or half replaced; the
files of the download directory hold this call's bodies; what has been
read is a prefix of the sources, with these bodies at their paths. -/
structure RefreshCall.Ok (U : UnicodeCase) (b : ReloadableBlocklist) (engine : BlocklistEngine)
    (disk : Disk) (c : RefreshCall) : Prop where
  kept : c.phase.isSwapping = false → engine = c.before
  half : c.phase.isSwapping = true → engine.blocks = c.phase.building.1.blocks
  urls : ∀ l, (c.bodies l).map Prod.fst = (b.list l).urls.take (c.phase.progress b l).1
  files : ∀ l k body, (c.bodies l)[k]? = some body →
    disk (b.fileOf l k (c.phase.progress b l).2) = some (fromUtf8Lossy body.2)
  sources : c.reads.map Prod.fst ++ c.phase.unread b = b.sources
  texts : ∀ l k body text, (c.bodies l)[k]? = some body →
    ((l, (b.list l).pathFor k), text) ∈ c.reads → text = fromUtf8Lossy body.2
  built : c.phase.building = loadReads U c.reads

namespace ReloadableBlocklist

variable (b : ReloadableBlocklist)

theorem progress_refreshAllow (l : RuleTarget) :
    b.refreshAllow.progress b l = b.earlier .allow l := by
  unfold refreshAllow
  split
  · rename_i h
    cases l <;> simp [RefreshPhase.progress, earlier, list, h]
  · rfl

theorem progress_refreshBlock (l : RuleTarget) :
    b.refreshBlock.progress b l = b.earlier .block l := by
  unfold refreshBlock
  split
  · rename_i h
    rw [progress_refreshAllow]
    cases l <;> simp [earlier, h]
  · rfl

/-- A list that is through is staged and renamed whole; the other is as
far as it was. -/
theorem progress_afterRefresh (l l' : RuleTarget) :
    (b.afterRefresh l).progress b l' =
      if l' = l then ((b.list l).urls.length, (b.list l).urls.length) else b.earlier l l' := by
  cases l with
  | block =>
      rw [afterRefresh, progress_refreshAllow]
      cases l' <;> rfl
  | allow => cases l' <;> rfl

theorem progress_afterStage {l : RuleTarget} {idx : Nat} (h : idx < (b.list l).urls.length)
    (l' : RuleTarget) :
    (b.afterStage l idx).progress b l' = if l' = l then (idx + 1, 0) else b.earlier l l' := by
  unfold afterStage
  split
  · rfl
  · have hlen : (b.list l).urls.length = idx + 1 := by omega
    rw [RefreshPhase.progress, hlen]

theorem progress_afterRename (l : RuleTarget) (idx : Nat) (l' : RuleTarget) :
    (b.afterRename l idx).progress b l' =
      if l' = l then ((b.list l).urls.length, min (idx + 1) (b.list l).urls.length)
      else b.earlier l l' := by
  unfold afterRename
  split
  · rename_i hlt
    rw [RefreshPhase.progress, Nat.min_eq_left (by omega)]
  · rw [progress_afterRefresh, Nat.min_eq_right (by omega)]

variable {b}

/-- Where a download is, no other download is staged. -/
theorem Separate.fileOf_ne_tmp (hb : b.Separate) {l l' : RuleTarget} {k idx renamed : Nat}
    (h : l = l' → k = idx → k < renamed) :
    b.fileOf l k renamed ≠ (b.list l').tmpPathFor idx := by
  unfold fileOf
  split
  · exact RemoteBlocklists.pathFor_ne_tmpPathFor _ _ k idx
  · rename_i hk
    intro heq
    obtain ⟨hl, _, hi⟩ := hb.fileFor_inj rfl heq
    exact hk (h hl hi)

/-- Where a download is, no other download is renamed to. -/
theorem Separate.fileOf_ne_path (hb : b.Separate) {l l' : RuleTarget} {k idx renamed : Nat}
    (h : l = l' → k ≠ idx) : b.fileOf l k renamed ≠ (b.list l').pathFor idx := by
  unfold fileOf
  split
  · intro heq
    obtain ⟨hl, _, hi⟩ := hb.fileFor_inj rfl heq
    exact h hl hi
  · exact fun heq => RemoteBlocklists.pathFor_ne_tmpPathFor _ _ idx k heq.symm

end ReloadableBlocklist

namespace RefreshCall.Ok

variable {U : UnicodeCase} {b : ReloadableBlocklist} {engine : BlocklistEngine}
  {disk disk' : Disk} {c c' : RefreshCall} {answer : IoAnswer}

theorem reads_nil (h : c.Ok U b engine disk) (he : c.phase.Early b) : c.reads = [] := by
  have hs := h.sources
  rw [he.unread] at hs
  simpa using hs

/-- From one operation of the refreshes to the next, only the downloads
change. -/
theorem early (h : c.Ok U b engine disk) (he : c.phase.Early b) (he' : c'.phase.Early b)
    (hbefore : c'.before = c.before) (hreads : c'.reads = c.reads)
    (hurls : ∀ l, (c'.bodies l).map Prod.fst = (b.list l).urls.take (c'.phase.progress b l).1)
    (hfiles : ∀ l k body, (c'.bodies l)[k]? = some body →
      disk' (b.fileOf l k (c'.phase.progress b l).2) = some (fromUtf8Lossy body.2)) :
    c'.Ok U b engine disk' where
  kept _ := by
    rw [hbefore]
    exact h.kept he.swapping
  half hs := by
    rw [he'.swapping] at hs
    cases hs
  urls := hurls
  files := hfiles
  sources := by
    rw [hreads, h.reads_nil he, he'.unread]
    rfl
  texts l k body text _ hmem := by
    rw [hreads, h.reads_nil he] at hmem
    cases hmem
  built := by
    rw [he'.building, hreads, h.reads_nil he]
    rfl

theorem goto {ph : RefreshPhase} (h : c.Ok U b engine disk) (he : c.phase.Early b)
    (he' : ph.Early b) (hp : ∀ l, ph.progress b l = c.phase.progress b l) :
    (c.goto ph).Ok U b engine disk := by
  refine h.early he he' rfl rfl ?_ ?_
  · intro l
    show (c.bodies l).map Prod.fst = (b.list l).urls.take (ph.progress b l).1
    rw [hp l]
    exact h.urls l
  · intro l k body hk
    show disk (b.fileOf l k (ph.progress b l).2) = _
    rw [hp l]
    exact h.files l k body hk

/-- The index of a staged body is below the number of staged downloads. -/
theorem lt_of_body (h : c.Ok U b engine disk) {l : RuleTarget} {k : Nat}
    {body : Str × List UInt8} (hk : (c.bodies l)[k]? = some body) :
    k < (c.phase.progress b l).1 ∧ k < (b.list l).urls.length := by
  have hlen := congrArg List.length (h.urls l)
  have hlt := (List.getElem?_eq_some_iff.mp hk).1
  rw [List.length_map, List.length_take] at hlen
  omega

theorem length_of_stage (h : c.Ok U b engine disk) {l : RuleTarget} {idx : Nat}
    {body : List UInt8} {url : Str} (hph : c.phase = .stage l idx body)
    (hurl : (b.list l).urls[idx]? = some url) : (c.bodies l).length = idx := by
  have hidx := (List.getElem?_eq_some_iff.mp hurl).1
  have hlen := congrArg List.length (h.urls l)
  rw [hph, RefreshPhase.progress, if_pos rfl, List.length_map, List.length_take] at hlen
  omega

/-- A body is written to its temporary file. -/
theorem stage (hb : b.Separate) (h : c.Ok U b engine disk) {l : RuleTarget} {idx : Nat}
    {body : List UInt8} {url : Str} (hph : c.phase = .stage l idx body)
    (hurl : (b.list l).urls[idx]? = some url) :
    ((c.keepBody l url body).goto (b.afterStage l idx)).Ok U b engine
      (disk.set ((b.list l).tmpPathFor idx) (some (fromUtf8Lossy body))) := by
  have hidx := (List.getElem?_eq_some_iff.mp hurl).1
  have hprog : ∀ l', c.phase.progress b l' = if l' = l then (idx, 0) else b.earlier l l' := by
    intro l'
    rw [hph]
    rfl
  have hlen := h.length_of_stage hph hurl
  refine h.early (by rw [hph]; exact ⟨rfl, rfl, rfl, rfl⟩) (b.early_afterStage l idx) rfl rfl
    ?_ ?_
  -- the addresses fetched so far: one more for this list, the others' as before
  · intro l'
    show (if l' = l then c.bodies l' ++ [(url, body)] else c.bodies l').map Prod.fst =
      (b.list l').urls.take ((b.afterStage l idx).progress b l').1
    have hurls := h.urls l'
    rw [hprog] at hurls
    rw [b.progress_afterStage hidx]
    split
    · rename_i hl
      subst hl
      rw [if_pos rfl] at hurls
      rw [List.map_append, hurls, List.take_add_one, hurl]
      rfl
    · rename_i hl
      rwa [if_neg hl] at hurls
  · intro l' k body' hk
    change (if l' = l then c.bodies l' ++ [(url, body)] else c.bodies l')[k]? = some body' at hk
    show disk.set _ _ (b.fileOf l' k ((b.afterStage l idx).progress b l').2) = _
    rw [b.progress_afterStage hidx]
    -- what was downloaded earlier stays: none of it is kept under this temporary path
    have hold : (c.bodies l')[k]? = some body' → ¬ (l' = l ∧ k = idx) →
        disk.set ((b.list l).tmpPathFor idx) (some (fromUtf8Lossy body))
            (b.fileOf l' k (if l' = l then (idx + 1, 0) else b.earlier l l').2) =
          some (fromUtf8Lossy body'.2) := by
      intro hk hne
      have hfile := h.files l' k body' hk
      rw [hprog] at hfile
      rw [Disk.set_of_ne (hb.fileOf_ne_tmp fun h1 h2 => absurd ⟨h1, h2⟩ hne)]
      split at hfile
      · rename_i hl
        rw [if_pos hl]
        exact hfile
      · rename_i hl
        rw [if_neg hl]
        exact hfile
    by_cases hl : l' = l
    · subst hl
      rw [if_pos rfl] at hk ⊢
      rcases getElem?_concat_eq_some.mp hk with hk | ⟨hlast, rfl⟩
      · have hlt := (List.getElem?_eq_some_iff.mp hk).1
        have := hold hk (by omega)
        rwa [if_pos rfl] at this
      · rw [hlast, hlen]
        exact Disk.set_self _ _ _
    · rw [if_neg hl] at hk
      exact hold hk fun hh => hl hh.1

/-- A temporary file becomes the list file of its download. -/
theorem rename (hb : b.Separate) (h : c.Ok U b engine disk) {l : RuleTarget} {idx : Nat}
    {text : Str} (hph : c.phase = .rename l idx)
    (htext : disk ((b.list l).tmpPathFor idx) = some text) :
    (c.goto (b.afterRename l idx)).Ok U b engine
      ((disk.set ((b.list l).pathFor idx) (some text)).set ((b.list l).tmpPathFor idx) none) := by
  have hprog : ∀ l', c.phase.progress b l' =
      if l' = l then ((b.list l).urls.length, idx) else b.earlier l l' := by
    intro l'
    rw [hph]
    rfl
  refine h.early (by rw [hph]; exact ⟨rfl, rfl, rfl, rfl⟩) (b.early_afterRename l idx) rfl rfl
    ?_ ?_
  · intro l'
    show (c.bodies l').map Prod.fst =
      (b.list l').urls.take ((b.afterRename l idx).progress b l').1
    rw [h.urls, hprog, b.progress_afterRename]
    split <;> rfl
  · intro l' k body hk
    have hfile := h.files l' k body hk
    have hlt := (h.lt_of_body hk).2
    rw [hprog] at hfile
    show ((disk.set _ _).set _ _) (b.fileOf l' k ((b.afterRename l idx).progress b l').2) = _
    rw [b.progress_afterRename]
    by_cases hl : l' = l
    · subst hl
      rw [if_pos rfl] at hfile ⊢
      have hne : b.fileOf l' k (min (idx + 1) (b.list l').urls.length) ≠
          (b.list l').tmpPathFor idx := hb.fileOf_ne_tmp fun _ _ => by omega
      rw [Disk.set_of_ne hne]
      by_cases hk : k = idx
      · subst hk
        rw [ReloadableBlocklist.fileOf, if_pos (by omega), Disk.set_self, ← htext, ← hfile,
          ReloadableBlocklist.fileOf, if_neg (by omega)]
      · rw [Disk.set_of_ne (hb.fileOf_ne_path fun _ => hk), ← hfile,
          ReloadableBlocklist.fileOf, ReloadableBlocklist.fileOf]
        congr 2
        exact propext (by omega)
    · rw [if_neg hl] at hfile ⊢
      rw [Disk.set_of_ne (hb.fileOf_ne_tmp fun h' => absurd h' hl),
        Disk.set_of_ne (hb.fileOf_ne_path fun h' => absurd h' hl), hfile]

/-- A file is read: a download's file holds this call's body. -/
theorem read (h : c.Ok U b engine disk) {l : RuleTarget} {p : Path}
    {todo : List (RuleTarget × Path)} {acc : BlocklistEngine × ParseReport} {text : Str}
    (hph : c.phase = .read ((l, p) :: todo) acc) (htext : disk p = some text) :
    RefreshCall.Ok U b engine disk
      { c with
        phase := .read todo ((lines text).foldl (BlocklistEngine.loadLine U l) acc)
        reads := c.reads ++ [((l, p), text)] } where
  kept _ := h.kept (by rw [hph]; rfl)
  half hs := by cases hs
  urls l' := by
    have := h.urls l'
    rw [hph] at this
    exact this
  files l' k body hk := by
    have := h.files l' k body hk
    rw [hph] at this
    exact this
  sources := by
    have := h.sources
    rw [hph] at this
    rw [List.map_append, List.append_assoc]
    exact this
  texts l' k body text' hk hmem := by
    rcases List.mem_append.mp hmem with hmem | hmem
    · exact h.texts l' k body text' hk hmem
    · obtain ⟨⟨rfl, rfl⟩, rfl⟩ := by simpa using hmem
      have hfile := h.files l' k body hk
      have hlt := (h.lt_of_body hk).2
      rw [hph, RefreshPhase.progress, ReloadableBlocklist.fileOf, if_pos hlt, htext] at hfile
      exact Option.some_inj.mp hfile
  built := by
    have := h.built
    rw [hph] at this
    rw [loadReads, List.foldl_append, ← loadReads, ← this]
    rfl

theorem advance (hb : b.Separate) (h : c.Ok U b engine disk)
    (hadv : RefreshCall.Advances U b disk c answer c' disk') (hrun : c'.phase.running = true) :
    c'.Ok U b engine disk' := by
  cases hadv with
  | fail e => cases hrun
  | createDir l hph =>
      refine h.goto (by rw [hph]; exact ⟨rfl, rfl, rfl, rfl⟩) ⟨rfl, rfl, rfl, rfl⟩ ?_
      intro l'
      rw [hph]
      rfl
  | buildClient l hph =>
      refine h.goto (by rw [hph]; exact ⟨rfl, rfl, rfl, rfl⟩) ⟨rfl, rfl, rfl, rfl⟩ ?_
      intro l'
      rw [hph, RefreshPhase.progress, RefreshPhase.progress]
      split
      · rename_i hl
        subst hl
        cases l' <;> rfl
      · rfl
  | download l idx bytes hph hans =>
      refine h.goto (by rw [hph]; exact ⟨rfl, rfl, rfl, rfl⟩) ⟨rfl, rfl, rfl, rfl⟩ ?_
      intro l'
      rw [hph]
      rfl
  | stage l idx body url hph hurl => exact h.stage hb hph hurl
  | rename l idx text hph htext => exact h.rename hb hph htext
  | read l p todo acc text hph htext => exact h.read hph htext

/-- The first moment with the lock. -/
theorem acquired (hreads : c.reads = []) (hbodies : ∀ l, c.bodies l = []) :
    RefreshCall.Ok U b engine disk { c with phase := b.refreshBlock, before := engine } where
  kept _ := rfl
  half hs := by
    rw [b.early_refreshBlock.swapping] at hs
    cases hs
  urls l := by
    show (c.bodies l).map Prod.fst = (b.list l).urls.take (b.refreshBlock.progress b l).1
    rw [hbodies, b.progress_refreshBlock]
    cases l <;> rfl
  files l k body hk := by
    change (c.bodies l)[k]? = some body at hk
    rw [hbodies] at hk
    cases hk
  sources := by
    rw [hreads, b.early_refreshBlock.unread]
    rfl
  texts l k body text _ hmem := by
    rw [hreads] at hmem
    cases hmem
  built := by
    rw [b.early_refreshBlock.building, hreads]
    rfl

/-- Files that are no download's do not matter. -/
theorem congr_disk (h : c.Ok U b engine disk)
    (hdisk : ∀ l k, disk' ((b.list l).pathFor k) = disk ((b.list l).pathFor k) ∧
      disk' ((b.list l).tmpPathFor k) = disk ((b.list l).tmpPathFor k)) :
    c.Ok U b engine disk' where
  __ := h
  files l k body hk := by
    rw [← h.files l k body hk]
    unfold ReloadableBlocklist.fileOf
    split
    · exact (hdisk l k).1
    · exact (hdisk l k).2

end RefreshCall.Ok

/-! ## The invariant -/

namespace RefreshState

variable {U : UnicodeCase} {b : ReloadableBlocklist} {s s' : RefreshState} {ev : RefreshEvent}

variable (U b) in
/-- The invariant of the two locks. -/
structure Inv (s : RefreshState) : Prop where
  fresh : ∀ (i : Nat) (c : RefreshCall), s.calls[i]? = some c → c.phase = .waiting →
    c.reads = [] ∧ ∀ l, c.bodies l = []
  running : ∀ (i : Nat) (c : RefreshCall), s.calls[i]? = some c → c.phase.running = true →
    s.lock = some i ∧ c.Ok U b s.engine s.disk
  writing : ∀ (i : Nat) (c : RefreshCall), s.calls[i]? = some c →
    (c.phase.isSwapping = true ↔ s.writer = some i)
  writer : ∀ i, s.writer = some i → i < s.calls.length
  current : s.writer = none → s.versions.getLast? = some s.engine
  readers : ∀ r ∈ s.readers, r.phase.holds = true → s.writer = none
  blocks : ∀ r ∈ s.readers, r.phase = .blocks →
    BlocklistEngine.ruleMatches s.engine.exceptions (normalizeDomain U r.domain) = false

theorem start_inv (disk : Disk) : Inv U b (start b disk) where
  fresh i c hc := by simp [start] at hc
  running i c hc := by simp [start] at hc
  writing i c hc := by simp [start] at hc
  writer i hw := by cases hw
  current _ := rfl
  readers r hr := by cases hr
  blocks r hr := by cases hr

/-- At most one call runs. -/
theorem Inv.only (h : Inv U b s) {i j : Nat} {c d : RefreshCall} (hc : s.calls[i]? = some c)
    (hrun : c.phase.running = true) (hd : s.calls[j]? = some d)
    (hrun' : d.phase.running = true) : j = i := by
  have hi := (h.running i c hc hrun).1
  have hj := (h.running j d hd hrun').1
  rw [hi] at hj
  exact (Option.some_inj.mp hj).symm

/-- A call that moves is not waiting, and the others have not moved. -/
theorem Inv.fresh_set (h : Inv U b s) {i : Nat} {c' : RefreshCall} (hwait : c'.phase ≠ .waiting) :
    ∀ (j : Nat) (d : RefreshCall), (s.calls.set i c')[j]? = some d → d.phase = .waiting →
      d.reads = [] ∧ ∀ l, d.bodies l = [] := by
  intro j d hd hph
  rcases getElem?_set_eq_some.mp hd with ⟨_, hd⟩ | ⟨rfl, _, rfl⟩
  · exact h.fresh j d hd hph
  · exact absurd hph hwait

/-- After a step of the call that runs, it is the one that runs, if any
does. -/
theorem Inv.of_running_set (h : Inv U b s) {i j : Nat} {c c' d : RefreshCall}
    (hc : s.calls[i]? = some c) (hrun : c.phase.running = true)
    (hd : (s.calls.set i c')[j]? = some d) (hrun' : d.phase.running = true) : j = i ∧ d = c' := by
  rcases getElem?_set_eq_some.mp hd with ⟨hj, hd⟩ | ⟨hj, _, hd⟩
  · exact absurd (h.only hc hrun hd hrun') hj
  · exact ⟨hj, hd⟩

/-- A call moves outside the swap. -/
theorem Inv.set_call (h : Inv U b s) {i : Nat} {c c' : RefreshCall} {lock : Option Nat}
    {disk : Disk} (hc : s.calls[i]? = some c) (hwait : c'.phase ≠ .waiting)
    (hswap : c'.phase.isSwapping = c.phase.isSwapping)
    (hrun : c'.phase.running = true → lock = some i ∧ c'.Ok U b s.engine disk)
    (hothers : ∀ (j : Nat) (d : RefreshCall), j ≠ i → s.calls[j]? = some d →
      d.phase.running = true → lock = some j ∧ d.Ok U b s.engine disk) :
    Inv U b { s with lock, disk, calls := s.calls.set i c' } where
  fresh := h.fresh_set hwait
  running j d hd hr := by
    rcases getElem?_set_eq_some.mp hd with ⟨hj, hd⟩ | ⟨rfl, _, rfl⟩
    · exact hothers j d hj hd hr
    · exact hrun hr
  writing j d hd := by
    rcases getElem?_set_eq_some.mp hd with ⟨_, hd⟩ | ⟨rfl, _, rfl⟩
    · exact h.writing j d hd
    · rw [hswap]
      exact h.writing j c hc
  writer j hw := by
    rw [List.length_set]
    exact h.writer j hw
  current := h.current
  readers := h.readers
  blocks := h.blocks

/-- The write guard is taken and the block rules replaced. -/
theorem Inv.swapBlocks (h : Inv U b s) {i : Nat} {c : RefreshCall} {engine : BlocklistEngine}
    {report : ParseReport} (hc : s.calls[i]? = some c)
    (hph : c.phase = .read [] (engine, report)) (hw : s.writer = none)
    (hr : ∀ r ∈ s.readers, r.phase.holds = false) :
    Inv U b { s with
      writer := some i
      engine := { s.engine with blocks := engine.blocks }
      calls := s.calls.set i (c.goto (.swapping engine report)) } := by
  have hrun : c.phase.running = true := by rw [hph]; rfl
  obtain ⟨hlock, hok⟩ := h.running i c hc hrun
  constructor
  case fresh => exact h.fresh_set RefreshPhase.noConfusion
  case running =>
    intro j d hd hrun'
    obtain ⟨rfl, rfl⟩ := h.of_running_set hc hrun hd hrun'
    refine ⟨hlock, ?_⟩
    have hurls := hok.urls
    have hfiles := hok.files
    have hsources := hok.sources
    have hbuilt := hok.built
    rw [hph] at hurls hfiles hsources hbuilt
    exact ⟨fun hs => by (cases hs), fun _ => rfl, hurls, hfiles, hsources, hok.texts, hbuilt⟩
  case writing =>
    intro j d hd
    rcases getElem?_set_eq_some.mp hd with ⟨hj, hd⟩ | ⟨rfl, _, rfl⟩
    · have hd' := h.writing j d hd
      rw [hw] at hd'
      rw [hd']
      exact iff_of_false (fun h' => by cases h') fun h' => hj (Option.some_inj.mp h').symm
    · exact iff_of_true rfl rfl
  case writer =>
    intro j hj
    cases hj
    rw [List.length_set]
    exact (List.getElem?_eq_some_iff.mp hc).1
  case current =>
    intro hnone
    cases hnone
  case readers =>
    intro r hmem hholds
    rw [hr r hmem] at hholds
    cases hholds
  case blocks =>
    intro r hmem hblocks
    have hholds := hr r hmem
    rw [hblocks] at hholds
    cases hholds

/-- The exceptions are replaced too: the engine is the new one whole. -/
theorem Inv.swapped_eq (h : Inv U b s) {i : Nat} {c : RefreshCall} {engine : BlocklistEngine}
    {report : ParseReport} (hc : s.calls[i]? = some c)
    (hph : c.phase = .swapping engine report) :
    (⟨s.engine.blocks, engine.exceptions⟩ : BlocklistEngine) = engine := by
  have hok := (h.running i c hc (by rw [hph]; rfl)).2
  have hblocks := hok.half (by rw [hph]; rfl)
  rw [hph] at hblocks
  rw [hblocks]
  rfl

theorem Inv.swapExceptions (h : Inv U b s) {i : Nat} {c : RefreshCall}
    {engine : BlocklistEngine} {report : ParseReport} (hc : s.calls[i]? = some c)
    (hph : c.phase = .swapping engine report) :
    Inv U b { s with
      writer := none
      lock := none
      engine := { s.engine with exceptions := engine.exceptions }
      calls := s.calls.set i (c.goto (.returned (.ok report)))
      versions := s.versions ++ [engine] } := by
  have hrun : c.phase.running = true := by rw [hph]; rfl
  have hw : s.writer = some i := (h.writing i c hc).mp (by rw [hph]; rfl)
  rw [h.swapped_eq hc hph]
  constructor
  case fresh => exact h.fresh_set RefreshPhase.noConfusion
  case running =>
    intro j d hd hrun'
    obtain ⟨rfl, rfl⟩ := h.of_running_set hc hrun hd hrun'
    cases hrun'
  case writing =>
    intro j d hd
    rcases getElem?_set_eq_some.mp hd with ⟨hj, hd⟩ | ⟨rfl, _, rfl⟩
    · have hd' := h.writing j d hd
      rw [hw] at hd'
      rw [hd']
      exact iff_of_false (fun h' => hj (Option.some_inj.mp h').symm) fun h' => by cases h'
    · exact iff_of_false (fun h' => by cases h') fun h' => by cases h'
  case writer =>
    intro j hj
    cases hj
  case current =>
    intro _
    exact List.getLast?_concat
  case readers =>
    intro _ _ _
    rfl
  case blocks =>
    intro r hmem hblocks
    have hnone := h.readers r hmem (by rw [hblocks]; rfl)
    rw [hw] at hnone
    cases hnone

theorem Inv.readers_set (h : Inv U b s) {k : Nat} {r : Reader}
    (hholds : r.phase.holds = true → s.writer = none)
    (hblocks : r.phase = .blocks →
      BlocklistEngine.ruleMatches s.engine.exceptions (normalizeDomain U r.domain) = false) :
    Inv U b { s with readers := s.readers.set k r } where
  __ := h
  readers r' hr' hh := by
    rcases List.mem_or_eq_of_mem_set hr' with hr' | rfl
    · exact h.readers r' hr' hh
    · exact hholds hh
  blocks r' hr' hph := by
    rcases List.mem_or_eq_of_mem_set hr' with hr' | rfl
    · exact h.blocks r' hr' hph
    · exact hblocks hph

/-- Every step keeps the invariant, as long as nobody else writes the
downloads' files. -/
theorem Inv.step (hb : b.Separate) (h : Inv U b s) (hst : Steps U b s ev s')
    (hedit : ∀ p content, ev = .edit p content → b.NotDownload p) : Inv U b s' := by
  cases hst with
  | call =>
      constructor
      case fresh =>
        intro j d hd hph
        rcases getElem?_concat_eq_some.mp hd with hd | ⟨_, rfl⟩
        · exact h.fresh j d hd hph
        · exact ⟨rfl, fun _ => rfl⟩
      case running =>
        intro j d hd hrun
        rcases getElem?_concat_eq_some.mp hd with hd | ⟨_, rfl⟩
        · exact h.running j d hd hrun
        · cases hrun
      case writing =>
        intro j d hd
        rcases getElem?_concat_eq_some.mp hd with hd | ⟨rfl, rfl⟩
        · exact h.writing j d hd
        -- the writer is an older call, so never the new one
        · refine iff_of_false (fun h' => by cases h') fun hw => ?_
          exact absurd (h.writer _ hw) (Nat.lt_irrefl _)
      case writer =>
        intro j hw
        have := h.writer j hw
        rw [List.length_append]
        omega
      case current => exact h.current
      case readers => exact h.readers
      case blocks => exact h.blocks
  | acquire i c hc hph hlock =>
      obtain ⟨hreads, hbodies⟩ := h.fresh i c hc hph
      have hearly := b.early_refreshBlock
      refine h.set_call hc (fun hw => ?_) ?_ (fun _ => ⟨rfl, .acquired hreads hbodies⟩) ?_
      · have := hearly.running
        rw [show b.refreshBlock = .waiting from hw] at this
        cases this
      · rw [hph]
        exact hearly.swapping
      -- the lock was free, so no other call is running
      · intro j d _ hd hrun
        have := (h.running j d hd hrun).1
        rw [hlock] at this
        cases this
  | io i answer c c' disk hc hadv =>
      obtain ⟨hrun, hswap⟩ := hadv.running
      obtain ⟨hlock, hok⟩ := h.running i c hc hrun
      refine h.set_call hc ?_ ?_ ?_ ?_
      · intro hwait
        rcases hadv.outcome with h' | ⟨e, h'⟩
        · rw [hwait] at h'
          cases h'
        · rw [hwait] at h'
          cases h'
      · rw [hswap]
        exact hadv.not_swapping
      · intro hrun'
        rw [if_pos hrun']
        exact ⟨hlock, hok.advance hb hadv hrun'⟩
      -- only one call runs at a time
      · intro j d hj hd hrun'
        exact absurd (h.only hc hrun hd hrun') hj
  | swapBlocks i c engine report hc hph hw hr => exact h.swapBlocks hc hph hw hr
  | swapExceptions i c engine report hc hph => exact h.swapExceptions hc hph
  | cancelWaiting i c hc hph =>
      refine h.set_call hc (fun hw => by cases hw) (by rw [hph]; rfl) (fun hr => by cases hr) ?_
      intro j d _ hd hrun
      exact h.running j d hd hrun
  | cancelDownload i c l idx hc hph =>
      have hrun : c.phase.running = true := by rw [hph]; rfl
      refine h.set_call hc (fun hw => by cases hw) (by rw [hph]; rfl) (fun hr => by cases hr) ?_
      intro j d hj hd hrun'
      exact absurd (h.only hc hrun hd hrun') hj
  | edit p content =>
      -- no download is edited, so what the running call has written still stands
      have hp := hedit p content rfl
      refine { h with running := ?_ }
      intro i c hc hrun
      obtain ⟨hlock, hok⟩ := h.running i c hc hrun
      refine ⟨hlock, hok.congr_disk fun l k => ?_⟩
      exact ⟨Disk.set_of_ne (hp l k).1.symm _, Disk.set_of_ne (hp l k).2.symm _⟩
  | decide domain =>
      refine { h with readers := ?_, blocks := ?_ }
      · intro r hr hholds
        rcases List.mem_append.mp hr with hr | hr
        · exact h.readers r hr hholds
        · cases List.mem_singleton.mp hr
          cases hholds
      · intro r hr hph
        rcases List.mem_append.mp hr with hr | hr
        · exact h.blocks r hr hph
        · cases List.mem_singleton.mp hr
          cases hph
  | readLock k r hr hph hw => exact h.readers_set (fun _ => hw) fun hb => by cases hb
  | look k r r' hr hlook =>
      have hmem := List.mem_of_getElem? hr
      -- a reader that looks holds the lock, so nobody is writing
      have hnone := h.readers r hmem (Reader.look_holds hlook)
      rcases Reader.look_cases hlook with ⟨_, _, rfl⟩ | ⟨_, hmatch, rfl⟩ | ⟨_, rfl⟩
      · exact h.readers_set (fun _ => hnone) fun hb => by cases hb
      · exact h.readers_set (fun _ => hnone) fun _ => hmatch
      · exact h.readers_set (fun _ => hnone) fun hb => by cases hb

end RefreshState

end Dotdns
