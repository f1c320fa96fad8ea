import Mathlib.Data.List.Forall2
import Dotdns.Blocklist.RefreshInvariant

/-!
# Blocklist — every run of overlapping refreshes

The texts a call has read make up the engine it installs, and each is a
body the call downloaded or a local file as it stood when it was read.
The headline collects what holds in every state of every run.
-/

namespace Dotdns

open Lib

/-! ## What the texts amount to -/

section
variable {U : UnicodeCase}

theorem foldl_reads {t : RuleTarget} {reads : List ((RuleTarget × Path) × Str)}
    (ht : ∀ x ∈ reads, x.1.1 = t) (e : BlocklistEngine) (r : ParseReport) :
    reads.foldl (fun acc x => (lines x.2).foldl (BlocklistEngine.loadLine U x.1.1) acc) (e, r) =
      (e.addLines U t ((reads.map Prod.snd).flatMap lines),
        r.addLines U ((reads.map Prod.snd).flatMap lines)) := by
  induction reads generalizing e r with
  | nil =>
      have h := BlocklistEngine.foldl_loadLine (U := U) t e r []
      exact h
  | cons x reads ih =>
      obtain ⟨hx, ht⟩ := List.forall_mem_cons.mp ht
      rw [List.foldl_cons, hx, BlocklistEngine.foldl_loadLine, ih ht,
        ← BlocklistEngine.addLines_append, ← BlocklistEngine.report_addLines_append]
      rfl

/-- Block files first, then allow files: the engine of their lines. -/
theorem loadReads_eq {rb ra : List ((RuleTarget × Path) × Str)}
    (hb : ∀ x ∈ rb, x.1.1 = .block) (ha : ∀ x ∈ ra, x.1.1 = .allow) :
    loadReads U (rb ++ ra) =
      (engineOf U ((rb.map Prod.snd).flatMap lines) ((ra.map Prod.snd).flatMap lines),
        reportOf U ((rb.map Prod.snd).flatMap lines ++ (ra.map Prod.snd).flatMap lines)) := by
  rw [loadReads, List.foldl_append, foldl_reads hb, foldl_reads ha]
  simp [BlocklistEngine.addLines, ParseReport.addLines, engineOf, reportOf]

end

namespace ReloadableBlocklist

/-- The configured files of one kind of rules. -/
def localPaths (b : ReloadableBlocklist) : RuleTarget → List Path
  | .block => b.paths
  | .allow => b.allowlistPaths

end ReloadableBlocklist

/-- What a call has read for one kind of rules: the local files, and then
its own downloads. -/
theorem RefreshCall.Ok.split_reads {U : UnicodeCase} {b : ReloadableBlocklist}
    {engine : BlocklistEngine} {disk : Disk} {c : RefreshCall} (h : c.Ok U b engine disk)
    {l : RuleTarget} {rs : List ((RuleTarget × Path) × Str)} (hrs : ∀ x ∈ rs, x ∈ c.reads)
    (hfst : rs.map Prod.fst = (b.localPaths l ++ (b.list l).paths).map (l, ·))
    (hbodies : (c.bodies l).length = (b.list l).urls.length) {OnDisk : Path → Str → Prop}
    (hdisk : ∀ x ∈ c.reads, OnDisk x.1.2 x.2) :
    ∃ locals, List.Forall₂ OnDisk (b.localPaths l) locals ∧
      rs.map Prod.snd = locals ++ (c.bodies l).map fun body => fromUtf8Lossy body.2 := by
  rw [List.map_append] at hfst
  obtain ⟨r₁, r₂, rfl, h₁, h₂⟩ := List.map_eq_append_iff.mp hfst
  refine ⟨r₁.map Prod.snd, ?_, ?_⟩
  · have hpaths : b.localPaths l = r₁.map fun x => x.1.2 := by
      have := congrArg (List.map Prod.snd) h₁
      simp only [List.map_map] at this
      simpa [Function.comp_def] using this.symm
    rw [hpaths, List.forall₂_map_left_iff, List.forall₂_map_right_iff, List.forall₂_same]
    intro x hx
    exact hdisk x (hrs x (List.mem_append_left _ hx))
  · rw [List.map_append, List.append_cancel_left_eq]
    have hlen : r₂.length = (b.list l).urls.length := by
      have := congrArg List.length h₂
      simpa [RemoteBlocklists.paths] using this
    refine List.ext_getElem (by simp [hlen, hbodies]) ?_
    intro k hk _
    rw [List.length_map] at hk
    have hpath : r₂[k].1 = (l, (b.list l).pathFor k) := by
      have hget : (r₂.map Prod.fst)[k]? = some r₂[k].1 := by simp [hk]
      rw [h₂] at hget
      simpa [RemoteBlocklists.paths, hlen ▸ hk] using hget.symm
    rw [List.getElem_map, List.getElem_map]
    refine h.texts l k _ _ (List.getElem?_eq_getElem (by omega)) ?_
    rw [← hpath]
    exact hrs _ (List.mem_append_right _ (List.getElem_mem hk))

namespace RefreshState

variable {U : UnicodeCase} {b : ReloadableBlocklist} {s s' : RefreshState} {ev : RefreshEvent}
  {i : Nat} {c c' : RefreshCall}

variable (U b s ev s' i c) in
/-- What a step can do to one call. -/
inductive Moves : RefreshCall → Prop
  | stays : Moves c
  | acquires (hev : ev = .acquire i) (hph : c.phase = .waiting) :
      Moves { c with phase := b.refreshBlock, before := s.engine }
  | advances (answer : IoAnswer) (c' : RefreshCall) (hev : ev = .io i answer)
      (hadv : RefreshCall.Advances U b s.disk c answer c' s'.disk)
      (heq : s'.engine = s.engine) : Moves c'
  | swapsBlocks (engine : BlocklistEngine) (report : ParseReport)
      (hph : c.phase = .read [] (engine, report)) : Moves (c.goto (.swapping engine report))
  | returnsOk (engine : BlocklistEngine) (report : ParseReport)
      (hph : c.phase = .swapping engine report)
      (heq : s'.engine = ⟨s.engine.blocks, engine.exceptions⟩) :
      Moves (c.goto (.returned (.ok report)))
  | cancels : Moves (c.goto .cancelled)

/-- A call of the next state is one of this state that moved, or a new one. -/
theorem Steps.moves (hst : Steps U b s ev s') (hc' : s'.calls[i]? = some c') :
    (s.calls[i]? = none ∧ c' = {}) ∨
      ∃ c, s.calls[i]? = some c ∧ Moves U b s s' ev i c c' := by
  cases hst with
  | call =>
      rcases getElem?_concat_eq_some.mp hc' with hc' | ⟨rfl, rfl⟩
      · exact .inr ⟨c', hc', .stays⟩
      · exact .inl ⟨List.getElem?_eq_none le_rfl, rfl⟩
  | acquire j d hd hph hlock =>
      rcases getElem?_set_eq_some.mp hc' with ⟨_, hc'⟩ | ⟨rfl, _, rfl⟩
      · exact .inr ⟨c', hc', .stays⟩
      · exact .inr ⟨d, hd, .acquires rfl hph⟩
  | io j answer d d' disk hd hadv =>
      rcases getElem?_set_eq_some.mp hc' with ⟨_, hc'⟩ | ⟨rfl, _, rfl⟩
      · exact .inr ⟨c', hc', .stays⟩
      · exact .inr ⟨d, hd, .advances answer c' rfl hadv rfl⟩
  | swapBlocks j d engine report hd hph hw hr =>
      rcases getElem?_set_eq_some.mp hc' with ⟨_, hc'⟩ | ⟨rfl, _, rfl⟩
      · exact .inr ⟨c', hc', .stays⟩
      · exact .inr ⟨d, hd, .swapsBlocks engine report hph⟩
  | swapExceptions j d engine report hd hph =>
      rcases getElem?_set_eq_some.mp hc' with ⟨_, hc'⟩ | ⟨rfl, _, rfl⟩
      · exact .inr ⟨c', hc', .stays⟩
      · exact .inr ⟨d, hd, .returnsOk engine report hph rfl⟩
  | cancelWaiting j d hd hph =>
      rcases getElem?_set_eq_some.mp hc' with ⟨_, hc'⟩ | ⟨rfl, _, rfl⟩
      · exact .inr ⟨c', hc', .stays⟩
      · exact .inr ⟨d, hd, .cancels⟩
  | cancelDownload j d l idx hd hph =>
      rcases getElem?_set_eq_some.mp hc' with ⟨_, hc'⟩ | ⟨rfl, _, rfl⟩
      · exact .inr ⟨c', hc', .stays⟩
      · exact .inr ⟨d, hd, .cancels⟩
  | edit p content => exact .inr ⟨c', hc', .stays⟩
  | decide domain => exact .inr ⟨c', hc', .stays⟩
  | readLock k r hr hph hw => exact .inr ⟨c', hc', .stays⟩
  | look k r r' hr hlook => exact .inr ⟨c', hc', .stays⟩

/-- A call that fails leaves the engine it found. -/
theorem Moves.error_engine (hm : Moves U b s s' ev i c c') (h : Inv U b s)
    (hc : s.calls[i]? = some c) (hrun : c.phase.running = true) {e : BlocklistError}
    (hph : c'.phase = .returned (.error e)) : s'.engine = c.before := by
  cases hm with
  | stays =>
      rw [hph] at hrun
      cases hrun
  | acquires hev hwait =>
      rw [hwait] at hrun
      cases hrun
  | advances answer c' hev hadv heq =>
      rw [heq]
      exact (h.running i c hc hrun).2.kept hadv.running.2
  | swapsBlocks engine report hread => cases hph
  | returnsOk engine report hswap heq => cases hph
  | cancels => cases hph

/-- A call that succeeds has been swapping, and the engine is the one it
has built. -/
theorem Moves.ok_engine (hm : Moves U b s s' ev i c c') (h : Inv U b s)
    (hc : s.calls[i]? = some c) (hrun : c.phase.running = true) {report : ParseReport}
    (hph : c'.phase = .returned (.ok report)) :
    ∃ engine, c.phase = .swapping engine report ∧ s'.engine = engine := by
  cases hm with
  | stays =>
      rw [hph] at hrun
      cases hrun
  | acquires hev hwait =>
      rw [hwait] at hrun
      cases hrun
  | advances answer c' hev hadv heq =>
      rcases hadv.outcome with h' | ⟨e, h'⟩
      · rw [hph] at h'
        cases h'
      · rw [hph] at h'
        cases h'
  | swapsBlocks engine report hread => cases hph
  | returnsOk engine report' hswap heq =>
      cases hph
      exact ⟨engine, hswap, by rw [heq, h.swapped_eq hc hswap]⟩
  | cancels => cases hph

end RefreshState

/-! ## Where a call's data comes from -/

section
variable (U : UnicodeCase) (b : ReloadableBlocklist) (s₀ : RefreshState)
  (es : List RefreshEvent)

/-- Call `i` took `refresh_lock` when the engine was `engine`. -/
def AcquiredWith (i : Nat) (engine : BlocklistEngine) : Prop :=
  ∃ s s', Takes (RefreshState.step U b) s₀ es s (.acquire i) s' ∧ s.engine = engine

/-- `bytes` is what call `i` downloaded from URL `k` of list `l`. -/
def Downloaded (i : Nat) (l : RuleTarget) (k : Nat) (bytes : List UInt8) : Prop :=
  ∃ s s' c, Takes (RefreshState.step U b) s₀ es s (.io i (.body bytes)) s' ∧
    s.calls[i]? = some c ∧ c.phase = .download l k

/-- The file at `p` was `text` at a moment when call `i` held the lock. -/
def HeldOnDisk (i : Nat) (p : Path) (text : Str) : Prop :=
  ∃ s, Passes (RefreshState.step U b) s₀ es s ∧ s.lock = some i ∧ s.disk p = some text

/-- The ghost fields of call `i` say what happened in the run. -/
structure Traced (i : Nat) (c : RefreshCall) : Prop where
  acquired : c.phase.running = true → AcquiredWith U b s₀ es i c.before
  fetched : ∀ l k body, c.phase = .stage l k body → Downloaded U b s₀ es i l k body
  bodies : ∀ l k x, (c.bodies l)[k]? = some x → Downloaded U b s₀ es i l k x.2
  reads : ∀ x ∈ c.reads, HeldOnDisk U b s₀ es i x.1.2 x.2

end

namespace Traced

variable {U : UnicodeCase} {b : ReloadableBlocklist} {s₀ s s' : RefreshState}
  {es : List RefreshEvent} {ev : RefreshEvent} {i : Nat} {c c' : RefreshCall}

theorem new : Traced U b s₀ es i {} where
  acquired h := by cases h
  fetched l k body h := by cases h
  bodies l k x h := by cases h
  reads x h := by cases h

/-- A call goes on to a phase that is no write. -/
theorem goto {ph : RefreshPhase} (h : Traced U b s₀ es i c)
    (hrun : ph.running = true → c.phase.running = true)
    (hph : ∀ l k body, ph ≠ .stage l k body) : Traced U b s₀ es i (c.goto ph) where
  acquired hr := h.acquired (hrun hr)
  fetched l k body hs := absurd hs (hph l k body)
  bodies := h.bodies
  reads := h.reads

end Traced

namespace ReloadableBlocklist

variable (b : ReloadableBlocklist) (l l' : RuleTarget) (idx k : Nat) (body : List UInt8)

theorem refreshAllow_ne_stage : b.refreshAllow ≠ .stage l k body := by
  unfold refreshAllow
  split
  · exact RefreshPhase.noConfusion
  · exact RefreshPhase.noConfusion

theorem refreshBlock_ne_stage : b.refreshBlock ≠ .stage l k body := by
  unfold refreshBlock
  split
  · exact b.refreshAllow_ne_stage l k body
  · exact RefreshPhase.noConfusion

theorem afterStage_ne_stage : b.afterStage l' idx ≠ .stage l k body := by
  unfold afterStage
  split
  · exact RefreshPhase.noConfusion
  · exact RefreshPhase.noConfusion

theorem afterRename_ne_stage : b.afterRename l' idx ≠ .stage l k body := by
  unfold afterRename
  split
  · exact RefreshPhase.noConfusion
  · cases l' with
    | block => exact b.refreshAllow_ne_stage l k body
    | allow => exact RefreshPhase.noConfusion

end ReloadableBlocklist

namespace Traced

variable {U : UnicodeCase} {b : ReloadableBlocklist} {s₀ s s' : RefreshState}
  {es : List RefreshEvent} {ev : RefreshEvent} {i : Nat} {c c' : RefreshCall}

theorem move (h : Traced U b s₀ es i c) (hinv : RefreshState.Inv U b s)
    (ht : Takes (RefreshState.step U b) s₀ es s ev s') (hc : s.calls[i]? = some c)
    (hm : RefreshState.Moves U b s s' ev i c c') : Traced U b s₀ es i c' := by
  cases hm with
  | stays => exact h
  | acquires hev hph =>
      subst hev
      exact {
        acquired := fun _ => ⟨s, s', ht, rfl⟩
        fetched := fun l k body hs => absurd hs (b.refreshBlock_ne_stage l k body)
        bodies := h.bodies
        reads := h.reads }
  | advances answer c' hev hadv heq =>
      subst hev
      have hrun := hadv.running.1
      obtain ⟨hlock, hok⟩ := hinv.running i c hc hrun
      generalize s'.disk = disk at hadv
      cases hadv with
      | fail e => exact h.goto (fun hr => by cases hr) fun _ _ _ => RefreshPhase.noConfusion
      | createDir l hph => exact h.goto (fun _ => hrun) fun _ _ _ => RefreshPhase.noConfusion
      | buildClient l hph => exact h.goto (fun _ => hrun) fun _ _ _ => RefreshPhase.noConfusion
      | download l idx bytes hph hans =>
          subst hans
          exact {
            acquired := fun _ => h.acquired hrun
            fetched := fun l' k body hs => by
              cases hs
              exact ⟨s, s', c, ht, hc, hph⟩
            bodies := h.bodies
            reads := h.reads }
      | stage l idx body url hph hurl =>
          -- the body kept is the one this download was answered with
          have hkept : Traced U b s₀ es i (c.keepBody l url body) := by
            refine { h with bodies := ?_ }
            intro l' k x hx
            change (if l' = l then c.bodies l' ++ [(url, body)] else c.bodies l')[k]? =
              some x at hx
            split at hx
            · rename_i hl
              subst hl
              rcases getElem?_concat_eq_some.mp hx with hx | ⟨hk, rfl⟩
              · exact h.bodies l' k x hx
              · rw [hk, hok.length_of_stage hph hurl]
                exact h.fetched l' idx body hph
            · exact h.bodies l' k x hx
          exact hkept.goto (fun _ => hrun) fun l' k body' => b.afterStage_ne_stage l' l idx k body'
      | rename l idx text hph htext =>
          exact h.goto (fun _ => hrun) fun l' k body => b.afterRename_ne_stage l' l idx k body
      | read l p todo acc text hph htext =>
          -- the file is read under the lock, with the text that is on disk at that moment
          have hreads : ∀ x ∈ c.reads ++ [((l, p), text)],
              HeldOnDisk U b s₀ es i x.1.2 x.2 := by
            intro x hx
            rcases List.mem_append.mp hx with hx | hx
            · exact h.reads x hx
            · cases List.mem_singleton.mp hx
              exact ⟨s, ht.source, hlock, htext⟩
          exact {
            acquired := fun _ => h.acquired hrun
            fetched := fun l' k body hs => by cases hs
            bodies := h.bodies
            reads := hreads }
  | swapsBlocks engine report hph =>
      exact h.goto (fun _ => by rw [hph]; rfl) fun _ _ _ => RefreshPhase.noConfusion
  | returnsOk engine report hph heq =>
      exact h.goto (fun hr => by cases hr) fun _ _ _ => RefreshPhase.noConfusion
  | cancels => exact h.goto (fun hr => by cases hr) fun _ _ _ => RefreshPhase.noConfusion

end Traced

/-! ## Every run -/

namespace RefreshState

variable {U : UnicodeCase} {b : ReloadableBlocklist} {s₀ s s' : RefreshState}
  {es : List RefreshEvent} {ev : RefreshEvent}

/-- A file that is no download's changes only when somebody else edits it. -/
theorem Steps.disk_frame (hst : Steps U b s ev s') {p : Path} (hp : b.NotDownload p)
    (hev : ∀ content, ev ≠ .edit p content) : s'.disk p = s.disk p := by
  cases hst with
  | io i answer c c' disk hc hadv =>
      cases hadv with
      | fail e _ hrun hswap hframe => exact hframe p fun l k => (hp l k).2
      | stage l idx body url hph hurl => exact Disk.set_of_ne (hp l idx).2 _
      | rename l idx text hph htext =>
          show ((s.disk.set _ _).set _ _) p = _
          rw [Disk.set_of_ne (hp l idx).2, Disk.set_of_ne (hp l idx).1]
      | createDir l hph => rfl
      | buildClient l hph => rfl
      | download l idx bytes hph hans => rfl
      | read l p todo acc text hph htext => rfl
  | edit q content =>
      refine Disk.set_of_ne ?_ content
      rintro rfl
      exact hev content rfl
  | _ => rfl

/-- A decision is made on the current engine, whole. -/
theorem Steps.decision (hst : Steps U b s ev s') (h : Inv U b s) {k : Nat} {r r' : Reader}
    (hr : s.readers[k]? = some r) (hholds : r.phase.holds = true)
    (hr' : s'.readers[k]? = some r') {decision : BlockDecision}
    (hdec : r'.phase = .decided decision) :
    s.versions.getLast? = some s.engine ∧ decision = s.engine.decide U r'.domain := by
  have hmem := List.mem_of_getElem? hr
  refine ⟨h.current (h.readers r hmem hholds), ?_⟩
  have hsame : s'.readers[k]? = some r → decision = s.engine.decide U r'.domain := by
    intro heq
    rw [hr'] at heq
    cases heq
    rw [hdec] at hholds
    cases hholds
  cases hst with
  | decide domain =>
      refine hsame ?_
      rw [List.getElem?_append_left (List.getElem?_eq_some_iff.mp hr).1]
      exact hr
  | readLock j q hq hph hw =>
      rcases getElem?_set_eq_some.mp hr' with ⟨hj, hr'⟩ | ⟨rfl, _, rfl⟩
      · exact hsame (by rw [List.getElem?_set_ne (Ne.symm hj)]; exact hr)
      · cases hdec
  | look j q q' hq hlook =>
      rcases getElem?_set_eq_some.mp hr' with ⟨hj, hr'⟩ | ⟨rfl, _, rfl⟩
      · exact hsame (by rw [List.getElem?_set_ne (Ne.symm hj)]; exact hr)
      · cases Option.some_inj.mp (hq.symm.trans hr)
        exact Reader.look_decides hlook hdec fun hph => h.blocks r hmem hph
  | _ => exact hsame hr

/-- A new engine comes only from a call that returns `Ok`. -/
theorem Steps.versions (hst : Steps U b s ev s') (h : Inv U b s) :
    s'.versions = s.versions ∨
      ∃ (i : Nat) (c' : RefreshCall) (report : ParseReport), s'.calls[i]? = some c' ∧
        c'.phase = .returned (.ok report) ∧ s'.versions = s.versions ++ [s'.engine] := by
  cases hst with
  | swapExceptions i c engine report hc hph =>
      refine .inr ⟨i, c.goto (.returned (.ok report)), report, ?_, rfl, ?_⟩
      · exact getElem?_set_of_some hc _
      · exact congrArg (s.versions ++ [·]) (h.swapped_eq hc hph).symm
  | _ => exact .inl rfl

/-- The invariant and the history of every call, in every state passed. -/
theorem passes_inv (hb : b.Separate) (disk : Disk)
    (hedit : ∀ p content, RefreshEvent.edit p content ∈ es → b.NotDownload p)
    (hs : Passes (step U b) (start b disk) es s) :
    Inv U b s ∧ ∀ (i : Nat) (c : RefreshCall), s.calls[i]? = some c →
      Traced U b (start b disk) es i c := by
  refine hs.invariant (I := fun s => Inv U b s ∧ ∀ (i : Nat) (c : RefreshCall),
    s.calls[i]? = some c → Traced U b (start b disk) es i c) ⟨start_inv disk, ?_⟩ ?_
  · intro i c hc
    simp [start] at hc
  · intro s ev s' ht hs
    obtain ⟨hinv, htr⟩ := hs
    have hst := steps ht.step_eq
    refine ⟨hinv.step hb hst fun p content hev => hedit p content (hev ▸ ht.mem), ?_⟩
    intro i c' hc'
    rcases hst.moves hc' with ⟨_, rfl⟩ | ⟨c, hc, hm⟩
    · exact Traced.new
    · exact (htr i c hc).move hinv ht hc hm

end RefreshState

/-- Call `i` built this engine and report: from the local files as they
were while it held the lock and from its own download of every URL. -/
def BuiltBy (U : UnicodeCase) (b : ReloadableBlocklist) (s₀ : RefreshState)
    (es : List RefreshEvent) (i : Nat) (engine : BlocklistEngine) (report : ParseReport) :
    Prop :=
  ∃ (locals : RuleTarget → List Str) (bodies : RuleTarget → List (List UInt8)),
    (∀ l, List.Forall₂ (HeldOnDisk U b s₀ es i) (b.localPaths l) (locals l)) ∧
    (∀ l, (bodies l).length = (b.list l).urls.length) ∧
    (∀ l k bytes, (bodies l)[k]? = some bytes → Downloaded U b s₀ es i l k bytes) ∧
    let texts := fun l => (locals l ++ (bodies l).map fromUtf8Lossy).flatMap lines
    engine = engineOf U (texts .block) (texts .allow) ∧
      report = reportOf U (texts .block ++ texts .allow)

/-- The last moment of a call that succeeds. -/
theorem builtBy_of_swapping {U : UnicodeCase} {b : ReloadableBlocklist} {s₀ : RefreshState}
    {es : List RefreshEvent} {i : Nat} {c : RefreshCall} {engine₀ engine : BlocklistEngine}
    {disk : Disk} {report : ParseReport} (hok : c.Ok U b engine₀ disk)
    (htr : Traced U b s₀ es i c) (hph : c.phase = .swapping engine report) :
    BuiltBy U b s₀ es i engine report := by
  have hlen : ∀ l, (c.bodies l).length = (b.list l).urls.length := by
    intro l
    have := congrArg List.length (hok.urls l)
    rw [hph, RefreshPhase.progress, List.take_length, List.length_map] at this
    exact this
  have hsources := hok.sources
  rw [hph, RefreshPhase.unread, List.append_nil, ReloadableBlocklist.sources] at hsources
  obtain ⟨rb, ra, hreads, hrb, hra⟩ := List.map_eq_append_iff.mp hsources
  obtain ⟨lb, hlb, htb⟩ := hok.split_reads (l := .block)
    (fun x hx => hreads ▸ List.mem_append_left ra hx) hrb (hlen .block) htr.reads
  obtain ⟨la, hla, hta⟩ := hok.split_reads (l := .allow)
    (fun x hx => hreads ▸ List.mem_append_right rb hx) hra (hlen .allow) htr.reads
  have hkind : ∀ {t : RuleTarget} {rs : List ((RuleTarget × Path) × Str)} {ps : List Path},
      rs.map Prod.fst = ps.map (t, ·) → ∀ x ∈ rs, x.1.1 = t := by
    intro t rs ps heq x hx
    have hmem : x.1 ∈ ps.map (t, ·) := heq ▸ List.mem_map_of_mem hx
    obtain ⟨p, _, hp⟩ := List.mem_map.mp hmem
    rw [← hp]
  have hbuilt := hok.built
  rw [hph, hreads, loadReads_eq (hkind hrb) (hkind hra), htb, hta] at hbuilt
  refine ⟨fun l => match l with | .block => lb | .allow => la,
    fun l => (c.bodies l).map Prod.snd, ?_, ?_, ?_, ?_⟩
  · intro l
    cases l with
    | block => exact hlb
    | allow => exact hla
  · intro l
    rw [List.length_map]
    exact hlen l
  · intro l k bytes hk
    rw [List.getElem?_map, Option.map_eq_some_iff] at hk
    obtain ⟨x, hx, rfl⟩ := hk
    exact htr.bodies l k x hx
  · simp only [List.map_map]
    exact Prod.ext_iff.mp hbuilt

/-- **Refreshes are all or nothing.** In every run in which nobody else
writes the downloads' files: a call that returns an error leaves the
engine it found when it took `refresh_lock`; a call that returns `Ok`
leaves the engine built from the local files and its own downloads, one
per URL; a decision is that of the engine in force, whole, and a new
engine comes only from a call that returns `Ok`. No two downloads share a
staging or final path, and no call changes a local file. -/
theorem refresh_and_reload_atomic (U : UnicodeCase) (config : BlocklistConfig) (disk : Disk)
    (es : List RefreshEvent)
    (hdir : ∀ p content, RefreshEvent.edit p content ∈ es →
      (ReloadableBlocklist.fromConfig config).NotDownload p)
    (hlocal : ∀ p ∈ config.paths ++ config.allowlistPaths,
      (ReloadableBlocklist.fromConfig config).NotDownload p) :
    let b := ReloadableBlocklist.fromConfig config
    let s₀ := RefreshState.start b disk
    (∀ l l' k k', (b.list l).pathFor k ≠ (b.list l').tmpPathFor k' ∧
      ((b.list l).pathFor k = (b.list l').pathFor k' → l = l' ∧ k = k') ∧
      ((b.list l).tmpPathFor k = (b.list l').tmpPathFor k' → l = l' ∧ k = k')) ∧
    ∀ s ev s', Takes (RefreshState.step U b) s₀ es s ev s' →
      (∀ (i : Nat) (c c' : RefreshCall), s.calls[i]? = some c → c.phase.running = true →
        s'.calls[i]? = some c' →
        (∀ e, c'.phase = .returned (.error e) → ∃ found, AcquiredWith U b s₀ es i found ∧
          ∀ domain, s'.engine.decide U domain = found.decide U domain) ∧
        (∀ report, c'.phase = .returned (.ok report) →
          BuiltBy U b s₀ es i s'.engine report)) ∧
      (∀ (k : Nat) (r r' : Reader), s.readers[k]? = some r → r.phase.holds = true →
        s'.readers[k]? = some r' → ∀ decision, r'.phase = .decided decision →
          s.versions.getLast? = some s.engine ∧ decision = s.engine.decide U r'.domain) ∧
      (s'.versions = s.versions ∨ ∃ (i : Nat) (c' : RefreshCall) (report : ParseReport),
        s'.calls[i]? = some c' ∧ c'.phase = .returned (.ok report) ∧
          s'.versions = s.versions ++ [s'.engine]) ∧
      ∀ p ∈ config.paths ++ config.allowlistPaths, (∀ content, ev ≠ .edit p content) →
        s'.disk p = s.disk p := by
  intro b s₀
  have hb : b.Separate := ReloadableBlocklist.fromConfig_separate config
  refine ⟨?_, ?_⟩
  -- every list has paths of its own, for its files and for their temporaries
  · intro l l' k k'
    refine ⟨RemoteBlocklists.pathFor_ne_tmpPathFor _ _ k k', ?_, ?_⟩
    · intro h
      exact ⟨(hb.fileFor_inj rfl h).1, (hb.fileFor_inj rfl h).2.2⟩
    · intro h
      exact ⟨(hb.fileFor_inj rfl h).1, (hb.fileFor_inj rfl h).2.2⟩
  -- one step, from a state that meets the invariant
  · intro s ev s' ht
    obtain ⟨hinv, htr⟩ := RefreshState.passes_inv hb disk hdir ht.source
    have hst := RefreshState.steps ht.step_eq
    refine ⟨?_, ?_, hst.versions hinv, ?_⟩
    · intro i c c' hc hrun hc'
      -- the call was there before, so this step is a move of its own
      have hm : RefreshState.Moves U b s s' ev i c c' := by
        rcases hst.moves hc' with ⟨hnone, _⟩ | ⟨d, hd, hm⟩
        · rw [hc] at hnone
          cases hnone
        · cases Option.some_inj.mp (hd.symm.trans hc)
          exact hm
      refine ⟨?_, ?_⟩
      · intro e he
        refine ⟨c.before, (htr i c hc).acquired hrun, fun domain => ?_⟩
        rw [hm.error_engine hinv hc hrun he]
      · intro report hr
        obtain ⟨engine, hph, heq⟩ := hm.ok_engine hinv hc hrun hr
        rw [heq]
        exact builtBy_of_swapping (hinv.running i c hc hrun).2 (htr i c hc) hph
    · intro k r r' hr hholds hr' decision hdec
      exact hst.decision hinv hr hholds hr' hdec
    · intro p hp hev
      exact hst.disk_frame (hlocal p hp) hev

/-- A local file and one URL of each kind. -/
def refreshConfig : BlocklistConfig where
  paths := ["local".toList]
  urls := ["https://lists.example/ads".toList]
  allowlistUrls := ["https://lists.example/allow".toList]

/-- One call from the lock to the middle of the swap, with the bodies
`||b.example^` and a byte that is not text. -/
def refreshRun : List RefreshEvent :=
  [.call, .acquire 0, .io 0 .ok, .io 0 .ok,
   .io 0 (.body ("||b.example^".toList.map fun c => UInt8.ofNat c.toNat)), .io 0 .ok, .io 0 .ok,
   .io 0 .ok, .io 0 .ok, .io 0 (.body [0xFF]), .io 0 .ok, .io 0 .ok, .io 0 .ok, .io 0 .ok,
   .io 0 .ok, .swap 0]

theorem refreshConfig_local :
    ∀ p ∈ refreshConfig.paths ++ refreshConfig.allowlistPaths,
      (ReloadableBlocklist.fromConfig refreshConfig).NotDownload p := by
  intro p hp l k
  have hp : p = "local".toList := by simpa [refreshConfig] using hp
  subst hp
  constructor
  · intro h
    have := RemoteBlocklists.getLast?_fileFor
      ((ReloadableBlocklist.fromConfig refreshConfig).list l) (e := ['t', 'x', 't']) rfl k
    rw [show RemoteBlocklists.fileFor _ _ k = _ from h.symm] at this
    exact absurd this (by decide)
  · intro h
    have := RemoteBlocklists.getLast?_fileFor
      ((ReloadableBlocklist.fromConfig refreshConfig).list l) (e := ['t', 'm', 'p']) rfl k
    rw [show RemoteBlocklists.fileFor _ _ k = _ from h.symm] at this
    exact absurd this (by decide)

theorem refresh_and_reload_atomic_one_call :
    ∃ s s', Takes (RefreshState.step .ascii (.fromConfig refreshConfig))
        (.start (.fromConfig refreshConfig) sampleDisk) (refreshRun ++ [.swap 0]) s (.swap 0) s' ∧
      BuiltBy .ascii (.fromConfig refreshConfig) (.start (.fromConfig refreshConfig) sampleDisk)
        (refreshRun ++ [.swap 0]) 0 s'.engine ⟨3, 1⟩ ∧
      s'.engine.decide .ascii "b.example".toList = .block := by
  have hbefore : (run (RefreshState.step .ascii (.fromConfig refreshConfig))
      (.start (.fromConfig refreshConfig) sampleDisk) refreshRun).map
        (fun s => s.calls.map (·.phase.running)) = some [true] := by
    decide +kernel
  have hafter : (run (RefreshState.step .ascii (.fromConfig refreshConfig))
      (.start (.fromConfig refreshConfig) sampleDisk) (refreshRun ++ [.swap 0])).map
        (fun s => (s.calls.map (·.phase), s.engine.decide .ascii "b.example".toList)) =
      some ([.returned (.ok ⟨3, 1⟩)], .block) := by
    decide +kernel
  obtain ⟨s, hs, hrun⟩ := Option.map_eq_some_iff.mp hbefore
  rw [run_concat hs] at hafter
  obtain ⟨s', hstep, heq⟩ := Option.map_eq_some_iff.mp hafter
  obtain ⟨hph, hdec⟩ := Prod.mk.inj heq
  obtain ⟨c, hc, hcr⟩ := List.map_eq_singleton_iff.mp hrun
  obtain ⟨c', hc', hcr'⟩ := List.map_eq_singleton_iff.mp hph
  have ht := Takes.last hs hstep
  refine ⟨s, s', ht, ?_, hdec⟩
  have hall := (refresh_and_reload_atomic .ascii refreshConfig sampleDisk
    (refreshRun ++ [.swap 0]) (by simp [refreshRun]) refreshConfig_local).2 s (.swap 0) s' ht
  exact (hall.1 0 c c' (by rw [hc]; rfl) hcr (by rw [hc']; rfl)).2 ⟨3, 1⟩ hcr'

end Dotdns
