import Mathlib.Data.Finset.Insert
import Mathlib.Data.Finset.Union
import Dotdns.Config
import Dotdns.Blocklist.Parse

/-!
# Blocklist — the rule engine

`BlocklistEngine`: two sets of rules filled from list files, and `decide`,
which looks up every suffix of the normalised name that starts at a label
boundary, exceptions first.

The suffix iterator walks BYTE offsets. `domainSuffixesFrom` keeps them,
with a slice off a character boundary as `none`; `domainSuffixesFrom_eq`
says that it never happens and that the offsets visit exactly `dotTails`.

The headline `fromSources_decides` reads the whole pipeline backwards:
which lines of which files decide a name.
-/

namespace Dotdns

open Lib

/-- What `decide` says of a name. -/
inductive BlockDecision where
  | allow
  | block
  | exception
  deriving DecidableEq, Repr

/-- `is_blocked`. -/
def BlockDecision.isBlocked : BlockDecision → Bool
  | .block => true
  | _ => false

/-- Which set a file's plain rules go to. -/
inductive RuleTarget where
  | block
  | allow
  deriving DecidableEq, Repr

/-- `BlocklistError`, without the causes. -/
inductive BlocklistError where
  | io (path : Path)
  | httpClient
  | download (url : Str)
  deriving DecidableEq, Repr

/-- What a load counted, in the source's `u64`s. -/
structure ParseReport where
  total : UInt64 := 0
  unsupported : UInt64 := 0
  deriving DecidableEq, Repr

/-- The two rule sets. -/
structure BlocklistEngine where
  blocks : Finset NormalizedRule := ∅
  exceptions : Finset NormalizedRule := ∅
  deriving DecidableEq

/-- What a path reads as: `none` when it cannot be opened or a line of it
is not text. -/
abbrev Disk := Path → Option Str

/-! ## Suffixes at label boundaries -/

/-- The iterator of `domain_suffixes` from byte offset `start`; every item
moves the offset forward, so `byteLen domain` items are enough. -/
def domainSuffixesFrom (domain : Str) : Nat → Nat → Option (List Str)
  | 0, _ => some []
  | fuel + 1, start =>
      if start ≥ byteLen domain then some []
      else (sliceFrom domain start).bind fun suffix =>
        let next := match findChar '.' suffix with
          | some dotPos => start + (dotPos + 1)
          | none => byteLen domain
        (domainSuffixesFrom domain fuel next).map (suffix :: ·)

/-- The non-empty texts that follow a dot of `s`. -/
def afterDots : Str → List Str
  | [] => []
  | c :: s => if c = '.' ∧ s ≠ [] then s :: afterDots s else afterDots s

/-- The text itself and what follows each of its dots, without the empty
text. -/
def dotTails (s : Str) : List Str := if s = [] then [] else s :: afterDots s

theorem afterDots_append {a : Str} (h : '.' ∉ a) (b : Str) :
    afterDots (a ++ '.' :: b) = dotTails b := by
  induction a with
  | nil =>
      by_cases hb : b = []
      · subst hb
        rfl
      · simp [afterDots, dotTails, hb]
  | cons c a ih =>
      rw [List.mem_cons, not_or] at h
      rw [List.cons_append, afterDots, if_neg, ih h.2]
      intro hc
      exact h.1 hc.1.symm

theorem afterDots_eq_nil {s : Str} (h : '.' ∉ s) : afterDots s = [] := by
  induction s with
  | nil => rfl
  | cons c s ih =>
      rw [List.mem_cons, not_or] at h
      rw [afterDots, if_neg (fun hc => h.1 hc.1.symm), ih h.2]

/-- At offset `byteLen pre` of `pre ++ s` the iterator is at a character
boundary and yields the dot tails of `s`. -/
theorem domainSuffixesFrom_eq (pre s : Str) (fuel : Nat) (hfuel : byteLen s ≤ fuel) :
    domainSuffixesFrom (pre ++ s) fuel (byteLen pre) = some (dotTails s) := by
  induction fuel generalizing pre s with
  | zero =>
      have hs : s = [] := byteLen_eq_zero (by omega)
      subst hs
      rfl
  | succ fuel ih =>
      by_cases hs : s = []
      · subst hs
        simp [domainSuffixesFrom, dotTails]
      · have hpos : byteLen s ≠ 0 := fun h => hs (byteLen_eq_zero h)
        have hlt : ¬ byteLen pre ≥ byteLen (pre ++ s) := by
          rw [byteLen_append]
          omega
        rw [domainSuffixesFrom, if_neg hlt, sliceFrom_append, Option.bind_some,
          dotTails, if_neg hs]
        by_cases hdot : '.' ∈ s
        · -- the next offset is right after the first dot
          obtain ⟨a, b, rfl, ha⟩ := List.eq_append_cons_of_mem hdot
          have hnext : byteLen pre + (byteLen a + 1) = byteLen (pre ++ (a ++ ['.'])) := by
            simp only [byteLen_append, byteLen_cons, byteLen_nil,
              show '.'.utf8Size = 1 from rfl]
          have hsplit : pre ++ (a ++ '.' :: b) = (pre ++ (a ++ ['.'])) ++ b := by simp
          have hb : byteLen b ≤ fuel := by
            rw [byteLen_append, byteLen_cons, show '.'.utf8Size = 1 from rfl] at hfuel
            omega
          have hrest := ih (pre ++ (a ++ ['.'])) b hb
          rw [← hnext, ← hsplit] at hrest
          simp only [findChar_append ha, hrest, Option.map_some, afterDots_append ha]
        · -- no dot is left: the next offset is the end and the iterator stops
          have hnil := ih (pre ++ s) [] (by simp)
          rw [List.append_nil] at hnil
          simp only [findChar_eq_none.mpr hdot, hnil, Option.map_some, dotTails,
            afterDots_eq_nil hdot, if_true]

/-- `domain_suffixes`; no slice of it panics. -/
def domainSuffixes (domain : Str) : List Str :=
  (domainSuffixesFrom domain (byteLen domain) 0).get (by
    have h := domainSuffixesFrom_eq [] domain (byteLen domain) le_rfl
    rw [List.nil_append, byteLen_nil] at h
    rw [h]
    rfl)

theorem domainSuffixes_eq (domain : Str) : domainSuffixes domain = dotTails domain := by
  have h := domainSuffixesFrom_eq [] domain (byteLen domain) le_rfl
  rw [List.nil_append, byteLen_nil] at h
  rw [domainSuffixes, Option.get_of_eq_some _ h]

/-- A name matches a rule: it is the rule, or ends with a dot and the rule. -/
def RuleMatch (normalized r : Str) : Prop :=
  normalized = r ∨ '.' :: r <:+ normalized

theorem mem_afterDots {s r : Str} : r ∈ afterDots s ↔ r ≠ [] ∧ '.' :: r <:+ s := by
  induction s with
  | nil => simp [afterDots]
  | cons c s ih =>
      rw [afterDots, List.suffix_cons_iff, List.cons.injEq]
      -- a dot at the very end yields nothing: the empty suffix is skipped
      by_cases hc : c = '.' ∧ s ≠ []
      · rw [if_pos hc, List.mem_cons, ih]
        constructor
        · intro h
          rcases h with rfl | ⟨hr, hs⟩
          · exact ⟨hc.2, .inl ⟨hc.1.symm, rfl⟩⟩
          · exact ⟨hr, .inr hs⟩
        · intro h
          obtain ⟨hr, ⟨_, rfl⟩ | hs⟩ := h
          · exact .inl rfl
          · exact .inr ⟨hr, hs⟩
      · rw [if_neg hc, ih]
        constructor
        · intro h
          exact ⟨h.1, .inr h.2⟩
        · intro h
          obtain ⟨hr, ⟨hdot, rfl⟩ | hs⟩ := h
          · exact absurd ⟨hdot.symm, hr⟩ hc
          · exact ⟨hr, hs⟩

theorem mem_domainSuffixes {normalized r : Str} (hr : r ≠ []) :
    r ∈ domainSuffixes normalized ↔ RuleMatch normalized r := by
  rw [domainSuffixes_eq, dotTails, RuleMatch]
  by_cases hs : normalized = []
  · subst hs
    simp [hr.symm]
  · rw [if_neg hs, List.mem_cons, mem_afterDots, eq_comm]
    simp [hr]

/-! ## The engine -/

namespace BlocklistEngine

/-- `insert_rule`: a rule of an allow file is an exception. -/
def insertRule (e : BlocklistEngine) (rule : NormalizedRule) : RuleTarget → BlocklistEngine
  | .block => { e with blocks := insert rule e.blocks }
  | .allow => { e with exceptions := insert rule e.exceptions }

/-- `rule_matches`: some suffix of the name is a rule. -/
def ruleMatches (rules : Finset NormalizedRule) (normalized : Str) : Bool :=
  (domainSuffixes normalized).any fun suffix => decide (.domain suffix ∈ rules)

section
variable (U : UnicodeCase)

/-- `BlocklistEngine::decide`: exceptions come first. -/
def decide (e : BlocklistEngine) (domain : Str) : BlockDecision :=
  let normalized := normalizeDomain U domain
  if ruleMatches e.exceptions normalized then .exception
  else if ruleMatches e.blocks normalized then .block
  else .allow

/-- The body of `load_paths`'s inner loop. -/
def loadLine (target : RuleTarget) (acc : BlocklistEngine × ParseReport) (line : Str) :
    BlocklistEngine × ParseReport :=
  let (engine, report) := acc
  match parseLine U line with
  | .skip => (engine, { report with total := report.total + 1 })
  | .block rule => (engine.insertRule rule target, { report with total := report.total + 1 })
  | .exception rule =>
      ({ engine with exceptions := insert rule engine.exceptions },
        { report with total := report.total + 1 })
  | .unsupported =>
      (engine, { total := report.total + 1, unsupported := report.unsupported + 1 })

/-- `load_paths`: the first file that cannot be read ends it. -/
def loadPaths (disk : Disk) (target : RuleTarget) :
    List Path → BlocklistEngine × ParseReport →
      Except BlocklistError (BlocklistEngine × ParseReport)
  | [], acc => .ok acc
  | path :: paths, acc =>
      match disk path with
      | none => .error (.io path)
      | some text => loadPaths disk target paths ((lines text).foldl (loadLine U target) acc)

/-- `from_sources`: block files, then allow files, one report. -/
def fromSources (disk : Disk) (blockPaths allowPaths : List Path) :
    Except BlocklistError (BlocklistEngine × ParseReport) :=
  match loadPaths U disk .block blockPaths ({}, {}) with
  | .error e => .error e
  | .ok acc => loadPaths U disk .allow allowPaths acc

end

end BlocklistEngine

/-! ## What the files say -/

/-- All lines of the files at `paths`, in order. -/
def linesOf (disk : Disk) (paths : List Path) : List Str :=
  paths.flatMap fun p => (disk p).elim [] lines

/-- Every file is there and is text. -/
def Readable (disk : Disk) (paths : List Path) : Prop := ∀ p ∈ paths, (disk p).isSome

section
variable (U : UnicodeCase)

/-- The domains of the lines that parse to a block rule. -/
def blockRules (ls : List Str) : Finset NormalizedRule :=
  (ls.filterMap fun l => match parseLine U l with
    | .block rule => some rule
    | _ => none).toFinset

/-- The domains of the lines that parse to an exception rule. -/
def exceptionRules (ls : List Str) : Finset NormalizedRule :=
  (ls.filterMap fun l => match parseLine U l with
    | .exception rule => some rule
    | _ => none).toFinset

/-- The engine that the block lines `bs` and the allow lines `as` amount
to. -/
def engineOf (bs as : List Str) : BlocklistEngine where
  blocks := blockRules U bs
  exceptions := exceptionRules U bs ∪ (blockRules U as ∪ exceptionRules U as)

/-- The report that the lines `ls` amount to, in 64 bits. -/
def reportOf (ls : List Str) : ParseReport where
  total := .ofNat ls.length
  unsupported := .ofNat (ls.countP fun l => parseLine U l = .unsupported)

variable {U}

theorem mem_blockRules {ls : List Str} {rule : NormalizedRule} :
    rule ∈ blockRules U ls ↔ ∃ l ∈ ls, parseLine U l = .block rule := by
  rw [blockRules, List.mem_toFinset, List.mem_filterMap]
  refine exists_congr fun l => and_congr_right fun _ => ?_
  cases parseLine U l <;> simp

theorem mem_exceptionRules {ls : List Str} {rule : NormalizedRule} :
    rule ∈ exceptionRules U ls ↔ ∃ l ∈ ls, parseLine U l = .exception rule := by
  rw [exceptionRules, List.mem_toFinset, List.mem_filterMap]
  refine exists_congr fun l => and_congr_right fun _ => ?_
  cases parseLine U l <;> simp

/-- What the lines `ls` of files of one kind add to an engine. -/
def BlocklistEngine.addLines (U : UnicodeCase) (target : RuleTarget)
    (e : BlocklistEngine) (ls : List Str) : BlocklistEngine :=
  match target with
  | .block =>
      { blocks := e.blocks ∪ blockRules U ls
        exceptions := e.exceptions ∪ exceptionRules U ls }
  | .allow =>
      { e with exceptions := e.exceptions ∪ (blockRules U ls ∪ exceptionRules U ls) }

/-- A report after the lines `ls` of one more file. -/
def ParseReport.addLines (U : UnicodeCase) (r : ParseReport) (ls : List Str) : ParseReport where
  total := r.total + (reportOf U ls).total
  unsupported := r.unsupported + (reportOf U ls).unsupported

theorem blockRules_append (ls ls' : List Str) :
    blockRules U (ls ++ ls') = blockRules U ls ∪ blockRules U ls' := by
  simp [blockRules, List.filterMap_append]

theorem exceptionRules_append (ls ls' : List Str) :
    exceptionRules U (ls ++ ls') = exceptionRules U ls ∪ exceptionRules U ls' := by
  simp [exceptionRules, List.filterMap_append]

namespace BlocklistEngine

/-- One line, as the set operations it stands for. -/
theorem loadLine_eq (target : RuleTarget) (e : BlocklistEngine) (r : ParseReport) (l : Str) :
    loadLine U target (e, r) l = (e.addLines U target [l], r.addLines U [l]) := by
  unfold loadLine
  cases hp : parseLine U l with
  | skip =>
      cases target <;>
        simp [addLines, ParseReport.addLines, reportOf, blockRules, exceptionRules, hp]
  | unsupported =>
      cases target <;>
        simp [addLines, ParseReport.addLines, reportOf, blockRules, exceptionRules, hp]
  | block rule =>
      cases target <;>
        simp [addLines, ParseReport.addLines, reportOf, blockRules, exceptionRules, hp,
          insertRule]
  | exception rule =>
      cases target <;>
        simp [addLines, ParseReport.addLines, reportOf, blockRules, exceptionRules, hp]

theorem addLines_append (target : RuleTarget) (e : BlocklistEngine) (ls ls' : List Str) :
    e.addLines U target (ls ++ ls') = (e.addLines U target ls).addLines U target ls' := by
  cases target with
  | block => simp [addLines, blockRules_append, exceptionRules_append, Finset.union_assoc]
  | allow =>
      simp only [addLines, blockRules_append, exceptionRules_append, mk.injEq, true_and]
      ext rule
      simp only [Finset.mem_union]
      tauto

theorem report_addLines_append (r : ParseReport) (ls ls' : List Str) :
    r.addLines U (ls ++ ls') = (r.addLines U ls).addLines U ls' := by
  simp [ParseReport.addLines, reportOf, UInt64.ofNat_add, UInt64.add_assoc]

/-- The inner loop over a whole file. -/
theorem foldl_loadLine (target : RuleTarget) (e : BlocklistEngine) (r : ParseReport)
    (ls : List Str) :
    ls.foldl (loadLine U target) (e, r) = (e.addLines U target ls, r.addLines U ls) := by
  induction ls generalizing e r with
  | nil =>
      cases target <;>
        simp [addLines, ParseReport.addLines, reportOf, blockRules, exceptionRules]
  | cons l ls ih =>
      rw [List.foldl_cons, loadLine_eq, ih, ← addLines_append, ← report_addLines_append]
      rfl

/-- `load_paths`: the first path that cannot be read is the error, and
otherwise the engine takes the lines of all files. -/
theorem loadPaths_eq (disk : Disk) (target : RuleTarget) (paths : List Path)
    (e : BlocklistEngine) (r : ParseReport) :
    loadPaths U disk target paths (e, r) =
      match paths.find? fun p => (disk p).isNone with
      | some p => .error (.io p)
      | none => .ok (e.addLines U target (linesOf disk paths),
          r.addLines U (linesOf disk paths)) := by
  induction paths generalizing e r with
  | nil =>
      have h := foldl_loadLine (U := U) target e r []
      simp only [List.foldl_nil] at h
      simp [loadPaths, linesOf, ← h]
  | cons p paths ih =>
      rw [loadPaths, List.find?_cons]
      cases hp : disk p with
      | none => rfl
      | some text =>
          simp only [Option.isNone_some]
          rw [foldl_loadLine, ih]
          have hl : linesOf disk (p :: paths) = lines text ++ linesOf disk paths := by
            simp [linesOf, hp]
          rw [hl, addLines_append, report_addLines_append]

/-- `from_sources`, whole: the first unreadable path, or the engine and the
report of all lines. -/
theorem fromSources_eq (disk : Disk) (blockPaths allowPaths : List Path) :
    fromSources U disk blockPaths allowPaths =
      match (blockPaths ++ allowPaths).find? fun p => (disk p).isNone with
      | some p => .error (.io p)
      | none => .ok (engineOf U (linesOf disk blockPaths) (linesOf disk allowPaths),
          reportOf U (linesOf disk (blockPaths ++ allowPaths))) := by
  unfold fromSources
  rw [loadPaths_eq, List.find?_append]
  cases blockPaths.find? fun p => (disk p).isNone with
  | some p => rfl
  | none =>
      rw [Option.none_or]
      dsimp only
      rw [loadPaths_eq]
      cases allowPaths.find? fun p => (disk p).isNone with
      | some p => rfl
      | none =>
          have hl : linesOf disk (blockPaths ++ allowPaths) =
              linesOf disk blockPaths ++ linesOf disk allowPaths := List.flatMap_append
          simp [addLines, ParseReport.addLines, engineOf, reportOf, hl]

theorem fromSources_of_readable {disk : Disk} {blockPaths allowPaths : List Path}
    (h : Readable disk (blockPaths ++ allowPaths)) :
    fromSources U disk blockPaths allowPaths =
      .ok (engineOf U (linesOf disk blockPaths) (linesOf disk allowPaths),
        reportOf U (linesOf disk (blockPaths ++ allowPaths))) := by
  have hnone : (blockPaths ++ allowPaths).find? (fun p => (disk p).isNone) = none := by
    rw [List.find?_eq_none]
    intro p hp
    simpa [Option.isSome_iff_ne_none] using h p hp
  rw [fromSources_eq, hnone]

theorem fromSources_of_not_readable {disk : Disk} {blockPaths allowPaths : List Path}
    (h : ¬ Readable disk (blockPaths ++ allowPaths)) :
    ∃ p, fromSources U disk blockPaths allowPaths = .error (.io p) := by
  rw [fromSources_eq]
  cases hf : (blockPaths ++ allowPaths).find? fun p => (disk p).isNone with
  | some p => exact ⟨p, rfl⟩
  | none =>
      refine absurd ?_ h
      intro p hp
      rw [List.find?_eq_none] at hf
      simpa [Option.isSome_iff_ne_none] using hf p hp

/-! ## Deciding a name -/

/-- Some rule of the set matches the normalised name. -/
def Covers (rules : Finset NormalizedRule) (normalized : Str) : Prop :=
  ∃ r, NormalizedRule.domain r ∈ rules ∧ RuleMatch normalized r

/-- No rule is the empty domain. -/
def Nonempty (rules : Finset NormalizedRule) : Prop := NormalizedRule.domain [] ∉ rules

theorem ruleMatches_iff {rules : Finset NormalizedRule} (hne : Nonempty rules)
    (normalized : Str) : ruleMatches rules normalized = true ↔ Covers rules normalized := by
  unfold ruleMatches Covers
  rw [List.any_eq_true]
  constructor
  · intro h
    obtain ⟨r, hr, hmem⟩ := h
    have hmem : NormalizedRule.domain r ∈ rules := by simpa using hmem
    have hr0 : r ≠ [] := by
      intro h0
      exact hne (h0 ▸ hmem)
    exact ⟨r, hmem, (mem_domainSuffixes hr0).mp hr⟩
  · intro h
    obtain ⟨r, hmem, hr⟩ := h
    have hr0 : r ≠ [] := by
      intro h0
      exact hne (h0 ▸ hmem)
    exact ⟨r, (mem_domainSuffixes hr0).mpr hr, by simpa using hmem⟩

/-- `decide` in terms of the rule sets: exceptions win. -/
theorem decide_cases {e : BlocklistEngine} (hb : Nonempty e.blocks)
    (he : Nonempty e.exceptions) (d : Str) :
    (e.decide U d = .exception ↔ Covers e.exceptions (normalizeDomain U d)) ∧
    (e.decide U d = .block ↔ ¬ Covers e.exceptions (normalizeDomain U d) ∧
      Covers e.blocks (normalizeDomain U d)) ∧
    (e.decide U d = .allow ↔ ¬ Covers e.exceptions (normalizeDomain U d) ∧
      ¬ Covers e.blocks (normalizeDomain U d)) := by
  rw [← ruleMatches_iff hb, ← ruleMatches_iff he]
  unfold BlocklistEngine.decide
  cases hx : ruleMatches e.exceptions (normalizeDomain U d) <;>
    cases hy : ruleMatches e.blocks (normalizeDomain U d) <;> simp [hx, hy]

end BlocklistEngine

theorem blockRules_nonempty (ls : List Str) : BlocklistEngine.Nonempty (blockRules U ls) := by
  intro h
  obtain ⟨l, _, hl⟩ := mem_blockRules.mp h
  exact looksLikeDomain_ne_nil (parseLine_wellFormed l [] (.inl hl)).1 rfl

theorem exceptionRules_nonempty (ls : List Str) :
    BlocklistEngine.Nonempty (exceptionRules U ls) := by
  intro h
  obtain ⟨l, _, hl⟩ := mem_exceptionRules.mp h
  exact looksLikeDomain_ne_nil (parseLine_wellFormed l [] (.inr hl)).1 rfl

/-! ## The whole pipeline -/

/-- Some line of `ls` parses to the given kind of rule, with a domain that
the normalised name matches. -/
def LineCovers (U : UnicodeCase) (kind : NormalizedRule → ParsedLine) (ls : List Str)
    (normalized : Str) : Prop :=
  ∃ l ∈ ls, ∃ r, parseLine U l = kind (.domain r) ∧ RuleMatch normalized r

/-- A set that holds the rules of one kind covers what their lines cover. -/
theorem covers_iff_lineCovers {rules : Finset NormalizedRule}
    {kind : NormalizedRule → ParsedLine} {ls : List Str}
    (hmem : ∀ rule, rule ∈ rules ↔ ∃ l ∈ ls, parseLine U l = kind rule) {n : Str} :
    BlocklistEngine.Covers rules n ↔ LineCovers U kind ls n := by
  unfold BlocklistEngine.Covers LineCovers
  simp only [hmem]
  constructor
  · intro h
    obtain ⟨r, ⟨l, hl, hp⟩, hm⟩ := h
    exact ⟨l, hl, r, hp, hm⟩
  · intro h
    obtain ⟨l, hl, r, hp, hm⟩ := h
    exact ⟨r, ⟨l, hl, hp⟩, hm⟩

theorem covers_blockRules {ls : List Str} {n : Str} :
    BlocklistEngine.Covers (blockRules U ls) n ↔ LineCovers U .block ls n :=
  covers_iff_lineCovers fun _ => mem_blockRules

theorem covers_exceptionRules {ls : List Str} {n : Str} :
    BlocklistEngine.Covers (exceptionRules U ls) n ↔ LineCovers U .exception ls n :=
  covers_iff_lineCovers fun _ => mem_exceptionRules

theorem covers_union {A B : Finset NormalizedRule} {n : Str} :
    BlocklistEngine.Covers (A ∪ B) n ↔
      BlocklistEngine.Covers A n ∨ BlocklistEngine.Covers B n := by
  unfold BlocklistEngine.Covers
  simp only [Finset.mem_union, or_and_right, exists_or]

theorem lineCovers_append {kind : NormalizedRule → ParsedLine} {ls ls' : List Str} {n : Str} :
    LineCovers U kind (ls ++ ls') n ↔ LineCovers U kind ls n ∨ LineCovers U kind ls' n := by
  unfold LineCovers
  simp only [List.mem_append, or_and_right, exists_or]

/-- The normalised name has an exception among block lines `bs` and allow
lines `as`: an exception rule in either, or a block rule of an allow file. -/
def ExceptionCovers (U : UnicodeCase) (bs as : List Str) (normalized : Str) : Prop :=
  LineCovers U .exception (bs ++ as) normalized ∨ LineCovers U .block as normalized

/-- The engine of the lines decides by the lines. -/
theorem engineOf_decide (bs as : List Str) (d : Str) :
    ((engineOf U bs as).decide U d = .exception ↔
      ExceptionCovers U bs as (normalizeDomain U d)) ∧
    ((engineOf U bs as).decide U d = .block ↔
      ¬ ExceptionCovers U bs as (normalizeDomain U d) ∧
        LineCovers U .block bs (normalizeDomain U d)) ∧
    ((engineOf U bs as).decide U d = .allow ↔
      ¬ ExceptionCovers U bs as (normalizeDomain U d) ∧
        ¬ LineCovers U .block bs (normalizeDomain U d)) := by
  have hb : BlocklistEngine.Nonempty (engineOf U bs as).blocks := blockRules_nonempty bs
  have he : BlocklistEngine.Nonempty (engineOf U bs as).exceptions := by
    unfold BlocklistEngine.Nonempty engineOf
    simp only [Finset.mem_union, not_or]
    exact ⟨exceptionRules_nonempty bs, blockRules_nonempty as, exceptionRules_nonempty as⟩
  have hx : BlocklistEngine.Covers (engineOf U bs as).exceptions (normalizeDomain U d) ↔
      ExceptionCovers U bs as (normalizeDomain U d) := by
    unfold engineOf ExceptionCovers
    rw [covers_union, covers_union, covers_exceptionRules, covers_blockRules,
      covers_exceptionRules, lineCovers_append]
    tauto
  have h := BlocklistEngine.decide_cases (U := U) hb he d
  rw [hx] at h
  rwa [show (engineOf U bs as).blocks = blockRules U bs from rfl, covers_blockRules] at h

/-- Only the SET of lines of each kind matters. -/
theorem engineOf_congr {bs bs' as as' : List Str} (hb : ∀ l, l ∈ bs' ↔ l ∈ bs)
    (ha : ∀ l, l ∈ as' ↔ l ∈ as) : engineOf U bs' as' = engineOf U bs as := by
  have hblock : ∀ {xs ys : List Str}, (∀ l, l ∈ xs ↔ l ∈ ys) →
      blockRules U xs = blockRules U ys := by
    intro xs ys h
    ext rule
    simp only [mem_blockRules, h]
  have hexc : ∀ {xs ys : List Str}, (∀ l, l ∈ xs ↔ l ∈ ys) →
      exceptionRules U xs = exceptionRules U ys := by
    intro xs ys h
    ext rule
    simp only [mem_exceptionRules, h]
  rw [engineOf, engineOf, hblock hb, hblock ha, hexc hb, hexc ha]

/-- `normalize_domain` does not see ASCII letter case. -/
theorem normalizeDomain_congr {d d' : Str} (h : d.map Char.toLower = d'.map Char.toLower) :
    normalizeDomain U d = normalizeDomain U d' := by
  unfold normalizeDomain
  rw [← toLowercase_map_toLower, ← trim_map_toLower, h, trim_map_toLower,
    toLowercase_map_toLower]

theorem BlocklistEngine.decide_congr (e : BlocklistEngine) {d d' : Str}
    (h : d.map Char.toLower = d'.map Char.toLower) : e.decide U d = e.decide U d' := by
  unfold BlocklistEngine.decide
  rw [normalizeDomain_congr h]

/-- Below 2^64 lines the report has their numbers. -/
theorem toNat_reportOf {ls : List Str} (h : ls.length < 2 ^ 64) :
    (reportOf U ls).total.toNat = ls.length ∧
      (reportOf U ls).unsupported.toNat =
        ls.countP fun l => parseLine U l = .unsupported :=
  ⟨UInt64.toNat_ofNat_of_lt' h,
    UInt64.toNat_ofNat_of_lt' (Nat.lt_of_le_of_lt List.countP_le_length h)⟩

end

/-- **The loading pipeline, read backwards.** From readable files
`from_sources` builds an engine that decides every name by the parsed
lines, exceptions first; any other files with the same set of block lines
and of allow lines build the SAME engine; ASCII letter case of the name
is not seen; and the report counts the lines, as long as 64 bits hold
their number. -/
theorem fromSources_decides (U : UnicodeCase) (disk : Disk) (blockPaths allowPaths : List Path)
    (hread : Readable disk (blockPaths ++ allowPaths)) :
    let bs := linesOf disk blockPaths
    let as := linesOf disk allowPaths
    ∃ engine report,
      BlocklistEngine.fromSources U disk blockPaths allowPaths = .ok (engine, report) ∧
      (∀ d,
        (engine.decide U d = .exception ↔ ExceptionCovers U bs as (normalizeDomain U d)) ∧
        (engine.decide U d = .block ↔
          ¬ ExceptionCovers U bs as (normalizeDomain U d) ∧
            LineCovers U .block bs (normalizeDomain U d)) ∧
        (engine.decide U d = .allow ↔
          ¬ ExceptionCovers U bs as (normalizeDomain U d) ∧
            ¬ LineCovers U .block bs (normalizeDomain U d))) ∧
      (∀ disk' blockPaths' allowPaths', Readable disk' (blockPaths' ++ allowPaths') →
        (∀ l, l ∈ linesOf disk' blockPaths' ↔ l ∈ bs) →
        (∀ l, l ∈ linesOf disk' allowPaths' ↔ l ∈ as) →
        ∃ report', BlocklistEngine.fromSources U disk' blockPaths' allowPaths' =
          .ok (engine, report')) ∧
      (∀ d d', d.map Char.toLower = d'.map Char.toLower →
        engine.decide U d = engine.decide U d') ∧
      ((bs ++ as).length < 2 ^ 64 →
        report.total.toNat = (bs ++ as).length ∧
        report.unsupported.toNat =
          (bs ++ as).countP fun l => parseLine U l = .unsupported) := by
  intro bs as
  have hl : linesOf disk (blockPaths ++ allowPaths) = bs ++ as := List.flatMap_append
  refine ⟨_, _, BlocklistEngine.fromSources_of_readable hread, engineOf_decide bs as, ?_,
    fun d d' h => BlocklistEngine.decide_congr _ h, ?_⟩
  -- the engine depends on which lines there are, the report on how many
  · intro disk' blockPaths' allowPaths' hread' hb ha
    refine ⟨reportOf U (linesOf disk' (blockPaths' ++ allowPaths')), ?_⟩
    rw [BlocklistEngine.fromSources_of_readable hread', engineOf_congr hb ha]
  · rw [hl]
    exact toNat_reportOf

/-- One block file and one allow file: the pipeline of
`fromSources_decides` on a blocked, an excepted and an allowed name. -/
theorem fromSources_decides_two_files :
    let disk : Disk := fun p =>
      if p = "block".toList then some "||ads.example^\n0.0.0.0 t.example # x\n/re/\n".toList
      else if p = "allow".toList then some "ok.ads.example".toList
      else none
    ∃ engine report,
      BlocklistEngine.fromSources .ascii disk ["block".toList] ["allow".toList] =
        .ok (engine, report) ∧
      engine.decide .ascii "X.ADS.example".toList = .block ∧
      engine.decide .ascii "ok.ads.example".toList = .exception ∧
      engine.decide .ascii "badads.example".toList = .allow ∧
      report = ⟨4, 1⟩ := by
  intro disk
  have hread : Readable disk (["block".toList] ++ ["allow".toList]) := by
    unfold Readable
    decide
  obtain ⟨engine, report, hok, -, -, -, hcount⟩ :=
    fromSources_decides .ascii disk ["block".toList] ["allow".toList] hread
  have hdec : ∀ e r, BlocklistEngine.fromSources .ascii disk ["block".toList]
      ["allow".toList] = .ok (e, r) → e.decide .ascii "X.ADS.example".toList = .block ∧
        e.decide .ascii "ok.ads.example".toList = .exception ∧
        e.decide .ascii "badads.example".toList = .allow := by
    intro e r he
    cases he
    decide
  obtain ⟨h1, h2, h3⟩ := hdec engine report hok
  refine ⟨engine, report, hok, h1, h2, h3, ?_⟩
  obtain ⟨htotal, hunsup⟩ := hcount (by decide)
  have htotal' : report.total = 4 := UInt64.toNat_inj.mp (htotal.trans (by decide))
  have hunsup' : report.unsupported = 1 := UInt64.toNat_inj.mp (hunsup.trans (by decide))
  cases report
  simp_all

/-- A file of nothing but `n` line feeds. -/
theorem lines_replicate (n : Nat) : lines (List.replicate n '\n') = List.replicate n [] := by
  induction n with
  | zero => rfl
  | succ n ih =>
      rw [List.replicate_succ, List.replicate_succ]
      exact congrArg ([] :: ·) ih

/-- A block file of 2^64 empty lines: the report's total is back at zero. -/
theorem fromSources_report_wraps :
    let disk : Disk := fun _ => some (List.replicate (2 ^ 64) '\n')
    ∃ engine report,
      BlocklistEngine.fromSources .ascii disk ["block".toList] [] = .ok (engine, report) ∧
      report.total.toNat ≠ (linesOf disk ["block".toList]).length := by
  intro disk
  have hread : Readable disk (["block".toList] ++ []) := fun _ _ => rfl
  -- 2^64 line feeds are 2^64 empty lines
  have hlines : linesOf disk ["block".toList] = List.replicate (2 ^ 64) [] := by
    rw [← lines_replicate]
    exact List.append_nil _
  refine ⟨_, _, BlocklistEngine.fromSources_of_readable hread, ?_⟩
  rw [List.append_nil, hlines, reportOf, List.length_replicate]
  decide

end Dotdns
