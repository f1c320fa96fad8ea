import Dotdns.Blocklist.Engine

/-!
# Blocklist — rules against wire names

A rule is text from a file; a query name is a sequence of raw byte labels
that the DNS library renders as text before the rules see it. This module
compares the two readings: a rule `||D^` of host labels, and a name whose
labels end in the labels of `D`.

They agree wherever the labels compared are rendered AS THEMSELVES
(`RendersAsItself`); a decoded A-label, or an escaped byte, is where they
part. `hostRule_exact_iff` says exactly when.
-/

namespace Dotdns

open Lib

/-- The text looked up for a question name: rendered, without trailing
dots. -/
def queryDomain (text : LabelText) (n : Name) : Str := trimEndMatches '.' (n.toUtf8 text)

/-! ## Host labels -/

/-- Letter, digit, hyphen or underscore. -/
def isHostByte (b : UInt8) : Bool :=
  decide (48 ≤ b ∧ b ≤ 57) || decide (65 ≤ b ∧ b ≤ 90) || decide (97 ≤ b ∧ b ≤ 122)
    || b == 45 || b == 95

/-- Letters, digits, hyphens and underscores, at least one. -/
def HostLabel (l : Label) : Prop := l ≠ [] ∧ ∀ b ∈ l, isHostByte b = true

instance : DecidablePred HostLabel := fun l =>
  decidable_of_iff (l ≠ [] ∧ l.all isHostByte = true) (and_congr_right' List.all_eq_true)

/-- The bytes of a label as characters. -/
def Label.chars (l : Label) : Str := l.map fun b => Char.ofNat b.toNat

/-- The hostname with the given labels. -/
def hostname (ds : List Label) : Str := ['.'].intercalate (ds.map Label.chars)

/-- The line `||D^`. -/
def hostRule (ds : List Label) : Str := '|' :: '|' :: (hostname ds ++ ['^'])

/-- The engine whose only rule comes from that line. -/
def hostEngine (U : UnicodeCase) (ds : List Label) : BlocklistEngine :=
  (BlocklistEngine.loadLine U .block ({}, {}) (hostRule ds)).1

theorem forall_byte {P : UInt8 → Prop} (h : ∀ n : Fin 256, P (UInt8.ofFin n)) (b : UInt8) :
    P b := h b.toFin

/-- Everything the parser and the matcher ask of a host byte's character. -/
theorem char_of_hostByte : ∀ b : UInt8, isHostByte b = true →
    (Char.ofNat b.toNat).toNat < 128 ∧
    isWhitespace (Char.ofNat b.toNat) = false ∧
    Char.ofNat b.toNat ∉ ['.', '#', '$', '*', '/', '^'] ∧
    (Char.ofNat b.toNat).toLower = Char.ofNat (toAsciiLowercase b).toNat :=
  forall_byte (by decide +kernel)

theorem isHostByte_toAsciiLowercase : ∀ b : UInt8,
    isHostByte (toAsciiLowercase b) = isHostByte b :=
  forall_byte (by decide +kernel)

theorem Label.chars_inj {l l' : Label} (h : l.chars = l'.chars) : l = l' := by
  have hinj : ∀ a b : UInt8, Char.ofNat a.toNat = Char.ofNat b.toNat → a = b := by
    intro a b hab
    have hval : ∀ c : UInt8, (Char.ofNat c.toNat).toNat = c.toNat :=
      forall_byte (by decide +kernel)
    have := congrArg Char.toNat hab
    rw [hval, hval] at this
    exact UInt8.toNat_inj.mp this
  exact List.map_injective_iff.mpr (fun a b => hinj a b) h

theorem HostLabel.of_lower_eq {l d : Label} (hd : HostLabel d) (h : l.lower = d.lower) :
    HostLabel l := by
  refine ⟨?_, ?_⟩
  · intro hl
    subst hl
    exact hd.1 (List.map_eq_nil_iff.mp h.symm)
  · intro b hb
    have hmem : toAsciiLowercase b ∈ d.lower := h ▸ List.mem_map_of_mem hb
    obtain ⟨b', hb', heq⟩ := List.mem_map.mp hmem
    rw [← isHostByte_toAsciiLowercase, ← heq, isHostByte_toAsciiLowercase]
    exact hd.2 b' hb'

theorem HostLabel.lower {d : Label} (hd : HostLabel d) : HostLabel d.lower := by
  refine ⟨fun h => hd.1 (List.map_eq_nil_iff.mp h), ?_⟩
  intro b hb
  obtain ⟨b', hb', rfl⟩ := List.mem_map.mp hb
  rw [isHostByte_toAsciiLowercase]
  exact hd.2 b' hb'

theorem HostLabel.char_mem {d : Label} (hd : HostLabel d) {c : Char} (hc : c ∈ d.chars) :
    c.toNat < 128 ∧ isWhitespace c = false ∧ c ∉ ['.', '#', '$', '*', '/', '^'] := by
  obtain ⟨b, hb, rfl⟩ := List.mem_map.mp hc
  obtain ⟨h1, h2, h3, _⟩ := char_of_hostByte b (hd.2 b hb)
  exact ⟨h1, h2, h3⟩

theorem HostLabel.chars_lower {d : Label} (hd : HostLabel d) :
    d.chars.map Char.toLower = d.lower.chars := by
  unfold Label.chars Label.lower
  rw [List.map_map, List.map_map]
  refine List.map_congr_left fun b hb => ?_
  exact (char_of_hostByte b (hd.2 b hb)).2.2.2

/-! ## The rule of a hostname -/

section
variable {U : UnicodeCase} {ds : List Label}

theorem hostname_char (hds : ∀ d ∈ ds, HostLabel d) {c : Char} (hc : c ∈ hostname ds) :
    c.toNat < 128 ∧ isWhitespace c = false ∧ c ∉ ['#', '$', '*', '/', '^'] := by
  rcases mem_intercalate hc with rfl | ⟨l, hl, hc⟩
  · decide
  · obtain ⟨d, hd, rfl⟩ := List.mem_map.mp hl
    obtain ⟨h1, h2, h3⟩ := (hds d hd).char_mem hc
    exact ⟨h1, h2, fun h => h3 (List.mem_cons_of_mem _ h)⟩

theorem hostRule_char (hds : ∀ d ∈ ds, HostLabel d) {c : Char} (hc : c ∈ hostRule ds) :
    isWhitespace c = false ∧ c ∉ ['#', '$'] := by
  unfold hostRule at hc
  simp only [List.mem_cons, List.mem_append, List.not_mem_nil, or_false] at hc
  rcases hc with rfl | rfl | hc | rfl
  · decide
  · decide
  · obtain ⟨_, h2, h3⟩ := hostname_char hds hc
    simp only [List.mem_cons, List.not_mem_nil, or_false, not_or] at h3 ⊢
    exact ⟨h2, h3.1, h3.2.1⟩
  · decide

/-- Normalising a hostname lowers its labels. -/
theorem normalizeDomain_hostname (hds : ∀ d ∈ ds, HostLabel d) :
    normalizeDomain U (hostname ds) = hostname (ds.map Label.lower) := by
  have hascii : ∀ c ∈ hostname ds, c.toNat < 128 := fun c hc => (hostname_char hds hc).1
  unfold normalizeDomain
  rw [trim_eq_self fun c hc => (hostname_char hds hc).2.1, toLowercase_ascii U hascii,
    ← lowerEach_ascii U hascii]
  unfold hostname
  rw [lowerEach_intercalate, List.map_map, List.map_map]
  congr 1
  refine List.map_congr_left fun d hd => ?_
  show lowerEach U d.chars = d.lower.chars
  rw [lowerEach_ascii U fun c hc => ((hds d hd).char_mem hc).1, (hds d hd).chars_lower]

theorem dot_mem_hostname (hlen : 2 ≤ ds.length) : '.' ∈ hostname ds := by
  match ds, hlen with
  | d :: d' :: rest, _ =>
      rw [hostname, List.map_cons, List.map_cons, List.intercalate_cons_cons]
      simp

theorem looksLikeDomain_hostname (hds : ∀ d ∈ ds, HostLabel d) (hlen : 2 ≤ ds.length) :
    looksLikeDomain (hostname ds) = true := by
  have hno : ∀ c ∈ hostname ds, isWhitespace c = false ∧ c ≠ '/' ∧ c ≠ '*' := by
    intro c hc
    obtain ⟨_, h2, h3⟩ := hostname_char hds hc
    simp only [List.mem_cons, List.not_mem_nil, or_false, not_or] at h3
    exact ⟨h2, h3.2.2.2.1, h3.2.2.1⟩
  have hhead : (hostname ds).head?.any (· == '/') = false := by
    cases hh : (hostname ds).head? with
    | none => rfl
    | some c => simpa using (hno c (List.mem_of_head? hh)).2.1
  unfold looksLikeDomain
  rw [hhead]
  simp only [Bool.and_eq_true, List.contains_iff_mem, List.all_eq_true, Bool.not_false, and_true,
    Bool.not_eq_true']
  refine ⟨⟨dot_mem_hostname hlen, fun c hc => (hno c hc).1⟩, ?_⟩
  rw [Bool.eq_false_iff, ne_eq, List.contains_iff_mem]
  intro h
  exact (hno '*' h).2.2 rfl

/-- The line `||D^` is the block rule of `D`, lowered. -/
theorem parseLine_hostRule (hds : ∀ d ∈ ds, HostLabel d) (hlen : 2 ≤ ds.length) :
    parseLine U (hostRule ds) = .block (.domain (hostname (ds.map Label.lower))) := by
  have htrim : trim (hostRule ds) = hostRule ds :=
    trim_eq_self fun c hc => (hostRule_char hds hc).1
  have hhash : ∀ c ∈ hostRule ds, c ≠ '#' ∧ c ≠ '$' := by
    intro c hc
    simpa using (hostRule_char hds hc).2
  have hno : ∀ pat : Str, '#' ∈ pat → containsStr pat (hostRule ds) = false := by
    intro pat hp
    rw [Bool.eq_false_iff]
    intro h
    exact (hhash '#' (mem_of_containsStr h hp)).1 rfl
  have hcomment : (hostRule ds).takeWhile (· ≠ '#') = hostRule ds :=
    List.takeWhile_eq_self_iff.mpr fun c hc => by simpa using (hhash c hc).1
  have hdollar : (hostRule ds).contains '$' = false := by
    rw [Bool.eq_false_iff, ne_eq, List.contains_iff_mem]
    intro h
    exact (hhash '$' h).2 rfl
  have hrule : domainRule U (hostname ds) =
      some (.domain (hostname (ds.map Label.lower))) := by
    refine domainRule_eq_some.mpr ⟨by rw [normalizeDomain_hostname hds], ?_⟩
    rw [normalizeDomain_hostname hds]
    refine looksLikeDomain_hostname ?_ (by rwa [List.length_map])
    intro d hd
    obtain ⟨d', hd', rfl⟩ := List.mem_map.mp hd
    exact (hds d' hd').lower
  have hcaret : stripCaret (hostname ds ++ ['^']) = hostname ds := by
    simp [stripCaret]
  unfold parseLine
  simp only [htrim, hno, hcomment, hdollar, List.mem_cons, true_or, Bool.or_self,
    Bool.false_eq_true, if_false]
  simp only [hostRule, List.isEmpty_cons, List.head?_cons, parseRule, ruleLine]
  simp [hcaret, hrule]

/-! ## Matching, piece by piece -/

/-- Matching a dotted rule compares the last dot-separated pieces. -/
theorem ruleMatch_intercalate {n : Str} {rs : List Str} (hne : rs ≠ [])
    (hdot : ∀ r ∈ rs, '.' ∉ r) :
    RuleMatch n (['.'].intercalate rs) ↔ rs <:+ n.splitOn '.' := by
  have hrs : (['.'].intercalate rs).splitOn '.' = rs := List.splitOn_intercalate '.' hdot hne
  constructor
  · intro h
    rcases h with rfl | ⟨p, rfl⟩
    · rw [hrs]
    · rw [List.splitOn_append_cons_self, hrs]
      exact List.suffix_append _ _
  · intro h
    obtain ⟨a, ha⟩ := h
    have hn : ['.'].intercalate (a ++ rs) = n := by rw [ha, List.intercalate_splitOn]
    by_cases ha0 : a = []
    · subst ha0
      exact .inl hn.symm
    · rw [intercalate_append ha0 hne] at hn
      exact .inr ⟨['.'].intercalate a, hn⟩

/-- The text of a rendered label is one label again: not empty, no dot and
no white space in it. -/
def OneLabel (t : Str) : Prop := t ≠ [] ∧ ∀ c ∈ t, c ≠ '.' ∧ isWhitespace c = false

instance : DecidablePred OneLabel := fun t =>
  decidable_of_iff (t ≠ [] ∧ t.all (fun c => c != '.' && !isWhitespace c) = true)
    (and_congr_right' (by simp))

/-- The rendered form of a label is the label, up to letter case. -/
def RendersAsItself (U : UnicodeCase) (text : LabelText) (l : Label) : Prop :=
  OneLabel (text l) ∧ lowerEach U (text l) = l.lower.chars

theorem OneLabel.not_dot_mem {t : Str} (h : OneLabel t) : '.' ∉ t := by
  intro hd
  exact (h.2 '.' hd).1 rfl

/-- A dotted text of one-label pieces keeps its ends when trimmed. -/
theorem trim_ends {ts : List Str} (hne : ts ≠ []) (hts : ∀ t ∈ ts, OneLabel t) :
    (∃ c ∈ (['.'].intercalate ts).head?, isWhitespace c = false) ∧
    ∃ c ∈ (['.'].intercalate ts).getLast?, c ≠ '.' ∧ isWhitespace c = false := by
  have hhead : ∀ {t : Str}, OneLabel t → ∃ c ∈ t.head?, isWhitespace c = false := by
    intro t ht
    obtain ⟨c, t, rfl⟩ := List.exists_cons_of_ne_nil ht.1
    exact ⟨c, rfl, (ht.2 c List.mem_cons_self).2⟩
  have hlast : ∀ {t : Str}, OneLabel t → ∃ c ∈ t.getLast?, c ≠ '.' ∧ isWhitespace c = false := by
    intro t ht
    exact ⟨t.getLast ht.1, List.getLast?_eq_some_getLast ht.1, ht.2 _ (List.getLast_mem ht.1)⟩
  refine ⟨?_, ?_⟩
  · obtain ⟨t, ts, rfl⟩ := List.exists_cons_of_ne_nil hne
    obtain ⟨c, hc, hw⟩ := hhead (hts t List.mem_cons_self)
    refine ⟨c, ?_, hw⟩
    cases ts with
    | nil => rwa [List.intercalate_singleton]
    | cons u ts =>
        rw [List.intercalate_cons_cons, List.append_assoc, List.head?_append,
          Option.mem_def.mp hc]
        rfl
  · induction ts with
    | nil => exact absurd rfl hne
    | cons t ts ih =>
        cases ts with
        | nil =>
            rw [List.intercalate_singleton]
            exact hlast (hts t List.mem_cons_self)
        | cons u ts =>
            obtain ⟨c, hc, hok⟩ := ih (by simp) fun t ht => hts t (List.mem_cons_of_mem _ ht)
            refine ⟨c, ?_, hok⟩
            rw [List.intercalate_cons_cons, List.getLast?_append, Option.mem_def.mp hc]
            rfl

/-- Trailing dots go and nothing else, when the last rendered label is one
label. -/
theorem queryDomain_eq {text : LabelText} {n : Name} {as bs : List Label}
    (hl : n.labels = as ++ bs) (hbs : bs ≠ []) (hone : ∀ b ∈ bs, OneLabel (text b)) :
    queryDomain text n =
      if as = [] then ['.'].intercalate (bs.map text)
      else ['.'].intercalate (as.map text) ++ '.' :: ['.'].intercalate (bs.map text) := by
  have hX : ['.'].intercalate (n.labels.map text) =
      if as = [] then ['.'].intercalate (bs.map text)
      else ['.'].intercalate (as.map text) ++ '.' :: ['.'].intercalate (bs.map text) := by
    rw [hl, List.map_append]
    split
    · rename_i ha
      rw [ha]
      rfl
    · rename_i ha
      rw [intercalate_append (by simpa using ha) (by simpa using hbs)]
      rfl
  have hts : ∀ t ∈ bs.map text, OneLabel t := by
    intro t ht
    obtain ⟨b, hb, rfl⟩ := List.mem_map.mp ht
    exact hone b hb
  obtain ⟨_, c, hc, hdot, _⟩ := trim_ends (by simpa using hbs) hts
  have hlast : (['.'].intercalate (n.labels.map text)).getLast? = some c := by
    rw [hX]
    split
    · exact hc
    · rw [List.getLast?_append, List.getLast?_cons, Option.mem_def.mp hc]
      rfl
  have hself : (['.'].intercalate (n.labels.map text)).rdropWhile (· == '.') =
      ['.'].intercalate (n.labels.map text) := by
    rw [List.rdropWhile_eq_self_iff]
    intro hne
    rw [List.getLast?_eq_some_getLast hne] at hlast
    rw [Option.some.inj hlast]
    simpa using hdot
  unfold queryDomain trimEndMatches Name.toUtf8
  rw [← hX]
  split
  · rw [List.rdropWhile_concat_pos _ _ _ (by rfl), hself]
  · rw [List.append_nil, hself]

/-- The pieces the rules see end in the rendered last labels, lowered. -/
theorem pieces_queryDomain {text : LabelText} {n : Name} {as bs : List Label}
    (hl : n.labels = as ++ bs) (hbs : bs ≠ []) (hone : ∀ b ∈ bs, OneLabel (text b)) :
    ∃ front, (lowerEach U (trim (queryDomain text n))).splitOn '.' =
      front ++ bs.map (fun b => lowerEach U (text b)) ∧ (as = [] → front = []) := by
  have hts : ∀ t ∈ bs.map text, OneLabel t := by
    intro t ht
    obtain ⟨b, hb, rfl⟩ := List.mem_map.mp ht
    exact hone b hb
  have hne : bs.map text ≠ [] := by simpa using hbs
  obtain ⟨⟨c, hc, hcw⟩, e, he, _, hew⟩ := trim_ends hne hts
  have hsplit : (lowerEach U (['.'].intercalate (bs.map text))).splitOn '.' =
      bs.map fun b => lowerEach U (text b) := by
    rw [lowerEach_intercalate, List.map_map]
    refine List.splitOn_intercalate '.' ?_ (by simpa using hbs)
    intro t ht
    obtain ⟨b, hb, rfl⟩ := List.mem_map.mp ht
    exact fun hd => (hone b hb).not_dot_mem (dot_mem_lowerEach.mp hd)
  rw [queryDomain_eq hl hbs hone]
  split
  · rename_i ha
    refine ⟨[], ?_, fun _ => rfl⟩
    rw [trim_of_ends hc hcw he hew, hsplit]
    rfl
  · rename_i ha
    refine ⟨(lowerEach U (trimStart (['.'].intercalate (as.map text)))).splitOn '.', ?_,
      fun h => absurd h ha⟩
    rw [trim_append_cons (by decide) he hew, lowerEach_append, ← hsplit]
    have hdot : lowerEach U ('.' :: ['.'].intercalate (bs.map text)) =
        '.' :: lowerEach U (['.'].intercalate (bs.map text)) := by
      rw [lowerEach, List.flatMap_cons, U.lower_ascii '.' (by decide)]
      rfl
    rw [hdot, List.splitOn_append_cons_self]

/-! ## The two readings -/

/-- The labels of `D` end the labels of the name, up to ASCII case. -/
def LabelsEndWith (n : Name) (ds : List Label) : Prop := ds.map Label.lower <:+ n.folded

/-- The labels of `D` end the dot-separated pieces of the name's rendered
text, lowercased. -/
def TextEndsWith (U : UnicodeCase) (text : LabelText) (n : Name) (ds : List Label) : Prop :=
  ds.map (fun d => d.lower.chars) <:+ (lowerEach U (trim (queryDomain text n))).splitOn '.'

/-- The engine of `||D^` blocks by the rendered text. -/
theorem hostEngine_blocks_iff (hds : ∀ d ∈ ds, HostLabel d) (hlen : 2 ≤ ds.length)
    (text : LabelText) (n : Name) :
    ((hostEngine U ds).decide U (queryDomain text n)).isBlocked = true ↔
      TextEndsWith U text n ds := by
  have hhost : ∀ d ∈ ds.map Label.lower, HostLabel d := by
    intro d hd
    obtain ⟨d', hd', rfl⟩ := List.mem_map.mp hd
    exact (hds d' hd').lower
  have hengine : hostEngine U ds =
      { blocks := {.domain (hostname (ds.map Label.lower))}, exceptions := ∅ } := by
    unfold hostEngine BlocklistEngine.loadLine
    rw [parseLine_hostRule hds hlen]
    rfl
  have hne : hostname (ds.map Label.lower) ≠ [] := by
    intro h
    have := @dot_mem_hostname (ds.map Label.lower) (by rwa [List.length_map])
    rw [h] at this
    cases this
  have hcases := (BlocklistEngine.decide_cases (U := U) (e := hostEngine U ds)
    (by rw [hengine]; simpa [BlocklistEngine.Nonempty] using hne.symm)
    (by rw [hengine]; simp [BlocklistEngine.Nonempty]) (queryDomain text n)).2.1
  have hblocked : ((hostEngine U ds).decide U (queryDomain text n)).isBlocked = true ↔
      (hostEngine U ds).decide U (queryDomain text n) = .block := by
    cases (hostEngine U ds).decide U (queryDomain text n) <;> simp [BlockDecision.isBlocked]
  -- the one rule, at a dot boundary of the lowercased text
  have hmatch : RuleMatch (normalizeDomain U (queryDomain text n))
      (hostname (ds.map Label.lower)) ↔
      RuleMatch (lowerEach U (trim (queryDomain text n))) (hostname (ds.map Label.lower)) := by
    have hform : ∀ m r : Str, RuleMatch m r ↔ '.' :: r <:+ '.' :: m := by
      intro m r
      rw [List.suffix_cons_iff, List.cons.injEq]
      unfold RuleMatch
      simp [eq_comm]
    rw [hform, hform]
    refine suffix_toLowercase ?_ '.'
    intro c hc
    have hlt : c.toNat < 128 := by
      rcases List.mem_cons.mp hc with rfl | hc
      · decide
      · exact (hostname_char hhost hc).1
    constructor <;>
      · intro h
        subst h
        exact absurd hlt (by decide)
  rw [hblocked, hcases, hengine]
  simp only [BlocklistEngine.Covers, Finset.notMem_empty, false_and, exists_false,
    not_false_eq_true, true_and, Finset.mem_singleton, NormalizedRule.domain.injEq, exists_eq_left]
  rw [hmatch, hostname, ruleMatch_intercalate, List.map_map]
  · rfl
  · intro h
    simp only [List.map_map, List.map_eq_nil_iff] at h
    subst h
    simp at hlen
  · intro r hr
    obtain ⟨d, hd, rfl⟩ := List.mem_map.mp hr
    intro hdot
    have := ((hhost d hd).char_mem hdot).2.2
    simp at this

/-- The last labels of a name, as many as `D` has. -/
def lastLabels (n : Name) (ds : List Label) : List Label :=
  n.labels.drop (n.labels.length - ds.length)

theorem suffix_append_iff {α : Type*} {a b c : List α} (h : a.length = c.length) :
    a <:+ b ++ c ↔ a = c := by
  constructor
  · intro hs
    obtain ⟨p, hp⟩ := hs
    exact (List.append_inj' hp h).2
  · intro hac
    rw [hac]
    exact List.suffix_append b c

/-- Where the last labels are one label each, the text ends with `D`
exactly when they are rendered as the labels of `D`. -/
theorem textEndsWith_iff {text : LabelText} {n : Name} (hne : ds ≠ [])
    (hlen : ds.length ≤ n.labels.length) (hone : ∀ l ∈ lastLabels n ds, OneLabel (text l)) :
    TextEndsWith U text n ds ↔ ds.map (fun d => d.lower.chars) =
      (lastLabels n ds).map fun l => lowerEach U (text l) := by
  have hcount : (lastLabels n ds).length = ds.length := by
    rw [lastLabels, List.length_drop]
    omega
  have hlast : lastLabels n ds ≠ [] := by
    intro h
    rw [h] at hcount
    exact hne (List.length_eq_zero_iff.mp hcount.symm)
  have hsplit : n.labels = n.labels.take (n.labels.length - ds.length) ++ lastLabels n ds :=
    (List.take_append_drop _ n.labels).symm
  obtain ⟨front, hpieces, _⟩ := pieces_queryDomain (U := U) hsplit hlast hone
  unfold TextEndsWith
  rw [hpieces, suffix_append_iff (by rw [List.length_map, List.length_map, hcount])]

theorem labelsEndWith_iff {n : Name} (hlen : ds.length ≤ n.labels.length) :
    LabelsEndWith n ds ↔ ds.map Label.lower = (lastLabels n ds).map Label.lower := by
  have hsplit : n.folded = (n.labels.take (n.labels.length - ds.length)).map Label.lower ++
      (lastLabels n ds).map Label.lower := by
    rw [← List.map_append, lastLabels, List.take_append_drop]
    rfl
  unfold LabelsEndWith
  rw [hsplit, suffix_append_iff]
  simp only [lastLabels, List.length_map, List.length_drop]
  omega

/-- A name with fewer labels than `D`, each rendered as one label, ends
with `D` in neither reading. -/
theorem not_endsWith_of_short {text : LabelText} {n : Name} (hlen : 2 ≤ ds.length)
    (hshort : n.labels.length < ds.length) (hone : ∀ l ∈ n.labels, OneLabel (text l)) :
    ¬ TextEndsWith U text n ds := by
  intro h
  have hle := h.length_le
  rw [List.length_map] at hle
  by_cases hl : n.labels = []
  · have hempty : queryDomain text n = [] := by
      rw [queryDomain, Name.toUtf8, hl]
      rfl
    rw [hempty] at hle
    simp [trim, trimStart, trimEnd, lowerEach] at hle
    omega
  · obtain ⟨front, hpieces, hfront⟩ := @pieces_queryDomain U text n [] n.labels rfl hl hone
    rw [hpieces, hfront rfl, List.nil_append, List.length_map] at hle
    omega

end

/-- **When a host rule is exact.** For the engine of `||D^` and any wire
name: the name is blocked exactly when its labels end in the labels of
`D` — if and only if every one of its last labels, as many as `D` has, is
rendered as itself, or `D` ends neither its labels nor its rendered text.

`hrender` is what the DNS library promises of a host label: its rendered
form, decoded or not, is one label. -/
theorem hostRule_exact_iff (U : UnicodeCase) (text : LabelText)
    (hrender : ∀ l, HostLabel l → OneLabel (text l)) (ds : List Label)
    (hds : ∀ d ∈ ds, HostLabel d) (hlen : 2 ≤ ds.length) (n : Name) :
    (((hostEngine U ds).decide U (queryDomain text n)).isBlocked = true ↔
        LabelsEndWith n ds) ↔
      (∀ l ∈ lastLabels n ds, RendersAsItself U text l) ∨
        ¬ LabelsEndWith n ds ∧ ¬ TextEndsWith U text n ds := by
  have hne : ds ≠ [] := by
    intro h
    rw [h] at hlen
    simp at hlen
  rw [hostEngine_blocks_iff hds hlen]
  constructor
  · intro hexact
    by_cases hS : LabelsEndWith n ds
    · -- both readings match: compare them label by label
      have hT := hexact.mpr hS
      have hcount : ds.length ≤ n.labels.length := by
        simpa [Name.folded] using hS.length_le
      have hlabels := (labelsEndWith_iff hcount).mp hS
      have hhost : ∀ l ∈ lastLabels n ds, HostLabel l := by
        intro l hl
        have hmem : l.lower ∈ ds.map Label.lower := hlabels ▸ List.mem_map_of_mem hl
        obtain ⟨d, hd, heq⟩ := List.mem_map.mp hmem
        exact (hds d hd).of_lower_eq heq.symm
      have htext := (textEndsWith_iff hne hcount fun l hl => hrender l (hhost l hl)).mp hT
      refine .inl fun l hl => ⟨hrender l (hhost l hl), ?_⟩
      have hpoint : (lastLabels n ds).map (fun l => l.lower.chars) =
          (lastLabels n ds).map fun l => lowerEach U (text l) := by
        rw [← htext, ← Function.comp_def Label.chars Label.lower, ← List.map_map, ← hlabels,
          List.map_map]
      exact (List.map_inj_left.mp hpoint l hl).symm
    · exact .inr ⟨hS, fun hT => hS (hexact.mp hT)⟩
  · intro h
    rcases h with hself | ⟨hS, hT⟩
    · rcases Nat.lt_or_ge n.labels.length ds.length with hshort | hcount
      · -- fewer labels than `D`: neither reading can match
        have hall : lastLabels n ds = n.labels := by
          rw [lastLabels, Nat.sub_eq_zero_of_le hshort.le, List.drop_zero]
        have hS : ¬ LabelsEndWith n ds := by
          intro hS
          have := hS.length_le
          simp only [Name.folded, List.length_map] at this
          omega
        refine iff_of_false (not_endsWith_of_short hlen hshort ?_) hS
        intro l hl
        exact (hself l (hall ▸ hl)).1
      · rw [textEndsWith_iff hne hcount fun l hl => (hself l hl).1, labelsEndWith_iff hcount]
        have hpoint : (lastLabels n ds).map (fun l => lowerEach U (text l)) =
            (lastLabels n ds).map fun l => l.lower.chars :=
          List.map_congr_left fun l hl => (hself l hl).2
        have hchars : Function.Injective Label.chars := fun _ _ h => Label.chars_inj h
        rw [hpoint, ← Function.comp_def Label.chars Label.lower, ← List.map_map, ← List.map_map]
        exact (List.map_injective_iff.mpr hchars).eq_iff
    · exact iff_of_false hT hS

/-- A byte as the library renders it in a label that it does not decode:
special bytes behind a backslash. -/
def escapeByte (first : Bool) (b : UInt8) : Str :=
  if isHostByte b && !(first && b == 45) then [Char.ofNat b.toNat]
  else ['\\', Char.ofNat b.toNat]

/-- The library's rendering on the labels below: one A-label that decodes,
escapes elsewhere. -/
def sampleText : LabelText := fun l =>
  if l = labelOf "xn--bcher-kva" then "bücher".toList
  else match l with
    | [] => []
    | b :: l => escapeByte true b ++ l.flatMap (escapeByte false)

theorem sampleText_oneLabel (l : Label) (hl : HostLabel l) : OneLabel (sampleText l) := by
  have hbyte : ∀ first b, isHostByte b = true →
      escapeByte first b ≠ [] ∧ ∀ c ∈ escapeByte first b, c ≠ '.' ∧ isWhitespace c = false := by
    intro first b hb
    obtain ⟨_, hw, hdot, _⟩ := char_of_hostByte b hb
    have hdot' : Char.ofNat b.toNat ≠ '.' := by
      intro h
      exact hdot (by simp [h])
    unfold escapeByte
    split
    · simp [hw, hdot']
    · have hslash : isWhitespace '\\' = false := by decide
      simp [hw, hdot', hslash]
  unfold sampleText
  split
  · decide
  · obtain ⟨b, l, rfl⟩ := List.exists_cons_of_ne_nil hl.1
    have hb := hbyte true b (hl.2 b List.mem_cons_self)
    refine ⟨by simp [hb.1], ?_⟩
    intro c hc
    rcases List.mem_append.mp hc with hc | hc
    · exact hb.2 c hc
    · obtain ⟨b', hb', hc⟩ := List.mem_flatMap.mp hc
      exact (hbyte false b' (hl.2 b' (List.mem_cons_of_mem _ hb'))).2 c hc

/-- A rule for an A-label misses the very name it is written for, and a
rule for `ads.example` blocks a name with an escaped dot, whose labels it
does not end. -/
theorem hostRule_not_exact :
    (∀ l, HostLabel l → OneLabel (sampleText l)) ∧
    (LabelsEndWith ⟨[labelOf "xn--bcher-kva", labelOf "example"], true⟩
        [labelOf "xn--bcher-kva", labelOf "example"] ∧
      ((hostEngine .ascii [labelOf "xn--bcher-kva", labelOf "example"]).decide .ascii
        (queryDomain sampleText
          ⟨[labelOf "xn--bcher-kva", labelOf "example"], true⟩)).isBlocked = false) ∧
    (¬ LabelsEndWith ⟨[labelOf "evil.ads", labelOf "example"], true⟩
        [labelOf "ads", labelOf "example"] ∧
      ((hostEngine .ascii [labelOf "ads", labelOf "example"]).decide .ascii
        (queryDomain sampleText
          ⟨[labelOf "evil.ads", labelOf "example"], true⟩)).isBlocked = true) := by
  refine ⟨sampleText_oneLabel, ⟨List.suffix_refl _, by decide +kernel⟩, ?_, by decide +kernel⟩
  unfold LabelsEndWith
  decide +kernel

/-- A plain name below a plain rule, where the two readings agree. -/
theorem hostRule_exact_plain :
    (((hostEngine .ascii [labelOf "ads", labelOf "example"]).decide .ascii
        (queryDomain sampleText
          ⟨[labelOf "X", labelOf "ADS", labelOf "example"], true⟩)).isBlocked = true) ↔
      LabelsEndWith ⟨[labelOf "X", labelOf "ADS", labelOf "example"], true⟩
        [labelOf "ads", labelOf "example"] := by
  refine (hostRule_exact_iff .ascii sampleText sampleText_oneLabel
    [labelOf "ads", labelOf "example"] ?_ (by decide) _).mpr (.inl ?_)
  · decide +kernel
  · unfold RendersAsItself
    decide +kernel

end Dotdns
