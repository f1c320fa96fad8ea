import Dotdns.Blocklist.Parse

/-!
# Blocklist — what a line contributes

`parse_line` read as one equation (`parseLine_eq`): a line is skipped when
it is blank or a comment, unsupported when it uses a feature outside the
subset, and otherwise one text of it is tried as a domain.

Two consequences. The check on that text is permissive, so a line may load
a rule that is no domain name (`lineSound_iff`). And the search for
features looks at the whole line, its inline comment included
(`inline_comment_iff`).
-/

namespace Dotdns

open Lib

/-! ## One equation for a line -/

/-- Nothing is left of the line once it is trimmed. -/
def isBlank (line : Str) : Bool := (trim line).isEmpty

/-- The line begins with `#` or `!`. -/
def isComment (line : Str) : Bool :=
  (trim line).head? = some '#' || (trim line).head? = some '!'

/-- A modifier or a cosmetic marker. -/
def hasFeature (line : Str) : Bool :=
  (trim line).contains '$' || containsStr ['#', '#'] (trim line)
    || containsStr ['#', '@', '#'] (trim line) || containsStr ['#', '?', '#'] (trim line)

/-- The line without its inline comment. -/
def ruleBody (line : Str) : Str := trim ((trim line).takeWhile (· ≠ '#'))

/-- The rule begins with `@@`. -/
def isException (line : Str) : Bool := ['@', '@'].isPrefixOf (ruleBody line)

/-- What follows the exception marker. -/
def ruleRest (line : Str) : Str :=
  if isException line then (ruleBody line).drop 2 else ruleBody line

section
variable (U : UnicodeCase)

/-- The second word of a hosts line, or everything. -/
def hostsText (rest : Str) : Str :=
  match splitWhitespace rest with
  | first :: second :: _ =>
      if looksLikeIp first && (domainRule U second).isSome then second else rest
  | _ => rest

/-- The text tried as a domain. -/
def domainText (rest : Str) : Str :=
  match rest with
  | '|' :: '|' :: rest => stripCaret rest
  | rest => hostsText U rest

/-- The text that the line offers as a domain. -/
def lineDomain (line : Str) : Str := domainText U (ruleRest line)

variable {U}

theorem tryParseHosts_or (rest : Str) :
    (tryParseHosts U rest).or (domainRule U rest) = domainRule U (hostsText U rest) := by
  unfold tryParseHosts hostsText
  rcases splitWhitespace rest with _ | ⟨first, _ | ⟨second, words⟩⟩
  · rfl
  · rfl
  · cases hip : looksLikeIp first <;> cases hd : domainRule U second <;> simp [hip, hd]

theorem parseRule_eq (exc : Bool) (rest : Str) :
    parseRule U exc rest = (domainRule U (domainText U rest)).elim .unsupported (ruleLine exc) := by
  unfold parseRule
  split
  · rename_i rest
    rw [domainText]
    cases domainRule U (stripCaret rest) <;> rfl
  · rename_i hplain
    rw [domainText]
    · rw [← tryParseHosts_or]
      cases tryParseHosts U rest <;> cases domainRule U rest <;> rfl
    · exact hplain

/-- What is neither blank nor a comment has a body. -/
theorem ruleBody_ne_nil {line : Str} (hb : isBlank line = false) (hc : isComment line = false) :
    ruleBody line ≠ [] := by
  cases ht : trim line with
  | nil => simp [isBlank, ht] at hb
  | cons c s =>
      have hw := isWhitespace_of_trim_eq_cons ht
      have hhash : c ≠ '#' := by
        rintro rfl
        simp [isComment, ht] at hc
      have hin : c ∈ (trim line).takeWhile (· ≠ '#') := by
        rw [ht, List.takeWhile_cons_of_pos (by simpa using hhash)]
        exact List.mem_cons_self
      exact List.ne_nil_of_mem ((mem_trim hw).mpr hin)

/-- `starts_with("@@")`, then `&rest[2..]`. -/
theorem parseBody_eq (body : Str) :
    (match body with
      | '@' :: '@' :: rest => parseRule U true rest
      | rest => parseRule U false rest) =
    parseRule U (['@', '@'].isPrefixOf body)
      (if ['@', '@'].isPrefixOf body then body.drop 2 else body) := by
  split
  · simp
  · rename_i hplain
    have hnot : ['@', '@'].isPrefixOf body = false := by
      rw [Bool.eq_false_iff, Ne, List.isPrefixOf_iff_prefix]
      rintro ⟨rest, rfl⟩
      exact hplain rest rfl
    rw [hnot]
    rfl

/-- **A line.** -/
theorem parseLine_eq (line : Str) :
    parseLine U line =
      if isBlank line || isComment line then .skip
      else if hasFeature line then .unsupported
      else (domainRule U (lineDomain U line)).elim .unsupported (ruleLine (isException line)) := by
  have hunfold : parseLine U line =
      if isBlank line then .skip else if isComment line then .skip
      else if hasFeature line then .unsupported
      else if (ruleBody line).isEmpty then .skip
      else parseRule U (isException line) (ruleRest line) := by
    rw [isException, ruleRest, isException, ← parseBody_eq]
    rfl
  rw [hunfold, parseRule_eq, ← lineDomain]
  cases hb : isBlank line with
  | true => rfl
  | false =>
      cases hc : isComment line with
      | true => rfl
      | false =>
          have hbody : (ruleBody line).isEmpty = false := by
            simpa using ruleBody_ne_nil hb hc
          rw [hbody]
          rfl

end

/-! ## Inline comments -/

section
variable {U : UnicodeCase} {r c : Str}

theorem isWhitespace_hash : isWhitespace '#' = false := by decide

/-- The white space at the end of a comment. -/
theorem exists_trimEnd_comment (c : Str) :
    ∃ h w, '#' :: c = '#' :: h ++ w ∧ (∀ x ∈ w, isWhitespace x = true) ∧
      ∀ e ∈ ('#' :: h).getLast?, isWhitespace e = false := by
  have hsplit := List.rdropWhile_append_rtakeWhile (p := isWhitespace) (l := '#' :: c)
  cases hd : List.rdropWhile isWhitespace ('#' :: c) with
  | nil =>
      rw [List.rdropWhile_eq_nil_iff] at hd
      have hhash := hd '#' List.mem_cons_self
      rw [isWhitespace_hash] at hhash
      cases hhash
  | cons x h =>
      rw [hd] at hsplit
      obtain rfl : x = '#' := (List.cons.inj hsplit).1
      refine ⟨h, _, hsplit.symm, fun y hy => List.mem_rtakeWhile_imp hy, ?_⟩
      intro e he
      have hne : List.rdropWhile isWhitespace ('#' :: c) ≠ [] := by
        rw [hd]
        simp
      have hlast := List.rdropWhile_last_not isWhitespace ('#' :: c) hne
      simp only [hd] at hlast
      rw [List.getLast?_eq_some_getLast (by simp), Option.mem_some_iff] at he
      rw [← he]
      simpa using hlast

/-- A rule and its comment, trimmed: the rule trimmed, white space, and the
comment without the white space at its end. -/
theorem trim_comment (hb : isBlank r = false) (c : Str) :
    ∃ b h, trim (r ++ ' ' :: '#' :: c) = trim r ++ b ++ '#' :: h ∧
      (∀ x ∈ b, isWhitespace x = true) ∧ h <+: c ∧
      ∀ x, isWhitespace x = false → (x ∈ h ↔ x ∈ c) := by
  obtain ⟨a, b, hr, ha, hbw⟩ := exists_trim_eq r
  obtain ⟨h, w, hc, hw, hlast⟩ := exists_trimEnd_comment c
  have hcw : c = h ++ w := (List.cons.inj hc).2
  refine ⟨b ++ [' '], h, ?_, ?_, ⟨w, hcw.symm⟩, ?_⟩
  · have hline : r ++ ' ' :: '#' :: c = a ++ (trim r ++ (b ++ [' ']) ++ '#' :: h) ++ w := by
      conv_lhs => rw [hr, hcw]
      simp
    rw [hline, trim_append_append ha hw]
    cases ht : trim r with
    | nil => simp [isBlank, ht] at hb
    | cons x t =>
        obtain ⟨e, he⟩ := Option.isSome_iff_exists.mp (show ('#' :: h).getLast?.isSome by simp)
        refine trim_of_ends (c := x) (e := e) (by simp) (isWhitespace_of_trim_eq_cons ht) ?_
          (hlast e he)
        rw [List.getLast?_append, Option.mem_def.mp he]
        rfl
  · intro x hx
    rcases List.mem_append.mp hx with hx | hx
    · exact hbw x hx
    · rw [List.mem_singleton.mp hx]
      decide
  · intro x hx
    constructor
    · intro hxh
      rw [hcw]
      exact List.mem_append_left _ hxh
    · intro hxc
      rw [hcw, List.mem_append] at hxc
      rcases hxc with hxc | hxc
      · exact hxc
      · rw [hw x hxc] at hx
        cases hx

/-- The text of a comment: a hash, and no cosmetic marker. -/
structure CommentText (c : Str) : Prop where
  noHiding : containsStr ['#', '#'] ('#' :: c) = false
  noException : containsStr ['#', '@', '#'] ('#' :: c) = false
  noExtended : containsStr ['#', '?', '#'] ('#' :: c) = false

/-- A marker of the line would be a marker of the comment. -/
theorem not_containsStr_comment {pat pre h : Str} (hpre : '#' ∉ pre) (hh : h <+: c)
    (hno : containsStr ('#' :: pat) ('#' :: c) = false) :
    containsStr ('#' :: pat) (pre ++ '#' :: h) = false := by
  rw [Bool.eq_false_iff, Ne, containsStr_iff] at hno ⊢
  intro hin
  exact hno ((infix_of_infix_append hpre hin).trans (List.cons_prefix_cons.mpr ⟨rfl, hh⟩).isInfix)

theorem hasFeature_of_no_hash (hr : '#' ∉ r) : hasFeature r = r.contains '$' := by
  have hno : ∀ pat, containsStr ('#' :: pat) (trim r) = false := by
    intro pat
    rw [Bool.eq_false_iff]
    intro hin
    exact hr ((mem_trim isWhitespace_hash).mp (mem_of_containsStr hin List.mem_cons_self))
  have hdollar : (trim r).contains '$' = r.contains '$' := by
    rw [Bool.eq_iff_iff, List.contains_iff_mem, List.contains_iff_mem, mem_trim (by decide)]
  rw [hasFeature, hno, hno, hno, hdollar]
  simp

/-- The comment is cut off again. -/
theorem ruleBody_comment (hr : '#' ∉ r) (hb : isBlank r = false) (c : Str) :
    ruleBody (r ++ ' ' :: '#' :: c) = ruleBody r := by
  obtain ⟨b, h, htrim, hbw, -, -⟩ := trim_comment hb c
  have htr : '#' ∉ trim r := fun hin => hr ((mem_trim isWhitespace_hash).mp hin)
  have hne : ∀ x ∈ trim r, decide (x ≠ '#') = true := by
    intro x hx
    rw [decide_eq_true_eq]
    rintro rfl
    exact htr hx
  have hneb : ∀ x ∈ trim r ++ b, decide (x ≠ '#') = true := by
    intro x hx
    rcases List.mem_append.mp hx with hx | hx
    · exact hne x hx
    · rw [decide_eq_true_eq]
      rintro rfl
      have hhash := hbw '#' hx
      rw [isWhitespace_hash] at hhash
      cases hhash
  rw [ruleBody, htrim, List.takeWhile_append_of_pos hneb, List.takeWhile_cons_of_neg (by simp),
    List.append_nil, ruleBody, List.takeWhile_eq_self_iff.mpr hne]
  exact trim_append_append (a := []) (by simp) hbw

theorem isComment_comment (hb : isBlank r = false) (c : Str) :
    isComment (r ++ ' ' :: '#' :: c) = isComment r := by
  obtain ⟨b, h, htrim, -, -, -⟩ := trim_comment hb c
  cases ht : trim r with
  | nil => simp [isBlank, ht] at hb
  | cons x t => simp [isComment, htrim, ht]

theorem hasFeature_comment (hr : '#' ∉ r) (hb : isBlank r = false) (hc : CommentText c) :
    hasFeature (r ++ ' ' :: '#' :: c) = (r.contains '$' || c.contains '$') := by
  obtain ⟨b, h, htrim, hbw, hh, hmem⟩ := trim_comment hb c
  have hpre : '#' ∉ trim r ++ b := by
    rw [List.mem_append, mem_trim isWhitespace_hash]
    rintro (hin | hin)
    · exact hr hin
    · have hhash := hbw '#' hin
      rw [isWhitespace_hash] at hhash
      cases hhash
  have hdollar :
      (trim (r ++ ' ' :: '#' :: c)).contains '$' = (r.contains '$' || c.contains '$') := by
    rw [Bool.eq_iff_iff, Bool.or_eq_true, List.contains_iff_mem, List.contains_iff_mem,
      List.contains_iff_mem, mem_trim (by decide)]
    simp
  rw [hasFeature, hdollar, htrim, not_containsStr_comment hpre hh hc.noHiding,
    not_containsStr_comment hpre hh hc.noException, not_containsStr_comment hpre hh hc.noExtended]
  simp

/-- A comment after nothing. -/
theorem isComment_blank_comment (hb : isBlank r = true) (c : Str) :
    isComment (r ++ ' ' :: '#' :: c) = true := by
  obtain ⟨h, w, hc, hw, hlast⟩ := exists_trimEnd_comment c
  have hrw : ∀ x ∈ r ++ [' '], isWhitespace x = true := by
    intro x hx
    cases hx' : isWhitespace x with
    | true => rfl
    | false =>
        rcases List.mem_append.mp hx with hx | hx
        · have hin := (mem_trim hx').mpr hx
          rw [isBlank, List.isEmpty_iff] at hb
          rw [hb] at hin
          cases hin
        · rw [List.mem_singleton.mp hx] at hx'
          exact absurd hx' (by decide)
  have hline : r ++ ' ' :: '#' :: c = r ++ [' '] ++ '#' :: h ++ w := by
    rw [hc]
    simp
  obtain ⟨e, he⟩ := Option.isSome_iff_exists.mp (show ('#' :: h).getLast?.isSome by simp)
  have htrim : trim ('#' :: h) = '#' :: h :=
    trim_of_ends (c := '#') (e := e) (by simp) isWhitespace_hash he (hlast e he)
  rw [isComment, hline, trim_append_append hrw hw, htrim]
  rfl

theorem elim_domainRule (exc : Bool) (domain : Str) :
    (domainRule U domain).elim .unsupported (ruleLine exc) =
      if looksLikeDomain (normalizeDomain U domain)
      then ruleLine exc (.domain (normalizeDomain U domain)) else .unsupported := by
  cases hl : looksLikeDomain (normalizeDomain U domain) with
  | false =>
      have hnone : domainRule U domain = none := by
        simp [domainRule, hl]
      rw [hnone]
      rfl
  | true =>
      rw [domainRule_eq_some.mpr ⟨rfl, hl⟩]
      rfl

end

/-- **Inline comments.** For a rule text without `#` and a comment without
cosmetic markers: the line with the comment gives what the line without it
gives, exactly when the comment has no `$`, or the rule text gives no rule
of its own: it is blank, a `!` comment, has a `$` itself, or what it offers
as a domain does not look like one. -/
theorem inline_comment_iff (U : UnicodeCase) (r c : Str) (hr : '#' ∉ r) (hc : CommentText c) :
    parseLine U (r ++ ' ' :: '#' :: c) = parseLine U r ↔
      '$' ∉ c ∨ isBlank r = true ∨ isComment r = true ∨ '$' ∈ r ∨
        looksLikeDomain (normalizeDomain U (lineDomain U r)) = false := by
  rw [parseLine_eq, parseLine_eq]
  cases hb : isBlank r with
  | true =>
      rw [isComment_blank_comment hb c]
      simp
  | false =>
      have hbl : isBlank (r ++ ' ' :: '#' :: c) = false := by
        rw [isBlank, Bool.eq_false_iff, Ne, List.isEmpty_iff]
        have hin : '#' ∈ trim (r ++ ' ' :: '#' :: c) := (mem_trim isWhitespace_hash).mpr (by simp)
        exact List.ne_nil_of_mem hin
      have hbody := ruleBody_comment hr hb c
      have hexc : isException (r ++ ' ' :: '#' :: c) = isException r := by
        rw [isException, hbody, isException]
      have hdom : lineDomain U (r ++ ' ' :: '#' :: c) = lineDomain U r := by
        rw [lineDomain, ruleRest, hexc, hbody, lineDomain, ruleRest]
      rw [hbl, isComment_comment hb c, hasFeature_comment hr hb hc, hasFeature_of_no_hash hr, hexc,
        hdom, elim_domainRule]
      cases isComment r with
      | true => simp
      | false =>
          by_cases hdr : '$' ∈ r
          · simp [hdr]
          · by_cases hdc : '$' ∈ c
            · -- the comment's `$` makes the line unsupported
              cases hl : looksLikeDomain (normalizeDomain U (lineDomain U r)) with
              | false => simp [hdr, hdc]
              | true => cases isException r <;> simp [hdr, hdc, ruleLine]
            · simp [hdr, hdc]

theorem inline_comment_plain :
    parseLine .ascii "example.com # ads and 50% more".toList =
      parseLine .ascii "example.com".toList :=
  (inline_comment_iff .ascii "example.com".toList " ads and 50% more".toList (by decide)
    ⟨by decide, by decide, by decide⟩).mpr (Or.inl (by decide))

/-- A price in the comment, and the rule is gone. -/
theorem inline_comment_dollar :
    '#' ∉ "example.com".toList ∧ CommentText " costs $5".toList ∧
      parseLine .ascii "example.com".toList = .block (.domain "example.com".toList) ∧
      parseLine .ascii ("example.com".toList ++ ' ' :: '#' :: " costs $5".toList) =
        .unsupported := by
  refine ⟨by decide, ⟨by decide, by decide, by decide⟩, by decide +kernel, by decide +kernel⟩

/-! ## What a rule looks like -/

/-- Characters of filter syntax that no domain has. -/
def filterMarks : List Char := ['^', '|', '/', ':', '@']

/-- A domain: two labels or more, none empty, none with a mark of filter
syntax, and a dot between each two. -/
def WellFormedDomain (d : Str) : Prop :=
  ∃ labels : List Str, 2 ≤ labels.length ∧
    (∀ l ∈ labels, l ≠ [] ∧ '.' ∉ l ∧ ∀ c ∈ l, c ∉ filterMarks) ∧ d = ['.'].intercalate labels

/-- A text without marks of filter syntax, and without a dot at an end or
next to another. -/
structure PlainText (s : Str) : Prop where
  marks : ∀ c ∈ s, c ∉ filterMarks
  leading : s.head? ≠ some '.'
  trailing : s.getLast? ≠ some '.'
  double : ¬ ['.', '.'] <:+: s

/-- Both, character by character: `fresh` at the start of a label. -/
def scanLabels : Bool → Str → Bool
  | fresh, [] => !fresh
  | fresh, c :: s =>
      if c = '.' then !fresh && scanLabels true s
      else !filterMarks.contains c && scanLabels false s

theorem scanLabels_iff {fresh : Bool} {s : Str} :
    scanLabels fresh s = true ↔
      (∀ c ∈ s, c ∉ filterMarks) ∧ (fresh = true → s.head? ≠ some '.') ∧
        s.getLast? ≠ some '.' ∧ (s = [] → fresh = false) ∧ ¬ ['.', '.'] <:+: s := by
  induction s generalizing fresh with
  | nil => cases fresh <;> simp [scanLabels]
  | cons c s ih =>
      rw [scanLabels]
      by_cases hc : c = '.'
      · subst hc
        rw [if_pos rfl, Bool.and_eq_true, ih]
        cases s with
        | nil => simp
        | cons d s =>
            have hmark : '.' ∉ filterMarks := by decide
            have hdouble : ['.', '.'] <:+: '.' :: d :: s ↔ d = '.' ∨ ['.', '.'] <:+: d :: s := by
              rw [List.infix_cons_iff]
              simp [List.cons_prefix_cons, eq_comm]
            rw [hdouble, List.forall_mem_cons (a := '.')]
            simp only [List.head?_cons, List.getLast?_cons_cons, hmark]
            cases fresh
            · simp
              tauto
            · simp
      · rw [if_neg hc, Bool.and_eq_true, ih]
        have hpre : ¬ ['.', '.'] <+: c :: s := by
          simp [List.cons_prefix_cons, Ne.symm hc]
        have hlast : (c :: s).getLast? ≠ some '.' ↔ s.getLast? ≠ some '.' := by
          cases s with
          | nil => simp [hc]
          | cons d s => simp
        rw [List.infix_cons_iff, List.forall_mem_cons, hlast]
        simp only [hpre, false_or, List.head?_cons]
        simp
        tauto

theorem scanLabels_iff_plainText {s : Str} (hs : s ≠ []) :
    scanLabels true s = true ↔ PlainText s := by
  rw [scanLabels_iff]
  constructor
  · intro h
    obtain ⟨hmarks, hlead, htrail, -, hdouble⟩ := h
    exact ⟨hmarks, hlead rfl, htrail, hdouble⟩
  · intro h
    exact ⟨h.marks, fun _ => h.leading, h.trailing, fun hnil => absurd hnil hs, h.double⟩

/-- Reading one label. -/
theorem scanLabels_append {l : Str} (hne : l ≠ []) (hdot : '.' ∉ l)
    (hmarks : ∀ c ∈ l, c ∉ filterMarks) (fresh : Bool) (t : Str) :
    scanLabels fresh (l ++ t) = scanLabels false t := by
  induction l generalizing fresh with
  | nil => exact absurd rfl hne
  | cons c l ih =>
      rw [List.mem_cons, not_or] at hdot
      have hc : filterMarks.contains c = false := by
        simpa using hmarks c List.mem_cons_self
      rw [List.cons_append, scanLabels, if_neg (Ne.symm hdot.1), hc, Bool.not_false, Bool.true_and]
      cases l with
      | nil => rfl
      | cons d l =>
          exact ih (by simp) hdot.2 (fun x hx => hmarks x (List.mem_cons_of_mem _ hx)) false

theorem scanLabels_intercalate {ls : List Str} (hls : ls ≠ [])
    (hgood : ∀ l ∈ ls, l ≠ [] ∧ '.' ∉ l ∧ ∀ c ∈ l, c ∉ filterMarks) :
    scanLabels true (['.'].intercalate ls) = true := by
  induction ls with
  | nil => exact absurd rfl hls
  | cons l ls ih =>
      obtain ⟨hne, hdot, hmarks⟩ := hgood l List.mem_cons_self
      cases ls with
      | nil =>
          rw [List.intercalate_singleton, ← List.append_nil l, scanLabels_append hne hdot hmarks]
          rfl
      | cons l' ls =>
          have hrest := ih (by simp) fun x hx => hgood x (List.mem_cons_of_mem _ hx)
          rw [List.intercalate_cons_cons, List.append_assoc, scanLabels_append hne hdot hmarks]
          exact hrest

/-- The labels that were read. The first one may be the end of a label that
is under way. -/
theorem exists_labels {fresh : Bool} {s : Str} (h : scanLabels fresh s = true) :
    ∃ l ls, s = ['.'].intercalate (l :: ls) ∧
      (∀ x ∈ l :: ls, '.' ∉ x ∧ ∀ c ∈ x, c ∉ filterMarks) ∧
      (∀ x ∈ ls, x ≠ []) ∧ (fresh = true → l ≠ []) := by
  induction s generalizing fresh with
  | nil =>
      refine ⟨[], [], rfl, by simp, by simp, ?_⟩
      intro hf
      rw [hf] at h
      cases h
  | cons c s ih =>
      rw [scanLabels] at h
      split at h
      · rename_i hc
        rw [Bool.and_eq_true, Bool.not_eq_true'] at h
        obtain ⟨l, ls, hs, hgood, hne, hl⟩ := ih h.2
        refine ⟨[], l :: ls, ?_, ?_, ?_, ?_⟩
        · rw [hc, hs]
          rfl
        · intro x hx
          rcases List.mem_cons.mp hx with rfl | hx
          · simp
          · exact hgood x hx
        · intro x hx
          rcases List.mem_cons.mp hx with rfl | hx
          · exact hl rfl
          · exact hne x hx
        · intro hf
          rw [hf] at h
          cases h.1
      · rename_i hc
        rw [Bool.and_eq_true] at h
        obtain ⟨l, ls, hs, hgood, hne, -⟩ := ih h.2
        have hmark : c ∉ filterMarks := by simpa using h.1
        refine ⟨c :: l, ls, ?_, ?_, hne, by simp⟩
        · rw [hs]
          cases ls <;> rfl
        · intro x hx
          rcases List.mem_cons.mp hx with rfl | hx
          · obtain ⟨hdot, hmarks⟩ := hgood l List.mem_cons_self
            refine ⟨?_, List.forall_mem_cons.mpr ⟨hmark, hmarks⟩⟩
            rw [List.mem_cons, not_or]
            exact ⟨Ne.symm hc, hdot⟩
          · exact hgood x (List.mem_cons_of_mem _ hx)

theorem wellFormedDomain_iff {d : Str} (hdot : '.' ∈ d) :
    WellFormedDomain d ↔ scanLabels true d = true := by
  constructor
  · rintro ⟨labels, hlen, hgood, rfl⟩
    refine scanLabels_intercalate ?_ hgood
    rintro rfl
    cases hlen
  · intro h
    obtain ⟨l, ls, hd, hgood, hne, hl⟩ := exists_labels h
    refine ⟨l :: ls, ?_, ?_, hd⟩
    · cases ls with
      | nil =>
          rw [hd, List.intercalate_singleton] at hdot
          exact absurd hdot (hgood l List.mem_cons_self).1
      | cons l' ls => simp
    · intro x hx
      refine ⟨?_, hgood x hx⟩
      rcases List.mem_cons.mp hx with rfl | hx
      · exact hl rfl
      · exact hne x hx

theorem mark_facts {c : Char} (hc : c ∈ '.' :: filterMarks) :
    c.toNat < 128 ∧ c.isAlpha = false ∧ c ≠ 'Σ' := by
  simp only [filterMarks, List.mem_cons, List.not_mem_nil, or_false] at hc
  rcases hc with rfl | rfl | rfl | rfl | rfl | rfl <;> decide

/-- What a character becomes is read as the character was. -/
theorem scanLabels_lower (U : UnicodeTables) {c : Char} {p : Str}
    (hp : p = U.lower c ∨ c = 'Σ' ∧ (p = ['σ'] ∨ p = ['ς'])) (fresh : Bool) {s t : Str}
    (hrest : ∀ fresh, scanLabels fresh t = scanLabels fresh s) :
    scanLabels fresh (p ++ t) = scanLabels fresh (c :: s) := by
  by_cases hc : c ∈ '.' :: filterMarks
  · obtain ⟨hlt, halpha, hsigma⟩ := mark_facts hc
    have hpc : p = [c] := by
      rcases hp with hp | hp
      · rw [hp, U.lower_ascii c hlt, toLower_of_not_alpha halpha]
      · exact absurd hp.1 hsigma
    rw [hpc, List.singleton_append, scanLabels, scanLabels, hrest, hrest]
  · rw [List.mem_cons, not_or] at hc
    have hgood : p ≠ [] ∧ '.' ∉ p ∧ ∀ x ∈ p, x ∉ filterMarks := by
      rcases hp with rfl | ⟨-, rfl | rfl⟩
      · refine ⟨U.lower_ne_nil c, fun hdot => hc.1 (U.lower_dot c hdot), ?_⟩
        intro x hx hmark
        obtain ⟨hlt, halpha, -⟩ := mark_facts (List.mem_cons_of_mem _ hmark)
        exact hc.2 (U.lower_mark c x hx hlt halpha ▸ hmark)
      · exact ⟨by simp, by decide, List.forall_mem_singleton.mpr (by decide)⟩
      · exact ⟨by simp, by decide, List.forall_mem_singleton.mpr (by decide)⟩
    have hmark : filterMarks.contains c = false := by simpa using hc.2
    rw [scanLabels_append hgood.1 hgood.2.1 hgood.2.2, scanLabels, if_neg hc.1, hmark, hrest]
    rfl

theorem scanLabels_toLowercaseGo (U : UnicodeTables) (before s : Str) (fresh : Bool) :
    scanLabels fresh (toLowercaseGo U.toUnicodeCase before s) = scanLabels fresh s := by
  induction s generalizing before fresh with
  | nil => rfl
  | cons c s ih =>
      rw [toLowercaseGo]
      refine scanLabels_lower U ?_ fresh (ih (c :: before))
      split
      · rename_i hc
        refine .inr ⟨hc, ?_⟩
        unfold mapUppercaseSigma
        split
        · exact .inr rfl
        · exact .inl rfl
      · exact .inl rfl

/-- The shape of a domain does not see `normalize_domain`'s lowercasing. -/
theorem wellFormedDomain_normalize (U : UnicodeTables) {text : Str}
    (hlooks : looksLikeDomain (normalizeDomain U.toUnicodeCase text) = true) :
    WellFormedDomain (normalizeDomain U.toUnicodeCase text) ↔ PlainText (trim text) := by
  have hdot : '.' ∈ normalizeDomain U.toUnicodeCase text := by
    simp only [looksLikeDomain, Bool.and_eq_true] at hlooks
    simpa using hlooks.1.1.1
  have hne : trim text ≠ [] := by
    intro hnil
    rw [normalizeDomain, hnil] at hdot
    cases hdot
  rw [wellFormedDomain_iff hdot, normalizeDomain, toLowercase, scanLabels_toLowercaseGo,
    scanLabels_iff_plainText hne]

example : WellFormedDomain (normalizeDomain .ascii "Ads.Example.COM".toList) :=
  (wellFormedDomain_normalize .ascii (by decide +kernel)).mpr
    ((scanLabels_iff_plainText (by decide +kernel)).mp (by decide +kernel))

/-! ## Sound lines -/

/-- Every rule the line loads is a domain, and a line that loads none is
blank, a comment, or reported as unsupported. A domain that some query can
match is one of the shape `WellFormedDomain`. -/
structure LineSound (U : UnicodeCase) (line : Str) : Prop where
  rule : ∀ d, parseLine U line = .block (.domain d) ∨ parseLine U line = .exception (.domain d) →
    WellFormedDomain d
  reported : (∀ rule, parseLine U line ≠ .block rule ∧ parseLine U line ≠ .exception rule) →
    isBlank line = false → isComment line = false → parseLine U line = .unsupported

theorem lineSound_of_skip {U : UnicodeCase} {line : Str}
    (h : isBlank line = true ∨ isComment line = true) : LineSound U line := by
  have hskip : parseLine U line = .skip := by
    rw [parseLine_eq, if_pos]
    rw [Bool.or_eq_true]
    exact h
  constructor
  · intro d hd
    rw [hskip] at hd
    rcases hd with hd | hd <;> cases hd
  · intro _ hb hc
    rcases h with h | h
    · rw [hb] at h
      cases h
    · rw [hc] at h
      cases h

theorem lineSound_of_unsupported {U : UnicodeCase} {line : Str}
    (h : parseLine U line = .unsupported) : LineSound U line := by
  refine ⟨fun d hd => ?_, fun _ _ _ => h⟩
  rw [h] at hd
  rcases hd with hd | hd <;> cases hd

theorem lineSound_of_rule {U : UnicodeCase} {line d : Str} {exc : Bool}
    (h : parseLine U line = ruleLine exc (.domain d)) :
    LineSound U line ↔ WellFormedDomain d := by
  constructor
  · intro hsound
    refine hsound.rule d ?_
    rw [h]
    cases exc
    · exact .inl rfl
    · exact .inr rfl
  · intro hd
    constructor
    · intro d' hd'
      rw [h] at hd'
      have hsame : d' = d := by
        cases exc <;> simpa [ruleLine, eq_comm] using hd'
      rwa [hsame]
    · intro hno
      have hrule := hno (.domain d)
      rw [h] at hrule
      cases exc
      · exact absurd rfl hrule.1
      · exact absurd rfl hrule.2

/-- **Loaded rules.** For every line: what it loads is a well-formed domain
and everything else is reported, exactly when the line is blank, a comment,
uses a feature outside the subset, offers a text that does not look like a
domain, or offers a text that has no mark of filter syntax in it, no dot at
an end and no two dots in a row. That some query can match a domain is read
as its shape: labels that are not empty, a dot between each two, no mark of
filter syntax. -/
theorem lineSound_iff (U : UnicodeTables) (line : Str) :
    LineSound U.toUnicodeCase line ↔
      isBlank line = true ∨ isComment line = true ∨ hasFeature line = true ∨
        looksLikeDomain (normalizeDomain U.toUnicodeCase (lineDomain U.toUnicodeCase line)) =
          false ∨
        PlainText (trim (lineDomain U.toUnicodeCase line)) := by
  have heq := parseLine_eq (U := U.toUnicodeCase) line
  rw [elim_domainRule] at heq
  -- one test of `parse_line` after the other: a line that fails one loads no rule
  cases hb : isBlank line with
  | true => exact iff_of_true (lineSound_of_skip (.inl hb)) (.inl rfl)
  | false =>
      cases hc : isComment line with
      | true => exact iff_of_true (lineSound_of_skip (.inr hc)) (.inr (.inl rfl))
      | false =>
          rw [hb, hc] at heq
          cases hf : hasFeature line with
          | true =>
              rw [hf] at heq
              exact iff_of_true (lineSound_of_unsupported heq) (.inr (.inr (.inl rfl)))
          | false =>
              rw [hf] at heq
              cases hl : looksLikeDomain
                  (normalizeDomain U.toUnicodeCase (lineDomain U.toUnicodeCase line)) with
              | false =>
                  rw [hl] at heq
                  exact iff_of_true (lineSound_of_unsupported heq) (.inr (.inr (.inr (.inl rfl))))
              | true =>
                  rw [hl] at heq
                  rw [lineSound_of_rule heq, wellFormedDomain_normalize U hl]
                  simp

/-- An unanchored rule that ends in `^`, a fully qualified name, an empty
label and a path are all loaded as rules. -/
theorem lines_not_sound :
    (parseLine .ascii "example.com^".toList = .block (.domain "example.com^".toList) ∧
      ¬ WellFormedDomain "example.com^".toList) ∧
    (parseLine .ascii "0.0.0.0 example.com.".toList = .block (.domain "example.com.".toList) ∧
      ¬ WellFormedDomain "example.com.".toList) ∧
    (parseLine .ascii "@@||example..com^".toList = .exception (.domain "example..com".toList) ∧
      ¬ WellFormedDomain "example..com".toList) ∧
    (parseLine .ascii "example.com/ad.js".toList = .block (.domain "example.com/ad.js".toList) ∧
      ¬ WellFormedDomain "example.com/ad.js".toList) := by
  refine ⟨⟨by decide +kernel, ?_⟩, ⟨by decide +kernel, ?_⟩, ⟨by decide +kernel, ?_⟩,
    ⟨by decide +kernel, ?_⟩⟩
  all_goals
    rw [wellFormedDomain_iff (by decide)]
    decide

end Dotdns
