import Dotdns.Lib.Text

/-!
# Blocklist — the line parser

`parse_line` and its helpers: one line of a list file becomes a block
rule, an exception rule, a line to skip, or an unsupported line. Every
rule is a normalised domain; the normalisation is the one that `decide`
applies to the queried name.
-/

namespace Dotdns

open Lib

/-- `NormalizedRule`: a domain with all below it. -/
inductive NormalizedRule where
  | domain (d : Str)
  deriving DecidableEq, Repr

/-- What `parse_line` makes of a line. -/
inductive ParsedLine where
  | skip
  | block (rule : NormalizedRule)
  | exception (rule : NormalizedRule)
  | unsupported
  deriving DecidableEq, Repr

section
variable (U : UnicodeCase)

/-- `normalize_domain`. -/
def normalizeDomain (domain : Str) : Str := toLowercase U (trim domain)

/-- `looks_like_ip`: only the first character counts. -/
def looksLikeIp (token : Str) : Bool :=
  token.head?.any fun c => c.isDigit || c == ':'

/-- `looks_like_domain`. -/
def looksLikeDomain (domain : Str) : Bool :=
  domain.contains '.'
    && domain.all (fun c => !isWhitespace c)
    && !domain.head?.any (· == '/')
    && !domain.contains '*'

/-- The check all three rule forms end with: normalise, then refuse the
empty domain and what does not look like one. -/
def domainRule (domain : Str) : Option NormalizedRule :=
  let domain := normalizeDomain U domain
  if domain.isEmpty || !looksLikeDomain domain then none
  else some (.domain domain)

/-- A hosts-file line: an address, then the domain. -/
def tryParseHosts (rest : Str) : Option NormalizedRule :=
  match splitWhitespace rest with
  | first :: second :: _ =>
      if !looksLikeIp first then none else domainRule U second
  | _ => none

/-- `if is_exception { Exception(rule) } else { Block(rule) }`. -/
def ruleLine (isException : Bool) (rule : NormalizedRule) : ParsedLine :=
  if isException then .exception rule else .block rule

/-- `if rest.ends_with('^')`: without its last character. -/
def stripCaret (rest : Str) : Str :=
  if rest.getLast? = some '^' then rest.dropLast else rest

/-- What follows the exception marker. -/
def parseRule (isException : Bool) (rest : Str) : ParsedLine :=
  match rest with
  | '|' :: '|' :: rest =>
      match domainRule U (stripCaret rest) with
      | some rule => ruleLine isException rule
      | none => .unsupported
  | rest =>
      match tryParseHosts U rest with
      | some rule => ruleLine isException rule
      | none =>
          -- plain domain rule
          match domainRule U rest with
          | some rule => ruleLine isException rule
          | none => .unsupported

/-- `parse_line`. -/
def parseLine (line : Str) : ParsedLine :=
  let trimmed := trim line
  if trimmed.isEmpty then .skip
  else if trimmed.head? = some '#' || trimmed.head? = some '!' then .skip
  -- modifiers and cosmetic features outside this DNS-only subset
  else if trimmed.contains '$' || containsStr ['#', '#'] trimmed
      || containsStr ['#', '@', '#'] trimmed || containsStr ['#', '?', '#'] trimmed
    then .unsupported
  else
    -- `split('#').next()`, trimmed again
    let withoutComment := trim (trimmed.takeWhile (· ≠ '#'))
    if withoutComment.isEmpty then .skip
    else
      match withoutComment with
      | '@' :: '@' :: rest => parseRule U true rest
      | rest => parseRule U false rest

/-! ## What every rule satisfies -/

/-- A rule that comes out of a line is some text, normalised, that looks
like a domain. -/
def ParsedLine.WellFormed (p : ParsedLine) : Prop :=
  ∀ r, p = .block (.domain r) ∨ p = .exception (.domain r) →
    looksLikeDomain r = true ∧ ∃ text, r = normalizeDomain U text

variable {U}

theorem domainRule_eq_some {domain : Str} {rule : NormalizedRule} :
    domainRule U domain = some rule ↔
      rule = .domain (normalizeDomain U domain) ∧
        looksLikeDomain (normalizeDomain U domain) = true := by
  have hne : looksLikeDomain (normalizeDomain U domain) = true →
      (normalizeDomain U domain).isEmpty = false := by
    intro h
    cases hn : normalizeDomain U domain with
    | nil => rw [hn] at h; cases h
    | cons c s => rfl
  unfold domainRule
  cases hl : looksLikeDomain (normalizeDomain U domain) with
  | false => simp [hl]
  | true => simp [hl, hne hl, eq_comm]

theorem ruleLine_wellFormed {isException : Bool} {domain : Str} {rule : NormalizedRule}
    (h : domainRule U domain = some rule) : (ruleLine isException rule).WellFormed U := by
  obtain ⟨rfl, hl⟩ := domainRule_eq_some.mp h
  intro r hr
  have hr' : r = normalizeDomain U domain := by
    cases isException <;> simpa [ruleLine, eq_comm] using hr
  exact ⟨hr' ▸ hl, domain, hr'⟩

theorem not_rule_wellFormed {p : ParsedLine} (h : p = .skip ∨ p = .unsupported) :
    p.WellFormed U := by
  intro r hr
  rcases h with rfl | rfl <;> rcases hr with hr | hr <;> cases hr

theorem tryParseHosts_eq_some {rest : Str} {rule : NormalizedRule}
    (h : tryParseHosts U rest = some rule) : ∃ domain, domainRule U domain = some rule := by
  unfold tryParseHosts at h
  split at h
  · split at h
    · cases h
    · exact ⟨_, h⟩
  · cases h

theorem parseRule_wellFormed (isException : Bool) (rest : Str) :
    (parseRule U isException rest).WellFormed U := by
  unfold parseRule
  split
  · split
    · rename_i rule h
      exact ruleLine_wellFormed h
    · exact not_rule_wellFormed (.inr rfl)
  · split
    · rename_i rule h
      obtain ⟨domain, hd⟩ := tryParseHosts_eq_some h
      exact ruleLine_wellFormed hd
    · split
      · rename_i rule h
        exact ruleLine_wellFormed h
      · exact not_rule_wellFormed (.inr rfl)

theorem parseLine_wellFormed (line : Str) : (parseLine U line).WellFormed U := by
  unfold parseLine
  dsimp only
  split
  · exact not_rule_wellFormed (.inl rfl)
  split
  · exact not_rule_wellFormed (.inl rfl)
  split
  · exact not_rule_wellFormed (.inr rfl)
  split
  · exact not_rule_wellFormed (.inl rfl)
  split
  · exact parseRule_wellFormed true _
  · exact parseRule_wellFormed false _

theorem looksLikeDomain_ne_nil {r : Str} (h : looksLikeDomain r = true) : r ≠ [] := by
  intro hr
  rw [hr] at h
  cases h

end

end Dotdns
