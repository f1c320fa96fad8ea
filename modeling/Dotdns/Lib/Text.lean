import Mathlib.Algebra.Ring.Nat
import Mathlib.Data.Char
import Mathlib.Data.List.DropRight
import Mathlib.Data.List.Infix

/-!
# Lib — text

The standard library's string operations on `Str`, a list of Unicode
scalar values: trimming, splitting, lines, byte offsets into the UTF-8
form, lossy decoding, and `to_lowercase`.

Offsets are BYTE offsets (`byteLen`, `sliceFrom`, `findChar`): slicing
off a character boundary is a panic, here `none`.

Lowercasing follows the Unicode case tables. Their non-ASCII part changes
between Unicode versions, so it is a parameter (`UnicodeCase`) that
carries the facts true of every version: the ASCII range, the mapping of
capital sigma, and that no mapping produces a full stop.
-/

namespace Lib

/-- Text, as a list of characters. -/
abbrev Str := List Char

/-! ## White space and trimming -/

/-- The Unicode `White_Space` property. -/
def isWhitespace (c : Char) : Bool :=
  let n := c.toNat
  decide (9 ≤ n ∧ n ≤ 13) || n == 0x20 || n == 0x85 || n == 0xA0
    || n == 0x1680 || decide (0x2000 ≤ n ∧ n ≤ 0x200A) || n == 0x2028
    || n == 0x2029 || n == 0x202F || n == 0x205F || n == 0x3000

def trimStart (s : Str) : Str := s.dropWhile isWhitespace

def trimEnd (s : Str) : Str := s.rdropWhile isWhitespace

def trim (s : Str) : Str := trimEnd (trimStart s)

/-- `trim_end_matches` for one character. -/
def trimEndMatches (c : Char) (s : Str) : Str := s.rdropWhile (· == c)

/-- `split_whitespace`: the non-empty pieces between white space. -/
def splitWhitespace (s : Str) : List Str :=
  (s.splitOnP isWhitespace).filter (· ≠ [])

/-- `contains` for a string pattern. -/
def containsStr (pat s : Str) : Bool := s.tails.any pat.isPrefixOf

/-- `BufRead::lines` on text: pieces ended by a line feed, each without it
and without a carriage return before it; a last piece with no line feed
keeps its carriage return. `acc` is the current piece, reversed. -/
def linesGo (acc : Str) : Str → List Str
  | [] => if acc = [] then [] else [acc.reverse]
  | '\n' :: rest =>
      (match acc with
        | '\r' :: acc' => acc'.reverse
        | _ => acc.reverse) :: linesGo [] rest
  | c :: rest => linesGo (c :: acc) rest

/-- The lines of a text. -/
def lines (s : Str) : List Str := linesGo [] s

/-! ## Byte offsets -/

/-- Length of the UTF-8 form. -/
def byteLen (s : Str) : Nat := (s.map Char.utf8Size).sum

/-- `&s[off..]`; `none` where the slice would panic. -/
def sliceFrom : Str → Nat → Option Str
  | s, 0 => some s
  | [], _ + 1 => none
  | c :: s, n + 1 =>
      if c.utf8Size ≤ n + 1 then sliceFrom s (n + 1 - c.utf8Size) else none

/-- Byte offset of the first `c`. -/
def findChar (c : Char) : Str → Option Nat
  | [] => none
  | d :: s => if d = c then some 0 else (findChar c s).map (· + d.utf8Size)

@[simp] theorem byteLen_nil : byteLen [] = 0 := rfl

@[simp] theorem byteLen_cons (c : Char) (s : Str) :
    byteLen (c :: s) = c.utf8Size + byteLen s := by simp [byteLen]

@[simp] theorem byteLen_append (s t : Str) :
    byteLen (s ++ t) = byteLen s + byteLen t := by simp [byteLen]

theorem byteLen_eq_zero {s : Str} (h : byteLen s = 0) : s = [] := by
  cases s with
  | nil => rfl
  | cons c s =>
      have := c.utf8Size_pos
      rw [byteLen_cons] at h
      omega

/-- A slice that starts right after a prefix is the rest. -/
theorem sliceFrom_append (pre s : Str) :
    sliceFrom (pre ++ s) (byteLen pre) = some s := by
  induction pre with
  | nil => simp [sliceFrom]
  | cons c pre ih =>
      have hpos := c.utf8Size_pos
      obtain ⟨n, hn⟩ : ∃ n, byteLen (c :: pre) = n + 1 :=
        ⟨byteLen (c :: pre) - 1, by rw [byteLen_cons]; omega⟩
      have hrest : n + 1 - c.utf8Size = byteLen pre := by
        rw [← hn, byteLen_cons]; omega
      have hle : c.utf8Size ≤ n + 1 := by rw [← hn, byteLen_cons]; omega
      rw [hn, List.cons_append, sliceFrom, if_pos hle, hrest, ih]

theorem findChar_eq_none {c : Char} {s : Str} :
    findChar c s = none ↔ c ∉ s := by
  induction s with
  | nil => simp [findChar]
  | cons d s ih =>
      by_cases h : d = c
      · simp [findChar, h]
      · simp [findChar, h, ih, Ne.symm h]

theorem findChar_append {c : Char} {pre : Str} (h : c ∉ pre) (s : Str) :
    findChar c (pre ++ c :: s) = some (byteLen pre) := by
  induction pre with
  | nil => simp [findChar]
  | cons d pre ih =>
      rw [List.mem_cons, not_or] at h
      rw [List.cons_append, findChar, if_neg (Ne.symm h.1), ih h.2,
        Option.map_some, byteLen_cons, Nat.add_comm]

/-! ## Bytes to text -/

/-- A character whose first bytes have been read: how many are missing,
the bits so far, and the range of the next byte. -/
structure Utf8Partial where
  missing : Nat
  bits : Nat
  lo : UInt8 := 0x80
  hi : UInt8 := 0xBF
  deriving DecidableEq, Repr

/-- A byte that starts a character. The narrower ranges keep out overlong
forms, surrogates and everything above U+10FFFF. -/
def utf8Lead (b : UInt8) : Str × Option Utf8Partial :=
  if b < 0x80 then ([Char.ofNat b.toNat], none)
  else if 0xC2 ≤ b ∧ b ≤ 0xDF then ([], some ⟨1, b.toNat - 0xC0, 0x80, 0xBF⟩)
  else if b = 0xE0 then ([], some ⟨2, 0, 0xA0, 0xBF⟩)
  else if b = 0xED then ([], some ⟨2, 0xD, 0x80, 0x9F⟩)
  else if 0xE1 ≤ b ∧ b ≤ 0xEF then ([], some ⟨2, b.toNat - 0xE0, 0x80, 0xBF⟩)
  else if b = 0xF0 then ([], some ⟨3, 0, 0x90, 0xBF⟩)
  else if 0xF1 ≤ b ∧ b ≤ 0xF3 then ([], some ⟨3, b.toNat - 0xF0, 0x80, 0xBF⟩)
  else if b = 0xF4 then ([], some ⟨3, 4, 0x80, 0x8F⟩)
  else (['\uFFFD'], none)

/-- One byte: the text it completes and what is left open. A byte out of
range gives up the open character and is read again as a first byte. -/
def utf8Feed : Option Utf8Partial → UInt8 → Str × Option Utf8Partial
  | none, b => utf8Lead b
  | some p, b =>
      if p.lo ≤ b ∧ b ≤ p.hi then
        let bits := p.bits * 64 + (b.toNat - 0x80)
        if p.missing = 1 then ([Char.ofNat bits], none)
        else ([], some { missing := p.missing - 1, bits })
      else ('\uFFFD' :: (utf8Lead b).1, (utf8Lead b).2)

/-- `from_utf8_lossy` with what the current character has so far. -/
def fromUtf8LossyGo : Option Utf8Partial → List UInt8 → Str
  | none, [] => []
  | some _, [] => ['\uFFFD']
  | p, b :: bytes => (utf8Feed p b).1 ++ fromUtf8LossyGo (utf8Feed p b).2 bytes

/-- `String::from_utf8_lossy`: every maximal piece of bytes that is not
part of a character becomes one U+FFFD. -/
def fromUtf8Lossy (bytes : List UInt8) : Str := fromUtf8LossyGo none bytes

example : fromUtf8Lossy [0x61, 0xC3, 0xA9, 0xFF, 0xE2, 0x82, 0x41, 0xED, 0xA0, 0xF0] =
    ['a', 'é', '\uFFFD', '\uFFFD', 'A', '\uFFFD', '\uFFFD', '\uFFFD'] := by decide

/-! ## Lowercasing -/

/-- Unicode case data: full lowercase mapping and the two properties the
final-sigma rule reads. The proof fields pin what every version of the
tables says. -/
structure UnicodeCase where
  lower : Char → List Char
  cased : Char → Bool
  caseIgnorable : Char → Bool
  lower_ascii : ∀ c : Char, c.toNat < 128 → lower c = [c.toLower]
  lower_sigma : lower 'Σ' = ['σ']
  lower_dot : ∀ c, '.' ∈ lower c → c = '.'
  cased_toLower : ∀ c, cased c.toLower = cased c
  caseIgnorable_toLower : ∀ c, caseIgnorable c.toLower = caseIgnorable c

/-- Whether the first character that is not case-ignorable is cased. -/
def caseIgnorableThenCased (U : UnicodeCase) (s : Str) : Bool :=
  match s.dropWhile U.caseIgnorable with
  | c :: _ => U.cased c
  | [] => false

/-- `map_uppercase_sigma`: the lowercase of a capital sigma between
`before` (reversed) and `after`. -/
def mapUppercaseSigma (U : UnicodeCase) (before after : Str) : Char :=
  if caseIgnorableThenCased U before && !caseIgnorableThenCased U after
  then 'ς' else 'σ'

/-- `to_lowercase`; `before` is the text read, reversed, for the sigma. -/
def toLowercaseGo (U : UnicodeCase) (before : Str) : Str → Str
  | [] => []
  | c :: rest =>
      (if c = 'Σ' then [mapUppercaseSigma U before rest] else U.lower c)
        ++ toLowercaseGo U (c :: before) rest

/-- `str::to_lowercase`. -/
def toLowercase (U : UnicodeCase) (s : Str) : Str := toLowercaseGo U [] s

theorem toLower_of_not_upper {c : Char} (h : ¬ (c.val ≥ 'A'.val ∧ c.val ≤ 'Z'.val)) :
    c.toLower = c := dif_neg h

theorem toLower_eq_self {c : Char} (h : 128 ≤ c.toNat) : c.toLower = c := by
  apply toLower_of_not_upper
  rintro ⟨_, hz⟩
  have : c.toNat ≤ 90 := hz
  omega

theorem toNat_toLower {c : Char} (h : c.val ≥ 'A'.val ∧ c.val ≤ 'Z'.val) :
    c.toLower.toNat = c.toNat + 32 := by
  have hz : c.val.toNat ≤ 90 := h.2
  have hlower : c.toLower.val = c.val + ('a'.val - 'A'.val) := congrArg Char.val (dif_pos h)
  show c.toLower.val.toNat = c.val.toNat + 32
  rw [hlower, UInt32.toNat_add, show ('a'.val - 'A'.val).toNat = 32 from rfl]
  omega

theorem toLower_lt {c : Char} (h : c.toNat < 128) : c.toLower.toNat < 128 := by
  by_cases hc : c.val ≥ 'A'.val ∧ c.val ≤ 'Z'.val
  · have hz : c.toNat ≤ 90 := hc.2
    rw [toNat_toLower hc]
    omega
  · rwa [toLower_of_not_upper hc]

theorem toLower_toLower (c : Char) : c.toLower.toLower = c.toLower := by
  by_cases h : c.val ≥ 'A'.val ∧ c.val ≤ 'Z'.val
  · have ha : 65 ≤ c.toNat := h.1
    have hval := toNat_toLower h
    apply toLower_of_not_upper
    rintro ⟨_, hz'⟩
    have : c.toLower.toNat ≤ 90 := hz'
    omega
  · have hself := toLower_of_not_upper h
    rw [hself, hself]

theorem trim_eq_self {s : Str} (h : ∀ c ∈ s, isWhitespace c = false) : trim s = s := by
  have hstart : trimStart s = s := by
    cases s with
    | nil => rfl
    | cons c s => rw [trimStart, List.dropWhile_cons_of_neg (by simp [h c List.mem_cons_self])]
  rw [trim, hstart, trimEnd, List.rdropWhile_eq_self_iff]
  intro hs
  simp [h _ (List.getLast_mem hs)]

theorem trimEnd_of_last {s : Str} {c : Char} (h : c ∈ s.getLast?)
    (hc : isWhitespace c = false) : trimEnd s = s := by
  rw [trimEnd, List.rdropWhile_eq_self_iff]
  intro hne
  rw [List.getLast?_eq_some_getLast hne, Option.mem_some_iff] at h
  rw [h, hc]
  exact Bool.false_ne_true

/-- Nothing to trim at either end. -/
theorem trim_of_ends {s : Str} {c e : Char} (hc : c ∈ s.head?) (hcw : isWhitespace c = false)
    (he : e ∈ s.getLast?) (hew : isWhitespace e = false) : trim s = s := by
  have hstart : trimStart s = s := by
    cases s with
    | nil => rfl
    | cons d s =>
        rw [List.head?_cons, Option.mem_some_iff] at hc
        rw [trimStart, List.dropWhile_cons_of_neg (by rw [hc, hcw]; exact Bool.false_ne_true)]
  rw [trim, hstart, trimEnd_of_last he hew]

/-- Trimming stops at a character in the middle. -/
theorem trim_append_cons {a s : Str} {c e : Char} (hcw : isWhitespace c = false)
    (he : e ∈ s.getLast?) (hew : isWhitespace e = false) :
    trim (a ++ c :: s) = trimStart a ++ c :: s := by
  have hstart : trimStart (a ++ c :: s) = trimStart a ++ c :: s := by
    have hstop : (c :: s).dropWhile isWhitespace = c :: s :=
      List.dropWhile_cons_of_neg (by rw [hcw]; exact Bool.false_ne_true)
    unfold trimStart
    rw [List.dropWhile_append, hstop]
    split
    · rename_i h
      rw [List.isEmpty_iff.mp h]
      rfl
    · rfl
  have hlast : e ∈ (trimStart a ++ c :: s).getLast? := by
    rw [List.getLast?_append, List.getLast?_cons, Option.mem_def.mp he]
    rfl
  rw [trim, hstart, trimEnd_of_last hlast hew]

/-- The first character left by `trim` is no white space. -/
theorem isWhitespace_of_trim_eq_cons {s t : Str} {c : Char} (h : trim s = c :: t) :
    isWhitespace c = false := by
  obtain ⟨u, hu⟩ : trim s <+: trimStart s := List.rdropWhile_prefix _ _
  rw [h] at hu
  have hhead := List.head?_dropWhile_not isWhitespace s
  rw [← trimStart, ← hu] at hhead
  simpa using hhead

/-- White space, what is left, white space. -/
theorem exists_trim_eq (s : Str) :
    ∃ a b, s = a ++ trim s ++ b ∧ (∀ c ∈ a, isWhitespace c = true) ∧
      ∀ c ∈ b, isWhitespace c = true := by
  refine ⟨s.takeWhile isWhitespace, (trimStart s).rtakeWhile isWhitespace, ?_, ?_, ?_⟩
  · rw [List.append_assoc, trim, trimEnd, List.rdropWhile_append_rtakeWhile, trimStart,
      List.takeWhile_append_dropWhile]
  · intro c hc
    exact List.mem_takeWhile_imp hc
  · intro c hc
    exact List.mem_rtakeWhile_imp hc

theorem trimEnd_append {s b : Str} (hb : ∀ c ∈ b, isWhitespace c = true) :
    trimEnd (s ++ b) = trimEnd s := by
  induction b using List.reverseRecOn with
  | nil => rw [List.append_nil]
  | append_singleton b c ih =>
      rw [trimEnd, ← List.append_assoc, List.rdropWhile_concat_pos _ _ _ (hb c (by simp))]
      exact ih fun d hd => hb d (List.mem_append_left _ hd)

/-- White space around a text is trimmed with it. -/
theorem trim_append_append {a s b : Str} (ha : ∀ c ∈ a, isWhitespace c = true)
    (hb : ∀ c ∈ b, isWhitespace c = true) : trim (a ++ s ++ b) = trim s := by
  have hstart : trimStart (a ++ s) = trimStart s := List.dropWhile_append_of_pos ha
  unfold trim
  by_cases hs : trimStart s = []
  · have hall : ∀ c ∈ a ++ s ++ b, isWhitespace c = true := by
      have hsw := List.dropWhile_eq_nil_iff.mp hs
      intro c hc
      rw [List.mem_append, List.mem_append] at hc
      rcases hc with (hc | hc) | hc
      · exact ha c hc
      · exact hsw c hc
      · exact hb c hc
    rw [hs, show trimStart (a ++ s ++ b) = [] from List.dropWhile_eq_nil_iff.mpr hall]
  · have hsplit : trimStart (a ++ s ++ b) = trimStart s ++ b := by
      rw [trimStart, List.dropWhile_append, ← trimStart, hstart, if_neg (by simpa using hs)]
    rw [hsplit, trimEnd_append hb]

theorem mem_trim {s : Str} {c : Char} (hc : isWhitespace c = false) : c ∈ trim s ↔ c ∈ s := by
  obtain ⟨a, b, hs, ha, hb⟩ := exists_trim_eq s
  constructor
  · intro h
    rw [hs]
    simp [h]
  · intro h
    rw [hs, List.mem_append, List.mem_append] at h
    rcases h with (h | h) | h
    · rw [ha c h] at hc
      cases hc
    · exact h
    · rw [hb c h] at hc
      cases hc

theorem containsStr_iff {pat s : Str} : containsStr pat s = true ↔ pat <:+: s := by
  rw [containsStr, List.any_eq_true, List.infix_iff_prefix_suffix]
  constructor
  · intro h
    obtain ⟨t, ht, hpre⟩ := h
    exact ⟨t, List.isPrefixOf_iff_prefix.mp hpre, (List.mem_tails _ _).mp ht⟩
  · intro h
    obtain ⟨t, hpre, hsuf⟩ := h
    exact ⟨t, (List.mem_tails _ _).mpr hsuf, List.isPrefixOf_iff_prefix.mpr hpre⟩

/-- A pattern cannot start where its first character is missing. -/
theorem infix_of_infix_append {x : Char} {pat s t : Str} (hx : x ∉ s)
    (h : x :: pat <:+: s ++ t) : x :: pat <:+: t := by
  induction s with
  | nil => exact h
  | cons d s ih =>
      rw [List.mem_cons, not_or] at hx
      rw [List.cons_append, List.infix_cons_iff] at h
      rcases h with h | h
      · exact absurd (List.cons_prefix_cons.mp h).1 hx.1
      · exact ih hx.2 h

theorem mem_of_containsStr {pat s : Str} {c : Char} (h : containsStr pat s = true)
    (hc : c ∈ pat) : c ∈ s := (containsStr_iff.mp h).mem hc

theorem toLowercaseGo_ascii (U : UnicodeCase) {s : Str} (before : Str)
    (h : ∀ c ∈ s, c.toNat < 128) : toLowercaseGo U before s = s.map Char.toLower := by
  induction s generalizing before with
  | nil => rfl
  | cons c s ih =>
      have hc := h c List.mem_cons_self
      have hsigma : c ≠ 'Σ' := by
        intro h'
        subst h'
        exact absurd hc (by decide)
      rw [toLowercaseGo, if_neg hsigma, U.lower_ascii c hc,
        ih _ fun d hd => h d (List.mem_cons_of_mem _ hd)]
      rfl

theorem toLowercase_ascii (U : UnicodeCase) {s : Str} (h : ∀ c ∈ s, c.toNat < 128) :
    toLowercase U s = s.map Char.toLower := toLowercaseGo_ascii U [] h

/-! ## ASCII letter case does not matter -/

theorem isWhitespace_toLower (c : Char) :
    isWhitespace c.toLower = isWhitespace c := by
  by_cases h : c.val ≥ 'A'.val ∧ c.val ≤ 'Z'.val
  · have hz : c.toNat ≤ 90 := h.2
    have ha : 65 ≤ c.toNat := h.1
    have hval : c.toLower.toNat = c.toNat + 32 := toNat_toLower h
    have hno : ∀ d : Char, 65 ≤ d.toNat → d.toNat ≤ 122 →
        isWhitespace d = false := by
      intro d h1 h2
      simp only [isWhitespace, Bool.or_eq_false_iff, beq_eq_false_iff_ne,
        decide_eq_false_iff_not]
      omega
    rw [hno c ha (by omega), hno c.toLower (by omega) (by omega)]
  · rw [toLower_of_not_upper h]

theorem trim_map_toLower (s : Str) :
    trim (s.map Char.toLower) = (trim s).map Char.toLower := by
  have hp : (isWhitespace ∘ Char.toLower) = isWhitespace :=
    funext isWhitespace_toLower
  simp only [trim, trimEnd, trimStart, List.rdropWhile, List.dropWhile_map,
    ← List.map_reverse, hp]

theorem caseIgnorableThenCased_map_toLower (U : UnicodeCase) (s : Str) :
    caseIgnorableThenCased U (s.map Char.toLower) = caseIgnorableThenCased U s := by
  have hp : (U.caseIgnorable ∘ Char.toLower) = U.caseIgnorable :=
    funext U.caseIgnorable_toLower
  rw [caseIgnorableThenCased, caseIgnorableThenCased, List.dropWhile_map, hp]
  cases s.dropWhile U.caseIgnorable with
  | nil => rfl
  | cons c rest => exact U.cased_toLower c

/-- Only sigma itself lowers, in ASCII, to sigma. -/
theorem toLower_eq_sigma {c : Char} : c.toLower = 'Σ' ↔ c = 'Σ' := by
  constructor
  · intro h
    by_cases hc : c.toNat < 128
    · have := toLower_lt hc
      rw [h] at this
      exact absurd this (by decide)
    · rwa [toLower_eq_self (by omega)] at h
  · rintro rfl
    decide

theorem lower_toLower (U : UnicodeCase) (c : Char) :
    U.lower c.toLower = U.lower c := by
  by_cases hc : c.toNat < 128
  · rw [U.lower_ascii _ (toLower_lt hc), U.lower_ascii _ hc, toLower_toLower]
  · rw [toLower_eq_self (by omega)]

theorem toLowercaseGo_map_toLower (U : UnicodeCase) (before s : Str) :
    toLowercaseGo U (before.map Char.toLower) (s.map Char.toLower)
      = toLowercaseGo U before s := by
  induction s generalizing before with
  | nil => rfl
  | cons c rest ih =>
      have ih' := ih (c :: before)
      rw [List.map_cons] at ih'
      simp only [List.map_cons, toLowercaseGo, ih', toLower_eq_sigma,
        mapUppercaseSigma, caseIgnorableThenCased_map_toLower, lower_toLower]

/-- `to_lowercase` does not see ASCII letter case. -/
theorem toLowercase_map_toLower (U : UnicodeCase) (s : Str) :
    toLowercase U (s.map Char.toLower) = toLowercase U s :=
  toLowercaseGo_map_toLower U [] s

/-! ## Character by character -/

/-- Lowercasing without the final-sigma rule. -/
def lowerEach (U : UnicodeCase) (s : Str) : Str := s.flatMap U.lower

@[simp] theorem lowerEach_append (U : UnicodeCase) (s t : Str) :
    lowerEach U (s ++ t) = lowerEach U s ++ lowerEach U t := List.flatMap_append

theorem lowerEach_ascii (U : UnicodeCase) {s : Str} (h : ∀ c ∈ s, c.toNat < 128) :
    lowerEach U s = s.map Char.toLower := by
  induction s with
  | nil => rfl
  | cons c s ih =>
      rw [lowerEach, List.flatMap_cons, U.lower_ascii c (h c List.mem_cons_self)]
      exact congrArg _ (ih fun d hd => h d (List.mem_cons_of_mem _ hd))

theorem dot_mem_lowerEach {U : UnicodeCase} {s : Str} : '.' ∈ lowerEach U s ↔ '.' ∈ s := by
  unfold lowerEach
  rw [List.mem_flatMap]
  constructor
  · intro h
    obtain ⟨c, hc, hdot⟩ := h
    rwa [U.lower_dot c hdot] at hc
  · intro h
    refine ⟨'.', h, ?_⟩
    rw [U.lower_ascii '.' (by decide)]
    decide

/-- The two lowercase sigmas made one. -/
def foldSigma (c : Char) : Char := if c = 'ς' then 'σ' else c

theorem foldSigma_toLowercaseGo (U : UnicodeCase) (before s : Str) :
    (toLowercaseGo U before s).map foldSigma = (lowerEach U s).map foldSigma := by
  induction s generalizing before with
  | nil => rfl
  | cons c s ih =>
      rw [toLowercaseGo, lowerEach, List.flatMap_cons, List.map_append, List.map_append, ih]
      congr 1
      split
      · rename_i hc
        rw [hc, U.lower_sigma, mapUppercaseSigma]
        split <;> rfl
      · rfl

/-- A suffix without sigmas does not see `foldSigma`. -/
theorem suffix_map_foldSigma {r s : Str} (h : ∀ c ∈ r, c ≠ 'σ' ∧ c ≠ 'ς') :
    r <:+ s.map foldSigma ↔ r <:+ s := by
  have hfix : ∀ c d : Char, d ≠ 'σ' → d ≠ 'ς' → (foldSigma c = d ↔ c = d) := by
    intro c d hd hd'
    unfold foldSigma
    split
    · rename_i hc
      subst hc
      exact iff_of_false (Ne.symm hd) (Ne.symm hd')
    · exact Iff.rfl
  have hmap : ∀ t : Str, t.map foldSigma = r ↔ t = r := by
    intro t
    induction r generalizing t with
    | nil => simp
    | cons d r ih =>
        cases t with
        | nil => simp
        | cons c t =>
            obtain ⟨hd, hd'⟩ := h d List.mem_cons_self
            rw [List.map_cons, List.cons.injEq, List.cons.injEq, hfix c d hd hd',
              ih fun c hc => h c (List.mem_cons_of_mem _ hc)]
  constructor
  · intro hs
    obtain ⟨p, hp⟩ := hs
    obtain ⟨p', t, rfl, _, ht⟩ := List.map_eq_append_iff.mp hp.symm
    rw [(hmap t).mp ht]
    exact List.suffix_append p' r
  · intro hs
    obtain ⟨p, rfl⟩ := hs
    rw [List.map_append, (hmap r).mpr rfl]
    exact List.suffix_append _ r

/-- Ends without sigmas: `to_lowercase` acts character by character. -/
theorem suffix_toLowercase {U : UnicodeCase} {r s : Str} (h : ∀ c ∈ r, c ≠ 'σ' ∧ c ≠ 'ς')
    (c : Char) : r <:+ c :: toLowercase U s ↔ r <:+ c :: lowerEach U s := by
  rw [← suffix_map_foldSigma h, List.map_cons, toLowercase, foldSigma_toLowercaseGo,
    ← List.map_cons, suffix_map_foldSigma h]

/-! ## Pieces between separators -/

theorem intercalate_append {α : Type*} {sep : List α} {a b : List (List α)} (ha : a ≠ [])
    (hb : b ≠ []) : sep.intercalate (a ++ b) = sep.intercalate a ++ (sep ++ sep.intercalate b) := by
  induction a with
  | nil => exact absurd rfl ha
  | cons x a ih =>
      cases a with
      | nil =>
          rw [List.singleton_append, List.intercalate_cons_of_ne_nil hb,
            List.intercalate_singleton, List.append_assoc]
      | cons y a =>
          rw [List.cons_append, List.cons_append, List.intercalate_cons_cons,
            ← List.cons_append, ih (by simp), List.intercalate_cons_cons]
          simp only [List.append_assoc]

theorem mem_intercalate {α : Type*} {x c : α} {ls : List (List α)}
    (h : c ∈ [x].intercalate ls) : c = x ∨ ∃ l ∈ ls, c ∈ l := by
  induction ls with
  | nil => cases h
  | cons l ls ih =>
      cases ls with
      | nil =>
          rw [List.intercalate_singleton] at h
          exact .inr ⟨l, List.mem_cons_self, h⟩
      | cons l' ls =>
          rw [List.intercalate_cons_cons, List.append_assoc, List.mem_append, List.mem_append,
            List.mem_singleton] at h
          rcases h with h | h | h
          · exact .inr ⟨l, List.mem_cons_self, h⟩
          · exact .inl h
          · rcases ih h with h | ⟨m, hm, hc⟩
            · exact .inl h
            · exact .inr ⟨m, List.mem_cons_of_mem _ hm, hc⟩

theorem lowerEach_intercalate (U : UnicodeCase) (ts : List Str) :
    lowerEach U (['.'].intercalate ts) = ['.'].intercalate (ts.map (lowerEach U)) := by
  have hdot : lowerEach U ['.'] = ['.'] := by
    rw [lowerEach_ascii U (List.forall_mem_singleton.mpr (by decide))]
    rfl
  induction ts with
  | nil => rfl
  | cons t ts ih =>
      cases ts with
      | nil => simp
      | cons u ts =>
          rw [List.intercalate_cons_cons, List.map_cons, List.map_cons,
            List.intercalate_cons_cons, lowerEach_append, lowerEach_append, ih, hdot,
            List.map_cons]

/-- The tables cut down to the ASCII range and sigma: every other character
is its own lowercase. -/
def UnicodeCase.ascii : UnicodeCase where
  lower c := if c = 'Σ' then ['σ'] else [c.toLower]
  cased c := c.toLower.toNat ∈ List.range' 97 26
  caseIgnorable c := c.toLower.toNat ∈ [0x27, 0x2E, 0x3A, 0x5E, 0x60]
  lower_ascii c hc := by
    rw [if_neg]
    rintro rfl
    exact absurd hc (by decide)
  lower_sigma := rfl
  lower_dot c h := by
    split at h
    · simp at h
    · rw [List.mem_singleton] at h
      by_cases hc : c.val ≥ 'A'.val ∧ c.val ≤ 'Z'.val
      · have hval : c.toLower.toNat = c.toNat + 32 := toNat_toLower hc
        rw [← h, show '.'.toNat = 46 from rfl] at hval
        have : 65 ≤ c.toNat := hc.1
        omega
      · rw [h, toLower_of_not_upper hc]
  cased_toLower c := by rw [toLower_toLower]
  caseIgnorable_toLower c := by rw [toLower_toLower]

/-- Two more facts of every version of the tables: no character lowercases
to nothing, and none but itself to an ASCII character that is no letter. -/
structure UnicodeTables extends UnicodeCase where
  lower_ne_nil : ∀ c, lower c ≠ []
  lower_mark : ∀ c d, d ∈ lower c → d.toNat < 128 → d.isAlpha = false → c = d

theorem toLower_of_not_alpha {c : Char} (h : c.isAlpha = false) : c.toLower = c := by
  apply toLower_of_not_upper
  intro hc
  have hup : c.isUpper = true := decide_eq_true hc
  have hletter : (c.isUpper || c.isLower) = false := h
  rw [hup] at hletter
  cases hletter

/-- The two facts hold of the small tables. -/
def UnicodeTables.ascii : UnicodeTables where
  toUnicodeCase := .ascii
  lower_ne_nil c := by
    simp only [UnicodeCase.ascii]
    split <;> simp
  lower_mark c d hd hlt halpha := by
    simp only [UnicodeCase.ascii] at hd
    split at hd
    · rw [List.mem_singleton.mp hd] at hlt
      exact absurd hlt (by decide)
    · rw [List.mem_singleton] at hd
      by_cases hc : c.val ≥ 'A'.val ∧ c.val ≤ 'Z'.val
      · have hval := toNat_toLower hc
        have hlo : 65 ≤ c.toNat := hc.1
        have hhi : c.toNat ≤ 90 := hc.2
        have hlower : d.isLower = true := by
          rw [hd]
          exact Bool.and_eq_true_iff.mpr ⟨decide_eq_true (show 97 ≤ c.toLower.toNat by omega),
            decide_eq_true (show c.toLower.toNat ≤ 122 by omega)⟩
        have hletter : (d.isUpper || d.isLower) = false := halpha
        rw [hlower, Bool.or_true] at hletter
        cases hletter
      · rw [hd, toLower_of_not_upper hc]

end Lib
