import Dotdns.Lib.Text

/-!
# Lib — address literals

The texts that `str::parse::<IpAddr>` accepts: a dotted quad, or eight
16-bit groups in hexadecimal of which one run may be left out as `::` and
the last two may be written as a dotted quad.

The second half is about cutting a literal at a colon: which of the
shorter texts are literals again.
-/

namespace Lib

/-! ## The grammar -/

/-- A hexadecimal digit in either case. -/
def isHexDigit (c : Char) : Bool :=
  c.isDigit || (decide ('a' ≤ c) && decide (c ≤ 'f')) || (decide ('A' ≤ c) && decide (c ≤ 'F'))

/-- One number of a dotted quad: at most 255, without leading zeros. -/
def isOctet (s : Str) : Bool :=
  s.all Char.isDigit && decide (1 ≤ s.length) && decide (s.length ≤ 3) &&
    (s.length == 1 || s.head? != some '0') && decide (Nat.ofDigitChars 10 s 0 ≤ 255)

/-- Four octets with dots between them. -/
def isIpv4Literal (s : Str) : Bool :=
  (s.splitOn '.').length == 4 && (s.splitOn '.').all isOctet

/-- One group: one to four hexadecimal digits. -/
def isHexGroup (s : Str) : Bool :=
  s.all isHexDigit && decide (1 ≤ s.length) && decide (s.length ≤ 4)

/-- The number of groups in a row of pieces; the last piece may be a dotted
quad, which stands for two. -/
def groupCount : List Str → Option Nat
  | [] => some 0
  | [piece] =>
      if isHexGroup piece then some 1
      else if isIpv4Literal piece then some 2
      else none
  | piece :: pieces => if isHexGroup piece then (groupCount pieces).map (· + 1) else none

/-- The text before and after the first `::`. -/
def cutElision : Str → Option (Str × Str)
  | [] => none
  | c :: rest =>
      if c = ':' ∧ rest.head? = some ':' then some ([], rest.tail)
      else (cutElision rest).map fun cut => (c :: cut.1, cut.2)

/-- The groups before `::`, where no dotted quad may stand. -/
def headCount (s : Str) : Option Nat :=
  if s = [] then some 0
  else if (s.splitOn ':').all isHexGroup then some (s.splitOn ':').length
  else none

/-- The groups after `::`. -/
def tailCount (s : Str) : Option Nat := if s = [] then some 0 else groupCount (s.splitOn ':')

/-- Eight groups, or fewer around one `::`. -/
def isIpv6Literal (s : Str) : Bool :=
  match cutElision s with
  | none => groupCount (s.splitOn ':') == some 8
  | some (head, tail) =>
      -- the elision stands for at least one group
      (headCount head).any fun n => (tailCount tail).any fun k => decide (n + k ≤ 7)

/-- `s.parse::<IpAddr>().is_ok()`. -/
def isIpLiteral (s : Str) : Bool := isIpv4Literal s || isIpv6Literal s

example : isIpLiteral "192.0.2.1".toList = true := by decide +kernel
example : isIpLiteral "192.0.02.1".toList = false := by decide +kernel
example : isIpLiteral "::ffff:192.0.2.1".toList = true := by decide +kernel
example : isIpLiteral "2001:db8::1".toList = true := by decide +kernel
example : isIpLiteral "1:2:3:4:5:6:7".toList = false := by decide +kernel

/-! ## The characters of a literal -/

theorem mem_splitOn (sep : Char) {c : Char} {s : Str} (hc : c ∈ s) :
    c = sep ∨ ∃ piece ∈ s.splitOn sep, c ∈ piece := by
  induction s with
  | nil => cases hc
  | cons d s ih =>
      rw [List.splitOn_cons_eq_if_modifyHead]
      obtain ⟨p, ps, hps⟩ := List.exists_cons_of_ne_nil (List.splitOn_ne_nil sep s)
      by_cases hd : d = sep
      · subst hd
        rcases List.mem_cons.mp hc with rfl | hc
        · exact .inl rfl
        · rcases ih hc with h | ⟨piece, hpiece, hmem⟩
          · exact .inl h
          · exact .inr ⟨piece, by simp [hpiece], hmem⟩
      · rw [if_neg (by simpa using hd), hps, List.modifyHead_cons]
        rcases List.mem_cons.mp hc with rfl | hc
        · exact .inr ⟨c :: p, List.mem_cons_self, List.mem_cons_self⟩
        · rcases ih hc with h | ⟨piece, hpiece, hmem⟩
          · exact .inl h
          · rw [hps] at hpiece
            rcases List.mem_cons.mp hpiece with rfl | hpiece
            · exact .inr ⟨d :: piece, List.mem_cons_self, List.mem_cons_of_mem _ hmem⟩
            · exact .inr ⟨piece, List.mem_cons_of_mem _ hpiece, hmem⟩

theorem isOctet_digit {s : Str} (h : isOctet s = true) {c : Char} (hc : c ∈ s) :
    c.isDigit = true := by
  simp only [isOctet, Bool.and_eq_true, List.all_eq_true] at h
  exact h.1.1.1.1 c hc

theorem isHexGroup_digit {s : Str} (h : isHexGroup s = true) {c : Char} (hc : c ∈ s) :
    isHexDigit c = true := by
  simp only [isHexGroup, Bool.and_eq_true, List.all_eq_true] at h
  exact h.1.1 c hc

theorem isHexGroup_ne_nil {s : Str} (h : isHexGroup s = true) : s ≠ [] := by
  rintro rfl
  simp [isHexGroup] at h

theorem isIpv4Literal_char {s : Str} (h : isIpv4Literal s = true) {c : Char} (hc : c ∈ s) :
    c.isDigit = true ∨ c = '.' := by
  simp only [isIpv4Literal, Bool.and_eq_true, List.all_eq_true] at h
  rcases mem_splitOn '.' hc with hdot | ⟨piece, hpiece, hmem⟩
  · exact .inr hdot
  · exact .inl (isOctet_digit (h.2 piece hpiece) hmem)

/-- A character that a literal can hold. -/
def literalChar (c : Char) : Prop := isHexDigit c = true ∨ c = '.' ∨ c = ':'

theorem literalChar_of_ipv4 {s : Str} (h : isIpv4Literal s = true) {c : Char} (hc : c ∈ s) :
    literalChar c := by
  rcases isIpv4Literal_char h hc with hdigit | hdot
  · exact .inl (by simp [isHexDigit, hdigit])
  · exact .inr (.inl hdot)

theorem groupCount_cons {piece : Str} {pieces : List Str} {n : Nat} (hne : pieces ≠ []) :
    groupCount (piece :: pieces) = some n ↔
      isHexGroup piece = true ∧ ∃ k, groupCount pieces = some k ∧ k + 1 = n := by
  cases pieces with
  | nil => exact absurd rfl hne
  | cons p ps =>
      rw [groupCount]
      · by_cases hp : isHexGroup piece = true
        · simp [hp]
        · simp [hp]
      · simp

theorem groupCount_char {pieces : List Str} {n : Nat} (h : groupCount pieces = some n)
    {piece : Str} (hpiece : piece ∈ pieces) {c : Char} (hc : c ∈ piece) : literalChar c := by
  induction pieces generalizing n with
  | nil => cases hpiece
  | cons p ps ih =>
      by_cases hps : ps = []
      · subst hps
        obtain rfl : piece = p := by simpa using hpiece
        rw [groupCount] at h
        split at h
        · rename_i hhex
          exact .inl (isHexGroup_digit hhex hc)
        · split at h
          · rename_i hv4
            exact literalChar_of_ipv4 hv4 hc
          · cases h
      · obtain ⟨hhex, k, hk, _⟩ := (groupCount_cons hps).mp h
        rcases List.mem_cons.mp hpiece with rfl | hpiece
        · exact .inl (isHexGroup_digit hhex hc)
        · exact ih hk hpiece

/-! ## The elision -/

/-- Where the first `::` is does not depend on what follows it; and one
colon alone is no elision. -/
theorem cutElision_eq_some {s h t : Str} (hs : cutElision s = some (h, t)) :
    s = h ++ ':' :: ':' :: t ∧ (∀ t', cutElision (h ++ ':' :: ':' :: t') = some (h, t')) ∧
      cutElision (h ++ [':']) = none := by
  induction s generalizing h with
  | nil => cases hs
  | cons c s ih =>
      rw [cutElision] at hs
      split at hs
      · rename_i hc
        cases hs
        obtain ⟨rfl, hhead⟩ := hc
        cases s with
        | nil => cases hhead
        | cons d s =>
            obtain rfl := Option.some.inj hhead
            exact ⟨rfl, fun t' => rfl, rfl⟩
      · rename_i hc
        obtain ⟨⟨h', t'⟩, hcut, heq⟩ := Option.map_eq_some_iff.mp hs
        cases heq
        obtain ⟨hs', hmove, hone⟩ := ih hcut
        -- the head of what follows is the head of `h' ++ ":"`, whatever comes later
        have hhead : ∀ x, (h' ++ ':' :: x).head? = s.head? := by
          intro x
          rw [hs']
          cases h' <;> rfl
        refine ⟨by rw [hs']; rfl, ?_, ?_⟩
        · intro t''
          rw [List.cons_append, cutElision, hhead, if_neg hc, hmove]
          rfl
        · rw [List.cons_append, cutElision, hhead, if_neg hc, hone]
          rfl

theorem cutElision_of_prefix {s t : Str} (h : cutElision (s ++ t) = none) :
    cutElision s = none := by
  induction s with
  | nil => rfl
  | cons c s ih =>
      rw [List.cons_append, cutElision] at h
      split at h
      · cases h
      · rename_i hc
        have hrest := ih (Option.map_eq_none_iff.mp h)
        have hc' : ¬ (c = ':' ∧ s.head? = some ':') := by
          intro hboth
          apply hc
          refine ⟨hboth.1, ?_⟩
          cases s with
          | nil => cases hboth.2
          | cons d s => exact hboth.2
        rw [cutElision, if_neg hc', hrest]
        rfl

/-- The first `::` is not after any other. -/
theorem cutElision_append (pre post : Str) :
    ∃ h t, cutElision (pre ++ ':' :: ':' :: post) = some (h, t) ∧ post <:+ t := by
  induction pre with
  | nil => exact ⟨[], post, rfl, List.suffix_refl post⟩
  | cons c pre ih =>
      obtain ⟨h, t, hcut, hsuffix⟩ := ih
      rw [List.cons_append, cutElision]
      split
      · refine ⟨[], _, rfl, ?_⟩
        cases pre with
        | nil => exact List.suffix_cons ':' post
        | cons d pre => exact ⟨pre ++ [':', ':'], by simp⟩
      · rw [hcut]
        exact ⟨c :: h, t, rfl, hsuffix⟩

/-! ## Cutting at the last colon -/

theorem groupCount_of_hex {pieces : List Str} (h : ∀ p ∈ pieces, isHexGroup p = true) :
    groupCount pieces = some pieces.length := by
  induction pieces with
  | nil => rfl
  | cons p ps ih =>
      obtain ⟨hp, hps⟩ := List.forall_mem_cons.mp h
      by_cases hnil : ps = []
      · subst hnil
        simp [groupCount, hp]
      · exact (groupCount_cons hnil).mpr ⟨hp, ps.length, ih hps, rfl⟩

/-- All pieces but the last are groups; the last stands for one or two. -/
theorem groupCount_concat {pieces : List Str} {last : Str} {n : Nat}
    (h : groupCount (pieces ++ [last]) = some n) :
    (∀ p ∈ pieces, isHexGroup p = true) ∧ last ≠ [] ∧
      (n = pieces.length + 1 ∨ n = pieces.length + 2) := by
  induction pieces generalizing n with
  | nil =>
      rw [List.nil_append, groupCount] at h
      refine ⟨by simp, ?_, ?_⟩
      · rintro rfl
        simp [isHexGroup, isIpv4Literal] at h
      · split at h
        · cases h
          exact .inl rfl
        · split at h
          · cases h
            exact .inr rfl
          · cases h
  | cons p ps ih =>
      obtain ⟨hp, k, hk, rfl⟩ := (groupCount_cons (by simp)).mp h
      obtain ⟨hps, hlast, hn⟩ := ih hk
      refine ⟨List.forall_mem_cons.mpr ⟨hp, hps⟩, hlast, ?_⟩
      simp only [List.length_cons]
      omega

theorem exists_last_split {c : Char} {s : Str} (h : c ∈ s) :
    ∃ b last, s = b ++ c :: last ∧ c ∉ last := by
  induction s with
  | nil => cases h
  | cons d s ih =>
      by_cases hs : c ∈ s
      · obtain ⟨b, last, rfl, hlast⟩ := ih hs
        exact ⟨d :: b, last, rfl, hlast⟩
      · obtain rfl : c = d := by simpa [hs] using h
        exact ⟨[], s, rfl, hs⟩

theorem last_split_unique {c : Char} {b b' last last' : Str}
    (heq : b ++ c :: last = b' ++ c :: last') (h : c ∉ last) (h' : c ∉ last') :
    b = b' ∧ last = last' := by
  rcases List.append_eq_append_iff.mp heq with ⟨as, hb', hlast⟩ | ⟨as, hb, hlast'⟩
  · cases as with
    | nil => exact ⟨by simpa using hb'.symm, (List.cons.inj hlast).2⟩
    | cons d as =>
        rw [(List.cons.inj hlast).2] at h
        simp at h
  · cases as with
    | nil => exact ⟨by simpa using hb, ((List.cons.inj hlast').2).symm⟩
    | cons d as =>
        rw [(List.cons.inj hlast').2] at h'
        simp at h'

theorem isIpv4Literal_of_colon {s : Str} (h : ':' ∈ s) : isIpv4Literal s = false := by
  rw [Bool.eq_false_iff]
  intro hv4
  rcases isIpv4Literal_char hv4 h with hdigit | hdot
  · revert hdigit
    decide
  · revert hdot
    decide

/-- `::` comes up before the last colon. -/
def ElidesEarly (s : Str) : Prop := ∃ pre post, s = pre ++ ':' :: ':' :: post ∧ ':' ∈ post

theorem elidesEarly_iff {s h t : Str} (hcut : cutElision s = some (h, t)) :
    ElidesEarly s ↔ ':' ∈ t := by
  constructor
  · intro hearly
    obtain ⟨pre, post, rfl, hpost⟩ := hearly
    obtain ⟨h', t', hcut', hsuffix⟩ := cutElision_append pre post
    obtain ⟨rfl, rfl⟩ := Prod.mk.inj (Option.some.inj (hcut'.symm.trans hcut))
    exact hsuffix.subset hpost
  · intro hcolon
    exact ⟨h, t, (cutElision_eq_some hcut).1, hcolon⟩

/-- All groups are written out. -/
theorem isIpLiteral_cut_full {b last : Str} (hlast : ':' ∉ last)
    (hcut : cutElision (b ++ ':' :: last) = none)
    (hcount : groupCount ((b ++ ':' :: last).splitOn ':') = some 8) : isIpLiteral b = false := by
  rw [List.splitOn_append_cons_self, List.splitOn_eq_singleton hlast] at hcount
  obtain ⟨hhex, _, hlen⟩ := groupCount_concat hcount
  have hcolon : ':' ∈ b := by
    by_contra hno
    rw [List.splitOn_eq_singleton hno, List.length_singleton] at hlen
    omega
  have hne : (b.splitOn ':').length ≠ 8 := by omega
  simp [isIpLiteral, isIpv4Literal_of_colon hcolon, isIpv6Literal, cutElision_of_prefix hcut,
    groupCount_of_hex hhex, hne]

/-- The cut leaves one colon of the `::`. -/
theorem isIpLiteral_cut_elision {h : Str} (hone : cutElision (h ++ [':']) = none) :
    isIpLiteral (h ++ [':']) = false := by
  have hcount : groupCount ((h ++ [':']).splitOn ':') ≠ some 8 := by
    rw [List.splitOn_append_cons_self]
    intro hcount
    exact (groupCount_concat hcount).2.1 rfl
  simp [isIpLiteral, isIpv4Literal_of_colon, isIpv6Literal, hone, hcount]

/-- The cut leaves the `::` and fewer groups after it. -/
theorem isIpLiteral_cut_tail {h t last : Str} (hlast : ':' ∉ last)
    (hmove : ∀ t', cutElision (h ++ ':' :: ':' :: t') = some (h, t'))
    (hv6 : isIpv6Literal (h ++ ':' :: ':' :: (t ++ ':' :: last)) = true) :
    isIpLiteral (h ++ ':' :: ':' :: t) = true := by
  rw [isIpv6Literal, hmove] at hv6
  obtain ⟨n, hn, hv6⟩ := (Option.any_eq_true _ _).mp hv6
  obtain ⟨k, hk, hle⟩ := (Option.any_eq_true _ _).mp hv6
  rw [tailCount, if_neg (by simp), List.splitOn_append_cons_self,
    List.splitOn_eq_singleton hlast] at hk
  obtain ⟨hhex, _, hlen⟩ := groupCount_concat hk
  have hne : t ≠ [] := by
    rintro rfl
    exact isHexGroup_ne_nil (hhex [] (by simp)) rfl
  have htail : tailCount t = some (t.splitOn ':').length := by
    rw [tailCount, if_neg hne, groupCount_of_hex hhex]
  simp only [decide_eq_true_eq] at hle
  have hfit : n + (t.splitOn ':').length ≤ 7 := by omega
  simp [isIpLiteral, isIpv6Literal, hmove, hn, htail, hfit]

/-- **The text before the last colon.** It is a literal again exactly when
`::` comes up earlier. -/
theorem isIpLiteral_cut_iff {b last : Str} (hlast : ':' ∉ last)
    (hv6 : isIpv6Literal (b ++ ':' :: last) = true) :
    isIpLiteral b = true ↔ ElidesEarly (b ++ ':' :: last) := by
  cases hcut : cutElision (b ++ ':' :: last) with
  | none =>
      rw [isIpv6Literal, hcut] at hv6
      rw [isIpLiteral_cut_full hlast hcut (by simpa using hv6)]
      refine iff_of_false (by simp) ?_
      intro hearly
      obtain ⟨pre, post, heq, _⟩ := hearly
      obtain ⟨h, t, hcut', _⟩ := cutElision_append pre post
      rw [heq, hcut'] at hcut
      cases hcut
  | some cut =>
      obtain ⟨h, t⟩ := cut
      obtain ⟨heq, hmove, hone⟩ := cutElision_eq_some hcut
      rw [elidesEarly_iff hcut]
      by_cases hcolon : ':' ∈ t
      · obtain ⟨t', last', rfl, hlast'⟩ := exists_last_split hcolon
        have hsplit : b ++ ':' :: last = (h ++ ':' :: ':' :: t') ++ ':' :: last' := by
          rw [heq]
          simp
        obtain ⟨rfl, rfl⟩ := last_split_unique hsplit hlast hlast'
        rw [heq] at hv6
        exact iff_of_true (isIpLiteral_cut_tail hlast hmove hv6) hcolon
      · have hsplit : b ++ ':' :: last = (h ++ [':']) ++ ':' :: t := by
          rw [heq]
          simp
        obtain ⟨rfl, rfl⟩ := last_split_unique hsplit hlast hcolon
        rw [isIpLiteral_cut_elision hone]
        exact iff_of_false (by simp) hcolon

/-- An IPv6 literal has a colon. -/
theorem colon_mem_of_ipv6 {s : Str} (h : isIpv6Literal s = true) : ':' ∈ s := by
  by_contra hno
  cases hcut : cutElision s with
  | none =>
      rw [isIpv6Literal, hcut, List.splitOn_eq_singleton hno, beq_iff_eq] at h
      have hone : groupCount ([] ++ [s]) = some 8 := h
      have hlen := (groupCount_concat hone).2.2
      simp at hlen
  | some cut =>
      rw [(cutElision_eq_some hcut).1] at hno
      simp at hno

theorem isIpLiteral_char {s : Str} (h : isIpLiteral s = true) {c : Char} (hc : c ∈ s) :
    literalChar c := by
  rw [isIpLiteral, Bool.or_eq_true] at h
  rcases h with hv4 | hv6
  · exact literalChar_of_ipv4 hv4 hc
  · cases hcut : cutElision s with
    | none =>
        rw [isIpv6Literal, hcut, beq_iff_eq] at hv6
        rcases mem_splitOn ':' hc with rfl | ⟨piece, hpiece, hmem⟩
        · exact .inr (.inr rfl)
        · exact groupCount_char hv6 hpiece hmem
    | some cut =>
        obtain ⟨h, t⟩ := cut
        rw [isIpv6Literal, hcut] at hv6
        obtain ⟨n, hn, hv6⟩ := (Option.any_eq_true _ _).mp hv6
        obtain ⟨k, hk, _⟩ := (Option.any_eq_true _ _).mp hv6
        rw [(cutElision_eq_some hcut).1] at hc
        simp only [List.mem_append, List.mem_cons] at hc
        rcases hc with hc | rfl | rfl | hc
        · rcases mem_splitOn ':' hc with rfl | ⟨piece, hpiece, hmem⟩
          · exact .inr (.inr rfl)
          · rw [headCount, if_neg (List.ne_nil_of_mem hc)] at hn
            split at hn
            · rename_i hhex
              exact .inl (isHexGroup_digit (List.all_eq_true.mp hhex piece hpiece) hmem)
            · cases hn
        · exact .inr (.inr rfl)
        · exact .inr (.inr rfl)
        · rcases mem_splitOn ':' hc with rfl | ⟨piece, hpiece, hmem⟩
          · exact .inr (.inr rfl)
          · rw [tailCount, if_neg (List.ne_nil_of_mem hc)] at hk
            exact groupCount_char hk hpiece hmem

theorem not_literalChar_brackets : ¬ literalChar '[' ∧ ¬ literalChar ']' := by
  unfold literalChar
  decide

end Lib
