import Dotdns.Lib.Text

/-!
# Lib — lines of a byte stream

A stream of bytes that is read line by line, and text as UTF-8 bytes.
`cutLine` is one read: up to and including the next line feed, or
everything that is left. The text of a line is its bytes decoded as UTF-8,
which may fail.

Text without a line feed has no byte 10 in its UTF-8 form, so texts sent
one a line are read back one by one.
-/

namespace Lib

/-! ## Text as bytes -/

/-- The bytes of a text. -/
def utf8 (s : Str) : List UInt8 := s.flatMap String.utf8EncodeChar

/-- `String::from_utf8`. -/
def fromUtf8 (bytes : List UInt8) : Option Str :=
  (ByteArray.utf8Decode? bytes.toByteArray).map Array.toList

/-- The byte `'\n'`. -/
def lineFeed : UInt8 := 10

theorem fromUtf8_utf8 (s : Str) : fromUtf8 (utf8 s) = some s := by
  have h : ByteArray.utf8Decode? s.utf8Encode = some s.toArray := List.utf8Decode?_utf8Encode
  rw [fromUtf8, show (utf8 s).toByteArray = s.utf8Encode from rfl, h]
  rfl

/-- The bytes of a longer form all have their top bit set. -/
theorem lineFeed_ne_ofNat {n : Nat} (hlo : 128 ≤ n) (hhi : n < 256) : lineFeed ≠ UInt8.ofNat n := by
  intro h
  have hn : (UInt8.ofNat n).toNat = n := UInt8.toNat_ofNat_of_lt' hhi
  rw [← h] at hn
  have hten : lineFeed.toNat = 10 := rfl
  omega

theorem lineFeed_mem_utf8EncodeChar {c : Char} (h : lineFeed ∈ String.utf8EncodeChar c) :
    c = '\n' := by
  -- one case for each length of the form; only the one-byte form can hold it
  have hdef : String.utf8EncodeChar c =
      if c.val.toNat ≤ 0x7f then [UInt8.ofNat c.val.toNat]
      else if c.val.toNat ≤ 0x7ff then
        [UInt8.ofNat (c.val.toNat / 64 % 0x20 + 0xc0), UInt8.ofNat (c.val.toNat % 0x40 + 0x80)]
      else if c.val.toNat ≤ 0xffff then
        [UInt8.ofNat (c.val.toNat / 4096 % 0x10 + 0xe0),
          UInt8.ofNat (c.val.toNat / 64 % 0x40 + 0x80), UInt8.ofNat (c.val.toNat % 0x40 + 0x80)]
      else
        [UInt8.ofNat (c.val.toNat / 262144 % 0x08 + 0xf0),
          UInt8.ofNat (c.val.toNat / 4096 % 0x40 + 0x80),
          UInt8.ofNat (c.val.toNat / 64 % 0x40 + 0x80), UInt8.ofNat (c.val.toNat % 0x40 + 0x80)] :=
    rfl
  rw [hdef] at h
  split at h
  · rename_i hle
    have hval : (UInt8.ofNat c.val.toNat).toNat = c.val.toNat :=
      UInt8.toNat_ofNat_of_lt' (by show c.val.toNat < 256; omega)
    rw [← List.mem_singleton.mp h] at hval
    exact Char.ext (UInt32.toNat_inj.mp hval.symm)
  · have hne : ∀ n, 128 ≤ n → n < 256 → lineFeed ≠ UInt8.ofNat n := fun n => lineFeed_ne_ofNat
    split at h
    · simp only [List.mem_cons, List.not_mem_nil, or_false] at h
      rcases h with h | h
      · exact absurd h (hne _ (by omega) (by omega))
      · exact absurd h (hne _ (by omega) (by omega))
    · split at h
      · simp only [List.mem_cons, List.not_mem_nil, or_false] at h
        rcases h with h | h | h <;> exact absurd h (hne _ (by omega) (by omega))
      · simp only [List.mem_cons, List.not_mem_nil, or_false] at h
        rcases h with h | h | h | h <;> exact absurd h (hne _ (by omega) (by omega))

theorem lineFeed_not_mem_utf8 {s : Str} (h : '\n' ∉ s) : lineFeed ∉ utf8 s := by
  intro hmem
  obtain ⟨c, hc, hbyte⟩ := List.mem_flatMap.mp hmem
  exact h (lineFeed_mem_utf8EncodeChar hbyte ▸ hc)

/-! ## Lines -/

/-- The next line with its line feed, or all that is left, and what comes
behind it. -/
def cutLine : List UInt8 → List UInt8 × List UInt8
  | [] => ([], [])
  | b :: bytes =>
      if b = lineFeed then ([b], bytes)
      else
        let (line, rest) := cutLine bytes
        (b :: line, rest)

/-- The bytes of one line. -/
def IsLine (line : List UInt8) : Prop := ∃ body, lineFeed ∉ body ∧ line = body ++ [lineFeed]

theorem cutLine_append {body : List UInt8} (h : lineFeed ∉ body) (rest : List UInt8) :
    cutLine (body ++ lineFeed :: rest) = (body ++ [lineFeed], rest) := by
  induction body with
  | nil => rfl
  | cons b body ih =>
      obtain ⟨hb, hbody⟩ := not_or.mp (fun hmem => h (List.mem_cons.mpr hmem))
      rw [List.cons_append, cutLine, if_neg (Ne.symm hb), ih hbody]
      rfl

/-- Every read takes one line, or the unfinished end of the stream. -/
theorem cutLine_cases (bytes : List UInt8) :
    bytes = (cutLine bytes).1 ++ (cutLine bytes).2 ∧
      (IsLine (cutLine bytes).1 ∨ lineFeed ∉ bytes ∧ (cutLine bytes).2 = []) := by
  induction bytes with
  | nil => exact ⟨rfl, .inr ⟨List.not_mem_nil, rfl⟩⟩
  | cons b bytes ih =>
      rw [cutLine]
      by_cases hb : b = lineFeed
      · subst hb
        rw [if_pos rfl]
        exact ⟨rfl, .inl ⟨[], List.not_mem_nil, rfl⟩⟩
      · obtain ⟨hsplit, hline⟩ := ih
        rw [if_neg hb]
        refine ⟨congrArg (b :: ·) hsplit, ?_⟩
        rcases hline with ⟨body, hbody, hline⟩ | ⟨hnot, hrest⟩
        · refine .inl ⟨b :: body, ?_, congrArg (b :: ·) hline⟩
          rw [List.mem_cons, not_or]
          exact ⟨Ne.symm hb, hbody⟩
        · refine .inr ⟨?_, hrest⟩
          rw [List.mem_cons, not_or]
          exact ⟨Ne.symm hb, hnot⟩

/-- All the lines, the unfinished end included; `acc` is the current line,
reversed. -/
def byteLinesGo (acc : List UInt8) : List UInt8 → List (List UInt8)
  | [] => if acc = [] then [] else [acc.reverse]
  | b :: bytes =>
      if b = lineFeed then (b :: acc).reverse :: byteLinesGo [] bytes
      else byteLinesGo (b :: acc) bytes

/-- The lines of a stream, each without its line feed. -/
def byteLines (bytes : List UInt8) : List (List UInt8) := byteLinesGo [] bytes

theorem byteLinesGo_eq (acc bytes : List UInt8) (h : acc ≠ [] ∨ bytes ≠ []) :
    byteLinesGo acc bytes = (acc.reverse ++ (cutLine bytes).1) :: byteLines (cutLine bytes).2 := by
  induction bytes generalizing acc with
  | nil =>
      have hacc : acc ≠ [] := h.resolve_right fun hnil => hnil rfl
      rw [byteLinesGo, if_neg hacc]
      exact congrArg (· :: []) (List.append_nil _).symm
  | cons b bytes ih =>
      rw [byteLinesGo, cutLine]
      by_cases hb : b = lineFeed
      · rw [if_pos hb, if_pos hb, List.reverse_cons]
        rfl
      · rw [if_neg hb, if_neg hb, ih (b :: acc) (.inl (List.cons_ne_nil b acc)), List.reverse_cons,
          List.append_assoc]
        rfl

/-- The lines, one read after another. -/
theorem byteLines_eq {bytes : List UInt8} (h : bytes ≠ []) :
    byteLines bytes = (cutLine bytes).1 :: byteLines (cutLine bytes).2 :=
  byteLinesGo_eq [] bytes (.inr h)

/-! ## Reading a stream -/

/-- What comes once the bytes of a stream are used up. -/
inductive StreamEnd where
  | closed
  | failed (detail : Str)
  /-- The stream is open, and nothing comes. -/
  | silent
  deriving DecidableEq, Repr

/-- What a peer sends, and what comes after it. -/
structure LineStream where
  bytes : List UInt8
  ending : StreamEnd
  deriving DecidableEq, Repr

/-- What `read_line` returns: `eof` is `Ok(0)`. -/
inductive ReadLine where
  | line (text : Str)
  | eof
  | error (detail : Str)
  deriving DecidableEq, Repr

/-- The error text of `read_line` on bytes that are no text. -/
def invalidUtf8 : Str := "stream did not contain valid UTF-8".toList

/-- A line as text, or the error. -/
def decodeLine (line : List UInt8) : ReadLine :=
  match fromUtf8 line with
  | some text => .line text
  | none => .error invalidUtf8

namespace LineStream

/-- One `read_line` and what it leaves; `none` while it waits. -/
def readLine (s : LineStream) : Option (ReadLine × LineStream) :=
  let (line, rest) := cutLine s.bytes
  if line.getLast? = some lineFeed then some (decodeLine line, { s with bytes := rest })
  else match s.ending with
    | .closed => some (if line = [] then .eof else decodeLine line, { s with bytes := [] })
    | .failed detail => some (.error detail, { s with bytes := [] })
    | .silent => none

/-- A line that is there is read, and the rest is left. -/
theorem readLine_text {text : Str} (h : '\n' ∉ text) (rest : List UInt8) (ending : StreamEnd) :
    (LineStream.mk (utf8 text ++ lineFeed :: rest) ending).readLine =
      some (.line (text ++ ['\n']), ⟨rest, ending⟩) := by
  have hdecode : fromUtf8 (utf8 text ++ [lineFeed]) = some (text ++ ['\n']) := by
    rw [← fromUtf8_utf8, utf8, utf8, List.flatMap_append]
    rfl
  simp only [readLine, cutLine_append (lineFeed_not_mem_utf8 h) rest, List.getLast?_concat,
    if_true, decodeLine, hdecode]

/-- Whatever is read as a line is the next of the stream's lines. -/
theorem byteLines_of_readLine {s s' : LineStream} {text : Str}
    (h : s.readLine = some (.line text, s')) :
    ∃ line, byteLines s.bytes = line :: byteLines s'.bytes ∧ fromUtf8 line = some text ∧
      s'.ending = s.ending := by
  have hdecode : ∀ line, decodeLine line = .line text → fromUtf8 line = some text := by
    intro line hline
    unfold decodeLine at hline
    split at hline
    · rename_i text' htext
      cases hline
      exact htext
    · cases hline
  obtain ⟨hsplit, hcase⟩ := cutLine_cases s.bytes
  unfold readLine at h
  dsimp only at h
  split at h
  · rename_i hlast
    obtain ⟨hline, rfl⟩ := Prod.mk.inj (Option.some.inj h)
    have hne : s.bytes ≠ [] := by
      intro hnil
      rw [hnil] at hlast
      cases hlast
    exact ⟨_, byteLines_eq hne, hdecode _ hline, rfl⟩
  · rename_i hlast
    split at h
    · obtain ⟨hline, rfl⟩ := Prod.mk.inj (Option.some.inj h)
      split at hline
      · cases hline
      · rename_i hne
        -- the unfinished end
        rcases hcase with ⟨body, _, hbody⟩ | ⟨_, hrest⟩
        · rw [hbody, List.getLast?_concat] at hlast
          exact absurd rfl hlast
        · have hbytes : s.bytes ≠ [] := by
            intro hnil
            rw [hnil] at hne
            exact hne rfl
          refine ⟨_, ?_, hdecode _ hline, rfl⟩
          rw [byteLines_eq hbytes, hrest]
    · cases h
    · cases h

/-- The end of a stream is reached with nothing left. -/
theorem bytes_of_eof {s s' : LineStream} (h : s.readLine = some (.eof, s')) :
    s.bytes = [] ∧ s.ending = .closed := by
  have hdecode : ∀ line, decodeLine line ≠ .eof := by
    intro line hline
    unfold decodeLine at hline
    split at hline <;> cases hline
  obtain ⟨hsplit, hcase⟩ := cutLine_cases s.bytes
  unfold readLine at h
  dsimp only at h
  split at h
  · exact absurd (Prod.mk.inj (Option.some.inj h)).1 (hdecode _)
  · rename_i hlast
    split at h
    · rename_i hend
      have hline := (Prod.mk.inj (Option.some.inj h)).1
      split at hline
      · rename_i hnil
        rcases hcase with ⟨body, _, hbody⟩ | ⟨_, hrest⟩
        · rw [hbody, List.getLast?_concat] at hlast
          exact absurd rfl hlast
        · rw [hnil, hrest] at hsplit
          exact ⟨hsplit, hend⟩
      · exact absurd hline (hdecode _)
    · cases h
    · cases h

end LineStream

end Lib
