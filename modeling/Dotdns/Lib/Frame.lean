import Mathlib.Data.List.Infix

/-!
# Lib — messages on a byte stream

A message on a stream is preceded by its length, two bytes, big-endian.
`frame` writes one; `wanted` is how many bytes a reader still asks for,
first the prefix and then the body; `frames` are the messages that a
stream holds whole.

The two facts that matter: a reader is satisfied at the end of the frame
and not before (`wanted_eq_zero`), and a stream of frames with an
unfinished one at its end holds exactly these messages (`frames_flatMap`).
-/

namespace Lib

/-- A 16-bit number, big-endian. -/
def u16Bytes (n : UInt16) : List UInt8 := [(n >>> 8).toUInt8, n.toUInt8]

/-- The length that two prefix bytes spell. -/
def u16OfBytes (bytes : List UInt8) : Nat := bytes.foldl (fun acc b => acc * 256 + b.toNat) 0

/-- `len as u16` and the message: the prefix of a longer message wraps. -/
def frame (payload : List UInt8) : List UInt8 :=
  u16Bytes (UInt16.ofNat payload.length) ++ payload

/-- How many bytes are missing after `got`. -/
def wanted (got : List UInt8) : Nat :=
  if got.length < 2 then 2 - got.length
  else 2 + u16OfBytes (got.take 2) - got.length

/-- The whole messages of a stream; `got` is what there is of the next one. -/
def framesGo (got : List UInt8) : List UInt8 → List (List UInt8)
  | [] => []
  | b :: bytes =>
      if wanted (got ++ [b]) = 0 then (got ++ [b]).drop 2 :: framesGo [] bytes
      else framesGo (got ++ [b]) bytes

/-- All complete frames of a stream. -/
def frames (bytes : List UInt8) : List (List UInt8) := framesGo [] bytes

theorem u16OfBytes_u16Bytes (n : UInt16) : u16OfBytes (u16Bytes n) = n.toNat := by
  have hn := n.toNat_lt
  simp only [u16OfBytes, u16Bytes, List.foldl_cons, List.foldl_nil, UInt16.toNat_toUInt8,
    UInt16.toNat_shiftRight, show (8 : UInt16).toNat % 16 = 8 from rfl, Nat.shiftRight_eq_div_pow]
  omega

/-- Two bytes spell a 16-bit number. -/
theorem u16OfBytes_lt {bytes : List UInt8} (h : bytes.length ≤ 2) : u16OfBytes bytes < 65536 := by
  match bytes, h with
  | [], _ => simp [u16OfBytes]
  | [a], _ =>
      have ha := a.toNat_lt
      simp only [u16OfBytes, List.foldl_cons, List.foldl_nil]
      omega
  | [a, b], _ =>
      have ha := a.toNat_lt
      have hb := b.toNat_lt
      simp only [u16OfBytes, List.foldl_cons, List.foldl_nil]
      omega

theorem u16Bytes_u16OfBytes {bytes : List UInt8} (h : bytes.length = 2) :
    u16Bytes (UInt16.ofNat (u16OfBytes bytes)) = bytes := by
  match bytes, h with
  | [a, b], _ =>
      have ha := a.toNat_lt
      have hb := b.toNat_lt
      have hspelled : u16OfBytes [a, b] = a.toNat * 256 + b.toNat := by
        simp only [u16OfBytes, List.foldl_cons, List.foldl_nil]
        omega
      rw [hspelled, u16Bytes]
      congr 1
      · apply UInt8.toNat_inj.mp
        simp only [UInt16.toNat_toUInt8, UInt16.toNat_shiftRight, UInt16.toNat_ofNat',
          show (8 : UInt16).toNat % 16 = 8 from rfl, Nat.shiftRight_eq_div_pow]
        omega
      · congr 1
        apply UInt8.toNat_inj.mp
        simp only [UInt16.toNat_toUInt8, UInt16.toNat_ofNat']
        omega

@[simp] theorem length_frame (payload : List UInt8) :
    (frame payload).length = 2 + payload.length := by
  simp [frame, u16Bytes]
  omega

theorem frame_ne_nil (payload : List UInt8) : frame payload ≠ [] := by
  intro h
  have := congrArg List.length h
  simp at this

@[simp] theorem drop_two_frame (payload : List UInt8) : (frame payload).drop 2 = payload := rfl

/-! What a reader finds at the head of a stream that starts with a frame. -/

theorem take_two_frame_append (payload rest : List UInt8) :
    (frame payload ++ rest).take 2 = u16Bytes (UInt16.ofNat payload.length) := rfl

theorem drop_two_frame_append (payload rest : List UInt8) :
    (frame payload ++ rest).drop 2 = payload ++ rest := rfl

theorem drop_frame_append (payload rest : List UInt8) :
    (frame payload ++ rest).drop (2 + payload.length) = rest := by
  rw [← List.drop_drop, drop_two_frame_append, List.drop_left]

section
variable {payload got rest : List UInt8}

/-- A reader is satisfied at the end of the frame and not before. -/
theorem wanted_eq_zero (hlen : payload.length < 65536) (h : got <+: frame payload) :
    wanted got = 0 ↔ got = frame payload := by
  obtain ⟨tail, htail⟩ := h
  have hcount := congrArg List.length htail
  rw [List.length_append, length_frame] at hcount
  have hend : got = frame payload ↔ got.length = 2 + payload.length := by
    constructor
    · intro h
      rw [h, length_frame]
    · intro h
      have hnil : tail = [] := List.eq_nil_of_length_eq_zero (by omega)
      rw [← htail, hnil, List.append_nil]
  rw [hend]
  unfold wanted
  split
  · omega
  · rename_i h2
    have htake : got.take 2 = u16Bytes (UInt16.ofNat payload.length) := by
      have := congrArg (List.take 2) htail
      rw [List.take_append_of_le_length (by omega)] at this
      exact this
    rw [htake, u16OfBytes_u16Bytes, UInt16.toNat_ofNat_of_lt' (by exact hlen)]
    omega

/-- The rest of a frame completes it. -/
theorem framesGo_frame (hlen : payload.length < 65536) {more : List UInt8}
    (h : got ++ more = frame payload) (hmore : more ≠ []) :
    framesGo got (more ++ rest) = payload :: framesGo [] rest := by
  induction more generalizing got with
  | nil => exact absurd rfl hmore
  | cons b more ih =>
      have hpre : (got ++ [b]) ++ more = frame payload := by
        rw [List.append_assoc]
        exact h
      rw [List.cons_append, framesGo]
      by_cases hm : more = []
      · subst hm
        rw [List.append_nil] at hpre
        rw [hpre, if_pos ((wanted_eq_zero hlen List.prefix_rfl).mpr rfl), drop_two_frame,
          List.nil_append]
      · rw [if_neg, ih hpre hm]
        rw [wanted_eq_zero hlen ⟨more, hpre⟩]
        intro heq
        rw [heq] at hpre
        exact hm (by simpa using hpre)

/-- A frame that is not whole is no message. -/
theorem framesGo_of_prefix (hlen : payload.length < 65536) {part : List UInt8}
    (h : got ++ part <+: frame payload) (hne : got ++ part ≠ frame payload) :
    framesGo got part = [] := by
  induction part generalizing got with
  | nil => rfl
  | cons b part ih =>
      have heq : got ++ b :: part = (got ++ [b]) ++ part := by simp
      rw [heq] at h hne
      rw [framesGo, if_neg, ih h hne]
      rw [wanted_eq_zero hlen ((List.prefix_append _ part).trans h)]
      intro hfull
      rw [hfull] at h hne
      have hnil : part = [] := by
        have := h.length_le
        rw [List.length_append] at this
        exact List.eq_nil_of_length_eq_zero (by omega)
      rw [hnil, List.append_nil] at hne
      exact hne rfl

/-- Whole frames with an unfinished one at the end. -/
theorem frames_flatMap {payloads : List (List UInt8)} {part : List UInt8}
    (hlens : ∀ p ∈ payloads, p.length < 65536) (hlen : payload.length < 65536)
    (h : part <+: frame payload) (hne : part ≠ frame payload) :
    frames (payloads.flatMap frame ++ part) = payloads := by
  induction payloads with
  | nil => exact framesGo_of_prefix hlen h hne
  | cons p payloads ih =>
      obtain ⟨hp, hlens⟩ := List.forall_mem_cons.mp hlens
      rw [List.flatMap_cons, List.append_assoc, frames,
        framesGo_frame hp (List.nil_append _) (frame_ne_nil p)]
      exact congrArg _ (ih hlens)

/-- What is missing early on is missing at the end. -/
theorem wanted_of_append (h : wanted (got ++ rest) ≠ 0) : wanted got ≠ 0 := by
  unfold wanted at h ⊢
  rw [List.length_append] at h
  by_cases h2 : got.length < 2
  · rw [if_pos h2]
    omega
  · rw [if_neg (by omega), List.take_append_of_le_length (by omega)] at h
    rw [if_neg h2]
    omega

theorem framesGo_of_wanted {part : List UInt8} (h : wanted (got ++ part) ≠ 0) :
    framesGo got part = [] := by
  induction part generalizing got with
  | nil => rfl
  | cons b part ih =>
      have h : wanted ((got ++ [b]) ++ part) ≠ 0 := by
        rw [List.append_assoc]
        exact h
      rw [framesGo, if_neg (wanted_of_append h)]
      exact ih h

/-- Whole frames, and bytes behind them that are not yet one. -/
theorem frames_of_wanted {payloads : List (List UInt8)} {part : List UInt8}
    (hlens : ∀ p ∈ payloads, p.length < 65536) (h : wanted part ≠ 0) :
    frames (payloads.flatMap frame ++ part) = payloads := by
  induction payloads with
  | nil => exact framesGo_of_wanted h
  | cons p payloads ih =>
      obtain ⟨hp, hlens⟩ := List.forall_mem_cons.mp hlens
      rw [List.flatMap_cons, List.append_assoc, frames,
        framesGo_frame hp (List.nil_append _) (frame_ne_nil p)]
      exact congrArg _ (ih hlens)

end

end Lib
