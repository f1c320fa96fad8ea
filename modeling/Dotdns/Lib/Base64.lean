import Mathlib.Logic.Function.Basic
import Mathlib.Data.List.FinRange

/-!
# Lib — base64 without padding

Three bytes are four symbols of an alphabet of sixty-four; one or two bytes
at the end are two or three symbols, filled up with zero bits. The decoder
is strict: no padding, and the bits that fill up must be zero.

The headline is that encoder and decoder are inverse both ways
(`decode_encode`, `encode_of_decode`): whatever is decoded has one spelling.
-/

namespace Lib

/-- Sixty-four symbols. -/
structure Alphabet (σ : Type*) where
  symbol : Fin 64 → σ
  injective : Function.Injective symbol

namespace Alphabet

section
variable {σ : Type*} (A : Alphabet σ)

/-- The symbol of the last six bits. -/
def low (n : Nat) : σ := A.symbol (Fin.ofNat 64 n)

theorem low_mod (n : Nat) : A.low (n % 64) = A.low n :=
  congrArg A.symbol (Fin.ext (Nat.mod_mod n 64))

variable [DecidableEq σ]

/-- What a symbol stands for. -/
def value (c : σ) : Option Nat :=
  ((List.finRange 64).find? fun v => A.symbol v = c).map Fin.val

/-- Three bytes a time into four symbols, without padding. -/
def encode : List UInt8 → List σ
  | [] => []
  | [a] =>
      let n := a.toNat * 16
      [A.low (n / 64), A.low n]
  | [a, b] =>
      let n := (a.toNat * 256 + b.toNat) * 4
      [A.low (n / 4096), A.low (n / 64), A.low n]
  | a :: b :: c :: bytes =>
      let n := (a.toNat * 256 + b.toNat) * 256 + c.toNat
      A.low (n / 262144) :: A.low (n / 4096) :: A.low (n / 64) :: A.low n :: encode bytes

/-- Back again; a last group with bits left over is refused. -/
def decode : List σ → Option (List UInt8)
  | [] => some []
  | [_] => none
  | [w, x] => do
      let n := (← A.value w) * 64 + (← A.value x)
      if n % 16 = 0 then some [UInt8.ofNat (n / 16)] else none
  | [w, x, y] => do
      let n := ((← A.value w) * 64 + (← A.value x)) * 64 + (← A.value y)
      if n % 4 = 0 then some [UInt8.ofNat (n / 1024), UInt8.ofNat (n / 4)] else none
  | w :: x :: y :: z :: symbols => do
      let n := (((← A.value w) * 64 + (← A.value x)) * 64 + (← A.value y)) * 64 + (← A.value z)
      let bytes ← decode symbols
      some (UInt8.ofNat (n / 65536) :: UInt8.ofNat (n / 256) :: UInt8.ofNat n :: bytes)

/-! ## One symbol -/

theorem value_eq_some {c : σ} {v : Nat} : A.value c = some v ↔ v < 64 ∧ A.low v = c := by
  constructor
  · intro h
    obtain ⟨w, hw, rfl⟩ := Option.map_eq_some_iff.mp h
    have hsymbol : A.symbol w = c := by simpa using List.find?_some hw
    refine ⟨w.isLt, ?_⟩
    rw [low, ← hsymbol]
    exact congrArg A.symbol (Fin.ext (Nat.mod_eq_of_lt w.isLt))
  · rintro ⟨hv, rfl⟩
    -- the search stops at the symbol itself, as no other looks like it
    cases hfind : (List.finRange 64).find? fun w => A.symbol w = A.low v with
    | none =>
        have hnone := List.find?_eq_none.mp hfind (Fin.ofNat 64 v) (List.mem_finRange _)
        simp [low] at hnone
    | some w =>
        have hsymbol : A.symbol w = A.low v := by simpa using List.find?_some hfind
        have hw : w = Fin.ofNat 64 v := A.injective hsymbol
        have hval : w.val = v := by
          rw [hw]
          exact Nat.mod_eq_of_lt hv
        rw [value, hfind, Option.map_some, hval]

@[simp] theorem value_low (n : Nat) : A.value (A.low n) = some (n % 64) :=
  A.value_eq_some.mpr ⟨Nat.mod_lt n (by decide), A.low_mod n⟩

/-- A symbol is what its value is written as. -/
theorem low_of_value {c : σ} {v n : Nat} (h : A.value c = some v) (hn : n % 64 = v) :
    A.low n = c := by
  subst hn
  rw [← A.low_mod]
  exact (A.value_eq_some.mp h).2

theorem lt_of_value {c : σ} {v : Nat} (h : A.value c = some v) : v < 64 :=
  (A.value_eq_some.mp h).1

theorem ofNat_eq_of_mod {n : Nat} {a : UInt8} (h : n % 256 = a.toNat) : UInt8.ofNat n = a :=
  UInt8.toNat_inj.mp ((UInt8.toNat_ofNat' ..).trans h)

/-! ## Both ways -/

theorem decode_encode (bytes : List UInt8) : A.decode (A.encode bytes) = some bytes := by
  -- induction on the encoder's own cases
  induction bytes using encode.induct with
  | case1 => rfl
  | case2 a =>
      have ha := a.toNat_lt
      simp only [encode, decode, value_low, Option.bind_eq_bind, Option.bind_some]
      rw [if_pos (by omega), ofNat_eq_of_mod (a := a) (by omega)]
  | case3 a b =>
      have ha := a.toNat_lt
      have hb := b.toNat_lt
      simp only [encode, decode, value_low, Option.bind_eq_bind, Option.bind_some]
      rw [if_pos (by omega), ofNat_eq_of_mod (a := a) (by omega),
        ofNat_eq_of_mod (a := b) (by omega)]
  | case4 a b c bytes ih =>
      have ha := a.toNat_lt
      have hb := b.toNat_lt
      have hc := c.toNat_lt
      simp only [encode, decode, value_low, ih, Option.bind_eq_bind, Option.bind_some]
      rw [ofNat_eq_of_mod (a := a) (by omega), ofNat_eq_of_mod (a := b) (by omega),
        ofNat_eq_of_mod (a := c) (by omega)]

theorem encode_of_decode {symbols : List σ} {bytes : List UInt8}
    (h : A.decode symbols = some bytes) : A.encode bytes = symbols := by
  induction symbols using decode.induct generalizing bytes with
  | case1 =>
      cases h
      rfl
  | case2 w => cases h
  | case3 w x =>
      simp only [decode, Option.bind_eq_bind, Option.bind_eq_some_iff] at h
      obtain ⟨p, hp, q, hq, h⟩ := h
      have hp₁ := A.lt_of_value hp
      have hq₁ := A.lt_of_value hq
      split at h
      · cases h
        simp only [encode, UInt8.toNat_ofNat']
        rw [A.low_of_value hp (by omega), A.low_of_value hq (by omega)]
      · cases h
  | case4 w x y =>
      simp only [decode, Option.bind_eq_bind, Option.bind_eq_some_iff] at h
      obtain ⟨p, hp, q, hq, r, hr, h⟩ := h
      have hp₁ := A.lt_of_value hp
      have hq₁ := A.lt_of_value hq
      have hr₁ := A.lt_of_value hr
      split at h
      · cases h
        simp only [encode, UInt8.toNat_ofNat']
        rw [A.low_of_value hp (by omega), A.low_of_value hq (by omega),
          A.low_of_value hr (by omega)]
      · cases h
  | case5 w x y z symbols ih =>
      simp only [decode, Option.bind_eq_bind, Option.bind_eq_some_iff] at h
      obtain ⟨p, hp, q, hq, r, hr, t, ht, bytes, hbytes, h⟩ := h
      have hp₁ := A.lt_of_value hp
      have hq₁ := A.lt_of_value hq
      have hr₁ := A.lt_of_value hr
      have ht₁ := A.lt_of_value ht
      cases h
      simp only [encode, UInt8.toNat_ofNat']
      rw [A.low_of_value hp (by omega), A.low_of_value hq (by omega),
        A.low_of_value hr (by omega), A.low_of_value ht (by omega), ih hbytes]

end

end Alphabet

end Lib
