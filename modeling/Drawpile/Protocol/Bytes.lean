import Mathlib.Data.Nat.Bitwise
import Mathlib.Data.List.GetD
import Drawpile.CTypes

/-!
# Payload buffers and big-endian words

The message classes of `meta.cpp` write their payload through a raw `uchar *data`
and decode it from a `const uchar *data` of length `len`.  The memory behind
`data` is a `Buffer`, a function from offsets to bytes: a store
`*(data + i) = v` is `Buffer.store` and `memcpy(data + off, src, n)` is
`Buffer.memcpy`.  `Buffer.read buf n` is the block `data[0 .. n)` that the
enclosing transport frame hands to a decoder.

Qt's `qToBigEndian` and `qFromBigEndian<quint32>` are written with the shifts and
the `|` of `qendian.h`.  The two round trips, `qFromBigEndian_qToBigEndian` and
`qToBigEndian_qFromBigEndian`, are proved on `toNat` by `omega`, once
`or_shiftLeft_eq_add` has turned each `|` of a byte shifted past the bits
already assembled into a sum.
-/

namespace Drawpile.Protocol

open Drawpile.CTypes

/-- The memory behind a payload pointer, by offset. -/
abbrev Buffer := Nat → UInt8

namespace Buffer

/-- The block `data[0 .. n)`. -/
def read (buf : Buffer) (n : Nat) : List UInt8 :=
  (List.range n).map buf

@[simp] theorem length_read (buf : Buffer) (n : Nat) : (buf.read n).length = n := by
  simp [read]

end Buffer

/-! ## Big-endian words -/

theorem or_shiftLeft_eq_add {y k : Nat} (x : Nat) (hy : y < 2 ^ k) :
    y ||| x <<< k = y + 2 ^ k * x := by
  apply Nat.eq_of_testBit_eq
  intro j
  rw [Nat.add_comm, Nat.testBit_mul_pow_two_add _ hy, Nat.testBit_or, Nat.testBit_shiftLeft]
  split
  · simp [show ¬ j ≥ k by omega]
  · have : y.testBit j = false :=
      Nat.testBit_eq_false_of_lt (lt_of_lt_of_le hy (Nat.pow_le_pow_right (by omega) (by omega)))
    simp [this, show j ≥ k by omega]

/-- `qToBigEndian<quint32>(src, dest)`: `dest[0] = src >> 24`, down to
`dest[3] = src`, each store keeping the low byte. -/
def qToBigEndian (src : UInt32) : List UInt8 :=
  [(src.toNat >>> 24).toUInt8, (src.toNat >>> 16).toUInt8, (src.toNat >>> 8).toUInt8,
    src.toNat.toUInt8]

/-- `qFromBigEndian<quint32>(src)`:
`0 | src[3] | src[2] << 8 | src[1] << 16 | quint32(src[0]) << 24`. -/
def qFromBigEndian (src : List UInt8) : UInt32 :=
  (0 ||| (src.getD 3 0).toNat ||| (src.getD 2 0).toNat <<< 8 ||| (src.getD 1 0).toNat <<< 16 |||
    (src.getD 0 0).toNat <<< 24).toUInt32

@[simp] theorem length_qToBigEndian (src : UInt32) : (qToBigEndian src).length = 4 := rfl

/-- The four bytes, most significant first, read as a number below `2 ^ 32`. -/
theorem toNat_qFromBigEndian (b₀ b₁ b₂ b₃ : UInt8) :
    (qFromBigEndian [b₀, b₁, b₂, b₃]).toNat =
      2 ^ 24 * b₀.toNat + 2 ^ 16 * b₁.toNat + 2 ^ 8 * b₂.toNat + b₃.toNat := by
  have h₀ : b₀.toNat < 256 := b₀.toNat_lt_size
  have h₁ : b₁.toNat < 256 := b₁.toNat_lt_size
  have h₂ : b₂.toNat < 256 := b₂.toNat_lt_size
  have h₃ : b₃.toNat < 256 := b₃.toNat_lt_size
  simp only [qFromBigEndian, List.getD_cons_succ, List.getD_cons_zero, Nat.zero_or]
  rw [or_shiftLeft_eq_add (k := 8) _ (by omega), or_shiftLeft_eq_add (k := 16) _ (by omega),
    or_shiftLeft_eq_add (k := 24) _ (by omega), toNat_toUInt32]
  omega

theorem qFromBigEndian_qToBigEndian (v : UInt32) : qFromBigEndian (qToBigEndian v) = v := by
  have hv : v.toNat < 2 ^ 32 := v.toNat_lt_size
  apply UInt32.toNat.inj
  rw [qToBigEndian, toNat_qFromBigEndian]
  simp only [toNat_toUInt8, Nat.shiftRight_eq_div_pow]
  omega

theorem qToBigEndian_qFromBigEndian (b₀ b₁ b₂ b₃ : UInt8) :
    qToBigEndian (qFromBigEndian [b₀, b₁, b₂, b₃]) = [b₀, b₁, b₂, b₃] := by
  have h₀ : b₀.toNat < 256 := b₀.toNat_lt_size
  have h₁ : b₁.toNat < 256 := b₁.toNat_lt_size
  have h₂ : b₂.toNat < 256 := b₂.toNat_lt_size
  have h₃ : b₃.toNat < 256 := b₃.toNat_lt_size
  simp only [qToBigEndian, toNat_qFromBigEndian, Nat.shiftRight_eq_div_pow, List.cons.injEq,
    and_true]
  refine ⟨UInt8.toNat.inj ?_, UInt8.toNat.inj ?_, UInt8.toNat.inj ?_, UInt8.toNat.inj ?_⟩ <;>
    simp only [toNat_toUInt8] <;> omega

end Drawpile.Protocol
