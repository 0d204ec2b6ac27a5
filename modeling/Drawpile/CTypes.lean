import Mathlib.Algebra.Group.Int

/-!
# C++ integer types

The sources compute on `int`, `uint` (`quint32`) and `uchar`.  A `CInt` carries the
range of `int` as fields; its operations return `none` where the exact result leaves
that range, since signed overflow is undefined behaviour.  Unsigned types are Lean's
`UInt32` and `UInt8`, whose arithmetic wraps modulo `2 ^ 32` and `2 ^ 8` as C++'s does;
the lemmas below read them on `toNat`.
-/

namespace Drawpile.CTypes

/-- A value of C++ `int`. -/
structure CInt where
  val : Int
  min_le : -2 ^ 31 ≤ val
  le_max : val ≤ 2 ^ 31 - 1
  deriving DecidableEq, Repr

namespace CInt

/-- The exact result of a signed operation, or `none` when it overflows. -/
def ofInt? (v : Int) : Option CInt :=
  if h : -2 ^ 31 ≤ v ∧ v ≤ 2 ^ 31 - 1 then some ⟨v, h.1, h.2⟩ else none

def add? (a b : CInt) : Option CInt := ofInt? (a.val + b.val)

def sub? (a b : CInt) : Option CInt := ofInt? (a.val - b.val)

def mul? (a b : CInt) : Option CInt := ofInt? (a.val * b.val)

/-- C++ `/`: truncating division; dividing by zero is undefined. -/
def div? (a b : CInt) : Option CInt := if b.val = 0 then none else ofInt? (a.val.tdiv b.val)

def one : CInt := ⟨1, by decide, by decide⟩

/-- `INT_MIN`. -/
def minValue : CInt := ⟨-2 ^ 31, by decide, by decide⟩

theorem ofInt?_eq_some {v : Int} (h₁ : -2 ^ 31 ≤ v) (h₂ : v ≤ 2 ^ 31 - 1) :
    ofInt? v = some ⟨v, h₁, h₂⟩ := dif_pos ⟨h₁, h₂⟩

theorem ofInt?_eq_none {v : Int} (h : 2 ^ 31 - 1 < v) : ofInt? v = none :=
  dif_neg (by omega)

/-- `a - 1` overflows only at `INT_MIN`. -/
theorem sub?_one_eq {a : CInt} (h : a ≠ minValue) :
    ∃ b, a.sub? one = some b ∧ b.val = a.val - 1 := by
  have hv : a.val ≠ -2 ^ 31 := fun hv => h (by cases a; subst hv; rfl)
  have := a.min_le
  have := a.le_max
  exact ⟨⟨a.val - 1, by omega, by omega⟩, ofInt?_eq_some _ _, rfl⟩

theorem sub?_one_minValue : minValue.sub? one = none := by
  decide

end CInt

@[simp] theorem toNat_toUInt8 (n : Nat) : n.toUInt8.toNat = n % 256 := rfl

@[simp] theorem toNat_toUInt32 (n : Nat) : n.toUInt32.toNat = n % 2 ^ 32 := rfl

theorem toNat_uadd (a b : UInt32) : (a + b).toNat = (a.toNat + b.toNat) % 2 ^ 32 := rfl

theorem toNat_umul (a b : UInt32) : (a * b).toNat = a.toNat * b.toNat % 2 ^ 32 := rfl

end Drawpile.CTypes
