import Mathlib
import Drawpile.CTypes

/-!
# Snapping coordinates to the tile grid

`Tile::roundUp` and `Tile::roundDown` of `tile.h` compute on C++ `int`, a `CInt`
whose operations return `none` on signed overflow.  Division truncates toward zero
(`Int.tdiv`), as C++ `/` does.

The two helpers are documented as rounding to the nearest multiple of `SIZE`
below and above.  That holds on the coordinates the helpers are written for:

* `roundDown_greatest_multiple`: for `0 ≤ i`, `roundDown i` is the greatest multiple
  of `SIZE` that is `≤ i`;
* `roundUp_least_multiple`: for `-SIZE < i ≤ INT_MAX - SIZE`, `roundUp i` is
  evaluated without overflow and is the least multiple of `SIZE` that is `≥ i`.

Outside them the code leaves its documentation: `roundDown_spec` shows that
`roundDown` truncates toward zero, so a negative `i` is rounded up
(`roundDown (-1) = 0`), and `roundUp` first forms `i + SIZE`, which overflows at
`i = INT_MAX - SIZE + 1` although the answer `i` itself is representable
(`tile_rounding_breaks_at_bounds`).
-/

namespace Drawpile.Core

open Drawpile.CTypes

/-- `Tile::SIZE`, the tile width and height. -/
def Tile.SIZE : CInt := ⟨64, by decide, by decide⟩

/-- `(i + SIZE-1)/SIZE*SIZE`, where `i + SIZE-1` is `(i + SIZE) - 1`. -/
def Tile.roundUp (i : CInt) : Option CInt := do
  let a ← i.add? Tile.SIZE
  let b ← a.sub? CInt.one
  let q ← b.div? Tile.SIZE
  q.mul? Tile.SIZE

/-- `(i/SIZE) * SIZE`. -/
def Tile.roundDown (i : CInt) : Option CInt := do
  let q ← i.div? Tile.SIZE
  q.mul? Tile.SIZE

/-! ## Truncating division by `SIZE` -/

theorem tdiv_sixtyFour (a : Int) : a.tdiv 64 = if 0 ≤ a then a / 64 else -((-a) / 64) := by
  split
  · exact Int.tdiv_eq_ediv ‹_› (by decide)
  · rw [← Int.tdiv_eq_ediv (by omega) (by decide), Int.neg_tdiv, Int.neg_neg]

/-! ## `roundDown` -/

/-- `roundDown` never overflows: its value is `i` truncated toward zero to a multiple
of `SIZE`. -/
theorem roundDown_spec (i : CInt) :
    ∃ r, Tile.roundDown i = some r ∧ r.val = i.val.tdiv 64 * 64 := by
  have h₁ := i.min_le
  have h₂ := i.le_max
  have hq := tdiv_sixtyFour i.val
  have hq₁ : -2 ^ 31 ≤ i.val.tdiv 64 := by split at hq <;> omega
  have hq₂ : i.val.tdiv 64 ≤ 2 ^ 31 - 1 := by split at hq <;> omega
  refine ⟨⟨i.val.tdiv 64 * 64, by omega, by omega⟩, ?_, rfl⟩
  simp only [Tile.roundDown, CInt.div?, Tile.SIZE, if_neg (show (64 : Int) ≠ 0 by decide),
    CInt.ofInt?_eq_some hq₁ hq₂, Option.bind_eq_bind, Option.some_bind, CInt.mul?]
  exact CInt.ofInt?_eq_some _ _

/-- On a non-negative coordinate `roundDown` is the greatest multiple of `SIZE` that is
not above it. -/
theorem roundDown_greatest_multiple (i : CInt) (h : 0 ≤ i.val) :
    ∃ r, Tile.roundDown i = some r ∧ 64 ∣ r.val ∧ r.val ≤ i.val ∧
      i.val < r.val + 64 := by
  obtain ⟨r, hr, hval⟩ := roundDown_spec i
  rw [tdiv_sixtyFour, if_pos h] at hval
  exact ⟨r, hr, by omega, by omega, by omega⟩

theorem roundDown_greatest_multiple_of_100 :
    (0 : Int) ≤ 100 ∧
      ∃ r, Tile.roundDown ⟨100, by decide, by decide⟩ = some r ∧ 64 ∣ r.val ∧
      r.val ≤ 100 ∧ 100 < r.val + 64 :=
  ⟨by decide, roundDown_greatest_multiple ⟨100, by decide, by decide⟩ (by decide)⟩

/-! ## `roundUp` -/

/-- Between `-SIZE` and `INT_MAX - SIZE` the three steps of `roundUp` stay in range and
the result is `SIZE * ⌈i / SIZE⌉`, the least multiple of `SIZE` that is `≥ i`. -/
theorem roundUp_least_multiple (i : CInt) (h₁ : -64 < i.val) (h₂ : i.val ≤ 2 ^ 31 - 65) :
    ∃ r, Tile.roundUp i = some r ∧ 64 ∣ r.val ∧ i.val ≤ r.val ∧ r.val < i.val + 64 := by
  have hq : (i.val + 64 - 1).tdiv 64 = (i.val + 63) / 64 := by
    rw [tdiv_sixtyFour, if_pos (by omega)]
    omega
  have hq₁ : -2 ^ 31 ≤ (i.val + 63) / 64 := by omega
  have hq₂ : (i.val + 63) / 64 ≤ 2 ^ 31 - 1 := by omega
  refine ⟨⟨(i.val + 63) / 64 * 64, by omega, by omega⟩, ?_, by simp only; omega,
    by simp only; omega, by simp only; omega⟩
  simp only [Tile.roundUp, CInt.add?, CInt.sub?, CInt.div?, CInt.mul?, Tile.SIZE, CInt.one,
    CInt.ofInt?_eq_some (v := i.val + 64) (by omega) (by omega), Option.bind_eq_bind,
    Option.some_bind,
    CInt.ofInt?_eq_some (v := i.val + 64 - 1) (by omega) (by omega),
    if_neg (show (64 : Int) ≠ 0 by decide), hq, CInt.ofInt?_eq_some hq₁ hq₂]
  exact CInt.ofInt?_eq_some _ _

theorem roundUp_least_multiple_of_100 :
    (-64 : Int) < 100 ∧ (100 : Int) ≤ 2 ^ 31 - 65 ∧
      ∃ r, Tile.roundUp ⟨100, by decide, by decide⟩ = some r ∧ 64 ∣ r.val ∧
        100 ≤ r.val ∧
        r.val < 100 + 64 :=
  ⟨by decide, by decide,
    roundUp_least_multiple ⟨100, by decide, by decide⟩ (by decide) (by decide)⟩

/-! ## Where the documentation is not met -/

/-- `roundDown (-1)` is `0`, above `-1`; and `roundUp (INT_MAX - SIZE + 1)` overflows
in `i + SIZE`, although that coordinate is itself a multiple of `SIZE`. -/
theorem tile_rounding_breaks_at_bounds :
    Tile.roundDown ⟨-1, by decide, by decide⟩ = some ⟨0, by decide, by decide⟩ ∧
      Tile.roundUp ⟨2 ^ 31 - 64, by decide, by decide⟩ = none := by
  constructor
  · decide
  · simp only [Tile.roundUp, CInt.add?, Tile.SIZE, CInt.ofInt?_eq_none (show
      (2 : Int) ^ 31 - 1 < 2 ^ 31 - 64 + 64 by decide), Option.bind_eq_bind, Option.none_bind]

end Drawpile.Core
