import Drawpile.Core.Tile

/-!
# The tile grid of a layer

A `dpcore::Layer` keeps its pixels in `_xtiles * _ytiles` tiles, stored row by row in the
array `_tiles`.  `layer.h` reads a tile in two ways: `tile(x, y)` asserts
`0 ≤ x < _xtiles` and `0 ≤ y < _ytiles` and returns `_tiles[y*_xtiles+x]`, and
`tile(index)` asserts `0 ≤ index < _xtiles*_ytiles` and returns `_tiles[index]`.
`Tile::pixel(x, y)` in `tile.h` reads its `SIZE * SIZE` pixels the same way.  Both are
`gridLookup`: the assertions, then the row-major index in C++ `int`.  A failed `Q_ASSERT`
(or, in a release build, the read out of range it would have caught) is `none`.

The constructors and the drawing members of `layer.cpp` and `tile.cpp` are not among the
sources.  The constructor's allocation of `_xtiles * _ytiles` tiles is a field of `Layer`,
with the assumption that this count is an `int`.

`tile_row_major` shows the two accessors agree: they address one array in row-major order,
each in-range coordinate pair and each in-range index naming the same slot, with no
overflow and no read outside the array.

## Strategy

`gridIndex_spec` bounds the index `y * w + x` between `0` and `w * h` (the one non-linear
step: `(y + 1) * w ≤ h * w`), and the index accessor recovers `x` and `y` by `%` and `/`.
-/

namespace Drawpile.Core

open Drawpile.CTypes

/-! ## Row-major lookup -/

/-- `y * w + x` in C++ `int`. -/
def gridIndex (w x y : CInt) : Option CInt := do
  let t ← y.mul? w
  t.add? x

/-- The element at `(x, y)` of a row-major grid `w` wide and `h` high, behind the
assertions `0 ≤ x < w` and `0 ≤ y < h`. -/
def gridLookup {α : Type} (cells : Array α) (w h x y : CInt) : Option α :=
  if 0 ≤ x.val ∧ x.val < w.val ∧ 0 ≤ y.val ∧ y.val < h.val then
    (gridIndex w x y).bind fun i => cells[i.val.toNat]?
  else none

/-- In range, `y * w + x` is computed without overflow and lies in `[0, w * h)`. -/
theorem gridIndex_spec {w h x y : CInt} (hx : 0 ≤ x.val ∧ x.val < w.val)
    (hy : 0 ≤ y.val ∧ y.val < h.val) (harea : w.val * h.val ≤ 2 ^ 31 - 1) :
    ∃ i, gridIndex w x y = some i ∧ i.val = y.val * w.val + x.val ∧ 0 ≤ i.val ∧
      i.val < w.val * h.val := by
  have hrow : 0 ≤ y.val * w.val := Int.mul_nonneg hy.1 (by omega)
  have hlt : y.val * w.val + x.val < w.val * h.val := by
    have hrows := Int.mul_le_mul_of_nonneg_right (show y.val + 1 ≤ h.val by omega)
      (show 0 ≤ w.val by omega)
    rw [Int.add_mul, Int.one_mul, Int.mul_comm h.val] at hrows
    omega
  refine ⟨⟨y.val * w.val + x.val, by omega, by omega⟩, ?_, rfl,
    show 0 ≤ y.val * w.val + x.val by omega, hlt⟩
  simp only [gridIndex, CInt.mul?, CInt.add?, Option.bind_eq_bind,
    CInt.ofInt?_eq_some (show -2 ^ 31 ≤ y.val * w.val by omega) (by omega), Option.some_bind]
  exact CInt.ofInt?_eq_some _ _

/-- A lookup in range in a grid of `w * h` cells reads cell `y * w + x`, which exists. -/
theorem gridLookup_spec {α : Type} {cells : Array α} {w h x y : CInt}
    (hsize : cells.size = (w.val * h.val).toNat) (harea : w.val * h.val ≤ 2 ^ 31 - 1)
    (hx : 0 ≤ x.val ∧ x.val < w.val) (hy : 0 ≤ y.val ∧ y.val < h.val) :
    ∃ hlt : (y.val * w.val + x.val).toNat < cells.size,
      gridLookup cells w h x y = some cells[(y.val * w.val + x.val).toNat] := by
  obtain ⟨i, hi, hval, hnonneg, hbound⟩ := gridIndex_spec hx hy harea
  have hlt : (y.val * w.val + x.val).toNat < cells.size := by rw [hsize]; omega
  refine ⟨hlt, ?_⟩
  rw [gridLookup, if_pos ⟨hx.1, hx.2, hy.1, hy.2⟩, hi, Option.some_bind, hval,
    Array.getElem?_eq_getElem hlt]

/-! ## `dpcore::Layer` and `dpcore::Tile` -/

/-- The members of `dpcore::Layer` that `layer.h` reads, with the constructor's promise that
`_tiles` holds `_xtiles * _ytiles` tiles, a count that is an `int`.  `Tile` is the type of
the tile pointers. -/
structure Layer (Tile : Type) where
  id : CInt
  title : List Char
  width : CInt
  height : CInt
  xtiles : CInt
  ytiles : CInt
  tiles : Array Tile
  opacity : UInt8
  blend : CInt
  hidden : Bool
  xtiles_nonneg : 0 ≤ xtiles.val
  ytiles_nonneg : 0 ≤ ytiles.val
  area_le : xtiles.val * ytiles.val ≤ 2 ^ 31 - 1
  size_eq : tiles.size = (xtiles.val * ytiles.val).toNat

namespace Layer

variable {Tile : Type}

/-- `tile(x, y)`. -/
def tile (l : Layer Tile) (x y : CInt) : Option Tile := gridLookup l.tiles l.xtiles l.ytiles x y

/-- `tile(index)`. -/
def tileByIndex (l : Layer Tile) (index : CInt) : Option Tile :=
  if 0 ≤ index.val ∧ index.val < l.xtiles.val * l.ytiles.val then l.tiles[index.val.toNat]?
  else none

/-- `visible()`: some opacity, and not hidden. -/
def visible (l : Layer Tile) : Bool := 0 < l.opacity.toNat && !l.hidden

/-- The two accessors of `Layer` address one array in row-major order: an in-range `(x, y)`
is the tile of the index `y * _xtiles + x`, which is an `int` in range, and an in-range index
is the tile of `(index % _xtiles, index / _xtiles)`; no lookup in range leaves the array. -/
theorem tile_row_major (l : Layer Tile) :
    (∀ x y : CInt, 0 ≤ x.val → x.val < l.xtiles.val → 0 ≤ y.val → y.val < l.ytiles.val →
      ∃ i : CInt, i.val = y.val * l.xtiles.val + x.val ∧ (l.tile x y).isSome ∧
        l.tile x y = l.tileByIndex i) ∧
    (∀ i : CInt, 0 ≤ i.val → i.val < l.xtiles.val * l.ytiles.val →
      ∃ x y : CInt, x.val = i.val % l.xtiles.val ∧ y.val = i.val / l.xtiles.val ∧
        l.tileByIndex i = l.tile x y) := by
  constructor
  · intro x y hx₁ hx₂ hy₁ hy₂
    obtain ⟨i, -, hval, hnonneg, hbound⟩ := gridIndex_spec ⟨hx₁, hx₂⟩ ⟨hy₁, hy₂⟩ l.area_le
    obtain ⟨hlt, hget⟩ := gridLookup_spec l.size_eq l.area_le ⟨hx₁, hx₂⟩ ⟨hy₁, hy₂⟩
    refine ⟨i, hval, by rw [tile, hget]; rfl, ?_⟩
    rw [tile, hget, tileByIndex, if_pos ⟨hnonneg, hbound⟩, hval, Array.getElem?_eq_getElem hlt]
  · intro i hi₁ hi₂
    have hw : 0 < l.xtiles.val := pos_of_mul_pos_left (by omega) l.ytiles_nonneg
    have hmod := Int.emod_nonneg i.val hw.ne'
    have hmodlt := Int.emod_lt_of_pos i.val hw
    have hdiv := Int.ediv_nonneg hi₁ hw.le
    have hdivle := Int.ediv_le_self l.xtiles.val hi₁
    have hdivlt : i.val / l.xtiles.val < l.ytiles.val :=
      Int.ediv_lt_of_lt_mul hw (by rw [Int.mul_comm]; exact hi₂)
    have hxmax := l.xtiles.le_max
    have hymax := i.le_max
    let x : CInt := ⟨i.val % l.xtiles.val, by omega, by omega⟩
    let y : CInt := ⟨i.val / l.xtiles.val, by omega, by omega⟩
    refine ⟨x, y, rfl, rfl, ?_⟩
    obtain ⟨hlt, hget⟩ := gridLookup_spec (x := x) (y := y) l.size_eq l.area_le
      ⟨hmod, hmodlt⟩ ⟨hdiv, hdivlt⟩
    have hidx : y.val * l.xtiles.val + x.val = i.val := by
      rw [Int.mul_comm]
      exact Int.ediv_add_emod i.val l.xtiles.val
    rw [tile, hget, tileByIndex, if_pos ⟨hi₁, hi₂⟩]
    simp only [hidx] at hlt ⊢
    exact Array.getElem?_eq_getElem hlt

/-- A layer two tiles wide and one high: its second tile is at `(1, 0)` and at index `1`. -/
theorem tile_row_major_of_strip :
    let l : Layer Nat := ⟨CInt.one, [], ⟨128, by decide, by decide⟩,
      ⟨64, by decide, by decide⟩, ⟨2, by decide, by decide⟩, CInt.one, #[7, 8], 255,
      ⟨0, by decide, by decide⟩, false, by decide, by decide, by decide, by decide⟩
    let one : CInt := CInt.one
    let zero : CInt := ⟨0, by decide, by decide⟩
    (∃ i : CInt, i.val = zero.val * l.xtiles.val + one.val ∧ (l.tile one zero).isSome ∧
        l.tile one zero = l.tileByIndex i) ∧
      ∃ x y : CInt, x.val = one.val % l.xtiles.val ∧ y.val = one.val / l.xtiles.val ∧
        l.tileByIndex one = l.tile x y := by
  intro l one zero
  exact ⟨(tile_row_major l).1 one zero (by decide) (by decide) (by decide) (by decide),
    (tile_row_major l).2 one (by decide) (by decide)⟩

end Layer

/-- The members of `dpcore::Tile` that `tile.h` reads: its grid position and its
`SIZE * SIZE` pixels. -/
structure TileData where
  x : CInt
  y : CInt
  data : Array UInt32
  size_eq : data.size = 64 * 64

/-- `Tile::pixel(x, y)`: `*(data_ + y * SIZE + x)` behind the assertions
`0 ≤ x < SIZE` and `0 ≤ y < SIZE`. -/
def TileData.pixel (t : TileData) (x y : CInt) : Option UInt32 :=
  gridLookup t.data Tile.SIZE Tile.SIZE x y

end Drawpile.Core
