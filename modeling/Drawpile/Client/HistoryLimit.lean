import Mathlib
import Drawpile.CTypes

/-!
# The history cap chosen when a document is loaded

`MainWindow::loadDocument` sums the serialized lengths of the loader's init commands
into a `uint`, doubles the sum, and passes `qMax(10 MiB, sum)` to
`setMaxHistorySize`.  Its comment asks for a cap at least as big as the initializer.
`Message::length()` is declared in `message.h`, which is not among the sources: it is
the parameter `length`.

Every addition and the doubling are taken modulo `2 ^ 32` (`toNat_minSizeLimit`).
When twice the total is below `2 ^ 32` the cap is at least twice the init sequence
(`loadDocument_cap_ge_twice_init`).  From a total of `2 ^ 31` bytes on, the doubled
sum wraps and the cap falls back to `10 MiB`, below the initializer
(`loadDocument_cap_below_init`).
-/

namespace Drawpile.Client

open Drawpile.CTypes

variable {Msg : Type} (length : Msg → Nat)

/-- The loop of `loadDocument` on `uint minsizelimit`:
`foreach(msg, init) minsizelimit += msg->length(); minsizelimit *= 2;`. -/
def minSizeLimit (init : List Msg) : UInt32 :=
  init.foldl (fun acc msg => acc + (length msg).toUInt32) 0 * 2

/-- `qMax(a, b)`: `(a < b) ? b : a`. -/
def qMax (a b : UInt32) : UInt32 := if a < b then b else a

/-- The value `loadDocument` passes to `setMaxHistorySize`, or `none` when the loader
returns no init commands and no document is opened. -/
def loadDocument (init : List Msg) : Option UInt32 :=
  if init.isEmpty then none else some (qMax (1024 * 1024 * 10) (minSizeLimit length init))

theorem toNat_foldl_add (init : List Msg) (a : UInt32) :
    (init.foldl (fun acc msg => acc + (length msg).toUInt32) a).toNat =
      (a.toNat + (init.map length).sum) % 2 ^ 32 := by
  induction init generalizing a with
  | nil => exact (Nat.mod_eq_of_lt a.toNat_lt_size).symm
  | cons msg rest ih =>
    rw [List.foldl_cons, ih, toNat_uadd, toNat_toUInt32, List.map_cons, List.sum_cons]
    omega

/-- The doubled sum, on 32 bits. -/
theorem toNat_minSizeLimit (init : List Msg) :
    (minSizeLimit length init).toNat = 2 * (init.map length).sum % 2 ^ 32 := by
  rw [minSizeLimit, toNat_umul, toNat_foldl_add]
  show (0 + _) % 2 ^ 32 * 2 % 2 ^ 32 = _
  omega

theorem toNat_qMax (a b : UInt32) : (qMax a b).toNat = max a.toNat b.toNat := by
  unfold qMax
  split
  · exact (max_eq_right (Nat.le_of_lt ‹a < b›)).symm
  · exact (max_eq_left (Nat.le_of_not_lt ‹¬a < b›)).symm

/-- Below `2 ^ 31` bytes of init commands nothing wraps, and the cap is at least twice
the init sequence and at least `10 MiB`. -/
theorem loadDocument_cap_ge_twice_init (init : List Msg) (hne : init ≠ [])
    (hsum : (init.map length).sum < 2 ^ 31) :
    ∃ cap, loadDocument length init = some cap ∧
      2 * (init.map length).sum ≤ cap.toNat ∧ 1024 * 1024 * 10 ≤ cap.toNat := by
  refine ⟨qMax (1024 * 1024 * 10) (minSizeLimit length init), by simp [loadDocument, hne], ?_⟩
  rw [toNat_qMax, toNat_minSizeLimit, Nat.mod_eq_of_lt (by omega)]
  exact ⟨le_max_right _ _, le_max_left _ _⟩

theorem loadDocument_cap_ge_twice_init_of_one :
    [1000] ≠ [] ∧ ([1000].map id).sum < 2 ^ 31 ∧
      ∃ cap, loadDocument id [1000] = some cap ∧
        2 * ([1000].map id).sum ≤ cap.toNat ∧ 1024 * 1024 * 10 ≤ cap.toNat :=
  ⟨by decide, by decide, loadDocument_cap_ge_twice_init id [1000] (by decide) (by decide)⟩

/-- `2 ^ 21` init commands of `1024` bytes: `2 GiB` in all, which fits a `uint`, yet the
doubled sum wraps to `0` and the cap is `10 MiB`. -/
theorem loadDocument_cap_below_init :
    ((List.replicate (2 ^ 21) 1024).map id).sum = 2 ^ 31 ∧
      loadDocument id (List.replicate (2 ^ 21) 1024) = some (1024 * 1024 * 10) := by
  have hsum : ((List.replicate (2 ^ 21) 1024).map id).sum = 2 ^ 31 := by
    rw [List.map_id, List.sum_replicate]
    rfl
  have hlimit : minSizeLimit id (List.replicate (2 ^ 21) 1024) = 0 :=
    UInt32.toNat.inj (by rw [toNat_minSizeLimit, hsum]; rfl)
  refine ⟨hsum, ?_⟩
  rw [loadDocument, List.isEmpty_replicate, hlimit]
  rfl

end Drawpile.Client
