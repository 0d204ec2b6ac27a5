import Drawpile.Utils.QtText

/-!
# File names through `QString` and `QFileInfo`

`MainWindow::save`, `MainWindow::saveas`, `MainWindow::confirmFlatten` and
`CanvasScene::save` choose a file's format and rename it with a few `QString` and
`QFileInfo` members.  They are modelled on `List Char`, with Qt's `int` positions as `Int`
and `-1` for "not found":

* `lastIndexOf`, `indexOf`: `QString::lastIndexOf(QChar)` and `QString::indexOf(str, from)`;
* `left`, `mid`: `QString::left(n)` and `QString::mid(position, n)`;
* `endsWithCI`: `QString::endsWith(s, Qt::CaseInsensitive)`;
* `fileName`, `suffix`: `QFileInfo::fileName()` and `QFileInfo::suffix()` on a path
  with `'/'` separators.

## Strategy

Every lemma describes a path cut at one of its characters: `lastIndexOf_append_cons`
finds the last `'.'` of `s ++ '.' :: t` at `s.length` when `t` has none, and
`lastIndexOf_append_of_not_mem` says a tail without the character changes nothing.  The
file name and suffix lemmas are these two, pushed through `mid` and `left`.
-/

namespace Drawpile.Utils

/-! ## Positions -/

/-- `QString::lastIndexOf(c)`: the position of the last `c`, or `-1`. -/
def lastIndexOf (c : Char) : List Char → Int
  | [] => -1
  | d :: s => if c ∈ s then lastIndexOf c s + 1 else if d = c then 0 else -1

/-- `QString::indexOf(needle, from)` for `0 ≤ from`: the first position at or after `from`
where `needle` starts, or `-1`. -/
def indexOf (needle : List Char) : List Char → Nat → Int
  | [], 0 => if needle.isEmpty then 0 else -1
  | [], _ + 1 => -1
  | c :: s, 0 =>
    if needle.isPrefixOf (c :: s) then 0
    else if 0 ≤ indexOf needle s 0 then indexOf needle s 0 + 1 else -1
  | _ :: s, k + 1 => if 0 ≤ indexOf needle s k then indexOf needle s k + 1 else -1

/-- `QString::left(n)`: the first `n` characters, or the whole string when `n` is negative
or not below its length. -/
def left (s : List Char) (n : Int) : List Char :=
  if n < 0 ∨ s.length < n then s else s.take n.toNat

/-- `QString::mid(position, n)` for `0 ≤ position`: nothing past the end, and the rest of
the string when `n` is negative or reaches past it. -/
def mid (s : List Char) (position : Nat) (n : Int) : List Char :=
  if n < 0 then s.drop position else (s.drop position).take n.toNat

/-- `QString::endsWith(suffix, Qt::CaseInsensitive)`: the last `suffix.length` characters
equal `suffix` after case folding, which `Char.toLower` does for ASCII letters. -/
def endsWithCI (s suffix : List Char) : Bool :=
  suffix.length ≤ s.length &&
    (s.drop (s.length - suffix.length)).map Char.toLower == suffix.map Char.toLower

theorem lastIndexOf_of_not_mem {c : Char} : ∀ {s : List Char}, c ∉ s → lastIndexOf c s = -1
  | [], _ => rfl
  | d :: s, h => by
    rw [List.mem_cons, not_or] at h
    rw [lastIndexOf, if_neg h.2, if_neg (Ne.symm h.1)]

theorem lastIndexOf_append_of_not_mem {c : Char} {t : List Char} (ht : c ∉ t) :
    ∀ s : List Char, lastIndexOf c (s ++ t) = lastIndexOf c s
  | [] => lastIndexOf_of_not_mem ht
  | d :: s => by
    rw [List.cons_append, lastIndexOf, lastIndexOf, lastIndexOf_append_of_not_mem ht s]
    simp only [List.mem_append, ht, or_false]

theorem lastIndexOf_append_singleton (c : Char) :
    ∀ s : List Char, lastIndexOf c (s ++ [c]) = s.length
  | [] => by simp [lastIndexOf]
  | d :: s => by
    rw [List.cons_append, lastIndexOf, if_pos (by simp), lastIndexOf_append_singleton c s]
    simp

/-- The last `c` of `s ++ c :: t`, when `t` has none, is at `s.length`. -/
theorem lastIndexOf_append_cons {c : Char} (s : List Char) {t : List Char} (ht : c ∉ t) :
    lastIndexOf c (s ++ c :: t) = s.length := by
  rw [← List.singleton_append, ← List.append_assoc, lastIndexOf_append_of_not_mem ht,
    lastIndexOf_append_singleton]

/-- Where `lastIndexOf` finds `c`, the string is cut at a `c` with none after it. -/
theorem lastIndexOf_of_mem {c : Char} :
    ∀ {s : List Char}, c ∈ s →
      ∃ pre post, s = pre ++ c :: post ∧ (pre.length : Int) = lastIndexOf c s
  | [], h => absurd h (List.not_mem_nil c)
  | d :: s, h => by
    rw [lastIndexOf]
    split_ifs with hs hd
    · obtain ⟨pre, post, rfl, hlen⟩ := lastIndexOf_of_mem (c := c) hs
      exact ⟨d :: pre, post, rfl, by simp [← hlen]⟩
    · exact ⟨[], s, by rw [hd]; rfl, rfl⟩
    · simp [hs, Ne.symm hd] at h

theorem lastIndexOf_bounds (c : Char) :
    ∀ s : List Char, -1 ≤ lastIndexOf c s ∧ lastIndexOf c s < s.length
  | [] => by simp [lastIndexOf]
  | d :: s => by
    have ih := lastIndexOf_bounds c s
    simp only [lastIndexOf, List.length_cons]
    split_ifs <;> omega

theorem indexOf_of_isPrefixOf {needle : List Char} {c : Char} {s : List Char}
    (h : needle.isPrefixOf (c :: s) = true) : indexOf needle (c :: s) 0 = 0 := by
  rw [indexOf, if_pos h]

/-- From `0`, `indexOf` passes over a head without the needle's first character. -/
theorem indexOf_append_of_not_mem {d : Char} {ds t : List Char}
    (ht : 0 ≤ indexOf (d :: ds) t 0) : ∀ {s : List Char}, d ∉ s →
      indexOf (d :: ds) (s ++ t) 0 = indexOf (d :: ds) t 0 + s.length
  | [], _ => by simp
  | c :: s, hs => by
    rw [List.mem_cons, not_or] at hs
    have ih := indexOf_append_of_not_mem ht hs.2
    have hpre : (d :: ds).isPrefixOf (c :: (s ++ t)) = false := by
      simp [List.isPrefixOf, hs.1]
    rw [List.cons_append, indexOf, if_neg (by simp [hpre]), ih, if_pos (by omega)]
    simp only [List.length_cons, Nat.cast_succ]
    omega

/-- From a position, `indexOf` starts the search there. -/
theorem indexOf_from_append {needle t : List Char} (ht : 0 ≤ indexOf needle t 0) :
    ∀ pre : List Char, indexOf needle (pre ++ t) pre.length = indexOf needle t 0 + pre.length
  | [] => by simp
  | c :: pre => by
    have ih := indexOf_from_append ht pre
    rw [List.cons_append, List.length_cons, indexOf, ih, if_pos (by omega)]
    simp only [Nat.cast_succ]
    omega

theorem left_append_length (s t : List Char) : left (s ++ t) s.length = s := by
  rw [left, if_neg (by simp), Int.toNat_ofNat, List.take_left' rfl]

theorem mid_neg (s : List Char) (position : Nat) {n : Int} (hn : n < 0) :
    mid s position n = s.drop position := if_pos hn

theorem endsWithCI_append (s t : List Char) : endsWithCI (s ++ t) t = true := by
  simp [endsWithCI, List.drop_left']

/-- Whether `s ++ t` ends with `u` is decided inside `t` when `u` is not longer. -/
theorem endsWithCI_append_of_length_le (s : List Char) {t u : List Char}
    (h : u.length ≤ t.length) : endsWithCI (s ++ t) u = endsWithCI t u := by
  have hdrop : (s ++ t).drop ((s ++ t).length - u.length) = t.drop (t.length - u.length) := by
    rw [List.drop_append_eq_append_drop, List.drop_eq_nil_of_le (by simp; omega)]
    simp only [List.length_append, List.nil_append]
    congr 1
    omega
  have hlen : u.length ≤ (s ++ t).length := by simp only [List.length_append]; omega
  rw [endsWithCI, endsWithCI, hdrop]
  simp only [hlen, h, decide_True, Bool.true_and]

/-! ## `QFileInfo` -/

/-- `QFileInfo::fileName()`: what follows the last `'/'`. -/
def fileName (path : List Char) : List Char :=
  mid path (lastIndexOf '/' path + 1).toNat (-1)

/-- `QFileInfo::suffix()`: what follows the last `'.'` of the file name, or nothing when
the name has no `'.'`. -/
def suffix (path : List Char) : List Char :=
  let name := fileName path
  if lastIndexOf '.' name < 0 then [] else mid name (lastIndexOf '.' name + 1).toNat (-1)

theorem fileName_eq_drop (path : List Char) :
    fileName path = path.drop (lastIndexOf '/' path + 1).toNat :=
  mid_neg _ _ (by decide)

/-- A tail without `'/'` stays in the file name. -/
theorem fileName_append_of_not_mem (s : List Char) {t : List Char} (ht : '/' ∉ t) :
    fileName (s ++ t) = fileName s ++ t := by
  have hb := lastIndexOf_bounds '/' s
  rw [fileName_eq_drop, fileName_eq_drop, lastIndexOf_append_of_not_mem ht,
    List.drop_append_of_le_length (by omega)]

theorem fileName_append_slash (s : List Char) {t : List Char} (ht : '/' ∉ t) :
    fileName (s ++ '/' :: t) = t := by
  rw [← List.singleton_append, ← List.append_assoc, fileName_append_of_not_mem _ ht,
    fileName_eq_drop, lastIndexOf_append_singleton,
    show ((s.length : Int) + 1).toNat = (s ++ ['/']).length by simp, List.drop_length,
    List.nil_append]

theorem suffix_of_not_mem {path : List Char} (h : '.' ∉ fileName path) : suffix path = [] := by
  rw [suffix]
  simp only [lastIndexOf_of_not_mem h]
  rfl

/-- After a last `'.'`, a tail without `'.'` or `'/'` is the suffix. -/
theorem suffix_append_dot (s : List Char) {t : List Char} (hdot : '.' ∉ t) (hslash : '/' ∉ t) :
    suffix (s ++ '.' :: t) = t := by
  have hname : fileName (s ++ '.' :: t) = fileName s ++ '.' :: t :=
    fileName_append_of_not_mem s (by simp [hslash])
  rw [suffix]
  simp only [hname, lastIndexOf_append_cons _ hdot]
  rw [if_neg (by omega), mid_neg _ _ (by decide),
    show ((fileName s).length + 1 : Int).toNat = (fileName s).length + 1 from rfl,
    List.drop_append_eq_append_drop]
  simp

/-- Appending text without `'.'` or `'/'` to a path whose file name has no `'.'` leaves it
without a suffix. -/
theorem suffix_append_of_not_mem {s t : List Char} (hs : '.' ∉ fileName s) (hdot : '.' ∉ t)
    (hslash : '/' ∉ t) : suffix (s ++ t) = [] :=
  suffix_of_not_mem (by rw [fileName_append_of_not_mem s hslash]; simp [hs, hdot])

end Drawpile.Utils
