import Mathlib.Data.List.Basic
import Mathlib.Data.Nat.Digits
import Mathlib.Tactic.IntervalCases

/-!
# The Qt text helpers a palette file goes through

`Palette::save` writes a GIMP palette through a `QTextStream`, and `Palette::fromFile`
reads it back through another one, over a file opened in `QIODevice::Text` mode.  Neither
stream is given a codec, so both use `QTextCodec::codecForLocale()`, which is a
parameter, `TextCodec`: it writes each character as its bytes in the locale's encoding,
or as `'?'` where that encoding has none, and reads bytes back.  `latin1` is the codec of
a Latin-1 locale.  The helpers are modelled as Qt computes them:

* `stripCR`: a device opened in `Text` mode drops every byte `'\r'` it reads;
* `readLines` and `readLine`: `QTextStream::readLine()` called until `atEnd()`, and
  once more past the end, where it returns the empty string;
* `qIsSpace` and `trimmed`: `QChar::isSpace()` and `QString::trimmed()`;
* `splitSpaces`: `QString::split(QRegExp("\\s+"))`, which keeps empty parts;
* `toInt`: `QString::toInt()` in base 10;
* `decimal`: `QTextStream << int` in the C locale.

## Strategy

Each reader has a lemma that undoes its writer on the shapes `save` produces:
`readLines_unlines` for lines without `'\n'`, `trimmed_eq_self` for text without
whitespace at its ends, `splitSpacesAux_word_sep` for a word, a separator and the
next word, and `toInt_decimal` for every `int`, from `readDigits_toDigitsCore`.  A text
whose every character the codec `Carries` is decoded back from its bytes
(`decode_fromUnicode`), which are free of `'\r'` (`stripCR_fromUnicode`).
-/

namespace Drawpile.Utils

/-! ## Characters -/

/-- `QChar::isSpace()`: the blanks `9`–`13` and `32`, and above `127` the characters
`0x85`, `0xA0` and those of the Unicode separator categories, by the tables of Unicode 5,
where `0x180E` is still a separator. -/
def qIsSpace (c : Char) : Bool :=
  let u := c.toNat
  u == 32 || (9 ≤ u && u ≤ 13) ||
    (127 < u && (u == 0x85 || u == 0xA0 || u == 0x1680 || u == 0x180E ||
      (0x2000 ≤ u && u ≤ 0x200A) || u == 0x2028 || u == 0x2029 || u == 0x202F ||
      u == 0x205F || u == 0x3000))

/-! ## The text stream -/

/-- The codec of a `QTextStream` on which no codec is set, `QTextCodec::codecForLocale()`:
`encode` is what `fromUnicode` writes for one character, and `decode` is `toUnicode`. -/
structure TextCodec where
  encode : Char → List UInt8
  decode : List UInt8 → List Char
  /-- No bytes are no text. -/
  decode_nil : decode [] = []

namespace TextCodec

/-- `fromUnicode` of a text: the stream encodes it character by character. -/
def fromUnicode (codec : TextCodec) (text : List Char) : List UInt8 := text.flatMap codec.encode

/-- The codec writes `c` without a byte `'\r'` and reads it back as `c`, whatever follows. -/
def Carries (codec : TextCodec) (c : Char) : Prop :=
  13 ∉ codec.encode c ∧ ∀ rest, codec.decode (codec.encode c ++ rest) = c :: codec.decode rest

/-- The codec carries every ASCII character but `'\r'`, as every locale codec does. -/
def CarriesAscii (codec : TextCodec) : Prop :=
  ∀ c : Char, c.toNat < 128 → c ≠ '\r' → codec.Carries c

/-- `QLatin1Codec`: a character below `256` is its byte, any other is written `'?'`. -/
def latin1 : TextCodec where
  encode c := if c.toNat < 256 then [c.toNat.toUInt8] else [63]
  decode bytes := bytes.map fun b => Char.ofNat b.toNat
  decode_nil := rfl

theorem decode_fromUnicode_append (codec : TextCodec) {text : List Char}
    (h : ∀ c ∈ text, codec.Carries c) (rest : List UInt8) :
    codec.decode (codec.fromUnicode text ++ rest) = text ++ codec.decode rest := by
  induction text with
  | nil => rfl
  | cons c text ih =>
    rw [fromUnicode, List.flatMap_cons, List.append_assoc, (h c (List.mem_cons_self _ _)).2,
      ← fromUnicode, ih fun c' hc' => h c' (List.mem_cons_of_mem _ hc'), List.cons_append]

/-- A text whose every character the codec carries is read back from its bytes. -/
theorem decode_fromUnicode (codec : TextCodec) {text : List Char}
    (h : ∀ c ∈ text, codec.Carries c) : codec.decode (codec.fromUnicode text) = text := by
  rw [← List.append_nil (codec.fromUnicode text), decode_fromUnicode_append codec h,
    codec.decode_nil, List.append_nil]

theorem latin1_carries {c : Char} (h : c.toNat < 256) (hcr : c ≠ '\r') : latin1.Carries c := by
  have hbyte : (c.toNat.toUInt8).toNat = c.toNat := Nat.mod_eq_of_lt h
  refine ⟨?_, fun rest => ?_⟩
  · simp only [latin1, if_pos h, List.mem_singleton]
    intro h13
    have hc : c.toNat = 13 := by rw [← hbyte, ← h13]; rfl
    exact hcr (by rw [← Char.ofNat_toNat c, hc])
  · simp only [latin1, if_pos h, List.singleton_append, List.map_cons, hbyte, Char.ofNat_toNat]

theorem latin1_carriesAscii : latin1.CarriesAscii :=
  fun _ h hcr => latin1_carries (by omega) hcr

end TextCodec

/-- What a device opened with `QIODevice::Text` delivers: the bytes without `'\r'`. -/
def stripCR (data : List UInt8) : List UInt8 := data.filter (· != 13)

theorem stripCR_fromUnicode (codec : TextCodec) {text : List Char}
    (h : ∀ c ∈ text, codec.Carries c) :
    stripCR (codec.fromUnicode text) = codec.fromUnicode text :=
  List.filter_eq_self.mpr fun b hb => by
    obtain ⟨c, hc, hb⟩ := List.mem_flatMap.mp hb
    have : b ≠ 13 := fun h13 => (h c hc).1 (h13 ▸ hb)
    simpa using this

/-- `QTextStream::readLine()` until `atEnd()`: the text cut at each `'\n'`; what
follows the last `'\n'` is a last line when it is not empty. -/
def readLines : List Char → List (List Char)
  | [] => []
  | c :: cs =>
    if c = '\n' then [] :: readLines cs
    else
      match readLines cs with
      | [] => [[c]]
      | l :: ls => (c :: l) :: ls

/-- One `readLine()` on the lines left: the next, or the empty string at the end. -/
def readLine : List (List Char) → List Char × List (List Char)
  | [] => ([], [])
  | l :: ls => (l, ls)

/-- Lines, each followed by `'\n'`. -/
def unlines : List (List Char) → List Char
  | [] => []
  | l :: ls => l ++ '\n' :: unlines ls

theorem readLines_line {l : List Char} (hl : '\n' ∉ l) (rest : List Char) :
    readLines (l ++ '\n' :: rest) = l :: readLines rest := by
  induction l with
  | nil => simp [readLines]
  | cons c l ih =>
    have hc : c ≠ '\n' := fun h => hl (h ▸ List.mem_cons_self _ _)
    rw [List.cons_append, readLines, if_neg hc, ih (fun h => hl (List.mem_cons_of_mem _ h))]

theorem readLines_unlines : ∀ (ls : List (List Char)), (∀ l ∈ ls, '\n' ∉ l) →
    readLines (unlines ls) = ls
  | [], _ => rfl
  | l :: ls, h => by
    rw [unlines, readLines_line (h l (List.mem_cons_self _ _)),
      readLines_unlines ls fun l' hl' => h l' (List.mem_cons_of_mem _ hl')]

theorem mem_unlines {c : Char} : ∀ {ls : List (List Char)}, c ∈ unlines ls →
    c = '\n' ∨ ∃ l ∈ ls, c ∈ l
  | [], h => absurd h (List.not_mem_nil _)
  | l :: ls, h => by
    rcases List.mem_append.mp h with h | h
    · exact .inr ⟨l, List.mem_cons_self _ _, h⟩
    · rcases List.mem_cons.mp h with h | h
      · exact .inl h
      · rcases mem_unlines h with h | ⟨l', hl', hc⟩
        · exact .inl h
        · exact .inr ⟨l', List.mem_cons_of_mem _ hl', hc⟩

/-! ## `QString::trimmed` -/

/-- `QString::trimmed()`: the text without the whitespace at either end. -/
def trimmed (s : List Char) : List Char :=
  ((s.dropWhile qIsSpace).reverse.dropWhile qIsSpace).reverse

theorem dropWhile_of_head {p : Char → Bool} {s : List Char}
    (h : ∀ c ∈ s.head?, p c = false) : s.dropWhile p = s := by
  cases s with
  | nil => rfl
  | cons c cs => exact List.dropWhile_cons_of_neg (by simpa using h)

theorem trimmed_eq_self {s : List Char} (h₁ : ∀ c ∈ s.head?, qIsSpace c = false)
    (h₂ : ∀ c ∈ s.getLast?, qIsSpace c = false) : trimmed s = s := by
  rw [trimmed, dropWhile_of_head h₁, dropWhile_of_head (by simpa using h₂),
    List.reverse_reverse]

theorem trimmed_of_forall {s : List Char} (h : ∀ c ∈ s, qIsSpace c = false) : trimmed s = s :=
  trimmed_eq_self (fun c hc => h c (List.mem_of_mem_head? hc))
    (fun c hc => h c (List.mem_of_mem_getLast? hc))

theorem trimmed_space_cons {c : Char} (hc : qIsSpace c = true) (s : List Char) :
    trimmed (c :: s) = trimmed s := by
  simp [trimmed, hc]

/-! ## `QString::split(QRegExp("\\s+"))` -/

/-- The first part and the other parts of `QString::split(QRegExp("\\s+"))`: a run of
whitespace ends a part, and one at either end leaves an empty part there. -/
def splitSpacesAux : List Char → List Char × List (List Char)
  | [] => ([], [])
  | c :: cs =>
    let r := splitSpacesAux cs
    if qIsSpace c then
      if cs.head?.any qIsSpace then r else ([], r.1 :: r.2)
    else (c :: r.1, r.2)

def splitSpaces (s : List Char) : List (List Char) :=
  (splitSpacesAux s).1 :: (splitSpacesAux s).2

theorem splitSpacesAux_word_append {w : List Char} (hw : ∀ c ∈ w, qIsSpace c = false)
    (X : List Char) :
    splitSpacesAux (w ++ X) = (w ++ (splitSpacesAux X).1, (splitSpacesAux X).2) := by
  induction w with
  | nil => rfl
  | cons c w ih =>
    simp [splitSpacesAux, hw c (List.mem_cons_self _ _),
      ih fun d hd => hw d (List.mem_cons_of_mem _ hd)]

theorem splitSpacesAux_space_cons {c : Char} (hc : qIsSpace c = true) {X : List Char}
    (hX : ∀ d ∈ X.head?, qIsSpace d = false) :
    splitSpacesAux (c :: X) = ([], (splitSpacesAux X).1 :: (splitSpacesAux X).2) := by
  cases X with
  | nil => simp [splitSpacesAux, hc]
  | cons d X => simp_all [splitSpacesAux]

/-- A word, one whitespace character and a text that does not start with whitespace:
the word is the first part. -/
theorem splitSpacesAux_word_sep {w : List Char} (hw : ∀ c ∈ w, qIsSpace c = false)
    {s : Char} (hs : qIsSpace s = true) {X : List Char}
    (hX : ∀ d ∈ X.head?, qIsSpace d = false) :
    splitSpacesAux (w ++ s :: X) = (w, (splitSpacesAux X).1 :: (splitSpacesAux X).2) := by
  rw [splitSpacesAux_word_append hw, splitSpacesAux_space_cons hs hX, List.append_nil]

/-! ## `QString::toInt` and `QTextStream << int` -/

/-- Reading decimal digits after `acc`, the value of those before them. -/
def readDigits (acc : Nat) : List Char → Nat
  | [] => acc
  | d :: ds => readDigits (10 * acc + (d.toNat - '0'.toNat)) ds

theorem readDigits_cons (acc : Nat) (d : Char) (ds : List Char) :
    readDigits acc (d :: ds) = readDigits (10 * acc + (d.toNat - '0'.toNat)) ds := rfl

/-- An optional sign: whether it is `'-'`, and the text after it. -/
def readSign : List Char → Bool × List Char
  | '-' :: ds => (true, ds)
  | '+' :: ds => (false, ds)
  | ds => (false, ds)

/-- `QString::toInt()` in base 10: without the whitespace at its ends the text is an
optional sign and at least one decimal digit, and its value fits an `int`; else `0`. -/
def toInt (s : List Char) : Int :=
  let (neg, ds) := readSign (trimmed s)
  let v : Int := if neg then -(readDigits 0 ds : Int) else readDigits 0 ds
  if ds ≠ [] ∧ ds.all Char.isDigit ∧ -2 ^ 31 ≤ v ∧ v ≤ 2 ^ 31 - 1 then v else 0

/-- `QTextStream << int` in the C locale: the decimal digits, after `'-'` when negative. -/
def decimal (n : Int) : List Char :=
  if n < 0 then '-' :: Nat.toDigits 10 n.natAbs else Nat.toDigits 10 n.toNat

theorem digitChar_isDigit {d : Nat} (h : d < 10) : (Nat.digitChar d).isDigit = true := by
  interval_cases d <;> rfl

theorem digitChar_value {d : Nat} (h : d < 10) : (Nat.digitChar d).toNat - '0'.toNat = d := by
  interval_cases d <;> rfl

theorem readDigits_toDigitsCore : ∀ (fuel n : Nat) (ds : List Char), n < fuel →
    readDigits 0 (Nat.toDigitsCore 10 fuel n ds) = readDigits n ds
  | 0, _, _, h => absurd h (Nat.not_lt_zero _)
  | fuel + 1, n, ds, h => by
    have hd := digitChar_value (Nat.mod_lt n (show 10 > 0 by decide))
    rw [Nat.toDigitsCore]
    split
    · rw [readDigits_cons, hd]
      congr 1
      omega
    · rw [readDigits_toDigitsCore fuel (n / 10) _ (by omega), readDigits_cons, hd]
      congr 1
      omega

theorem toDigitsCore_ne_nil : ∀ (fuel n : Nat) {ds : List Char}, ds ≠ [] →
    Nat.toDigitsCore 10 fuel n ds ≠ []
  | 0, _, _, h => h
  | fuel + 1, n, ds, _ => by
    rw [Nat.toDigitsCore]
    split
    · exact List.cons_ne_nil _ _
    · exact toDigitsCore_ne_nil fuel _ (List.cons_ne_nil _ _)

theorem isDigit_of_mem_toDigitsCore : ∀ (fuel n : Nat) (ds : List Char),
    (∀ c ∈ ds, c.isDigit = true) → ∀ c ∈ Nat.toDigitsCore 10 fuel n ds, c.isDigit = true
  | 0, _, _, h => h
  | fuel + 1, n, ds, h => by
    have hd := digitChar_isDigit (Nat.mod_lt n (show 10 > 0 by decide))
    have hds : ∀ c ∈ Nat.digitChar (n % 10) :: ds, c.isDigit = true := by
      simpa [hd] using h
    rw [Nat.toDigitsCore]
    split
    · exact hds
    · exact isDigit_of_mem_toDigitsCore fuel _ _ hds

/-- The decimal digits of `n`: at least one, all of them digits, read back as `n`. -/
theorem toDigits_spec (n : Nat) :
    ∃ d ds, Nat.toDigits 10 n = d :: ds ∧ (∀ c ∈ d :: ds, c.isDigit = true) ∧
      readDigits 0 (d :: ds) = n := by
  have hall := isDigit_of_mem_toDigitsCore (n + 1) n [] (by simp)
  have hval := readDigits_toDigitsCore (n + 1) n [] (Nat.lt_succ_self n)
  have hne : Nat.toDigitsCore 10 (n + 1) n [] ≠ [] := by
    rw [Nat.toDigitsCore]
    split
    · exact List.cons_ne_nil _ _
    · exact toDigitsCore_ne_nil n _ (List.cons_ne_nil _ _)
  obtain ⟨d, ds, hds⟩ := List.exists_cons_of_ne_nil hne
  exact ⟨d, ds, hds, hds ▸ hall, hds ▸ hval⟩

theorem isDigit_not_space {c : Char} (h : c.isDigit = true) : qIsSpace c = false := by
  simp only [Char.isDigit, Bool.and_eq_true, decide_eq_true_eq, Char.le_def] at h
  have h' : 48 ≤ c.toNat ∧ c.toNat ≤ 57 := h
  simp [qIsSpace]
  omega

theorem readSign_of_isDigit {d : Char} (h : d.isDigit = true) (ds : List Char) :
    readSign (d :: ds) = (false, d :: ds) := by
  have h₁ : d ≠ '-' := by
    rintro rfl
    exact absurd h (by decide)
  have h₂ : d ≠ '+' := by
    rintro rfl
    exact absurd h (by decide)
  simp [readSign, h₁, h₂]

/-- Every character `decimal` writes is a digit or `'-'`. -/
theorem mem_decimal {c : Char} {n : Int} (h : c ∈ decimal n) : c.isDigit = true ∨ c = '-' := by
  unfold decimal at h
  split at h
  · rcases List.mem_cons.mp h with h | h
    · exact .inr h
    · obtain ⟨d, ds, hds, hall, -⟩ := toDigits_spec n.natAbs
      exact .inl (hall c (hds ▸ h))
  · obtain ⟨d, ds, hds, hall, -⟩ := toDigits_spec n.toNat
    exact .inl (hall c (hds ▸ h))

/-- `QString::toInt()` reads back every `int` that `QTextStream` writes. -/
theorem toInt_decimal {n : Int} (h₁ : -2 ^ 31 ≤ n) (h₂ : n ≤ 2 ^ 31 - 1) :
    toInt (decimal n) = n := by
  have htrim : trimmed (decimal n) = decimal n := trimmed_of_forall fun c hc => by
    rcases mem_decimal hc with h | rfl
    · exact isDigit_not_space h
    · rfl
  rcases lt_or_le n 0 with hn | hn
  · obtain ⟨d, ds, hds, hall, hval⟩ := toDigits_spec n.natAbs
    have hdec : decimal n = '-' :: d :: ds := by rw [decimal, if_pos hn, hds]
    rw [hdec] at htrim
    simp only [toInt, hdec, htrim, readSign, hval, ite_true]
    rw [if_pos ⟨List.cons_ne_nil _ _, List.all_eq_true.mpr hall, by omega, by omega⟩]
    omega
  · obtain ⟨d, ds, hds, hall, hval⟩ := toDigits_spec n.toNat
    have hdec : decimal n = d :: ds := by rw [decimal, if_neg (not_lt.mpr hn), hds]
    rw [hdec] at htrim
    simp only [toInt, hdec, htrim, readSign_of_isDigit (hall d (List.mem_cons_self _ _)), hval,
      Bool.false_eq_true, ite_false]
    rw [if_pos ⟨List.cons_ne_nil _ _, List.all_eq_true.mpr hall, by omega, by omega⟩]
    omega

end Drawpile.Utils
