import Drawpile.Utils.QtText

/-!
# GIMP palette files

`Palette::save` writes a palette as a GIMP palette: the header line, a `Name:` line, a
comment line, and a line `red green blue\tUntitled` for each colour.
`Palette::fromFile` reads one back: it checks the header, takes the name after
`Name:`, skips empty lines and comments, and inserts a colour at `index++` for every
line of exactly four fields.  Both streams go through the locale's codec, a parameter.

`fromFile_save_eq` is the round trip for every palette whose name is one line the codec
carries: the name comes back trimmed, and every colour as the opaque colour of its red,
green and blue (`QColor.stored`), since the file keeps neither alpha nor validity.
`fromFile_save` is its case of a name without whitespace at its ends and opaque RGB
colours, where the palette comes back as it was; a name the codec cannot write, such as a
Cyrillic one under a Latin-1 locale, comes back as question marks.  Saving a palette that
was read back writes the very same bytes again (`save_fromFile_save`).

## Strategy

`save_text` writes the bytes `save` produces as the encoding of `unlines` of its lines, so
that `decode_fromUnicode` and `readLines_unlines` give the lines back.
`readColorLine_colorLine` reads the line of any colour back as its stored colour,
inserted at `index`; the loop over the colour lines is then an induction
(`foldl_readColorLine`), with `index` the number of colours read so far, so that every
insertion is at the end.
-/

namespace Drawpile.Utils

/-- A `QColor` as a palette holds it: invalid, or an RGB colour with 8-bit channels and
its alpha. -/
inductive QColor
  | invalid
  | rgb (red green blue alpha : UInt8)
  deriving DecidableEq, Repr

namespace QColor

/-- `QColor(r, g, b)`: opaque, and invalid unless every channel is within `0..255`. -/
def ofRgb (r g b : Int) : QColor :=
  if 0 ≤ r ∧ r ≤ 255 ∧ 0 ≤ g ∧ g ≤ 255 ∧ 0 ≤ b ∧ b ≤ 255 then
    .rgb r.toNat.toUInt8 g.toNat.toUInt8 b.toNat.toUInt8 255
  else .invalid

/-- `red()`; `0` on an invalid colour. -/
def red : QColor → Int
  | .invalid => 0
  | .rgb r _ _ _ => r.toNat

/-- `green()`; `0` on an invalid colour. -/
def green : QColor → Int
  | .invalid => 0
  | .rgb _ g _ _ => g.toNat

/-- `blue()`; `0` on an invalid colour. -/
def blue : QColor → Int
  | .invalid => 0
  | .rgb _ _ b _ => b.toNat

/-- A valid RGB colour without transparency. -/
def IsOpaqueRgb (c : QColor) : Prop := ∃ r g b, c = .rgb r g b 255

/-- What a palette file keeps of a colour: `QColor(red(), green(), blue())`. -/
def stored (c : QColor) : QColor := ofRgb c.red c.green c.blue

end QColor

/-- `QList::insert(i, t)`: before position `i`, or at the end when `i` is past it. -/
def qListInsert {α : Type} : Nat → α → List α → List α
  | 0, x, l => x :: l
  | _ + 1, x, [] => [x]
  | i + 1, x, y :: l => y :: qListInsert i x l

theorem qListInsert_length {α : Type} (x : α) :
    ∀ l : List α, qListInsert l.length x l = l ++ [x]
  | [] => rfl
  | y :: l => by rw [List.length_cons, qListInsert, qListInsert_length x l, List.cons_append]

/-- The members of `Palette` that `fromFile` and `save` read and write. -/
structure Palette where
  name : List Char
  filename : List Char
  colors : List QColor
  modified : Bool
  deriving DecidableEq, Repr

namespace Palette

/-- `Palette(name, filename)`: no colours, not modified, and the file name `name.gpl`
when `filename` is empty. -/
def new (name filename : List Char) : Palette :=
  ⟨name, if filename.isEmpty then name ++ ".gpl".toList else filename, [], false⟩

/-- `insertColor(index, color)`. -/
def insertColor (index : Nat) (color : QColor) (p : Palette) : Palette :=
  { p with colors := qListInsert index color p.colors, modified := true }

/-- `save(filename)` once the file is open: the bytes the stream writes through `codec`,
and the palette with `modified_` cleared. -/
def save (codec : TextCodec) (p : Palette) : List UInt8 × Palette :=
  (codec.fromUnicode ("GIMP Palette\nName: ".toList ++ p.name ++ "\n#\n".toList ++
      p.colors.flatMap fun color =>
        decimal color.red ++ ' ' :: decimal color.green ++ ' ' :: decimal color.blue ++
          "\tUntitled\n".toList),
    { p with modified := false })

/-- One pass of the loop of `fromFile` over `line`, with `index` the position of the
next colour: empty lines, comments and lines without exactly four fields are skipped. -/
def readColorLine (st : Nat × Palette) (line : List Char) : Nat × Palette :=
  if line.isEmpty || line.head? == some '#' then st
  else
    let tokens := splitSpaces line
    if tokens.length ≠ 4 then st
    else
      (st.1 + 1, st.2.insertColor st.1 (QColor.ofRgb (toInt (tokens.getD 0 []))
        (toInt (tokens.getD 1 [])) (toInt (tokens.getD 2 []))))

/-- `Palette::fromFile` on a file named `fileName` that holds `data`, read through
`codec`. -/
def fromFile (codec : TextCodec) (fileName : List Char) (data : List UInt8) : Option Palette :=
  let (header, rest) := readLine (readLines (codec.decode (stripCR data)))
  if header ≠ "GIMP Palette".toList then none
  else
    let (line, body) := readLine rest
    if "Name:".toList.isPrefixOf line then
      let (_, pal) := body.foldl readColorLine (0, new (trimmed (line.drop 5)) fileName)
      some { pal with modified := false }
    else none

/-! ## The text `save` writes -/

/-- The line `save` writes for a colour, without its `'\n'`. -/
def colorLine (color : QColor) : List Char :=
  decimal color.red ++ ' ' :: decimal color.green ++ ' ' :: decimal color.blue ++
    "\tUntitled".toList

theorem flatMap_colorLine : ∀ cs : List QColor,
    (cs.flatMap fun color =>
        decimal color.red ++ ' ' :: decimal color.green ++ ' ' :: decimal color.blue ++
          "\tUntitled\n".toList) = unlines (cs.map colorLine)
  | [] => rfl
  | c :: cs => by
    rw [List.flatMap_cons, flatMap_colorLine cs, List.map_cons, unlines, colorLine]
    simp [List.append_assoc]

/-- The lines `save` writes: header, name, comment and one line per colour. -/
def saveLines (p : Palette) : List (List Char) :=
  "GIMP Palette".toList :: ("Name: ".toList ++ p.name) :: ['#'] :: p.colors.map colorLine

theorem save_text (codec : TextCodec) (p : Palette) :
    (p.save codec).1 = codec.fromUnicode (unlines p.saveLines) := by
  rw [save, flatMap_colorLine]
  simp [saveLines, unlines, List.append_assoc]

/-! ## Reading a colour line back -/

theorem not_space_of_mem_decimal {c : Char} {n : Int} (h : c ∈ decimal n) :
    qIsSpace c = false := by
  rcases mem_decimal h with h | rfl
  · exact isDigit_not_space h
  · rfl

/-- A channel is written as at least one digit and read back as itself. -/
theorem decimal_channel (r : UInt8) :
    (∃ d ds, decimal (r.toNat : Int) = d :: ds ∧ d.isDigit = true) ∧
      toInt (decimal (r.toNat : Int)) = r.toNat := by
  have hr := r.toNat_lt_size
  refine ⟨?_, toInt_decimal (by omega) (by simp only [UInt8.size] at hr; omega)⟩
  obtain ⟨d, ds, hds, hall, -⟩ := toDigits_spec r.toNat
  exact ⟨d, ds, by rw [decimal, if_neg (by omega), Int.toNat_ofNat, hds],
    hall d (List.mem_cons_self _ _)⟩

theorem ofRgb_channels (r g b : UInt8) :
    QColor.ofRgb r.toNat g.toNat b.toNat = .rgb r g b 255 := by
  have hr := r.toNat_lt_size
  have hg := g.toNat_lt_size
  have hb := b.toNat_lt_size
  simp only [UInt8.size] at hr hg hb
  have hround : ∀ x : UInt8, (x.toNat : Int).toNat.toUInt8 = x := fun x =>
    UInt8.toNat.inj (by rw [Int.toNat_ofNat]; exact Nat.mod_eq_of_lt x.toNat_lt_size)
  rw [QColor.ofRgb, if_pos (by omega), hround, hround, hround]

/-- Every colour has 8-bit channels, and is stored as the opaque colour of them. -/
theorem channels_stored (c : QColor) :
    ∃ r g b : UInt8, c.red = r.toNat ∧ c.green = g.toNat ∧ c.blue = b.toNat ∧
      c.stored = .rgb r g b 255 := by
  cases c with
  | invalid => exact ⟨0, 0, 0, rfl, rfl, rfl, by decide⟩
  | rgb r g b _ => exact ⟨r, g, b, rfl, rfl, rfl, ofRgb_channels r g b⟩

theorem stored_of_isOpaqueRgb {c : QColor} (hc : c.IsOpaqueRgb) : c.stored = c := by
  obtain ⟨r, g, b, rfl⟩ := hc
  exact ofRgb_channels r g b

theorem stored_stored (c : QColor) : c.stored.stored = c.stored := by
  obtain ⟨r, g, b, -, -, -, hstored⟩ := channels_stored c
  rw [hstored]
  exact ofRgb_channels r g b

/-- A stored colour is written as the same line as the colour. -/
theorem colorLine_stored (c : QColor) : colorLine c.stored = colorLine c := by
  obtain ⟨r, g, b, hr, hg, hb, hstored⟩ := channels_stored c
  rw [hstored, colorLine, colorLine, hr, hg, hb]
  rfl

/-- The line of a colour is read back as its stored colour, inserted at `index`. -/
theorem readColorLine_colorLine (st : Nat × Palette) (c : QColor) :
    readColorLine st (colorLine c) = (st.1 + 1, st.2.insertColor st.1 c.stored) := by
  obtain ⟨r, g, b, hr₀, hg₀, hb₀, hstored⟩ := channels_stored c
  obtain ⟨⟨d, ds, hr, hd⟩, hr'⟩ := decimal_channel r
  obtain ⟨⟨e, es, hg, he⟩, hg'⟩ := decimal_channel g
  obtain ⟨⟨f, fs, hb, hf⟩, hb'⟩ := decimal_channel b
  have hword : ∀ n : Int, ∀ c ∈ decimal n, qIsSpace c = false :=
    fun _ _ hc => not_space_of_mem_decimal hc
  have htab : "\tUntitled".toList = '\t' :: "Untitled".toList := rfl
  have hline : colorLine c = decimal (r.toNat : Int) ++ ' ' :: decimal (g.toNat : Int) ++
      ' ' :: decimal (b.toNat : Int) ++ "\tUntitled".toList := by
    rw [colorLine, hr₀, hg₀, hb₀]
  have hsplit : splitSpaces (colorLine c) =
      [decimal r.toNat, decimal g.toNat, decimal b.toNat, "Untitled".toList] := by
    simp only [splitSpaces, hline, List.append_assoc, List.cons_append, htab]
    have hsp : qIsSpace ' ' = true := rfl
    rw [splitSpacesAux_word_sep (hword _) hsp (by simp [hg, isDigit_not_space he]),
      splitSpacesAux_word_sep (hword _) hsp (by simp [hb, isDigit_not_space hf]),
      splitSpacesAux_word_sep (hword _) (by decide) (by decide)]
    rfl
  have hhead : (colorLine c).head? = some d := by
    simp [hline, hr]
  have hd' : d ≠ '#' := by
    rintro rfl
    exact absurd hd (by decide)
  have hne : colorLine c ≠ [] := fun h => by simp [h] at hhead
  rw [readColorLine, if_neg (by simp [hne, hhead, hd']), if_neg (by simp [hsplit])]
  simp [hsplit, hr', hg', hb', ofRgb_channels, hstored]

/-- The loop of `fromFile` over colour lines, from `index` the number of colours so far,
appends the stored colours in order. -/
theorem foldl_readColorLine :
    ∀ (cs : List QColor) (pal : Palette),
    (cs.map colorLine).foldl readColorLine (pal.colors.length, pal) =
      ((pal.colors ++ cs.map QColor.stored).length,
        { pal with colors := pal.colors ++ cs.map QColor.stored,
                   modified := pal.modified || !cs.isEmpty })
  | [], pal => by simp
  | c :: cs, pal => by
    rw [List.map_cons, List.foldl_cons, readColorLine_colorLine]
    have ih := foldl_readColorLine cs (pal.insertColor pal.colors.length c.stored)
    simp only [insertColor, qListInsert_length, List.length_append, List.length_singleton] at ih
    simp only [insertColor, qListInsert_length, ih]
    simp [Nat.add_assoc, Nat.add_comm 1]

/-! ## The round trip -/

/-- A name that `save` writes on one line, in characters the codec carries. -/
structure CarriedLine (codec : TextCodec) (name : List Char) : Prop where
  no_newline : '\n' ∉ name
  carried : ∀ c ∈ name, codec.Carries c

/-- A name that `save` writes on one line and that `trimmed` leaves as it is. -/
structure OneLineName (name : List Char) : Prop where
  no_newline : '\n' ∉ name
  no_return : '\r' ∉ name
  head : ∀ c ∈ name.head?, qIsSpace c = false
  last : ∀ c ∈ name.getLast?, qIsSpace c = false

theorem CarriedLine.append {codec : TextCodec} {s t : List Char} (hs : CarriedLine codec s)
    (ht : CarriedLine codec t) : CarriedLine codec (s ++ t) :=
  ⟨fun h => (List.mem_append.mp h).elim hs.no_newline ht.no_newline,
    fun c h => (List.mem_append.mp h).elim (hs.carried c) (ht.carried c)⟩

theorem toNat_lt_of_isDigit {c : Char} (h : c.isDigit = true) : c.toNat < 128 := by
  simp only [Char.isDigit, Bool.and_eq_true, decide_eq_true_eq, Char.le_def] at h
  have h' : c.toNat ≤ 57 := h.2
  omega

/-- Every character of a colour line is ASCII, and neither `'\n'` nor `'\r'`. -/
theorem colorLine_ascii (c : QColor) :
    ∀ ch ∈ colorLine c, ch.toNat < 128 ∧ ch ≠ '\n' ∧ ch ≠ '\r' := by
  have hdec : ∀ (n : Int), ∀ ch ∈ decimal n, ch.toNat < 128 ∧ ch ≠ '\n' ∧ ch ≠ '\r' :=
    fun n ch h => by
      rcases mem_decimal h with h | rfl
      · refine ⟨toNat_lt_of_isDigit h, ?_, ?_⟩ <;>
        · rintro rfl
          exact absurd h (by decide)
      · decide
  intro ch h
  simp only [colorLine, List.mem_append, List.mem_cons] at h
  rcases h with ((h | h | h) | h | h) | h
  all_goals first
    | exact hdec _ ch h
    | (subst h; decide)
    | exact (by decide : ∀ ch ∈ "\tUntitled".toList,
        ch.toNat < 128 ∧ ch ≠ '\n' ∧ ch ≠ '\r') ch h

/-- Text in ASCII without line breaks is one line the codec carries. -/
theorem carried_of_ascii {codec : TextCodec} (hascii : codec.CarriesAscii) {s : List Char}
    (h : ∀ ch ∈ s, ch.toNat < 128 ∧ ch ≠ '\n' ∧ ch ≠ '\r') : CarriedLine codec s :=
  ⟨fun hn => (h _ hn).2.1 rfl, fun ch hch => hascii ch (h ch hch).1 (h ch hch).2.2⟩

/-- Every line `save` writes is one line the codec carries. -/
theorem saveLines_carried (codec : TextCodec) (p : Palette) (hascii : codec.CarriesAscii)
    (hname : CarriedLine codec p.name) : ∀ l ∈ p.saveLines, CarriedLine codec l := by
  intro l hl
  simp only [saveLines, List.mem_cons, List.mem_map] at hl
  rcases hl with rfl | rfl | rfl | ⟨c, -, rfl⟩
  · exact carried_of_ascii hascii (by decide)
  · exact (carried_of_ascii hascii (s := "Name: ".toList) (by decide)).append hname
  · exact carried_of_ascii hascii (by decide)
  · exact carried_of_ascii hascii (colorLine_ascii c)

/-- `fromFile` on a file whose first two lines are the header and a `Name:` line. -/
theorem fromFile_of_lines {codec : TextCodec} {fileName line : List Char} {data : List UInt8}
    {body : List (List Char)}
    (hlines : readLines (codec.decode (stripCR data)) = "GIMP Palette".toList :: line :: body)
    (hname : "Name:".toList.isPrefixOf line = true) :
    fromFile codec fileName data = some { (body.foldl readColorLine
      (0, new (trimmed (line.drop 5)) fileName)).2 with modified := false } := by
  simp only [fromFile, hlines, readLine, ne_eq, not_true_eq_false, ite_false, hname, ite_true]

/-- Loading what `save` writes, for a name that is one line the codec carries: the name
comes back trimmed, every colour as its stored colour in order, and `modified_` cleared. -/
theorem fromFile_save_eq (codec : TextCodec) (p : Palette) (fileName : List Char)
    (hascii : codec.CarriesAscii) (hname : CarriedLine codec p.name) :
    fromFile codec fileName (p.save codec).1 =
      some { new (trimmed p.name) fileName with colors := p.colors.map QColor.stored } := by
  have hlines := saveLines_carried codec p hascii hname
  have htext : ∀ ch ∈ unlines p.saveLines, codec.Carries ch := fun ch h => by
    rcases mem_unlines h with rfl | ⟨l, hl, hch⟩
    · exact hascii '\n' (by decide) (by decide)
    · exact (hlines l hl).carried ch hch
  have hread : readLines (codec.decode (stripCR (p.save codec).1)) = p.saveLines := by
    rw [save_text, stripCR_fromUnicode codec htext, TextCodec.decode_fromUnicode codec htext,
      readLines_unlines _ fun l hl => (hlines l hl).no_newline]
  have hname' : trimmed (("Name: ".toList ++ p.name).drop 5) = trimmed p.name := by
    rw [show ("Name: ".toList ++ p.name).drop 5 = ' ' :: p.name from rfl,
      trimmed_space_cons (show qIsSpace ' ' = true from rfl)]
  have hcomment (st : Nat × Palette) : readColorLine st ['#'] = st := rfl
  have hloop := foldl_readColorLine p.colors (new (trimmed p.name) fileName)
  rw [fromFile_of_lines hread rfl, hname', List.foldl_cons, hcomment]
  erw [hloop]
  rfl

/-- Loading what `save` writes gives back the palette's name and its colours in order,
with `modified_` cleared, for a one-line name the codec carries and opaque RGB colours. -/
theorem fromFile_save (codec : TextCodec) (p : Palette) (fileName : List Char)
    (hascii : codec.CarriesAscii) (hcarried : ∀ c ∈ p.name, codec.Carries c)
    (hname : OneLineName p.name) (hcolors : ∀ c ∈ p.colors, c.IsOpaqueRgb) :
    fromFile codec fileName (p.save codec).1 =
      some { new p.name fileName with colors := p.colors } := by
  rw [fromFile_save_eq codec p fileName hascii ⟨hname.no_newline, hcarried⟩,
    trimmed_eq_self hname.head hname.last,
    List.map_congr_left fun c hc => stored_of_isOpaqueRgb (hcolors c hc), List.map_id']

theorem fromFile_save_of_one_color :
    TextCodec.latin1.CarriesAscii ∧ (∀ c ∈ "Mine".toList, TextCodec.latin1.Carries c) ∧
      OneLineName "Mine".toList ∧ (∀ c ∈ [QColor.rgb 1 2 3 255], c.IsOpaqueRgb) ∧
      fromFile .latin1 "mine.gpl".toList
          ((Palette.mk "Mine".toList "mine.gpl".toList [.rgb 1 2 3 255] true).save .latin1).1 =
        some { new "Mine".toList "mine.gpl".toList with colors := [.rgb 1 2 3 255] } :=
  have hcarried : ∀ c ∈ "Mine".toList, TextCodec.latin1.Carries c := fun c hc =>
    have h := (by decide : ∀ c ∈ "Mine".toList, c.toNat < 256 ∧ c ≠ '\r') c hc
    TextCodec.latin1_carries h.1 h.2
  have hname : OneLineName "Mine".toList := ⟨by decide, by decide, by decide, by decide⟩
  have hcolors : ∀ c ∈ [QColor.rgb 1 2 3 255], c.IsOpaqueRgb := fun c hc =>
    ⟨1, 2, 3, List.mem_singleton.mp hc⟩
  ⟨TextCodec.latin1_carriesAscii, hcarried, hname, hcolors,
    fromFile_save .latin1 ⟨"Mine".toList, "mine.gpl".toList, [.rgb 1 2 3 255], true⟩
      "mine.gpl".toList TextCodec.latin1_carriesAscii hcarried hname hcolors⟩

/-- Under a Latin-1 locale a Cyrillic name, one line without whitespace at its ends, is
written as question marks and read back so. -/
theorem fromFile_save_cyrillic_latin1 :
    OneLineName "Палитра".toList ∧
      fromFile .latin1 "p.gpl".toList
          ((Palette.mk "Палитра".toList "p.gpl".toList [] false).save .latin1).1 =
        some (new "???????".toList "p.gpl".toList) :=
  ⟨⟨by decide, by decide, by decide, by decide⟩, by decide⟩

/-- A palette read back from what `save` wrote is saved as the very same bytes, whatever
its colours: loading and saving again leaves the file as it is. -/
theorem save_fromFile_save (codec : TextCodec) (p : Palette) (fileName : List Char)
    (hascii : codec.CarriesAscii) (hcarried : ∀ c ∈ p.name, codec.Carries c)
    (hname : OneLineName p.name) :
    ∃ q, fromFile codec fileName (p.save codec).1 = some q ∧
      (q.save codec).1 = (p.save codec).1 := by
  refine ⟨_, fromFile_save_eq codec p fileName hascii ⟨hname.no_newline, hcarried⟩, ?_⟩
  rw [save_text, save_text, trimmed_eq_self hname.head hname.last]
  simp only [saveLines, new, List.map_map, Function.comp_def, colorLine_stored]

theorem save_fromFile_save_of_translucent :
    TextCodec.latin1.CarriesAscii ∧ (∀ c ∈ "Mine".toList, TextCodec.latin1.Carries c) ∧
      OneLineName "Mine".toList ∧
      ∃ q, fromFile .latin1 "mine.gpl".toList
          ((Palette.mk "Mine".toList "mine.gpl".toList [.rgb 1 2 3 128] true).save .latin1).1 =
            some q ∧
        (q.save .latin1).1 =
          ((Palette.mk "Mine".toList "mine.gpl".toList [.rgb 1 2 3 128] true).save .latin1).1 :=
  have hcarried : ∀ c ∈ "Mine".toList, TextCodec.latin1.Carries c := fun c hc =>
    have h := (by decide : ∀ c ∈ "Mine".toList, c.toNat < 256 ∧ c ≠ '\r') c hc
    TextCodec.latin1_carries h.1 h.2
  have hname : OneLineName "Mine".toList := ⟨by decide, by decide, by decide, by decide⟩
  ⟨TextCodec.latin1_carriesAscii, hcarried, hname,
    save_fromFile_save .latin1 ⟨"Mine".toList, "mine.gpl".toList, [.rgb 1 2 3 128], true⟩
      "mine.gpl".toList TextCodec.latin1_carriesAscii hcarried hname⟩

end Palette

end Drawpile.Utils
