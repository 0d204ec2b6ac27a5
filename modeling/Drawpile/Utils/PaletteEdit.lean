import Drawpile.Utils.Palette

/-!
# Editing a palette

Besides reading and writing files, `Palette` is edited through `setName`, `setColor`,
`insertColor` and `removeColor`, read through `count` and `color`, and
`makeDefaultPalette` builds the palette a new user starts with.  Each edit of the colours
sets `modified_`, and `save` clears it; `setName` renames the palette and its file but
leaves the flag alone.

The colour list is a `QList<QColor>` indexed by `int`.  `QList::insert` prepends for an
index `≤ 0` and appends past the end, which is `qListInsert` at `index.toNat`;
`QList::removeAt` ignores an index out of range; `QList::at` and `QList::operator[]` out
of range are undefined behaviour, `none` here.  `QColor::fromHsv` converts in floating
point and is a parameter of `makeDefaultPalette`, as is the translated name.

`Tracked` pairs a palette with the bytes of its file: those its last `save` wrote, or
those it was loaded from.  `Tracked.Sound` says the flag is sound for the colours: a
palette that is not marked modified is what its file reloads to, in the red, green and
blue of every colour (the file keeps neither alpha nor validity).  Every call keeps it
while the names are lines the codec carries (`Tracked.Sound.track`), so a palette edited,
renamed and saved any number of times after loading matches its file whenever it is not
marked modified (`unmodified_palette_holds_file_colors`).  The name is outside this: a
rename changes what `save` writes without marking the palette.

## Strategy

`track` runs a call on the palette and replaces the file by the bytes `save` writes;
`track_palette` says it does to the palette exactly what `PaletteOp.apply` does, so runs
of `track` project onto runs of the code (`runTracked_palette`).  At a `save` the round
trip `fromFile_save_eq` gives the stored colours back, and `stored_stored` closes the
step; every other call either sets the flag or leaves colours and file alone.
-/

namespace Drawpile.Utils

namespace Palette

/-! ## The members -/

/-- `setName(name)`: the name, and the file name `name.gpl`; `modified_` stays. -/
def setName (name : List Char) (p : Palette) : Palette :=
  { p with name := name, filename := name ++ ".gpl".toList }

/-- `count()`. -/
def count (p : Palette) : Nat := p.colors.length

/-- `color(index)`: `colors_.at(index)`, undefined out of range. -/
def color (index : Int) (p : Palette) : Option QColor :=
  if 0 ≤ index then p.colors.get? index.toNat else none

/-- `setColor(index, color)`: `colors_[index] = color`, undefined out of range. -/
def setColor (index : Int) (color : QColor) (p : Palette) : Option Palette :=
  if 0 ≤ index ∧ index < p.colors.length then
    some { p with colors := p.colors.set index.toNat color, modified := true }
  else none

/-- `removeColor(index)`: `QList::removeAt` ignores an index out of range, and `modified_`
is set either way. -/
def removeColor (index : Int) (p : Palette) : Palette :=
  { p with
    colors := if 0 ≤ index ∧ index < p.colors.length then p.colors.eraseIdx index.toNat
      else p.colors
    modified := true }

/-- The inner loop of `makeDefaultPalette`, `for(hue=0;hue<345;hue+=35)`, with `fuel`
passes. -/
def defaultHues (fromHsv : Int → Int → Int → QColor) (value : Int) :
    Nat → Int → Palette → Option Palette
  | 0, _, _ => none
  | fuel + 1, hue, p =>
    if hue < 345 then defaultHues fromHsv value fuel (hue + 35) (p.insertColor 0 (fromHsv hue 255 value))
    else some p

/-- The outer loop of `makeDefaultPalette`, `for(value=25;value<255;value+=25)`. -/
def defaultValues (fromHsv : Int → Int → Int → QColor) : Nat → Int → Palette → Option Palette
  | 0, _, _ => none
  | fuel + 1, value, p =>
    if value < 255 then (defaultHues fromHsv value 11 0 p).bind (defaultValues fromHsv fuel (value + 25))
    else some p

/-- `makeDefaultPalette()` for the name `tr("Default")` and the colour conversion
`QColor::fromHsv`. -/
def makeDefaultPalette (fromHsv : Int → Int → Int → QColor) (name : List Char) : Option Palette :=
  defaultValues fromHsv 11 25 (new name [])

end Palette

/-- A call on a palette. -/
inductive PaletteOp
  | setName (name : List Char)
  | setColor (index : Int) (color : QColor)
  | insertColor (index : Int) (color : QColor)
  | removeColor (index : Int)
  | save

namespace PaletteOp

/-- What the call does, `save` writing through `codec`; `none` is undefined behaviour. -/
def apply (codec : TextCodec) : PaletteOp → Palette → Option Palette
  | setName name, p => some (p.setName name)
  | setColor index color, p => p.setColor index color
  | insertColor index color, p => some (p.insertColor index.toNat color)
  | removeColor index, p => some (p.removeColor index)
  | save, p => some (p.save codec).2

/-- A run of calls. -/
def run (codec : TextCodec) : List PaletteOp → Palette → Option Palette
  | [], p => some p
  | op :: ops, p => (op.apply codec p).bind (run codec ops)

end PaletteOp

/-! ## The modified flag -/

/-- A palette and the bytes of its file: those its last `save` wrote, or those it was
loaded from. -/
structure Tracked where
  palette : Palette
  file : List UInt8

namespace Tracked

variable (codec : TextCodec)

/-- A call, with the file replaced by the bytes `save` writes. -/
def track : PaletteOp → Tracked → Option Tracked
  | .save, t => some ⟨(t.palette.save codec).2, (t.palette.save codec).1⟩
  | op, t => (op.apply codec t.palette).map fun p => ⟨p, t.file⟩

/-- A run of tracked calls. -/
def runTracked : List PaletteOp → Tracked → Option Tracked
  | [], t => some t
  | op :: ops, t => (track codec op t).bind (runTracked ops)

theorem track_palette (op : PaletteOp) (t : Tracked) :
    (track codec op t).map palette = op.apply codec t.palette := by
  cases op <;> simp [track, PaletteOp.apply, Option.map_map, Function.comp_def]

/-- Tracked runs do to the palette what the code does. -/
theorem runTracked_palette : ∀ (ops : List PaletteOp) (t : Tracked),
    (runTracked codec ops t).map palette = PaletteOp.run codec ops t.palette
  | [], _ => rfl
  | op :: ops, t => by
    rw [runTracked, PaletteOp.run, ← track_palette]
    cases track codec op t with
    | none => rfl
    | some t' => exact runTracked_palette ops t'

/-- The flag is sound for the colours: a palette not marked modified is what its file
reloads to, in the red, green and blue of every colour. -/
def Sound (fileName : List Char) (t : Tracked) : Prop :=
  t.palette.modified = false → ∃ q, Palette.fromFile codec fileName t.file = some q ∧
    q.colors.map QColor.stored = t.palette.colors.map QColor.stored

variable {codec} {fileName : List Char}

/-- One call keeps the flag sound, and the name a line the codec carries, when a rename
is to such a line. -/
theorem Sound.track (hascii : codec.CarriesAscii) {t t' : Tracked} {op : PaletteOp}
    (hop : ∀ name, op = .setName name → Palette.CarriedLine codec name)
    (hname : Palette.CarriedLine codec t.palette.name) (h : t.Sound codec fileName)
    (ht : Tracked.track codec op t = some t') :
    Palette.CarriedLine codec t'.palette.name ∧ t'.Sound codec fileName := by
  cases op with
  | setName name =>
    cases ht
    exact ⟨hop name rfl, h⟩
  | setColor index color =>
    obtain ⟨p', hp', rfl⟩ := Option.map_eq_some'.mp ht
    have hset : t.palette.setColor index color = some p' := hp'
    unfold Palette.setColor at hset
    split_ifs at hset
    cases hset
    exact ⟨hname, nofun⟩
  | insertColor index color =>
    cases ht
    exact ⟨hname, nofun⟩
  | removeColor index =>
    cases ht
    exact ⟨hname, nofun⟩
  | save =>
    cases ht
    refine ⟨hname, fun _ =>
      ⟨_, Palette.fromFile_save_eq codec t.palette fileName hascii hname, ?_⟩⟩
    simp only [List.map_map, Function.comp_def, Palette.stored_stored]
    rfl

/-- A run keeps the flag sound when every rename is to a line the codec carries. -/
theorem Sound.runTracked (hascii : codec.CarriesAscii) :
    ∀ {ops : List PaletteOp} {t t' : Tracked},
      (∀ name, PaletteOp.setName name ∈ ops → Palette.CarriedLine codec name) →
      Palette.CarriedLine codec t.palette.name → t.Sound codec fileName →
      Tracked.runTracked codec ops t = some t' → t'.Sound codec fileName
  | [], _, _, _, _, h, ht => by
    cases ht
    exact h
  | op :: ops, t, t', hops, hname, h, ht => by
    rw [Tracked.runTracked] at ht
    obtain ⟨t₁, h₁, h₂⟩ := Option.bind_eq_some.mp ht
    obtain ⟨hname₁, hsound₁⟩ :=
      h.track hascii (fun name hn => hops name (hn ▸ List.mem_cons_self _ _)) hname h₁
    exact Sound.runTracked hascii (fun name hn => hops name (List.mem_cons_of_mem _ hn))
      hname₁ hsound₁ h₂

end Tracked

/-- After any run of edits, renames and saves of a palette whose flag is sound, for
instance one `fromFile` just loaded, where every name is a line the codec carries: a
palette that is not marked modified is what its file reloads to (the file the last `save`
wrote, or the one it was loaded from), in the red, green and blue of every colour. -/
theorem unmodified_palette_holds_file_colors (codec : TextCodec) (fileName : List Char)
    {p p' : Palette} {file : List UInt8} {ops : List PaletteOp}
    (hascii : codec.CarriesAscii) (hname : Palette.CarriedLine codec p.name)
    (hnames : ∀ name, PaletteOp.setName name ∈ ops → Palette.CarriedLine codec name)
    (hsound : Tracked.Sound codec fileName ⟨p, file⟩)
    (hrun : PaletteOp.run codec ops p = some p') (hclean : p'.modified = false) :
    ∃ t', Tracked.runTracked codec ops ⟨p, file⟩ = some t' ∧ t'.palette = p' ∧
      ∃ q, Palette.fromFile codec fileName t'.file = some q ∧
        q.colors.map QColor.stored = p'.colors.map QColor.stored := by
  have hproj := Tracked.runTracked_palette codec ops ⟨p, file⟩
  rw [hrun] at hproj
  obtain ⟨t', ht', rfl⟩ := Option.map_eq_some'.mp hproj
  exact ⟨t', ht', rfl, Tracked.Sound.runTracked hascii hnames hname hsound ht' hclean⟩

theorem unmodified_palette_holds_file_colors_of_translucent :
    TextCodec.latin1.CarriesAscii ∧ Palette.CarriedLine .latin1 "A".toList ∧
      (∀ name, PaletteOp.setName name ∈ [.setColor 0 (.rgb 4 5 6 128), .save] →
        Palette.CarriedLine .latin1 name) ∧
      Tracked.Sound .latin1 "a.gpl".toList
        ⟨⟨"A".toList, "a.gpl".toList, [.rgb 1 2 3 255], false⟩,
          (Palette.save .latin1 ⟨"A".toList, "a.gpl".toList, [.rgb 1 2 3 255], false⟩).1⟩ ∧
      PaletteOp.run .latin1 [.setColor 0 (.rgb 4 5 6 128), .save]
          ⟨"A".toList, "a.gpl".toList, [.rgb 1 2 3 255], false⟩ =
        some ⟨"A".toList, "a.gpl".toList, [.rgb 4 5 6 128], false⟩ ∧
      (Palette.mk "A".toList "a.gpl".toList [.rgb 4 5 6 128] false).modified = false ∧
      ∃ t', Tracked.runTracked .latin1 [.setColor 0 (.rgb 4 5 6 128), .save]
          ⟨⟨"A".toList, "a.gpl".toList, [.rgb 1 2 3 255], false⟩,
            (Palette.save .latin1 ⟨"A".toList, "a.gpl".toList, [.rgb 1 2 3 255], false⟩).1⟩ =
            some t' ∧
        t'.palette = ⟨"A".toList, "a.gpl".toList, [.rgb 4 5 6 128], false⟩ ∧
        ∃ q, Palette.fromFile .latin1 "a.gpl".toList t'.file = some q ∧
          q.colors.map QColor.stored = [QColor.rgb 4 5 6 128].map QColor.stored :=
  have hname : Palette.CarriedLine .latin1 "A".toList :=
    Palette.carried_of_ascii TextCodec.latin1_carriesAscii (by decide)
  have hnames : ∀ name, PaletteOp.setName name ∈ [.setColor 0 (.rgb 4 5 6 128), .save] →
      Palette.CarriedLine .latin1 name := by
    simp
  have hsound : Tracked.Sound .latin1 "a.gpl".toList
      ⟨⟨"A".toList, "a.gpl".toList, [.rgb 1 2 3 255], false⟩,
        (Palette.save .latin1 ⟨"A".toList, "a.gpl".toList, [.rgb 1 2 3 255], false⟩).1⟩ :=
    fun _ => ⟨⟨"A".toList, "a.gpl".toList, [.rgb 1 2 3 255], false⟩, by decide, rfl⟩
  have hrun : PaletteOp.run .latin1 [.setColor 0 (.rgb 4 5 6 128), .save]
      ⟨"A".toList, "a.gpl".toList, [.rgb 1 2 3 255], false⟩ =
        some ⟨"A".toList, "a.gpl".toList, [.rgb 4 5 6 128], false⟩ := by decide
  ⟨TextCodec.latin1_carriesAscii, hname, hnames, hsound, hrun, rfl,
    unmodified_palette_holds_file_colors .latin1 "a.gpl".toList TextCodec.latin1_carriesAscii
      hname hnames hsound hrun rfl⟩

end Drawpile.Utils
