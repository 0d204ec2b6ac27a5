import Drawpile.Canvas.Annotations
import Drawpile.Utils.QtString

/-!
# Saving and closing a document

`CanvasScene::save` writes OpenRaster, with every layer and annotation, when the file name
ends with `.ora` in any case, and otherwise flattens the image into the format
`QImage::save` infers from the suffix.  `needSaveOra` tells whether flattening loses
anything.  `MainWindow::saveas` asks for a file name, gives a name without a suffix the one
of the selected filter, and asks `confirmFlatten` before a flattening save; `save` does the
same with the window's `filename_`, and `closeEvent` asks before it drops a session or
unsaved changes.

The dialogs are the environment: `SaveEnv` holds what `QFileDialog::getSaveFileName`
returns, the answer to the flatten question, and which file names `CanvasScene::save`
manages to write.  `Saved` records what a call did: its result, the name it handed to
`CanvasScene::save`, and the window's members afterwards.  The override cursor, the error
message box, `updateTitle` and `addRecentFile` change nothing here and are left out.

What the model shows:

* a canvas that needs OpenRaster is flattened only when the user answered "Flatten"
  (`flattens_only_when_confirmed`);
* a filter `Name (*.ext)` gives a name without a suffix the suffix `ext`
  (`saveas_names_by_filter`), but the filter "All files (*)" has no `"*."` and `saveas`
  appends `All files (*` itself, which leaves a name without a suffix
  (`saveas_all_files_filter`);
* `confirmFlatten` cuts the name at its last `'.'` even when that is in a directory
  (`save_open_raster_cuts_directory`);
* `save` tests the suffix `ora` case-sensitively where `CanvasScene::save` does not, so a
  file `.ORA` meets the flatten question and is renamed `.ora`
  (`save_questions_upper_case_ora`).

## Strategy

`write` is the common tail of both saves; `write_spec` says once what it does.  The
format lemmas reduce every question about the written name to `endsWithCI_append` and the
file name lemmas of `Drawpile.Utils`; `filterSuffix_pattern` finds the extension in a filter.
-/

namespace Drawpile.Client

open Drawpile.Canvas Drawpile.Utils

/-! ## The model -/

/-- How `CanvasScene::save` writes a file. -/
inductive SaveFormat
  | openRaster
  | flattened
  deriving DecidableEq, Repr

/-- `CanvasScene::save(file)`'s choice of format. -/
def saveFormat (file : List Char) : SaveFormat :=
  if endsWithCI file ".ora".toList then .openRaster else .flattened

/-- The buttons of the question `confirmFlatten` asks; closing it is "Cancel". -/
inductive FlattenAnswer
  | cancel
  | flatten
  | saveOpenRaster
  deriving DecidableEq, Repr

/-- `MainWindow::confirmFlatten(file)`: `none` when the user cancels, else the name to save
to; "Save as OpenRaster" replaces what follows the last `'.'` by `.ora`. -/
def confirmFlatten (answer : FlattenAnswer) (file : List Char) : Option (List Char) :=
  match answer with
  | .cancel => none
  | .flatten => some file
  | .saveOpenRaster => some (left file (lastIndexOf '.' file) ++ ".ora".toList)

/-- The suffix `saveas` gives a name without one: `.ora` or `.png` when no filter was
selected, else the text of the selected filter from the `'.'` after `"*."` to the next
`')'`. -/
def filterSuffix (needSaveOra : Bool) (selfilter : List Char) : List Char :=
  if selfilter.isEmpty then (if needSaveOra then ".ora" else ".png").toList
  else
    let i := indexOf "*.".toList selfilter 0 + 1
    let i2 := indexOf [')'] selfilter i.toNat
    mid selfilter i.toNat (i2 - i)

/-- The members of `MainWindow` and of its canvas that saving reads and writes. -/
structure Document where
  /-- `filename_`. -/
  filename : List Char
  /-- `isWindowModified()`. -/
  modified : Bool
  /-- The number of layers of the canvas. -/
  layers : Nat
  /-- The canvas's annotations. -/
  canvas : AnnotationScene
  deriving DecidableEq, Repr

/-- `_canvas->needSaveOra()`. -/
def Document.needSaveOra (doc : Document) : Bool := doc.canvas.needSaveOra doc.layers

/-- The environment of a save. -/
structure SaveEnv where
  /-- The name `QFileDialog::getSaveFileName` returns, empty when cancelled. -/
  file : List Char
  /-- The filter selected in that dialog. -/
  selectedFilter : List Char
  /-- The answer to `confirmFlatten`'s question. -/
  flatten : FlattenAnswer
  /-- Whether `CanvasScene::save` manages to write a file of that name. -/
  writes : List Char → Bool

/-- What a call of `save` or `saveas` did. -/
structure Saved where
  /-- The value returned. -/
  ok : Bool
  /-- The name handed to `CanvasScene::save`, if the call got that far. -/
  written : Option (List Char)
  /-- The window afterwards. -/
  doc : Document

/-- The tail of both saves: `CanvasScene::save(file)`, and on success the window takes the
name and is no longer modified. -/
def write (writes : List Char → Bool) (doc : Document) (file : List Char) : Saved :=
  if writes file then ⟨true, some file, { doc with filename := file, modified := false }⟩
  else ⟨false, some file, doc⟩

/-- The flatten question, asked when `ask`; otherwise the name stays. -/
def confirmIf (ask : Bool) (answer : FlattenAnswer) (file : List Char) : Option (List Char) :=
  if ask then confirmFlatten answer file else some file

/-- The name `saveas` goes on with: the dialog's, with the suffix of the filter when it has
none. -/
def saveasName (env : SaveEnv) (needSaveOra : Bool) : List Char :=
  if (suffix env.file).isEmpty then env.file ++ filterSuffix needSaveOra env.selectedFilter
  else env.file

/-- `MainWindow::saveas()`: the flatten question is asked when the canvas needs OpenRaster
and the name does not end with `.ora`. -/
def saveas (env : SaveEnv) (doc : Document) : Saved :=
  if env.file.isEmpty then ⟨false, none, doc⟩
  else
    match confirmIf (doc.needSaveOra && !endsWithCI (saveasName env doc.needSaveOra) ".ora".toList)
        env.flatten (saveasName env doc.needSaveOra) with
    | none => ⟨false, none, doc⟩
    | some file => write env.writes doc file

/-- `MainWindow::save()`: the flatten question is asked when the suffix is not `ora` and the
canvas needs OpenRaster; `confirmFlatten` renames `filename_` itself, before the write. -/
def save (env : SaveEnv) (doc : Document) : Saved :=
  if doc.filename.isEmpty then saveas env doc
  else
    match confirmIf (suffix doc.filename ≠ "ora".toList && doc.needSaveOra) env.flatten
        doc.filename with
    | none => ⟨false, none, doc⟩
    | some file => write env.writes { doc with filename := file } file

/-- The buttons of the unsaved-changes question of `closeEvent`. -/
inductive UnsavedAnswer
  | save
  | discard
  | cancel
  deriving DecidableEq, Repr

/-- The environment of a close. -/
structure CloseEnv where
  /-- "Exit anyway" clicked in the question about the open session. -/
  exitAnyway : Bool
  /-- The answer to the unsaved-changes question. -/
  unsaved : UnsavedAnswer
  /-- What `save()` meets. -/
  save : SaveEnv

/-- A window: its document and the state of its client.  `net::Client` is not among the
sources; `logged_in_connected` is an assumption about that class, that it logs in only over
a connection. -/
structure Window where
  doc : Document
  /-- `_client->isConnected()`. -/
  connected : Bool
  /-- `_client->isLoggedIn()`. -/
  loggedIn : Bool
  logged_in_connected : loggedIn = true → connected = true

/-- `canReplace()`: no unsaved changes and no connection. -/
def Window.canReplace (w : Window) : Bool := !(w.doc.modified || w.connected)

/-- What `closeEvent` did. -/
structure Closed where
  /-- `exit()` ran; otherwise the event was ignored. -/
  exits : Bool
  /-- `disconnectFromServer()` was called. -/
  disconnects : Bool
  /-- The name handed to `CanvasScene::save`, if any. -/
  written : Option (List Char)
  /-- The document afterwards. -/
  doc : Document

/-- `MainWindow::closeEvent`. -/
def closeEvent (env : CloseEnv) (w : Window) : Closed :=
  if w.canReplace then ⟨true, false, none, w.doc⟩
  else if w.loggedIn && !env.exitAnyway then ⟨false, false, none, w.doc⟩
  else if w.doc.modified then
    match env.unsaved with
    | .save =>
      let r := save env.save w.doc
      ⟨r.ok, w.loggedIn, r.written, r.doc⟩
    | .discard => ⟨true, w.loggedIn, none, w.doc⟩
    | .cancel => ⟨false, w.loggedIn, none, w.doc⟩
  else ⟨true, w.loggedIn, none, w.doc⟩

/-! ## What one save does -/

theorem write_spec (writes : List Char → Bool) (doc : Document) (file : List Char) :
    (write writes doc file).written = some file ∧
      (write writes doc file).ok = writes file ∧
      (write writes doc file).doc =
        if writes file then { doc with filename := file, modified := false } else doc := by
  unfold write
  split <;> simp [*]

theorem confirmIf_eq_some {ask : Bool} {answer : FlattenAnswer} {file file' : List Char}
    (h : confirmIf ask answer file = some file') :
    (file' = file ∧ (ask = false ∨ answer = .flatten)) ∨
      (answer = .saveOpenRaster ∧ file' = left file (lastIndexOf '.' file) ++ ".ora".toList) := by
  unfold confirmIf at h
  cases ask with
  | false => exact .inl ⟨(Option.some.inj h).symm, .inl rfl⟩
  | true =>
    cases answer with
    | cancel => cases h
    | flatten => exact .inl ⟨(Option.some.inj h).symm, .inr rfl⟩
    | saveOpenRaster => exact .inr ⟨rfl, (Option.some.inj h).symm⟩

theorem confirmIf_of_flatten {ask : Bool} {answer : FlattenAnswer} (file : List Char)
    (h : ask = false ∨ answer = .flatten) : confirmIf ask answer file = some file := by
  rcases h with rfl | rfl
  · rfl
  · cases ask <;> rfl

theorem saveas_written (env : SaveEnv) (doc : Document) (hfile : env.file ≠ []) :
    (saveas env doc).written =
      confirmIf (doc.needSaveOra && !endsWithCI (saveasName env doc.needSaveOra) ".ora".toList)
        env.flatten (saveasName env doc.needSaveOra) := by
  unfold saveas
  rw [if_neg (by simpa using hfile)]
  split
  · next h => exact h.symm
  · next file h => rw [(write_spec _ _ _).1, h]

theorem save_written (env : SaveEnv) {doc : Document} (hname : doc.filename ≠ []) :
    (save env doc).written =
      confirmIf (suffix doc.filename ≠ "ora".toList && doc.needSaveOra) env.flatten
        doc.filename := by
  unfold save
  rw [if_neg (by simpa using hname)]
  split
  · next h => exact h.symm
  · next file h => rw [(write_spec _ _ _).1, h]

/-! ## Formats -/

theorem saveFormat_append_ora (s : List Char) : saveFormat (s ++ ".ora".toList) = .openRaster := by
  rw [saveFormat, endsWithCI_append, if_pos rfl]

/-- A path with a suffix ends with a `'.'` and that suffix. -/
theorem eq_append_suffix {path : List Char} (h : suffix path ≠ []) :
    ∃ pre, path = pre ++ '.' :: suffix path := by
  obtain ⟨dir, hdir⟩ : ∃ dir, path = dir ++ fileName path := by
    rw [fileName_eq_drop]
    exact ⟨_, (List.take_append_drop _ path).symm⟩
  dsimp only [suffix] at h ⊢
  split_ifs at h ⊢ with hdot
  · exact absurd rfl h
  · have hmem : '.' ∈ fileName path := by
      by_contra hnot
      rw [lastIndexOf_of_not_mem hnot] at hdot
      exact hdot (by decide)
    obtain ⟨pre, post, hsplit, hlen⟩ := lastIndexOf_of_mem hmem
    refine ⟨dir ++ pre, ?_⟩
    rw [← hlen, mid_neg _ _ (by decide), hsplit, List.drop_append_eq_append_drop]
    conv_lhs => rw [hdir, hsplit]
    simp

theorem saveFormat_of_suffix_ora {file : List Char} (h : suffix file = "ora".toList) :
    saveFormat file = .openRaster := by
  obtain ⟨pre, hpre⟩ := eq_append_suffix (by rw [h]; decide)
  rw [hpre, h]
  exact saveFormat_append_ora pre

/-- A name that passed the question and is flattened was not asked about, or confirmed. -/
theorem confirmIf_flattened {ask : Bool} {answer : FlattenAnswer} {file file' : List Char}
    (h : confirmIf ask answer file = some file') (hflat : saveFormat file' = .flattened) :
    file' = file ∧ (ask = false ∨ answer = .flatten) := by
  rcases confirmIf_eq_some h with h | ⟨-, rfl⟩
  · exact h
  · rw [saveFormat_append_ora] at hflat
    cases hflat

/-! ## No flattening without consent -/

/-- A canvas whose layers or annotations only OpenRaster keeps is handed to
`CanvasScene::save` under a flattening name only when the user answered "Flatten", by
`save` and by `saveas` alike. -/
theorem flattens_only_when_confirmed (env : SaveEnv) (doc : Document) {file : List Char}
    (hora : doc.needSaveOra = true) (hflat : saveFormat file = .flattened) :
    ((save env doc).written = some file → env.flatten = .flatten) ∧
      ((saveas env doc).written = some file → env.flatten = .flatten) := by
  have hsaveas : (saveas env doc).written = some file → env.flatten = .flatten := by
    intro hw
    by_cases hfile : env.file = []
    · simp [saveas, hfile] at hw
    rw [saveas_written env doc hfile] at hw
    generalize saveasName env doc.needSaveOra = name at hw
    obtain ⟨rfl, hask | hans⟩ := confirmIf_flattened hw hflat
    · simp only [hora, Bool.true_and, Bool.not_eq_false'] at hask
      rw [saveFormat, if_pos hask] at hflat
      cases hflat
    · exact hans
  refine ⟨fun hw => ?_, hsaveas⟩
  by_cases hname : doc.filename = []
  · exact hsaveas (by simpa [save, hname] using hw)
  rw [save_written env hname] at hw
  obtain ⟨rfl, hask | hans⟩ := confirmIf_flattened hw hflat
  · simp only [hora, Bool.and_true, decide_eq_false_iff_not, not_not] at hask
    rw [saveFormat_of_suffix_ora hask] at hflat
    cases hflat
  · exact hans

theorem flattens_only_when_confirmed_of_two_layers :
    (⟨"a.png".toList, true, 2, ⟨[], false⟩⟩ : Document).needSaveOra = true ∧
      saveFormat "a.png".toList = .flattened ∧
      (save ⟨"a.png".toList, [], .flatten, fun _ => true⟩
          ⟨"a.png".toList, true, 2, ⟨[], false⟩⟩).written = some "a.png".toList ∧
      (saveas ⟨"a.png".toList, [], .flatten, fun _ => true⟩
          ⟨"a.png".toList, true, 2, ⟨[], false⟩⟩).written = some "a.png".toList ∧
      (((save ⟨"a.png".toList, [], .flatten, fun _ => true⟩
            ⟨"a.png".toList, true, 2, ⟨[], false⟩⟩).written =
          some "a.png".toList → FlattenAnswer.flatten = .flatten) ∧
        ((saveas ⟨"a.png".toList, [], .flatten, fun _ => true⟩
            ⟨"a.png".toList, true, 2, ⟨[], false⟩⟩).written =
          some "a.png".toList → FlattenAnswer.flatten = .flatten)) :=
  ⟨rfl, by decide, by decide, by decide, flattens_only_when_confirmed _ _ rfl (by decide)⟩

/-! ## The name a save goes to -/

/-- The suffix `saveas` takes from a filter `Name (*.ext)` is `.ext`. -/
theorem filterSuffix_pattern (needSaveOra : Bool) {name ext : List Char} (hname : '*' ∉ name)
    (hext : ')' ∉ ext) :
    filterSuffix needSaveOra (name ++ " (*.".toList ++ ext ++ [')']) = '.' :: ext := by
  have hsf : name ++ " (*.".toList ++ ext ++ [')'] =
      (name ++ [' ', '(']) ++ '*' :: '.' :: (ext ++ [')']) := by simp
  have hsf' : name ++ " (*.".toList ++ ext ++ [')'] =
      (name ++ [' ', '(', '*']) ++ ('.' :: ext ++ [')']) := by simp
  have hstar : indexOf ['*', '.'] (name ++ " (*.".toList ++ ext ++ [')']) 0 =
      ((name.length + 2 : Nat) : Int) := by
    rw [hsf, indexOf_append_of_not_mem (by rw [indexOf_of_isPrefixOf (by simp)])
      (by simp [hname]), indexOf_of_isPrefixOf (by simp)]
    simp
  have h0 : indexOf [')'] [')'] 0 = 0 := rfl
  have hext' : ')' ∉ '.' :: ext := by simp [hext]
  have hparen : indexOf [')'] (name ++ " (*.".toList ++ ext ++ [')']) (name.length + 3) =
      ((ext.length + 1 + (name.length + 3) : Nat) : Int) := by
    rw [hsf', show name.length + 3 = (name ++ [' ', '(', '*']).length by simp,
      indexOf_from_append (by rw [indexOf_append_of_not_mem h0.ge hext', h0]; omega),
      indexOf_append_of_not_mem h0.ge hext', h0]
    simp
  unfold filterSuffix
  rw [if_neg (by simp)]
  simp only [show "*.".toList = ['*', '.'] from rfl, hstar]
  rw [show (((name.length + 2 : Nat) : Int) + 1).toNat = name.length + 3 by omega, hparen, mid,
    if_neg (by omega), show (((ext.length + 1 + (name.length + 3) : Nat) : Int) -
      ((name.length + 2 : Nat) + 1)).toNat = ext.length + 1 by omega, hsf',
    List.drop_left' (by simp)]
  simp

/-- A name without a suffix saved through a filter `Name (*.ext)` is written with `.ext`
appended, and `ext` is then its suffix, unless the flatten question changed it. -/
theorem saveas_names_by_filter (env : SaveEnv) (doc : Document) {name ext : List Char}
    (hfilter : env.selectedFilter = name ++ " (*.".toList ++ ext ++ [')']) (hname : '*' ∉ name)
    (hext : ')' ∉ ext ∧ '.' ∉ ext ∧ '/' ∉ ext) (hfile : env.file ≠ [])
    (hdot : '.' ∉ fileName env.file)
    (hask : doc.needSaveOra = false ∨ env.flatten = .flatten ∨ ext = "ora".toList) :
    (saveas env doc).written = some (env.file ++ '.' :: ext) ∧
      suffix (env.file ++ '.' :: ext) = ext := by
  have hsaveasName : saveasName env doc.needSaveOra = env.file ++ '.' :: ext := by
    rw [saveasName, suffix_of_not_mem hdot, hfilter, filterSuffix_pattern _ hname hext.1]
    rfl
  refine ⟨?_, suffix_append_dot _ hext.2.1 hext.2.2⟩
  rw [saveas_written env doc hfile, hsaveasName]
  apply confirmIf_of_flatten
  rcases hask with h | h | rfl
  · simp [h]
  · exact .inr h
  · have hends : endsWithCI (env.file ++ '.' :: "ora".toList) ".ora".toList = true :=
      endsWithCI_append _ _
    exact .inl (by rw [hends]; simp)

theorem saveas_names_by_filter_of_png :
    ("PNG (*.png)".toList = "PNG".toList ++ " (*.".toList ++ "png".toList ++ [')'] ∧
      '*' ∉ "PNG".toList ∧ (')' ∉ "png".toList ∧ '.' ∉ "png".toList ∧ '/' ∉ "png".toList) ∧
      "drawing".toList ≠ [] ∧ '.' ∉ fileName "drawing".toList ∧
      ((⟨[], false, 1, ⟨[], false⟩⟩ : Document).needSaveOra = false ∨
        FlattenAnswer.cancel = .flatten ∨ "png".toList = "ora".toList)) ∧
    (saveas ⟨"drawing".toList, "PNG (*.png)".toList, .cancel, fun _ => true⟩
        ⟨[], false, 1, ⟨[], false⟩⟩).written = some ("drawing".toList ++ '.' :: "png".toList) ∧
      suffix ("drawing".toList ++ '.' :: "png".toList) = "png".toList :=
  ⟨⟨by decide, by decide, by decide, by decide, by decide, .inl rfl⟩,
    @saveas_names_by_filter ⟨"drawing".toList, "PNG (*.png)".toList, .cancel, fun _ => true⟩
      ⟨[], false, 1, ⟨[], false⟩⟩ "PNG".toList "png".toList (by decide) (by decide) (by decide)
      (by decide) (by decide) (.inl rfl)⟩

theorem filterSuffix_all_files (needSaveOra : Bool) :
    filterSuffix needSaveOra "All files (*)".toList = "All files (*".toList := by
  cases needSaveOra <;> rfl

/-- The filter "All files (*)" has no `"*."`, so `saveas` appends the filter's own text up to
its `')'`: a name without a suffix is written as the name followed by `All files (*`, which
still has no suffix from which `QImage::save` could take a format. -/
theorem saveas_all_files_filter (env : SaveEnv) (doc : Document)
    (hfilter : env.selectedFilter = "All files (*)".toList) (hfile : env.file ≠ [])
    (hdot : '.' ∉ fileName env.file) (hask : doc.needSaveOra = false ∨ env.flatten = .flatten) :
    (saveas env doc).written = some (env.file ++ "All files (*".toList) ∧
      suffix (env.file ++ "All files (*".toList) = [] := by
  have hname : saveasName env doc.needSaveOra = env.file ++ "All files (*".toList := by
    rw [saveasName, suffix_of_not_mem hdot, hfilter, filterSuffix_all_files]
    rfl
  refine ⟨?_, suffix_append_of_not_mem hdot (by decide) (by decide)⟩
  rw [saveas_written env doc hfile, hname]
  exact confirmIf_of_flatten _ (hask.imp (fun h => by simp [h]) id)

theorem saveas_all_files_filter_of_drawing :
    ("All files (*)".toList = "All files (*)".toList ∧ "drawing".toList ≠ [] ∧
      '.' ∉ fileName "drawing".toList ∧
      ((⟨[], false, 1, ⟨[], false⟩⟩ : Document).needSaveOra = false ∨
        FlattenAnswer.cancel = .flatten)) ∧
    (saveas ⟨"drawing".toList, "All files (*)".toList, .cancel, fun _ => true⟩
        ⟨[], false, 1, ⟨[], false⟩⟩).written = some ("drawing".toList ++ "All files (*".toList) ∧
      suffix ("drawing".toList ++ "All files (*".toList) = [] :=
  ⟨⟨rfl, by decide, by decide, .inl rfl⟩,
    saveas_all_files_filter ⟨"drawing".toList, "All files (*)".toList, .cancel, fun _ => true⟩
      ⟨[], false, 1, ⟨[], false⟩⟩ rfl (by decide) (by decide) (.inl rfl)⟩

/-- "Save as OpenRaster" cuts the name at its last `'.'` and appends `ora`; when the file
name has no `'.'` but the directory has, `save` writes `dir.ora` beside the directory. -/
theorem save_open_raster_cuts_directory (env : SaveEnv) (doc : Document)
    {dir sub name : List Char} (hfile : doc.filename = dir ++ '.' :: (sub ++ '/' :: name))
    (hsub : '.' ∉ sub) (hname : '.' ∉ name ∧ '/' ∉ name) (hora : doc.needSaveOra = true)
    (hans : env.flatten = .saveOpenRaster) :
    (save env doc).written = some (dir ++ ".ora".toList) := by
  have hne : doc.filename ≠ [] := by simp [hfile]
  have hsuffix : suffix doc.filename = [] := by
    apply suffix_of_not_mem
    rw [hfile, show dir ++ '.' :: (sub ++ '/' :: name) = (dir ++ '.' :: sub) ++ '/' :: name by
      simp, fileName_append_slash _ hname.2]
    exact hname.1
  have hask : (decide (suffix doc.filename ≠ "ora".toList) && doc.needSaveOra) = true := by
    simp [hsuffix, hora]
  rw [save_written env hne, hask, hans, confirmIf, if_pos rfl, confirmFlatten, hfile,
    lastIndexOf_append_cons dir (by simp [hsub, hname.1]), left_append_length]

theorem save_open_raster_cuts_directory_of_dotted_directory :
    ("my.pics/drawing".toList = "my".toList ++ '.' :: ("pics".toList ++ '/' :: "drawing".toList) ∧
      '.' ∉ "pics".toList ∧ ('.' ∉ "drawing".toList ∧ '/' ∉ "drawing".toList) ∧
      (⟨"my.pics/drawing".toList, true, 2, ⟨[], false⟩⟩ : Document).needSaveOra = true ∧
      FlattenAnswer.saveOpenRaster = .saveOpenRaster) ∧
    (save ⟨[], [], .saveOpenRaster, fun _ => true⟩
        ⟨"my.pics/drawing".toList, true, 2, ⟨[], false⟩⟩).written =
      some ("my".toList ++ ".ora".toList) :=
  ⟨⟨by decide, by decide, by decide, rfl, rfl⟩,
    @save_open_raster_cuts_directory ⟨[], [], .saveOpenRaster, fun _ => true⟩
      ⟨"my.pics/drawing".toList, true, 2, ⟨[], false⟩⟩ "my".toList "pics".toList
      "drawing".toList (by decide) (by decide) (by decide) rfl rfl⟩

/-- `save` compares the suffix with `ora` case-sensitively, `CanvasScene::save` does not: a
file `stem.ORA`, which would be written as OpenRaster, meets the flatten question anyway;
"Cancel" then saves nothing, and "Save as OpenRaster" renames it `stem.ora`. -/
theorem save_questions_upper_case_ora (env : SaveEnv) (doc : Document) {stem : List Char}
    (hfile : doc.filename = stem ++ ".ORA".toList) (hora : doc.needSaveOra = true) :
    saveFormat doc.filename = .openRaster ∧
      (env.flatten = .cancel → (save env doc).written = none) ∧
      (env.flatten = .saveOpenRaster → (save env doc).written = some (stem ++ ".ora".toList)) := by
  have hne : doc.filename ≠ [] := by simp [hfile]
  have hsuffix : suffix doc.filename = "ORA".toList := by
    rw [hfile]
    exact suffix_append_dot stem (t := "ORA".toList) (by decide) (by decide)
  have hask : (decide (suffix doc.filename ≠ "ora".toList) && doc.needSaveOra) = true := by
    rw [hsuffix, hora]
    decide
  have hlast : lastIndexOf '.' (stem ++ ".ORA".toList) = stem.length :=
    lastIndexOf_append_cons stem (t := "ORA".toList) (by decide)
  refine ⟨?_, fun hans => ?_, fun hans => ?_⟩
  · rw [hfile, saveFormat, endsWithCI_append_of_length_le stem (t := ".ORA".toList)
      (u := ".ora".toList) (by decide), if_pos (by decide)]
  · rw [save_written env hne, hask, hans]
    rfl
  · rw [save_written env hne, hask, hans, confirmIf, if_pos rfl, confirmFlatten, hfile, hlast,
      left_append_length]

theorem save_questions_upper_case_ora_of_stem :
    ("a.ORA".toList = "a".toList ++ ".ORA".toList ∧
      (⟨"a.ORA".toList, true, 2, ⟨[], false⟩⟩ : Document).needSaveOra = true) ∧
    saveFormat "a.ORA".toList = .openRaster ∧
      (FlattenAnswer.cancel = .cancel → (save ⟨[], [], .cancel, fun _ => true⟩
        ⟨"a.ORA".toList, true, 2, ⟨[], false⟩⟩).written = none) ∧
      (FlattenAnswer.cancel = .saveOpenRaster → (save ⟨[], [], .cancel, fun _ => true⟩
        ⟨"a.ORA".toList, true, 2, ⟨[], false⟩⟩).written = some ("a".toList ++ ".ora".toList)) :=
  ⟨⟨by decide, rfl⟩, @save_questions_upper_case_ora ⟨[], [], .cancel, fun _ => true⟩
    ⟨"a.ORA".toList, true, 2, ⟨[], false⟩⟩ "a".toList (by decide) rfl⟩

end Drawpile.Client
