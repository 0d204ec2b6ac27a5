import Drawpile.Canvas.Annotations

/-!
# The drawing tools of `MainWindow`

`initActions` puts the eight tool actions in the exclusive group `_drawingtools`, with the
brush checked and `lasttool_` the brush, and connects the group's `triggered` signal to
`selectTool`.  `selectTool` records the tool in `lasttool_`, turns the annotation borders
on for the annotation tool only, and sends the tool to the view with `toolChanged`.
`eraserNear` switches to the eraser while a tablet's eraser end is near and back to
`lasttool_` when it leaves.  `toggleAnnotations`, run by the checkable "Hide annotations"
action, disables the annotation tool, hides the annotations and puts the brush where the
annotation tool was checked or remembered.  `readSettings` triggers the tool that
`writeSettings` saved, and `paste` triggers the selection tool.

`ToolState` holds what these members read and write: the checked action, `lasttool_`,
whether annotations are hidden, the scene's annotation flags and items, and the tool the
view was sent last.  `QAction::trigger()` on an action of the group checks it and calls
`selectTool` through the group's signal: that is `trigger`.  The user triggers an action
only while it is enabled, and the annotation tool is disabled while annotations are
hidden.  `_drawingtools` is also disabled while a session connects; that only removes
runs and is not modelled.  The state tracker adds and removes annotation items: the event
`annotationsChanged` replaces the items with any list.

## Strategy

The `@[simp]` lemmas after `trigger` say once what a trigger does to each field, and
`ToolInv.trigger` that a trigger of a tool which is not a hidden annotation tool
establishes the invariant.  Every event is at most two triggers and a few field updates,
so `ToolInv.apply` is one case per event, and `reachable_toolInv` an induction over
`Reachable`.
-/

namespace Drawpile.Client

open Drawpile.Canvas

/-- The tool actions of `_drawingtools`; `selectTool` maps each to the `tools::Type` of the
same name, `annotationTool` to `ANNOTATION`. -/
inductive Tool
  | pen | brush | eraser | picker | line | rectangle | annotationTool | selection
  deriving DecidableEq, Repr

/-- `_drawingtools->actions()`, in the order `initActions` adds them. -/
def Tool.actions : List Tool :=
  [.pen, .brush, .eraser, .picker, .line, .rectangle, .annotationTool, .selection]

/-- The members of `MainWindow` and of its `CanvasScene` that the tool actions use. -/
structure ToolState where
  /-- `_drawingtools->checkedAction()`. -/
  checked : Tool
  /-- `lasttool_`. -/
  lasttool : Tool
  /-- `hideannotations_->isChecked()`; the annotation tool is enabled when it is off. -/
  hidden : Bool
  /-- The scene's items and `_showAnnotationBorders`. -/
  canvas : AnnotationScene
  /-- The tool last sent to the view with `toolChanged`. -/
  viewTool : Tool
  deriving DecidableEq, Repr

namespace ToolState

/-- After `initActions`, before `readSettings`: the brush checked and remembered, and an
empty scene without borders.  The view is sent a tool by `readSettings` right after. -/
def initial : ToolState := ⟨.brush, .brush, false, ⟨[], false⟩, .brush⟩

/-- `selectTool(tool)`. -/
def selectTool (tool : Tool) (st : ToolState) : ToolState :=
  { st with
    lasttool := tool
    canvas := st.canvas.showAnnotationBorders (tool == .annotationTool)
    viewTool := tool }

/-- `QAction::trigger()` on a tool action: the group checks it and calls `selectTool`. -/
def trigger (tool : Tool) (st : ToolState) : ToolState :=
  { st with checked := tool }.selectTool tool

/-- `eraserNear(near)`: trigger the eraser keeping `lasttool_`, or trigger `lasttool_`. -/
def eraserNear (near : Bool) (st : ToolState) : ToolState :=
  if near then { st.trigger .eraser with lasttool := st.lasttool } else st.trigger st.lasttool

/-- `toggleAnnotations(hidden)`. -/
def toggleAnnotations (hidden : Bool) (st : ToolState) : ToolState :=
  let st := { st with hidden := hidden, canvas := st.canvas.showAnnotations !hidden }
  if hidden then
    let st := if st.checked = .annotationTool then st.trigger .brush else st
    if st.lasttool = .annotationTool then { st with lasttool := .brush } else st
  else st

/-- The tool part of `readSettings`: the saved index, `0` when out of range, triggered. -/
def restoreTool (tool : Int) (st : ToolState) : ToolState :=
  let tool := if tool < 0 ∨ Tool.actions.length ≤ tool then 0 else tool
  st.trigger (Tool.actions.getD tool.toNat .pen)

/-- The tool part of `writeSettings`: the index of the checked action. -/
def savedTool (st : ToolState) : Int := Tool.actions.indexOf st.checked

@[simp] theorem trigger_checked (tool : Tool) (st : ToolState) :
    (st.trigger tool).checked = tool := rfl

@[simp] theorem trigger_lasttool (tool : Tool) (st : ToolState) :
    (st.trigger tool).lasttool = tool := rfl

@[simp] theorem trigger_hidden (tool : Tool) (st : ToolState) :
    (st.trigger tool).hidden = st.hidden := rfl

@[simp] theorem trigger_viewTool (tool : Tool) (st : ToolState) :
    (st.trigger tool).viewTool = tool := rfl

@[simp] theorem trigger_canvas (tool : Tool) (st : ToolState) :
    (st.trigger tool).canvas = st.canvas.showAnnotationBorders (tool == .annotationTool) := rfl

end ToolState

/-- What happens to the tools of a window. -/
inductive ToolEvent
  /-- The user triggers a tool action. -/
  | select (tool : Tool)
  /-- The tablet calls `eraserNear(near)`. -/
  | eraserNear (near : Bool)
  /-- The user triggers "Hide annotations", which toggles and calls `toggleAnnotations`. -/
  | hideAnnotations
  /-- `paste()` triggers the selection tool. -/
  | paste
  /-- Annotation items are created or deleted by the state tracker. -/
  | annotationsChanged (items : List SceneItem)

namespace ToolEvent

/-- Only an enabled action can be triggered by the user. -/
def enabled : ToolEvent → ToolState → Bool
  | select .annotationTool, st => !st.hidden
  | _, _ => true

/-- The effect of an event. -/
def apply : ToolEvent → ToolState → ToolState
  | select tool, st => st.trigger tool
  | eraserNear near, st => st.eraserNear near
  | hideAnnotations, st => st.toggleAnnotations !st.hidden
  | paste, st => st.trigger .selection
  | annotationsChanged items, st => { st with canvas := { st.canvas with items := items } }

end ToolEvent

/-- The states of a window: `readSettings` restores some saved tool, then enabled events
follow. -/
inductive Reachable : ToolState → Prop
  | restore (tool : Int) : Reachable (ToolState.initial.restoreTool tool)
  | step {st : ToolState} (e : ToolEvent) :
      Reachable st → e.enabled st = true → Reachable (e.apply st)

/-- The invariant of the tool actions. -/
structure ToolInv (st : ToolState) : Prop where
  /-- The borders are on exactly for the annotation tool. -/
  borders : st.canvas.showBorders = (st.checked == .annotationTool)
  /-- The view draws with the checked tool. -/
  view : st.viewTool = st.checked
  /-- The checked tool is the remembered one, or the eraser while it is near. -/
  last : st.checked = st.lasttool ∨ st.checked = .eraser
  /-- While annotations are hidden the annotation tool is not checked ... -/
  hidden_checked : st.hidden = true → st.checked ≠ .annotationTool
  /-- ... and not remembered for the eraser to return to. -/
  hidden_last : st.hidden = true → st.lasttool ≠ .annotationTool

namespace ToolInv

theorem trigger {st : ToolState} {tool : Tool} (h : st.hidden = true → tool ≠ .annotationTool) :
    ToolInv (st.trigger tool) :=
  ⟨rfl, rfl, .inl rfl, h, h⟩

theorem eraserNear {st : ToolState} (h : ToolInv st) (near : Bool) :
    ToolInv (st.eraserNear near) := by
  cases near with
  | true => exact ⟨rfl, rfl, .inr rfl, fun _ => (by decide : Tool.eraser ≠ .annotationTool),
      h.hidden_last⟩
  | false => exact trigger h.hidden_last

theorem toggleAnnotations {st : ToolState} (h : ToolInv st) (hidden : Bool) :
    ToolInv (st.toggleAnnotations hidden) := by
  unfold ToolState.toggleAnnotations
  cases hidden with
  | false => exact ⟨h.borders, h.view, h.last, nofun, nofun⟩
  | true =>
    by_cases hc : st.checked = .annotationTool
    · simp only [hc, if_true, ToolState.trigger_lasttool]
      exact trigger fun _ => by decide
    · by_cases hl : st.lasttool = .annotationTool
      · have he : st.checked = .eraser := h.last.resolve_left fun he => hc (he.trans hl)
        simp only [hc, hl, if_true, if_false]
        exact ⟨h.borders, h.view, .inr he, fun _ => hc,
          fun _ => (by decide : Tool.brush ≠ .annotationTool)⟩
      · simp only [hc, hl, if_false]
        exact ⟨h.borders, h.view, h.last, fun _ => hc, fun _ => hl⟩

/-- Every enabled event keeps the invariant. -/
theorem apply {st : ToolState} (h : ToolInv st) {e : ToolEvent} (he : e.enabled st = true) :
    ToolInv (e.apply st) := by
  cases e with
  | select tool =>
    refine trigger fun hh ht => ?_
    subst ht
    simp [ToolEvent.enabled, hh] at he
  | eraserNear near => exact h.eraserNear near
  | hideAnnotations => exact h.toggleAnnotations _
  | paste => exact trigger fun _ => by decide
  | annotationsChanged items => exact ⟨h.borders, h.view, h.last, h.hidden_checked, h.hidden_last⟩

end ToolInv

/-- In every state a window reaches, the annotation borders and the view's tool follow the
checked tool, the checked tool is the remembered one or the eraser, and while annotations
are hidden the annotation tool is neither checked nor remembered. -/
theorem reachable_toolInv {st : ToolState} (h : Reachable st) : ToolInv st := by
  induction h with
  | restore tool => exact ToolInv.trigger nofun
  | step e _ he ih => exact ih.apply he

theorem reachable_toolInv_of_hidden_annotation_tool :
    Reachable (ToolEvent.hideAnnotations.apply (ToolState.initial.restoreTool 6)) ∧
      ToolInv (ToolEvent.hideAnnotations.apply (ToolState.initial.restoreTool 6)) :=
  have h := Reachable.step .hideAnnotations (.restore 6) rfl
  ⟨h, reachable_toolInv h⟩

end Drawpile.Client
