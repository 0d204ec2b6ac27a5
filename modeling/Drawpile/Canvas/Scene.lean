import Mathlib
import Drawpile.CTypes

/-!
# The preview strokes of `CanvasScene`

A stroke drawn locally is shown at once as a chain of `QGraphicsLineItem`s, before its
messages have gone through the server.  `CanvasScene` keeps the items showing pending
segments in `_previewstrokes`, oldest first, and recycles hidden items through
`_previewstrokecache`.  Five members touch the two lists: `initCanvas`,
`startPreview`, `addPreview`, `takePreview` (when the server echoes segments back)
and `clearPreviews` (run by the two-second timer).

The scene's line items live on a heap `items : Ptr → Option LineItem`; `alloc` hands
out the fresh address `nextPtr`.  Calling a member through a pointer and `delete`
are `none`, undefined behaviour, unless the pointer is live, so a double `delete` or
a use after free makes a run fail.  Everything else the five members do (the
canvas item, the state tracker, annotations, the `changed` signal) touches no line
item and is left out.

`penForBrush` computes a `QPen` from a brush in floating point and is not modelled:
the pen type `Pen` is a parameter, with `default` for the pen of a new `QPen`, and
`startPreview` receives `penForBrush` as a function.

The three `while` loops are run with fuel, one pass per item and one for the last
test; running out of fuel is `none`, so a result shows the fuel was enough.
`takePreview`'s `count` is a C++ `int`: `count--` overflows at `INT_MIN`.
-/

namespace Drawpile.Canvas

open Drawpile.CTypes

/-- An address on the heap of line items. -/
abbrev Ptr := Nat

/-- The coordinates of a `dpcore::Point`, all the preview reads of it. -/
structure Point where
  x : Int
  y : Int
  deriving DecidableEq, Repr

instance : Inhabited Point := ⟨⟨0, 0⟩⟩

/-- The segment a line item draws, with its pen. -/
structure Segment (Pen : Type) where
  pen : Pen
  source : Point
  target : Point
  deriving DecidableEq, Repr

/-- A `QGraphicsLineItem`: whether it is shown, and the segment it draws. -/
structure LineItem (Pen : Type) where
  visible : Bool
  segment : Segment Pen
  deriving DecidableEq, Repr

variable {Pen Brush : Type} [Inhabited Pen]

namespace LineItem

/-- `new QGraphicsLineItem()`: shown, with a default pen and an empty line. -/
def create : LineItem Pen := ⟨true, ⟨default, default, default⟩⟩

def «show» (it : LineItem Pen) : LineItem Pen := { it with visible := true }

def hide (it : LineItem Pen) : LineItem Pen := { it with visible := false }

def setPen (pen : Pen) (it : LineItem Pen) : LineItem Pen :=
  { it with segment := { it.segment with pen := pen } }

/-- `setLine(x1, y1, x2, y2)`. -/
def setLine (source target : Point) (it : LineItem Pen) : LineItem Pen :=
  { it with segment := { it.segment with source := source, target := target } }

end LineItem

/-- The members of `CanvasScene` the preview reads and writes, and the heap of line
items. -/
structure Scene (Pen : Type) where
  items : Ptr → Option (LineItem Pen)
  nextPtr : Ptr
  previewstrokes : List Ptr
  previewstrokecache : List Ptr
  lastpreview : Point
  previewpen : Pen

namespace Scene

/-- The scene as the constructor leaves it: no line item, both lists empty. -/
def init : Scene Pen := ⟨fun _ => none, 0, [], [], default, default⟩

/-- `new QGraphicsLineItem()`. -/
def alloc (sc : Scene Pen) : Ptr × Scene Pen :=
  let p := sc.nextPtr
  (p, { sc with items := Function.update sc.items p (some LineItem.create), nextPtr := p + 1 })

/-- A call `p->f()`: defined only on a live item. -/
def modify (p : Ptr) (f : LineItem Pen → LineItem Pen) (sc : Scene Pen) : Option (Scene Pen) :=
  (sc.items p).map fun it => { sc with items := Function.update sc.items p (some (f it)) }

/-- `delete p`: defined only on a live item. -/
def delete (p : Ptr) (sc : Scene Pen) : Option (Scene Pen) :=
  (sc.items p).map fun _ => { sc with items := Function.update sc.items p none }

/-- `foreach(p, ps) delete p;`. -/
def deleteAll : List Ptr → Scene Pen → Option (Scene Pen)
  | [], sc => some sc
  | p :: ps, sc => (sc.delete p).bind (deleteAll ps)

end Scene

open Scene

/-- `initCanvas`: delete every item of both lists and clear them. -/
def initCanvas (sc : Scene Pen) : Option (Scene Pen) := do
  let sc ← deleteAll sc.previewstrokes sc
  let sc := { sc with previewstrokes := [] }
  let sc ← deleteAll sc.previewstrokecache sc
  pure { sc with previewstrokecache := [] }

/-- The item `addPreview` draws with: a new one when the cache is empty, else the
cache's last item, taken out and shown again. -/
def takePreviewItem (sc : Scene Pen) : Option (Ptr × Scene Pen) :=
  match sc.previewstrokecache.getLast? with
  | none => some sc.alloc
  | some s =>
    (modify s LineItem.show { sc with previewstrokecache := sc.previewstrokecache.dropLast }).map
      fun sc => (s, sc)

/-- `addPreview(point)`: draw the segment from `_lastpreview` to `point` with
`_previewpen` and append it to `_previewstrokes`.  The clear timer it restarts is the
`clearPreviews` operation of a run. -/
def addPreview (point : Point) (sc : Scene Pen) : Option (Scene Pen) := do
  let (s, sc) ← takePreviewItem sc
  let sc ← modify s (LineItem.setPen sc.previewpen) sc
  let sc ← modify s (LineItem.setLine sc.lastpreview point) sc
  pure { sc with previewstrokes := sc.previewstrokes ++ [s], lastpreview := point }

/-- `startPreview(brush, point)`. -/
def startPreview (penForBrush : Brush → Pen) (brush : Brush) (point : Point)
    (sc : Scene Pen) : Option (Scene Pen) :=
  addPreview point { sc with previewpen := penForBrush brush, lastpreview := point }

/-- The body of the loops of `takePreview` and `clearPreviews`:
`s = _previewstrokes.takeFirst(); s->hide(); _previewstrokecache.append(s);`. -/
def hideFirstPreview (s : Ptr) (rest : List Ptr) (sc : Scene Pen) : Option (Scene Pen) :=
  (modify s LineItem.hide { sc with previewstrokes := rest }).map fun sc =>
    { sc with previewstrokecache := sc.previewstrokecache ++ [s] }

/-- `while(count-->0 && !_previewstrokes.isEmpty()) { … }` with fuel `n`: `count--` is
evaluated first, whatever the test then decides, and the test reads the old value. -/
def takePreviewLoop : Nat → CInt → Scene Pen → Option (Scene Pen)
  | 0, _, _ => none
  | n + 1, count, sc => do
    let next ← count.sub? CInt.one
    if 0 < count.val then
      match sc.previewstrokes with
      | [] => some sc
      | s :: rest => (hideFirstPreview s rest sc).bind (takePreviewLoop n next)
    else some sc

/-- `takePreview(count)`: at most `count` passes, then the test that ends the loop. -/
def takePreview (count : CInt) (sc : Scene Pen) : Option (Scene Pen) :=
  takePreviewLoop (count.val.toNat + 1) count sc

/-- The first loop of `clearPreviews`, `while(!_previewstrokes.isEmpty()) { … }`, with
fuel `n`. -/
def hidePreviewsLoop : Nat → Scene Pen → Option (Scene Pen)
  | 0, _ => none
  | n + 1, sc =>
    match sc.previewstrokes with
    | [] => some sc
    | s :: rest => (hideFirstPreview s rest sc).bind (hidePreviewsLoop n)

/-- `while(_previewstrokecache.size() > 100) delete _previewstrokecache.takeLast();`,
with fuel `n`.  `takeLast` on an empty list is undefined. -/
def trimCacheLoop : Nat → Scene Pen → Option (Scene Pen)
  | 0, _ => none
  | n + 1, sc =>
    if 100 < sc.previewstrokecache.length then
      match sc.previewstrokecache.getLast? with
      | none => none
      | some s =>
        (delete s { sc with previewstrokecache := sc.previewstrokecache.dropLast }).bind
          (trimCacheLoop n)
    else some sc

/-- `clearPreviews()`: hide every pending preview, then cut the cache to 100 items.
Each loop makes at most one pass per item of the list it shortens. -/
def clearPreviews (sc : Scene Pen) : Option (Scene Pen) :=
  (hidePreviewsLoop (sc.previewstrokes.length + 1) sc).bind fun sc =>
    trimCacheLoop (sc.previewstrokecache.length + 1) sc

/-- The calls a run of the scene is made of. -/
inductive Op (Brush : Type)
  | initCanvas
  | startPreview (brush : Brush) (point : Point)
  | addPreview (point : Point)
  | takePreview (count : CInt)
  | clearPreviews

variable (penForBrush : Brush → Pen)

def step (sc : Scene Pen) : Op Brush → Option (Scene Pen)
  | .initCanvas => initCanvas sc
  | .startPreview brush point => startPreview penForBrush brush point sc
  | .addPreview point => addPreview point sc
  | .takePreview count => takePreview count sc
  | .clearPreviews => clearPreviews sc

/-- The calls `ops` one after the other; `none` once one of them is undefined. -/
def run : Scene Pen → List (Op Brush) → Option (Scene Pen)
  | sc, [] => some sc
  | sc, op :: ops => (step penForBrush sc op).bind fun sc => run sc ops

end Drawpile.Canvas
