import Mathlib.Data.List.Basic

/-!
# The annotations of `CanvasScene`

Annotations are text boxes that live in the scene next to the canvas item.  The members
of `CanvasScene` that handle them walk `items()` and pick the annotation items by their
`type()`: `clearAnnotations`, `showAnnotations`, `showAnnotationBorders`,
`hasAnnotations`, `getAnnotationById`, `deleteAnnotation` and `getAnnotations`.
`needSaveOra` asks `hasAnnotations` whether saving to a flat image format would lose
something.

An item is `SceneItem.annotationItem` with its id, visibility and border flag, or an other
item; the scene's list is `items()` in its order.  `annotationAt` looks items up by their
geometry, which is not modelled, and the layer count of `needSaveOra` is a parameter: the
layer stack is not among the sources.

## Strategy

Every member is a `map`, `filter`, `any`, `find?` or `eraseP` over the item list, so each
spec lemma of a query is an induction over the list, or a rewrite with the library's
lemmas for the operation.  `Client.Tools` and `Client.Save` use the members that change
the items and the flag.
-/

namespace Drawpile.Canvas

/-- An item of the scene as the annotation members see it: an `AnnotationItem` with its
id, whether it is visible and whether it draws its border, or some other item. -/
inductive SceneItem
  | annotationItem (id : Int) (visible : Bool) (border : Bool)
  | other (tag : Nat)
  deriving DecidableEq, Repr

namespace SceneItem

/-- The id of an annotation item; `none` for every other item. -/
def annotationId? : SceneItem → Option Int
  | annotationItem id _ _ => some id
  | other _ => none

/-- `item->type() == AnnotationItem::Type`. -/
def isAnnotationItem (item : SceneItem) : Bool := item.annotationId?.isSome

/-- `setVisible(shown)` on an annotation item. -/
def setVisible (shown : Bool) : SceneItem → SceneItem
  | annotationItem id _ border => annotationItem id shown border
  | other tag => other tag

/-- `setShowBorder(hl)` on an annotation item. -/
def setShowBorder (hl : Bool) : SceneItem → SceneItem
  | annotationItem id visible _ => annotationItem id visible hl
  | other tag => other tag

end SceneItem

/-- The members of `CanvasScene` the annotation functions read and write: the items of the
scene and `_showAnnotationBorders`. -/
structure AnnotationScene where
  items : List SceneItem
  showBorders : Bool
  deriving DecidableEq, Repr

namespace AnnotationScene

/-- `clearAnnotations()`: the ids announced with `annotationDeleted`, in the order of
`items()`, and the scene without its annotation items. -/
def clearAnnotations (sc : AnnotationScene) : List Int × AnnotationScene :=
  (sc.items.filterMap SceneItem.annotationId?,
    { sc with items := sc.items.filter fun item => !item.isAnnotationItem })

/-- `showAnnotations(show)`: every annotation item shown or hidden. -/
def showAnnotations (shown : Bool) (sc : AnnotationScene) : AnnotationScene :=
  { sc with items := sc.items.map (SceneItem.setVisible shown) }

/-- `showAnnotationBorders(hl)`: the flag, and the border of every annotation item. -/
def showAnnotationBorders (hl : Bool) (sc : AnnotationScene) : AnnotationScene :=
  ⟨sc.items.map (SceneItem.setShowBorder hl), hl⟩

/-- `hasAnnotations()`: whether some item is an annotation. -/
def hasAnnotations (sc : AnnotationScene) : Bool := sc.items.any SceneItem.isAnnotationItem

/-- `getAnnotationById(id)`: the first annotation item with that id. -/
def getAnnotationById (id : Int) (sc : AnnotationScene) : Option SceneItem :=
  sc.items.find? fun item => item.annotationId? == some id

/-- `deleteAnnotation(id)`: whether an annotation with that id was found (and announced
with `annotationDeleted(id)`), and the scene without it. -/
def deleteAnnotation (id : Int) (sc : AnnotationScene) : Bool × AnnotationScene :=
  match sc.getAnnotationById id with
  | some _ => (true, { sc with items := sc.items.eraseP fun item => item.annotationId? == some id })
  | none => (false, sc)

/-- `getAnnotations(onlyVisible)`: the annotation items, only the visible ones when
`onlyVisible`. -/
def getAnnotations (onlyVisible : Bool) (sc : AnnotationScene) : List SceneItem :=
  sc.items.filter fun
    | .annotationItem _ visible _ => !onlyVisible || visible
    | .other _ => false

/-- `needSaveOra()` for a layer stack of `layers` layers: more than one layer, or an
annotation. -/
def needSaveOra (layers : Nat) (sc : AnnotationScene) : Bool := 1 < layers || sc.hasAnnotations

/-! ## Queries -/

/-- `hasAnnotations` stops at the first annotation; it agrees with asking whether
`getAnnotations(false)` finds one. -/
theorem hasAnnotations_eq (sc : AnnotationScene) :
    sc.hasAnnotations = !(sc.getAnnotations false).isEmpty := by
  obtain ⟨items, hl⟩ := sc
  simp only [hasAnnotations, getAnnotations]
  induction items with
  | nil => rfl
  | cons item items ih =>
    cases item <;> simp [SceneItem.isAnnotationItem, SceneItem.annotationId?, ih]

/-- `clearAnnotations` announces the id of every annotation, in order, and leaves none. -/
theorem clearAnnotations_spec (sc : AnnotationScene) :
    (sc.clearAnnotations.1 = (sc.getAnnotations false).filterMap SceneItem.annotationId?) ∧
      sc.clearAnnotations.2.hasAnnotations = false := by
  obtain ⟨items, hl⟩ := sc
  simp only [clearAnnotations, getAnnotations, hasAnnotations]
  induction items with
  | nil => simp
  | cons item items ih =>
    cases item <;> simp_all [SceneItem.isAnnotationItem, SceneItem.annotationId?]

/-- `deleteAnnotation` reports whether `getAnnotationById` finds the id, and removes
exactly one item, an annotation with that id, when it does. -/
theorem deleteAnnotation_spec (id : Int) (sc : AnnotationScene) :
    (sc.deleteAnnotation id).1 = (sc.getAnnotationById id).isSome ∧
      (sc.deleteAnnotation id).2.items.length + (if (sc.deleteAnnotation id).1 then 1 else 0) =
        sc.items.length := by
  unfold deleteAnnotation
  cases hfind : sc.getAnnotationById id with
  | none => simp
  | some item =>
    have hmem := List.mem_of_find?_eq_some hfind
    have hp := List.find?_some hfind
    have hlen := List.length_eraseP_of_mem (p := fun item => item.annotationId? == some id) hmem hp
    have hpos : 0 < sc.items.length := List.length_pos_of_mem hmem
    simp only [Option.isSome_some, if_true, hlen, true_and]
    omega

end AnnotationScene

end Drawpile.Canvas
