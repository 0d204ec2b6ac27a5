import Drawpile.Canvas.Scene

/-!
# The preview pool invariant

`PoolInv` is what every reachable scene satisfies: the two lists hold no item twice,
the items they hold are exactly the live line items, those of `_previewstrokes` are
shown and those of `_previewstrokecache` hidden, and every live address is below the
allocator's next one.

What the pool is for is `PreviewQueue`: the segments drawn locally and not yet
echoed by the server, oldest first.  `Scene.toQueue` reads it off a scene, the
segments of the items of `_previewstrokes` in list order.

## Strategy

One spec lemma per member says what it returns on a scene that satisfies `PoolInv`:
`initCanvas_eq`, `addPreview_spec`, `takePreviewLoop_spec`, `hidePreviewsLoop_spec`
and `trimCacheLoop_spec`.  Each loop is proved by induction on its fuel, from the
one-pass lemmas `hideFirstPreview_spec` and `trimCachePass_spec`, whose effects compose
as `Retired` and `Trimmed`.  A pass changes one item, and the frame rule
`PoolInv.frame` reduces its invariant to that item.  `step_spec` then says, for every
call but `takePreview(INT_MIN)`, that it is defined, keeps `PoolInv`, moves the
abstract queue as `PreviewQueue.step` does, and allocates only when every item is
pending; `run_spec` lifts it to runs.
-/

namespace Drawpile.Canvas

open Drawpile.CTypes Scene

variable {Pen Brush : Type}

/-! ## The abstract queue -/

/-- The pending segments, oldest first, the point the next one starts from, and the
pen it is drawn with. -/
structure PreviewQueue (Pen : Type) where
  pending : List (Segment Pen)
  last : Point
  pen : Pen

namespace PreviewQueue

def init [Inhabited Pen] : PreviewQueue Pen := ⟨[], default, default⟩

/-- Drawing appends a segment; an echo of `count` segments retires the `count` oldest;
clearing and a new canvas retire them all. -/
def step (penForBrush : Brush → Pen) (q : PreviewQueue Pen) : Op Brush → PreviewQueue Pen
  | .initCanvas => { q with pending := [] }
  | .startPreview brush point =>
    ⟨q.pending ++ [⟨penForBrush brush, point, point⟩], point, penForBrush brush⟩
  | .addPreview point =>
    { q with pending := q.pending ++ [⟨q.pen, q.last, point⟩], last := point }
  | .takePreview count => { q with pending := q.pending.drop count.val.toNat }
  | .clearPreviews => { q with pending := [] }

def run (penForBrush : Brush → Pen) (q : PreviewQueue Pen) (ops : List (Op Brush)) :
    PreviewQueue Pen :=
  ops.foldl (step penForBrush) q

/-- The largest number of segments pending at once along a run, its start included. -/
def peak (penForBrush : Brush → Pen) : PreviewQueue Pen → List (Op Brush) → Nat
  | q, [] => q.pending.length
  | q, op :: ops => max q.pending.length (peak penForBrush (q.step penForBrush op) ops)

theorem length_le_peak (penForBrush : Brush → Pen) (q : PreviewQueue Pen)
    (ops : List (Op Brush)) :
    q.pending.length ≤ q.peak penForBrush ops := by
  cases ops <;> simp [peak]

end PreviewQueue

/-- The segments of the items of `_previewstrokes`, in list order. -/
def Scene.pendingSegments (sc : Scene Pen) : List (Segment Pen) :=
  sc.previewstrokes.filterMap fun p => (sc.items p).map LineItem.segment

def Scene.toQueue (sc : Scene Pen) : PreviewQueue Pen :=
  ⟨sc.pendingSegments, sc.lastpreview, sc.previewpen⟩

/-- The live line items, counted over the addresses handed out so far. -/
def Scene.liveCount (sc : Scene Pen) : Nat :=
  ((List.range sc.nextPtr).filter fun p => (sc.items p).isSome).length

/-- The items the two lists hold; on a scene with the invariant, the live items
(`PoolInv.liveCount_eq`). -/
def Scene.poolSize (sc : Scene Pen) : Nat :=
  sc.previewstrokes.length + sc.previewstrokecache.length

/-! ## The invariant -/

structure PoolInv (sc : Scene Pen) : Prop where
  nodup : (sc.previewstrokes ++ sc.previewstrokecache).Nodup
  shown : ∀ p ∈ sc.previewstrokes, (sc.items p).map LineItem.visible = some true
  hidden : ∀ p ∈ sc.previewstrokecache, (sc.items p).map LineItem.visible = some false
  live : ∀ p, (sc.items p).isSome → p ∈ sc.previewstrokes ++ sc.previewstrokecache
  lt_next : ∀ p, (sc.items p).isSome → p < sc.nextPtr

theorem PoolInv.init [Inhabited Pen] : PoolInv (Scene.init : Scene Pen) :=
  ⟨List.nodup_nil, by simp [Scene.init], by simp [Scene.init], by simp [Scene.init],
    by simp [Scene.init]⟩

variable {sc : Scene Pen}

theorem PoolInv.isSome_of_mem (h : PoolInv sc) {p : Ptr}
    (hp : p ∈ sc.previewstrokes ++ sc.previewstrokecache) : (sc.items p).isSome := by
  rcases List.mem_append.mp hp with hp | hp
  · have := h.shown p hp
    cases hi : sc.items p <;> simp_all
  · have := h.hidden p hp
    cases hi : sc.items p <;> simp_all

theorem PoolInv.isSome_iff (h : PoolInv sc) (p : Ptr) :
    (sc.items p).isSome ↔ p ∈ sc.previewstrokes ++ sc.previewstrokecache :=
  ⟨h.live p, h.isSome_of_mem⟩

/-- The allocator's next address is not in use. -/
theorem PoolInv.next_not_mem (h : PoolInv sc) :
    sc.nextPtr ∉ sc.previewstrokes ++ sc.previewstrokecache :=
  fun hp => Nat.lt_irrefl _ (h.lt_next _ (h.isSome_of_mem hp))

/-- The live items are those of the two lists. -/
theorem PoolInv.liveCount_eq (h : PoolInv sc) :
    sc.liveCount = sc.previewstrokes.length + sc.previewstrokecache.length := by
  rw [← List.length_append, Scene.liveCount]
  apply List.Perm.length_eq
  rw [List.perm_ext_iff_of_nodup ((List.nodup_range _).filter _) h.nodup]
  intro p
  simp only [List.mem_filter, List.mem_range]
  exact ⟨fun hp => h.live p hp.2, fun hp => ⟨h.lt_next p (h.isSome_of_mem hp),
    h.isSome_of_mem hp⟩⟩

/-- What the invariant asks of one address. -/
structure PoolInv.At (sc : Scene Pen) (p : Ptr) : Prop where
  shown : p ∈ sc.previewstrokes → (sc.items p).map LineItem.visible = some true
  hidden : p ∈ sc.previewstrokecache → (sc.items p).map LineItem.visible = some false
  live : (sc.items p).isSome → p ∈ sc.previewstrokes ++ sc.previewstrokecache
  lt_next : (sc.items p).isSome → p < sc.nextPtr

/-- Frame rule: a scene that agrees with `sc` away from `s`, in its items and in which
list holds each address, and whose allocator has not gone back, keeps the invariant of
`sc` everywhere but at `s`. -/
theorem PoolInv.frame (h : PoolInv sc) {sc' : Scene Pen} {s : Ptr}
    (hnd : (sc'.previewstrokes ++ sc'.previewstrokecache).Nodup)
    (hstrokes : ∀ p ≠ s, p ∈ sc'.previewstrokes ↔ p ∈ sc.previewstrokes)
    (hcache : ∀ p ≠ s, p ∈ sc'.previewstrokecache ↔ p ∈ sc.previewstrokecache)
    (hitems : ∀ p ≠ s, sc'.items p = sc.items p) (hnext : sc.nextPtr ≤ sc'.nextPtr)
    (hs : PoolInv.At sc' s) : PoolInv sc' := by
  have hat : ∀ p, PoolInv.At sc' p := fun p => by
    by_cases hp : p = s
    · exact hp ▸ hs
    · refine ⟨fun hm => ?_, fun hm => ?_, fun hi => ?_, fun hi => ?_⟩ <;>
        rw [hitems p hp] at * <;> simp only [List.mem_append, hstrokes p hp, hcache p hp] at *
      · exact h.shown p hm
      · exact h.hidden p hm
      · simpa using h.live p hi
      · exact lt_of_lt_of_le (h.lt_next p hi) hnext
  exact ⟨hnd, fun p => (hat p).shown, fun p => (hat p).hidden, fun p => (hat p).live,
    fun p => (hat p).lt_next⟩

/-! ## The heap -/

namespace Scene

theorem delete_of_isSome {p : Ptr} (h : (sc.items p).isSome) :
    sc.delete p = some { sc with items := Function.update sc.items p none } := by
  obtain ⟨it, hit⟩ := Option.isSome_iff_exists.mp h
  simp [delete, hit]

/-- Deleting distinct live items one after the other clears exactly their addresses. -/
theorem deleteAll_eq : ∀ (ps : List Ptr) (sc : Scene Pen), ps.Nodup →
    (∀ p ∈ ps, (sc.items p).isSome) →
    deleteAll ps sc = some { sc with items := fun q => if q ∈ ps then none else sc.items q }
  | [], sc, _, _ => by simp [deleteAll]
  | p :: ps, sc, hnd, hlive => by
    have hp : p ∉ ps := (List.nodup_cons.mp hnd).1
    rw [deleteAll, delete_of_isSome (hlive p (List.mem_cons_self _ _)), Option.some_bind,
      deleteAll_eq ps _ (List.nodup_cons.mp hnd).2]
    · congr 2
      funext q
      by_cases hq : q = p
      · subst hq
        simp [hp]
      · simp [hq, Function.update_noteq hq]
    · intro q hq
      have hne : q ≠ p := fun heq => hp (heq ▸ hq)
      simpa [Function.update_noteq hne] using hlive q (List.mem_cons_of_mem _ hq)

end Scene

/-! ## `initCanvas` -/

/-- On a scene with the invariant, `initCanvas` deletes every line item and empties
both lists; no item is deleted twice. -/
theorem initCanvas_eq (h : PoolInv sc) :
    initCanvas sc =
      some { sc with items := fun _ => none, previewstrokes := [], previewstrokecache := [] } := by
  have hs := List.nodup_append.mp h.nodup
  have h₁ := deleteAll_eq sc.previewstrokes sc hs.1
    (fun p hp => h.isSome_of_mem (List.mem_append_left _ hp))
  simp only [initCanvas, Option.bind_eq_bind, h₁, Option.some_bind]
  rw [deleteAll_eq _ _ hs.2.1
    (fun q hq => by
      dsimp only
      rw [if_neg (fun h' => hs.2.2 h' hq)]
      exact h.isSome_of_mem (List.mem_append_right _ hq))]
  simp only [Option.some_bind, Option.pure_def]
  congr 2
  funext q
  have := h.live q
  split_ifs <;> simp_all

/-- The scene `initCanvas` leaves satisfies the invariant. -/
theorem PoolInv.clear (sc : Scene Pen) :
    PoolInv { sc with items := fun _ => none, previewstrokes := [], previewstrokecache := [] } :=
  ⟨List.nodup_nil, by simp, by simp, by simp, by simp⟩

/-! ## Retiring the oldest previews -/

theorem pendingSegments_congr {sc sc' : Scene Pen} (hs : sc'.previewstrokes = sc.previewstrokes)
    (hi : ∀ p ∈ sc.previewstrokes, sc'.items p = sc.items p) :
    sc'.pendingSegments = sc.pendingSegments := by
  rw [Scene.pendingSegments, Scene.pendingSegments, hs]
  exact List.filterMap_congr fun p hp => by rw [hi p hp]

/-- `sc'` is `sc` with its `m` oldest previews hidden and moved to the end of the cache. -/
structure Retired (m : Nat) (sc sc' : Scene Pen) : Prop where
  inv : PoolInv sc'
  strokes : sc'.previewstrokes = sc.previewstrokes.drop m
  cache : sc'.previewstrokecache = sc.previewstrokecache ++ sc.previewstrokes.take m
  pending : sc'.pendingSegments = sc.pendingSegments.drop m
  next : sc'.nextPtr = sc.nextPtr
  last : sc'.lastpreview = sc.lastpreview
  pen : sc'.previewpen = sc.previewpen

theorem Retired.refl (h : PoolInv sc) : Retired 0 sc sc :=
  ⟨h, rfl, by simp, rfl, rfl, rfl, rfl⟩

theorem Retired.trans {a b : Nat} {sc₁ sc₂ : Scene Pen} (h₁ : Retired a sc sc₁)
    (h₂ : Retired b sc₁ sc₂) : Retired (a + b) sc sc₂ :=
  ⟨h₂.inv, by rw [h₂.strokes, h₁.strokes, List.drop_drop, Nat.add_comm],
    by rw [h₂.cache, h₁.cache, h₁.strokes, List.append_assoc, ← List.take_add],
    by rw [h₂.pending, h₁.pending, List.drop_drop, Nat.add_comm],
    h₂.next.trans h₁.next, h₂.last.trans h₁.last, h₂.pen.trans h₁.pen⟩

/-- One pass of the loop hides the oldest preview and moves it to the cache. -/
theorem hideFirstPreview_spec (h : PoolInv sc) {s : Ptr} {rest : List Ptr}
    (hs : sc.previewstrokes = s :: rest) :
    ∃ sc', hideFirstPreview s rest sc = some sc' ∧ Retired 1 sc sc' := by
  obtain ⟨it, hit⟩ := Option.isSome_iff_exists.mp (h.isSome_of_mem (p := s) (by simp [hs]))
  have hnd := h.nodup
  rw [hs, List.cons_append] at hnd
  have hsr : s ∉ rest ++ sc.previewstrokecache := (List.nodup_cons.mp hnd).1
  have hne : ∀ p ∈ rest, p ≠ s := fun p hp heq => hsr (heq ▸ List.mem_append_left _ hp)
  refine ⟨{ sc with
      items := Function.update sc.items s (some it.hide)
      previewstrokes := rest
      previewstrokecache := sc.previewstrokecache ++ [s] },
    by simp [hideFirstPreview, Scene.modify, hit], ⟨?_, by simp [hs], by simp [hs], ?_, rfl, rfl,
    rfl⟩⟩
  · refine h.frame (s := s) ?_ (fun p hp => by simp [hs, hp]) (fun p hp => by simp [hp])
      (fun p hp => Function.update_noteq hp _ _) le_rfl
      ⟨fun hm => absurd (List.mem_append_left _ hm) hsr, fun _ => by simp [LineItem.hide],
        fun _ => by simp, fun _ => h.lt_next s (by simp [hit])⟩
    rw [← List.append_assoc]
    exact (List.perm_append_singleton _ _).nodup_iff.mpr hnd
  · simp only [Scene.pendingSegments, hs, List.filterMap_cons, hit, Option.map_some',
      List.drop_one, List.tail_cons]
    exact List.filterMap_congr fun p hp => by rw [Function.update_noteq (hne p hp)]

/-- With fuel past `count`, and `count ≠ INT_MIN`, the loop of `takePreview` retires
the `min count n` oldest of the `n` pending previews. -/
theorem takePreviewLoop_spec : ∀ (n : Nat) (count : CInt) (sc : Scene Pen), PoolInv sc →
    count ≠ CInt.minValue → count.val.toNat < n →
    ∃ sc', takePreviewLoop n count sc = some sc' ∧
      Retired (min count.val.toNat sc.previewstrokes.length) sc sc'
  | 0, _, _, _, _, hn => absurd hn (Nat.not_lt_zero _)
  | n + 1, count, sc, h, hc, hn => by
    obtain ⟨next, hnext, hval⟩ := CInt.sub?_one_eq hc
    by_cases hpos : 0 < count.val
    · cases hs : sc.previewstrokes with
      | nil =>
        exact ⟨sc, by simp [takePreviewLoop, hnext, hpos, hs], by simpa using Retired.refl h⟩
      | cons s rest =>
        obtain ⟨sc₁, h₁, r₁⟩ := hideFirstPreview_spec h hs
        have hne : next ≠ CInt.minValue := by
          rintro rfl
          simp only [CInt.minValue] at hval
          omega
        obtain ⟨sc₂, h₂, r₂⟩ := takePreviewLoop_spec n next sc₁ r₁.inv hne (by omega)
        refine ⟨sc₂, by simp [takePreviewLoop, hnext, hpos, hs, h₁, h₂], ?_⟩
        convert r₁.trans r₂ using 1
        rw [r₁.strokes, hs]
        simp only [List.length_cons, List.drop_one, List.tail_cons]
        omega
    · refine ⟨sc, by simp [takePreviewLoop, hnext, hpos], ?_⟩
      convert Retired.refl h using 1
      omega

/-- `takePreview(INT_MIN)` overflows in `count--` before its loop test is read. -/
theorem takePreview_minValue (sc : Scene Pen) : takePreview CInt.minValue sc = none := by
  simp [takePreview, takePreviewLoop, CInt.sub?_one_minValue]

/-- With fuel past the `n` pending previews, the first loop of `clearPreviews` retires
them all. -/
theorem hidePreviewsLoop_spec : ∀ (n : Nat) (sc : Scene Pen), PoolInv sc →
    sc.previewstrokes.length < n →
    ∃ sc', hidePreviewsLoop n sc = some sc' ∧ Retired sc.previewstrokes.length sc sc'
  | 0, _, _, hn => absurd hn (Nat.not_lt_zero _)
  | n + 1, sc, h, hn => by
    cases hs : sc.previewstrokes with
    | nil => exact ⟨sc, by simp [hidePreviewsLoop, hs], Retired.refl h⟩
    | cons s rest =>
      obtain ⟨sc₁, h₁, r₁⟩ := hideFirstPreview_spec h hs
      have hlen : sc₁.previewstrokes.length = rest.length := by simp [r₁.strokes, hs]
      obtain ⟨sc₂, h₂, r₂⟩ :=
        hidePreviewsLoop_spec n sc₁ r₁.inv (by simp [hs] at hn; omega)
      refine ⟨sc₂, by simp [hidePreviewsLoop, hs, h₁, h₂], ?_⟩
      convert r₁.trans r₂ using 1
      simp only [hlen, List.length_cons]
      omega

theorem drop_min_length {α β : Type} (l : List α) (l' : List β) (h : l.length = l'.length)
    (k : Nat) : l.drop (min k l'.length) = l.drop k := by
  rcases le_total k l'.length with hk | hk
  · rw [min_eq_left hk]
  · rw [min_eq_right hk, List.drop_eq_nil_of_le (by omega), List.drop_eq_nil_of_le (by omega)]

/-! ## Trimming the cache -/

/-- `sc'` is `sc` with its cache cut back to its first `k` items; the others are
deleted. -/
structure Trimmed (k : Nat) (sc sc' : Scene Pen) : Prop where
  inv : PoolInv sc'
  strokes : sc'.previewstrokes = sc.previewstrokes
  cache : sc'.previewstrokecache = sc.previewstrokecache.take k
  pending : sc'.pendingSegments = sc.pendingSegments
  next : sc'.nextPtr = sc.nextPtr
  last : sc'.lastpreview = sc.lastpreview
  pen : sc'.previewpen = sc.previewpen

theorem Trimmed.refl (h : PoolInv sc) (hk : sc.previewstrokecache.length ≤ k) :
    Trimmed k sc sc :=
  ⟨h, rfl, (List.take_of_length_le hk).symm, rfl, rfl, rfl, rfl⟩

theorem Trimmed.trans {a b : Nat} {sc₁ sc₂ : Scene Pen} (h₁ : Trimmed a sc sc₁)
    (h₂ : Trimmed b sc₁ sc₂) : Trimmed (min b a) sc sc₂ :=
  ⟨h₂.inv, h₂.strokes.trans h₁.strokes, by rw [h₂.cache, h₁.cache, List.take_take],
    h₂.pending.trans h₁.pending, h₂.next.trans h₁.next, h₂.last.trans h₁.last,
    h₂.pen.trans h₁.pen⟩

/-- One pass of the trimming loop deletes the cache's last item. -/
theorem trimCachePass_spec (h : PoolInv sc) {s : Ptr}
    (hs : sc.previewstrokecache.getLast? = some s) :
    ∃ sc', delete s { sc with previewstrokecache := sc.previewstrokecache.dropLast } =
        some sc' ∧
      Trimmed (sc.previewstrokecache.length - 1) sc sc' := by
  have hcache : sc.previewstrokecache = sc.previewstrokecache.dropLast ++ [s] :=
    (List.dropLast_append_getLast? s hs).symm
  have hsc : s ∈ sc.previewstrokecache := List.mem_of_getLast?_eq_some hs
  have hnd := h.nodup
  rw [hcache, ← List.append_assoc] at hnd
  have hsd : s ∉ sc.previewstrokes ∧ s ∉ sc.previewstrokecache.dropLast := by
    simpa using fun hm => (List.nodup_append.mp hnd).2.2 hm (List.mem_singleton_self s)
  refine ⟨{ sc with
      items := Function.update sc.items s none
      previewstrokecache := sc.previewstrokecache.dropLast },
    delete_of_isSome (h.isSome_of_mem (List.mem_append_right _ hsc)),
    ⟨?_, rfl, List.dropLast_eq_take _, ?_, rfl, rfl, rfl⟩⟩
  · refine h.frame (s := s) (List.nodup_append.mp hnd).1 (fun _ _ => Iff.rfl) (fun p hp => ?_)
      (fun p hp => Function.update_noteq hp _ _) le_rfl ⟨?_, ?_, ?_, ?_⟩ <;> simp [hsd]
    conv_rhs => rw [hcache]
    simp [hp]
  · exact pendingSegments_congr rfl fun p hp => Function.update_noteq (by
      rintro rfl
      exact hsd.1 hp) _ _

/-- With fuel past the `k - 100` items over the limit, the trimming loop cuts the cache
back to `100` of its `k` items. -/
theorem trimCacheLoop_spec : ∀ (n : Nat) (sc : Scene Pen), PoolInv sc →
    sc.previewstrokecache.length - 100 < n →
    ∃ sc', trimCacheLoop n sc = some sc' ∧ Trimmed 100 sc sc'
  | 0, _, _, hn => absurd hn (Nat.not_lt_zero _)
  | n + 1, sc, h, hn => by
    by_cases hlen : 100 < sc.previewstrokecache.length
    · cases hs : sc.previewstrokecache.getLast? with
      | none => simp [List.getLast?_eq_none_iff.mp hs] at hlen
      | some s =>
        obtain ⟨sc₁, h₁, t₁⟩ := trimCachePass_spec h hs
        have hlen₁ : sc₁.previewstrokecache.length = sc.previewstrokecache.length - 1 := by
          rw [t₁.cache, List.length_take]
          omega
        obtain ⟨sc₂, h₂, t₂⟩ := trimCacheLoop_spec n sc₁ t₁.inv (by omega)
        refine ⟨sc₂, by simp [trimCacheLoop, hlen, hs, h₁, h₂], ?_⟩
        convert t₁.trans t₂ using 1
        omega
    · exact ⟨sc, by simp [trimCacheLoop, hlen], Trimmed.refl h (by omega)⟩

/-! ## `clearPreviews` -/

/-- `clearPreviews` hides every pending preview and keeps the first `100` items of the
cache it builds; the others are deleted. -/
theorem clearPreviews_spec (h : PoolInv sc) :
    ∃ sc', clearPreviews sc = some sc' ∧ PoolInv sc' ∧ sc'.previewstrokes = [] ∧
      sc'.previewstrokecache = (sc.previewstrokecache ++ sc.previewstrokes).take 100 ∧
      sc'.nextPtr = sc.nextPtr ∧ sc'.lastpreview = sc.lastpreview ∧
      sc'.previewpen = sc.previewpen := by
  obtain ⟨sc₁, h₁, r₁⟩ := hidePreviewsLoop_spec _ sc h (Nat.lt_succ_self _)
  obtain ⟨sc₂, h₂, t₂⟩ :=
    trimCacheLoop_spec (sc₁.previewstrokecache.length + 1) sc₁ r₁.inv (by omega)
  refine ⟨sc₂, by simp [clearPreviews, h₁, h₂], t₂.inv, ?_, ?_, t₂.next.trans r₁.next,
    t₂.last.trans r₁.last, t₂.pen.trans r₁.pen⟩
  · rw [t₂.strokes, r₁.strokes, List.drop_length]
  · rw [t₂.cache, r₁.cache, List.take_length]

/-! ## `addPreview` -/

theorem pendingSegments_append {sc' : Scene Pen} {s : Ptr} (it : LineItem Pen)
    (hs : s ∉ sc.previewstrokes) (hstrokes : sc'.previewstrokes = sc.previewstrokes ++ [s])
    (hitems : sc'.items = Function.update sc.items s (some it)) :
    sc'.pendingSegments = sc.pendingSegments ++ [it.segment] := by
  rw [Scene.pendingSegments, hstrokes, List.filterMap_append, hitems]
  simp only [List.filterMap_cons, List.filterMap_nil, Function.update_same, Option.map_some']
  congr 1
  exact List.filterMap_congr fun p hp => by
    rw [Function.update_noteq (by rintro rfl; exact hs hp)]

/-- Showing `s`, a fresh address or an item taken out of the lists, with a segment and
appending it to `_previewstrokes` keeps the invariant. -/
theorem PoolInv.push (h : PoolInv sc) {s : Ptr} {n : Nat}
    (hs : s ∉ sc.previewstrokes ++ sc.previewstrokecache) (hsn : s < n) (hn : sc.nextPtr ≤ n)
    (seg : Segment Pen) (last : Point) :
    PoolInv { sc with
      items := Function.update sc.items s (some ⟨true, seg⟩)
      nextPtr := n
      previewstrokes := sc.previewstrokes ++ [s]
      lastpreview := last } := by
  refine h.frame (s := s) ?_ (fun p hp => by simp [hp]) (fun _ _ => Iff.rfl)
    (fun p hp => Function.update_noteq hp _ _) hn
    ⟨fun _ => by simp, fun hm => absurd (List.mem_append_right _ hm) hs, fun _ => by simp,
      fun _ => hsn⟩
  rw [List.append_assoc, List.singleton_append]
  exact List.perm_middle.nodup_iff.mpr (List.nodup_cons.mpr ⟨hs, h.nodup⟩)

theorem PoolInv.length_pendingSegments (h : PoolInv sc) :
    sc.pendingSegments.length = sc.previewstrokes.length := by
  rw [Scene.pendingSegments, List.length_filterMap_eq_countP, List.countP_eq_length]
  intro p hp
  simpa using h.isSome_of_mem (List.mem_append_left _ hp)

variable [Inhabited Pen] {point : Point}

/-- With an empty cache, `addPreview` draws with a new item. -/
theorem addPreview_eq_alloc (hc : sc.previewstrokecache = []) :
    addPreview point sc = some { sc with
      items := Function.update sc.items sc.nextPtr
        (some ⟨true, ⟨sc.previewpen, sc.lastpreview, point⟩⟩)
      nextPtr := sc.nextPtr + 1
      previewstrokes := sc.previewstrokes ++ [sc.nextPtr]
      lastpreview := point } := by
  simp [addPreview, takePreviewItem, hc, Scene.alloc, Scene.modify, LineItem.create,
    LineItem.setPen, LineItem.setLine]

/-- Otherwise it takes the cache's last item, shows it and draws with it. -/
theorem addPreview_eq_recycle {s : Ptr} {it : LineItem Pen}
    (hc : sc.previewstrokecache.getLast? = some s) (hs : sc.items s = some it) :
    addPreview point sc = some { sc with
      items := Function.update sc.items s
        (some ⟨true, ⟨sc.previewpen, sc.lastpreview, point⟩⟩)
      previewstrokes := sc.previewstrokes ++ [s]
      previewstrokecache := sc.previewstrokecache.dropLast
      lastpreview := point } := by
  simp [addPreview, takePreviewItem, hc, hs, Scene.modify, LineItem.show, LineItem.setPen,
    LineItem.setLine]

/-- `addPreview` keeps the invariant and appends its segment to the queue.  It
allocates only when the cache is empty, and then every item is pending. -/
theorem addPreview_spec (h : PoolInv sc) (point : Point) :
    ∃ sc', addPreview point sc = some sc' ∧ PoolInv sc' ∧
      sc'.toQueue =
        ⟨sc.pendingSegments ++ [⟨sc.previewpen, sc.lastpreview, point⟩], point,
          sc.previewpen⟩ ∧
      (sc'.poolSize ≤ sc.poolSize ∨ sc'.poolSize = sc'.previewstrokes.length) := by
  cases hc : sc.previewstrokecache.getLast? with
  | none =>
    rw [List.getLast?_eq_none_iff] at hc
    refine ⟨_, addPreview_eq_alloc hc, ?_, ?_, Or.inr (by simp [Scene.poolSize, hc])⟩
    · simpa [hc] using h.push h.next_not_mem (Nat.lt_succ_self _) (Nat.le_succ _)
        ⟨sc.previewpen, sc.lastpreview, point⟩ point
    · simp only [Scene.toQueue, PreviewQueue.mk.injEq, and_true]
      exact pendingSegments_append ⟨true, _⟩
        (fun hm => h.next_not_mem (List.mem_append_left _ hm)) rfl rfl
  | some s =>
    have hsc : s ∈ sc.previewstrokecache := List.mem_of_getLast?_eq_some hc
    obtain ⟨it, hit⟩ :=
      Option.isSome_iff_exists.mp (h.isSome_of_mem (List.mem_append_right _ hsc))
    obtain ⟨sc₁, h₁, t₁⟩ := trimCachePass_spec h hc
    rw [delete_of_isSome (by simp [hit]), Option.some_inj] at h₁
    subst h₁
    -- the cache without `s` is the trimmed scene, where `s` is dead
    have hs : s ∉ sc.previewstrokes ++ sc.previewstrokecache.dropLast := fun hm => by
      simpa using t₁.inv.isSome_of_mem hm
    refine ⟨_, addPreview_eq_recycle hc hit, ?_, ?_, Or.inl ?_⟩
    · simpa [Function.update_idem] using t₁.inv.push hs (h.lt_next s (by simp [hit])) le_rfl
        ⟨sc.previewpen, sc.lastpreview, point⟩ point
    · simp only [Scene.toQueue, PreviewQueue.mk.injEq, and_true]
      exact pendingSegments_append ⟨true, _⟩ (fun hm => hs (List.mem_append_left _ hm)) rfl rfl
    · have := List.length_pos_of_mem hsc
      simp only [Scene.poolSize, List.length_append, List.length_singleton, List.length_dropLast]
      omega

/-! ## Runs -/

variable (penForBrush : Brush → Pen)

/-- Every call but `takePreview(INT_MIN)` is defined on a scene with the invariant,
keeps it, and moves the abstract queue as `PreviewQueue.step` does.  Only a call that
leaves every item pending can make the pool grow. -/
theorem step_spec (h : PoolInv sc) (op : Op Brush) (hop : op ≠ .takePreview CInt.minValue) :
    ∃ sc', step penForBrush sc op = some sc' ∧ PoolInv sc' ∧
      sc'.toQueue = sc.toQueue.step penForBrush op ∧
      (sc'.poolSize ≤ sc.poolSize ∨ sc'.poolSize = sc'.previewstrokes.length) := by
  cases op with
  | initCanvas =>
    exact ⟨_, initCanvas_eq h, PoolInv.clear sc, rfl, Or.inl (by simp [Scene.poolSize])⟩
  | startPreview brush point =>
    have h' : PoolInv { sc with previewpen := penForBrush brush, lastpreview := point } :=
      ⟨h.nodup, h.shown, h.hidden, h.live, h.lt_next⟩
    exact addPreview_spec h' point
  | addPreview point => exact addPreview_spec h point
  | takePreview count =>
    have hc : count ≠ CInt.minValue := by
      rintro rfl
      exact hop rfl
    obtain ⟨sc', h₁, r⟩ := takePreviewLoop_spec _ count sc h hc (Nat.lt_succ_self _)
    refine ⟨sc', h₁, r.inv, ?_, Or.inl (le_of_eq ?_)⟩
    · simp only [Scene.toQueue, PreviewQueue.step, r.pending, r.last, r.pen,
        drop_min_length _ _ h.length_pendingSegments]
    · simp only [Scene.poolSize, r.strokes, r.cache, List.length_drop, List.length_append,
        List.length_take]
      omega
  | clearPreviews =>
    obtain ⟨sc', h₁, i, hs, hc, -, hl, hp⟩ := clearPreviews_spec h
    refine ⟨sc', h₁, i, ?_, Or.inl ?_⟩
    · simp [Scene.toQueue, PreviewQueue.step, Scene.pendingSegments, hs, hl, hp]
    · simp only [Scene.poolSize, hs, hc, List.length_nil, List.length_take, List.length_append]
      omega

/-- A whole run without `takePreview(INT_MIN)` from a scene with the invariant is
defined, keeps it, follows the abstract queue, and never holds more items than it
started with or than were ever pending at once. -/
theorem run_spec : ∀ (ops : List (Op Brush)) (sc : Scene Pen), PoolInv sc →
    .takePreview CInt.minValue ∉ ops →
    ∃ sc', run penForBrush sc ops = some sc' ∧ PoolInv sc' ∧
      sc'.toQueue = sc.toQueue.run penForBrush ops ∧
      sc'.poolSize ≤ max sc.poolSize (sc.toQueue.peak penForBrush ops)
  | [], sc, h, _ => ⟨sc, rfl, h, rfl, le_max_left _ _⟩
  | op :: ops, sc, h, hops => by
    rw [List.mem_cons, not_or] at hops
    obtain ⟨sc₁, h₁, i₁, q₁, p₁⟩ := step_spec penForBrush h op (Ne.symm hops.1)
    obtain ⟨sc₂, h₂, i₂, q₂, p₂⟩ := run_spec ops sc₁ i₁ hops.2
    refine ⟨sc₂, by simp [run, h₁, h₂], i₂, by rw [q₂, q₁]; rfl, ?_⟩
    -- the items pending after the step count in the peak of the rest of the run
    have hpend : sc₁.previewstrokes.length ≤ sc₁.toQueue.peak penForBrush ops := by
      rw [← i₁.length_pendingSegments]
      exact PreviewQueue.length_le_peak penForBrush sc₁.toQueue ops
    rw [q₁] at p₂ hpend
    simp only [PreviewQueue.peak]
    rcases p₁ with p₁ | p₁ <;> omega

/-- Every run of the five members from the constructor's scene that never calls
`takePreview(INT_MIN)` is defined, so no item is deleted twice or used after it was
freed.  The scene it reaches satisfies `PoolInv`, holds the pending segments in the
order they were drawn, has no more live items than were ever pending at once, and
answers any other `takePreview(k)` by hiding its `min (max k 0) n` oldest previews. -/
theorem preview_pool_invariant (ops : List (Op Brush)) (hops : .takePreview CInt.minValue ∉ ops) :
    ∃ sc, run penForBrush Scene.init ops = some sc ∧ PoolInv sc ∧
      sc.toQueue = PreviewQueue.init.run penForBrush ops ∧
      sc.liveCount ≤ PreviewQueue.init.peak penForBrush ops ∧
      ∀ k : CInt, k ≠ CInt.minValue → ∃ sc', takePreview k sc = some sc' ∧
        Retired (min k.val.toNat sc.previewstrokes.length) sc sc' := by
  obtain ⟨sc, hrun, h, hq, hsize⟩ := run_spec penForBrush ops Scene.init PoolInv.init hops
  refine ⟨sc, hrun, h, hq, ?_,
    fun k hk => takePreviewLoop_spec _ k sc h hk (Nat.lt_succ_self _)⟩
  rw [h.liveCount_eq]
  simpa [Scene.poolSize, Scene.init] using hsize

theorem preview_pool_invariant_of_two_points :
    Op.takePreview CInt.minValue ∉ [Op.startPreview () ⟨0, 0⟩, .addPreview ⟨1, 1⟩] ∧
      ∃ sc, run (fun _ : Unit => ()) Scene.init
          [.startPreview () ⟨0, 0⟩, .addPreview ⟨1, 1⟩] =
          some sc ∧ PoolInv sc ∧
        sc.toQueue = PreviewQueue.init.run (fun _ : Unit => ())
          [.startPreview () ⟨0, 0⟩, .addPreview ⟨1, 1⟩] ∧
        sc.liveCount ≤ PreviewQueue.init.peak (fun _ : Unit => ())
          [.startPreview () ⟨0, 0⟩, .addPreview ⟨1, 1⟩] ∧
        ∀ k : CInt, k ≠ CInt.minValue → ∃ sc', takePreview k sc = some sc' ∧
          Retired (min k.val.toNat sc.previewstrokes.length) sc sc' :=
  ⟨by simp, preview_pool_invariant (fun _ : Unit => ()) _ (by simp)⟩

/-- A run that calls `takePreview(INT_MIN)` is undefined from that call on. -/
theorem run_takePreview_minValue :
    run (fun _ : Unit => ()) Scene.init [Op.takePreview CInt.minValue] = none := by
  simp [run, step, takePreview_minValue]

theorem run_append (sc : Scene Pen) (ops ops' : List (Op Brush)) :
    run penForBrush sc (ops ++ ops') =
      (run penForBrush sc ops).bind fun sc => run penForBrush sc ops' := by
  induction ops generalizing sc with
  | nil => rfl
  | cons op ops ih => simp [run, ih, Option.bind_assoc]

/-- After any run, once the clear timer has fired no preview is pending and at most
`100` line items stay allocated. -/
theorem clearPreviews_bounds_pool (ops : List (Op Brush))
    (hops : .takePreview CInt.minValue ∉ ops) :
    ∃ sc, run penForBrush Scene.init (ops ++ [.clearPreviews]) = some sc ∧
      sc.previewstrokes = [] ∧ sc.liveCount ≤ 100 := by
  obtain ⟨sc, hrun, h, -, -⟩ := run_spec penForBrush ops Scene.init PoolInv.init hops
  obtain ⟨sc', hclear, h', hs, hcache, -⟩ := clearPreviews_spec h
  refine ⟨sc', by simp [run_append, hrun, run, step, hclear], hs, ?_⟩
  rw [h'.liveCount_eq, hs, hcache, List.length_nil, Nat.zero_add, List.length_take]
  exact min_le_left _ _

theorem clearPreviews_bounds_pool_of_one_point :
    Op.takePreview CInt.minValue ∉ [Op.startPreview () ⟨0, 0⟩] ∧
      ∃ sc, run (fun _ : Unit => ()) Scene.init
          ([.startPreview () ⟨0, 0⟩] ++ [.clearPreviews]) =
          some sc ∧ sc.previewstrokes = [] ∧ sc.liveCount ≤ 100 :=
  ⟨by simp, clearPreviews_bounds_pool (fun _ : Unit => ()) _ (by simp)⟩

end Drawpile.Canvas
