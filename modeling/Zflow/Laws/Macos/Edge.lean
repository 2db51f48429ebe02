import Zflow.Laws.Desktop.Geometry
import Zflow.Macos.Edge

/-!
# Where the pointer enters a Mac

On any geometry that validates, the sums and conversions behind an armed edge stay in their types; the
entry point is on a display that touches the edge, three points in, at the pixel of the range nearest the
wanted one; and every return position is in the range.
-/

namespace Zflow.Macos

open Desktop Lib

/-! ## Sizes -/

/-- A rectangle as small as a valid geometry's bounds. -/
structure Small (r : Rect) : Prop where
  left : -65536 ≤ r.x
  top : -65536 ≤ r.y
  right : r.x + r.width ≤ 81920
  bottom : r.y + r.height ≤ 81920

variable {geometry : Geometry}

theorem small_of_valid (h : geometry.validate = .ok ()) {r : Rect} (hr : r ∈ geometry.monitors) : Small r := by
  obtain ⟨hmonitors, -⟩ := check_bind_eq_ok.mp h
  have hvalid := forM_eq_ok.mp (check_bind_eq_ok.mp hmonitors).2 r hr
  rw [refuseIf_eq_ok, Bool.not_eq_false'] at hvalid
  unfold Rect.valid at hvalid
  simp only [Bool.and_eq_true, decide_eq_true_eq] at hvalid
  constructor <;> omega

theorem small_bounds (h : geometry.validate = .ok ()) {bounds : Rect} (haround : bounds.Around geometry.monitors) :
    Small bounds := by
  obtain ⟨l, hl, hleft⟩ := haround.left
  obtain ⟨t, ht, htop⟩ := haround.top
  obtain ⟨r, hr, hright⟩ := haround.right
  obtain ⟨b, hb, hbottom⟩ := haround.bottom
  refine ⟨?_, ?_, ?_, ?_⟩
  · exact hleft ▸ (small_of_valid h hl).left
  · exact htop ▸ (small_of_valid h ht).top
  · exact hright ▸ (small_of_valid h hr).right
  · exact hbottom ▸ (small_of_valid h hb).bottom

/-- Checks that all succeed. -/
theorem mapM_eq_some {α β : Type} {items : List α} {check : α → Option β} {value : α → β}
    (h : ∀ a ∈ items, check a = some (value a)) : items.mapM check = some (items.map value) := by
  induction items with
  | nil => rfl
  | cons a rest ih =>
    rw [List.mapM_cons, h a (List.mem_cons_self ..), ih fun b hb => h b (List.mem_cons_of_mem _ hb)]
    rfl

namespace ArmedEdge

theorem sideChecked_eq {r : Rect} (h : Small r) (edge : Edge) : sideChecked r edge = some (side r edge) := by
  obtain ⟨hleft, htop, hright, hbottom⟩ := h
  cases edge with
  | left => rfl
  | top => rfl
  | right =>
    have hwidth : checkedI32 r.width = some (r.width : Int) := checkedI32_of_range (by omega) (by omega)
    show (checkedI32 r.width >>= fun width => checkedI32 (r.x + width)) = _
    rw [hwidth]
    exact checkedI32_of_range (by omega) (by omega)
  | bottom =>
    have hheight : checkedI32 r.height = some (r.height : Int) := checkedI32_of_range (by omega) (by omega)
    show (checkedI32 r.height >>= fun height => checkedI32 (r.y + height)) = _
    rw [hheight]
    exact checkedI32_of_range (by omega) (by omega)

/-- A fraction of a small span is one of its pixels. -/
theorem pixelChecked_eq {rounded : Nat → Nat} {origin : Int} {span fraction : Nat} (horigin : -65536 ≤ origin)
    (hend : origin + span ≤ 81920) (hfraction : fraction ≤ fractionMax) (hrounded : rounded (fraction * span) ≤ span) :
    pixelChecked rounded origin span fraction = some (origin + rounded (fraction * span)) := by
  have hspan : span ≤ 147456 := by omega
  have hscaled : fraction * span ≤ u64Max := by
    have hle := Nat.mul_le_mul hfraction hspan
    unfold fractionMax at hle
    unfold u64Max
    omega
  have hpixel : checkedI32 (rounded (fraction * span)) = some (rounded (fraction * span) : Int) :=
    checkedI32_of_range (by omega) (by omega)
  show (checkedMulU64 fraction span >>= fun scaled => checkedI32 (rounded scaled) >>= fun pixel =>
    checkedI32 (origin + pixel)) = _
  rw [checkedMulU64_of_le hscaled, Option.bind_eq_bind, Option.bind_some, hpixel]
  exact checkedI32_of_range (by omega) (by omega)

theorem roundDown_le {fraction span : Nat} (h : fraction ≤ fractionMax) : roundDown (fraction * span) ≤ span :=
  Nat.div_le_of_le_mul (Nat.mul_le_mul_right span h)

theorem roundUp_le {fraction span : Nat} (h : fraction ≤ fractionMax) : roundUp (fraction * span) ≤ span := by
  have hle := Nat.mul_le_mul_right span h
  unfold roundUp
  unfold fractionMax at hle ⊢
  omega

theorem segmentChecked_eq {r : Rect} (h : Small r) (edge : Edge) (rangeStart rangeStop : Int) :
    segmentChecked edge rangeStart rangeStop r = some (segment edge rangeStart rangeStop r) := by
  obtain ⟨hleft, htop, hright, hbottom⟩ := h
  unfold segmentChecked segment
  cases vertical edge with
  | true =>
    have hheight : checkedI32 r.height = some (r.height : Int) := checkedI32_of_range (by omega) (by omega)
    have hsum : checkedI32 (r.y + r.height) = some (r.y + r.height) :=
      checkedI32_of_range (by omega) (by omega)
    show (checkedI32 r.height >>= fun height => checkedI32 (r.y + height) >>= fun high =>
      some (Segment.mk (max r.y rangeStart) (min high rangeStop) r)) = _
    rw [hheight, Option.bind_eq_bind, Option.bind_some, hsum]
    rfl
  | false =>
    have hwidth : checkedI32 r.width = some (r.width : Int) := checkedI32_of_range (by omega) (by omega)
    have hsum : checkedI32 (r.x + r.width) = some (r.x + r.width) := checkedI32_of_range (by omega) (by omega)
    show (checkedI32 r.width >>= fun width => checkedI32 (r.x + width) >>= fun high =>
      some (Segment.mk (max r.x rangeStart) (min high rangeStop) r)) = _
    rw [hwidth, Option.bind_eq_bind, Option.bind_some, hsum]
    rfl

theorem in64 {x : Int} (h : -2147483648 ≤ x) (h' : x ≤ 2147483648) : InI64 x := by
  unfold InI64 i64Min i64Max
  omega

/-- One axis of the bounds: each sum is an `i64`, and the length is a `u32`. -/
theorem axis_checked (first : Rect) (rest : List Rect) (place : Rect → Int) (size : Rect → Nat)
    (h : ∀ r ∈ first :: rest, -65536 ≤ place r ∧ place r + size r ≤ 81920) :
    let near := rest.foldl (fun least r => min least (place r)) (place first)
    let far := rest.foldl (fun most r => max most (place r + (size r : Int))) (place first + (size first : Int))
    (((first :: rest).mapM fun r => checkedI64 (place r + (size r : Int))) >>= fun ends => ends.max?) = some far ∧
      checkedI64 (far - near) = some (far - near) ∧ checkedU32 (far - near) = some (far - near).toNat := by
  intro near far
  obtain ⟨⟨l, hl, hnear⟩, hnearLe⟩ := foldl_min_of first rest place
  obtain ⟨⟨r, hr, hfar⟩, hfarLe⟩ := foldl_max_of first rest fun r => place r + (size r : Int)
  have hfirst : first ∈ first :: rest := List.mem_cons_self ..
  have hlow : near ≤ place first := hnearLe first hfirst
  have hhigh : place first + (size first : Int) ≤ far := hfarLe first hfirst
  have hleft := (h l hl).1
  have hright := (h r hr).2
  have hnear : place l = near := hnear
  have hfar : place r + (size r : Int) = far := hfar
  have hends : ((first :: rest).mapM fun r => checkedI64 (place r + (size r : Int))) =
      some ((first :: rest).map fun r => place r + (size r : Int)) := by
    refine mapM_eq_some fun r hr => if_pos ?_
    obtain ⟨hlow, hhigh⟩ := h r hr
    exact in64 (by omega) (by omega)
  refine ⟨?_, if_pos (in64 (by omega) (by omega)), checkedU32_of_range (by omega) (by omega)⟩
  rw [hends, Option.bind_eq_bind, Option.bind_some, List.map_cons, List.max?_cons', List.foldl_map]

theorem boundsChecked_eq (geometry : Geometry) : boundsChecked geometry = some geometry.bounds := by
  unfold boundsChecked Geometry.bounds
  cases hvalid : geometry.validate with
  | error error => rfl
  | ok _ =>
    have hsmall : ∀ r ∈ geometry.monitors, Small r := fun r hr => small_of_valid hvalid hr
    cases hcons : geometry.monitors with
    | nil => rfl
    | cons first rest =>
      rw [hcons] at hsmall
      obtain ⟨hright, hwidth, hwidth'⟩ := axis_checked first rest Rect.x Rect.width fun r hr =>
        ⟨(hsmall r hr).left, (hsmall r hr).right⟩
      obtain ⟨hbottom, hheight, hheight'⟩ := axis_checked first rest Rect.y Rect.height fun r hr =>
        ⟨(hsmall r hr).top, (hsmall r hr).bottom⟩
      obtain ⟨rights, hrights, hrightMax⟩ := Option.bind_eq_some_iff.mp hright
      obtain ⟨bottoms, hbottoms, hbottomMax⟩ := Option.bind_eq_some_iff.mp hbottom
      simp only [hrights, hbottoms, hrightMax, hbottomMax, hwidth, hwidth', hheight, hheight',
        Option.bind_eq_bind, Option.bind_some]
      rfl

/-! ## The armed edge -/

/-- Where a rectangle starts along an edge, and how long it is there. -/
def axis (r : Rect) (edge : Edge) : Int × Nat := if vertical edge then (r.y, r.height) else (r.x, r.width)

theorem axis_small {r : Rect} (h : Small r) (edge : Edge) :
    -65536 ≤ (axis r edge).1 ∧ (axis r edge).1 + (axis r edge).2 ≤ 81920 := by
  unfold axis
  split
  · exact ⟨h.top, h.bottom⟩
  · exact ⟨h.left, h.right⟩

theorem side_small {r : Rect} (h : Small r) (edge : Edge) : -65536 ≤ side r edge ∧ side r edge ≤ 81920 := by
  obtain ⟨hleft, htop, hright, hbottom⟩ := h
  cases edge <;> simp only [side] <;> omega

/-- The range's first pixel, and the one behind its last. -/
def range (bounds : Rect) (edge : Edge) (start stop : Nat) : Int × Int :=
  ((axis bounds edge).1 + roundUp (start * (axis bounds edge).2),
    (axis bounds edge).1 + roundDown (stop * (axis bounds edge).2))

/-- The stretches of the displays that touch the edge, cut to the range. -/
def stretches (geometry : Geometry) (bounds : Rect) (edge : Edge) (start stop : Nat) : List Segment :=
  ((geometry.monitors.filter fun display => side display edge = side bounds edge).map
    (segment edge (range bounds edge start stop).1 (range bounds edge start stop).2)).filter
      fun segment => segment.stop > segment.start

/-- **What `new` arms on a valid geometry.** -/
theorem new_of_valid (h : geometry.validate = .ok ()) (edge : Edge) (start stop : Nat) :
    ∃ bounds, bounds.Around geometry.monitors ∧ geometry.bounds = .ok bounds ∧
      ArmedEdge.new geometry edge start stop = .ok ⟨edge, start, stop, side bounds edge, (axis bounds edge).1,
        (axis bounds edge).2, stretches geometry bounds edge start stop⟩ := by
  obtain ⟨bounds, hbounds, haround⟩ := bounds_of_valid h
  refine ⟨bounds, haround, hbounds, ?_⟩
  unfold ArmedEdge.new
  rw [hbounds]
  rfl

theorem newChecked_eq (geometry : Geometry) (edge : Edge) {start stop : Nat} (hstart : start ≤ fractionMax)
    (hstop : stop ≤ fractionMax) :
    newChecked geometry edge start stop = some (ArmedEdge.new geometry edge start stop) := by
  cases hvalid : geometry.validate with
  | error error =>
    have hbounds : geometry.bounds = .error error := by
      unfold Geometry.bounds
      rw [hvalid]
      rfl
    unfold newChecked ArmedEdge.new
    rw [boundsChecked_eq, hbounds]
    rfl
  | ok _ =>
    obtain ⟨bounds, haround, hbounds, hnew⟩ := new_of_valid hvalid edge start stop
    have hsmall := small_bounds hvalid haround
    obtain ⟨hlow, hhigh⟩ := axis_small hsmall edge
    have hfirst : pixelChecked roundUp (axis bounds edge).1 (axis bounds edge).2 start =
        some (range bounds edge start stop).1 := pixelChecked_eq hlow hhigh hstart (roundUp_le hstart)
    have hlast : pixelChecked roundDown (axis bounds edge).1 (axis bounds edge).2 stop =
        some (range bounds edge start stop).2 := pixelChecked_eq hlow hhigh hstop (roundDown_le hstop)
    have hsides : geometry.monitors.mapM
        (fun display => (sideChecked display edge).bind fun line => some (display, line)) =
        some (geometry.monitors.map fun display => (display, side display edge)) := by
      refine mapM_eq_some fun r hr => ?_
      rw [sideChecked_eq (small_of_valid hvalid hr) edge]
      rfl
    have htouching : ((geometry.monitors.map fun display => (display, side display edge)).filter fun entry =>
        entry.2 = side bounds edge).map (·.1) =
        geometry.monitors.filter fun display => side display edge = side bounds edge := by
      rw [List.filter_map, List.map_map]
      exact List.map_id _
    have hsegments : (geometry.monitors.filter fun display => side display edge = side bounds edge).mapM
        (segmentChecked edge (range bounds edge start stop).1 (range bounds edge start stop).2) =
        some ((geometry.monitors.filter fun display => side display edge = side bounds edge).map
          (segment edge (range bounds edge start stop).1 (range bounds edge start stop).2)) :=
      mapM_eq_some fun r hr =>
        segmentChecked_eq (small_of_valid hvalid (List.mem_filter.mp hr).1) edge _ _
    rw [hnew]
    unfold newChecked
    rw [boundsChecked_eq, hbounds, Option.bind_eq_bind, Option.bind_some]
    show (sideChecked bounds edge >>= fun boundary =>
      pixelChecked roundUp (axis bounds edge).1 (axis bounds edge).2 start >>= fun rangeStart =>
      pixelChecked roundDown (axis bounds edge).1 (axis bounds edge).2 stop >>= fun rangeStop =>
      (geometry.monitors.mapM fun display => do some (display, ← sideChecked display edge)) >>= fun sides =>
      ((sides.filter fun entry => entry.2 = boundary).map (·.1)).mapM (segmentChecked edge rangeStart rangeStop)
        >>= fun segments => some (Except.ok (ArmedEdge.mk edge start stop boundary (axis bounds edge).1
          (axis bounds edge).2 (segments.filter fun segment => segment.stop > segment.start)))) = _
    simp only [sideChecked_eq hsmall, hfirst, hlast, hsides, htouching, hsegments, Option.bind_eq_bind,
      Option.bind_some]
    rfl

/-! ## Entering -/

/-- A pixel along the edge that lies in the range from one fraction of it to another. -/
def InRange (bounds : Rect) (edge : Edge) (start stop : Nat) (pixel : Int) : Prop :=
  (start : Int) * (axis bounds edge).2 ≤ (pixel - (axis bounds edge).1) * fractionMax ∧
    (pixel + 1 - (axis bounds edge).1) * fractionMax ≤ (stop : Int) * (axis bounds edge).2

/-- A pixel along the edge where that display touches it. -/
def Touches (bounds : Rect) (edge : Edge) (pixel : Int) (display : Rect) : Prop :=
  side display edge = side bounds edge ∧ (axis display edge).1 ≤ pixel ∧
    pixel < (axis display edge).1 + (axis display edge).2

variable {bounds : Rect} {edge : Edge} {start stop : Nat} {pixel : Int}

theorem inRange_iff : InRange bounds edge start stop pixel ↔
    (range bounds edge start stop).1 ≤ pixel ∧ pixel < (range bounds edge start stop).2 := by
  unfold InRange range roundUp roundDown
  generalize (axis bounds edge).1 = origin
  rw [← Int.natCast_mul, ← Int.natCast_mul]
  generalize start * (axis bounds edge).2 = first
  generalize stop * (axis bounds edge).2 = last
  unfold fractionMax
  constructor <;> rintro ⟨hfirst, hlast⟩ <;> constructor <;> omega

theorem segment_eq (display : Rect) : segment edge (range bounds edge start stop).1 (range bounds edge start stop).2
    display = ⟨max (axis display edge).1 (range bounds edge start stop).1,
      min ((axis display edge).1 + (axis display edge).2) (range bounds edge start stop).2, display⟩ := rfl

/-- **The pixels of the stretches** are those of the range with a display behind them. -/
theorem mem_stretches {s : Segment} (h : s ∈ stretches geometry bounds edge start stop) :
    s.display ∈ geometry.monitors ∧ s.start < s.stop ∧ ∀ pixel, s.start ≤ pixel ∧ pixel < s.stop ↔
      Touches bounds edge pixel s.display ∧ InRange bounds edge start stop pixel := by
  obtain ⟨hmem, hsome⟩ := List.mem_filter.mp h
  obtain ⟨display, hdisplay, rfl⟩ := List.mem_map.mp hmem
  obtain ⟨hmonitor, hside⟩ := List.mem_filter.mp hdisplay
  have hside : side display edge = side bounds edge := of_decide_eq_true hside
  have hsome := of_decide_eq_true hsome
  rw [segment_eq] at hsome ⊢
  refine ⟨hmonitor, hsome, fun pixel => ?_⟩
  rw [inRange_iff]
  unfold Touches
  dsimp only
  constructor
  · rintro ⟨hfirst, hlast⟩
    exact ⟨⟨hside, by omega, by omega⟩, by omega, by omega⟩
  · rintro ⟨⟨-, hlow, hhigh⟩, hfirst, hlast⟩
    exact ⟨by omega, by omega⟩

/-- Each display that touches the edge at a pixel of the range has its stretch. -/
theorem stretch_of_touches {display : Rect} (hmonitor : display ∈ geometry.monitors)
    (htouches : Touches bounds edge pixel display) (hrange : InRange bounds edge start stop pixel) :
    ∃ s ∈ stretches geometry bounds edge start stop, s.start ≤ pixel ∧ pixel < s.stop := by
  obtain ⟨hside, hlow, hhigh⟩ := htouches
  obtain ⟨hfirst, hlast⟩ := inRange_iff.mp hrange
  refine ⟨segment edge (range bounds edge start stop).1 (range bounds edge start stop).2 display, ?_, ?_⟩
  · refine List.mem_filter.mpr ⟨List.mem_map_of_mem (List.mem_filter.mpr ⟨hmonitor, by simpa using hside⟩), ?_⟩
    rw [segment_eq]
    exact decide_eq_true (by dsimp only; omega)
  · rw [segment_eq]
    dsimp only
    omega

/-- The nearest pixel of a stretch is one of its own, and none is nearer. -/
theorem along_nearest {s : Segment} (h : s.start < s.stop) (wanted : Int) :
    (s.start ≤ along wanted s ∧ along wanted s < s.stop) ∧
      ∀ pixel, s.start ≤ pixel ∧ pixel < s.stop → (along wanted s - wanted).natAbs ≤ (pixel - wanted).natAbs := by
  unfold along
  refine ⟨by omega, ?_⟩
  rintro pixel ⟨hfirst, hlast⟩
  omega

end ArmedEdge

/-- The pixel of a point along an edge, and across it. -/
def pointAlong (edge : Edge) (point : Point) : Int := if vertical edge then point.y else point.x

def pointAcross (edge : Edge) (point : Point) : Int := if vertical edge then point.x else point.y

/-- Three points inside a left or top edge, and the fourth pixel from a right or bottom one. -/
def inset (edge : Edge) (line : Int) : Int :=
  match edge with
  | .left | .top => line + 3
  | .right | .bottom => line - 4

/-- **Where an entry lies**: on a display that touches the edge there, three points in, at the pixel of the
range nearest the wanted one. -/
structure Enters (geometry : Geometry) (bounds : Rect) (edge : Edge) (start stop position : Nat)
    (point : Point) : Prop where
  display : ∃ display ∈ geometry.monitors, display.contains point = true ∧
    ArmedEdge.Touches bounds edge (pointAlong edge point) display
  across : pointAcross edge point = inset edge (side bounds edge)
  inRange : ArmedEdge.InRange bounds edge start stop (pointAlong edge point)
  nearest : ∀ pixel, (∃ display ∈ geometry.monitors, ArmedEdge.Touches bounds edge pixel display) →
    ArmedEdge.InRange bounds edge start stop pixel →
    (pointAlong edge point - ((ArmedEdge.axis bounds edge).1 +
        (position * (ArmedEdge.axis bounds edge).2 / fractionMax : Nat))).natAbs ≤
      (pixel - ((ArmedEdge.axis bounds edge).1 +
        (position * (ArmedEdge.axis bounds edge).2 / fractionMax : Nat))).natAbs

namespace ArmedEdge

variable {bounds : Rect} {edge : Edge} {start stop : Nat} {pixel : Int}

/-- The point where an entry is put. -/
def entryPoint (edge : Edge) (line along : Int) : Point :=
  match edge with
  | .left => ⟨line + 3, along⟩
  | .right => ⟨line - 4, along⟩
  | .top => ⟨along, line + 3⟩
  | .bottom => ⟨along, line - 4⟩

theorem pointAlong_entryPoint (edge : Edge) (line along : Int) :
    pointAlong edge (entryPoint edge line along) = along := by
  cases edge <;> rfl

theorem pointAcross_entryPoint (edge : Edge) (line along : Int) :
    pointAcross edge (entryPoint edge line along) = inset edge line := by
  cases edge <;> rfl

/-- A display of at least `minDisplay` points contains the point three in from where it touches the edge. -/
theorem contains_entryPoint {display : Rect} (htouches : Touches bounds edge pixel display)
    (hwidth : minDisplay ≤ display.width) (hheight : minDisplay ≤ display.height) :
    display.contains (entryPoint edge (side bounds edge) pixel) = true := by
  obtain ⟨hside, hlow, hhigh⟩ := htouches
  unfold minDisplay at hwidth hheight
  rw [← hside, Rect.contains_iff]
  cases edge <;> simp only [axis, vertical, side, entryPoint, if_true, Bool.false_eq_true, if_false] at * <;> omega

/-- The edge `new` arms on a valid geometry. -/
def armedOn (geometry : Geometry) (bounds : Rect) (edge : Edge) (start stop : Nat) : ArmedEdge :=
  ⟨edge, start, stop, side bounds edge, (axis bounds edge).1, (axis bounds edge).2,
    stretches geometry bounds edge start stop⟩

/-- **An entry that succeeds**: the stretch nearest the wanted pixel, and the pixel of it nearest. -/
theorem entry_cases (geometry : Geometry) (bounds : Rect) (edge : Edge) (start stop position : Nat) :
    let wanted := (axis bounds edge).1 + (position * (axis bounds edge).2 / fractionMax : Nat)
    (armedOn geometry bounds edge start stop).entry position =
      match (stretches geometry bounds edge start stop).minOn? fun s => (along wanted s - wanted).natAbs with
      | none => .error noDisplay
      | some s =>
        if s.display.width < minDisplay ∨ s.display.height < minDisplay then
          .error "The entry display is too small"
        else .ok (entryPoint edge (side bounds edge) (along wanted s)) := by
  cases edge <;> rfl

theorem entry_enters {position : Nat} {point : Point}
    (h : (armedOn geometry bounds edge start stop).entry position = .ok point) :
    Enters geometry bounds edge start stop position point := by
  rw [entry_cases] at h
  generalize hwanted : (axis bounds edge).1 + ((position * (axis bounds edge).2 / fractionMax : Nat) : Int) =
    wanted at h
  cases hmin : (stretches geometry bounds edge start stop).minOn? fun s => (along wanted s - wanted).natAbs with
  | none =>
    rw [hmin] at h
    cases h
  | some s =>
    rw [hmin] at h
    dsimp only at h
    split at h
    · cases h
    · rename_i hlarge
      cases h
      have hmem := List.minOn?_mem hmin
      obtain ⟨hmonitor, hsome, hpixels⟩ := mem_stretches hmem
      obtain ⟨hown, hbest⟩ := along_nearest hsome wanted
      obtain ⟨htouches, hrange⟩ := (hpixels _).mp hown
      refine ⟨⟨s.display, hmonitor, ?_, ?_⟩, pointAcross_entryPoint .., ?_, ?_⟩
      · exact contains_entryPoint htouches (by omega) (by omega)
      · rw [pointAlong_entryPoint]
        exact htouches
      · rw [pointAlong_entryPoint]
        exact hrange
      · rintro pixel ⟨display, hdisplay, hpixel⟩ hin
        obtain ⟨other, hother, hpart⟩ := stretch_of_touches hdisplay hpixel hin
        obtain ⟨-, hotherSome, -⟩ := mem_stretches hother
        rw [hwanted, pointAlong_entryPoint]
        have hleast : (along wanted s - wanted).natAbs ≤ (along wanted other - wanted).natAbs := by
          have hle := List.apply_get_minOn?_le_of_mem (f := fun s => (along wanted s - wanted).natAbs) hother
          simpa only [hmin, Option.get_some] using hle
        exact hleast.trans ((along_nearest hotherSome wanted).2 pixel hpart)

theorem entryChecked_eq (h : geometry.validate = .ok ()) (haround : bounds.Around geometry.monitors)
    {position : Nat} (hposition : position ≤ fractionMax) :
    (armedOn geometry bounds edge start stop).entryChecked position =
      some ((armedOn geometry bounds edge start stop).entry position) := by
  have hsmall := small_bounds h haround
  obtain ⟨hlow, hhigh⟩ := axis_small hsmall edge
  obtain ⟨hline, hline'⟩ := side_small hsmall edge
  have hwanted : pixelChecked roundDown (axis bounds edge).1 (axis bounds edge).2 position =
      some ((axis bounds edge).1 + (position * (axis bounds edge).2 / fractionMax : Nat)) :=
    pixelChecked_eq hlow hhigh hposition (roundDown_le hposition)
  have hlast : (stretches geometry bounds edge start stop).mapM (fun s => checkedI32 (s.stop - 1)) =
      some ((stretches geometry bounds edge start stop).map fun s => s.stop - 1) := by
    refine mapM_eq_some fun s hs => ?_
    obtain ⟨hmonitor, hsome, hpixels⟩ := mem_stretches hs
    obtain ⟨⟨-, hfirst, -⟩, -⟩ := (hpixels s.start).mp ⟨le_refl _, hsome⟩
    obtain ⟨⟨-, -, hfinal⟩, -⟩ := (hpixels (s.stop - 1)).mp (by omega)
    obtain ⟨hdisplay, hdisplay'⟩ := axis_small (small_of_valid h hmonitor) edge
    exact checkedI32_of_range (by omega) (by omega)
  have hin : checkedI32 (side bounds edge + 3) = some (side bounds edge + 3) :=
    checkedI32_of_range (by omega) (by omega)
  have hout : checkedI32 (side bounds edge - 4) = some (side bounds edge - 4) :=
    checkedI32_of_range (by omega) (by omega)
  rw [entry_cases]
  generalize ((axis bounds edge).1 + ((position * (axis bounds edge).2 / fractionMax : Nat) : Int)) = wanted
    at hwanted ⊢
  show (pixelChecked roundDown (axis bounds edge).1 (axis bounds edge).2 position >>= fun wanted =>
    (stretches geometry bounds edge start stop).mapM (fun s => checkedI32 (s.stop - 1)) >>= fun _ =>
    match (stretches geometry bounds edge start stop).minOn? fun s => (along wanted s - wanted).natAbs with
    | none => some (Except.error noDisplay)
    | some s =>
      if s.display.width < minDisplay ∨ s.display.height < minDisplay then
        some (Except.error "The entry display is too small")
      else match edge with
        | .left => do some (.ok (Point.mk (← checkedI32 (side bounds edge + 3)) (along wanted s)))
        | .right => do some (.ok (Point.mk (← checkedI32 (side bounds edge - 4)) (along wanted s)))
        | .top => do some (.ok (Point.mk (along wanted s) (← checkedI32 (side bounds edge + 3))))
        | .bottom => do some (.ok (Point.mk (along wanted s) (← checkedI32 (side bounds edge - 4))))) = _
  rw [hwanted, Option.bind_eq_bind, Option.bind_some, hlast, Option.bind_eq_bind, Option.bind_some]
  cases (stretches geometry bounds edge start stop).minOn? fun s => (along wanted s - wanted).natAbs with
  | none => rfl
  | some s =>
    dsimp only
    split
    · rfl
    · cases edge <;> simp only [hin, hout, Option.bind_some] <;> rfl

end ArmedEdge

/-- An exit's range, as its request checked it. -/
theorem exit_range {request : Prepare} (h : (DesktopRequest.prepare request).validate = .ok ()) :
    (request.start < request.stop ∧ request.stop ≤ fractionMax ∧ request.start ≤ request.position ∧
        request.position ≤ request.stop) ∧
      ∀ exit_ ∈ request.exits, exit_.start < exit_.stop ∧ exit_.stop ≤ fractionMax := by
  obtain ⟨-, h⟩ := check_bind_eq_ok.mp h
  obtain ⟨-, h⟩ := check_bind_eq_ok.mp h
  obtain ⟨hrange, h⟩ := check_bind_eq_ok.mp h
  obtain ⟨-, hexits⟩ := check_bind_eq_ok.mp h
  refine ⟨?_, fun exit_ hexit => ?_⟩
  · rw [refuseIf_eq_ok] at hrange
    simpa [and_assoc] using hrange
  · have hrange := forM_eq_ok.mp hexits exit_ hexit
    rw [refuseIf_eq_ok] at hrange
    simp only [Bool.not_eq_false', Bool.and_eq_true, decide_eq_true_eq] at hrange
    exact ⟨hrange.1.2, hrange.2⟩

/-- Where an armed edge reports a return, it is in the range. -/
def Returns (armed : ArmedEdge) (start stop : Nat) : Prop :=
  (∀ cursor position, armed.atEdge cursor = some position → start ≤ position ∧ position ≤ stop) ∧
    ∀ from_ target position, armed.crossing from_ target = some position → start ≤ position ∧ position ≤ stop

/-- **The Mac entry point is on the right display.** For a Prepare that validates, on the whole desktop or on
one display of it: no sum and no conversion leaves its type; an entry that succeeds lies on a display that
touches the edge, three points in, at the pixel of the range nearest the wanted one; and every position where
the pointer returns, through this edge or through an exit's, is in that edge's range. -/
theorem entry_point_on_display (geometry selected : Geometry) (request : Prepare)
    (hvalid : (DesktopRequest.prepare request).validate = .ok ())
    (hselected : geometry.forMonitor request.monitor = .ok selected) :
    ∃ bounds armed, selected.bounds = .ok bounds ∧ bounds.Around selected.monitors ∧
      ArmedEdge.new selected request.edge request.start request.stop = .ok armed ∧
      ArmedEdge.newChecked selected request.edge request.start request.stop = some (.ok armed) ∧
      armed.entryChecked request.position = some (armed.entry request.position) ∧
      (∀ point, armed.entry request.position = .ok point →
        Enters selected bounds request.edge request.start request.stop request.position point) ∧
      Returns armed request.start request.stop ∧
      ∀ exit_ ∈ request.exits, ∀ left, geometry.forMonitor exit_.monitor = .ok left →
        ∃ armed, ArmedEdge.new left exit_.edge exit_.start exit_.stop = .ok armed ∧
          ArmedEdge.newChecked left exit_.edge exit_.start exit_.stop = some (.ok armed) ∧
          Returns armed exit_.start exit_.stop := by
  obtain ⟨⟨hrange, hstop, hposition, hposition'⟩, hexits⟩ := exit_range hvalid
  have hreturns : ∀ {geometry : Geometry} {bounds : Rect} (edge : Edge) {start stop : Nat}, start < stop →
      Returns (ArmedEdge.armedOn geometry bounds edge start stop) start stop := fun edge _ _ hlt =>
    ⟨fun cursor position h => ArmedEdge.atEdge_range (by exact hlt.le) h,
      fun from_ target position h => ArmedEdge.crossing_range (by exact hlt.le) h⟩
  obtain ⟨hok, -⟩ := forMonitor_eq_ok hselected
  obtain ⟨bounds, haround, hbounds, hnew⟩ :=
    ArmedEdge.new_of_valid hok request.edge request.start request.stop
  refine ⟨bounds, _, hbounds, haround, hnew, ?_, ArmedEdge.entryChecked_eq hok haround (by omega),
    fun point hpoint => ArmedEdge.entry_enters hpoint, hreturns _ hrange, fun exit_ hexit left hleft => ?_⟩
  · rw [← hnew]
    exact ArmedEdge.newChecked_eq selected request.edge (by omega) hstop
  · obtain ⟨hlt, hle⟩ := hexits exit_ hexit
    obtain ⟨hleftOk, -⟩ := forMonitor_eq_ok hleft
    obtain ⟨_, _, _, harmed⟩ := ArmedEdge.new_of_valid hleftOk exit_.edge exit_.start exit_.stop
    refine ⟨_, harmed, ?_, hreturns _ hlt⟩
    rw [← harmed]
    exact ArmedEdge.newChecked_eq left exit_.edge (by omega) hle

/-- A laptop's own screen, and a crossing in by the middle of its left edge. -/
def laptop : Geometry := ⟨[⟨0, 0, 1440, 900⟩], []⟩

def crossingIn : Prepare := ⟨none, 1, .left, 0, 1000000, 500000, []⟩

theorem entry_point_on_display_laptop :
    ∃ bounds, laptop.bounds = .ok bounds ∧ Enters laptop bounds .left 0 1000000 500000 ⟨3, 450⟩ := by
  obtain ⟨bounds, armed, hbounds, -, hnew, -, -, henters, -⟩ :=
    entry_point_on_display laptop laptop crossingIn (by decide) (by decide)
  have hentry : ArmedEdge.new laptop .left 0 1000000 >>= (ArmedEdge.entry · 500000) = .ok ⟨3, 450⟩ := by decide
  rw [show ArmedEdge.new laptop .left 0 1000000 = .ok armed from hnew] at hentry
  exact ⟨bounds, hbounds, henters _ hentry⟩

end Zflow.Macos
