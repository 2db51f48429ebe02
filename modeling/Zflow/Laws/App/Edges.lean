import Mathlib.Data.List.Find
import Zflow.App.Edges
import Zflow.Laws.App.Landing

/-!
# Where the views of an edge agree

A contact of the layout is a barrier's range in rounded units, a stretch of exact parts, and whole points of a
display. The views of an edge agree where the first contact that has the position is the same in each, and its
stretch keeps a whole point.
-/

namespace Zflow.App

open Lib Desktop

/-- The stretch of a rectangle along an edge. -/
def stretchOf (r : Rect) (edge : Edge) : Int × Int :=
  match edge with
  | .left | .right => (r.y, r.y + r.height)
  | .top | .bottom => (r.x, r.x + r.width)

/-- A stretch of an edge of `bounds`, rounded to whole points, has one on `monitor`. -/
def Overlaps (bounds monitor : Rect) (edge : Edge) (start stop : ℚ) : Prop :=
  let (origin, limit) := stretchOf bounds edge
  let (low, high) := stretchOf monitor edge
  max (origin + round (start * (limit - origin : Int))) low < min (origin + round (stop * (limit - origin : Int))) high

theorem isSome_entryRegion {selected : Geometry} {bounds : Rect} {edge : Edge} {start stop : ℚ} {current : Point}
    (hbounds : selected.bounds = .ok bounds) (haround : bounds.Around selected.monitors)
    (htouches : touches bounds edge current = true) : (entryRegion selected edge start stop current).isSome = true ↔
      ∃ monitor, selected.monitors.find? (·.contains current) = some monitor ∧
        Overlaps bounds monitor edge start stop := by
  unfold entryRegion
  rw [hbounds]
  cases hfind : selected.monitors.find? (·.contains current) with
  | none => simp [Except.toOption]
  | some monitor =>
    have hinside := haround.inside monitor (List.mem_of_find?_eq_some hfind)
    have hcurrent : monitor.contains current = true := by simpa using List.find?_some hfind
    have hcontains := Rect.contains_iff.mp hcurrent
    simp only [Except.toOption, Option.bind_eq_bind, Option.bind_some, Option.some.injEq, exists_eq_left']
    cases edge <;>
      simp only [touches, decide_eq_true_eq] at htouches <;>
      simp only [Overlaps, stretchOf, Rect.offset, add_sub_cancel_left, Int.cast_natCast, gt_iff_lt] <;>
      split <;> simp <;> omega

namespace Layout

variable {layout : Layout} {geometry : Geometry} {t : Transition} {monitor : Option String} {edge : Edge}
  {position : Nat}

/-- Each screen of this computer is the monitor of its desktop that it stands for: the walk of `validate` in
`src/app/handoff.rs`. -/
def Matches (layout : Layout) (geometry : Geometry) : Prop :=
  ∀ m ∈ layout.monitors, m.peer = none → m.active = true → ∃ selected bounds,
    geometry.forMonitor m.displayId = .ok selected ∧ selected.bounds = .ok bounds ∧
      match m.display with
      | none => bounds.width = m.width ∧ bounds.height = m.height
      | some display => display.bounds = bounds

/-- The computer past a crossing. -/
def beyond (layout : Layout) (t : Transition) : Option String := layout.monitors[t.target]?.bind Monitor.peer

/-- The stretch of the edge that `t` leaves over, rounded to whole points, has one on the monitor where the
pointer is. -/
def KeepsPoint (layout : Layout) (geometry : Geometry) (t : Transition) (point : Rect → Point) : Prop :=
  ∃ source selected bounds monitor, layout.monitors[t.source]? = some source ∧
    geometry.forMonitor source.displayId = .ok selected ∧ selected.bounds = .ok bounds ∧
    selected.monitors.find? (·.contains (point bounds)) = some monitor ∧
    Overlaps bounds monitor t.edge t.sourceStart t.sourceEnd

/-! ## Crossings over an edge here -/

/-- A crossing from a screen of this computer, on the monitor that it stands for. -/
structure Here (layout : Layout) (geometry : Geometry) (t : Transition) (source : Monitor) (selected : Geometry)
    (bounds : Rect) (peer : String) : Prop where
  found : layout.monitors[t.source]? = some source
  isLocal : source.peer = none
  leads : layout.beyond t = some peer
  selects : geometry.forMonitor source.displayId = .ok selected
  measures : selected.bounds = .ok bounds
  shows : ∀ display ∈ source.display, display.bounds = bounds
  here : Stretch t.sourceStart t.sourceEnd
  there : Stretch t.targetStart t.targetEnd

theorem here_of_mem (hvalid : layout.Valid) (hmatches : layout.Matches geometry) (ht : t ∈ layout.transitions)
    {source : Monitor} (hsource : layout.monitors[t.source]? = some source) (hlocal : source.peer = none) :
    ∃ selected bounds peer, layout.Here geometry t source selected bounds peer := by
  obtain ⟨a, b, hbetween⟩ := between_of_mem hvalid ht
  obtain rfl : a = source := Option.some.inj (hbetween.source.symm.trans hsource)
  obtain ⟨selected, bounds, hselected, hbounds, hdisplay⟩ :=
    hmatches a (List.mem_of_getElem? hsource) hlocal hbetween.sourceActive
  obtain ⟨peer, hpeer⟩ : ∃ peer, b.peer = some peer :=
    Option.ne_none_iff_exists'.mp fun hnone => hbetween.peers (hlocal.trans hnone.symm)
  refine ⟨selected, bounds, peer, hsource, hlocal, ?_, hselected, hbounds, fun display hmem => ?_,
    hbetween.sourceLong.stretch, hbetween.targetLong.stretch⟩
  · unfold beyond
    rw [hbetween.target]
    exact hpeer
  · rw [Option.mem_def.mp hmem] at hdisplay
    exact hdisplay

variable {source : Monitor} {selected : Geometry} {bounds : Rect} {peer : String}

theorem Here.around (h : layout.Here geometry t source selected bounds peer) : bounds.Around selected.monitors := by
  obtain ⟨found, hfound, haround⟩ := bounds_of_valid (forMonitor_eq_ok h.selects).1
  obtain rfl : bounds = found := Except.ok.inj (h.measures.symm.trans hfound)
  exact haround

/-- What the crossing keeps of the monitor it leaves is told by the monitor itself. -/
theorem Here.keepsPoint (h : layout.Here geometry t source selected bounds peer) {point : Rect → Point} :
    layout.KeepsPoint geometry t point ↔ ∃ monitor, selected.monitors.find? (·.contains (point bounds)) = some monitor ∧
      Overlaps bounds monitor t.edge t.sourceStart t.sourceEnd := by
  constructor
  · rintro ⟨source', selected', bounds', monitor, hsource, hselected, hbounds, hfind, hoverlaps⟩
    obtain rfl : source = source' := Option.some.inj (h.found.symm.trans hsource)
    obtain rfl : selected = selected' := Except.ok.inj (h.selects.symm.trans hselected)
    obtain rfl : bounds = bounds' := Except.ok.inj (h.measures.symm.trans hbounds)
    exact ⟨monitor, hfind, hoverlaps⟩
  · rintro ⟨monitor, hfind, hoverlaps⟩
    exact ⟨source, selected, bounds, monitor, h.found, h.selects, h.measures, hfind, hoverlaps⟩

/-- **A crossing is made** where its stretch keeps a point of the monitor, and goes to the computer past it. -/
theorem Here.made (h : layout.Here geometry t source selected bounds peer) {current : Point}
    (htouches : touches bounds t.edge current = true) {name : String} :
    (∃ handoff, layout.handoffAt geometry t current = some handoff ∧ handoff.peer = name) ↔
      name = peer ∧ layout.KeepsPoint geometry t fun _ => current := by
  rw [h.keepsPoint, ← isSome_entryRegion h.measures h.around htouches]
  have hranged : ReturnMapping.Ranged ⟨selected, t.edge, t.sourceStart, t.sourceEnd, t.targetStart, t.targetEnd⟩ :=
    ⟨(forMonitor_eq_ok h.selects).1, h.here, h.there⟩
  obtain ⟨position, hposition, -⟩ := hranged.fraction current
  obtain ⟨target, htarget, hpeer⟩ := Option.bind_eq_some_iff.mp h.leads
  unfold handoffAt
  rw [h.found]
  simp only [Option.bind_eq_bind, Option.bind_some, h.selects, hposition, Except.toOption]
  cases entryRegion selected t.edge t.sourceStart t.sourceEnd current with
  | none => simp
  | some region =>
    unfold entering
    simp [htarget, hpeer, eq_comm]

/-! ## Barriers -/

/-- The first crossing over that edge whose range, rounded to units, has the position. -/
def firstRounded (layout : Layout) (monitor : Option String) (edge : Edge) (position : Nat) : Option Transition :=
  layout.transitions.find? fun t => layout.leaves monitor edge t &&
    (units t.sourceStart ≤ position && position ≤ units t.sourceEnd)

/-- How far along an edge a position is. -/
def alongOf (position : Nat) : ℚ := (min position fractionMax : Nat) / (fractionMax : ℚ)

/-- The first one whose exact range has it. -/
def firstExact (layout : Layout) (monitor : Option String) (edge : Edge) (position : Nat) : Option Transition :=
  layout.transitions.find? fun t => layout.leaves monitor edge t &&
    (t.sourceStart ≤ alongOf position && alongOf position ≤ t.sourceEnd)

theorem leaves_iff : layout.leaves monitor edge t = true ↔ ∃ source, layout.monitors[t.source]? = some source ∧
    source.peer = none ∧ t.edge = edge ∧ source.displayId = monitor := by
  unfold leaves
  cases layout.monitors[t.source]? <;> simp [and_assoc]

theorem here_of_leaves (hvalid : layout.Valid) (hmatches : layout.Matches geometry) (ht : t ∈ layout.transitions)
    (hleaves : layout.leaves monitor edge t = true) : ∃ source selected bounds peer,
      layout.Here geometry t source selected bounds peer ∧ source.displayId = monitor ∧ t.edge = edge := by
  obtain ⟨source, hsource, hlocal, hedge, hmonitor⟩ := leaves_iff.mp hleaves
  obtain ⟨selected, bounds, peer, h⟩ := here_of_mem hvalid hmatches ht hsource hlocal
  exact ⟨source, selected, bounds, peer, h, hmonitor, hedge⟩

/-- The first crossing of some that leave a monitor over an edge is one of those. -/
theorem here_of_find (hvalid : layout.Valid) (hmatches : layout.Matches geometry) {has : Transition → Bool}
    (hfind : layout.transitions.find? (fun t => layout.leaves monitor edge t && has t) = some t) :
    ∃ source selected bounds peer,
      layout.Here geometry t source selected bounds peer ∧ source.displayId = monitor ∧ t.edge = edge := by
  have hhas := List.find?_some hfind
  rw [Bool.and_eq_true] at hhas
  exact here_of_leaves hvalid hmatches (List.mem_of_find?_eq_some hfind) hhas.1

/-- A barrier stands along each crossing over an edge here. -/
theorem outboundEdge_of (hvalid : layout.Valid) (ht : t ∈ layout.transitions) (position : Nat) :
    (layout.outboundEdge t).any (fun (range, _) => range.has monitor edge position) = (layout.leaves monitor edge t &&
        (units t.sourceStart ≤ position && position ≤ units t.sourceEnd)) ∧
      (layout.leaves monitor edge t = true → (layout.outboundEdge t).map (·.2) = layout.beyond t) := by
  obtain ⟨a, b, hbetween⟩ := between_of_mem hvalid ht
  have hstart := fraction_start hbetween.sourceLong.stretch
  have hstop := fraction_end hbetween.sourceLong.stretch
  have hlt := hbetween.sourceLong.units_lt
  unfold outboundEdge beyond leaves
  rw [hbetween.source, hbetween.target]
  simp only [Option.bind_eq_bind, Option.bind_some, hstart, hstop, hlt, if_true, Option.any_some]
  cases hlocal : a.peer with
  | some name => simp
  | none =>
    obtain ⟨peer, hpeer⟩ : ∃ peer, b.peer = some peer :=
      Option.ne_none_iff_exists'.mp fun hnone => hbetween.peers (hlocal.trans hnone.symm)
    simp [hpeer, OutboundEdge.has, Bool.and_comm, Bool.and_left_comm]

theorem edgePeer_outboundEdges (hvalid : layout.Valid) : edgePeer layout.outboundEdges monitor edge position =
    (layout.firstRounded monitor edge position).bind layout.beyond := by
  unfold edgePeer outboundEdges firstRounded
  rw [List.find?_filterMap, List.find?_congr fun t ht => (outboundEdge_of hvalid ht position).1]
  cases hfind : layout.transitions.find? fun t => layout.leaves monitor edge t &&
      (units t.sourceStart ≤ position && position ≤ units t.sourceEnd) with
  | none => rfl
  | some t =>
    have hfound := List.find?_some hfind
    rw [Bool.and_eq_true] at hfound
    exact (outboundEdge_of hvalid (List.mem_of_find?_eq_some hfind) position).2 hfound.1

theorem touches_outermost (bounds : Rect) (edge : Edge) (along : ℚ) :
    touches bounds edge (outermost bounds edge along) = true := by
  cases edge <;> exact decide_eq_true (by simp only [outermost]; omega)

/-- **The crossing for a reported push** is that of the first exact range that has the position, where it keeps
a point. -/
theorem fromEdge_iff (hvalid : layout.Valid) (hmatches : layout.Matches geometry) {name : String} :
    (∃ handoff, layout.fromEdge geometry monitor edge position = some handoff ∧ handoff.peer = name) ↔
      ∃ t, layout.firstExact monitor edge position = some t ∧ layout.beyond t = some name ∧
        layout.KeepsPoint geometry t fun bounds => outermost bounds edge (alongOf position) := by
  have hfirst : (layout.transitions.filter (layout.leaves monitor edge)).find? (fun t =>
      t.sourceStart ≤ alongOf position && alongOf position ≤ t.sourceEnd) = layout.firstExact monitor edge position := by
    rw [List.find?_filter]
    exact List.find?_congr fun t _ => by simp
  constructor
  · rintro ⟨handoff, hfrom, hname⟩
    obtain ⟨selected', hselected, hfrom⟩ := Option.bind_eq_some_iff.mp hfrom
    obtain ⟨bounds', hbounds, hfrom⟩ := Option.bind_eq_some_iff.mp hfrom
    obtain ⟨t, hfound, hmade⟩ := Option.bind_eq_some_iff.mp hfrom
    have hexact : layout.firstExact monitor edge position = some t := hfirst.symm.trans hfound
    obtain ⟨source, selected, bounds, peer, h, hmonitor, hedge⟩ := here_of_find hvalid hmatches hexact
    obtain rfl : selected = selected' :=
      Except.ok.inj (h.selects.symm.trans (hmonitor ▸ toOption_eq_some.mp hselected))
    obtain rfl : bounds = bounds' := Except.ok.inj (h.measures.symm.trans (toOption_eq_some.mp hbounds))
    obtain rfl := hedge
    obtain ⟨rfl, hkeeps⟩ := (h.made (touches_outermost bounds t.edge (alongOf position))).mp ⟨handoff, hmade, hname⟩
    exact ⟨t, hexact, h.leads, h.keepsPoint.mpr (h.keepsPoint.mp hkeeps)⟩
  · rintro ⟨t, hexact, hleads, hkeeps⟩
    obtain ⟨source, selected, bounds, peer, h, hmonitor, hedge⟩ := here_of_find hvalid hmatches hexact
    obtain rfl := hedge
    obtain rfl : name = peer := Option.some.inj (hleads.symm.trans h.leads)
    obtain ⟨handoff, hmade, hname⟩ := (h.made (touches_outermost bounds t.edge (alongOf position))).mpr
      ⟨rfl, h.keepsPoint.mpr (h.keepsPoint.mp hkeeps)⟩
    refine ⟨handoff, ?_, hname⟩
    unfold fromEdge
    have hselected : geometry.forMonitor monitor = .ok selected := hmonitor ▸ h.selects
    simp only [hselected, h.measures, Except.toOption, Option.bind_eq_bind, Option.bind_some]
    show ((layout.transitions.filter (layout.leaves monitor t.edge)).find? fun other =>
      other.sourceStart ≤ alongOf position && alongOf position ≤ other.sourceEnd).bind _ = _
    rw [hfirst, hexact]
    exact hmade

/-- The check of a barrier's report names the computer that the crossing goes to. -/
def ReportsAgree (layout : Layout) (geometry : Geometry) (monitor : Option String) (edge : Edge) (position : Nat) :
    Prop :=
  ∀ peer, edgePeer layout.outboundEdges monitor edge position = some peer ↔
    ∃ handoff, layout.fromEdge geometry monitor edge position = some handoff ∧ handoff.peer = peer

/-- **When it does**: the first range that has the position, rounded and exact, leads to one computer, and the
exact one keeps a point. -/
def ReportsHold (layout : Layout) (geometry : Geometry) (monitor : Option String) (edge : Edge) (position : Nat) :
    Prop :=
  let keeps (t : Transition) := layout.KeepsPoint geometry t fun bounds => outermost bounds edge (alongOf position)
  match layout.firstRounded monitor edge position, layout.firstExact monitor edge position with
  | none, none => True
  | some _, none => False
  | none, some exact_ => ¬ keeps exact_
  | some rounded, some exact_ => layout.beyond rounded = layout.beyond exact_ ∧ keeps exact_

theorem reportsAgree_iff (hvalid : layout.Valid) (hmatches : layout.Matches geometry) :
    layout.ReportsAgree geometry monitor edge position ↔ layout.ReportsHold geometry monitor edge position := by
  have hbeyond : ∀ {t : Transition} {has : Transition → Bool},
      layout.transitions.find? (fun t => layout.leaves monitor edge t && has t) = some t →
        ∃ peer, layout.beyond t = some peer := by
    intro t has hfind
    obtain ⟨_, _, _, peer, h, -⟩ := here_of_find hvalid hmatches hfind
    exact ⟨peer, h.leads⟩
  unfold ReportsAgree ReportsHold
  simp only [fromEdge_iff hvalid hmatches, edgePeer_outboundEdges hvalid]
  cases hr : layout.firstRounded monitor edge position with
  | none =>
    cases he : layout.firstExact monitor edge position with
    | none => simp
    | some e =>
      obtain ⟨peer, hpeer⟩ := hbeyond he
      simp [hpeer]
  | some r =>
    obtain ⟨peer, hpeer⟩ := hbeyond hr
    cases he : layout.firstExact monitor edge position with
    | none => simp [hpeer]
    | some e =>
      obtain ⟨other, hother⟩ := hbeyond he
      simp only [Option.bind_some, hpeer, hother, Option.some.injEq, exists_eq_left']
      refine ⟨fun h => ?_, ?_⟩
      · obtain ⟨rfl, hkeeps⟩ := (h peer).mp rfl
        exact ⟨rfl, hkeeps⟩
      · rintro ⟨rfl, hkeeps⟩ name
        exact ⟨fun hname => ⟨hname, hkeeps⟩, And.left⟩

/-! ## Guards -/

/-- The contact of `t` has the point: away from the corners, in its half-open range. -/
def Clear (bounds : Rect) (t : Transition) (point : Point) : Prop :=
  let offset := (bounds.offset t.edge point).1
  let span := (bounds.offset t.edge point).2
  deadCorner ≤ offset ∧ offset < span - deadCorner ∧ t.sourceStart ≤ (offset : ℚ) / span ∧
    (offset : ℚ) / span < t.sourceEnd

instance (bounds : Rect) (t : Transition) (point : Point) : Decidable (Clear bounds t point) :=
  inferInstanceAs (Decidable (_ ∧ _))

/-- Whether a pointer at `point` that pushes on over `edge` takes the crossing. -/
def takes (layout : Layout) (geometry : Geometry) (edge : Edge) (point : Point) (t : Transition) : Bool :=
  layout.monitors[t.source]?.any fun source => source.peer = none && t.edge = edge &&
    ((geometry.forMonitor source.displayId).toOption.bind (·.bounds.toOption)).any fun bounds =>
      bounds.contains point && touches bounds edge point && Clear bounds t point

/-- **A push takes the first crossing** that it may. -/
theorem reachingFrom_eq {current : Point} {wanted : Rect → Edge → Bool} (hwanted : ∀ bounds e, wanted bounds e = decide (e = edge))
    {transitions : List Transition} (hsources : ∀ t ∈ transitions, ∃ source, layout.monitors[t.source]? = some source) :
    layout.reachingFrom geometry current wanted transitions =
      (transitions.find? (layout.takes geometry edge current)).bind (layout.handoffAt geometry · current) := by
  induction transitions with
  | nil => rfl
  | cons t rest ih =>
    obtain ⟨source, hsource⟩ := hsources t (.head _)
    have ih := ih fun other hother => hsources other (.tail _ hother)
    have htakes : layout.takes geometry edge current t = (source.peer = none && t.edge = edge &&
        ((geometry.forMonitor source.displayId).toOption.bind (·.bounds.toOption)).any fun bounds =>
          bounds.contains current && touches bounds edge current && Clear bounds t current) := by
      unfold takes
      rw [hsource]
      rfl
    unfold reachingFrom
    rw [List.find?_cons, hsource, htakes]
    dsimp only
    cases hpeer : source.peer with
    | some name => simpa using ih
    | none =>
      cases hselected : geometry.forMonitor source.displayId with
      | error error => simpa [Except.toOption] using ih
      | ok selected =>
        obtain ⟨bounds, hbounds, -⟩ := bounds_of_valid (forMonitor_eq_ok hselected).1
        by_cases hedge : t.edge = edge
        · obtain rfl := hedge
          have hcorner : ((bounds.offset t.edge current).1 < deadCorner ∨
              (bounds.offset t.edge current).1 ≥ (bounds.offset t.edge current).2 - deadCorner ∨
              ((bounds.offset t.edge current).1 : ℚ) / (bounds.offset t.edge current).2 < t.sourceStart ∨
              ((bounds.offset t.edge current).1 : ℚ) / (bounds.offset t.edge current).2 ≥ t.sourceEnd) ↔
              ¬ Clear bounds t current := by
            unfold Clear
            simp only [not_and_or, not_le, not_lt, ge_iff_le]
          simp only [Option.isSome_none, Bool.false_eq_true, if_false, hbounds, hwanted, Except.toOption,
            Option.bind_some, Option.any_some, hcorner]
          cases hinside : bounds.contains current with
          | false => simpa using ih
          | true =>
            cases htouches : touches bounds t.edge current with
            | false => simpa using ih
            | true =>
              by_cases hclear : Clear bounds t current
              · simp [hclear]
              · simpa [hclear] using ih
        · simpa [hwanted, hedge, hbounds, Except.toOption] using ih

theorem takes_iff (hvalid : layout.Valid) (hmatches : layout.Matches geometry) (ht : t ∈ layout.transitions)
    {point : Point} : layout.takes geometry edge point t = true ↔ ∃ source selected bounds peer,
      layout.Here geometry t source selected bounds peer ∧ t.edge = edge ∧ bounds.contains point = true ∧
        touches bounds edge point = true ∧ Clear bounds t point := by
  constructor
  · intro h
    obtain ⟨source, hsource, h⟩ := (Option.any_eq_true _ _).mp h
    simp only [Bool.and_eq_true, decide_eq_true_eq] at h
    obtain ⟨⟨hlocal, hedge⟩, h⟩ := h
    obtain ⟨selected, bounds, peer, hhere⟩ := here_of_mem hvalid hmatches ht hsource hlocal
    rw [hhere.selects] at h
    simp only [Except.toOption, Option.bind_some, hhere.measures, Option.any_some, Bool.and_eq_true,
      decide_eq_true_eq] at h
    exact ⟨source, selected, bounds, peer, hhere, hedge, h.1.1, h.1.2, h.2⟩
  · rintro ⟨source, selected, bounds, peer, hhere, hedge, hcontains, htouches, hclear⟩
    unfold takes
    simp [hhere.found, hhere.isLocal, hhere.selects, hhere.measures, hedge, hcontains, htouches, hclear,
      Except.toOption]

/-- The direction out of a desktop over an edge, `step` far. -/
def outward (edge : Edge) (step : ℚ) : ℚ × ℚ :=
  match edge with
  | .left => (-step, 0)
  | .right => (step, 0)
  | .top => (0, -step)
  | .bottom => (0, step)

/-- **The crossing for a push outward** is the first that it may take, where that keeps a point. -/
theorem pushed_iff (hvalid : layout.Valid) (hmatches : layout.Matches geometry) {point : Point} {step : ℚ}
    (hstep : 0 < step) (hcontains : contains geometry point = true) {name : String} :
    (∃ handoff, layout.pushed geometry point (outward edge step).1 (outward edge step).2 = some handoff ∧
        handoff.peer = name) ↔
      ∃ t, layout.transitions.find? (layout.takes geometry edge point) = some t ∧ layout.beyond t = some name ∧
        layout.KeepsPoint geometry t fun _ => point := by
  have hpushed : layout.pushed geometry point (outward edge step).1 (outward edge step).2 =
      (layout.transitions.find? (layout.takes geometry edge point)).bind (layout.handoffAt geometry · point) := by
    unfold pushed reaching
    rw [if_pos hcontains]
    refine reachingFrom_eq (fun bounds e => ?_) fun t ht => ?_
    · cases edge <;> cases e <;> simp [outward, hstep, not_lt.mpr hstep.le]
    · obtain ⟨a, _, hbetween⟩ := between_of_mem hvalid ht
      exact ⟨a, hbetween.source⟩
  rw [hpushed]
  constructor
  · rintro ⟨handoff, hfound, hname⟩
    obtain ⟨t, hfind, hmade⟩ := Option.bind_eq_some_iff.mp hfound
    obtain ⟨source, selected, bounds, peer, h, rfl, -, htouches, -⟩ :=
      (takes_iff hvalid hmatches (List.mem_of_find?_eq_some hfind)).mp (List.find?_some hfind)
    obtain ⟨rfl, hkeeps⟩ := (h.made htouches).mp ⟨handoff, hmade, hname⟩
    exact ⟨t, hfind, h.leads, hkeeps⟩
  · rintro ⟨t, hfind, hleads, hkeeps⟩
    obtain ⟨source, selected, bounds, peer, h, rfl, -, htouches, -⟩ :=
      (takes_iff hvalid hmatches (List.mem_of_find?_eq_some hfind)).mp (List.find?_some hfind)
    obtain rfl : name = peer := Option.some.inj (hleads.symm.trans h.leads)
    obtain ⟨handoff, hmade, hname⟩ := (h.made htouches).mpr ⟨rfl, hkeeps⟩
    exact ⟨handoff, by rw [hfind]; exact hmade, hname⟩

/-- The point is at the line of the edge that `t` leaves over. -/
def AtLine (layout : Layout) (geometry : Geometry) (t : Transition) (point : Point) : Prop :=
  ∃ source selected bounds, layout.monitors[t.source]? = some source ∧
    geometry.forMonitor source.displayId = .ok selected ∧ selected.bounds = .ok bounds ∧
    onLine bounds t.edge point = true

theorem Here.atLine (h : layout.Here geometry t source selected bounds peer) {point : Point} :
    layout.AtLine geometry t point ↔ onLine bounds t.edge point = true := by
  constructor
  · rintro ⟨source', selected', bounds', hsource, hselected, hbounds, hline⟩
    obtain rfl : source = source' := Option.some.inj (h.found.symm.trans hsource)
    obtain rfl : selected = selected' := Except.ok.inj (h.selects.symm.trans hselected)
    obtain rfl : bounds = bounds' := Except.ok.inj (h.measures.symm.trans hbounds)
    exact hline
  · intro hline
    exact ⟨source, selected, bounds, h.found, h.selects, h.measures, hline⟩

/-- At the line of an edge, a contact has a point where its guard does. -/
theorem clear_iff {point : Point} (hsize : 0 < bounds.width ∧ 0 < bounds.height)
    (hline : onLine bounds t.edge point = true) :
    (bounds.contains point = true ∧ touches bounds t.edge point = true ∧ Clear bounds t point) ↔
      max ⌈t.sourceStart * (bounds.offset t.edge point).2⌉ deadCorner ≤ (bounds.offset t.edge point).1 ∧
        (bounds.offset t.edge point).1 <
          min ⌈t.sourceEnd * (bounds.offset t.edge point).2⌉ ((bounds.offset t.edge point).2 - deadCorner) := by
  have hspan : 0 < (bounds.offset t.edge point).2 := by
    cases t.edge
    · exact hsize.2
    · exact hsize.2
    · exact hsize.1
    · exact hsize.1
  have hpositive : (0 : ℚ) < (bounds.offset t.edge point).2 := by exact_mod_cast hspan
  have hinside : deadCorner ≤ (bounds.offset t.edge point).1 →
      (bounds.offset t.edge point).1 < (bounds.offset t.edge point).2 - deadCorner →
      bounds.contains point = true ∧ touches bounds t.edge point = true := by
    intro hlow hhigh
    rw [Rect.contains_iff]
    cases hedge : t.edge <;> rw [hedge] at hline hlow hhigh <;>
      simp only [onLine, Rect.offset, deadCorner, decide_eq_true_eq] at hline hlow hhigh <;>
      simp only [touches, decide_eq_true_eq] <;> omega
  unfold Clear
  dsimp only
  rw [max_le_iff, lt_min_iff, Int.ceil_le, Int.lt_ceil, le_div_iff₀ hpositive, div_lt_iff₀ hpositive]
  constructor
  · rintro ⟨-, -, hlow, hhigh, hstart, hstop⟩
    exact ⟨⟨hstart, hlow⟩, hstop, hhigh⟩
  · rintro ⟨⟨hstart, hlow⟩, hstop, hhigh⟩
    obtain ⟨hcontains, htouches⟩ := hinside hlow hhigh
    exact ⟨hcontains, htouches, hlow, hhigh, hstart, hstop⟩

/-- The guard of a crossing to a computer that is ready. -/
theorem Here.guard (h : layout.Here geometry t source selected bounds peer) (ready : String → Bool) {point : Point} :
    (∃ guard, layout.edgeGuard geometry ready t = some guard ∧ guard.holds edge point = true) ↔
      ready peer = true ∧ t.edge = edge ∧ onLine bounds t.edge point = true ∧
        max ⌈t.sourceStart * (bounds.offset t.edge point).2⌉ deadCorner ≤ (bounds.offset t.edge point).1 ∧
        (bounds.offset t.edge point).1 <
          min ⌈t.sourceEnd * (bounds.offset t.edge point).2⌉ ((bounds.offset t.edge point).2 - deadCorner) := by
  obtain ⟨target, htarget, hpeer⟩ := Option.bind_eq_some_iff.mp h.leads
  have hshows : source.display.any (·.bounds ≠ bounds) = false := by
    rw [Option.any_eq_false]
    intro display hdisplay
    simpa using h.shows display hdisplay
  unfold edgeGuard
  rw [h.found, htarget]
  simp only [Option.bind_eq_bind, Option.bind_some, hpeer, h.isLocal, h.selects, h.measures, hshows, Except.toOption]
  cases hready : ready peer with
  | false => simp
  | true =>
    cases t.edge <;> simp [Rect.offset, EdgeGuard.holds]
    all_goals
      constructor
      · rintro ⟨-, ⟨rfl, hline⟩, hlow, hhigh⟩
        dsimp only at hlow hhigh
        exact ⟨rfl, hline, by omega⟩
      · rintro ⟨rfl, hline, hlow, hhigh⟩
        exact ⟨by omega, ⟨rfl, hline⟩, by dsimp only; omega⟩

/-- Whether a crossing leads from here to a computer that is ready. -/
def toReady (layout : Layout) (ready : String → Bool) (t : Transition) : Bool :=
  layout.monitors[t.source]?.any (·.peer = none) && (layout.beyond t).any ready

theorem here_of_guard (hvalid : layout.Valid) (hmatches : layout.Matches geometry) (ht : t ∈ layout.transitions)
    {ready : String → Bool} {guard : EdgeGuard} (h : layout.edgeGuard geometry ready t = some guard) :
    ∃ source selected bounds peer, layout.Here geometry t source selected bounds peer ∧ ready peer = true := by
  obtain ⟨source, hsource, h⟩ := Option.bind_eq_some_iff.mp h
  obtain ⟨target, htarget, h⟩ := Option.bind_eq_some_iff.mp h
  obtain ⟨peer, hpeer, h⟩ := Option.bind_eq_some_iff.mp h
  by_cases hset : source.peer ≠ none ∨ ready peer = false
  · rw [if_pos hset] at h
    cases h
  simp only [ne_eq, not_or, not_not, Bool.not_eq_false] at hset
  obtain ⟨selected, bounds, found, hhere⟩ := here_of_mem hvalid hmatches ht hsource hset.1
  have hleads : layout.beyond t = some peer := by
    unfold beyond
    rw [htarget]
    exact hpeer
  obtain rfl : peer = found := Option.some.inj (hleads.symm.trans hhere.leads)
  exact ⟨source, selected, bounds, peer, hhere, hset.2⟩

/-- **A guard holds the point** where a contact has it at the edge's line, and leads to a computer that is ready. -/
theorem guard_iff (hvalid : layout.Valid) (hmatches : layout.Matches geometry) {ready : String → Bool}
    (hcontacts : (layout.transitions.filter (layout.toReady ready)).length ≤ 256) {point : Point} :
    (∃ guard ∈ layout.edgeGuards geometry ready, guard.holds edge point = true) ↔
      ∃ t ∈ layout.transitions, layout.takes geometry edge point t = true ∧ layout.AtLine geometry t point ∧
        (layout.beyond t).any ready = true := by
  have hall : layout.edgeGuards geometry ready = layout.transitions.filterMap (layout.edgeGuard geometry ready) := by
    unfold edgeGuards
    refine List.take_of_length_le (le_trans ?_ hcontacts)
    rw [List.length_filterMap_eq_countP, ← List.countP_eq_length_filter]
    refine List.countP_mono_left fun t ht hsome => ?_
    obtain ⟨guard, hset⟩ := Option.isSome_iff_exists.mp hsome
    obtain ⟨source, selected, bounds, peer, h, hready⟩ := here_of_guard hvalid hmatches ht hset
    unfold toReady
    simp [h.found, h.isLocal, h.leads, hready]
  rw [hall]
  constructor
  · rintro ⟨guard, hguard, hholds⟩
    obtain ⟨t, ht, hset⟩ := List.mem_filterMap.mp hguard
    obtain ⟨source, selected, bounds, peer, h, -⟩ := here_of_guard hvalid hmatches ht hset
    obtain ⟨hready, rfl, hline, hpoint⟩ := (h.guard ready).mp ⟨guard, hset, hholds⟩
    obtain ⟨hcontains, htouches, hclear⟩ :=
      (clear_iff (h.around.size (forMonitor_eq_ok h.selects).1) hline).mpr hpoint
    refine ⟨t, ht, (takes_iff hvalid hmatches ht).mpr ⟨source, selected, bounds, peer, h, rfl, hcontains, htouches,
      hclear⟩, h.atLine.mpr hline, ?_⟩
    rw [h.leads]
    exact hready
  · rintro ⟨t, ht, htakes, hline, hready⟩
    obtain ⟨source, selected, bounds, peer, h, rfl, hcontains, htouches, hclear⟩ :=
      (takes_iff hvalid hmatches ht).mp htakes
    have hatLine := h.atLine.mp hline
    rw [h.leads] at hready
    obtain ⟨guard, hset, hholds⟩ := (h.guard ready).mpr ⟨hready, rfl, hatLine,
      (clear_iff (h.around.size (forMonitor_eq_ok h.selects).1) hatLine).mp ⟨hcontains, htouches, hclear⟩⟩
    exact ⟨guard, List.mem_filterMap.mpr ⟨t, ht, hset⟩, hholds⟩

/-- The edge guards hold a pointer where a push outward goes to a computer that is ready. -/
def GuardsAgree (layout : Layout) (geometry : Geometry) (ready : String → Bool) (edge : Edge) (point : Point)
    (step : ℚ) : Prop :=
  (∃ guard ∈ layout.edgeGuards geometry ready, guard.holds edge point = true) ↔
    ∃ handoff, layout.pushed geometry point (outward edge step).1 (outward edge step).2 = some handoff ∧
      ready handoff.peer = true

/-- **When they do**, in the contacts that have the point. -/
structure GuardsHold (layout : Layout) (geometry : Geometry) (ready : String → Bool) (edge : Edge) (point : Point) :
    Prop where
  /-- Where one that has it at the edge's line leads to a computer that is ready, so does the first of all that
  have it, and keeps a point. -/
  crosses : ∀ t ∈ layout.transitions, layout.takes geometry edge point t = true → layout.AtLine geometry t point →
    (layout.beyond t).any ready = true → ∃ first,
      layout.transitions.find? (layout.takes geometry edge point) = some first ∧
        (layout.beyond first).any ready = true ∧ layout.KeepsPoint geometry first fun _ => point
  /-- Where the first does, so does one that has the point at the line: itself, where the point is at its. -/
  holds : ∀ first, layout.transitions.find? (layout.takes geometry edge point) = some first →
    (layout.beyond first).any ready = true → (layout.KeepsPoint geometry first fun _ => point) →
    ∃ t ∈ layout.transitions, layout.takes geometry edge point t = true ∧ layout.AtLine geometry t point ∧
      (layout.beyond t).any ready = true

theorem guardsAgree_iff (hvalid : layout.Valid) (hmatches : layout.Matches geometry) {ready : String → Bool}
    (hcontacts : (layout.transitions.filter (layout.toReady ready)).length ≤ 256) {point : Point} {step : ℚ}
    (hstep : 0 < step) (hcontains : contains geometry point = true) :
    layout.GuardsAgree geometry ready edge point step ↔ layout.GuardsHold geometry ready edge point := by
  have hpushed : (∃ handoff, layout.pushed geometry point (outward edge step).1 (outward edge step).2 = some handoff ∧
      ready handoff.peer = true) ↔ ∃ first, layout.transitions.find? (layout.takes geometry edge point) = some first ∧
        (layout.beyond first).any ready = true ∧ layout.KeepsPoint geometry first fun _ => point := by
    constructor
    · rintro ⟨handoff, hmade, hready⟩
      obtain ⟨first, hfirst, hleads, hkeeps⟩ :=
        (pushed_iff hvalid hmatches hstep hcontains).mp ⟨handoff, hmade, rfl⟩
      exact ⟨first, hfirst, by rw [hleads]; exact hready, hkeeps⟩
    · rintro ⟨first, hfirst, hready, hkeeps⟩
      obtain ⟨name, hleads, hname⟩ := (Option.any_eq_true _ _).mp hready
      obtain ⟨handoff, hmade, rfl⟩ := (pushed_iff hvalid hmatches hstep hcontains).mpr ⟨first, hfirst, hleads, hkeeps⟩
      exact ⟨handoff, hmade, hname⟩
  unfold GuardsAgree
  rw [guard_iff hvalid hmatches hcontacts, hpushed]
  constructor
  · intro h
    exact ⟨fun t ht htakes hline hready => h.mp ⟨t, ht, htakes, hline, hready⟩,
      fun first hfirst hready hkeeps => h.mpr ⟨first, hfirst, hready, hkeeps⟩⟩
  · intro h
    refine ⟨?_, ?_⟩
    · rintro ⟨t, ht, htakes, hline, hready⟩
      exact h.crosses t ht htakes hline hready
    · rintro ⟨first, hfirst, hready, hkeeps⟩
      exact h.holds first hfirst hready hkeeps

/-! ## The law -/

/-- **The views of an edge agree exactly so**: on Linux for every report, on the Mac for every push outward. -/
theorem views_agree_iff (layout : Layout) (geometry : Geometry) (hvalid : layout.validate = .ok ())
    (hmatches : layout.Matches geometry) :
    (∀ monitor edge position, layout.ReportsAgree geometry monitor edge position ↔
        layout.ReportsHold geometry monitor edge position) ∧
      ∀ ready edge point step, 0 < step → contains geometry point = true →
        (layout.transitions.filter (layout.toReady ready)).length ≤ 256 →
        (layout.GuardsAgree geometry ready edge point step ↔ layout.GuardsHold geometry ready edge point) :=
  ⟨fun _ _ _ => reportsAgree_iff (validate_eq_ok.mp hvalid) hmatches, fun _ _ _ _ hstep hcontains hcontacts =>
    guardsAgree_iff (validate_eq_ok.mp hvalid) hmatches hcontacts hstep hcontains⟩

/-- This computer's screen, and one to its right that two thirds of it touch. -/
def thirds : Layout :=
  ⟨[⟨"local", "This computer", none, none, 0, 0, 1000, 900⟩, ⟨"peer:b", "b", some "b", none, 1000, 0, 1000, 600⟩]⟩

def panel : Display := ⟨"panel", "Panel", ⟨0, 0, 1000, 1000⟩, 0, 0, true⟩

/-- A display drawn sixteen times as high as it is, and a screen that touches less than one of its points. -/
def narrow : Layout :=
  ⟨[⟨"local/panel", "Panel", none, some panel, 0, 0, 1000, 16000⟩,
    ⟨"peer:b", "b", some "b", none, 1000, 7994, 1000, 12⟩]⟩

theorem matches_thirds : thirds.Matches ⟨[⟨0, 0, 1000, 900⟩], []⟩ := by
  intro m hm hlocal _
  simp only [thirds, List.mem_cons, List.not_mem_nil, or_false] at hm
  rcases hm with rfl | rfl
  · exact ⟨⟨[⟨0, 0, 1000, 900⟩], []⟩, ⟨0, 0, 1000, 900⟩, rfl, rfl, rfl, rfl⟩
  · cases hlocal

theorem matches_narrow : narrow.Matches ⟨[panel.bounds], [panel]⟩ := by
  intro m hm hlocal _
  simp only [narrow, List.mem_cons, List.not_mem_nil, or_false] at hm
  rcases hm with rfl | rfl
  · exact ⟨⟨[panel.bounds], [panel]⟩, panel.bounds, by decide +kernel, by decide +kernel, rfl⟩
  · cases hlocal

theorem views_agree_iff_thirds : (thirds.ReportsAgree ⟨[⟨0, 0, 1000, 900⟩], []⟩ none .right 666667 ↔
        thirds.ReportsHold ⟨[⟨0, 0, 1000, 900⟩], []⟩ none .right 666667) ∧
      (thirds.GuardsAgree ⟨[⟨0, 0, 1000, 900⟩], []⟩ (fun _ => true) .right ⟨999, 300⟩ 1 ↔
        thirds.GuardsHold ⟨[⟨0, 0, 1000, 900⟩], []⟩ (fun _ => true) .right ⟨999, 300⟩) :=
  have hboth := views_agree_iff thirds ⟨[⟨0, 0, 1000, 900⟩], []⟩ (isOk_iff.mp (by decide +kernel)) matches_thirds
  ⟨hboth.1 none .right 666667, hboth.2 (fun _ => true) .right ⟨999, 300⟩ 1 one_pos (by decide) (by decide +kernel)⟩

/-- A range rounded up has a position that is past its end, and a guard holds the pointer where no whole point is
left to enter on. -/
theorem not_views_agree : (thirds.validate = .ok () ∧ thirds.Matches ⟨[⟨0, 0, 1000, 900⟩], []⟩ ∧
        ¬ thirds.ReportsAgree ⟨[⟨0, 0, 1000, 900⟩], []⟩ none .right 666667) ∧
      narrow.validate = .ok () ∧ narrow.Matches ⟨[panel.bounds], [panel]⟩ ∧
        ¬ narrow.GuardsAgree ⟨[panel.bounds], [panel]⟩ (fun _ => true) .right ⟨999, 500⟩ 1 := by
  refine ⟨⟨isOk_iff.mp (by decide +kernel), matches_thirds, fun h => ?_⟩, isOk_iff.mp (by decide +kernel),
    matches_narrow, fun h => ?_⟩
  · obtain ⟨handoff, hfrom, -⟩ := (h "b").mp (by decide +kernel)
    have hnone : (thirds.fromEdge ⟨[⟨0, 0, 1000, 900⟩], []⟩ none .right 666667).isSome = false := by decide +kernel
    rw [hfrom] at hnone
    cases hnone
  · have hheld : (narrow.edgeGuards ⟨[panel.bounds], [panel]⟩ fun _ => true).any
        (·.holds .right ⟨999, 500⟩) = true := by decide +kernel
    obtain ⟨handoff, hpushed, -⟩ := h.mp (List.any_eq_true.mp hheld)
    have hnone : (narrow.pushed ⟨[panel.bounds], [panel]⟩ ⟨999, 500⟩ 1 0).isSome = false := by decide +kernel
    rw [show narrow.pushed ⟨[panel.bounds], [panel]⟩ ⟨999, 500⟩ 1 0 = some handoff from hpushed] at hnone
    cases hnone

end Layout

end Zflow.App
