import Zflow.App.Landing
import Zflow.Laws.App.Transitions
import Zflow.Laws.Desktop.Mapping

/-!
# Every way off a computer leads somewhere

A handoff that is planned from a layout keeps what its next request and the next hop need: its range holds its
position, its routes are crossings of the layout, and its way home answers. Each hop keeps it again.
-/

namespace Zflow.App

open Lib Desktop

/-! ## Long enough -/

/-- A stretch of an edge that keeps a length when its ends are rounded. -/
structure Long (start stop : ℚ) : Prop where
  nonneg : 0 ≤ start
  long : start + 1 / maxDimension ≤ stop
  le_one : stop ≤ 1

section Stretches

variable {start stop : ℚ}

theorem Long.stretch (h : Long start stop) : Stretch start stop where
  nonneg := h.nonneg
  lt := by
    have := h.long
    have hpositive : (0 : ℚ) < 1 / maxDimension := by norm_num [maxDimension]
    linarith
  le_one := h.le_one

theorem Long.units_lt (h : Long start stop) : units start < units stop := by
  refine Desktop.units_lt h.nonneg (le_trans ?_ h.long)
  have hle : (1 : ℚ) / fractionMax ≤ 1 / maxDimension := by norm_num [fractionMax, maxDimension]
  linarith

theorem fraction_start (h : Stretch start stop) : fraction start = units start :=
  congrArg units (clamped_of_mem h.nonneg (h.lt.le.trans h.le_one))

theorem fraction_end (h : Stretch start stop) : fraction stop = units stop :=
  congrArg units (clamped_of_mem (h.nonneg.trans h.lt.le) h.le_one)

end Stretches

theorem long_of_partOf {edge : Int × Int} {start stop : Int} (hlength : edge.2 - edge.1 ≤ maxDimension)
    (hstart : edge.1 ≤ start) (hshares : start < stop) (hstop : stop ≤ edge.2) :
    Long (partOf edge start) (partOf edge stop) := by
  have hpositive : (0 : ℚ) < ((edge.2 - edge.1 : Int) : ℚ) := by
    exact_mod_cast Int.sub_pos.mpr (lt_of_le_of_lt hstart (lt_of_lt_of_le hshares hstop))
  have hmax : ((edge.2 - edge.1 : Int) : ℚ) ≤ maxDimension := by exact_mod_cast hlength
  refine ⟨?_, ?_, ?_⟩
  · exact div_nonneg (by exact_mod_cast Int.sub_nonneg.mpr hstart) hpositive.le
  · have hstep : (1 : ℚ) ≤ ((stop - edge.1 : Int) : ℚ) - ((start - edge.1 : Int) : ℚ) := by
      have : (1 : Int) ≤ (stop - edge.1) - (start - edge.1) := by omega
      exact_mod_cast this
    have hunit : (1 : ℚ) / maxDimension ≤ 1 / ((edge.2 - edge.1 : Int) : ℚ) :=
      one_div_le_one_div_of_le hpositive hmax
    calc partOf edge start + 1 / maxDimension ≤ partOf edge start + 1 / ((edge.2 - edge.1 : Int) : ℚ) := by linarith
      _ = (((start - edge.1 : Int) : ℚ) + 1) / ((edge.2 - edge.1 : Int) : ℚ) := (add_div _ _ _).symm
      _ ≤ partOf edge stop := div_le_div_of_nonneg_right (by linarith) hpositive.le
  · exact (div_le_one hpositive).mpr (by exact_mod_cast Int.sub_le_sub_right hstop _)

theorem Monitor.Valid.along {m : Monitor} (h : m.Valid) (edge : Edge) :
    (m.bounds.along edge).2 - (m.bounds.along edge).1 ≤ maxDimension := by
  have hgeometry := h.geometry
  unfold Monitor.validGeometry at hgeometry
  simp only [Bool.and_eq_true, decide_eq_true_eq] at hgeometry
  cases edge <;> simp only [Bounds.along, Monitor.bounds] <;> omega

theorem Monitor.Valid.displayId {m : Monitor} (h : m.Valid) : m.displayId.all validId = true := by
  unfold Monitor.displayId
  cases hdisplay : m.display with
  | none => rfl
  | some display => exact (names_of_display (h.display display hdisplay)).1

/-- The way home that a hop keeps. -/
structure Plan.Returns (plan : Plan) : Prop where
  mapping : plan.returnMapping.Valid
  start : units plan.returnMapping.remoteStart ≤ plan.origin
  stop : plan.origin ≤ units plan.returnMapping.remoteEnd

namespace Layout

variable {layout : Layout} {geometry : Geometry} {t : Transition} {handoff : Handoff String Measured}

/-- Both stretches of a crossing are long enough. -/
theorem Joins.long {a b : Monitor} {start stop : Int} (hvalid : layout.Valid) (h : layout.Joins t a b start stop) :
    Long t.sourceStart t.sourceEnd ∧ Long t.targetStart t.targetEnd := by
  have hcontact := h.crosses.contact
  have hshares := hcontact.shares
  have hstart := hcontact.start_eq
  have hstop := hcontact.stop_eq
  have ha := hvalid.monitors a (List.mem_of_getElem? h.source)
  have hb := hvalid.monitors b (List.mem_of_getElem? h.target)
  rw [h.crosses.sourceStart, h.crosses.sourceEnd, h.crosses.targetStart, h.crosses.targetEnd]
  exact ⟨long_of_partOf (ha.along t.edge) (by omega) hshares (by omega),
    long_of_partOf (hb.along t.edge) (by omega) hshares (by omega)⟩

/-- What a crossing of an accepted layout is between. -/
structure Between (layout : Layout) (t : Transition) (a b : Monitor) : Prop where
  source : layout.monitors[t.source]? = some a
  target : layout.monitors[t.target]? = some b
  peers : a.peer ≠ b.peer
  sourceActive : a.active = true
  sourceValid : a.Valid
  targetValid : b.Valid
  sourceLong : Long t.sourceStart t.sourceEnd
  targetLong : Long t.targetStart t.targetEnd

theorem between_of_mem (hvalid : layout.Valid) (ht : t ∈ layout.transitions) : ∃ a b, layout.Between t a b := by
  obtain ⟨a, b, start, stop, h⟩ := (mem_transitions hvalid).mp ht
  obtain ⟨hsource, htarget⟩ := h.long hvalid
  exact ⟨a, b, h.source, h.target, h.peers, h.sourceActive, hvalid.monitors a (List.mem_of_getElem? h.source),
    hvalid.monitors b (List.mem_of_getElem? h.target), hsource, htarget⟩

/-! ## Routes -/

/-- **A way off a computer's screens**: the exit is the source side of a crossing of the layout, and leads to
its target. -/
structure Leads (layout : Layout) (geometry : Geometry) (route : Route String Measured) (t : Transition)
    (target : Monitor) : Prop where
  mem : t ∈ layout.transitions
  found : layout.monitors[t.target]? = some target
  monitor : route.exit_.monitor.all validId = true
  start : route.exit_.start = units t.sourceStart
  stop : route.exit_.stop = units t.sourceEnd
  onward : onwardOf geometry t target = some route.onward

theorem leads_of_mem (hvalid : layout.Valid) {peer : String} {route : Route String Measured}
    (h : route ∈ layout.routes geometry peer) : ∃ t target, layout.Leads geometry route t target := by
  have hfound : route ∈ layout.transitions.filterMap (layout.routeOf geometry peer) := by
    have hmem := List.mem_of_mem_take h
    rw [List.mem_append, List.mem_filter, List.mem_filter] at hmem
    exact hmem.elim And.left And.left
  obtain ⟨t, ht, hroute⟩ := List.mem_filterMap.mp hfound
  obtain ⟨a, b, hbetween⟩ := between_of_mem hvalid ht
  unfold routeOf at hroute
  rw [hbetween.source, hbetween.target] at hroute
  simp only [Option.bind_eq_bind, Option.bind_some] at hroute
  split at hroute
  · cases hroute
  obtain ⟨onward, honward, hroute⟩ := Option.bind_eq_some_iff.mp hroute
  split at hroute
  · cases hroute
    exact ⟨t, b, ht, hbetween.target, hbetween.sourceValid.displayId, fraction_start hbetween.sourceLong.stretch,
      fraction_end hbetween.sourceLong.stretch, honward⟩
  · cases hroute

/-- A way home is a mapping onto a screen of this computer. -/
theorem onwardOf_home {target : Monitor} {onward : Onward String Measured} (h : onwardOf geometry t target = some onward)
    (hhere : target.peer = none) : ∃ selected, geometry.forMonitor target.displayId = .ok selected ∧ onward =
      .home (.mapping ⟨selected, opposite t.edge, t.targetStart, t.targetEnd, t.sourceStart, t.sourceEnd⟩) := by
  unfold onwardOf at h
  rw [hhere] at h
  obtain ⟨selected, hselected, rfl⟩ := Option.map_eq_some_iff.mp h
  exact ⟨selected, toOption_eq_some.mp hselected, rfl⟩

/-! ## The invariant -/

/-- **What a planned handoff keeps.** -/
structure Sound (layout : Layout) (geometry : Geometry) (handoff : Handoff String Measured) (plan : Plan) :
    Prop where
  planned : handoff.plan = .plan plan
  ofLayout : plan.layout = layout
  ofGeometry : plan.sourceGeometry = geometry
  returns : plan.Returns
  monitor : handoff.monitor.all validId = true
  range : handoff.start < handoff.stop ∧ handoff.stop ≤ fractionMax
  position : handoff.start ≤ handoff.position ∧ handoff.position ≤ handoff.stop
  length : handoff.routes.length ≤ maxExits
  routes : ∀ route ∈ handoff.routes, ∃ t target, layout.Leads geometry route t target

/-- The handoff enters the target of `t`, in its range. -/
structure Enters (layout : Layout) (handoff : Handoff String Measured) (t : Transition) : Prop where
  target : ∃ screen, layout.monitors[t.target]? = some screen ∧ screen.peer = some handoff.peer ∧
    handoff.monitor = screen.displayId
  edge : handoff.edge = opposite t.edge
  start : handoff.start = units t.targetStart
  stop : handoff.stop = units t.targetEnd
  position : handoff.start ≤ handoff.position ∧ handoff.position ≤ handoff.stop

theorem entering_sound (hvalid : layout.Valid) (ht : t ∈ layout.transitions) {position origin : Nat} {region : Rect}
    {mapping : ReturnMapping} (hstart : units t.targetStart ≤ position) (hstop : position ≤ units t.targetEnd)
    (hreturns : Plan.Returns ⟨geometry, region, mapping, origin, layout⟩)
    (h : layout.entering geometry t position region mapping origin = some handoff) :
    layout.Sound geometry handoff ⟨geometry, region, mapping, origin, layout⟩ ∧
      layout.Enters handoff t := by
  obtain ⟨a, b, hbetween⟩ := between_of_mem hvalid ht
  have hlong := hbetween.targetLong
  unfold entering at h
  rw [hbetween.target] at h
  simp only [Option.bind_eq_bind, Option.bind_some] at h
  obtain ⟨peer, hpeer, h⟩ := Option.bind_eq_some_iff.mp h
  cases h
  have hfirst := fraction_start hlong.stretch
  have hlast := fraction_end hlong.stretch
  refine ⟨⟨rfl, rfl, rfl, hreturns, hbetween.targetValid.displayId, ?_, ?_, List.length_take_le _ _,
    fun route hroute => leads_of_mem hvalid hroute⟩, ⟨b, hbetween.target, hpeer, rfl⟩, rfl, hfirst, hlast, ?_⟩
  · dsimp only
    rw [hfirst, hlast]
    exact ⟨hlong.units_lt, units_le hlong.le_one⟩
  · exact ⟨hfirst.trans_le hstart, hstop.trans_eq hlast.symm⟩
  · exact ⟨hfirst.trans_le hstart, hstop.trans_eq hlast.symm⟩

theorem handoffAt_sound (hvalid : layout.Valid) (hroomy : Roomy geometry) (ht : t ∈ layout.transitions)
    {current : Point} (h : layout.handoffAt geometry t current = some handoff) :
    ∃ plan, layout.Sound geometry handoff plan := by
  obtain ⟨a, b, hbetween⟩ := between_of_mem hvalid ht
  unfold handoffAt at h
  rw [hbetween.source] at h
  simp only [Option.bind_eq_bind, Option.bind_some] at h
  obtain ⟨selected, hselected, h⟩ := Option.bind_eq_some_iff.mp h
  obtain ⟨hgeometry, hsubset⟩ := forMonitor_eq_ok (toOption_eq_some.mp hselected)
  obtain ⟨region, -, h⟩ := Option.bind_eq_some_iff.mp h
  obtain ⟨position, hposition, h⟩ := Option.bind_eq_some_iff.mp h
  have hmapping : ReturnMapping.Valid ⟨selected, t.edge, t.sourceStart, t.sourceEnd, t.targetStart, t.targetEnd⟩ :=
    ⟨⟨hgeometry, hbetween.sourceLong.stretch, hbetween.targetLong.stretch⟩, fun r hr => hroomy r (hsubset r hr)⟩
  obtain ⟨found, hfound, hstart, hstop⟩ := hmapping.fraction current
  obtain rfl : position = found :=
    Except.ok.inj ((toOption_eq_some.mp hposition).symm.trans hfound)
  exact ⟨_, (entering_sound hvalid ht hstart hstop ⟨hmapping, hstart, hstop⟩ h).1⟩

theorem reachingFrom_eq_some {current : Point} {wanted : Rect → Edge → Bool} {transitions : List Transition}
    (h : layout.reachingFrom geometry current wanted transitions = some handoff) :
    ∃ t ∈ transitions, layout.handoffAt geometry t current = some handoff := by
  induction transitions with
  | nil => cases h
  | cons t rest ih =>
    have hlater : layout.reachingFrom geometry current wanted rest = some handoff →
        ∃ other ∈ t :: rest, layout.handoffAt geometry other current = some handoff := fun h =>
      (ih h).imp fun _ => .imp_left (.tail _)
    unfold reachingFrom at h
    cases hsource : layout.monitors[t.source]? with
    | none =>
      rw [hsource] at h
      cases h
    | some source =>
      rw [hsource] at h
      dsimp only at h
      split at h
      · exact hlater h
      split at h
      · exact hlater h
      split at h
      · cases h
      split at h
      · exact hlater h
      split at h
      · exact hlater h
      · exact ⟨t, .head _, h⟩

/-! ## The next step -/

/-- A mapping back onto a screen of this computer. -/
def OntoHere (layout : Layout) (geometry : Geometry) (mapping : ReturnMapping) : Prop :=
  ∃ screen ∈ layout.monitors, screen.peer = none ∧ geometry.forMonitor screen.displayId = .ok mapping.geometry

/-- **Where a listed exit leads**: home, at a point near the mapped edge, or onto the computer past it. -/
inductive Continues (layout : Layout) (geometry : Geometry) (route : Route String Measured) (plan : Plan) :
    Next String Measured → Prop where
  | home (mapping : ReturnMapping) (point : Point) (hroute : route.onward = .home (.mapping mapping))
      (honto : layout.OntoHere geometry mapping) (hlands : mapping.Lands point) :
      Continues layout geometry route plan (.home point)
  | hop (t : Transition) (next : Handoff String Measured) (ht : t ∈ layout.transitions)
      (hroute : route.onward = .peer next.peer (.transition t)) (henters : layout.Enters next t)
      (hsound : layout.Sound geometry next plan) : Continues layout geometry route plan (.hop next)

theorem next_continues (hvalid : layout.Valid) (hroomy : Roomy geometry) {plan : Plan}
    (hsound : layout.Sound geometry handoff plan) {i position : Nat} {route : Route String Measured}
    (hroute : handoff.routes[i]? = some route) (hstart : route.exit_.start ≤ position)
    (hstop : position ≤ route.exit_.stop) :
    ∃ next, handoff.next i position = .ok next ∧ layout.Continues geometry route plan next := by
  obtain ⟨t, target, hleads⟩ := hsound.routes route (List.mem_of_getElem? hroute)
  obtain ⟨a, b, hbetween⟩ := between_of_mem hvalid hleads.mem
  obtain rfl : b = target := Option.some.inj (hbetween.target.symm.trans hleads.found)
  have hgood : (!(route.exit_.start ≤ position && position ≤ route.exit_.stop)) = false := by simp [hstart, hstop]
  rw [hleads.start] at hstart
  rw [hleads.stop] at hstop
  unfold Handoff.next
  rw [hroute]
  dsimp only
  rw [hgood, if_neg Bool.false_ne_true]
  cases hpeer : b.peer with
  | none =>
    obtain ⟨selected, hselected, honward⟩ := onwardOf_home hleads.onward hpeer
    obtain ⟨hgeometry, hsubset⟩ := forMonitor_eq_ok hselected
    have hmapping : ReturnMapping.Valid
        ⟨selected, opposite t.edge, t.targetStart, t.targetEnd, t.sourceStart, t.sourceEnd⟩ :=
      ⟨⟨hgeometry, hbetween.targetLong.stretch, hbetween.sourceLong.stretch⟩, fun r hr => hroomy r (hsubset r hr)⟩
    obtain ⟨point, hpoint, hlands⟩ := hmapping.position hstart hstop
    rw [honward]
    refine ⟨.home point, ?_, .home _ point honward ⟨b, List.mem_of_getElem? hbetween.target, hpeer, hselected⟩ hlands⟩
    show Except.map _ (ReturnMapping.position _ position) = _
    rw [hpoint]
    rfl
  | some peer =>
    have honward : route.onward = .peer peer (.transition t) := by
      have h := hleads.onward
      unfold onwardOf at h
      rw [hpeer] at h
      exact (Option.some.inj h).symm
    have hlong := hbetween.targetLong.stretch
    let entry := carried t.sourceStart t.sourceEnd t.targetStart t.targetEnd ((position : ℚ) / fractionMax)
    have hlow : t.targetStart ≤ entry := le_carried hlong.lt.le
    have hhigh : entry ≤ t.targetEnd := carried_le hlong.lt.le
    have hentry : fraction entry = units entry :=
      congrArg units (clamped_of_mem (hlong.nonneg.trans hlow) (hhigh.trans hlong.le_one))
    obtain ⟨next, hnext⟩ : ∃ next, layout.entering geometry t (fraction entry) plan.entryRegion plan.returnMapping
        plan.origin = some next := by
      unfold entering
      rw [hbetween.target]
      simp only [Option.bind_eq_bind, Option.bind_some]
      rw [hpeer]
      exact ⟨_, rfl⟩
    have hentering : Landing.entering handoff (.transition t) position = some next := by
      simp only [Landing.entering, hsound.planned]
      rw [hsound.ofLayout, hsound.ofGeometry, hnext]
    have hsame : plan = ⟨geometry, plan.entryRegion, plan.returnMapping, plan.origin, layout⟩ := by
      obtain rfl := hsound.ofLayout
      obtain rfl := hsound.ofGeometry
      rfl
    obtain ⟨hnextSound, henters⟩ := entering_sound hvalid hleads.mem (hentry ▸ units_mono hlow)
      (hentry ▸ units_mono hhigh) (hsame ▸ hsound.returns) hnext
    rw [← hsame] at hnextSound
    rw [honward]
    dsimp only
    rw [hentering]
    refine ⟨.hop next, rfl, .hop t next hleads.mem (honward.trans ?_) henters hnextSound⟩
    obtain ⟨screen, hscreen, hname, -⟩ := henters.target
    obtain rfl : b = screen := Option.some.inj (hbetween.target.symm.trans hscreen)
    rw [Option.some.inj (hpeer.symm.trans hname)]

/-! ## The law -/

/-- A handoff from an edge of this computer, or from a hop, with some of its routes dropped. -/
inductive Planned (layout : Layout) (geometry : Geometry) : Handoff String Measured → Prop where
  | fromEdge {handoff : Handoff String Measured} (monitor : Option String) (edge : Edge) (position : Nat)
      (h : layout.fromEdge geometry monitor edge position = some handoff) : Planned layout geometry handoff
  | crossing {handoff : Handoff String Measured} (previous current : Point) (h : layout.crossing geometry previous current = some handoff) :
      Planned layout geometry handoff
  | pushed {handoff : Handoff String Measured} (current : Point) (dx dy : ℚ) (h : layout.pushed geometry current dx dy = some handoff) :
      Planned layout geometry handoff
  | onEdge {handoff : Handoff String Measured} (edge : Edge) (current : Point) (h : layout.onEdge geometry edge current = some handoff) :
      Planned layout geometry handoff
  | kept {handoff : Handoff String Measured} (reachable : String → Bool) (h : Planned layout geometry handoff) :
      Planned layout geometry (handoff.keepRoutes reachable)
  | hop {handoff next : Handoff String Measured} (exit_ position : Nat) (h : Planned layout geometry handoff)
      (hnext : handoff.next exit_ position = .ok (.hop next)) : Planned layout geometry next

theorem reaching_sound (hvalid : layout.Valid) (hroomy : Roomy geometry) {current : Point}
    {wanted : Rect → Edge → Bool} (h : layout.reaching geometry current wanted = some handoff) :
    ∃ plan, layout.Sound geometry handoff plan := by
  unfold reaching at h
  split at h
  · obtain ⟨t, ht, h⟩ := reachingFrom_eq_some h
    exact handoffAt_sound hvalid hroomy ht h
  · cases h

/-- What the next step starts from. -/
theorem next_eq_ok {i position : Nat} {next : Next String Measured} (h : handoff.next i position = .ok next) :
    ∃ route, handoff.routes[i]? = some route ∧ route.exit_.start ≤ position ∧ position ≤ route.exit_.stop := by
  unfold Handoff.next at h
  cases hroute : handoff.routes[i]? with
  | none =>
    rw [hroute] at h
    cases h
  | some route =>
    rw [hroute] at h
    dsimp only at h
    split at h
    · cases h
    · rename_i hrange
      simp only [Bool.not_eq_true, Bool.not_eq_false', Bool.and_eq_true, decide_eq_true_eq] at hrange
      exact ⟨route, rfl, hrange⟩

/-- **Each handoff that is planned is sound.** -/
theorem planned_sound (hvalid : layout.Valid) (hroomy : Roomy geometry) (h : layout.Planned geometry handoff) :
    ∃ plan, layout.Sound geometry handoff plan := by
  induction h with
  | fromEdge monitor edge position h =>
    obtain ⟨selected, -, h⟩ := Option.bind_eq_some_iff.mp h
    obtain ⟨bounds, -, h⟩ := Option.bind_eq_some_iff.mp h
    obtain ⟨t, hfound, h⟩ := Option.bind_eq_some_iff.mp h
    exact handoffAt_sound hvalid hroomy (List.mem_of_mem_filter (List.mem_of_find?_eq_some hfound)) h
  | crossing previous current h =>
    unfold crossing at h
    split at h
    · exact reaching_sound hvalid hroomy h
    · cases h
  | pushed current dx dy h => exact reaching_sound hvalid hroomy h
  | onEdge edge current h => exact reaching_sound hvalid hroomy h
  | kept reachable h ih =>
    obtain ⟨plan, hsound⟩ := ih
    exact ⟨plan, { hsound with
      length := (List.length_filter_le _ _).trans hsound.length
      routes := fun route hroute => hsound.routes route (List.mem_of_mem_filter hroute) }⟩
  | hop exit_ position h hnext ih =>
    obtain ⟨plan, hsound⟩ := ih
    obtain ⟨route, hroute, hstart, hstop⟩ := next_eq_ok hnext
    obtain ⟨found, hfound, hcontinues⟩ := next_continues hvalid hroomy hsound hroute hstart hstop
    obtain rfl := Except.ok.inj (hnext.symm.trans hfound)
    cases hcontinues with
    | hop t next ht honward henters hnextSound => exact ⟨plan, hnextSound⟩

/-- **A handoff that never strands the pointer.** -/
structure Answers (layout : Layout) (geometry : Geometry) (handoff : Handoff String Measured) : Prop where
  prepare : ∀ token, 0 < token → token ≤ maxToken → (handoff.prepare token).validate = .ok ()
  /-- Every listed exit leads on, at every position of its range. -/
  next : ∀ i route position, handoff.routes[i]? = some route → route.exit_.start ≤ position →
    position ≤ route.exit_.stop → ∃ next, handoff.next i position = .ok next
  /-- Home is on a display of the monitor that is mapped, near the edge that is. -/
  comesHome : ∀ i position point, handoff.next i position = .ok (.home point) →
    ∃ route mapping, handoff.routes[i]? = some route ∧ route.onward = .home (.mapping mapping) ∧
      layout.OntoHere geometry mapping ∧ mapping.Lands point
  /-- A hop enters the target of its crossing in the range there, and keeps the way home. -/
  hops : ∀ i position next, handoff.next i position = .ok (.hop next) → ∃ route t plan,
    handoff.routes[i]? = some route ∧ route.onward = .peer next.peer (.transition t) ∧ layout.Enters next t ∧
      handoff.plan = .plan plan ∧ next.plan = .plan plan
  home : ∃ point, handoff.home = .ok point

theorem Sound.prepare (hvalid : layout.Valid) {plan : Plan} (h : layout.Sound geometry handoff plan) {token : Nat} (hpositive : 0 < token)
    (hmax : token ≤ maxToken) : (handoff.prepare token).validate = .ok () := by
  have hrange := h.range
  have hposition := h.position
  have hexits : ∀ exit_ ∈ handoff.routes.map Route.exit_, refuseIf (!(exit_.monitor.all validId &&
      exit_.start < exit_.stop && exit_.stop ≤ fractionMax)) "Invalid desktop exit" = .ok () := by
    intro exit_ hexit
    obtain ⟨route, hroute, rfl⟩ := List.mem_map.mp hexit
    obtain ⟨t, target, hleads⟩ := h.routes route hroute
    obtain ⟨a, b, hbetween⟩ := between_of_mem hvalid hleads.mem
    have hlong := hbetween.sourceLong
    rw [refuseIf_eq_ok, hleads.start, hleads.stop, hleads.monitor]
    simp [hlong.units_lt, units_le hlong.le_one]
  refine check_bind_eq_ok.mpr ⟨?_, check_bind_eq_ok.mpr ⟨?_, check_bind_eq_ok.mpr ⟨?_, check_bind_eq_ok.mpr ⟨?_, ?_⟩⟩⟩⟩
  · simp [DesktopRequest.token, Handoff.prepare, hpositive, hmax]
  · simp [Handoff.prepare, h.monitor]
  · simp [Handoff.prepare, hrange, hposition]
  · simp [Handoff.prepare, h.length]
  · exact forM_eq_ok.mpr hexits

theorem handoffs_answer (layout : Layout) (geometry : Geometry) (handoff : Handoff String Measured)
    (hvalid : layout.validate = .ok ()) (hroomy : Roomy geometry) (h : layout.Planned geometry handoff) :
    layout.Answers geometry handoff := by
  have hgood := validate_eq_ok.mp hvalid
  obtain ⟨plan, hsound⟩ := planned_sound hgood hroomy h
  refine ⟨fun token => hsound.prepare hgood, fun i route position hroute hstart hstop => ?_, fun i position point hnext => ?_,
    fun i position next hnext => ?_, ?_⟩
  · obtain ⟨next, hnext, -⟩ := next_continues hgood hroomy hsound hroute hstart hstop
    exact ⟨next, hnext⟩
  · obtain ⟨route, hroute, hstart, hstop⟩ := next_eq_ok hnext
    obtain ⟨found, hfound, hcontinues⟩ := next_continues hgood hroomy hsound hroute hstart hstop
    obtain rfl := Except.ok.inj (hnext.symm.trans hfound)
    cases hcontinues with
    | home mapping point honward honto hlands => exact ⟨route, mapping, hroute, honward, honto, hlands⟩
  · obtain ⟨route, hroute, hstart, hstop⟩ := next_eq_ok hnext
    obtain ⟨found, hfound, hcontinues⟩ := next_continues hgood hroomy hsound hroute hstart hstop
    obtain rfl := Except.ok.inj (hnext.symm.trans hfound)
    cases hcontinues with
    | hop t next ht honward henters hnextSound =>
      exact ⟨route, t, plan, hroute, honward, henters, hsound.planned, hnextSound.planned⟩
  · obtain ⟨point, hpoint, -⟩ := hsound.returns.mapping.position hsound.returns.start hsound.returns.stop
    refine ⟨point, ?_⟩
    unfold Handoff.home
    rw [hsound.planned]
    exact hpoint

/-- This computer's one monitor. -/
def whole : Geometry := ⟨[⟨0, 0, 1000, 1000⟩], []⟩

theorem handoffs_answer_stepped : ∃ handoff, stepped.fromEdge whole none .right 750000 = some handoff ∧
    handoff.peer = "b" ∧ handoff.position = 250000 ∧ handoff.routes.length = 1 ∧ stepped.Answers whole handoff := by
  have hfound : (stepped.fromEdge whole none .right 750000).map
      (fun handoff => (handoff.peer, handoff.position, handoff.routes.length)) = some ("b", 250000, 1) := by
    decide +kernel
  obtain ⟨handoff, hhandoff, heq⟩ := Option.map_eq_some_iff.mp hfound
  obtain ⟨hpeer, hposition, hlength⟩ : handoff.peer = "b" ∧ handoff.position = 250000 ∧ handoff.routes.length = 1 := by
    simpa using heq
  exact ⟨handoff, hhandoff, hpeer, hposition, hlength,
    handoffs_answer stepped whole handoff (isOk_iff.mp (by decide +kernel)) (by decide +kernel)
      (.fromEdge none .right 750000 hhandoff)⟩

end Layout

end Zflow.App
