import Zflow.App.Approach
import Zflow.Laws.App.Edges
import Zflow.Lib.Replay

/-!
# When an approach crosses

A pointer crosses over an edge at a point that leads to another computer (`LeadsTo`). `reached_cases` says once what a
look does. With pause at edges on, the pointer has been on its way for a while when it crosses (`reached_waits`); it
crosses once in a stay on an edge (`handoffs_stay`) and never back to a peer that just let go (`not_guarded`); and a push
counts once a hand-back has settled (`HandBack.reached_still`).

A pointer is on one edge at a time where the screens lie apart (`Layout.Apart`); on a screen three points wide it is on
two, and pushes out over each of them more than once (`not_one_push`).
-/

namespace Zflow.App

open Lib Desktop Pairing

namespace Layout

variable {layout : Layout} {geometry : Geometry} {t : Transition} {bounds : Rect} {point : Point} {edge : Edge}
  {handoff : Handoff String Measured}

/-- A screen of this computer, where the layout finds it. -/
def Screen (layout : Layout) (geometry : Geometry) (bounds : Rect) : Prop :=
  ∃ m ∈ layout.monitors, m.peer = none ∧ ∃ selected, geometry.forMonitor m.displayId = .ok selected ∧
    selected.bounds = .ok bounds

/-- A point at which `t` leaves the screen with those bounds. -/
structure Over (layout : Layout) (geometry : Geometry) (t : Transition) (bounds : Rect) (point : Point) : Prop where
  mem : t ∈ layout.transitions
  screen : layout.Screen geometry bounds
  contains : bounds.contains point = true
  touches : touches bounds t.edge point = true
  clear : Clear bounds t point

/-- Over that edge, the point leads to the computer. -/
def LeadsTo (layout : Layout) (geometry : Geometry) (edge : Edge) (peer : String) (point : Point) : Prop :=
  ∃ t bounds handoff, layout.Over geometry t bounds point ∧ t.edge = edge ∧
    layout.handoffAt geometry t point = some handoff ∧ handoff.peer = peer

theorem reachingFrom_over {wanted : Rect → Edge → Bool} {transitions : List Transition}
    (hsub : ∀ t ∈ transitions, t ∈ layout.transitions)
    (h : layout.reachingFrom geometry point wanted transitions = some handoff) :
    ∃ t bounds, layout.Over geometry t bounds point ∧ wanted bounds t.edge = true ∧
      layout.handoffAt geometry t point = some handoff := by
  induction transitions with
  | nil => cases h
  | cons t rest ih =>
    have ih := ih fun other hother => hsub other (.tail _ hother)
    unfold reachingFrom at h
    cases hsource : layout.monitors[t.source]? with
    | none =>
      rw [hsource] at h
      cases h
    | some source =>
      rw [hsource] at h
      dsimp only at h
      split at h
      · exact ih h
      rename_i hlocal
      split at h
      · exact ih h
      rename_i selected hselected
      split at h
      · cases h
      rename_i bounds hbounds
      split at h
      · exact ih h
      rename_i hon
      split at h
      · exact ih h
      rename_i hclear
      simp only [Bool.or_eq_true, Bool.not_eq_true', not_or, Bool.not_eq_false] at hon
      simp only [not_or, not_lt, not_le, ge_iff_le] at hclear
      refine ⟨t, bounds, ⟨hsub t (.head _), ?_, hon.1.1, hon.2, hclear⟩, hon.1.2, h⟩
      exact ⟨source, List.mem_of_getElem? hsource, by simpa using hlocal, selected, hselected, hbounds⟩

/-- **A crossing that is found leads over an edge** that was wanted. -/
theorem reaching_over {wanted : Rect → Edge → Bool} (h : layout.reaching geometry point wanted = some handoff) :
    ∃ t bounds, layout.Over geometry t bounds point ∧ wanted bounds t.edge = true ∧
      layout.handoffAt geometry t point = some handoff := by
  unfold reaching at h
  split at h
  · exact reachingFrom_over (fun _ => id) h
  · cases h

/-- The crossing through `t` leaves over its edge. -/
theorem handoffAt_returnEdge (h : layout.handoffAt geometry t point = some handoff) :
    handoff.returnEdge = t.edge := by
  unfold handoffAt at h
  obtain ⟨source, -, h⟩ := Option.bind_eq_some_iff.mp h
  obtain ⟨selected, -, h⟩ := Option.bind_eq_some_iff.mp h
  obtain ⟨region, -, h⟩ := Option.bind_eq_some_iff.mp h
  obtain ⟨position, -, h⟩ := Option.bind_eq_some_iff.mp h
  unfold entering at h
  obtain ⟨target, -, h⟩ := Option.bind_eq_some_iff.mp h
  obtain ⟨peer, -, h⟩ := Option.bind_eq_some_iff.mp h
  cases h
  rfl

theorem leadsTo_of_reaching {wanted : Rect → Edge → Bool} (h : layout.reaching geometry point wanted = some handoff) :
    layout.LeadsTo geometry handoff.returnEdge handoff.peer point := by
  obtain ⟨t, bounds, hover, -, hmade⟩ := reaching_over h
  exact ⟨t, bounds, handoff, hover, (handoffAt_returnEdge hmade).symm, hmade, rfl⟩

theorem onEdge_returnEdge (h : layout.onEdge geometry edge point = some handoff) : handoff.returnEdge = edge := by
  obtain ⟨t, bounds, -, hwanted, hmade⟩ := reaching_over h
  rw [handoffAt_returnEdge hmade]
  exact of_decide_eq_true hwanted

theorem crossing_leads {previous : Point} (h : layout.crossing geometry previous point = some handoff) :
    layout.LeadsTo geometry handoff.returnEdge handoff.peer point := by
  unfold crossing at h
  split at h
  · exact leadsTo_of_reaching h
  · cases h

/-! ## Screens that lie apart -/

/-- The screens of this computer do not overlap, and each is at least four points wide and high. -/
structure Apart (layout : Layout) (geometry : Geometry) : Prop where
  roomy : ∀ bounds, layout.Screen geometry bounds → 4 ≤ bounds.width ∧ 4 ≤ bounds.height
  disjoint : ∀ bounds other, layout.Screen geometry bounds → layout.Screen geometry other → ∀ point,
    bounds.contains point = true → other.contains point = true → bounds = other

/-- A point that is clear of the corners is on one edge of its screen. -/
theorem edge_unique {other : Transition} (hroomy : 4 ≤ bounds.width ∧ 4 ≤ bounds.height)
    (htouches : App.touches bounds t.edge point = true) (hclear : Clear bounds t point)
    (htouches' : App.touches bounds other.edge point = true) (hclear' : Clear bounds other point) :
    t.edge = other.edge := by
  have hcorner := hclear.1
  have hcorner' := hclear.2.1
  have hother := hclear'.1
  have hother' := hclear'.2.1
  cases hedge : t.edge <;> cases hedge' : other.edge <;> first
    | rfl
    | (exfalso
       rw [hedge] at htouches hcorner hcorner'
       rw [hedge'] at htouches' hother hother'
       simp only [App.touches, decide_eq_true_eq, Rect.offset, deadCorner, ge_iff_le] at *
       omega)

theorem Apart.edge_unique (h : layout.Apart geometry) {other : Transition} {bounds' : Rect}
    (hover : layout.Over geometry t bounds point) (hover' : layout.Over geometry other bounds' point) :
    bounds = bounds' ∧ t.edge = other.edge := by
  have hbounds := h.disjoint bounds bounds' hover.screen hover'.screen point hover.contains hover'.contains
  obtain rfl := hbounds
  exact ⟨rfl, Layout.edge_unique (h.roomy bounds hover.screen) hover.touches hover.clear hover'.touches hover'.clear⟩

/-- On an edge, whatever crosses crosses over that edge. -/
theorem Apart.returnEdge (h : layout.Apart geometry) (hon : (layout.onEdge geometry edge point).isSome)
    {wanted : Rect → Edge → Bool} (hmade : layout.reaching geometry point wanted = some handoff) :
    handoff.returnEdge = edge := by
  obtain ⟨rest, hrest⟩ := Option.isSome_iff_exists.mp hon
  obtain ⟨t, bounds, hover, hwanted, -⟩ := reaching_over hrest
  obtain ⟨t', bounds', hover', -, hmade'⟩ := reaching_over hmade
  rw [handoffAt_returnEdge hmade', ← (h.edge_unique hover hover').2]
  exact of_decide_eq_true hwanted

/-- While it stays on an edge, a pointer does not move onto one. -/
theorem Apart.crossing_eq_none (h : layout.Apart geometry) {previous : Point}
    (hprevious : (layout.onEdge geometry edge previous).isSome) (hon : (layout.onEdge geometry edge point).isSome) :
    layout.crossing geometry previous point = none := by
  cases hcrossing : layout.crossing geometry previous point with
  | none => rfl
  | some handoff =>
    exfalso
    unfold crossing at hcrossing
    split at hcrossing
    swap
    · cases hcrossing
    have hedge := h.returnEdge hon hcrossing
    obtain ⟨t, bounds, hover, hwanted, hmade⟩ := reaching_over hcrossing
    rw [Bool.and_eq_true, Bool.not_eq_true'] at hwanted
    obtain ⟨rest, hrest⟩ := Option.isSome_iff_exists.mp hprevious
    obtain ⟨t', bounds', hover', hwanted', -⟩ := reaching_over hrest
    -- the screen that the pointer was inside of is the one on whose edge it was
    have hbounds := h.disjoint bounds bounds' hover.screen hover'.screen previous hwanted.1 hover'.contains
    have htouches := hover'.touches
    rw [of_decide_eq_true hwanted', ← hbounds, ← hedge, handoffAt_returnEdge hmade, hwanted.2] at htouches
    cases htouches

end Layout

namespace Approach

variable {layout : Layout} {geometry : Geometry} {push : Option LocalMotion} {look : Look} {a : Approach}
  {handoff : Handoff String Measured}

/-! ## What a look does -/

/-- What a look does first: where the pointer is, and whether it is still on the spent edge. -/
def arrived (layout : Layout) (geometry : Geometry) (look : Look) (a : Approach) : Approach :=
  { a with previous := some look.current, spent := keepSpent layout geometry look.current a.spent }

/-- The crossing that starts with a look. -/
def candidate (layout : Layout) (geometry : Geometry) (push : Option LocalMotion) (look : Look) (a : Approach) :
    Option (Handoff String Measured) :=
  (a.previous.bind (layout.crossing geometry · look.current)).or
    (pushing layout geometry look.current push (keepSpent layout geometry look.current a.spent))

/-- The pointer rests on no edge by now. -/
def Loose (layout : Layout) (geometry : Geometry) (look : Look) (a : Approach) : Prop :=
  ∀ resting, a.resting = some resting → layout.onEdge geometry resting.edge look.current = none

/-- **What `reaching` does**: what it returns, and what it makes of the approach. -/
inductive Took (layout : Layout) (geometry : Geometry) (push : Option LocalMotion) (look : Look) (a : Approach) :
    Option (Handoff String Measured) → Approach → Prop
  /-- Another computer's part of the edge. -/
  | slid {resting : Resting} {handoff : Handoff String Measured} (hresting : a.resting = some resting)
      (hon : layout.onEdge geometry resting.edge look.current = some handoff) (hpeer : handoff.peer ≠ resting.peer) :
      Took layout geometry push look a none { arrived layout geometry look a with
        resting := some { resting with peer := handoff.peer, since := look.now } }
  | rested {resting : Resting} {handoff : Handoff String Measured} (hresting : a.resting = some resting)
      (hon : layout.onEdge geometry resting.edge look.current = some handoff) (hpeer : handoff.peer = resting.peer)
      (hlong : resting.since + edgePause ≤ look.now) :
      Took layout geometry push look a (some handoff) { arrived layout geometry look a with resting := none }
  | rests {resting : Resting} {handoff : Handoff String Measured} (hresting : a.resting = some resting)
      (hon : layout.onEdge geometry resting.edge look.current = some handoff) (hpeer : handoff.peer = resting.peer) :
      Took layout geometry push look a none (arrived layout geometry look a)
  | nothing (hloose : Loose layout geometry look a) (hnone : candidate layout geometry push look a = none) :
      Took layout geometry push look a none { arrived layout geometry look a with resting := none }
  | crosses {handoff : Handoff String Measured} (hloose : Loose layout geometry look a)
      (hmade : candidate layout geometry push look a = some handoff) (hpause : look.pause = false) :
      Took layout geometry push look a (some handoff) { arrived layout geometry look a with
        resting := none, spent := some handoff.returnEdge }
  | settles {handoff : Handoff String Measured} (hloose : Loose layout geometry look a)
      (hmade : candidate layout geometry push look a = some handoff) (hpause : look.pause = true) :
      Took layout geometry push look a none { arrived layout geometry look a with
        resting := some ⟨handoff.returnEdge, handoff.peer, look.now⟩, spent := some handoff.returnEdge }

/-- Instants that are so far apart are in order. -/
theorem add_le_of_elapsed {since now wait : Nat} (hwait : 0 < wait) (h : now - since ≥ wait) : since + wait ≤ now := by
  omega

theorem starting_took (push : Option LocalMotion) (hloose : Loose layout geometry look a) :
    Took layout geometry push look a
      (starting layout geometry a.previous push look { arrived layout geometry look a with resting := none }).1
      (starting layout geometry a.previous push look { arrived layout geometry look a with resting := none }).2 := by
  unfold starting
  cases hmade : candidate layout geometry push look a with
  | none =>
    unfold candidate at hmade
    unfold arrived
    rw [hmade]
    exact .nothing hloose hmade
  | some handoff =>
    have hcandidate := hmade
    unfold candidate at hmade
    unfold arrived
    rw [hmade]
    cases hpause : look.pause with
    | false => exact .crosses hloose hcandidate hpause
    | true => exact .settles hloose hcandidate hpause

theorem reaching_took (layout : Layout) (geometry : Geometry) (push : Option LocalMotion) (look : Look)
    (a : Approach) : Took layout geometry push look a (reaching layout geometry push look a).1
      (reaching layout geometry push look a).2 := by
  unfold reaching
  cases hresting : a.resting with
  | none =>
    have hloose : Loose layout geometry look a := fun resting h => by rw [hresting] at h; cases h
    have hsame : { arrived layout geometry look a with resting := none } = arrived layout geometry look a := by
      unfold arrived
      rw [hresting]
    have hstarting := starting_took push hloose
    rw [hsame] at hstarting
    unfold arrived at hstarting
    rw [hresting] at hstarting
    exact hstarting
  | some resting =>
    dsimp only
    cases hon : layout.onEdge geometry resting.edge look.current with
    | none =>
      refine starting_took push fun other h => ?_
      rw [hresting] at h
      cases h
      exact hon
    | some handoff =>
      dsimp only
      split
      · rename_i hpeer
        exact .slid hresting hon hpeer
      rename_i hpeer
      have hpeer := Decidable.of_not_not hpeer
      split
      · rename_i hlong
        exact .rested hresting hon hpeer (add_le_of_elapsed (by decide) hlong)
      · have hrests : Took layout geometry push look a none (arrived layout geometry look a) := .rests hresting hon hpeer
        unfold arrived at hrests
        rw [hresting] at hrests
        exact hrests

/-- Settling touches nothing else. -/
theorem settled_eq (geometry : Geometry) (look : Look) (a : Approach) :
    (settled geometry look a).2 = { a with settling := (settled geometry look a).2.settling } := by
  unfold settled
  split
  · rfl
  split
  · rfl
  split
  · rfl
  split <;> rfl

theorem holdBack_of_guarded (h : guarded look a.releasedBy handoff = true) :
    holdBack look (some handoff, a) = (none, { a with spent := none }) := if_pos h

theorem holdBack_of_free (h : guarded look a.releasedBy handoff = false) :
    holdBack look (some handoff, a) = (some handoff, a) := if_neg (by rw [h]; exact Bool.false_ne_true)

/-- **What a look does**: `reaching` takes what has settled of its push, and a handoff to a peer that just let go is held
back. -/
theorem reached_cases (layout : Layout) (geometry : Geometry) (look : Look) (a : Approach) :
    ∃ found after, Took layout geometry (settled geometry look a).1 look (settled geometry look a).2 found after ∧
      ((found = none ∧ reached layout geometry look a = (none, after)) ∨ ∃ handoff, found = some handoff ∧
          ((guarded look after.releasedBy handoff = true ∧
              reached layout geometry look a = (none, { after with spent := none })) ∨
            (guarded look after.releasedBy handoff = false ∧
              reached layout geometry look a = (some handoff, after)))) := by
  refine ⟨_, _, reaching_took layout geometry _ look _, ?_⟩
  unfold reached
  cases hreaching : reaching layout geometry (settled geometry look a).1 look (settled geometry look a).2 with
  | mk found after =>
    dsimp only
    rw [hreaching]
    cases found with
    | none => exact .inl ⟨rfl, rfl⟩
    | some handoff =>
      refine .inr ⟨handoff, rfl, ?_⟩
      cases hguarded : guarded look after.releasedBy handoff with
      | true => exact .inl ⟨rfl, holdBack_of_guarded hguarded⟩
      | false => exact .inr ⟨rfl, holdBack_of_free hguarded⟩

/-- `reaching` leaves the hand-back alone. -/
theorem Took.keeps {found : Option (Handoff String Measured)} {after : Approach}
    (h : Took layout geometry push look a found after) :
    after.releasedBy = a.releasedBy ∧ after.settling = a.settling := by
  cases h <;> exact ⟨rfl, rfl⟩

/-! ## With pause at edges -/

/-- A look at a point that leads over that edge to that computer. -/
def OnWay (layout : Layout) (geometry : Geometry) (edge : Edge) (peer : String) (e : Event) : Prop :=
  ∃ look, e = .look look ∧ layout.LeadsTo geometry edge peer look.current

/-- A push that waits has spent its edge. -/
def Linked (a : Approach) : Prop := ∀ resting, a.resting = some resting → a.spent = some resting.edge

/-- A push that waits has been on its way since it came. -/
def Waits (layout : Layout) (geometry : Geometry) (events : List Event) (a : Approach) : Prop :=
  ∀ resting, a.resting = some resting →
    ∃ first, Since (OnWay layout geometry resting.edge resting.peer) (.look first) events ∧ first.now = resting.since

/-- The pointer was on its way to the handoff's computer for as long as `edgePause`. -/
def Rested (layout : Layout) (geometry : Geometry) (events : List Event) (now : Instant)
    (handoff : Handoff String Measured) : Prop :=
  ∃ first, Since (OnWay layout geometry handoff.returnEdge handoff.peer) (.look first) events ∧
    first.now + edgePause ≤ now

theorem pushing_reaching {spent : Option Edge} (h : pushing layout geometry look.current push spent = some handoff) :
    (∃ wanted, layout.reaching geometry look.current wanted = some handoff) ∧ spent ≠ some handoff.returnEdge := by
  unfold pushing at h
  obtain ⟨fresh, -, h⟩ := Option.bind_eq_some_iff.mp h
  obtain ⟨hpushed, hspent⟩ := Option.filter_eq_some_iff.mp h
  exact ⟨⟨_, hpushed⟩, of_decide_eq_true hspent⟩

theorem candidate_leads (h : candidate layout geometry push look a = some handoff) :
    layout.LeadsTo geometry handoff.returnEdge handoff.peer look.current := by
  unfold candidate at h
  rcases Option.or_eq_some_iff.mp h with hcrossing | ⟨-, hpushing⟩
  · obtain ⟨previous, -, hcrossing⟩ := Option.bind_eq_some_iff.mp hcrossing
    exact Layout.crossing_leads hcrossing
  · obtain ⟨⟨wanted, hmade⟩, -⟩ := pushing_reaching hpushing
    exact Layout.leadsTo_of_reaching hmade

theorem keepSpent_of_onEdge {edge : Edge} (hon : (layout.onEdge geometry edge look.current).isSome) :
    keepSpent layout geometry look.current (some edge) = some edge := by
  unfold keepSpent
  rw [Option.filter_some, if_pos hon]

theorem Took.linked {found : Option (Handoff String Measured)} {after : Approach}
    (h : Took layout geometry push look a found after) (hlinked : a.Linked) : after.Linked := by
  intro resting' hafter
  cases h with
  | slid hresting hon hpeer =>
    cases hafter
    show keepSpent layout geometry look.current a.spent = _
    rw [hlinked _ hresting, keepSpent_of_onEdge (by rw [hon]; rfl)]
  | rests hresting hon hpeer =>
    rw [show a.resting = some resting' from hafter] at hresting
    cases hresting
    show keepSpent layout geometry look.current a.spent = _
    rw [hlinked _ hafter, keepSpent_of_onEdge (by rw [hon]; rfl)]
  | settles hloose hmade hpause =>
    cases hafter
    rfl
  | rested => cases hafter
  | nothing => cases hafter
  | crosses => cases hafter

theorem waits_of_none {events : List Event} (h : a.resting = none) : a.Waits layout geometry events := by
  intro resting hresting
  rw [h] at hresting
  cases hresting

/-- **What a look leaves waiting**, and what it returns with pause at edges on. -/
theorem Took.waits {events : List Event} {found : Option (Handoff String Measured)} {after : Approach}
    (h : Took layout geometry push look a found after) (hwaits : a.Waits layout geometry events) :
    after.Waits layout geometry (events ++ [.look look]) ∧ ∀ handoff, found = some handoff →
      after.resting = none ∧ (look.pause = true →
        Rested layout geometry (events ++ [.look look]) look.now handoff) := by
  have hleads : ∀ {edge handoff}, layout.onEdge geometry edge look.current = some handoff →
      OnWay layout geometry edge handoff.peer (.look look) := by
    intro edge handoff hon
    have hway := Layout.leadsTo_of_reaching hon
    rw [Layout.onEdge_returnEdge hon] at hway
    exact ⟨look, rfl, hway⟩
  cases h with
  | slid hresting hon hpeer =>
    refine ⟨?_, (fun _ h => nomatch h)⟩
    rintro _ ⟨⟩
    exact ⟨look, .start events (hleads hon), rfl⟩
  | rested hresting hon hpeer hlong =>
    refine ⟨waits_of_none rfl, ?_⟩
    rintro _ ⟨⟩
    refine ⟨rfl, fun _ => ?_⟩
    obtain ⟨first, hsince, hnow⟩ := hwaits _ hresting
    unfold Rested
    rw [Layout.onEdge_returnEdge hon, hpeer]
    exact ⟨first, hsince.next (hpeer ▸ hleads hon), hnow ▸ hlong⟩
  | rests hresting hon hpeer =>
    refine ⟨fun resting' hafter => ?_, (fun _ h => nomatch h)⟩
    rw [show a.resting = some resting' from hafter] at hresting
    cases hresting
    obtain ⟨first, hsince, hnow⟩ := hwaits _ hafter
    exact ⟨first, hsince.next (hpeer ▸ hleads hon), hnow⟩
  | nothing hloose hnone => exact ⟨waits_of_none rfl, (fun _ h => nomatch h)⟩
  | crosses hloose hmade hpause =>
    refine ⟨waits_of_none rfl, ?_⟩
    rintro _ ⟨⟩
    exact ⟨rfl, fun hon => by rw [hpause] at hon; cases hon⟩
  | settles hloose hmade hpause =>
    refine ⟨?_, (fun _ h => nomatch h)⟩
    rintro _ ⟨⟩
    exact ⟨look, .start events ⟨look, rfl, candidate_leads hmade⟩, rfl⟩

theorem reached_linked (hlinked : a.Linked) : (reached layout geometry look a).2.Linked := by
  have hsettled : (settled geometry look a).2.Linked := by
    rw [settled_eq]
    exact hlinked
  obtain ⟨found, after, htook, ⟨-, hreached⟩ | ⟨handoff, rfl, ⟨-, hreached⟩ | ⟨-, hreached⟩⟩⟩ :=
    reached_cases layout geometry look a
  · rw [hreached]
    exact htook.linked hsettled
  · rw [hreached]
    cases htook <;> exact fun _ h => nomatch h
  · rw [hreached]
    exact htook.linked hsettled

theorem reached_waits {events : List Event} (hwaits : a.Waits layout geometry events) :
    (reached layout geometry look a).2.Waits layout geometry (events ++ [.look look]) ∧
      ∀ handoff, (reached layout geometry look a).1 = some handoff → look.pause = true →
        Rested layout geometry (events ++ [.look look]) look.now handoff := by
  have hsettled : (settled geometry look a).2.Waits layout geometry events := by
    rw [settled_eq]
    exact hwaits
  obtain ⟨found, after, htook, ⟨rfl, hreached⟩ | ⟨handoff, rfl, ⟨-, hreached⟩ | ⟨-, hreached⟩⟩⟩ :=
    reached_cases layout geometry look a
  · rw [hreached]
    exact ⟨(htook.waits hsettled).1, (fun _ h => nomatch h)⟩
  · have hfree := ((htook.waits hsettled).2 handoff rfl).1
    rw [hreached]
    exact ⟨waits_of_none hfree, (fun _ h => nomatch h)⟩
  · rw [hreached]
    refine ⟨(htook.waits hsettled).1, ?_⟩
    rintro _ ⟨⟩ hpause
    exact ((htook.waits hsettled).2 handoff rfl).2 hpause

/-! ## During a stay on an edge -/

/-- The pointer crossed over that edge, or tried to. -/
def SpentOn (edge : Edge) (a : Approach) : Prop := a.spent = some edge ∧ a.resting = none

/-- The last look was at a point of that edge. -/
def WasOn (layout : Layout) (geometry : Geometry) (edge : Edge) (a : Approach) : Prop :=
  ∃ previous, a.previous = some previous ∧ (layout.onEdge geometry edge previous).isSome

theorem pushing_returnEdge {edge : Edge} {spent : Option Edge} (hapart : layout.Apart geometry)
    (hon : (layout.onEdge geometry edge look.current).isSome)
    (h : pushing layout geometry look.current push spent = some handoff) :
    handoff.returnEdge = edge ∧ spent ≠ some edge := by
  obtain ⟨⟨wanted, hmade⟩, hspent⟩ := pushing_reaching h
  have hedge := hapart.returnEdge hon hmade
  exact ⟨hedge, hedge ▸ hspent⟩

theorem candidate_returnEdge {edge : Edge} (hapart : layout.Apart geometry)
    (hon : (layout.onEdge geometry edge look.current).isSome)
    (h : candidate layout geometry push look a = some handoff) : handoff.returnEdge = edge := by
  unfold candidate at h
  rcases Option.or_eq_some_iff.mp h with hcrossing | ⟨-, hpushing⟩
  · obtain ⟨previous, -, hcrossing⟩ := Option.bind_eq_some_iff.mp hcrossing
    unfold Layout.crossing at hcrossing
    split at hcrossing
    · exact hapart.returnEdge hon hcrossing
    · cases hcrossing
  · exact (pushing_returnEdge hapart hon hpushing).1

/-- A spent edge starts nothing while the pointer stays on it. -/
theorem candidate_eq_none (push : Option LocalMotion) {edge : Edge} (hapart : layout.Apart geometry)
    (hon : (layout.onEdge geometry edge look.current).isSome) (hwas : a.WasOn layout geometry edge)
    (hspent : a.spent = some edge) : candidate layout geometry push look a = none := by
  obtain ⟨previous, hprevious, honbefore⟩ := hwas
  unfold candidate
  rw [hprevious, hspent, keepSpent_of_onEdge hon, Option.bind_some, hapart.crossing_eq_none honbefore hon,
    Option.none_or]
  cases hpushing : pushing layout geometry look.current push (some edge) with
  | none => rfl
  | some handoff => exact absurd rfl (pushing_returnEdge hapart hon hpushing).2

theorem Took.spent_stays {edge : Edge} {found : Option (Handoff String Measured)} {after : Approach}
    (h : Took layout geometry push look a found after) (hapart : layout.Apart geometry)
    (hon : (layout.onEdge geometry edge look.current).isSome) (hwas : a.WasOn layout geometry edge)
    (hspent : a.SpentOn edge) : found = none ∧ after.SpentOn edge := by
  have hnone := candidate_eq_none push hapart hon hwas hspent.1
  have hkept : (arrived layout geometry look a).spent = some edge := by
    show keepSpent layout geometry look.current a.spent = _
    rw [hspent.1, keepSpent_of_onEdge hon]
  cases h with
  | nothing => exact ⟨rfl, hkept, rfl⟩
  | crosses hloose hmade => cases hnone.symm.trans hmade
  | settles hloose hmade => cases hnone.symm.trans hmade
  | slid hresting => cases hspent.2.symm.trans hresting
  | rested hresting => cases hspent.2.symm.trans hresting
  | rests hresting => cases hspent.2.symm.trans hresting

/-- What crosses from an edge spends it. -/
theorem Took.returned_spends {edge : Edge} {after : Approach}
    (h : Took layout geometry push look a (some handoff) after) (hapart : layout.Apart geometry)
    (hon : (layout.onEdge geometry edge look.current).isSome) (hlinked : a.Linked) : after.SpentOn edge := by
  cases h with
  | rested hresting hrested =>
    have hsame : handoff.returnEdge = edge := hapart.returnEdge hon hrested
    rw [Layout.onEdge_returnEdge hrested] at hsame
    refine ⟨?_, rfl⟩
    show keepSpent layout geometry look.current a.spent = _
    rw [hlinked _ hresting, hsame, keepSpent_of_onEdge hon]
  | crosses hloose hmade => exact ⟨congrArg some (candidate_returnEdge hapart hon hmade), rfl⟩

theorem Took.previous {found : Option (Handoff String Measured)} {after : Approach}
    (h : Took layout geometry push look a found after) : after.previous = some look.current := by
  cases h <;> rfl

theorem reached_spent {edge : Edge} (hapart : layout.Apart geometry)
    (hon : (layout.onEdge geometry edge look.current).isSome) (hwas : a.WasOn layout geometry edge)
    (hspent : a.SpentOn edge) :
    (reached layout geometry look a).1 = none ∧ (reached layout geometry look a).2.SpentOn edge ∧
      (reached layout geometry look a).2.WasOn layout geometry edge := by
  have hwas' : (settled geometry look a).2.WasOn layout geometry edge := by
    rw [settled_eq]
    exact hwas
  have hspent' : (settled geometry look a).2.SpentOn edge := by
    rw [settled_eq]
    exact hspent
  obtain ⟨found, after, htook, hcases⟩ := reached_cases layout geometry look a
  obtain ⟨rfl, hafter⟩ := htook.spent_stays hapart hon hwas' hspent'
  obtain ⟨-, hreached⟩ | ⟨handoff, hfound, -⟩ := hcases
  · rw [hreached]
    exact ⟨rfl, hafter, look.current, htook.previous, hon⟩
  · cases hfound

theorem reached_returned {edge : Edge} (hapart : layout.Apart geometry)
    (hon : (layout.onEdge geometry edge look.current).isSome) (hlinked : a.Linked)
    (h : (reached layout geometry look a).1 = some handoff) :
    (reached layout geometry look a).2.SpentOn edge ∧ (reached layout geometry look a).2.WasOn layout geometry edge := by
  have hlinked' : (settled geometry look a).2.Linked := by
    rw [settled_eq]
    exact hlinked
  obtain ⟨found, after, htook, ⟨-, hreached⟩ | ⟨found, rfl, ⟨-, hreached⟩ | ⟨-, hreached⟩⟩⟩ :=
    reached_cases layout geometry look a
  · rw [hreached] at h
    cases h
  · rw [hreached] at h
    cases h
  · rw [hreached]
    exact ⟨htook.returned_spends hapart hon hlinked', look.current, htook.previous, hon⟩

theorem handoffs_of_spent {edge : Edge} (hapart : layout.Apart geometry) {stay : List Look}
    (hon : ∀ look ∈ stay, (layout.onEdge geometry edge look.current).isSome) (hwas : a.WasOn layout geometry edge)
    (hspent : a.SpentOn edge) : handoffs layout geometry a stay = [] := by
  induction stay generalizing a with
  | nil => rfl
  | cons look rest ih =>
    obtain ⟨hnone, hspent', hwas'⟩ := reached_spent hapart (hon look (.head _)) hwas hspent
    unfold handoffs
    rw [hnone, ih (fun l hl => hon l (.tail _ hl)) hwas' hspent']
    rfl

/-- **One crossing in a stay on an edge**, where the screens lie apart. -/
theorem handoffs_stay {edge : Edge} (hapart : layout.Apart geometry) {stay : List Look}
    (hon : ∀ look ∈ stay, (layout.onEdge geometry edge look.current).isSome) (hlinked : a.Linked) :
    (handoffs layout geometry a stay).length ≤ 1 := by
  induction stay generalizing a with
  | nil => exact Nat.zero_le 1
  | cons look rest ih =>
    have hrest : ∀ l ∈ rest, (layout.onEdge geometry edge l.current).isSome := fun l hl => hon l (.tail _ hl)
    unfold handoffs
    cases hreached : (reached layout geometry look a).1 with
    | none => exact ih hrest (reached_linked hlinked)
    | some handoff =>
      obtain ⟨hspent, hwas⟩ := reached_returned hapart (hon look (.head _)) hlinked hreached
      rw [handoffs_of_spent hapart hrest hwas hspent]
      exact Nat.le_refl 1

/-! ## After a hand-back -/

/-- Nothing takes control of this Mac. -/
def Free (events : List Event) : Prop := ∀ peer now, .controlledBy peer now ∉ events

/-- The times at which looks found the pointer moved. -/
def motions (events : List Event) : List Instant :=
  events.filterMap fun
    | .look look => if look.push.isSome then some look.now else none
    | _ => none

/-- A hand-back at that time has settled: since then the pointer left all edges, or no motion was seen for
`handBackQuiet`. -/
def Settled (geometry : Geometry) (at_ : Instant) (events : List Event) : Prop :=
  (∃ look, .look look ∈ events ∧ onAnyEdge geometry look.current = false) ∨
    ∃ before moved later after, at_ :: motions events = before ++ moved :: later :: after ∧ moved + handBackQuiet ≤ later

theorem Free.of_append {events more : List Event} (h : Free (events ++ more)) : Free events := fun peer now hmem =>
  h peer now (List.mem_append_left _ hmem)

theorem motions_append (events more : List Event) : motions (events ++ more) = motions events ++ motions more :=
  List.filterMap_append

theorem Settled.append {at_ : Instant} {events : List Event} (h : Settled geometry at_ events) (more : List Event) :
    Settled geometry at_ (events ++ more) := by
  rcases h with ⟨look, hmem, hoff⟩ | ⟨before, moved, later, after, htimes, hquiet⟩
  · exact .inl ⟨look, List.mem_append_left _ hmem, hoff⟩
  · refine .inr ⟨before, moved, later, after ++ motions more, ?_, hquiet⟩
    rw [motions_append, ← List.cons_append, htimes]
    simp

theorem reached_keeps (layout : Layout) (geometry : Geometry) (look : Look) (a : Approach) :
    (reached layout geometry look a).2.releasedBy = a.releasedBy ∧
      (reached layout geometry look a).2.settling = (settled geometry look a).2.settling := by
  have hreleased : (settled geometry look a).2.releasedBy = a.releasedBy := by rw [settled_eq]
  obtain ⟨found, after, htook, ⟨-, hreached⟩ | ⟨found, rfl, ⟨-, hreached⟩ | ⟨-, hreached⟩⟩⟩ :=
    reached_cases layout geometry look a
  all_goals
    rw [hreached]
    exact ⟨htook.keeps.1.trans hreleased, htook.keeps.2⟩

/-- What an approach keeps of a hand-back at that time, after some events. -/
structure HandBack (geometry : Geometry) (peer : String) (at_ : Instant) (events : List Event) (a : Approach) :
    Prop where
  releasedBy : a.releasedBy = some (peer, at_)
  settling : ∀ moved, a.settling = some moved → (at_ :: motions events).getLast? = some moved
  quiet : a.settling = none → Settled geometry at_ events

theorem motions_of_moved {events : List Event} {push : LocalMotion} (h : look.push = some push) :
    motions (events ++ [.look look]) = motions events ++ [look.now] := by
  rw [motions_append]
  simp [motions, h]

theorem motions_of_still {events : List Event} (h : look.push = none) :
    motions (events ++ [.look look]) = motions events := by
  rw [motions_append]
  simp [motions, h]

variable {peer : String} {at_ : Instant} {events : List Event}

/-- **What a look makes of the settling**: what becomes of its push, and of the time of the last motion. -/
theorem HandBack.settles (h : a.HandBack geometry peer at_ events) (look : Look) :
    (∀ moved, (settled geometry look a).2.settling = some moved →
        (at_ :: motions (events ++ [.look look])).getLast? = some moved) ∧
      ((settled geometry look a).2.settling = none → Settled geometry at_ (events ++ [.look look])) ∧
      (¬ Settled geometry at_ (events ++ [.look look]) → (settled geometry look a).1 = none) := by
  unfold settled
  cases hsettling : a.settling with
  | none =>
    have hsettled := (h.quiet hsettling).append [.look look]
    refine ⟨fun moved hmoved => ?_, fun _ => hsettled, fun hnot => absurd hsettled hnot⟩
    rw [show a.settling = some moved from hmoved] at hsettling
    cases hsettling
  | some moved =>
    have hlast := h.settling moved hsettling
    dsimp only
    split
    · rename_i hoff
      have hsettled : Settled geometry at_ (events ++ [.look look]) :=
        .inl ⟨look, by simp, by simpa using hoff⟩
      exact ⟨(fun _ h => nomatch h), fun _ => hsettled, fun hnot => absurd hsettled hnot⟩
    cases hpush : look.push with
    | none =>
      refine ⟨fun moved' hmoved => ?_, fun hnone => ?_, fun _ => rfl⟩
      · rw [motions_of_still hpush, hlast]
        exact hsettling.symm.trans hmoved
      · rw [show a.settling = none from hnone] at hsettling
        cases hsettling
    | some push =>
      dsimp only
      split
      · refine ⟨?_, (fun h => nomatch h), fun _ => rfl⟩
        rintro _ ⟨⟩
        rw [motions_of_moved hpush, ← List.cons_append, List.getLast?_append_of_ne_nil _ (by simp)]
        rfl
      · rename_i hquiet
        -- the last motion before this one was long ago
        have hsettled : Settled geometry at_ (events ++ [.look look]) := by
          obtain ⟨before, hbefore⟩ := List.getLast?_eq_some_iff.mp hlast
          refine .inr ⟨before, moved, look.now, [], ?_, add_le_of_elapsed (by decide) (Nat.le_of_not_lt hquiet)⟩
          rw [motions_of_moved hpush, ← List.cons_append, hbefore, List.append_assoc]
          rfl
        exact ⟨(fun _ h => nomatch h), fun _ => hsettled, fun hnot => absurd hsettled hnot⟩

theorem HandBack.step (h : a.HandBack geometry peer at_ events) {e : Event} (hfree : Free (events ++ [e])) :
    (step layout geometry a e).HandBack geometry peer at_ (events ++ [e]) := by
  cases e with
  | look look =>
    obtain ⟨hreleased, hsettling⟩ := reached_keeps layout geometry look a
    obtain ⟨hlast, hsettled, -⟩ := h.settles look
    exact ⟨hreleased.trans h.releasedBy, fun moved hmoved => hlast moved (hsettling ▸ hmoved),
      fun hnone => hsettled (hsettling ▸ hnone)⟩
  | restart =>
    have hmotions : motions (events ++ [.restart]) = motions events := by
      rw [motions_append]
      exact List.append_nil _
    refine ⟨h.releasedBy, fun moved hmoved => ?_, fun hnone => (h.quiet hnone).append _⟩
    rw [hmotions]
    exact h.settling moved hmoved
  | controlledBy peer' now => exact absurd (by simp) (hfree peer' now)

theorem handBack_run (layout : Layout) (geometry : Geometry) (before : Approach) (hfree : Free events) :
    (run layout geometry before (.controlledBy peer at_ :: events)).HandBack geometry peer at_ events := by
  refine Replay.foldl_history (fun events (a : Approach) => Free events → a.HandBack geometry peer at_ events)
    (fun log a e ih hfree => (ih hfree.of_append).step hfree) (fun _ => ?_) events hfree
  refine ⟨rfl, ?_, (fun h => nomatch h)⟩
  rintro _ ⟨⟩
  rfl

/-- The approach with another settling. -/
def resettled (settling : Option Instant) (a : Approach) : Approach := { a with settling := settling }

theorem starting_resettled (settling : Option Instant) (previous : Option Point) (a : Approach) :
    starting layout geometry previous push look (a.resettled settling) =
      ((starting layout geometry previous push look a).1,
        (starting layout geometry previous push look a).2.resettled settling) := by
  unfold starting
  dsimp only [resettled]
  cases (previous.bind (layout.crossing geometry · look.current)).or
    (pushing layout geometry look.current push a.spent) with
  | none => rfl
  | some handoff => cases look.pause <;> rfl

/-- The settling has no part in what `reaching` does. -/
theorem reaching_resettled (settling : Option Instant) : reaching layout geometry push look (a.resettled settling) =
      ((reaching layout geometry push look a).1, (reaching layout geometry push look a).2.resettled settling) := by
  obtain ⟨previous, resting, spent, releasedBy, old⟩ := a
  unfold reaching
  cases resting with
  | none =>
    exact starting_resettled settling previous
      ⟨some look.current, none, keepSpent layout geometry look.current spent, releasedBy, old⟩
  | some resting =>
    dsimp only [resettled]
    cases layout.onEdge geometry resting.edge look.current with
    | none =>
      exact starting_resettled settling previous
        ⟨some look.current, none, keepSpent layout geometry look.current spent, releasedBy, old⟩
    | some handoff =>
      dsimp only
      split
      · rfl
      split <;> rfl

theorem holdBack_resettled (settling : Option Instant) (found : Option (Handoff String Measured)) (after : Approach) :
    holdBack look (found, after.resettled settling) =
      ((holdBack look (found, after)).1, (holdBack look (found, after)).2.resettled settling) := by
  cases found with
  | none => rfl
  | some handoff =>
    cases hguarded : guarded look after.releasedBy handoff with
    | true =>
      rw [holdBack_of_guarded hguarded]
      exact holdBack_of_guarded hguarded
    | false =>
      rw [holdBack_of_free hguarded]
      exact holdBack_of_free hguarded

/-- A look without its motion. -/
def still (look : Look) : Look := { look with push := none }

/-- **Until a hand-back has settled**, a look does what it would do without its motion. -/
theorem HandBack.reached_still (h : a.HandBack geometry peer at_ events)
    (hnot : ¬ Settled geometry at_ (events ++ [.look look])) : ∃ settling, reached layout geometry look a =
      ((reached layout geometry (still look) a).1, (reached layout geometry (still look) a).2.resettled settling) := by
  have hpush := (h.settles look).2.2 hnot
  have hstill : settled geometry (still look) a = (none, a) := by
    unfold settled still
    cases a.settling with
    | none => rfl
    | some moved =>
      dsimp only
      split
      · rename_i hoff
        exact absurd (.inl ⟨look, by simp, by simpa using hoff⟩) hnot
      · rfl
  have hlook : settled geometry look a = (none, a.resettled (settled geometry look a).2.settling) :=
    Prod.ext hpush (settled_eq geometry look a)
  refine ⟨(settled geometry look a).2.settling, ?_⟩
  unfold reached
  rw [hlook, hstill]
  dsimp only
  rw [reaching_resettled]
  exact holdBack_resettled _ _ _

/-! ## Runs -/

theorem linked_run (layout : Layout) (geometry : Geometry) (events : List Event) :
    (run layout geometry fresh events).Linked := by
  have hfresh : fresh.Linked := fun _ h => nomatch h
  refine Replay.foldl_history (fun _ (a : Approach) => a.Linked) (fun _ a e hlinked => ?_) hfresh events
  cases e with
  | look look => exact reached_linked hlinked
  | restart => exact fun _ h => nomatch h
  | controlledBy peer now => exact fun _ h => nomatch h

theorem waits_run (layout : Layout) (geometry : Geometry) (events : List Event) :
    (run layout geometry fresh events).Waits layout geometry events := by
  refine Replay.foldl_history (fun events (a : Approach) => a.Waits layout geometry events)
    (fun _ a e hwaits => ?_) (waits_of_none rfl) events
  cases e with
  | look look => exact (reached_waits hwaits).1
  | restart => exact waits_of_none rfl
  | controlledBy peer now => exact waits_of_none rfl

theorem handBack_after (layout : Layout) (geometry : Geometry) (before : List Event) (hfree : Free events) :
    (run layout geometry fresh (before ++ .controlledBy peer at_ :: events)).HandBack geometry peer at_ events := by
  unfold run
  rw [List.foldl_append]
  exact handBack_run layout geometry _ hfree

/-- When a pointer crosses, however looks, restarts and a peer's control follow on one another. -/
structure CrossesInOrder (layout : Layout) (geometry : Geometry) : Prop where
  /-- With pause at edges on, the pointer was at points of the edge that lead to the computer for `edgePause`. -/
  rested : ∀ events look handoff, look.pause = true →
    (reached layout geometry look (run layout geometry fresh events)).1 = some handoff →
      Rested layout geometry (events ++ [.look look]) look.now handoff
  /-- Looks that stay on one edge return one handoff at most, by pushing or otherwise. -/
  one_per_stay : layout.Apart geometry → ∀ events edge stay,
    (∀ look ∈ stay, (layout.onEdge geometry edge look.current).isSome) →
      (handoffs layout geometry (run layout geometry fresh events) stay).length ≤ 1
  /-- No handoff goes to the peer that controlled this Mac last until `handBackGuard` has passed. -/
  not_back : ∀ before peer at_ events look handoff, Free events →
    (reached layout geometry look (run layout geometry fresh (before ++ .controlledBy peer at_ :: events))).1 =
      some handoff → handoff.peer = peer → at_ + handBackGuard ≤ look.now
  /-- Until a hand-back has settled, motion does not count. -/
  settled : ∀ before peer at_ events look, Free events → ¬ Settled geometry at_ (events ++ [.look look]) →
    let a := run layout geometry fresh (before ++ .controlledBy peer at_ :: events)
    ∃ settling, reached layout geometry look a =
      ((reached layout geometry (still look) a).1, (reached layout geometry (still look) a).2.resettled settling)

theorem not_guarded (h : (reached layout geometry look a).1 = some handoff) :
    guarded look a.releasedBy handoff = false := by
  have hreleased := (reached_keeps layout geometry look a).1
  obtain ⟨found, after, htook, ⟨-, hreached⟩ | ⟨found, rfl, ⟨-, hreached⟩ | ⟨hfree, hreached⟩⟩⟩ :=
    reached_cases layout geometry look a
  · rw [hreached] at h
    cases h
  · rw [hreached] at h
    cases h
  · rw [hreached] at h hreleased
    cases h
    rw [← hreleased]
    exact hfree

/-- **When a pointer crosses.** -/
theorem crossesInOrder (layout : Layout) (geometry : Geometry) : CrossesInOrder layout geometry where
  rested := fun events look handoff hpause h => (reached_waits (waits_run layout geometry events)).2 handoff h hpause
  one_per_stay := fun hapart events _ _ hon => handoffs_stay hapart hon (linked_run layout geometry events)
  not_back := by
    intro before peer at_ events look handoff hfree h hpeer
    have hback : (run layout geometry fresh (before ++ .controlledBy peer at_ :: events)).HandBack geometry peer at_ events :=
      handBack_after layout geometry before hfree
    have hguarded := not_guarded h
    rw [hback.releasedBy] at hguarded
    simp only [guarded, Option.any_some, hpeer, decide_true, Bool.true_and, decide_eq_false_iff_not] at hguarded
    exact add_le_of_elapsed (by decide) (Nat.le_of_not_lt hguarded)
  settled := fun before _ _ _ _ hfree hnot => (handBack_after layout geometry before hfree).reached_still hnot

/-- How many looks cross over an edge because of their motion. -/
def pushedOver (layout : Layout) (geometry : Geometry) (edge : Edge) : Approach → List Look → Nat
  | _, [] => 0
  | a, look :: rest =>
    (if (reached layout geometry look a).1.any (·.returnEdge = edge) && (reached layout geometry (still look) a).1.isNone
      then 1 else 0) + pushedOver layout geometry edge (reached layout geometry look a).2 rest

/-- This Mac, and two computers to its right, one above the other. -/
def beside : Layout :=
  ⟨[⟨"local", "This computer", none, none, 0, 0, 1920, 1080⟩, ⟨"peer:a", "a", some "a", none, 1920, 0, 1920, 540⟩,
    ⟨"peer:b", "b", some "b", none, 1920, 540, 1920, 540⟩]⟩

/-- A Mac whose screen is three points wide, between two computers. -/
def thin : Layout :=
  ⟨[⟨"local", "This computer", none, none, 0, 0, 3, 1080⟩, ⟨"peer:a", "a", some "a", none, 3, 0, 1920, 1080⟩,
    ⟨"peer:b", "b", some "b", none, -1920, 0, 1920, 1080⟩]⟩

/-- A look that finds a push sideways. -/
def shoved (x y : Int) (dx : ℚ) (ms : Nat) : Look := ⟨⟨x, y⟩, some ⟨dx, 0, millis 5⟩, millis ms, false⟩

/-- A pointer that slides along the right edge through a dead corner pushes out over it twice, and one that is on both
edges of a thin screen does so too. -/
theorem not_one_push : (¬ ∀ (layout : Layout) (geometry : Geometry) (bounds : Rect) (edge : Edge) (stay : List Look),
      layout.validate.isOk = true → geometry.bounds = .ok bounds →
      (∀ look ∈ stay, bounds.contains look.current = true ∧ touches bounds edge look.current = true) →
      pushedOver layout geometry edge fresh stay ≤ 1) ∧
    ¬ ∀ (layout : Layout) (geometry : Geometry) (edge : Edge) (stay : List Look), layout.validate.isOk = true →
      (∀ look ∈ stay, (layout.onEdge geometry edge look.current).isSome = true) →
      pushedOver layout geometry edge fresh stay ≤ 1 := by
  constructor
  · intro h
    have hcorner := h beside ⟨[⟨0, 0, 1920, 1080⟩], []⟩ ⟨0, 0, 1920, 1080⟩ .right
      [shoved 1919 100 2 0, still (shoved 1919 1075 0 10), shoved 1919 800 2 20] (by decide +kernel) rfl
      (by decide +kernel)
    exact absurd hcorner (by decide +kernel)
  · intro h
    have hthin := h thin ⟨[⟨0, 0, 3, 1080⟩], []⟩ .right [shoved 1 100 2 0, shoved 1 100 (-2) 10, shoved 1 100 2 20]
      (by decide +kernel) (by decide +kernel)
    exact absurd hthin (by decide +kernel)

end Approach

end Zflow.App
