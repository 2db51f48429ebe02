import Zflow.App.Transitions
import Zflow.Laws.App.View

/-!
# Crossings lead both ways

A contact is a stretch of positive length that two screens share. A view that is accepted has one crossing
each way for each contact of two computers' active screens, and no others.
-/

namespace Zflow.App

open Lib Desktop

/-- The edge of `a` lies in one line with the opposite one of `b`. -/
def Faces (a b : Bounds) : Edge → Prop
  | .right => a.right = b.left
  | .left => a.left = b.right
  | .bottom => a.bottom = b.top
  | .top => a.top = b.bottom

/-- **A contact**: from `start` to `stop` both screens have that edge. -/
structure Contact (a b : Bounds) (edge : Edge) (start stop : Int) : Prop where
  faces : Faces a b edge
  start_eq : start = max (a.along edge).1 (b.along edge).1
  stop_eq : stop = min (a.along edge).2 (b.along edge).2
  shares : start < stop

structure Bounds.Positive (b : Bounds) : Prop where
  width : b.left < b.right
  height : b.top < b.bottom

section Contacts

variable {a b c : Bounds} {edge : Edge} {start stop : Int}

theorem along_opposite (b : Bounds) (edge : Edge) : b.along (opposite edge) = b.along edge := by
  cases edge <;> rfl

theorem Contact.symm (h : Contact a b edge start stop) : Contact b a (opposite edge) start stop where
  faces := by
    have hfaces := h.faces
    cases edge <;> exact hfaces.symm
  start_eq := by rw [along_opposite, along_opposite, max_comm, h.start_eq]
  stop_eq := by rw [along_opposite, along_opposite, min_comm, h.stop_eq]
  shares := h.shares

theorem faces_of_facing (h : facing a b = some edge) : Faces a b edge := by
  unfold facing at h
  split_ifs at h with hright hleft hbottom htop <;> cases h <;> assumption

/-- Two screens touch on one edge only. -/
theorem facing_of_contact (ha : a.Positive) (hb : b.Positive) (h : Contact a b edge start stop) :
    facing a b = some edge := by
  have := ha.width
  have := ha.height
  have := hb.width
  have := hb.height
  have hshares := h.shares
  have hfaces := h.faces
  rw [h.start_eq, h.stop_eq] at hshares
  unfold facing
  cases edge <;> simp only [Faces, Bounds.along] at hfaces hshares
  · rw [if_neg (by omega), if_pos hfaces]
  · rw [if_pos hfaces]
  · rw [if_neg (by omega), if_neg (by omega), if_neg (by omega), if_pos hfaces]
  · rw [if_neg (by omega), if_neg (by omega), if_pos hfaces]

/-- Two screens beside each other on one edge of a third share at most an end of it. -/
theorem stretches_apart {start' stop' : Int} (hb : b.Positive) (hc : c.Positive)
    (hapart : b.right ≤ c.left ∨ c.right ≤ b.left ∨ b.bottom ≤ c.top ∨ c.bottom ≤ b.top)
    (h : Contact a b edge start stop) (h' : Contact a c edge start' stop') : stop ≤ start' ∨ stop' ≤ start := by
  have := hb.width
  have := hb.height
  have := hc.width
  have := hc.height
  have hfaces := h.faces
  have hfaces' := h'.faces
  rw [h.start_eq, h.stop_eq, h'.start_eq, h'.stop_eq]
  cases edge <;> simp only [Faces, Bounds.along] at hfaces hfaces' ⊢ <;> omega

end Contacts

theorem partOf_le {edge : Int × Int} {place other : Int} (hedge : edge.1 < edge.2) (h : place ≤ other) :
    partOf edge place ≤ partOf edge other := by
  unfold partOf
  have hpositive : (0 : ℚ) < ((edge.2 - edge.1 : Int) : ℚ) := by exact_mod_cast Int.sub_pos.mpr hedge
  exact div_le_div_of_nonneg_right (by exact_mod_cast Int.sub_le_sub_right h _) hpositive.le

theorem Monitor.Valid.positive {m : Monitor} (h : m.Valid) : m.bounds.Positive := by
  have hgeometry := h.geometry
  unfold Monitor.validGeometry at hgeometry
  simp only [Bool.and_eq_true, decide_eq_true_eq] at hgeometry
  exact ⟨by simp only [Monitor.bounds]; omega, by simp only [Monitor.bounds]; omega⟩

/-- **The crossing over a contact**, each end as a part of the edges it is on. -/
structure Crosses (a b : Bounds) (start stop : Int) (t : Transition) : Prop where
  contact : Contact a b t.edge start stop
  sourceStart : t.sourceStart = partOf (a.along t.edge) start
  sourceEnd : t.sourceEnd = partOf (a.along t.edge) stop
  targetStart : t.targetStart = partOf (b.along t.edge) start
  targetEnd : t.targetEnd = partOf (b.along t.edge) stop

/-- The same crossing the other way. -/
def Transition.opposite (t : Transition) : Transition :=
  ⟨t.target, t.source, App.opposite t.edge, t.targetStart, t.targetEnd, t.sourceStart, t.sourceEnd⟩

section

variable {a b : Monitor} {source target : Nat} {start stop : Int} {t : Transition}

theorem Crosses.opposite {a b : Bounds} (h : Crosses a b start stop t) : Crosses b a start stop t.opposite where
  contact := h.contact.symm
  sourceStart := h.targetStart.trans (congrArg (partOf · start) (along_opposite b t.edge).symm)
  sourceEnd := h.targetEnd.trans (congrArg (partOf · stop) (along_opposite b t.edge).symm)
  targetStart := h.sourceStart.trans (congrArg (partOf · start) (along_opposite a t.edge).symm)
  targetEnd := h.sourceEnd.trans (congrArg (partOf · stop) (along_opposite a t.edge).symm)

theorem transitionOf_eq_some (ha : a.bounds.Positive) (hb : b.bounds.Positive) :
    transitionOf source a target b = some t ↔ (source ≠ target ∧ a.peer ≠ b.peer ∧ a.active = true ∧ b.active = true) ∧
        t.source = source ∧ t.target = target ∧ ∃ start stop, Crosses a.bounds b.bounds start stop t := by
  unfold transitionOf
  split
  · rename_i hskip
    refine ⟨fun h => (by cases h), ?_⟩
    rintro ⟨⟨hne, hpeers, hactive, hother⟩, -⟩
    rcases hskip with h | h | h | h
    · exact absurd h hne
    · exact absurd h hpeers
    · rw [hactive] at h
      cases h
    · rw [hother] at h
      cases h
  rename_i hmeets
  simp only [not_or, Bool.not_eq_false] at hmeets
  rw [and_iff_right (show source ≠ target ∧ a.peer ≠ b.peer ∧ a.active = true ∧ b.active = true from hmeets)]
  constructor
  · intro h
    obtain ⟨edge, hfacing, h⟩ := Option.bind_eq_some_iff.mp h
    dsimp only at h
    split at h
    · rename_i hshares
      cases h
      exact ⟨rfl, rfl, _, _, ⟨faces_of_facing hfacing, rfl, rfl, hshares⟩, rfl, rfl, rfl, rfl⟩
    · cases h
  · rintro ⟨rfl, rfl, start, stop, hcrosses⟩
    have hcontact := hcrosses.contact
    have hshares := hcontact.shares
    rw [facing_of_contact ha hb hcontact, Option.bind_eq_bind, Option.bind_some]
    obtain rfl := hcontact.start_eq
    obtain rfl := hcontact.stop_eq
    dsimp only
    rw [if_pos hshares, ← hcrosses.sourceStart, ← hcrosses.sourceEnd, ← hcrosses.targetStart, ← hcrosses.targetEnd]

end

namespace Layout

variable {layout : Layout} {t : Transition}

/-- A crossing joins active screens of two computers where they touch. -/
structure Joins (layout : Layout) (t : Transition) (a b : Monitor) (start stop : Int) : Prop where
  source : layout.monitors[t.source]? = some a
  target : layout.monitors[t.target]? = some b
  peers : a.peer ≠ b.peer
  sourceActive : a.active = true
  targetActive : b.active = true
  crosses : Crosses a.bounds b.bounds start stop t

theorem mem_transitions (hvalid : layout.Valid) :
    t ∈ layout.transitions ↔ ∃ a b start stop, layout.Joins t a b start stop := by
  unfold transitions
  rw [if_pos (isOk_iff.mpr (validate_eq_ok.mpr hvalid)), List.mem_flatMap]
  have hpositive : ∀ {i : Nat} {m : Monitor}, layout.monitors[i]? = some m → m.bounds.Positive := fun hm =>
    (hvalid.monitors _ (List.mem_of_getElem? hm)).positive
  constructor
  · rintro ⟨⟨a, source⟩, ha, hin⟩
    obtain ⟨⟨b, target⟩, hb, h⟩ := List.mem_filterMap.mp hin
    have ha := List.mem_zipIdx_iff_getElem?.mp ha
    have hb := List.mem_zipIdx_iff_getElem?.mp hb
    obtain ⟨⟨-, hpeers, hactive, hother⟩, rfl, rfl, start, stop, hcrosses⟩ :=
      (transitionOf_eq_some (hpositive ha) (hpositive hb)).mp h
    exact ⟨a, b, start, stop, ha, hb, hpeers, hactive, hother, hcrosses⟩
  · rintro ⟨a, b, start, stop, h⟩
    refine ⟨(a, t.source), List.mem_zipIdx_iff_getElem?.mpr h.source,
      List.mem_filterMap.mpr ⟨(b, t.target), List.mem_zipIdx_iff_getElem?.mpr h.target, ?_⟩⟩
    refine (transitionOf_eq_some (hpositive h.source) (hpositive h.target)).mpr
      ⟨⟨fun heq => h.peers ?_, h.peers, h.sourceActive, h.targetActive⟩, rfl, rfl, start, stop, h.crosses⟩
    have hsame := h.source
    rw [heq, h.target] at hsame
    exact congrArg Monitor.peer (Option.some.inj hsame).symm

theorem Joins.opposite {a b : Monitor} {start stop : Int} (h : layout.Joins t a b start stop) :
    layout.Joins t.opposite b a start stop :=
  ⟨h.target, h.source, h.peers.symm, h.targetActive, h.sourceActive, h.crosses.opposite⟩

/-- Two crossings from one screen to another are one. -/
theorem Joins.unique {a b a' b' : Monitor} {start stop start' stop' : Int} {t' : Transition} (hvalid : layout.Valid)
    (h : layout.Joins t a b start stop) (h' : layout.Joins t' a' b' start' stop') (hsource : t.source = t'.source)
    (htarget : t.target = t'.target) : t = t' := by
  obtain rfl : a = a' := Option.some.inj (h.source.symm.trans (hsource ▸ h'.source))
  obtain rfl : b = b' := Option.some.inj (h.target.symm.trans (htarget ▸ h'.target))
  have ha := (hvalid.monitors a (List.mem_of_getElem? h.source)).positive
  have hb := (hvalid.monitors b (List.mem_of_getElem? h.target)).positive
  have hedge : t.edge = t'.edge := Option.some.inj ((facing_of_contact ha hb h.crosses.contact).symm.trans
    (facing_of_contact ha hb h'.crosses.contact))
  have hstart : start = start' := by
    rw [h.crosses.contact.start_eq, h'.crosses.contact.start_eq, hedge]
  have hstop : stop = stop' := by
    rw [h.crosses.contact.stop_eq, h'.crosses.contact.stop_eq, hedge]
  refine Transition.ext hsource htarget hedge ?_ ?_ ?_ ?_
  · rw [h.crosses.sourceStart, h'.crosses.sourceStart, hedge, hstart]
  · rw [h.crosses.sourceEnd, h'.crosses.sourceEnd, hedge, hstop]
  · rw [h.crosses.targetStart, h'.crosses.targetStart, hedge, hstart]
  · rw [h.crosses.targetEnd, h'.crosses.targetEnd, hedge, hstop]

/-- Each crossing stands in the list once. -/
theorem nodup_transitions (hvalid : layout.Valid) : layout.transitions.Nodup := by
  unfold transitions
  rw [if_pos (isOk_iff.mpr (validate_eq_ok.mpr hvalid))]
  have hends : ∀ {a b : Monitor} {source target : Nat} {t : Transition}, transitionOf source a target b = some t →
      t.source = source ∧ t.target = target := by
    intro a b source target t h
    unfold transitionOf at h
    split at h
    · cases h
    · obtain ⟨edge, -, h⟩ := Option.bind_eq_some_iff.mp h
      dsimp only at h
      split at h
      · cases h
        exact ⟨rfl, rfl⟩
      · cases h
  have hplaces : (layout.monitors.zipIdx.map Prod.snd).Nodup := by
    rw [List.zipIdx_map_snd]
    exact List.nodup_range'
  refine List.nodup_flatMap.mpr ⟨fun (a, source) _ => ?_, ?_⟩
  · refine List.pairwise_filterMap.mpr ((List.pairwise_map.mp hplaces).imp ?_)
    rintro ⟨b, target⟩ ⟨c, other⟩ hne t ht t' ht' rfl
    exact hne ((hends ht).2.symm.trans (hends ht').2)
  · refine (List.pairwise_map.mp hplaces).imp ?_
    rintro ⟨a, source⟩ ⟨b, other⟩ hne t ht ht'
    obtain ⟨_, -, h⟩ := List.mem_filterMap.mp ht
    obtain ⟨_, -, h'⟩ := List.mem_filterMap.mp ht'
    exact hne ((hends h).1.symm.trans (hends h').1)

/-- Screens at two places do not overlap. -/
theorem beside_of_ne (hvalid : layout.Valid) {i j : Nat} {a b : Monitor} (ha : layout.monitors[i]? = some a)
    (hb : layout.monitors[j]? = some b) (hne : i ≠ j) : Beside a b := by
  refine hvalid.beside.forall (List.mem_of_getElem? ha) (List.mem_of_getElem? hb) fun heq => hne ?_
  obtain ⟨hi, -⟩ := List.getElem?_eq_some_iff.mp ha
  refine (List.getElem?_inj (by rwa [List.length_map]) hvalid.ids).mp ?_
  rw [List.getElem?_map, List.getElem?_map, ha, hb, heq]

/-- Crossings over one edge of one screen share at most an end. -/
theorem Joins.apart {a b a' b' : Monitor} {start stop start' stop' : Int} {t' : Transition} (hvalid : layout.Valid)
    (h : layout.Joins t a b start stop) (h' : layout.Joins t' a' b' start' stop') (hsource : t.source = t'.source)
    (hedge : t.edge = t'.edge) (hne : t ≠ t') : t.sourceEnd ≤ t'.sourceStart ∨ t'.sourceEnd ≤ t.sourceStart := by
  obtain rfl : a = a' := Option.some.inj (h.source.symm.trans (hsource ▸ h'.source))
  have htargets : t.target ≠ t'.target := fun htarget => hne (h.unique hvalid h' hsource htarget)
  have hbeside := beside_of_ne hvalid h.target h'.target htargets h.targetActive h'.targetActive
  have hpositive : ∀ {i : Nat} {m : Monitor}, layout.monitors[i]? = some m → m.bounds.Positive := fun hm =>
    (hvalid.monitors _ (List.mem_of_getElem? hm)).positive
  have ha := hpositive h.source
  have hedgePositive : (a.bounds.along t.edge).1 < (a.bounds.along t.edge).2 := by
    cases t.edge
    · exact ha.height
    · exact ha.height
    · exact ha.width
    · exact ha.width
  have hcontact := h'.crosses.contact
  rw [← hedge] at hcontact
  rw [h.crosses.sourceEnd, h'.crosses.sourceStart, h'.crosses.sourceEnd, h.crosses.sourceStart, ← hedge]
  have hapart : b.bounds.right ≤ b'.bounds.left ∨ b'.bounds.right ≤ b.bounds.left ∨
      b.bounds.bottom ≤ b'.bounds.top ∨ b'.bounds.bottom ≤ b.bounds.top := by
    unfold Monitor.overlaps at hbeside
    simp only [Bool.and_eq_false_iff, decide_eq_false_iff_not] at hbeside
    omega
  exact (stretches_apart (hpositive h.target) (hpositive h'.target) hapart h.crosses.contact hcontact).imp
    (partOf_le hedgePositive) (partOf_le hedgePositive)

/-! ## Seams -/

/-- The line over which a crossing to the right, or down, goes. -/
def SeamOver (layout : Layout) (t : Transition) (s : Seam) : Prop :=
  ∃ a b start stop, layout.Joins t a b start stop ∧
    s = ⟨a.id, b.id, t.edge = .right, if t.edge = .right then a.bounds.right else a.bounds.bottom, start, stop, false⟩

/-- The line between two screens of different computers is that over the crossing from the left one, or the
upper one. -/
theorem seamOf_eq_some {one other : Monitor} {s : Seam} (hone : one.bounds.Positive) (hother : other.bounds.Positive) :
    seamOf one other = some s ↔ one.active = true ∧ other.active = true ∧ ∃ edge start stop,
      Contact one.bounds other.bounds edge start stop ∧
      s = match edge with
        | .right => ⟨one.id, other.id, true, one.bounds.right, start, stop, one.peer = other.peer⟩
        | .left => ⟨other.id, one.id, true, one.bounds.left, start, stop, one.peer = other.peer⟩
        | .bottom => ⟨one.id, other.id, false, one.bounds.bottom, start, stop, one.peer = other.peer⟩
        | .top => ⟨other.id, one.id, false, one.bounds.top, start, stop, one.peer = other.peer⟩ := by
  unfold seamOf
  split
  · rename_i hskip
    refine ⟨fun h => (by cases h), ?_⟩
    rintro ⟨hactive, hotherActive, -⟩
    rw [hactive, hotherActive] at hskip
    simp at hskip
  rename_i hactive
  simp only [not_or, Bool.not_eq_false] at hactive
  rw [and_iff_right hactive.1, and_iff_right hactive.2]
  constructor
  · intro h
    obtain ⟨edge, hfacing, h⟩ := Option.bind_eq_some_iff.mp h
    dsimp only at h
    split at h
    · cases h
    · rename_i hshares
      refine ⟨edge, _, _, ⟨faces_of_facing hfacing, rfl, rfl, Int.not_le.mp hshares⟩, ?_⟩
      cases edge <;> cases h <;> rfl
  · rintro ⟨edge, start, stop, hcontact, rfl⟩
    have hshares := hcontact.shares
    rw [facing_of_contact hone hother hcontact, Option.bind_eq_bind, Option.bind_some]
    obtain rfl := hcontact.start_eq
    obtain rfl := hcontact.stop_eq
    dsimp only
    rw [if_neg (Int.not_le.mpr hshares)]
    cases edge <;> rfl

/-- A line stands between the two screens it was made of. -/
theorem ends_of_seamOf {one other : Monitor} {s : Seam} (h : seamOf one other = some s) :
    s.a = one.id ∧ s.b = other.id ∨ s.a = other.id ∧ s.b = one.id := by
  unfold seamOf at h
  split at h
  · cases h
  obtain ⟨edge, -, h⟩ := Option.bind_eq_some_iff.mp h
  dsimp only at h
  split at h
  · cases h
  · cases edge <;> cases h <;> simp

/-- Where two computers' active screens touch there is a crossing. -/
theorem exists_joins {i j : Nat} {a b : Monitor} {edge : Edge} {start stop : Int} (ha : layout.monitors[i]? = some a)
    (hb : layout.monitors[j]? = some b) (hpeers : a.peer ≠ b.peer) (hactive : a.active = true)
    (hother : b.active = true) (h : Contact a.bounds b.bounds edge start stop) :
    ∃ t, t.source = i ∧ t.target = j ∧ t.edge = edge ∧ layout.Joins t a b start stop :=
  ⟨⟨i, j, edge, partOf (a.bounds.along edge) start, partOf (a.bounds.along edge) stop,
    partOf (b.bounds.along edge) start, partOf (b.bounds.along edge) stop⟩, rfl, rfl, rfl, ha, hb, hpeers, hactive,
    hother, h, rfl, rfl, rfl, rfl⟩

/-- **The lines between different computers** are those over the crossings to the right and down. -/
theorem mem_seams (hvalid : layout.Valid) {s : Seam} : s ∈ layout.seams ∧ s.sameComputer = false ↔
    ∃ t ∈ layout.transitions, (t.edge = .right ∨ t.edge = .bottom) ∧ SeamOver layout t s := by
  have hpositive : ∀ {i : Nat} {m : Monitor}, layout.monitors[i]? = some m → m.bounds.Positive := fun hm =>
    (hvalid.monitors _ (List.mem_of_getElem? hm)).positive
  have hmem : s ∈ layout.seams ↔ ∃ one other, (one, other) ∈ pairs layout.monitors ∧ seamOf one other = some s := by
    unfold seams
    rw [if_pos (isOk_iff.mpr (validate_eq_ok.mpr hvalid)), List.mem_filterMap, Prod.exists]
  rw [hmem]
  constructor
  · rintro ⟨⟨one, other, hpair, hseam⟩, hcomputers⟩
    obtain ⟨i, j, -, hone, hother⟩ := mem_pairs.mp hpair
    obtain ⟨hactive, hotherActive, edge, start, stop, hcontact, rfl⟩ :=
      (seamOf_eq_some (hpositive hone) (hpositive hother)).mp hseam
    have hpeers : one.peer ≠ other.peer := by
      cases edge <;> exact of_decide_eq_false hcomputers
    have hfaces := hcontact.faces
    cases edge with
    | right =>
      obtain ⟨t, -, -, hedge, hjoins⟩ := exists_joins hone hother hpeers hactive hotherActive hcontact
      exact ⟨t, (mem_transitions hvalid).mpr ⟨_, _, _, _, hjoins⟩, .inl hedge, one, other, start, stop, hjoins,
        by simp [hedge, hpeers]⟩
    | bottom =>
      obtain ⟨t, -, -, hedge, hjoins⟩ := exists_joins hone hother hpeers hactive hotherActive hcontact
      exact ⟨t, (mem_transitions hvalid).mpr ⟨_, _, _, _, hjoins⟩, .inr hedge, one, other, start, stop, hjoins,
        by simp [hedge, hpeers]⟩
    | left =>
      have hfaces : one.bounds.left = other.bounds.right := hfaces
      obtain ⟨t, -, -, hedge, hjoins⟩ := exists_joins hother hone hpeers.symm hotherActive hactive hcontact.symm
      exact ⟨t, (mem_transitions hvalid).mpr ⟨_, _, _, _, hjoins⟩, .inl hedge, other, one, start, stop, hjoins,
        by simpa [hedge, opposite, hpeers] using hfaces⟩
    | top =>
      have hfaces : one.bounds.top = other.bounds.bottom := hfaces
      obtain ⟨t, -, -, hedge, hjoins⟩ := exists_joins hother hone hpeers.symm hotherActive hactive hcontact.symm
      exact ⟨t, (mem_transitions hvalid).mpr ⟨_, _, _, _, hjoins⟩, .inr hedge, other, one, start, stop, hjoins,
        by simpa [hedge, opposite, hpeers] using hfaces⟩
  · rintro ⟨t, -, hedge, a, b, start, stop, hjoins, rfl⟩
    refine ⟨?_, rfl⟩
    have hcontact := hjoins.crosses.contact
    have hfaces := hcontact.faces
    have hpeers := hjoins.peers
    rcases Nat.lt_or_ge t.source t.target with hbefore | hafter
    · refine ⟨a, b, mem_pairs.mpr ⟨_, _, hbefore, hjoins.source, hjoins.target⟩,
        (seamOf_eq_some (hpositive hjoins.source) (hpositive hjoins.target)).mpr
          ⟨hjoins.sourceActive, hjoins.targetActive, t.edge, start, stop, hcontact, ?_⟩⟩
      rcases hedge with hright | hbottom
      · simp [hright, hpeers]
      · simp [hbottom, hpeers]
    · have hne : t.target ≠ t.source := fun heq => hpeers (congrArg Monitor.peer
        (Option.some.inj (hjoins.source.symm.trans (heq ▸ hjoins.target))))
      refine ⟨b, a, mem_pairs.mpr ⟨_, _, Nat.lt_of_le_of_ne hafter hne, hjoins.target, hjoins.source⟩,
        (seamOf_eq_some (hpositive hjoins.target) (hpositive hjoins.source)).mpr
          ⟨hjoins.targetActive, hjoins.sourceActive, opposite t.edge, start, stop, hcontact.symm, ?_⟩⟩
      rcases hedge with hright | hbottom
      · rw [hright] at hfaces
        simp only [Faces] at hfaces
        simp [hright, opposite, hpeers.symm, hfaces]
      · rw [hbottom] at hfaces
        simp only [Faces] at hfaces
        simp [hbottom, opposite, hpeers.symm, hfaces]

/-! ## The law -/

/-- **Crossings lead both ways**, over the contacts of different computers' active screens and no others. -/
structure BothWays (layout : Layout) : Prop where
  opposite : ∀ t ∈ layout.transitions, t.opposite ∈ layout.transitions
  /-- Each joins active screens of two computers over a stretch that they share. -/
  sound : ∀ t ∈ layout.transitions, ∃ a b start stop, layout.Joins t a b start stop
  /-- Each stretch that is shared has one crossing each way. -/
  complete : ∀ i j a b edge start stop, layout.monitors[i]? = some a → layout.monitors[j]? = some b →
    a.peer ≠ b.peer → a.active = true → b.active = true → Contact a.bounds b.bounds edge start stop →
    ∃ t, t.edge = edge ∧ Crosses a.bounds b.bounds start stop t ∧
      layout.transitions.filter (fun t => t.source = i ∧ t.target = j) = [t] ∧
      layout.transitions.filter (fun t => t.source = j ∧ t.target = i) = [t.opposite]
  /-- Along one edge they share at most an end. -/
  apart : layout.transitions.Pairwise fun s t => s.source = t.source → s.edge = t.edge →
    s.sourceEnd ≤ t.sourceStart ∨ t.sourceEnd ≤ s.sourceStart
  seams : ∀ s, s ∈ layout.seams ∧ s.sameComputer = false ↔
    ∃ t ∈ layout.transitions, (t.edge = .right ∨ t.edge = .bottom) ∧ SeamOver layout t s
  /-- Each pair of screens has one line. -/
  once : layout.seams.Pairwise fun s t => (s.a, s.b) ≠ (t.a, t.b) ∧ (s.a, s.b) ≠ (t.b, t.a)

theorem filter_ends (hvalid : layout.Valid) (ht : t ∈ layout.transitions) {i j : Nat} (hsource : t.source = i)
    (htarget : t.target = j) : layout.transitions.filter (fun t => t.source = i ∧ t.target = j) = [t] := by
  have hnodup := (nodup_transitions hvalid).filter fun t => decide (t.source = i ∧ t.target = j)
  refine List.perm_singleton.mp ((List.perm_ext_iff_of_nodup hnodup (List.nodup_singleton t)).mpr fun other => ?_)
  rw [List.mem_filter, List.mem_singleton, decide_eq_true_eq]
  constructor
  · rintro ⟨hother, hotherSource, hotherTarget⟩
    obtain ⟨a, b, start, stop, hjoins⟩ := (mem_transitions hvalid).mp ht
    obtain ⟨a', b', start', stop', hjoins'⟩ := (mem_transitions hvalid).mp hother
    exact hjoins'.unique hvalid hjoins (hotherSource.trans hsource.symm) (hotherTarget.trans htarget.symm)
  · rintro rfl
    exact ⟨ht, hsource, htarget⟩

theorem crossings_both_ways (layout : Layout) (hvalid : layout.validate = .ok ()) : BothWays layout := by
  have hgood := validate_eq_ok.mp hvalid
  have hopposite : ∀ t ∈ layout.transitions, t.opposite ∈ layout.transitions := by
    intro t ht
    obtain ⟨a, b, start, stop, hjoins⟩ := (mem_transitions hgood).mp ht
    exact (mem_transitions hgood).mpr ⟨b, a, start, stop, hjoins.opposite⟩
  refine ⟨hopposite, fun t ht => (mem_transitions hgood).mp ht, ?_, ?_, fun s => mem_seams hgood, ?_⟩
  · intro i j a b edge start stop ha hb hpeers hactive hother hcontact
    obtain ⟨t, hsource, htarget, hedge, hjoins⟩ := exists_joins ha hb hpeers hactive hother hcontact
    have ht := (mem_transitions hgood).mpr ⟨a, b, start, stop, hjoins⟩
    exact ⟨t, hedge, hjoins.crosses, filter_ends hgood ht hsource htarget,
      filter_ends hgood (hopposite t ht) htarget hsource⟩
  · refine (nodup_transitions hgood).pairwise_of_forall_ne fun s hs t ht hne hsource hedge => ?_
    obtain ⟨a, b, start, stop, hjoins⟩ := (mem_transitions hgood).mp hs
    obtain ⟨a', b', start', stop', hjoins'⟩ := (mem_transitions hgood).mp ht
    exact hjoins.apart hgood hjoins' hsource hedge hne
  · unfold seams
    rw [if_pos (isOk_iff.mpr hvalid)]
    refine List.pairwise_filterMap.mpr ((pairs_pairwise hgood.ids).imp ?_)
    rintro ⟨one, other⟩ ⟨one', other'⟩ ⟨hne, hswap⟩ s hs t ht
    have hs := ends_of_seamOf hs
    have ht := ends_of_seamOf ht
    dsimp only at hne hswap
    grind

/-- This computer's screen and, half as far down, that of a paired one to its right. -/
def stepped : Layout :=
  ⟨[⟨"local", "This computer", none, none, 0, 0, 1000, 1000⟩, ⟨"peer:b", "b", some "b", none, 1000, 500, 1000, 1000⟩]⟩

theorem crossings_both_ways_stepped : BothWays stepped ∧
    stepped.transitions = [⟨0, 1, .right, 1 / 2, 1, 0, 1 / 2⟩, ⟨1, 0, .left, 0, 1 / 2, 1 / 2, 1⟩] :=
  ⟨crossings_both_ways stepped (isOk_iff.mp (by decide +kernel)), by decide +kernel⟩

end Layout

end Zflow.App
