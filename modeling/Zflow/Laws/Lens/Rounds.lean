import Zflow.Laws.Lens.Records

/-!
# What the encoder does in a round

A round looks at tiles that were not picked in it, sends some of them, and notes where the scan stands
(`Move`). The lens, the ring and the scan are such moves, so what a move keeps is said once.
-/

namespace Zflow.Lens

open Lib Encoder

variable {F : Type} {capture : Capture} {now every : UInt64}

/-! ## Looking at a tile -/

namespace Encoder

variable {e : Encoder F} {id : Nat}

/-- A tile that was compared with the capture. -/
def compared (e : Encoder F) (id : Nat) (capture : Capture) (now : UInt64) : Encoder F :=
  e.setTile id { e.tiles id with
    checked := e.generation, comparedNs := now, stale := e.differs id capture }

@[simp] theorem compared_round : (e.compared id capture now).round = e.round := rfl

@[simp] theorem compared_generation : (e.compared id capture now).generation = e.generation := rfl

@[simp] theorem compared_tiles_same : (e.compared id capture now).tiles id =
    { e.tiles id with checked := e.generation, comparedNs := now, stale := e.differs id capture } :=
  Function.update_self _ _ _

theorem compared_tiles_of_ne {other : Nat} (h : other ≠ id) :
    (e.compared id capture now).tiles other = e.tiles other :=
  Function.update_of_ne h _ _

@[simp] theorem put_round {level : Nat} : (e.put id level capture now).round = e.round := rfl

@[simp] theorem put_generation {level : Nat} : (e.put id level capture now).generation = e.generation := rfl

@[simp] theorem put_tiles_same {level : Nat} : (e.put id level capture now).tiles id =
    { level, stale := false, checked := e.generation, comparedNs := now, picked := e.round, sentNs := now } :=
  Function.update_self _ _ _

theorem put_tiles_of_ne {level other : Nat} (h : other ≠ id) :
    (e.put id level capture now).tiles other = e.tiles other :=
  Function.update_of_ne h _ _

/-- Looking at a tile compares it, or leaves the encoder as it was. -/
theorem need_encoder : (e.need id capture now every).2 =
    if e.compares id now every then e.compared id capture now else e := by
  unfold need
  split
  · rename_i hlevel
    simp [compares, hlevel]
  · rfl

theorem need_answer (hlevel : (e.tiles id).level ≠ 0) :
    (e.need id capture now every).1 = (e.need id capture now every).2.lacks id := by
  unfold need
  rw [if_neg hlevel]

/-- A tile that the other side has nothing of is not current. -/
theorem level_ne_zero (hcurrent : (e.need id capture now every).1 = .current) : (e.tiles id).level ≠ 0 := by
  intro hzero
  rw [need, if_pos hzero] at hcurrent
  cases hcurrent

theorem lacks_eq_current : e.lacks id = .current ↔ (e.tiles id).stale = false ∧ (e.tiles id).level < 2 := by
  unfold lacks
  split
  · rename_i hstale
    simp [hstale]
  · rename_i hfresh
    split
    · simp [Nat.not_lt.mpr ‹2 ≤ _›]
    · simpa [hfresh] using ‹¬2 ≤ _›

end Encoder

@[simp] theorem Round.put_encoder (r : Round F) (id level : Nat) (capture : Capture) (now : UInt64) :
    (r.put id level capture now).encoder = r.encoder.put id level capture now := rfl

theorem Round.need_encoder (r : Round F) (id : Nat) (capture : Capture) (now every : UInt64) :
    (r.need id capture now every).2.encoder = (r.encoder.need id capture now every).2 := rfl

/-- What looking at a tile and noting where the scan stands leave alone. -/
structure Alike (e e' : Encoder F) : Prop where
  width : e'.width = e.width
  height : e'.height = e.height
  pixels : e'.pixels = e.pixels
  raw : e'.raw = e.raw
  round : e'.round = e.round
  generation : e'.generation = e.generation
  sequence : e'.sequence = e.sequence
  level : ∀ id, (e'.tiles id).level = (e.tiles id).level
  picked : ∀ id, (e'.tiles id).picked = (e.tiles id).picked

theorem Alike.refl (e : Encoder F) : Alike e e :=
  ⟨rfl, rfl, rfl, rfl, rfl, rfl, rfl, fun _ => rfl, fun _ => rfl⟩

theorem alike_need (e : Encoder F) (id : Nat) (capture : Capture) (now every : UInt64) :
    Alike e (e.need id capture now every).2 := by
  rw [need_encoder]
  split
  · refine ⟨rfl, rfl, rfl, rfl, rfl, rfl, rfl, fun other => ?_, fun other => ?_⟩
    · by_cases hsame : other = id
      · subst hsame
        simp
      · simp [compared_tiles_of_ne hsame]
    · by_cases hsame : other = id
      · subst hsame
        simp
      · simp [compared_tiles_of_ne hsame]
  · exact .refl e

namespace Alike

variable {e e' e'' : Encoder F}

theorem trans (h : Alike e e') (h' : Alike e' e'') : Alike e e'' :=
  ⟨h'.width.trans h.width, h'.height.trans h.height, h'.pixels.trans h.pixels, h'.raw.trans h.raw,
    h'.round.trans h.round, h'.generation.trans h.generation, h'.sequence.trans h.sequence,
    fun id => (h'.level id).trans (h.level id), fun id => (h'.picked id).trans (h.picked id)⟩

theorem count (h : Alike e e') : e'.count = e.count := by
  rw [Encoder.count, Encoder.count, h.width, h.height]

theorem rect (h : Alike e e') (id : Nat) : e'.rect id = e.rect id := by
  rw [Encoder.rect, Encoder.rect, h.width, h.height]

end Alike

/-! ## Moves -/

/-- **What a round does**, tile by tile: it looks at one that it has not picked, sends one at a level
that `sends` allows, or notes where the scan stands. -/
inductive Move (capture : Capture) (now : UInt64) (sends : Nat → Prop) (r : Round F) : Round F → Prop
  | need (id : Nat) (every : UInt64) (hid : id < r.encoder.count)
    (hpicked : (r.encoder.tiles id).picked ≠ r.encoder.round) (hevery : every ≤ refreshNs) :
    Move capture now sends r (r.need id capture now every).2
  | put (id level : Nat) (hid : id < r.encoder.count)
    (hpicked : (r.encoder.tiles id).picked ≠ r.encoder.round) (hlevel : sends level) :
    Move capture now sends r (r.put id level capture now)
  | note (clean cursor : Nat) (deferred : Option UInt64) (fill scanned : Nat)
    (hcursor : cursor < r.encoder.count) :
    Move capture now sends r
      { r with encoder := { r.encoder with clean, cursor, deferred }, fill, scanned }

/-- Some moves in a row. -/
abbrev Moves (capture : Capture) (now : UInt64) (sends : Nat → Prop) : Round F → Round F → Prop :=
  Relation.ReflTransGen (Move capture now sends)

theorem Moves.mono {sends sends' : Nat → Prop} (h : ∀ level, sends level → sends' level) {r r' : Round F}
    (hmoves : Moves capture now sends r r') : Moves capture now sends' r r' := by
  induction hmoves with
  | refl => exact .refl
  | tail _ hmove ih =>
    refine ih.tail ?_
    cases hmove with
    | need id every hid hpicked hevery => exact .need id every hid hpicked hevery
    | put id level hid hpicked hlevel => exact .put id level hid hpicked (h level hlevel)
    | note clean cursor deferred fill scanned hcursor =>
      exact .note clean cursor deferred fill scanned hcursor

section Spread

variable {r : Round F}

/-- The scan's place is on the desktop. -/
def Placed (r : Round F) : Prop := r.encoder.cursor < r.encoder.count

/-- What is known of a round after a look at a tile. -/
structure LookedAt (r : Round F) (id : Nat) (r' : Round F) : Prop where
  placed : Placed r'
  count : r'.encoder.count = r.encoder.count
  fill : r'.fill = r.fill
  unpicked : (r'.encoder.tiles id).picked ≠ r'.encoder.round

theorem lookedAt_need (capture : Capture) (now every : UInt64) (hplaced : Placed r) {id : Nat}
    (hpicked : (r.encoder.tiles id).picked ≠ r.encoder.round) : LookedAt r id (r.need id capture now every).2 := by
  have halike := alike_need r.encoder id capture now every
  refine ⟨?_, halike.count, rfl, fun heq => hpicked ?_⟩
  · have hcursor : (r.need id capture now every).2.encoder.cursor = r.encoder.cursor := by
      rw [Round.need_encoder, need_encoder]
      split <;> rfl
    rw [Placed, hcursor]
    exact hplaced.trans_le halike.count.ge
  · exact (halike.picked id).symm.trans (heq.trans halike.round)

/-- A tile that is sent exactly from the spare budget. -/
theorem moves_put (hplaced : Placed r) {id : Nat} (hid : id < r.encoder.count)
    (hpicked : (r.encoder.tiles id).picked ≠ r.encoder.round) (fill : Nat) :
    Moves capture now (· = 1) r ({ r with fill }.put id 1 capture now) :=
  (Relation.ReflTransGen.single
    (.note r.encoder.clean r.encoder.cursor r.encoder.deferred fill r.scanned hplaced)).tail
      (.put id 1 hid hpicked rfl)

theorem moves_setClean (hplaced : Placed r) (clean : Nat) : Moves capture now (· = 1) r (r.setClean clean) :=
  .single (.note clean r.encoder.cursor r.encoder.deferred r.fill r.scanned hplaced)

theorem moves_putOff (hplaced : Placed r) (id : Nat) : Moves capture now (· = 1) r (r.putOff id) := by
  unfold Round.putOff
  simp only
  split
  · exact .single (.note r.encoder.clean r.encoder.cursor _ r.fill r.scanned hplaced)
  · exact .refl

theorem LookedAt.putOff {r' : Round F} {id : Nat} (h : LookedAt r id r') : LookedAt r id (r'.putOff id) := by
  unfold Round.putOff
  simp only
  split
  · exact ⟨h.placed, h.count, h.fill, h.unpicked⟩
  · exact h

variable [LensF64 F]

theorem moves_ringOne (capture : Capture) (now : UInt64) (hplaced : Placed r) {id : Nat}
    (hid : id < r.encoder.count) : Moves capture now (· = 1) r (ringOne capture now r id) ∧
      Placed (ringOne capture now r id) ∧ (ringOne capture now r id).encoder.count = r.encoder.count := by
  unfold ringOne
  split
  · exact ⟨.refl, hplaced, rfl⟩
  · split
    · exact ⟨.refl, hplaced, rfl⟩
    · rename_i hpicked
      have hlooked : Moves capture now (· = 1) r (r.need id capture now ringRefreshNs).2 :=
        .single (.need id ringRefreshNs hid hpicked (by decide))
      have hafter := lookedAt_need capture now ringRefreshNs hplaced hpicked
      simp only
      generalize (r.need id capture now ringRefreshNs).2 = r' at hlooked hafter ⊢
      split
      · refine ⟨hlooked.trans (moves_put hafter.placed ?_ hafter.unpicked _), hafter.placed, hafter.count⟩
        exact hid.trans_le hafter.count.ge
      · exact ⟨hlooked, hafter.placed, hafter.count⟩

theorem moves_ring (capture : Capture) (now : UInt64) (ids : List Nat) (hplaced : Placed r)
    (hids : ∀ id ∈ ids, id < r.encoder.count) : Moves capture now (· = 1) r (ids.foldl (ringOne capture now) r) ∧
      Placed (ids.foldl (ringOne capture now) r) := by
  induction ids generalizing r with
  | nil => exact ⟨.refl, hplaced⟩
  | cons id ids ih =>
    obtain ⟨hone, hplaced', hcount⟩ :=
      moves_ringOne capture now hplaced (hids id List.mem_cons_self)
    obtain ⟨hrest, hlast⟩ := ih hplaced' fun other hother =>
      (hids other (List.mem_cons_of_mem _ hother)).trans_le hcount.ge
    exact ⟨hone.trans hrest, hlast⟩

theorem moves_scanOne (capture : Capture) (now : UInt64) (hplaced : Placed r) :
    Moves capture now (· = 1) r (scanOne capture now r).1 ∧ Placed (scanOne capture now r).1 ∧
      (scanOne capture now r).1.encoder.count = r.encoder.count := by
  by_cases hpicked : (r.encoder.tiles r.encoder.cursor).picked = r.encoder.round
  · simp only [scanOne, hpicked, if_true]
    exact ⟨moves_setClean hplaced _, hplaced, rfl⟩
  · have hlooked : Moves capture now (· = 1) r (r.need r.encoder.cursor capture now refreshNs).2 :=
      .single (.need _ refreshNs hplaced hpicked (UInt64.le_refl _))
    have hafter := lookedAt_need capture now refreshNs hplaced hpicked
    -- what was put off is noted in any case
    have hnoted := hlooked.trans (moves_putOff hafter.placed r.encoder.cursor)
    have hafter' := hafter.putOff
    simp only [scanOne, hpicked, if_false]
    generalize (r.need r.encoder.cursor capture now refreshNs).2.putOff r.encoder.cursor = r' at hnoted hafter' ⊢
    split
    · exact ⟨hnoted, hafter'.placed, hafter'.count⟩
    · split
      · exact ⟨hnoted.trans (moves_setClean hafter'.placed _), hafter'.placed, hafter'.count⟩
      · have hcursor : r.encoder.cursor < r'.encoder.count := hplaced.trans_le hafter'.count.ge
        refine ⟨hnoted.trans ((moves_put hafter'.placed hcursor hafter'.unpicked _).trans
          (moves_setClean ?_ _)), ?_, hafter'.count⟩
        · exact hafter'.placed
        · exact hafter'.placed

theorem moves_scan (n : Nat) (hplaced : Placed r) : Moves capture now (· = 1) r (scan capture now n r) := by
  induction n generalizing r with
  | zero => exact .refl
  | succ n ih =>
    rw [scan]
    split
    · obtain ⟨hone, hplaced', hcount⟩ := moves_scanOne capture now hplaced
      generalize scanOne capture now r = outcome at hone hplaced' hcount ⊢
      obtain ⟨next, goesOn⟩ := outcome
      simp only
      split
      · have hwrapped : (r.encoder.cursor + 1) % r.encoder.count < next.encoder.count :=
          (Nat.mod_lt _ (Nat.zero_lt_of_lt hplaced)).trans_le (Eq.ge hcount)
        refine (hone.tail (.note next.encoder.clean _ next.encoder.deferred next.fill _ hwrapped)).trans (ih ?_)
        exact hwrapped
      · exact hone
    · exact .refl

theorem mem_near {e : Encoder F} {view : View F} {id : Nat} :
    id ∈ (e.near view).map Prod.snd ↔ id < e.count ∧ view.includes (e.rect id) = true := by
  unfold near sortByFirst
  rw [((List.perm_insertionSort _ _).map Prod.snd).mem_iff]
  simp

/-- The ring and the scan send exact tiles only. -/
theorem moves_spread (view : View F) (hplaced : Placed r) :
    Moves capture now (· = 1) r (spread view capture now r) := by
  unfold spread
  obtain ⟨hring, hplaced'⟩ := moves_ring capture now _ hplaced
    fun id hid => (mem_near.mp hid).1
  exact hring.trans (moves_scan _ hplaced')

end Spread

/-- The scan's place stays on the desktop. -/
theorem Placed.moves {r r' : Round F} {sends : Nat → Prop} (h : Placed r)
    (hmoves : Moves capture now sends r r') : Placed r' := by
  induction hmoves with
  | refl => exact h
  | tail _ hmove ih =>
    cases hmove with
    | need id every _ hpicked _ => exact (lookedAt_need capture now every ih hpicked).placed
    | put _ _ _ _ _ => exact ih
    | note _ _ _ _ _ hcursor => exact hcursor

/-! ## Tiles that are settled -/

/-- A tile that is exact, as far as the encoder knows of this capture. -/
structure Settled (e : Encoder F) (id : Nat) : Prop where
  level : (e.tiles id).level = 1
  fresh : (e.tiles id).stale = false
  checked : (e.tiles id).checked = e.generation

namespace Settled

variable {r r' : Round F} {id : Nat}

theorem put_same (r : Round F) (id : Nat) (capture : Capture) (now : UInt64) :
    Settled (r.put id 1 capture now).encoder id := by
  refine ⟨?_, ?_, ?_⟩ <;> simp

theorem put (h : Settled r.encoder id) (other : Nat) : Settled (r.put other 1 capture now).encoder id := by
  by_cases hsame : id = other
  · subst hsame
    exact put_same r id capture now
  · refine ⟨?_, ?_, ?_⟩
    · simpa [put_tiles_of_ne hsame] using h.level
    · simpa [put_tiles_of_ne hsame] using h.fresh
    · simpa [put_tiles_of_ne hsame] using h.checked

/-- A settled tile is not compared again. -/
theorem need (h : Settled r.encoder id) (other : Nat) (every : UInt64) :
    Settled (r.need other capture now every).2.encoder id := by
  rw [Round.need_encoder, need_encoder]
  split
  · rename_i hcompares
    have hne : id ≠ other := by
      rintro rfl
      simp [compares, h.checked] at hcompares
    refine ⟨?_, ?_, ?_⟩
    · simpa [compared_tiles_of_ne hne] using h.level
    · simpa [compared_tiles_of_ne hne] using h.fresh
    · simpa [compared_tiles_of_ne hne] using h.checked
  · exact h

theorem moves (h : Settled r.encoder id) (hmoves : Moves capture now (· = 1) r r') :
    Settled r'.encoder id := by
  induction hmoves with
  | refl => exact h
  | tail _ hmove ih =>
    cases hmove with
    | need other every _ _ _ => exact ih.need other every
    | put other level _ _ hlevel =>
      subst hlevel
      exact ih.put other
    | note _ _ _ _ _ _ => exact ⟨ih.level, ih.fresh, ih.checked⟩

/-- A tile of the lens that lacks nothing is settled: it was compared, unless it was already. -/
theorem of_current (htime : (r.encoder.tiles id).comparedNs ≤ now)
    (hcurrent : (r.need id capture now 0).1 = .current) : Settled (r.need id capture now 0).2.encoder id := by
  have hcurrent : (r.encoder.need id capture now 0).1 = .current := hcurrent
  have hlevel := level_ne_zero hcurrent
  have hchecked : ((r.encoder.need id capture now 0).2.tiles id).checked =
      (r.encoder.need id capture now 0).2.generation := by
    rw [need_encoder]
    by_cases hcompares : r.encoder.compares id now 0 = true
    · rw [if_pos hcompares]
      simp
    · rw [if_neg hcompares]
      simp only [compares, Bool.and_eq_true, decide_eq_true_eq, not_and, UInt64.add_zero] at hcompares
      by_contra hne
      exact hcompares ⟨hlevel, hne⟩ htime
  have hlevel' := (alike_need r.encoder id capture now 0).level id
  rw [need_answer hlevel] at hcurrent
  rw [Round.need_encoder]
  generalize (r.encoder.need id capture now 0).2 = e at hcurrent hchecked hlevel' ⊢
  obtain ⟨hfresh, hless⟩ := lacks_eq_current.mp hcurrent
  exact ⟨by omega, hfresh, hchecked⟩

end Settled

/-! ## The lens -/

section Lens

variable [LensF64 F] {r : Round F} {e : Encoder F} {view : Option (View F)}

theorem mem_lens {id : Nat} : id ∈ (e.lens view).map Prod.snd ↔
    id < e.count ∧ ∀ v ∈ view, v.includes (e.rect id) = true := by
  cases view with
  | none => simp [lens]
  | some view =>
    rw [lens, mem_near]
    simp

theorem nodup_lens : ((e.lens view).map Prod.snd).Nodup := by
  have hrange : ((List.range e.count).map id).Nodup := by
    rw [List.map_id]
    exact List.nodup_range
  cases view with
  | none =>
    simp only [lens, List.map_map]
    exact hrange
  | some view =>
    simp only [lens, near, sortByFirst]
    rw [((List.perm_insertionSort _ _).map Prod.snd).nodup_iff, List.map_map]
    exact (List.nodup_range.filter _).map fun _ _ h => h

/-- The lens after some of its tiles: nothing is sent yet, and each tile is work or settled. -/
structure Looking (capture : Capture) (now : UInt64) (start : Round F) (done : List Nat)
    (state : Round F × List (F × Nat × Need)) : Prop where
  moves : Moves capture now (fun _ => False) start state.1
  alike : Alike start.encoder state.1.encoder
  time : ∀ id, id ∉ done → (state.1.encoder.tiles id).comparedNs ≤ now
  placed : state.1.encoder.cursor = start.encoder.cursor
  work : (state.2.map fun w => w.2.1).Sublist done
  settled : ∀ id ∈ done, id ∈ (state.2.map fun w => w.2.1) ∨ Settled state.1.encoder id

theorem Looking.lookAt {done : List Nat} {state : Round F × List (F × Nat × Need)} {entry : F × Nat}
    (h : Looking capture now r done state) (hid : entry.2 < r.encoder.count)
    (hpicked : (r.encoder.tiles entry.2).picked ≠ r.encoder.round) (hnew : entry.2 ∉ done) :
    Looking capture now r (done ++ [entry.2]) (lookAt view capture now state entry) := by
  obtain ⟨at_, work⟩ := state
  have hid' : entry.2 < at_.encoder.count := hid.trans_le h.alike.count.ge
  have hpicked' : (at_.encoder.tiles entry.2).picked ≠ at_.encoder.round := by
    rw [h.alike.picked, h.alike.round]
    exact hpicked
  have hmoves := h.moves.tail (.need entry.2 0 hid' hpicked' (by decide))
  have halike := h.alike.trans (alike_need at_.encoder entry.2 capture now 0)
  have hothers (id : Nat) (hout : id ∉ done ++ [entry.2]) :
      ((at_.need entry.2 capture now 0).2.encoder.tiles id).comparedNs ≤ now := by
    rw [List.mem_append, List.mem_singleton, not_or] at hout
    rw [Round.need_encoder, need_encoder]
    split
    · simpa [compared_tiles_of_ne hout.2] using h.time id hout.1
    · exact h.time id hout.1
  have hcursor : (at_.need entry.2 capture now 0).2.encoder.cursor = r.encoder.cursor := by
    rw [← h.placed]
    rw [Round.need_encoder, need_encoder]
    split <;> rfl
  have hsettled (id : Nat) (hin : id ∈ done) : id ∈ (work.map fun w => w.2.1) ∨
      Settled (at_.need entry.2 capture now 0).2.encoder id :=
    (h.settled id hin).imp_right fun hsettled => hsettled.need entry.2 0
  simp only [Encoder.lookAt]
  split
  · rename_i hcurrent
    refine ⟨hmoves, halike, hothers, hcursor, h.work.trans (List.sublist_append_left _ _),
      fun id hin => ?_⟩
    rcases List.mem_append.mp hin with hbefore | hlast
    · exact hsettled id hbefore
    · obtain rfl := List.mem_singleton.mp hlast
      exact .inr (.of_current (h.time _ hnew) hcurrent)
  · refine ⟨hmoves, halike, hothers, hcursor, ?_, fun id hin => ?_⟩
    · rw [List.map_append]
      exact h.work.append (List.Sublist.refl _)
    · rw [List.map_append, List.mem_append]
      rcases List.mem_append.mp hin with hbefore | hlast
      · exact (hsettled id hbefore).imp_left .inl
      · exact .inl (.inr hlast)

theorem Looking.foldl (view : Option (View F)) (entries : List (F × Nat)) {done : List Nat}
    {state : Round F × List (F × Nat × Need)} (h : Looking capture now r done state)
    (hids : ∀ entry ∈ entries, entry.2 < r.encoder.count)
    (hpicked : ∀ id, (r.encoder.tiles id).picked ≠ r.encoder.round)
    (hnodup : (done ++ entries.map Prod.snd).Nodup) :
    Looking capture now r (done ++ entries.map Prod.snd) (entries.foldl (Encoder.lookAt view capture now) state) := by
  induction entries generalizing done state with
  | nil => simpa using h
  | cons entry rest ih =>
    rw [List.map_cons, List.append_cons] at hnodup ⊢
    have hnew : entry.2 ∉ done := by
      have hfirst := (List.nodup_append.mp hnodup).1
      exact fun hin => (List.nodup_append.mp hfirst).2.2 _ hin _ List.mem_cons_self rfl
    exact ih (h.lookAt (hids entry List.mem_cons_self) (hpicked entry.2) hnew)
      (fun other hother => hids other (List.mem_cons_of_mem _ hother)) hnodup

/-! ### What is sent of it -/

/-- What is chosen is some of the work, at levels a tile can have; all of it where it is exact. -/
structure Chooses (done : List (Nat × Need)) (choice : Choice) : Prop where
  work : (choice.chosen.map Prod.fst).Sublist (done.map Prod.fst)
  sent : ∀ c ∈ choice.chosen, Sent c.2
  exact : choice.exact = true → choice.chosen = done.map fun w => (w.1, 1)

theorem Chooses.chooseOne {level : Nat} {stale : Bool} {done : List (Nat × Need)} {choice : Choice}
    (h : Chooses done choice) (hlevel : Sent level) (w : Nat × Need) :
    Chooses (done ++ [w]) (e.chooseOne level stale choice w) := by
  have hone : Sent 1 := .inl rfl
  have hwith (level : Nat) (hlevel : Sent level) : ∀ c ∈ choice.chosen ++ [(w.1, level)], Sent c.2 := by
    intro c hc
    rcases List.mem_append.mp hc with hbefore | hlast
    · exact h.sent c hbefore
    · rw [List.mem_singleton.mp hlast]
      exact hlevel
  have hsub (level : Nat) : ((choice.chosen ++ [(w.1, level)]).map Prod.fst).Sublist ((done ++ [w]).map Prod.fst) := by
    rw [List.map_append, List.map_append]
    exact h.work.append (List.Sublist.refl _)
  simp only [Encoder.chooseOne]
  generalize e.cost w.1 1 - _ = extra
  split
  · refine ⟨hsub 1, hwith 1 hone, fun hexact => ?_⟩
    rw [h.exact hexact, List.map_append]
    rfl
  · refine ⟨?_, ?_, fun hexact => absurd hexact Bool.false_ne_true⟩
    · split
      · exact hsub level
      · rw [List.map_append]
        exact h.work.trans (List.sublist_append_left _ _)
    · split
      · exact hwith level hlevel
      · exact h.sent

theorem chooses_choose (work : List (Nat × Need)) (budget : Nat) : Chooses work (e.choose work budget) := by
  unfold choose
  simp only
  split
  · refine ⟨?_, fun c hc => ?_, fun _ => rfl⟩
    · rw [List.map_map]
      exact List.Sublist.refl _
    · obtain ⟨w, -, rfl⟩ := List.mem_map.mp hc
      exact .inl rfl
  · have hfold (level : Nat) (stale : Bool) (hlevel : Sent level)
        (rest done : List (Nat × Need)) (choice : Choice) (h : Chooses done choice) :
        Chooses (done ++ rest) (rest.foldl (e.chooseOne level stale) choice) := by
      induction rest generalizing done choice with
      | nil => simpa using h
      | cons w rest ih =>
        rw [List.append_cons, List.foldl_cons]
        exact ih _ _ (h.chooseOne hlevel w)
    refine hfold _ _ ?_ work [] _ ⟨List.Sublist.refl _, ?_, fun _ => rfl⟩
    swap
    · exact fun _ hc => absurd hc List.not_mem_nil
    split
    · exact .inr (.inl rfl)
    · exact .inr (.inr rfl)

/-! ### The round as a whole -/

omit [LensF64 F] in
theorem moves_putAll {sends : Nat → Prop} {chosen : List (Nat × Nat)} (hids : ∀ c ∈ chosen, c.1 < r.encoder.count)
    (hpicked : ∀ c ∈ chosen, (r.encoder.tiles c.1).picked ≠ r.encoder.round)
    (hnodup : (chosen.map Prod.fst).Nodup) (hsends : ∀ c ∈ chosen, sends c.2) :
    Moves capture now sends r (putAll capture now r chosen) := by
  induction chosen generalizing r with
  | nil => exact .refl
  | cons c rest ih =>
    obtain ⟨hnew, hnodup⟩ := List.nodup_cons.mp hnodup
    have hfirst : Moves capture now sends r (r.put c.1 c.2 capture now) :=
      .single (.put c.1 c.2 (hids c List.mem_cons_self) (hpicked c List.mem_cons_self) (hsends c List.mem_cons_self))
    refine hfirst.trans (ih (fun other hother => hids other (List.mem_cons_of_mem _ hother))
      (fun other hother => ?_) hnodup fun other hother => hsends other (List.mem_cons_of_mem _ hother))
    have hne : other.1 ≠ c.1 := fun heq => hnew (heq ▸ List.mem_map_of_mem hother)
    simpa [put_tiles_of_ne hne] using hpicked other (List.mem_cons_of_mem _ hother)

omit [LensF64 F] in
theorem settled_putAll {chosen : List (Nat × Nat)} (hexact : ∀ c ∈ chosen, c.2 = 1) {id : Nat}
    (h : id ∈ chosen.map Prod.fst ∨ Settled r.encoder id) : Settled (putAll capture now r chosen).encoder id := by
  induction chosen generalizing r with
  | nil => exact h.resolve_left List.not_mem_nil
  | cons c rest ih =>
    have hone : c.2 = 1 := hexact c List.mem_cons_self
    refine ih (fun other hother => hexact other (List.mem_cons_of_mem _ hother)) ?_
    simp only [hone]
    rcases h with hin | hsettled
    · rcases List.mem_cons.mp hin with rfl | hin
      · exact .inr (.put_same r c.1 capture now)
      · exact .inl hin
    · exact .inr (hsettled.put c.1)

/-- The round before anything is looked at. -/
def Round.fresh (e : Encoder F) (now : UInt64) : Round F := ⟨e.begin_ now, 0, 0, 0, []⟩

omit [LensF64 F] in
theorem begin_tiles (e : Encoder F) (now : UInt64) : (e.begin_ now).tiles = e.tiles ∧
    (e.begin_ now).round = e.round + 1 ∧ (e.begin_ now).cursor = e.cursor ∧
    (e.begin_ now).width = e.width ∧ (e.begin_ now).height = e.height := by
  unfold begin_
  simp only
  split <;> exact ⟨rfl, rfl, rfl, rfl, rfl⟩

theorem lens_begin (e : Encoder F) (now : UInt64) :
    ((e.begin_ now).lens view).map Prod.snd = (e.lens view).map Prod.snd := by
  obtain ⟨-, -, -, hwidth, hheight⟩ := begin_tiles e now
  have hcount : (e.begin_ now).count = e.count := by rw [count, count, hwidth, hheight]
  cases view with
  | none => simp [lens, hcount]
  | some view => simp [lens, near, Encoder.rect, hcount, hwidth, hheight]

omit [LensF64 F] in
/-- Nothing was picked in a round that begins. -/
theorem fresh_unpicked (hpicked : ∀ id, (e.tiles id).picked ≤ e.round) (now : UInt64) (id : Nat) :
    ((Round.fresh e now).encoder.tiles id).picked ≠ (Round.fresh e now).encoder.round := by
  obtain ⟨htiles, hround, -⟩ := begin_tiles e now
  have hle := hpicked id
  simp only [Round.fresh, htiles, hround]
  omega

/-- The whole lens was looked at. -/
theorem looking_lens (capture : Capture) (view : Option (View F)) (hpicked : ∀ id, (e.tiles id).picked ≤ e.round)
    (htime : ∀ id, (e.tiles id).comparedNs ≤ now) : Looking capture now (.fresh e now) ((e.lens view).map Prod.snd)
      (((e.begin_ now).lens view).foldl (Encoder.lookAt view capture now) (.fresh e now, [])) := by
  have hstart : Looking capture now (Round.fresh e now) [] (Round.fresh e now, []) := by
    refine ⟨.refl, .refl _, fun id _ => ?_, rfl, List.Sublist.refl _, fun _ hin => absurd hin List.not_mem_nil⟩
    simp only [Round.fresh, (begin_tiles e now).1]
    exact htime id
  have hlooking := hstart.foldl view ((e.begin_ now).lens view)
    (fun entry hentry => (mem_lens.mp (List.mem_map_of_mem hentry)).1) (fresh_unpicked hpicked now)
    (by rw [List.nil_append]; exact nodup_lens)
  rwa [List.nil_append, lens_begin] at hlooking

omit [LensF64 F] in
/-- What is chosen of the lens is sent, each tile once; where all of it is sent exactly, the lens is
settled. -/
theorem moves_chosen {ids : List Nat} {looked : Round F} {work : List (F × Nat × Need)}
    {sorted : List (Nat × Need)} {choice : Choice} (hpicked : ∀ id, (r.encoder.tiles id).picked ≠ r.encoder.round)
    (hlooking : Looking capture now r ids (looked, work)) (hids : ∀ id ∈ ids, id < r.encoder.count)
    (hnodup : ids.Nodup) (hperm : (sorted.map Prod.fst).Perm (work.map fun w => w.2.1))
    (hchooses : Chooses sorted choice) :
    Moves capture now Sent r (putAll capture now looked choice.chosen) ∧
      (choice.exact = true → ∀ id ∈ ids, Settled (putAll capture now looked choice.chosen).encoder id) := by
  have hof : ∀ c ∈ choice.chosen, c.1 ∈ ids := fun c hc =>
    hlooking.work.subset (hperm.subset (hchooses.work.subset (List.mem_map_of_mem hc)))
  refine ⟨(hlooking.moves.mono fun _ hfalse => hfalse.elim).trans (moves_putAll (fun c hc => ?_)
    (fun c _ => ?_) ?_ hchooses.sent), fun hexact id hin => ?_⟩
  · exact (hids c.1 (hof c hc)).trans_le hlooking.alike.count.ge
  · rw [hlooking.alike.picked, hlooking.alike.round]
    exact hpicked c.1
  · exact (hperm.nodup_iff.mpr (hnodup.sublist hlooking.work)).sublist hchooses.work
  · have hchosen := hchooses.exact hexact
    refine settled_putAll (fun c hc => ?_) ?_
    · rw [hchosen] at hc
      obtain ⟨w, -, rfl⟩ := List.mem_map.mp hc
      rfl
    · refine (hlooking.settled id hin).imp_left fun hwork => ?_
      rw [hchosen, List.map_map]
      exact hperm.symm.subset hwork

omit [LensF64 F] in
theorem placed_fresh (hplaced : e.cursor < e.count) (now : UInt64) : Placed (Round.fresh e now) := by
  obtain ⟨-, -, hcursor, hwidth, hheight⟩ := begin_tiles e now
  rw [Placed, Round.fresh, hcursor, count, hwidth, hheight]
  exact hplaced

theorem moves_sendLens (capture : Capture) (view : Option (View F)) (budget : Nat)
    (hpicked : ∀ id, (e.tiles id).picked ≤ e.round) (htime : ∀ id, (e.tiles id).comparedNs ≤ now) :
    Moves capture now Sent (.fresh e now) (e.sendLens capture view budget now).1 ∧
      ((e.sendLens capture view budget now).2.exact = true → ∀ id ∈ (e.lens view).map Prod.snd,
        Settled (e.sendLens capture view budget now).1.encoder id) := by
  have hlooking := looking_lens capture view hpicked htime
  have hids : ∀ id ∈ (e.lens view).map Prod.snd, id < (Round.fresh e now).encoder.count := by
    intro id hid
    rw [← lens_begin e now] at hid
    exact (mem_lens.mp hid).1
  have hperm (work : List (F × Nat × Need)) :
      (((sortByFirst work).map Prod.snd).map Prod.fst).Perm (work.map fun w => w.2.1) := by
    rw [List.map_map]
    exact (List.perm_insertionSort _ _).map _
  exact moves_chosen (fresh_unpicked hpicked now) hlooking hids nodup_lens (hperm _) (chooses_choose _ budget)

/-- **A round is moves**, and when it calls its packet exact, each tile under the lens is settled. -/
theorem moves_round (capture : Capture) (view : Option (View F)) (budget : Budget) (hplaced : e.cursor < e.count)
    (hpicked : ∀ id, (e.tiles id).picked ≤ e.round) (htime : ∀ id, (e.tiles id).comparedNs ≤ now) :
    Moves capture now Sent (.fresh e now) (e.round_ capture view budget now).1 ∧
      ((e.round_ capture view budget now).2.1 = true → ∀ id ∈ (e.lens view).map Prod.snd,
        Settled (e.round_ capture view budget now).1.encoder id) := by
  obtain ⟨hchosen, hexact⟩ := moves_sendLens capture view budget.lens hpicked htime
  have hafter := (placed_fresh hplaced now).moves hchosen
  unfold round_
  generalize e.sendLens capture view budget.lens now = sent at hchosen hexact hafter ⊢
  obtain ⟨after, choice⟩ := sent
  cases view with
  | none => exact ⟨hchosen, hexact⟩
  | some view =>
    have hspread : Moves capture now (· = 1) after
        (spread view capture now { after with fill := min budget.fill choice.left }) :=
      (Relation.ReflTransGen.single (.note after.encoder.clean after.encoder.cursor
        after.encoder.deferred (min budget.fill choice.left) after.scanned hafter)).trans (moves_spread view hafter)
    refine ⟨hchosen.trans (hspread.mono fun level hone => .inl hone), ?_⟩
    exact fun hall id hin => (hexact hall id hin).moves hspread

end Lens

end Zflow.Lens
