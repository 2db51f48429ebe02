import Zflow.Daemon.Initial
import Zflow.Laws.App.LayoutModel
import Zflow.Laws.App.Moves
import Zflow.Laws.Desktop.Fixpoint

/-!
# When an arranged layout replaces one that was only started

A layout that a computer started by itself has the version of the changes that fitting it made, counted from the
start. A layout that a person arranged on another computer has at least version 1, and is kept where that order
says so.
-/

namespace Zflow.Daemon.Layouts

open Lib Desktop App

variable {scale : Scale} {own editor : Key} {keys : Keys} {layout next : SharedLayout} {geometry : Geometry} {n : Nat}

/-! ## Versions -/

/-- Fitting a layout makes its next version. -/
theorem withGeometry_version (h : layout.withGeometry scale editor geometry = some next) :
    next.version = layout.version + 1 ∧ next.editor = editor := by
  have hgeometry := SharedLayout.validate_of_withGeometry h
  by_cases hdisplays : geometry.displays = []
  · rw [SharedLayout.withGeometry_of_nil hgeometry hdisplays] at h
    obtain ⟨bounds, -, h⟩ := Option.bind_eq_some_iff.mp h
    rcases SharedLayout.withDisplaySize_eq_some h with ⟨-, _, -, hnext⟩ | ⟨_, _, _, _, -, -, -, hnext⟩
    · obtain ⟨rfl, -⟩ := SharedLayout.nextVersion_eq_some.mp hnext
      exact ⟨rfl, rfl⟩
    · obtain ⟨rfl, -⟩ := SharedLayout.nextVersion_eq_some.mp hnext
      exact ⟨rfl, rfl⟩
  · obtain ⟨_, _, -, -, rfl, -⟩ := (SharedLayout.withGeometry_eq_some_iff hgeometry hdisplays).mp h
    exact ⟨rfl, rfl⟩

theorem initialLayout_version {width height : Nat} (h : initialLayout own width height keys = .ok layout) :
    layout.version = 0 ∧ layout.editor = own := by
  obtain ⟨-, h⟩ := check_bind_eq_ok.mp h
  cases h
  exact ⟨rfl, rfl⟩

theorem withTileMoved_valid {id : String} {x y : Int} {tolerance : Nat} {computer : Bool}
    (h : withTileMoved layout editor keys id x y tolerance computer = .ok next) : next.validate = .ok () := by
  obtain ⟨view, -, h⟩ := Act.except_bind_eq_ok.mp h
  obtain ⟨hvalid, h⟩ := check_bind_eq_ok.mp h
  cases h
  exact hvalid

/-- A move makes the next version, too: one that is checked is not past the last one. -/
theorem withTileMoved_version {id : String} {x y : Int} {tolerance : Nat} {computer : Bool}
    (h : withTileMoved layout editor keys id x y tolerance computer = .ok next) :
    next.version = layout.version + 1 ∧ next.editor = editor := by
  have hvalid : next.validate = .ok () := withTileMoved_valid h
  obtain ⟨view, -, rfl⟩ := withTileMoved_eq_ok h
  have hversion : saturatingAdd layout.version 1 ≤ maxToken :=
    (SharedLayout.validate_isOk_iff.mp (isOk_iff.mpr hvalid)).version
  refine ⟨?_, rfl⟩
  show saturatingAdd layout.version 1 = layout.version + 1
  unfold saturatingAdd u64Max maxToken at *
  omega

theorem withKeyReplaced_version {old new : Key} (h : layout.withKeyReplaced editor old new = some next) :
    next.version = layout.version + 1 ∧ next.editor = editor := by
  unfold SharedLayout.withKeyReplaced at h
  split at h
  · cases h
  split at h
  · cases h
  obtain ⟨rfl, -⟩ := SharedLayout.nextVersion_eq_some.mp h
  exact ⟨rfl, rfl⟩

/-- What a computer starts from is its own, and fitting it at once is a change. -/
theorem layoutOrInitial_version {position : Point}
    (h : layoutOrInitial scale own keys none (.snapshot geometry position) = .ok layout) :
    layout.editor = own ∧ layout.version ≤ 1 := by
  obtain ⟨bounds, -, h⟩ := Act.except_bind_eq_ok.mp h
  obtain ⟨initial, hinitial, h⟩ := Act.except_bind_eq_ok.mp h
  cases h
  obtain ⟨hversion, heditor⟩ := initialLayout_version hinitial
  cases hfitted : initial.withGeometry scale own geometry with
  | none => exact ⟨heditor, by rw [Option.getD_none, hversion]; exact Nat.zero_le 1⟩
  | some fitted =>
    obtain ⟨hnext, hown⟩ := withGeometry_version hfitted
    exact ⟨hown, by rw [Option.getD_some, hnext, hversion]⟩

/-! ## Histories -/

/-- **A layout that a computer started by itself** and only fitted to its own monitors, with how many changes
that made. -/
inductive Automatic (scale : Scale) (own : Key) (keys : Keys) : Nat → SharedLayout → Prop where
  /-- The layout it starts from, where fitting it at once changes nothing. -/
  | started (geometry : Geometry) (position : Point) (layout : SharedLayout)
      (h : layoutOrInitial scale own keys none (.snapshot geometry position) = .ok layout)
      (hversion : layout.version = 0) : Automatic scale own keys 0 layout
  /-- The layout it starts from, where that fits it. -/
  | fitted (geometry : Geometry) (position : Point) (layout : SharedLayout)
      (h : layoutOrInitial scale own keys none (.snapshot geometry position) = .ok layout)
      (hversion : layout.version ≠ 0) : Automatic scale own keys 1 layout
  /-- Its monitors changed. -/
  | refitted (n : Nat) (layout next : SharedLayout) (geometry : Geometry) (h : Automatic scale own keys n layout)
      (hnext : layout.withGeometry scale own geometry = some next) : Automatic scale own keys (n + 1) next

/-- A move of a tile by a person, on Linux, or of some on a Mac. -/
inductive Moves (editor : Key) (layout : SharedLayout) : SharedLayout → Prop where
  | dragged (keys : Keys) (id : String) (x y : Int) (tolerance : Nat) (computer : Bool) (next : SharedLayout)
      (h : withTileMoved layout editor keys id x y tolerance computer = .ok next) : Moves editor layout next
  | rearranged (name : String) (keys : Keys) (moves : List Move) (view : Layout) (hmoves : moves ≠ [])
      (hview : (Layout.fromShared layout editor name keys).movedBy moves = .ok view)
      (hvalid : (rearranged layout view (layout.version + 1) editor keys).validate = .ok ()) :
      Moves editor layout (rearranged layout view (layout.version + 1) editor keys)

/-- An edit of a layout: a person moves tiles, or the computer's monitors change, it places the peers it paired, or
a peer was installed again. -/
inductive Edits (scale : Scale) (editor : Key) (layout : SharedLayout) : SharedLayout → Prop where
  | moved (next : SharedLayout) (h : Moves editor layout next) : Edits scale editor layout next
  | refitted (geometry : Geometry) (next : SharedLayout)
      (h : layout.withGeometry scale editor geometry = some next) : Edits scale editor layout next
  | placed (keys : List Key) (next : SharedLayout)
      (h : layout.withTilesFor editor keys peerTileSize.1 peerTileSize.2 = some next) : Edits scale editor layout next
  | replaced (old new : Key) (next : SharedLayout) (h : layout.withKeyReplaced editor old new = some next) :
      Edits scale editor layout next

/-- **A layout in which a person moved a tile**, on another computer than `own`, and that other computers than
`own` may have edited since, with the number of edits from `start` and the computer that edited it last. -/
inductive Arranged (scale : Scale) (own : Key) (start : SharedLayout) : Nat → Key → SharedLayout → Prop where
  | moved (editor : Key) (layout : SharedLayout) (hother : editor ≠ own) (h : Moves editor start layout) :
      Arranged scale own start 1 editor layout
  | edited (m : Nat) (before editor : Key) (layout next : SharedLayout) (hother : editor ≠ own)
      (h : Arranged scale own start m before layout) (hnext : Edits scale editor layout next) :
      Arranged scale own start (m + 1) editor next

theorem Moves.version (h : Moves editor layout next) : next.version = layout.version + 1 ∧ next.editor = editor := by
  cases h with
  | dragged keys id x y tolerance computer next h => exact withTileMoved_version h
  | rearranged name keys moves view hmoves hview hvalid => exact ⟨rfl, rfl⟩

/-- Each edit counts alike, whether a person made it or not. -/
theorem Edits.version (h : Edits scale editor layout next) :
    next.version = layout.version + 1 ∧ next.editor = editor := by
  cases h with
  | moved next h => exact h.version
  | refitted geometry next h => exact withGeometry_version h
  | placed keys next h =>
    obtain ⟨hversion, heditor, -⟩ := SharedLayout.withTilesFor_eq_some h
    exact ⟨hversion, heditor⟩
  | replaced old new next h => exact withKeyReplaced_version h

theorem Automatic.version (h : Automatic scale own keys n layout) : layout.version = n ∧ layout.editor = own := by
  induction h with
  | started geometry position layout h hversion => exact ⟨hversion, (layoutOrInitial_version h).1⟩
  | fitted geometry position layout h hversion =>
    obtain ⟨heditor, hone⟩ := layoutOrInitial_version h
    exact ⟨by omega, heditor⟩
  | refitted n layout next geometry h hnext ih =>
    obtain ⟨hversion, heditor⟩ := withGeometry_version hnext
    exact ⟨by rw [hversion, ih.1], heditor⟩

theorem Arranged.version {start : SharedLayout} {m : Nat} (h : Arranged scale own start m editor layout) :
    layout.version = start.version + m ∧ layout.editor = editor ∧ editor ≠ own := by
  induction h with
  | moved editor layout hother h =>
    obtain ⟨hversion, heditor⟩ := h.version
    exact ⟨hversion, heditor, hother⟩
  | edited m before editor layout next hother h hnext ih =>
    obtain ⟨hversion, heditor⟩ := hnext.version
    exact ⟨by rw [hversion, ih.1, Nat.add_assoc], heditor, hother⟩

/-! ## The law -/

/-- **Where the two meet, the arranged layout is kept by both.** -/
structure KeepsArranged (automatic arranged : SharedLayout) : Prop where
  older : automatic.isNewerThan arranged = false
  taken : keptAfter arranged automatic = arranged
  kept : keptAfter automatic arranged = arranged

theorem keepsArranged_iff {automatic arranged : SharedLayout} (hdistinct : automatic ≠ arranged) :
    KeepsArranged automatic arranged ↔ automatic.rank < arranged.rank := by
  constructor
  · intro h
    have htaken := h.taken
    unfold keptAfter replaces at htaken
    rw [Option.all_some] at htaken
    split at htaken
    · rename_i hnewer
      exact SharedLayout.isNewerThan_iff.mp hnewer
    · exact absurd htaken hdistinct
  · intro hrank
    have hnewer : arranged.isNewerThan automatic = true := SharedLayout.isNewerThan_iff.mpr hrank
    have holder : automatic.isNewerThan arranged = false := by
      refine Bool.eq_false_iff.mpr fun h => ?_
      exact lt_asymm hrank (SharedLayout.isNewerThan_iff.mp h)
    refine ⟨holder, ?_, ?_⟩
    · unfold keptAfter replaces
      rw [Option.all_some, if_pos hnewer]
    · unfold keptAfter replaces
      rw [Option.all_some, if_neg (Bool.eq_false_iff.mp holder)]

/-- **An arranged layout is kept exactly where it counts more edits** than the changes that fitting made to the one
that was started, or as many and the other computer's key is the greater one. -/
theorem keeps_arranged_iff {start automatic arranged : SharedLayout} {m : Nat}
    (hautomatic : Automatic scale own keys n automatic) (harranged : Arranged scale own start m editor arranged) :
    KeepsArranged automatic arranged ↔ n < start.version + m ∨ (n = start.version + m ∧ own < editor) := by
  obtain ⟨hversion, heditor⟩ := hautomatic.version
  obtain ⟨hedits, hby, hother⟩ := harranged.version
  have hdistinct : automatic ≠ arranged := by
    rintro rfl
    exact hother (hby.symm.trans heditor)
  rw [keepsArranged_iff hdistinct]
  unfold SharedLayout.rank
  rw [Prod.Lex.lt_iff]
  simp only [ofLex_toLex, hversion, heditor, hedits, hby]

/-! Two computers that paired each other and were not arranged: 9 has one display, and 8 does not tell its displays
apart. -/

def panelOfNine : Display := ⟨"a", "A", ⟨0, 0, 1000, 800⟩, 0, 0, true⟩

def keysOfNine : Keys := .ofList [("b", 8)]

def keysOfEight : Keys := .ofList [("a", 9)]

/-- What 9 starts from. -/
def startedByNine : SharedLayout :=
  ⟨1, 9, [⟨8, none, 1000, 0, 1920, 1080⟩, ⟨9, some panelOfNine, 0, 0, 1000, 800⟩]⟩

/-- A layout of 8, with the tile of 9 at `y`. -/
def ofEight (version : Nat) (y : Int) : SharedLayout :=
  ⟨version, 8, [⟨8, none, 0, 0, 1000, 800⟩, ⟨9, none, 1000, y, 1920, 1080⟩]⟩

theorem automatic_startedByNine : Automatic exactScale 9 keysOfNine 1 startedByNine :=
  .fitted ⟨[panelOfNine.bounds], [panelOfNine]⟩ ⟨0, 0⟩ startedByNine (by decide +kernel) (by decide)

theorem arranged_ofEight : Arranged exactScale 9 (ofEight 0 0) 1 8 (ofEight 1 100) := by
  have hvalid : (Layout.fromShared (ofEight 0 0) 8 "This computer" keysOfEight).Valid :=
    Layout.validate_eq_ok.mp (isOk_iff.mp (by decide +kernel))
  have htile : (⟨"peer:a", "a", some "a", none, 1000, 0, 1920, 1080⟩ : Monitor) ∈
      (Layout.fromShared (ofEight 0 0) 8 "This computer" keysOfEight).monitors := by decide +kernel
  have hmoved : (Layout.fromShared (ofEight 0 0) 8 "This computer" keysOfEight).moved "peer:a" 1000 100 0 false =
      .ok _ :=
    Layout.moved_exact hvalid htile false 1000 100 (by decide +kernel) (by decide +kernel)
  refine .moved 8 _ (by decide) (.dragged keysOfEight "peer:a" 1000 100 0 false _ ?_)
  unfold withTileMoved
  rw [hmoved]
  decide +kernel

theorem keeps_arranged_iff_ofEight : KeepsArranged startedByNine (ofEight 1 100) ↔
      1 < (ofEight 0 0).version + 1 ∨ (1 = (ofEight 0 0).version + 1 ∧ 9 < 8) :=
  keeps_arranged_iff automatic_startedByNine arranged_ofEight

/-- Fitting what 9 started from is a change as any, so 9 does not take what a person made of it on 8. -/
theorem not_keeps_arranged :
    ¬ ∀ (own : Key) (keys : Keys) (n : Nat) (start automatic arranged : SharedLayout) (m : Nat) (editor : Key),
      Automatic exactScale own keys n automatic → Arranged exactScale own start m editor arranged →
        KeepsArranged automatic arranged := by
  intro h
  have hkeeps := h 9 keysOfNine 1 (ofEight 0 0) startedByNine (ofEight 1 100) 1 8 automatic_startedByNine
    arranged_ofEight
  have holder := hkeeps.older
  revert holder
  decide +kernel

end Zflow.Daemon.Layouts
