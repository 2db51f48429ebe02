import Zflow.Desktop.Monitors
import Zflow.Laws.App.LayoutModel
import Zflow.Laws.App.View
import Zflow.Laws.Desktop.Geometry
import Zflow.Pairing.Hello

/-!
# Which accepted layouts can be shown

A layout from another computer passes `SharedLayout.validate`, the view of it `Layout.validate`. What the first
leaves open is whether tiles overlap, and what the names of the paired computers are like.
-/

namespace Zflow.App

open Lib Desktop
open Pairing (ownTileLabels)

/-! ## Texts -/

/-- Not only blanks. -/
def Written (s : String) : Prop := ∃ c ∈ s.toList, isWhitespace c = false

/-- No control characters. -/
def Clean (s : String) : Prop := ∀ c ∈ s.toList, isControl c = false

section Texts

variable {s t : String}

theorem validText_iff : validText s = true ↔ Written s ∧ s.utf8ByteSize ≤ 256 ∧ Clean s := by
  unfold validText Written Clean
  simp only [Bool.and_eq_true, decide_eq_true_eq, Bool.not_eq_true', List.any_eq_true, List.any_eq_false,
    Bool.not_eq_true, and_assoc]

theorem validId_iff : validId s = true ↔ Written s ∧ s.utf8ByteSize ≤ 128 ∧ Clean s := by
  unfold validId Written Clean
  simp only [Bool.and_eq_true, decide_eq_true_eq, Bool.not_eq_true', List.any_eq_true, List.any_eq_false,
    Bool.not_eq_true, and_assoc]

theorem clean_append : Clean (s ++ t) ↔ Clean s ∧ Clean t := by
  unfold Clean
  simp only [String.toList_append, List.mem_append, or_imp, forall_and]

theorem written_append : Written (s ++ t) ↔ Written s ∨ Written t := by
  unfold Written
  simp only [String.toList_append, List.mem_append, or_and_right, exists_or]

end Texts

/-! ## One tile -/

/-- What a display adds to the id of its computer. -/
def suffix (display : Option Display) : String :=
  match display with
  | none => ""
  | some display => "/" ++ display.id

/-- A tile under its computer's id and label here. -/
def shownAs (id label : String) (peer : Option String) (tile : Tile) : Monitor where
  id := id ++ suffix tile.display
  label := match tile.display with
    | none => label
    | some display => display.name ++ " · " ++ label
  peer
  display := tile.display
  x := tile.x
  y := tile.y
  width := tile.width
  height := tile.height

variable {own : Key} {ownLabel : String} {keys : Keys} {tile : Tile} {name : String}

theorem monitorOf_eq : Layout.monitorOf own ownLabel keys tile =
    if tile.key = own then some (shownAs "local" ownLabel none tile)
    else (Layout.nameOf keys tile.key).map fun name => shownAs ("peer:" ++ name) name (some name) tile := by
  unfold Layout.monitorOf shownAs suffix
  by_cases hown : tile.key = own
  · rw [if_pos hown, if_pos hown]
    cases tile.display <;> simp [String.append_assoc]
  · rw [if_neg hown, if_neg hown]
    cases Layout.nameOf keys tile.key <;> cases tile.display <;> simp [String.append_assoc]

/-- A computer's name that goes with a display: neither the id nor the label of the tile gets too long. -/
structure Fitting (name : String) (display : Option Display) : Prop where
  written : Written name
  clean : Clean name
  id : 5 + name.utf8ByteSize + (suffix display).utf8ByteSize ≤ 256
  label : ∀ d ∈ display, d.name.utf8ByteSize + 4 + name.utf8ByteSize ≤ 256

theorem shownAs_geometry (htile : tile.Valid) (id label : String) (peer : Option String) :
    (shownAs id label peer tile).validGeometry = true := by
  have hcanvas := htile.onCanvas
  have hfits := htile.fits
  unfold Tile.OnCanvas Fits at *
  unfold Monitor.validGeometry Monitor.inRange shownAs
  simp only [Bool.and_eq_true, decide_eq_true_eq]
  omega

theorem clean_dot : Clean " · " := by
  have hdot : validText " · " = true := by decide +kernel
  exact (validText_iff.mp hdot).2.2

theorem size_dot : " · ".utf8ByteSize = 4 := by decide

theorem suffix_of_valid (htile : tile.Valid) :
    Clean (suffix tile.display) ∧ (suffix tile.display).utf8ByteSize ≤ 129 := by
  unfold suffix
  cases hdisplay : tile.display with
  | none => exact ⟨fun c hc => (by simp at hc), by decide⟩
  | some display =>
    obtain ⟨-, hsize, hclean⟩ := validId_iff.mp (names_of_display (htile.display display hdisplay)).1
    refine ⟨clean_append.mpr ⟨fun c hc => ?_, hclean⟩, ?_⟩
    · obtain rfl : c = '/' := by simpa using hc
      decide
    · rw [String.utf8ByteSize_append]
      have hslash : "/".utf8ByteSize = 1 := by decide
      omega

/-- A tile of this computer is always shown under an id and a label that are accepted. -/
theorem shownAs_local (htile : tile.Valid) (hlabel : ownLabel ∈ ownTileLabels) :
    (shownAs "local" ownLabel none tile).Valid := by
  obtain ⟨hclean, hsize⟩ := suffix_of_valid htile
  have hlocal : validText "local" = true := by decide +kernel
  obtain ⟨hlocalWritten, -, hlocalClean⟩ := validText_iff.mp hlocal
  have hown : validText ownLabel = true ∧ ownLabel.utf8ByteSize ≤ 13 := by
    simp only [ownTileLabels, List.mem_cons, List.not_mem_nil, or_false] at hlabel
    rcases hlabel with rfl | rfl <;> decide +kernel
  obtain ⟨hownWritten, -, hownClean⟩ := validText_iff.mp hown.1
  refine ⟨?_, htile.display, shownAs_geometry htile _ _ _⟩
  intro value hvalue
  simp only [shownAs, Option.toList_none, List.mem_cons, List.not_mem_nil, or_false] at hvalue
  rcases hvalue with rfl | rfl
  · refine validText_iff.mpr ⟨written_append.mpr (.inl hlocalWritten), ?_, clean_append.mpr ⟨hlocalClean, hclean⟩⟩
    rw [String.utf8ByteSize_append]
    have hfive : "local".utf8ByteSize = 5 := by decide
    omega
  · cases hdisplay : tile.display with
    | none => exact hown.1
    | some display =>
      obtain ⟨hnameWritten, hnameSize, hnameClean⟩ :=
        validId_iff.mp (names_of_display (htile.display display hdisplay)).2
      refine validText_iff.mpr ⟨written_append.mpr (.inr hownWritten), ?_,
        clean_append.mpr ⟨clean_append.mpr ⟨hnameClean, clean_dot⟩, hownClean⟩⟩
      rw [String.utf8ByteSize_append, String.utf8ByteSize_append, size_dot]
      omega

theorem shownAs_peer_iff (htile : tile.Valid) :
    (shownAs ("peer:" ++ name) name (some name) tile).Valid ↔ Fitting name tile.display := by
  obtain ⟨hsuffix, -⟩ := suffix_of_valid htile
  have hprefix : validText "peer:" = true := by decide +kernel
  have hfive : "peer:".utf8ByteSize = 5 := by decide
  obtain ⟨hprefixWritten, -, hprefixClean⟩ := validText_iff.mp hprefix
  have htexts : (∀ value ∈ (shownAs ("peer:" ++ name) name (some name) tile).id ::
      (shownAs ("peer:" ++ name) name (some name) tile).label :: (some name).toList, validText value = true) ↔
      validText ("peer:" ++ name ++ suffix tile.display) = true ∧
        validText (shownAs ("peer:" ++ name) name (some name) tile).label = true ∧ validText name = true := by
    simp [shownAs]
  have hid : validText ("peer:" ++ name ++ suffix tile.display) = true ↔
      5 + name.utf8ByteSize + (suffix tile.display).utf8ByteSize ≤ 256 ∧ Clean name := by
    rw [validText_iff, written_append, written_append, clean_append, clean_append, String.utf8ByteSize_append,
      String.utf8ByteSize_append, hfive]
    exact ⟨fun ⟨_, hsize, hclean⟩ => ⟨hsize, hclean.1.2⟩,
      fun ⟨hsize, hclean⟩ => ⟨.inl (.inl hprefixWritten), hsize, ⟨hprefixClean, hclean⟩, hsuffix⟩⟩
  have hlabel : validText name = true → (validText (shownAs ("peer:" ++ name) name (some name) tile).label = true ↔
      ∀ d ∈ tile.display, d.name.utf8ByteSize + 4 + name.utf8ByteSize ≤ 256) := by
    intro hname
    obtain ⟨hwritten, -, hclean⟩ := validText_iff.mp hname
    unfold shownAs
    cases hdisplay : tile.display with
    | none => simp [hname]
    | some display =>
      obtain ⟨-, -, hdisplayClean⟩ := validId_iff.mp (names_of_display (htile.display display hdisplay)).2
      simp only [Option.mem_def, Option.some.injEq, forall_eq']
      rw [validText_iff, String.utf8ByteSize_append, String.utf8ByteSize_append, size_dot]
      exact ⟨fun h => h.2.1, fun hsize => ⟨written_append.mpr (.inr hwritten), hsize,
        clean_append.mpr ⟨clean_append.mpr ⟨hdisplayClean, clean_dot⟩, hclean⟩⟩⟩
  constructor
  · intro h
    obtain ⟨hidText, hlabelText, hname⟩ := htexts.mp h.texts
    obtain ⟨hwritten, -, hclean⟩ := validText_iff.mp hname
    exact ⟨hwritten, hclean, (hid.mp hidText).1, (hlabel hname).mp hlabelText⟩
  · intro h
    have hsize := h.id
    have hname : validText name = true := validText_iff.mpr ⟨h.written, by omega, h.clean⟩
    exact ⟨htexts.mpr ⟨hid.mpr ⟨hsize, h.clean⟩, (hlabel hname).mpr h.label, hname⟩, htile.display,
      shownAs_geometry htile _ _ _⟩

/-! ## Ids -/

theorem suffix_inj {a b : Option Display} (h : suffix a = suffix b) : a.map Display.id = b.map Display.id := by
  have hslash : ∀ id : String, "" ≠ "/" ++ id := fun id heq => by
    have hchars := congrArg String.toList heq
    rw [String.toList_append] at hchars
    cases hchars
  cases a with
  | none =>
    cases b with
    | none => rfl
    | some d => exact absurd h (hslash _)
  | some d =>
    cases b with
    | none => exact absurd h.symm (hslash _)
    | some d' => exact congrArg some ((String.append_right_inj "/").mp h)

theorem local_ne_peer (s name t : String) : "local" ++ s ≠ "peer:" ++ name ++ t := by
  intro heq
  have hchars := congrArg String.toList heq
  rw [String.toList_append, String.toList_append, String.toList_append] at hchars
  simp at hchars

/-- Two tiles of two computers get one id where the name of one goes on as an id of the other. -/
def Collide (keys : Keys) (a b : Tile) : Prop :=
  ∃ name other, Layout.nameOf keys a.key = some name ∧ Layout.nameOf keys b.key = some other ∧
    name ++ suffix a.display = other ++ suffix b.display

theorem monitorOf_cases {m : Monitor} (h : Layout.monitorOf own ownLabel keys tile = some m) :
    (tile.key = own ∧ m = shownAs "local" ownLabel none tile) ∨
      (tile.key ≠ own ∧ ∃ name, Layout.nameOf keys tile.key = some name ∧
        m = shownAs ("peer:" ++ name) name (some name) tile) := by
  rw [monitorOf_eq] at h
  split at h
  · rename_i hown
    cases h
    exact .inl ⟨hown, rfl⟩
  · rename_i hown
    obtain ⟨name, hname, rfl⟩ := Option.map_eq_some_iff.mp h
    exact .inr ⟨hown, name, hname, rfl⟩

/-- **Two tiles have one id** only where they are one, or collide. -/
theorem ids_ne {a b : Tile} {m m' : Monitor} (hname : a.name ≠ b.name)
    (hapart : a.key ≠ own → b.key ≠ own → a.key ≠ b.key → ¬ Collide keys a b)
    (ha : Layout.monitorOf own ownLabel keys a = some m) (hb : Layout.monitorOf own ownLabel keys b = some m') :
    m.id ≠ m'.id := by
  have hdisplays : a.key = b.key → suffix a.display ≠ suffix b.display := fun hkey hsuffix =>
    hname (Prod.ext hkey (suffix_inj hsuffix))
  rcases monitorOf_cases ha with ⟨hown, rfl⟩ | ⟨hown, name, hfound, rfl⟩
  · rcases monitorOf_cases hb with ⟨hown', rfl⟩ | ⟨-, other, -, rfl⟩
    · exact fun heq => hdisplays (hown.trans hown'.symm) ((String.append_right_inj "local").mp heq)
    · exact local_ne_peer _ _ _
  · rcases monitorOf_cases hb with ⟨-, rfl⟩ | ⟨hown', other, hfound', rfl⟩
    · exact (local_ne_peer _ _ _).symm
    · intro heq
      have heq : name ++ suffix a.display = other ++ suffix b.display := by
        refine (String.append_right_inj "peer:").mp ?_
        rw [← String.append_assoc, ← String.append_assoc]
        exact heq
      by_cases hkey : a.key = b.key
      · obtain rfl : name = other := Option.some.inj (hfound.symm.trans (hkey ▸ hfound'))
        exact hdisplays hkey ((String.append_right_inj name).mp heq)
      · exact hapart hown hown' hkey ⟨name, other, hfound, hfound', heq⟩

/-- A tile that is shown keeps its place, its size and whether it takes part. -/
theorem active_of_shown {m : Monitor} (h : Layout.monitorOf own ownLabel keys tile = some m) :
    m.active = !tile.dormant := by
  have hactive : ∀ id label peer, (shownAs id label peer tile).active = !tile.dormant := by
    intro id label peer
    unfold shownAs Monitor.active Tile.dormant
    cases tile.display <;> simp
  rcases monitorOf_cases h with ⟨-, rfl⟩ | ⟨-, name, -, rfl⟩
  · exact hactive _ _ _
  · exact hactive _ _ _

theorem overlaps_of_shown {a b : Tile} {m m' : Monitor} (ha : Layout.monitorOf own ownLabel keys a = some m)
    (hb : Layout.monitorOf own ownLabel keys b = some m') : m.overlaps m' = overlaps a b := by
  rcases monitorOf_cases ha with ⟨-, rfl⟩ | ⟨-, name, -, rfl⟩ <;>
    rcases monitorOf_cases hb with ⟨-, rfl⟩ | ⟨-, other, -, rfl⟩ <;> rfl

theorem knows_of_shown {m : Monitor} (h : Layout.monitorOf own ownLabel keys tile = some m) :
    knows own keys tile.key = true := by
  by_contra hknown
  rw [monitorOf_none (Bool.not_eq_true _ ▸ hknown)] at h
  cases h

/-! ## The view -/

/-- **What an accepted layout needs to be shown**: names that fit, ids of their own, and no overlap. -/
structure Usable (own : Key) (keys : Keys) (shared : SharedLayout) : Prop where
  names : ∀ tile ∈ shared.tiles, tile.key ≠ own → ∀ name, Layout.nameOf keys tile.key = some name →
    Fitting name tile.display
  ids : shared.tiles.Pairwise fun a b => a.key ≠ own → b.key ≠ own → a.key ≠ b.key → ¬ Collide keys a b
  apart : shared.tiles.Pairwise fun a b => knows own keys a.key = true → knows own keys b.key = true →
    a.dormant = false → b.dormant = false → overlaps a b = false

/-- **A view is accepted exactly where its layout can be shown.** -/
theorem fromShared_accepted_iff (shared : SharedLayout) (own : Key) (ownLabel : String) (keys : Keys)
    (hvalid : shared.validate = .ok ()) (hlabel : ownLabel ∈ ownTileLabels) :
    (Layout.fromShared shared own ownLabel keys).validate = .ok () ↔ Usable own keys shared := by
  have hgood := SharedLayout.validate_isOk_iff.mp (isOk_iff.mpr hvalid)
  have hmem : ∀ m, m ∈ (Layout.fromShared shared own ownLabel keys).monitors ↔
      ∃ tile ∈ shared.tiles, Layout.monitorOf own ownLabel keys tile = some m := fun m => List.mem_filterMap
  rw [Layout.validate_eq_ok]
  constructor
  · intro h
    refine ⟨fun tile htile hown name hname => ?_, ?_, ?_⟩
    · refine (shownAs_peer_iff (hgood.tiles tile htile)).mp (h.monitors _ ((hmem _).mpr ⟨tile, htile, ?_⟩))
      rw [monitorOf_eq, if_neg hown, hname, Option.map_some]
    · refine (List.pairwise_filterMap.mp (List.pairwise_map.mp h.ids)).imp ?_
      rintro a b hne hown hown' - ⟨name, other, hname, hother, heq⟩
      refine hne _ (by rw [monitorOf_eq, if_neg hown, hname, Option.map_some]) _
        (by rw [monitorOf_eq, if_neg hown', hother, Option.map_some]) ?_
      show "peer:" ++ name ++ suffix a.display = "peer:" ++ other ++ suffix b.display
      rw [String.append_assoc, String.append_assoc, heq]
    · refine (List.pairwise_filterMap.mp h.beside).imp fun {a b} hbeside hknown hknown' hdormant hdormant' => ?_
      obtain ⟨m, hm, -⟩ := monitorOf_some ownLabel hknown
      obtain ⟨m', hm', -⟩ := monitorOf_some ownLabel hknown'
      rw [← overlaps_of_shown hm hm']
      exact hbeside m hm m' hm' (by rw [active_of_shown hm, hdormant]; rfl)
        (by rw [active_of_shown hm', hdormant']; rfl)
  · intro h
    refine ⟨(List.length_filterMap_le _ _).trans hgood.length, ?_, fun m hm => ?_, ?_⟩
    · refine List.pairwise_map.mpr (List.pairwise_filterMap.mpr ?_)
      refine (h.ids.and (List.pairwise_map.mp hgood.names)).imp ?_
      rintro a b ⟨hids, hname⟩ m hm m' hm'
      exact ids_ne hname hids hm hm'
    · obtain ⟨tile, htile, hshown⟩ := (hmem m).mp hm
      have htileValid := hgood.tiles tile htile
      rcases monitorOf_cases hshown with ⟨-, rfl⟩ | ⟨hown, name, hname, rfl⟩
      · exact shownAs_local htileValid hlabel
      · exact (shownAs_peer_iff htileValid).mpr (h.names tile htile hown name hname)
    · refine List.pairwise_filterMap.mpr (h.apart.imp ?_)
      intro a b hapart m hm m' hm' hactive hactive'
      rw [active_of_shown hm, Bool.not_eq_true'] at hactive
      rw [active_of_shown hm', Bool.not_eq_true'] at hactive'
      rw [overlaps_of_shown hm hm']
      exact hapart (knows_of_shown hm) (knows_of_shown hm') hactive hactive'

/-- Two tiles, the second of them at `x`. -/
def pair (x : Int) : SharedLayout := ⟨1, 7, [⟨7, none, 0, 0, 100, 100⟩, ⟨8, none, x, 0, 100, 100⟩]⟩

def oneName : Keys := .ofList [("b", 8)]

theorem fromShared_accepted_iff_pair :
    (Layout.fromShared (pair 100) 7 "This computer" oneName).validate = .ok () ↔ Usable 7 oneName (pair 100) :=
  fromShared_accepted_iff (pair 100) 7 "This computer" oneName (isOk_iff.mp (by decide +kernel)) (by decide)

def panels : SharedLayout :=
  ⟨1, 7, [⟨8, some ⟨"x", "X", ⟨0, 0, 100, 100⟩, 0, 0, true⟩, 0, 0, 100, 100⟩, ⟨9, none, 100, 0, 100, 100⟩]⟩

/-- A tile over another, a name of blanks, and a name that goes on as the id of another's display. -/
theorem not_accepted_usable : ((pair 50).validate.isOk = true ∧
        (Layout.fromShared (pair 50) 7 "This computer" oneName).validate.isOk = false) ∧
      ((pair 100).validate.isOk = true ∧
        (Layout.fromShared (pair 100) 7 "This computer" (.ofList [(" ", 8)])).validate.isOk = false) ∧
      panels.validate.isOk = true ∧
        (Layout.fromShared panels 7 "This computer" (.ofList [("b", 8), ("b/x", 9)])).validate.isOk = false := by
  refine ⟨⟨?_, ?_⟩, ⟨?_, ?_⟩, ?_, ?_⟩ <;> decide +kernel

end Zflow.App
