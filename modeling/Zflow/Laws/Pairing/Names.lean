import Zflow.Laws.Pairing.Words
import Zflow.Pairing.Discovery

/-!
# One name for one computer

A name is plain: it has the characters that survive, single blanks between its words, and it is nobody's own tile. It is
the same at every computer unless it ends in `.local` again, after one such end was taken off: then each computer that is
told the name takes off the next one (`one_name_iff`).
-/

namespace Zflow.Pairing

open Desktop (isWhitespace)

/-- The characters that a name keeps. -/
def isKept (c : Char) : Bool := c.isAlphanum || c ∈ [' ', '.', '-', '_', '\'']

/-- The label, trimmed and without one `.local`. -/
def stem (label : Option String) : List Char := stripLocal (trim (label.getD "").toList)

/-- The name before it is looked at: cut, with no blank at its end. -/
def cut (text : List Char) : List Char := ((joinWords text).take maxNameBytes).rdropWhile isWhitespace

theorem peerName_eq (label : Option String) : peerName label =
    if cut ((stem label).filter isKept) = [] ∨ readsAsOwnTile (cut ((stem label).filter isKept)) then "Computer"
    else String.ofList (cut ((stem label).filter isKept)) := rfl

variable {text front rest name tail : List Char} {c : Char}

/-! ## The characters -/

theorem toNat_of_isAlphanum (h : c.isAlphanum = true) : 48 ≤ c.toNat ∧ c.toNat ≤ 122 := by
  simp only [Char.isAlphanum, Char.isAlpha, Char.isUpper, Char.isLower, Char.isDigit, Bool.or_eq_true, Bool.and_eq_true,
    decide_eq_true_eq, UInt32.le_iff_toNat_le] at h
  have hval : c.toNat = c.val.toNat := rfl
  rw [hval]
  rcases h with (⟨hlow, hhigh⟩ | ⟨hlow, hhigh⟩) | ⟨hlow, hhigh⟩ <;>
    exact ⟨Nat.le_trans (by decide) hlow, Nat.le_trans hhigh (by decide)⟩

theorem toNat_of_isKept (h : isKept c = true) : c = ' ' ∨ 33 ≤ c.toNat ∧ c.toNat ≤ 122 := by
  unfold isKept at h
  rcases Bool.or_eq_true_iff.mp h with h | h
  · obtain ⟨hlow, hhigh⟩ := toNat_of_isAlphanum h
    exact .inr ⟨Nat.le_trans (by decide) hlow, hhigh⟩
  · have hmem : c ∈ [' ', '.', '-', '_', '\''] := by simpa using h
    simp only [List.mem_cons, List.not_mem_nil, or_false] at hmem
    rcases hmem with rfl | rfl | rfl | rfl | rfl <;> decide

theorem isWhitespace_iff (h : isKept c = true) : isWhitespace c = true ↔ c = ' ' := by
  refine ⟨fun hblank => ?_, fun hc => hc ▸ by decide⟩
  rcases toNat_of_isKept h with hc | ⟨hlow, hhigh⟩
  · exact hc
  · simp [isWhitespace] at hblank
    omega

theorem utf8Size_of_isKept (h : isKept c = true) : c.utf8Size = 1 := by
  rcases toNat_of_isKept h with rfl | ⟨-, hhigh⟩
  · decide
  · rw [Char.utf8Size_eq_one_iff, UInt32.le_iff_toNat_le]
    exact Nat.le_trans hhigh (by decide)

theorem utf8ByteSize_ofList (h : ∀ c ∈ text, isKept c = true) : (String.ofList text).utf8ByteSize = text.length := by
  induction text with
  | nil => rfl
  | cons c text ih =>
    obtain ⟨hc, htext⟩ := List.forall_mem_cons.mp h
    rw [String.ofList_cons, String.utf8ByteSize_append, String.utf8ByteSize_singleton, utf8Size_of_isKept hc, ih htext,
      List.length_cons, Nat.add_comm]

/-! ## The cut -/

theorem kept_of_mem_joinWords (h : ∀ c ∈ text, isKept c = true) (hc : c ∈ joinWords text) : isKept c = true :=
  h c ((mem_joinWords text).1 c hc)

theorem cut_starts (text : List Char) : cut text <+: joinWords text :=
  (List.rdropWhile_prefix _ _).trans (List.take_prefix _ _)

theorem length_cut (text : List Char) : (cut text).length ≤ maxNameBytes :=
  (List.rdropWhile_prefix _ _).length_le.trans (List.length_take_le _ _)

theorem getLast?_cut (text : List Char) : (cut text).getLast? ≠ some ' ' := by
  intro hlast
  have hne : cut text ≠ [] := by
    intro hnil
    rw [hnil] at hlast
    cases hlast
  rw [List.getLast?_eq_some_getLast hne] at hlast
  have hletter := List.rdropWhile_last_not isWhitespace _ hne
  exact hletter (Option.some.inj hlast ▸ by decide)

theorem spaced_cut (text : List Char) : Spaced (cut text) :=
  (spaced_joinWords text).of_start (cut_starts text) (getLast?_cut text)

/-- Dropping blanks at the end leaves a start that ends in a letter when only blanks follow it. -/
theorem rdropWhile_append_iff (hname : ∀ h : name ≠ [], isWhitespace (name.getLast h) = false) :
    (name ++ rest).rdropWhile isWhitespace = name ↔ ∀ c ∈ rest, isWhitespace c = true := by
  constructor
  · intro heq c hc
    have hwhole : (name ++ rest).rdropWhile isWhitespace ++ (name ++ rest).rtakeWhile isWhitespace = name ++ rest :=
      List.rdropWhile_append_rtakeWhile
    rw [heq] at hwhole
    rw [← List.append_cancel_left hwhole] at hc
    exact List.mem_rtakeWhile_imp hc
  · intro hrest
    induction rest using List.reverseRecOn with
    | nil =>
      rw [List.append_nil]
      exact List.rdropWhile_eq_self_iff.mpr fun h => by simp [hname h]
    | append_singleton rest c ih =>
      obtain ⟨hrest, hc⟩ := List.forall_mem_append.mp hrest
      rw [← List.append_assoc, List.rdropWhile_concat_pos _ _ _ (hc c (List.mem_singleton_self c))]
      exact ih hrest

/-- What comes after a name of this length is not shown: it is blank, or there is no room for it. -/
def LeftOut (length : Nat) (rest : List Char) : Prop :=
  (∀ c ∈ rest, c = ' ') ∨ maxNameBytes ≤ length + if rest.head? = some ' ' then 1 else 0

theorem take_continued_blank (hrest : ∀ c ∈ rest, isKept c = true) (room : Nat) :
    (∀ c ∈ (continued rest).take room, isWhitespace c = true) ↔
      (∀ c ∈ rest, c = ' ') ∨ room ≤ if rest.head? = some ' ' then 1 else 0 := by
  cases rest with
  | nil => simp
  | cons d rest =>
    obtain ⟨hd, hkept⟩ := List.forall_mem_cons.mp hrest
    by_cases hblank : d = ' '
    · obtain rfl := hblank
      rw [continued_blank]
      by_cases hnil : joinWords rest = []
      · have hall := joinWords_eq_nil.mp hnil
        rw [if_pos hnil, List.take_nil]
        exact ⟨fun _ => .inl (List.forall_mem_cons.mpr ⟨rfl, hall⟩), fun _ c hc => by cases hc⟩
      · obtain ⟨e, words, hwords⟩ := List.exists_cons_of_ne_nil hnil
        have hletter : e ≠ ' ' := fun he => (spaced_joinWords rest).head (by rw [hwords, he]; rfl)
        have hshown : isWhitespace e = false := by
          rw [← Bool.not_eq_true, isWhitespace_iff (kept_of_mem_joinWords hkept (hwords ▸ List.mem_cons_self))]
          exact hletter
        have hsome : ¬ ∀ c ∈ ' ' :: rest, c = ' ' := fun h =>
          hnil (joinWords_eq_nil.mpr (List.forall_mem_cons.mp h).2)
        rw [if_neg hnil, hwords, or_iff_right hsome, List.head?_cons, if_pos rfl]
        have hspace : isWhitespace ' ' = true := by decide
        match room with
        | 0 => simp
        | 1 => simp [hspace]
        | room + 2 => simp [hshown]
    · have hshown : isWhitespace d = false := by
        rw [← Bool.not_eq_true, isWhitespace_iff hd]
        exact hblank
      have hhead : (d :: rest).head? ≠ some ' ' := by simpa using hblank
      have hsome : ¬ ∀ c ∈ d :: rest, c = ' ' := fun h => hblank (h d List.mem_cons_self)
      rw [continued_letter hblank, if_neg hhead, or_iff_right hsome]
      cases room with
      | zero => simp
      | succ room => simp [hshown]

/-- **Where the cut ends**: at a letter, with what follows left out. -/
theorem cut_eq_iff (hc : c ≠ ' ') (hkept : ∀ d ∈ front ++ c :: rest, isKept d = true)
    (hfits : (joinWords (front ++ [c])).length ≤ maxNameBytes) :
    cut (front ++ c :: rest) = joinWords (front ++ [c]) ↔ LeftOut (joinWords (front ++ [c])).length rest := by
  have hletter : ∀ h : joinWords (front ++ [c]) ≠ [], isWhitespace ((joinWords (front ++ [c])).getLast h) = false := by
    intro h
    have hkeeps : isKept ((joinWords (front ++ [c])).getLast h) = true := by
      refine kept_of_mem_joinWords (fun d hd => hkept d ?_) (List.getLast_mem h)
      rcases List.mem_append.mp hd with hd | hd
      · exact List.mem_append_left _ hd
      · exact List.mem_append_right _ (List.mem_singleton.mp hd ▸ List.mem_cons_self)
    rw [← Bool.not_eq_true, isWhitespace_iff hkeeps]
    intro hblank
    refine (spaced_joinWords (front ++ [c])).last ?_
    rw [List.getLast?_eq_some_getLast h, hblank]
  have hrest : ∀ d ∈ rest, isKept d = true := fun d hd => hkept d (List.mem_append_right _ (List.mem_cons_of_mem _ hd))
  unfold cut LeftOut
  rw [joinWords_append hc, List.take_append, List.take_of_length_le hfits, rdropWhile_append_iff hletter,
    take_continued_blank hrest, Nat.sub_le_iff_le_add']

/-! ## The end that is taken off -/

/-- The text ends in `.local`, in any case. -/
def EndsInLocal (text : List Char) : Prop := ∃ tail, tail <:+ text ∧ tail.map Char.toLower = ".local".toList

theorem endsInLocal_iff : EndsInLocal text ↔ ".local".length ≤ text.length ∧
    (text.drop (text.length - ".local".length)).map Char.toLower = ".local".toList := by
  constructor
  · rintro ⟨tail, hsuffix, htail⟩
    have hlength : tail.length = ".local".length := by
      have hmap := congrArg List.length htail
      rwa [List.length_map] at hmap
    refine ⟨hlength ▸ hsuffix.length_le, ?_⟩
    rwa [← hlength, ← List.suffix_iff_eq_drop.mp hsuffix]
  · rintro ⟨-, htail⟩
    exact ⟨_, List.drop_suffix _ _, htail⟩

instance (text : List Char) : Decidable (EndsInLocal text) := decidable_of_iff _ endsInLocal_iff.symm

theorem stripLocal_of_not (h : ¬ EndsInLocal text) : stripLocal text = text := if_neg (mt endsInLocal_iff.mpr h)

theorem length_stripLocal (h : EndsInLocal text) : (stripLocal text).length < text.length := by
  have hends := endsInLocal_iff.mp h
  unfold stripLocal
  rw [if_pos hends, List.length_take]
  have hsix : ".local".length = 6 := rfl
  omega

/-- A letter of the end is no blank. -/
theorem letter_of_local (htail : tail.map Char.toLower = ".local".toList) (hc : c ∈ tail) : c ≠ ' ' := by
  rintro rfl
  have hmem := List.mem_map_of_mem (f := Char.toLower) hc
  rw [htail] at hmem
  exact absurd hmem (by decide)

theorem isAlphanum_toLower (c : Char) : c.toLower.isAlphanum = c.isAlphanum := by
  unfold Char.toLower
  split
  · rename_i h
    have hlow : 65 ≤ c.val.toNat := UInt32.le_iff_toNat_le.mp h.1
    have hhigh : c.val.toNat ≤ 90 := UInt32.le_iff_toNat_le.mp h.2
    simp only [Char.isAlphanum, Char.isAlpha, Char.isUpper, Char.isLower, Char.isDigit, UInt32.le_iff_toNat_le,
      UInt32.toNat_add]
    grind
  · rfl

/-- No own tile's label ends so. -/
theorem not_ownTile_of_local (h : EndsInLocal text) : readsAsOwnTile text = false := by
  obtain ⟨tail, ⟨start, rfl⟩, htail⟩ := h
  have hletters : (tail.filter Char.isAlphanum).map Char.toLower = "local".toList := by
    have hcomm : (tail.map Char.toLower).filter Char.isAlphanum = (tail.filter Char.isAlphanum).map Char.toLower := by
      rw [List.filter_map]
      exact congrArg (List.map Char.toLower) (List.filter_congr fun c _ => isAlphanum_toLower c)
    rw [← hcomm, htail]
    decide
  have hne : ∀ label ∈ ownTileLabels, (label.toList.filter Char.isAlphanum).map Char.toLower ≠
      ((start ++ tail).filter Char.isAlphanum).map Char.toLower := by
    intro label hlabel heq
    rw [List.filter_append, List.map_append, hletters] at heq
    have hsuffix : "local".toList <:+ (label.toList.filter Char.isAlphanum).map Char.toLower := ⟨_, heq.symm⟩
    have hnone : ∀ label ∈ ownTileLabels,
        ¬ "local".toList <:+ (label.toList.filter Char.isAlphanum).map Char.toLower := by decide
    exact hnone label hlabel hsuffix
  unfold readsAsOwnTile
  simpa using hne

/-! ## The same name again -/

theorem length_both (text : List Char) :
    (joinWords text).length ≤ text.length ∧ (continued text).length ≤ text.length := by
  induction text with
  | nil => exact ⟨Nat.le_refl _, Nat.le_refl _⟩
  | cons c text ih =>
    by_cases hc : c = ' '
    · obtain rfl := hc
      rw [joinWords_blank, continued_blank, List.length_cons]
      refine ⟨Nat.le_succ_of_le ih.1, ?_⟩
      split
      · exact Nat.zero_le _
      · exact Nat.succ_le_succ ih.1
    · rw [joinWords_letter hc, continued_letter hc]
      exact ⟨Nat.succ_le_succ ih.2, Nat.succ_le_succ ih.2⟩

/-- A plain text: what `cut` gives of kept characters. -/
structure PlainText (name : List Char) : Prop extends Spaced name where
  kept : ∀ c ∈ name, isKept c = true
  fits : name.length ≤ maxNameBytes

theorem plainText_cut (h : ∀ c ∈ text, isKept c = true) : PlainText (cut text) where
  toSpaced := spaced_cut text
  kept _ hc := kept_of_mem_joinWords h ((cut_starts text).mem hc)
  fits := length_cut text

theorem PlainText.head_letter (h : PlainText name) : ∀ c, name.head? = some c → isWhitespace c = false := by
  intro c hc
  rw [← Bool.not_eq_true, isWhitespace_iff (h.kept c (List.mem_of_head? hc))]
  exact fun hblank => h.head (hblank ▸ hc)

theorem PlainText.last_letter (h : PlainText name) (hne : name ≠ []) : isWhitespace (name.getLast hne) = false := by
  rw [← Bool.not_eq_true, isWhitespace_iff (h.kept _ (List.getLast_mem hne))]
  exact fun hblank => h.last (by rw [List.getLast?_eq_some_getLast hne, hblank])

theorem PlainText.trim_eq (h : PlainText name) : trim name = name := by
  have hhead : name.dropWhile isWhitespace = name := by
    cases name with
    | nil => rfl
    | cons c name => exact List.dropWhile_cons_of_neg (by simp [h.head_letter c rfl])
  unfold trim
  rw [hhead]
  exact List.rdropWhile_eq_self_iff.mpr fun hne => by simp [h.last_letter hne]

theorem PlainText.cut_eq (h : PlainText name) : cut name = name := by
  unfold cut
  rw [h.joinWords_eq, List.take_of_length_le h.fits]
  exact List.rdropWhile_eq_self_iff.mpr fun hne => by simp [h.last_letter hne]

theorem PlainText.peerName_eq (h : PlainText name) (hne : name ≠ []) (hown : readsAsOwnTile name = false)
    (hlocal : ¬ EndsInLocal name) : peerName (some (String.ofList name)) = String.ofList name := by
  have hstem : stem (some (String.ofList name)) = name := by
    unfold stem
    rw [Option.getD_some, String.toList_ofList, h.trim_eq, stripLocal_of_not hlocal]
  have hfilter : name.filter isKept = name := List.filter_eq_self.mpr h.kept
  rw [Pairing.peerName_eq, hstem, hfilter, h.cut_eq, if_neg]
  simp [hne, hown]

/-- **What ends in `.local` is not the same again.** -/
theorem PlainText.peerName_ne (h : PlainText name) (hlocal : EndsInLocal name) :
    peerName (some (String.ofList name)) ≠ String.ofList name := by
  have hshorter : (stem (some (String.ofList name))).length < name.length := by
    unfold stem
    rw [Option.getD_some, String.toList_ofList, h.trim_eq]
    exact length_stripLocal hlocal
  rw [Pairing.peerName_eq]
  split
  · intro heq
    have hcomputer : name = "Computer".toList := by rw [← String.toList_ofList (l := name), ← heq]
    rw [hcomputer] at hlocal
    exact absurd hlocal (by decide)
  · intro heq
    have hname := congrArg List.length (String.ofList_injective heq)
    have hcut := (cut_starts ((stem (some (String.ofList name))).filter isKept)).length_le
    have hjoined := (length_both ((stem (some (String.ofList name))).filter isKept)).1
    have hfilter := List.length_filter_le isKept (stem (some (String.ofList name)))
    omega

theorem peerName_fixed_iff (label : Option String) :
    peerName (some (peerName label)) = peerName label ↔ ¬ EndsInLocal (cut ((stem label).filter isKept)) := by
  have hplain : PlainText (cut ((stem label).filter isKept)) := plainText_cut fun c hc => (List.mem_filter.mp hc).2
  rw [peerName_eq label]
  split
  · rename_i hfallback
    have hlocal : ¬ EndsInLocal (cut ((stem label).filter isKept)) := by
      intro hends
      rcases hfallback with hnil | hown
      · rw [hnil] at hends
        exact absurd hends (by decide)
      · exact Bool.false_ne_true ((not_ownTile_of_local hends).symm.trans hown)
    exact iff_of_true (by decide) hlocal
  · rename_i hnamed
    obtain ⟨hne, hown⟩ := not_or.mp hnamed
    constructor
    · exact fun heq hlocal => hplain.peerName_ne hlocal heq
    · exact hplain.peerName_eq hne (Bool.not_eq_true _ ▸ hown)

/-! ## The labels whose names end so -/

/-- Without one `.local`, the label has a start whose kept characters end in `.local` again, and which fills the name:
nothing of what follows is shown. -/
def EndsAgain (label : Option String) : Prop :=
  ∃ front rest, stem label = front ++ rest ∧ EndsInLocal (front.filter isKept) ∧
    (joinWords (front.filter isKept)).length ≤ maxNameBytes ∧
    LeftOut (joinWords (front.filter isKept)).length (rest.filter isKept)

theorem EndsInLocal.snoc (h : EndsInLocal text) : ∃ start c, text = start ++ [c] ∧ c ≠ ' ' := by
  obtain ⟨tail, ⟨start, rfl⟩, htail⟩ := h
  rcases List.eq_nil_or_concat tail with rfl | ⟨init, c, rfl⟩
  · cases htail
  · rw [List.concat_eq_append] at htail ⊢
    exact ⟨start ++ init, c, (List.append_assoc _ _ _).symm, letter_of_local htail (by simp)⟩

theorem endsInLocal_joinWords (hc : c ≠ ' ') :
    EndsInLocal (joinWords (front ++ [c])) ↔ EndsInLocal (front ++ [c]) := by
  constructor
  · rintro ⟨tail, hsuffix, htail⟩
    exact ⟨tail, suffix_of_joinWords hc (fun _ => letter_of_local htail) hsuffix, htail⟩
  · rintro ⟨tail, hsuffix, htail⟩
    exact ⟨tail, suffix_joinWords (fun _ => letter_of_local htail) hsuffix, htail⟩

theorem endsAgain_iff (label : Option String) : EndsInLocal (cut ((stem label).filter isKept)) ↔ EndsAgain label := by
  have hkept : ∀ c ∈ (stem label).filter isKept, isKept c = true := fun c hc => (List.mem_filter.mp hc).2
  constructor
  · intro hends
    obtain ⟨start, c, hcut, hc⟩ := hends.snoc
    have hprefix := cut_starts ((stem label).filter isKept)
    rw [hcut] at hprefix
    obtain ⟨front, rest, htext, hfront⟩ := exists_start hc hprefix
    have hfits := length_cut ((stem label).filter isKept)
    rw [htext] at hkept hcut hends hfits
    have hshown : cut (front ++ c :: rest) = joinWords (front ++ [c]) := hcut.trans hfront.symm
    rw [hshown] at hends hfits
    have hsplit : (stem label).filter isKept = (front ++ [c]) ++ rest := by rw [htext, List.append_assoc]; rfl
    obtain ⟨before, after, hstem, hbefore, hafter⟩ := List.filter_eq_append_iff.mp hsplit
    refine ⟨before, after, hstem, ?_⟩
    rw [hbefore, hafter]
    exact ⟨(endsInLocal_joinWords hc).mp hends, hfits, (cut_eq_iff hc hkept hfits).mp hshown⟩
  · rintro ⟨before, after, hstem, hends, hfits, hleft⟩
    obtain ⟨front, c, hbefore, hc⟩ := hends.snoc
    have htext : (stem label).filter isKept = front ++ c :: after.filter isKept := by
      rw [hstem, List.filter_append, hbefore, List.append_assoc]
      rfl
    rw [hbefore] at hends hfits hleft
    rw [htext] at hkept ⊢
    rw [(cut_eq_iff hc hkept hfits).mpr hleft]
    exact (endsInLocal_joinWords hc).mpr hends

/-! ## The record -/

theorem fromUTF8?_toByteArray (s : String) : String.fromUTF8? s.toByteArray = some s :=
  dif_pos s.isValidUTF8

theorem toByteArray_of_fromUTF8? {bytes : ByteArray} {s : String} (h : String.fromUTF8? bytes = some s) :
    s.toByteArray = bytes := by
  unfold String.fromUTF8? at h
  split at h
  · cases h
    rfl
  · cases h

/-- What reading a field does to the name. -/
theorem readProperty_name {fields fields' : TxtFields} {property : TxtProperty}
    (h : readProperty fields property = .ok fields') :
    (property.key ≠ txtName ∧ fields'.name = fields.name) ∨ (property.key = txtName ∧ fields.name = none ∧
      ∃ value, property.val = some (String.toByteArray value) ∧ fields'.name = some (peerName (some value))) := by
  unfold readProperty at h
  simp only [bind, Except.bind, pure, Except.pure, throw, throwThe, MonadExceptOf.throw] at h
  repeat' split at h
  all_goals first
    | (cases h; done)
    | skip
  · rename_i hkey
    cases h
    exact .inl ⟨fun hname => absurd (hkey.1.symm.trans hname) (by decide), rfl⟩
  · rename_i hkey _ _ _
    cases h
    exact .inl ⟨fun hname => absurd (hkey.1.symm.trans hname) (by decide), rfl⟩
  · rename_i bytes hval _ _ value hvalue _ _ hkey
    cases h
    exact .inr ⟨hkey.1, hkey.2, value, by rw [hval, toByteArray_of_fromUTF8? hvalue], rfl⟩
  · rename_i hother
    cases h
    exact .inl ⟨fun hname => hother (by simp [hname]), rfl⟩

/-- A name that is read stays, and a later field of that key is an error. -/
theorem foldlM_name {properties : List TxtProperty} {fields fields' : TxtFields}
    (h : properties.foldlM readProperty fields = .ok fields') :
    (∀ known, fields.name = some known → fields'.name = some known) ∧
      ∀ value, ⟨txtName, some (String.toByteArray value)⟩ ∈ properties →
        fields'.name = some (peerName (some value)) := by
  induction properties generalizing fields with
  | nil =>
    cases h
    exact ⟨fun _ => id, fun _ hmem => by cases hmem⟩
  | cons property properties ih =>
    rw [List.foldlM_cons] at h
    obtain ⟨next, hread, hrest⟩ := Lib.Act.except_bind_eq_ok.mp h
    obtain ⟨hkeeps, hnames⟩ := ih hrest
    rcases readProperty_name hread with ⟨hkey, hsame⟩ | ⟨hkey, hnone, value, hval, hname⟩
    · refine ⟨fun known hknown => hkeeps known (hsame.trans hknown), fun value hmem => ?_⟩
      rcases List.mem_cons.mp hmem with rfl | hmem
      · exact absurd rfl hkey
      · exact hnames value hmem
    · refine ⟨fun known hknown => absurd (hnone.symm.trans hknown) (by simp), fun other hmem => ?_⟩
      rcases List.mem_cons.mp hmem with rfl | hmem
      · have hsame : value = other := by
          have hbytes := Option.some.inj hval
          rw [← Option.some.injEq, ← fromUTF8?_toByteArray, ← fromUTF8?_toByteArray other, hbytes]
        exact hsame ▸ hkeeps _ hname
      · exact hnames other hmem

/-- **The name of a record that parses** is its name field's, made plain. -/
theorem parseTxt_name {properties : List TxtProperty} {txt : ParsedTxt} (h : parseTxt properties = .ok txt)
    {value : String} (hmem : ⟨txtName, some value.toByteArray⟩ ∈ properties) : txt.name = some (peerName (some value)) := by
  unfold parseTxt at h
  simp only [bind, Except.bind, pure, Except.pure, throw, throwThe, MonadExceptOf.throw] at h
  repeat' split at h
  all_goals first
    | (cases h; done)
    | skip
  rename_i hfields _ _ _ _ _ _
  cases h
  exact (foldlM_name hfields).2 value hmem

theorem name_mem_properties (advertisement : Advertisement) (name : String) :
    ⟨txtName, some (peerName (some name)).toByteArray⟩ ∈ (advertisement.withName name).properties :=
  List.mem_append_right _ (List.mem_singleton_self _)

/-! ## One name -/

/-- A name is plain: made of what survives, with single blanks inside, and nobody's own tile. -/
structure Plain (name : String) : Prop extends PlainText name.toList where
  nonempty : name ≠ ""
  size : name.utf8ByteSize ≤ maxNameBytes
  not_own : readsAsOwnTile name.toList = false

theorem plain_peerName (label : Option String) : Plain (peerName label) := by
  have hplain : PlainText (cut ((stem label).filter isKept)) := plainText_cut fun c hc => (List.mem_filter.mp hc).2
  rw [peerName_eq]
  split
  · exact {
      head := by decide
      last := by decide
      single := by decide
      kept := List.all_eq_true.mp (by decide)
      fits := by decide
      nonempty := by decide
      size := by decide
      not_own := by decide }
  · rename_i hnamed
    obtain ⟨hne, hown⟩ := not_or.mp hnamed
    exact {
      toPlainText := String.toList_ofList ▸ hplain
      nonempty := fun hempty => hne (String.ofList_injective hempty)
      size := utf8ByteSize_ofList hplain.kept ▸ hplain.fits
      not_own := by
        rw [String.toList_ofList]
        exact Bool.not_eq_true _ ▸ hown }

theorem makeHello_name (os : Os) (version name : String) (inputPort : BitVec 16) (candidates : List SocketAddr) :
    (makeHello os version name inputPort candidates).name = peerName (some name) := by
  rw [makeHello]

/-- One name for the computer with this label: its own, the one in its hello and the one in its record, as each computer
that hears of it shows them. -/
structure OneName (label : Option String) : Prop where
  plain : Plain (peerName label)
  fixed : peerName (some (peerName label)) = peerName label
  hello : ∀ os version inputPort candidates,
    peerName (some (makeHello os version (localName label) inputPort candidates).name) = localName label
  record : ∀ (advertisement : Advertisement) properties txt, parseTxt properties = .ok txt →
    (advertisement.withName (localName label)).properties ⊆ properties → txt.name = some (localName label)

/-- **A computer has one name everywhere** exactly when its label does not end in `.local` again. -/
theorem one_name_iff (label : Option String) : OneName label ↔ ¬ EndsAgain label := by
  rw [← endsAgain_iff, ← peerName_fixed_iff]
  constructor
  · exact fun h => h.fixed
  · intro hfixed
    have hlocal : peerName (some (localName label)) = localName label := hfixed
    refine ⟨plain_peerName label, hfixed, fun os version inputPort candidates => ?_, ?_⟩
    · rw [makeHello_name, hlocal, hlocal]
    · intro advertisement properties txt htxt hsub
      rw [parseTxt_name htxt (hsub (name_mem_properties advertisement (localName label))), hlocal, hlocal]

/-- Of two such ends one is left, and the next computer takes it off too. -/
theorem not_one_name_twice_local : ¬ OneName (some "desk.local.local") := fun h =>
  absurd h.fixed (by decide +kernel)

end Zflow.Pairing
