import Mathlib.Data.List.Nodup
import Zflow.Macos.Poster

/-!
# The injector leaves nothing stuck on a Mac

A desk takes the events the injector posts (`desk`): it knows which keycodes, media keys and buttons are
down, and which plain key went down last. It admits an event that fits: a key goes down only while up and
up only while down, a repeat is of the newest key, and the flags are those of the modifiers down. What the
injector records is what the desk has down (`Good`), whatever a post answers, because each method changes
the record and posts that same change; so the log is legal, and releasing what is recorded leaves the desk
at rest.
-/

namespace Zflow.Macos

open Zflow.Core Lib

/-! ## The flags of a set of keys -/

theorem testBit_foldl_flags (held : List Nat) (start i : Nat) :
    (held.foldl (fun flags code => flags ||| modifierFlag code) start).testBit i =
      (start.testBit i || held.any fun code => (modifierFlag code).testBit i) := by
  induction held generalizing start with
  | nil => simp
  | cons code rest ih =>
    rw [List.foldl_cons, ih, Nat.testBit_or, List.any_cons, Bool.or_assoc]

theorem modifierFlag_eq_zero {code : Nat} (h : isModifier code = false) : modifierFlag code = 0 := by
  unfold modifierFlag
  have hnone : modifiers.find? (·.1 == code) = none := by
    rw [List.find?_eq_none]
    intro row hrow hcode
    exact Bool.false_ne_true (h.symm.trans (List.any_eq_true.mpr ⟨row, hrow, hcode⟩))
  rw [hnone]

/-- The flags are a matter of the modifiers held, in any order. -/
theorem modifierFlags_congr {held held' : List Nat}
    (h : ∀ code, isModifier code = true → (code ∈ held ↔ code ∈ held')) :
    modifierFlags held = modifierFlags held' := by
  have hbit : ∀ (xs ys : List Nat) (i : Nat), (∀ code, isModifier code = true → code ∈ xs → code ∈ ys) →
      (xs.any fun code => (modifierFlag code).testBit i) = true →
      (ys.any fun code => (modifierFlag code).testBit i) = true := by
    intro xs ys i hsub hany
    obtain ⟨code, hcode, hset⟩ := List.any_eq_true.mp hany
    cases hmodifier : isModifier code with
    | true => exact List.any_eq_true.mpr ⟨code, hsub code hmodifier hcode, hset⟩
    | false =>
      rw [modifierFlag_eq_zero hmodifier, Nat.zero_testBit] at hset
      cases hset
  refine Nat.eq_of_testBit_eq fun i => ?_
  unfold modifierFlags
  rw [testBit_foldl_flags, testBit_foldl_flags]
  congr 1
  exact Bool.eq_iff_iff.mpr ⟨hbit _ _ i fun code hcode => (h code hcode).mp,
    hbit _ _ i fun code hcode => (h code hcode).mpr⟩

/-! ## The desk -/

/-- What is down on a Mac that takes every event, and the plain key that went down last. -/
structure Desk where
  keys : Nat → Bool
  media : Nat → Bool
  buttons : Nat → Bool
  newest : Option Nat

namespace Desk

def clear : Desk := ⟨fun _ => false, fun _ => false, fun _ => false, none⟩

/-- The flags of the modifiers that are down. -/
def flags (d : Desk) : Nat := modifierFlags ((modifiers.map (·.1)).filter d.keys)

def setKey (d : Desk) (code : Nat) (down : Bool) : Desk :=
  { d with keys := fun other => if other = code then down else d.keys other }

end Desk

/-- **A desk that takes events.** Each key, media key and button goes down only while it is up and up only
while it is down; a repeat is of a plain key that is down and went down last; and an event carries the
flags of the modifiers down, besides a key's own. -/
def desk : Replay Desk Posted where
  apply d
    | .key code down autorepeat _ =>
      if autorepeat then d else { d.setKey code down with newest := if down then some code else d.newest }
    | .modifier code down _ => d.setKey code down
    | .media key down => { d with media := fun other => if other = key then down else d.media other }
    | .button button down _ _ _ =>
      { d with buttons := fun other => if other = button then down else d.buttons other }
    | .move .. | .scroll .. => d
  admits d
    | .key code down autorepeat flags =>
      isModifier code = false ∧ flags = d.flags ||| keyFlags code ∧
        if autorepeat then down = true ∧ d.keys code = true ∧ d.newest = some code
        else d.keys code = !down
    | .modifier code down _ => isModifier code = true ∧ d.keys code = !down
    | .media key down => d.media key = !down
    | .button button down _ _ flags => d.buttons button = (!down) ∧ flags = d.flags
    | .move _ _ _ _ flags => flags = d.flags
    | .scroll _ _ flags => flags = d.flags

namespace Poster

/-- The desk after the events posted so far. -/
def shown (posted : List Posted) : Desk := desk.run Desk.clear posted

/-- A desk has down what the record says. -/
structure Shows (d : Desk) (codes : Std.ExtTreeMap Nat Nat) (media buttons : Nat → Prop)
    (repeating : Option Repeat) : Prop where
  keys : ∀ code, d.keys code = true ↔ code ∈ codes
  counted : ∀ code count : Nat, codes[code]? = some count → 0 < count
  media : ∀ key, d.media key = true ↔ media key
  buttons : ∀ button, d.buttons button = true ↔ buttons button
  repeating : ∀ due, repeating = some due →
    isModifier due.code = false ∧ due.code ∈ codes ∧ d.newest = some due.code

variable {B : Type} [Backend B] {p : Poster B} {d : Desk} {codes : Std.ExtTreeMap Nat Nat}
  {media buttons : Nat → Prop} {repeating : Option Repeat} {code : Nat}

/-- A media key is recorded under some usage. -/
def mediaDown (p : Poster B) (key : Nat) : Prop := ∃ usage : HidUsage, p.media[usage]? = some key

/-- **What holds of the injector between its methods**: the log is legal, and leaves down what is
recorded. -/
structure Good (p : Poster B) : Prop where
  legal : desk.Legal Desk.clear p.posted
  shows_ : Shows (shown p.posted) p.codes p.mediaDown (· ∈ p.buttons) p.repeating
  mediaKeys : ∀ (usage : HidUsage) (key : Nat), p.media[usage]? = some key → hidToMediaKey usage = some key

theorem Shows.flags (h : Shows d codes media buttons repeating) : modifierFlags codes.keys = d.flags := by
  refine modifierFlags_congr fun code hcode => ?_
  rw [Std.ExtTreeMap.mem_keys, List.mem_filter, h.keys]
  refine ⟨fun hmem => ⟨?_, hmem⟩, And.right⟩
  obtain ⟨row, hrow, heq⟩ := List.any_eq_true.mp hcode
  exact List.mem_map.mpr ⟨row, hrow, by simpa using heq⟩

/-- A plain key adds nothing to the flags. -/
theorem Shows.flags_insert (h : Shows d codes media buttons repeating) (hplain : isModifier code = false)
    (count : Nat) : modifierFlags (codes.insert code count).keys = d.flags := by
  rw [← h.flags]
  refine modifierFlags_congr fun other hother => ?_
  rw [Std.ExtTreeMap.mem_keys, Std.ExtTreeMap.mem_keys, Std.ExtTreeMap.mem_insert, Std.compare_eq_iff_eq]
  refine or_iff_right fun heq => ?_
  rw [← heq, hplain] at hother
  cases hother

theorem Shows.flags_erase (h : Shows d codes media buttons repeating) (hplain : isModifier code = false) :
    modifierFlags (codes.erase code).keys = d.flags := by
  rw [← h.flags]
  refine modifierFlags_congr fun other hother => ?_
  rw [Std.ExtTreeMap.mem_keys, Std.ExtTreeMap.mem_keys, Std.ExtTreeMap.mem_erase, ne_eq, Std.compare_eq_iff_eq]
  refine and_iff_right fun heq => ?_
  rw [← heq, hplain] at hother
  cases hother

theorem Shows.up (h : Shows d codes media buttons repeating) (hcode : code ∉ codes) :
    d.keys code = false := by
  rw [← Bool.not_eq_true, h.keys]
  exact hcode

theorem Shows.recount (h : Shows d codes media buttons repeating) {count : Nat} (hcode : code ∈ codes)
    (hcount : 0 < count) : Shows d (codes.insert code count) media buttons repeating where
  keys other := by
    rw [h.keys, Std.ExtTreeMap.mem_insert, Std.compare_eq_iff_eq]
    constructor
    · exact .inr
    · rintro (rfl | hother)
      · exact hcode
      · exact hother
  counted other n hn := by
    rw [Std.ExtTreeMap.getElem?_insert] at hn
    split at hn
    · cases hn
      exact hcount
    · exact h.counted other n hn
  media := h.media
  buttons := h.buttons
  repeating due hdue := by
    obtain ⟨hplain, hmem, hnewest⟩ := h.repeating due hdue
    exact ⟨hplain, Std.ExtTreeMap.mem_insert.mpr (.inr hmem), hnewest⟩

theorem Shows.setKey_insert (h : Shows d codes media buttons repeating) (code other : Nat) :
    (d.setKey code true).keys other = true ↔ other ∈ codes.insert code 1 := by
  show (if other = code then true else d.keys other) = true ↔ _
  rw [Std.ExtTreeMap.mem_insert, Std.compare_eq_iff_eq, ← h.keys]
  by_cases heq : other = code
  · simp [heq]
  · simp [heq, Ne.symm heq]

theorem Shows.setKey_erase (h : Shows d codes media buttons repeating) (code other : Nat) :
    (d.setKey code false).keys other = true ↔ other ∈ codes.erase code := by
  show (if other = code then false else d.keys other) = true ↔ _
  rw [Std.ExtTreeMap.mem_erase, ← h.keys, ne_eq, Std.compare_eq_iff_eq]
  by_cases heq : other = code
  · simp [heq]
  · simp [heq, Ne.symm heq]

theorem Shows.counted_insert (h : Shows d codes media buttons repeating) :
    ∀ other count : Nat, (codes.insert code 1)[other]? = some count → 0 < count := by
  intro other count hcount
  rw [Std.ExtTreeMap.getElem?_insert] at hcount
  split at hcount
  · cases hcount
    exact Nat.one_pos
  · exact h.counted other count hcount

theorem Shows.counted_erase (h : Shows d codes media buttons repeating) :
    ∀ other count : Nat, (codes.erase code)[other]? = some count → 0 < count := by
  intro other count hcount
  rw [Std.ExtTreeMap.getElem?_erase] at hcount
  split at hcount
  · cases hcount
  · exact h.counted other count hcount

/-! ## One post -/

/-- **A post that the desk admits keeps the log legal**, whether the Mac takes it or not. -/
theorem post_good {event : Posted} (hlegal : desk.Legal Desk.clear p.posted)
    (hadmits : desk.admits (shown p.posted) event)
    (hshows : Shows (desk.apply (shown p.posted) event) p.codes p.mediaDown (· ∈ p.buttons) p.repeating)
    (hmedia : ∀ (usage : HidUsage) (key : Nat), p.media[usage]? = some key → hidToMediaKey usage = some key) :
    Good (post event p).2 where
  legal := (desk.legal_append _ _ _).mpr ⟨hlegal, hadmits, trivial⟩
  shows_ := by
    have hrun : shown (p.posted ++ [event]) = desk.apply (shown p.posted) event := desk.run_append _ _ _
    show Shows (shown (p.posted ++ [event])) p.codes p.mediaDown (· ∈ p.buttons) p.repeating
    rw [hrun]
    exact hshows
  mediaKeys := hmedia

/-- A method may change what no event is about. -/
theorem Good.congr {p' : Poster B} (h : Good p) (hposted : p'.posted = p.posted) (hcodes : p'.codes = p.codes)
    (hmedia : p'.media = p.media) (hbuttons : p'.buttons = p.buttons)
    (hrepeating : p'.repeating = p.repeating) : Good p' where
  legal := hposted ▸ h.legal
  shows_ := by
    have hshows := h.shows_
    rw [← hposted, ← hcodes, ← hbuttons, ← hrepeating] at hshows
    have hsame : p'.mediaDown = p.mediaDown := by
      unfold mediaDown
      rw [hmedia]
    rw [hsame]
    exact hshows
  mediaKeys := hmedia ▸ h.mediaKeys

/-- What keeps `Good`. -/
def Carries (p p' : Poster B) : Prop := Good p → Good p'

instance : IsPreorder (Poster B) Carries where
  refl _ h := h
  trans _ _ _ h h' hp := h' (h hp)

/-! ## Keys -/

theorem getD_eq_zero (h : Good p) (hcount : ¬ p.codes[code]?.getD 0 + 1 > 1) : code ∉ p.codes := by
  intro hmem
  obtain ⟨count, hsome⟩ := Option.isSome_iff_exists.mp (Std.ExtTreeMap.mem_iff_isSome_getElem?.mp hmem)
  have hpos := h.shows_.counted code count hsome
  rw [hsome, Option.getD_some] at hcount
  omega

theorem good_press (usage : HidUsage) (now : MonotonicTimeMicros) (h : Good p) : Good (press usage now p).2 := by
  unfold press
  cases hcode : hidToMacKeycode usage p.environment.iso with
  | none => exact h
  | some code =>
    dsimp only
    split
    · exact h
    split
    · rename_i hcount
      have hmem : code ∈ p.codes := by
        by_contra hnone
        rw [Std.ExtTreeMap.getElem?_eq_none hnone, Option.getD_none] at hcount
        omega
      exact ⟨h.legal, h.shows_.recount hmem (by omega), h.mediaKeys⟩
    · rename_i hcount
      have hup := getD_eq_zero h hcount
      have hone : p.codes[code]?.getD 0 + 1 = 1 := by omega
      rw [hone]
      have hkeys := h.shows_.setKey_insert code
      split
      · rename_i hmodifier
        refine post_good h.legal ⟨hmodifier, h.shows_.up hup⟩
          ⟨hkeys, h.shows_.counted_insert, h.shows_.media, h.shows_.buttons, fun due hdue => ?_⟩ h.mediaKeys
        obtain ⟨hplain, hmem, hnewest⟩ := h.shows_.repeating due hdue
        exact ⟨hplain, Std.ExtTreeMap.mem_insert.mpr (.inr hmem), hnewest⟩
      · rename_i hplain
        have hplain : isModifier code = false := by simpa using hplain
        refine post_good h.legal ⟨hplain, ?_, h.shows_.up hup⟩
          ⟨hkeys, h.shows_.counted_insert, h.shows_.media, h.shows_.buttons, fun due hdue => ?_⟩ h.mediaKeys
        · exact congrArg (· ||| keyFlags code) (h.shows_.flags_insert hplain 1)
        · cases hdue
          exact ⟨hplain, Std.ExtTreeMap.mem_insert_self, rfl⟩

theorem good_release (usage : HidUsage) (h : Good p) : Good (release usage p).2 := by
  unfold release
  cases hkey : p.keys[usage]? with
  | none => exact h
  | some code =>
    dsimp only
    cases hcount : p.codes[code]? with
    | none => exact h.congr rfl rfl rfl rfl rfl
    | some count =>
      have hmem : code ∈ p.codes := Std.ExtTreeMap.mem_iff_isSome_getElem?.mpr (by rw [hcount]; rfl)
      have hdown : (shown p.posted).keys code = true := (h.shows_.keys code).mpr hmem
      have hkeys := h.shows_.setKey_erase code
      dsimp only
      split
      · rename_i hmore
        exact ⟨h.legal, h.shows_.recount hmem hmore, h.mediaKeys⟩
      split
      · rename_i hmodifier
        refine post_good h.legal ⟨hmodifier, hdown⟩
          ⟨hkeys, h.shows_.counted_erase, h.shows_.media, h.shows_.buttons, fun due hdue => ?_⟩ h.mediaKeys
        obtain ⟨hplain, hdue, hnewest⟩ := h.shows_.repeating due hdue
        refine ⟨hplain, Std.ExtTreeMap.mem_erase.mpr ⟨fun heq => ?_, hdue⟩, hnewest⟩
        rw [← Std.compare_eq_iff_eq.mp heq, hmodifier] at hplain
        cases hplain
      · rename_i hplain
        have hplain : isModifier code = false := by simpa using hplain
        refine post_good h.legal ⟨hplain, ?_, hdown⟩
          ⟨hkeys, h.shows_.counted_erase, h.shows_.media, h.shows_.buttons, fun due hdue => ?_⟩ h.mediaKeys
        · exact congrArg (· ||| keyFlags code) (h.shows_.flags_erase hplain)
        · have hdue' : (if p.repeating.any (·.code == code) then none else p.repeating) = some due := hdue
          split at hdue'
          · cases hdue'
          · rename_i hother
            obtain ⟨hplain', hmem', hnewest⟩ := h.shows_.repeating due hdue'
            refine ⟨hplain', Std.ExtTreeMap.mem_erase.mpr ⟨fun heq => hother ?_, hmem'⟩, hnewest⟩
            rw [hdue']
            simpa using (Std.compare_eq_iff_eq.mp heq).symm

/-- Each media key stands for one usage. -/
theorem hidToMediaKey_injective {usage other : HidUsage} {key : Nat} (h : hidToMediaKey usage = some key)
    (h' : hidToMediaKey other = some key) : usage = other := by
  have hrow : ∀ {usage : HidUsage}, hidToMediaKey usage = some key →
      usage.page = consumer ∧ (usage.usage, key) ∈ mediaKeys := by
    intro usage h
    unfold hidToMediaKey at h
    split at h
    · cases h
    · rename_i hpage
      obtain ⟨row, hfind, hkey⟩ := Option.map_eq_some_iff.mp h
      have husage := List.find?_some hfind
      have hrow : row = (usage.usage, key) := Prod.ext (by simpa using husage) hkey
      exact ⟨not_not.mp hpage, hrow ▸ List.mem_of_find?_eq_some hfind⟩
  have hkeys : ∀ row ∈ mediaKeys, ∀ row' ∈ mediaKeys, row.2 = row'.2 → row.1 = row'.1 := by decide
  obtain ⟨hpage, hmem⟩ := hrow h
  obtain ⟨hpage', hmem'⟩ := hrow h'
  have husage := hkeys _ hmem _ hmem' rfl
  cases usage
  cases other
  simp_all

/-- Media keys recorded under the usages that stand for them. -/
def MediaKeys (media : Std.ExtTreeMap HidUsage Nat) : Prop :=
  ∀ (usage : HidUsage) (key : Nat), media[usage]? = some key → hidToMediaKey usage = some key

theorem MediaKeys.insert {media : Std.ExtTreeMap HidUsage Nat} (h : MediaKeys media) {usage : HidUsage}
    {key : Nat} (hkey : hidToMediaKey usage = some key) : MediaKeys (media.insert usage key) ∧
      ∀ other : Nat, (∃ u : HidUsage, (media.insert usage key)[u]? = some other) ↔
        other = key ∨ ∃ u : HidUsage, media[u]? = some other := by
  have hget : ∀ u : HidUsage, (media.insert usage key)[u]? = if usage = u then some key else media[u]? := by
    intro u
    rw [Std.ExtTreeMap.getElem?_insert]
    simp only [Std.compare_eq_iff_eq]
  refine ⟨fun u other hother => ?_, fun other => ⟨?_, ?_⟩⟩
  · rw [hget] at hother
    split at hother
    · rename_i heq
      cases hother
      exact heq ▸ hkey
    · exact h u other hother
  · rintro ⟨u, hu⟩
    rw [hget] at hu
    split at hu
    · exact .inl (Option.some.inj hu).symm
    · exact .inr ⟨u, hu⟩
  · rintro (rfl | ⟨u, hu⟩)
    · exact ⟨usage, by rw [hget, if_pos rfl]⟩
    · refine ⟨u, ?_⟩
      rw [hget]
      split
      · rename_i heq
        rw [← hkey, heq, h u other hu]
      · exact hu

theorem MediaKeys.erase {media : Std.ExtTreeMap HidUsage Nat} (h : MediaKeys media) {usage : HidUsage}
    {key : Nat} (hkey : hidToMediaKey usage = some key) : MediaKeys (media.erase usage) ∧
      ∀ other : Nat, (∃ u : HidUsage, (media.erase usage)[u]? = some other) ↔
        other ≠ key ∧ ∃ u : HidUsage, media[u]? = some other := by
  have hget : ∀ u : HidUsage, (media.erase usage)[u]? = if usage = u then none else media[u]? := by
    intro u
    rw [Std.ExtTreeMap.getElem?_erase]
    simp only [Std.compare_eq_iff_eq]
  refine ⟨fun u other hother => ?_, fun other => ⟨?_, ?_⟩⟩
  · rw [hget] at hother
    split at hother
    · cases hother
    · exact h u other hother
  · rintro ⟨u, hu⟩
    rw [hget] at hu
    split at hu
    · cases hu
    · rename_i hne
      exact ⟨fun heq => hne (hidToMediaKey_injective hkey (heq ▸ h u other hu)), u, hu⟩
  · rintro ⟨hne, u, hu⟩
    refine ⟨u, ?_⟩
    rw [hget, if_neg]
    · exact hu
    · rintro rfl
      exact hne (Option.some.inj ((h usage other hu).symm.trans hkey))

/-- What a press of a media key changes, and a release. -/
theorem Shows.setMedia (h : Shows d codes media buttons repeating) {key : Nat} {down : Bool}
    {media' : Nat → Prop} (hmedia : ∀ other, media' other ↔ if other = key then down = true else media other) :
    Shows { d with media := fun other => if other = key then down else d.media other } codes media' buttons
      repeating where
  keys := h.keys
  counted := h.counted
  media other := by
    rw [hmedia, ← h.media]
    show (if other = key then down else d.media other) = true ↔ _
    split <;> rfl
  buttons := h.buttons
  repeating := h.repeating

theorem good_output (usage : HidUsage) (pressed : Bool) (now : MonotonicTimeMicros) (h : Good p) :
    Good (output usage pressed now p).2 := by
  unfold output
  cases hmedia : hidToMediaKey usage with
  | none =>
    dsimp only
    split
    · cases pressed with
      | true => exact h.congr rfl rfl rfl rfl rfl
      | false => exact h
    · cases pressed with
      | true => exact good_press usage now h
      | false => exact good_release usage h
  | some key =>
    have hcontains : p.media.contains usage = true ↔ p.mediaDown key := by
      rw [Std.ExtTreeMap.contains_iff_mem, Std.ExtTreeMap.mem_iff_isSome_getElem?]
      constructor
      · intro hsome
        obtain ⟨other, hother⟩ := Option.isSome_iff_exists.mp hsome
        have hsame : other = key := Option.some.inj ((h.mediaKeys usage other hother).symm.trans hmedia)
        exact ⟨usage, hsame ▸ hother⟩
      · rintro ⟨u, hu⟩
        rw [← hidToMediaKey_injective (h.mediaKeys u key hu) hmedia, hu]
        rfl
    dsimp only
    cases pressed with
    | true =>
      obtain ⟨hkeys, hdown⟩ := MediaKeys.insert h.mediaKeys hmedia
      have hall : ∀ other, (∃ u : HidUsage, (p.media.insert usage key)[u]? = some other) ↔
          if other = key then true = true else p.mediaDown other := by
        intro other
        rw [hdown]
        by_cases heq : other = key <;> simp [heq, mediaDown]
      by_cases hmem : p.media.contains usage = true
      · simp only [hmem, if_true, Bool.not_true, Bool.false_eq_true, if_false]
        refine ⟨h.legal, ⟨h.shows_.keys, h.shows_.counted, fun other => ?_, h.shows_.buttons,
          h.shows_.repeating⟩, hkeys⟩
        refine (h.shows_.media other).trans (Iff.trans ?_ (hall other).symm)
        by_cases heq : other = key
        · simp [heq, hcontains.mp hmem]
        · simp [heq]
      · simp only [hmem, if_true, Bool.not_false]
        refine post_good h.legal ?_ (h.shows_.setMedia hall) hkeys
        show (shown p.posted).media key = false
        rw [← Bool.not_eq_true, h.shows_.media, ← hcontains]
        exact hmem
    | false =>
      obtain ⟨hkeys, hdown⟩ := MediaKeys.erase h.mediaKeys hmedia
      have hall : ∀ other, (∃ u : HidUsage, (p.media.erase usage)[u]? = some other) ↔
          if other = key then false = true else p.mediaDown other := by
        intro other
        rw [hdown]
        by_cases heq : other = key <;> simp [heq, mediaDown]
      by_cases hmem : p.media.contains usage = true
      · simp only [hmem, if_true, Bool.false_eq_true, if_false]
        refine post_good h.legal ?_ (h.shows_.setMedia hall) hkeys
        exact (h.shows_.media key).mpr (hcontains.mp hmem)
      · simp only [hmem, Bool.false_eq_true, if_false]
        refine ⟨h.legal, ⟨h.shows_.keys, h.shows_.counted, fun other => ?_, h.shows_.buttons,
          h.shows_.repeating⟩, hkeys⟩
        refine (h.shows_.media other).trans (Iff.trans ?_ (hall other).symm)
        by_cases heq : other = key
        · rw [heq, if_pos rfl, ← hcontains]
          simpa using hmem
        · rw [if_neg heq]

theorem carries_outputs (now : MonotonicTimeMicros) (edges : List Edge) :
    Act.Within Carries (outputs now edges : Act String (Poster B) Unit) := by
  induction edges with
  | nil => exact Act.Within.pure ()
  | cons edge rest ih =>
    exact Act.Within.bind (fun _ h => good_output edge.1 edge.2 now h) fun _ => ih

theorem good_choose (physical : HidUsage) (pressed : Bool) (h : Good p) : Good (p.choose physical pressed).2 := by
  unfold choose
  cases swapped physical with
  | none => exact h
  | some swapped =>
    dsimp only
    split
    · exact h
    split
    · exact h.congr rfl rfl rfl rfl rfl
    · cases p.chosen[physical]? with
      | some chosen => exact h
      | none => exact h.congr rfl rfl rfl rfl rfl

theorem carries_key (physical : HidUsage) (pressed : Bool) (now : MonotonicTimeMicros) :
    Act.Within Carries (key physical pressed now : Act String (Poster B) Unit) := by
  intro p h
  exact carries_outputs now _ _ ((good_choose physical pressed h).congr rfl rfl rfl rfl rfl)

theorem carries_pointer (busy : Bool) (now : MonotonicTimeMicros) :
    Act.Within Carries (pointer busy now : Act String (Poster B) Unit) := by
  intro p h
  exact carries_outputs now _ _ (h.congr rfl rfl rfl rfl rfl)

/-! ## The pointer -/

theorem Shows.setButton (h : Shows d codes media buttons repeating) {button : Nat} {down : Bool}
    {buttons' : Nat → Prop}
    (hbuttons : ∀ other, buttons' other ↔ if other = button then down = true else buttons other) :
    Shows { d with buttons := fun other => if other = button then down else d.buttons other } codes media
      buttons' repeating where
  keys := h.keys
  counted := h.counted
  media := h.media
  buttons other := by
    rw [hbuttons, ← h.buttons]
    show (if other = button then down else d.buttons other) = true ↔ _
    split <;> rfl
  repeating := h.repeating

/-- An event that moves no key, media key or button. -/
theorem good_still (event : Posted) (h : Good p) (hadmits : desk.admits (shown p.posted) event)
    (hstill : desk.apply (shown p.posted) event = shown p.posted) : Good (post event p).2 := by
  refine post_good h.legal hadmits ?_ h.mediaKeys
  rw [hstill]
  exact h.shows_

theorem good_button (button : PointerButton) (pressed : Bool) (now : MonotonicTimeMicros) (h : Good p) :
    Good (Poster.button button pressed now p).2 := by
  unfold Poster.button
  split
  · exact h
  split
  · exact h
  rename_i hchanges
  cases pressed with
  | true =>
    have hfree : button - 1 ∉ p.buttons := by simpa using hchanges
    refine post_good h.legal ⟨?_, h.shows_.flags⟩ (h.shows_.setButton fun other => ?_) h.mediaKeys
    · rw [Bool.not_true, ← Bool.not_eq_true, h.shows_.buttons]
      exact hfree
    · show other ∈ p.buttons.insert (button - 1) _ ↔ _
      rw [Std.ExtTreeMap.mem_insert, Std.compare_eq_iff_eq]
      by_cases heq : other = button - 1
      · simp [heq]
      · simp [heq, Ne.symm heq]
  | false =>
    have hdown : button - 1 ∈ p.buttons := by simpa using hchanges
    refine post_good h.legal ⟨(h.shows_.buttons _).mpr hdown, h.shows_.flags⟩
      (h.shows_.setButton fun other => ?_) h.mediaKeys
    show other ∈ p.buttons.erase (button - 1) ↔ _
    rw [Std.ExtTreeMap.mem_erase, ne_eq, Std.compare_eq_iff_eq]
    by_cases heq : other = button - 1
    · simp [heq]
    · simp [heq, Ne.symm heq]

theorem good_postMove (start target : CursorPosition) (dx dy : Int) (h : Good p) :
    Good (postMove start target dx dy p).2 := by
  have hbackend : Good { p with
      backend := Backend.moved start (Backend.clamp target p.backend).1 (Backend.clamp target p.backend).2 } :=
    h.congr rfl rfl rfl rfl rfl
  exact good_still _ hbackend h.shows_.flags rfl

theorem good_motion (dx dy : Int) (now : MonotonicTimeMicros) (h : Good p) : Good (motion dx dy now p).2 := by
  unfold motion
  dsimp only
  split
  · exact h.congr rfl rfl rfl rfl rfl
  split
  · exact h.congr rfl rfl rfl rfl rfl
  · exact good_postMove _ _ _ _ (h.congr rfl rfl rfl rfl rfl)

theorem good_moveTo (point : CursorPosition) (h : Good p) : Good (moveTo point p).2 :=
  good_postMove _ _ _ _ (h.congr rfl rfl rfl rfl rfl)

theorem good_scroll (x y : Int) (h : Good p) : Good (scroll x y p).2 := by
  unfold scroll
  dsimp only
  split
  · have hbackend : Good { p with backend := (Backend.pixels x y p.backend).2 } :=
      h.congr rfl rfl rfl rfl rfl
    exact good_still _ hbackend h.shows_.flags rfl
  · exact h.congr rfl rfl rfl rfl rfl

/-! ## Every way out -/

/-- **What holds while everything is released**: what is left of the record is what is down. -/
structure Lifting (p : Poster B) (media buttons : Nat → Prop) : Prop where
  legal : desk.Legal Desk.clear p.posted
  shows_ : Shows (shown p.posted) p.codes media buttons none
  repeating : p.repeating = none

/-- A post leaves the record alone. -/
theorem attempt_eq (event : Posted) (p : Poster B) : p.attempt event = { p with
      backend := (Backend.post event p.backend).2
      posted := p.posted ++ [event] } := rfl

theorem attempt_lifting {event : Posted} (hlegal : desk.Legal Desk.clear p.posted)
    (hadmits : desk.admits (shown p.posted) event)
    (hshows : Shows (desk.apply (shown p.posted) event) p.codes media buttons none)
    (hrepeating : p.repeating = none) : Lifting (p.attempt event) media buttons where
  legal := (desk.legal_append _ _ _).mpr ⟨hlegal, hadmits, trivial⟩
  shows_ := by
    have hrun : shown (p.posted ++ [event]) = desk.apply (shown p.posted) event := desk.run_append _ _ _
    rw [attempt_eq]
    show Shows (shown (p.posted ++ [event])) p.codes media buttons none
    rw [hrun]
    exact hshows
  repeating := hrepeating

/-- What a lift of a keycode leaves alone. -/
structure Keeps (p p' : Poster B) : Prop where
  media : p'.media = p.media
  buttons : p'.buttons = p.buttons

theorem Keeps.trans {p₁ p₂ : Poster B} (h : Keeps p p₁) (h' : Keeps p₁ p₂) : Keeps p p₂ :=
  ⟨h'.media.trans h.media, h'.buttons.trans h.buttons⟩

theorem lifting_erase (h : Lifting p media buttons) (hmem : code ∈ p.codes) : (shown p.posted).keys code = true ∧
      Shows ((shown p.posted).setKey code false) (p.codes.erase code) media buttons none :=
  ⟨(h.shows_.keys code).mpr hmem, h.shows_.setKey_erase code, h.shows_.counted_erase, h.shows_.media,
    h.shows_.buttons, fun _ hdue => by cases hdue⟩

theorem lifting_liftKey (h : Lifting p media buttons) (hmem : code ∈ p.codes)
    (hplain : isModifier code = false) : Lifting (p.liftKey code) media buttons := by
  obtain ⟨hdown, hshows⟩ := lifting_erase h hmem
  refine attempt_lifting h.legal ⟨hplain, ?_, hdown⟩
    ⟨hshows.keys, hshows.counted, hshows.media, hshows.buttons, fun _ hdue => by cases hdue⟩ h.repeating
  exact congrArg (· ||| keyFlags code) (h.shows_.flags_erase hplain)

theorem lifting_liftModifier (h : Lifting p media buttons) (hmem : code ∈ p.codes)
    (hmodifier : isModifier code = true) : Lifting (p.liftModifier code) media buttons := by
  obtain ⟨hdown, hshows⟩ := lifting_erase h hmem
  exact attempt_lifting h.legal ⟨hmodifier, hdown⟩ hshows h.repeating

/-- Lifting keycodes one after another. -/
theorem lifting_foldl {lift : Poster B → Nat → Poster B} (fits : Nat → Prop)
    (hstep : ∀ p code, Lifting p media buttons → code ∈ p.codes → fits code → Lifting (lift p code) media buttons)
    (hcodes : ∀ p code, (lift p code).codes = p.codes.erase code)
    (hkeeps : ∀ p code, Keeps p (lift p code)) (xs : List Nat) (h : Lifting p media buttons)
    (hnodup : xs.Nodup) (hmem : ∀ code ∈ xs, code ∈ p.codes ∧ fits code) :
    Lifting (xs.foldl lift p) media buttons ∧ Keeps p (xs.foldl lift p) ∧
      ∀ code, code ∈ (xs.foldl lift p).codes ↔ code ∈ p.codes ∧ code ∉ xs := by
  induction xs generalizing p with
  | nil => exact ⟨h, ⟨rfl, rfl⟩, by simp⟩
  | cons code rest ih =>
    obtain ⟨hfresh, hrest⟩ := List.nodup_cons.mp hnodup
    obtain ⟨hcode, hfits⟩ := hmem code (.head _)
    have herase : ∀ other, other ∈ (lift p code).codes ↔ other ≠ code ∧ other ∈ p.codes := by
      intro other
      rw [hcodes, Std.ExtTreeMap.mem_erase, ne_eq, Std.compare_eq_iff_eq, eq_comm]
    obtain ⟨hlast, hkept, hleft⟩ := ih (hstep p code h hcode hfits) hrest fun other hother => by
      obtain ⟨hin, hfits⟩ := hmem other (.tail _ hother)
      exact ⟨(herase other).mpr ⟨fun heq => hfresh (heq ▸ hother), hin⟩, hfits⟩
    refine ⟨hlast, (hkeeps p code).trans hkept, fun other => ?_⟩
    rw [List.foldl_cons, hleft, herase, List.mem_cons, not_or]
    exact ⟨fun hand => ⟨hand.1.2, hand.1.1, hand.2⟩, fun hand => ⟨⟨hand.2.1, hand.1⟩, hand.2.2⟩⟩

theorem lifting_media (entries : List (HidUsage × Nat)) (h : Lifting p media buttons)
    (hnodup : (entries.map (·.2)).Nodup) (hmedia : ∀ key, media key ↔ key ∈ entries.map (·.2)) :
    Lifting (entries.foldl liftMedia p) (fun _ => False) buttons ∧
      (entries.foldl liftMedia p).codes = p.codes ∧ Keeps p (entries.foldl liftMedia p) := by
  induction entries generalizing p media with
  | nil =>
    have hnone : media = fun _ => False := by
      funext key
      simpa using hmedia key
    exact ⟨hnone ▸ h, rfl, rfl, rfl⟩
  | cons entry rest ih =>
    rw [List.map_cons, List.nodup_cons] at hnodup
    have hstep : Lifting (p.liftMedia entry) (fun key => key ∈ rest.map (·.2)) buttons := by
      refine attempt_lifting h.legal ?_ (h.shows_.setMedia fun other => ?_) h.repeating
      · exact (h.shows_.media entry.2).mpr ((hmedia entry.2).mpr (.head _))
      · rw [hmedia, List.map_cons, List.mem_cons]
        by_cases heq : other = entry.2
        · simp only [heq, if_true, Bool.false_eq_true, iff_false]
          exact hnodup.1
        · simp [heq]
    obtain ⟨hlast, hcodes, hkeeps⟩ := ih hstep hnodup.2 fun _ => Iff.rfl
    exact ⟨hlast, hcodes, hkeeps.media, hkeeps.buttons⟩

theorem lifting_buttons (position : CursorPosition) (entries : List (Nat × Int))
    (h : Lifting p media buttons) (hnodup : (entries.map (·.1)).Nodup)
    (hbuttons : ∀ button, buttons button ↔ button ∈ entries.map (·.1)) :
    Lifting (entries.foldl (liftButton position) p) media (fun _ => False) ∧
      (entries.foldl (liftButton position) p).codes = p.codes ∧ Keeps p (entries.foldl (liftButton position) p) := by
  induction entries generalizing p buttons with
  | nil =>
    have hnone : buttons = fun _ => False := by
      funext button
      simpa using hbuttons button
    exact ⟨hnone ▸ h, rfl, rfl, rfl⟩
  | cons entry rest ih =>
    rw [List.map_cons, List.nodup_cons] at hnodup
    have hstep : Lifting (p.liftButton position entry) media (fun button => button ∈ rest.map (·.1)) := by
      refine attempt_lifting h.legal ⟨?_, h.shows_.flags⟩ (h.shows_.setButton fun other => ?_) h.repeating
      · exact (h.shows_.buttons entry.1).mpr ((hbuttons entry.1).mpr (.head _))
      · rw [hbuttons, List.map_cons, List.mem_cons]
        by_cases heq : other = entry.1
        · simp only [heq, if_true, Bool.false_eq_true, iff_false]
          exact hnodup.1
        · simp [heq]
    obtain ⟨hlast, hcodes, hkeeps⟩ := ih hstep hnodup.2 fun _ => Iff.rfl
    exact ⟨hlast, hcodes, hkeeps.media, hkeeps.buttons⟩

/-- **At rest**: nothing is recorded as held, and everything that went down has gone up. -/
structure AtRest (p : Poster B) : Prop where
  keys : p.keys = ∅
  codes : p.codes = ∅
  media : p.media = ∅
  buttons : p.buttons = ∅
  chosen : p.chosen = ∅
  repeating : p.repeating = none
  remap : p.remap = { KeyRemap.new p.remap.mode with terminal := p.remap.terminal }
  keysUp : ∀ code, (shown p.posted).keys code = false
  mediaUp : ∀ key, (shown p.posted).media key = false
  buttonsUp : ∀ button, (shown p.posted).buttons button = false

theorem nodup_media (h : MediaKeys p.media) : (p.media.toList.map (·.2)).Nodup := by
  have hkeys : (p.media.toList.map (·.1)).Nodup := by
    rw [Std.ExtTreeMap.map_fst_toList_eq_keys]
    exact Std.ExtTreeMap.nodup_keys
  refine List.Nodup.map_on (fun x hx y hy heq => ?_) (List.Nodup.of_map _ hkeys)
  have hleft := h x.1 x.2 (Std.ExtTreeMap.mem_toList_iff_getElem?_eq_some.mp hx)
  have hright := h y.1 y.2 (Std.ExtTreeMap.mem_toList_iff_getElem?_eq_some.mp hy)
  exact Prod.ext (hidToMediaKey_injective hleft (heq ▸ hright)) heq

theorem liftMedias_lifting (h : Lifting p p.mediaDown buttons) (hkeys : MediaKeys p.media) :
    Lifting p.liftMedias (fun _ => False) buttons ∧ p.liftMedias.codes = p.codes ∧
      p.liftMedias.media = ∅ ∧ p.liftMedias.buttons = p.buttons := by
  -- The media keys are taken out of the record before they are released.
  have hstart : Lifting { p with media := ∅ } p.mediaDown buttons := ⟨h.legal, h.shows_, h.repeating⟩
  obtain ⟨hlast, hcodes, hkeeps⟩ := lifting_media p.media.toList hstart (nodup_media hkeys) fun key => by
    simp only [List.mem_map, Prod.exists, exists_eq_right, Std.ExtTreeMap.mem_toList_iff_getElem?_eq_some]
    exact Iff.rfl
  exact ⟨hlast, hcodes, hkeeps.media, hkeeps.buttons⟩

theorem liftButtons_lifting (h : Lifting p media (· ∈ p.buttons)) :
    Lifting p.liftButtons media (fun _ => False) ∧ p.liftButtons.codes = p.codes ∧
      p.liftButtons.media = p.media ∧ p.liftButtons.buttons = ∅ := by
  unfold liftButtons
  split
  · rename_i hempty
    have hnone : p.buttons = ∅ := Std.ExtTreeMap.isEmpty_iff.mp hempty
    have hfalse : (fun button => button ∈ p.buttons) = fun _ => False := by
      funext button
      simp [hnone]
    exact ⟨hfalse ▸ h, rfl, rfl, hnone⟩
  · have hstart : Lifting { p with backend := (Backend.cursor p.backend).2, buttons := ∅ } media
        (· ∈ p.buttons) := ⟨h.legal, h.shows_, h.repeating⟩
    obtain ⟨hlast, hcodes, hkeeps⟩ := lifting_buttons (Backend.cursor p.backend).1 p.buttons.toList hstart
      (by rw [Std.ExtTreeMap.map_fst_toList_eq_keys]; exact Std.ExtTreeMap.nodup_keys)
      (fun button => by rw [Std.ExtTreeMap.map_fst_toList_eq_keys, Std.ExtTreeMap.mem_keys])
    exact ⟨hlast, hcodes, hkeeps.media, hkeeps.buttons⟩

theorem lifting_keys (h : Good p) : Lifting { p with repeating := none } p.mediaDown (· ∈ p.buttons) :=
  ⟨h.legal, ⟨h.shows_.keys, h.shows_.counted, h.shows_.media, h.shows_.buttons,
    fun _ hdue => by cases hdue⟩, rfl⟩

/-- The keycodes of a record, each once, in two kinds. -/
theorem mem_kind (kind : Nat → Bool) : (p.codes.keys.filter kind).Nodup ∧
    ∀ code, code ∈ p.codes.keys.filter kind ↔ code ∈ p.codes ∧ kind code = true := by
  refine ⟨Std.ExtTreeMap.nodup_keys.filter _, fun code => ?_⟩
  rw [List.mem_filter, Std.ExtTreeMap.mem_keys]

/-- Nothing recorded and everything up. -/
theorem lifting_rest (h : Lifting p (fun _ => False) (fun _ => False)) (hcodes : p.codes = ∅) :
    (∀ code, (shown p.posted).keys code = false) ∧ (∀ key, (shown p.posted).media key = false) ∧
      ∀ button, (shown p.posted).buttons button = false := by
  refine ⟨fun code => h.shows_.up (by simp [hcodes]), fun key => ?_, fun button => ?_⟩
  · rw [← Bool.not_eq_true, h.shows_.media]
    exact id
  · rw [← Bool.not_eq_true, h.shows_.buttons]
    exact id

/-- **Releasing everything leaves the Mac at rest.** -/
theorem releaseAll_atRest (h : Good p) : Good p.releaseAll ∧ AtRest p.releaseAll := by
  obtain ⟨hplainNodup, hplainMem⟩ := mem_kind (p := p) (not ∘ isModifier)
  obtain ⟨hmodNodup, hmodMem⟩ := mem_kind (p := p) isModifier
  obtain ⟨hplain, hplainKeeps, hplainLeft⟩ := lifting_foldl (isModifier · = false)
    (fun _ _ hp hmem hfits => lifting_liftKey hp hmem hfits) (fun _ _ => rfl) (fun _ _ => ⟨rfl, rfl⟩)
    (p.codes.keys.filter (not ∘ isModifier)) (lifting_keys h) hplainNodup fun code hcode => by
      simpa using (hplainMem code).mp hcode
  unfold releaseAll
  rw [List.partition_eq_filter_filter]
  dsimp only
  generalize (p.codes.keys.filter (not ∘ isModifier)).foldl liftKey { p with repeating := none } = plain
    at hplain hplainKeeps hplainLeft ⊢
  have hmediaKeys : MediaKeys plain.media := hplainKeeps.media ▸ h.mediaKeys
  have hplain' : Lifting plain plain.mediaDown (· ∈ p.buttons) := by
    have hsame : plain.mediaDown = p.mediaDown := by
      unfold mediaDown
      rw [hplainKeeps.media]
    exact hsame ▸ hplain
  obtain ⟨hsilent, hsilentCodes, hsilentMedia, hsilentButtons⟩ := liftMedias_lifting hplain' hmediaKeys
  generalize plain.liftMedias = silent at hsilent hsilentCodes hsilentMedia hsilentButtons ⊢
  obtain ⟨hbare, hbareKeeps, hbareLeft⟩ := lifting_foldl (isModifier · = true)
    (fun _ _ hp hmem hfits => lifting_liftModifier hp hmem hfits) (fun _ _ => rfl)
    (fun _ _ => ⟨rfl, rfl⟩) (p.codes.keys.filter isModifier) hsilent hmodNodup fun code hcode => by
      obtain ⟨hmem, hfits⟩ := (hmodMem code).mp hcode
      refine ⟨?_, hfits⟩
      rw [hsilentCodes, hplainLeft, hplainMem]
      refine ⟨hmem, fun hand => ?_⟩
      simp [hfits] at hand
  generalize (p.codes.keys.filter isModifier).foldl liftModifier silent = bare at hbare hbareKeeps hbareLeft ⊢
  have hbuttons : bare.buttons = p.buttons :=
    hbareKeeps.buttons.trans (hsilentButtons.trans hplainKeeps.buttons)
  have hbare' : Lifting bare (fun _ => False) (· ∈ bare.buttons) := by
    rw [hbuttons]
    exact hbare
  have hcodes : bare.codes = ∅ := by
    refine Std.ExtTreeMap.eq_empty_iff_forall_not_mem.mpr fun code hcode => ?_
    obtain ⟨hleft, hplainCode⟩ := (hbareLeft code).mp hcode
    rw [hsilentCodes, hplainLeft, hplainMem] at hleft
    rw [hmodMem] at hplainCode
    cases hkind : isModifier code with
    | true => exact hplainCode ⟨hleft.1, hkind⟩
    | false => exact hleft.2 ⟨hleft.1, by simp [hkind]⟩
  obtain ⟨hlast, hlastCodes, hlastMedia, hlastButtons⟩ := liftButtons_lifting hbare'
  generalize bare.liftButtons = last at hlast hlastCodes hlastMedia hlastButtons ⊢
  have hmediaEmpty : last.media = ∅ := hlastMedia.trans (hbareKeeps.media.trans hsilentMedia)
  obtain ⟨hkeysUp, hmediaUp, hbuttonsUp⟩ := lifting_rest hlast (hlastCodes.trans hcodes)
  refine ⟨⟨hlast.legal, ?_, fun usage key hkey => ?_⟩, ?_⟩
  · have hnoMedia : ∀ key, ¬ last.mediaDown key := by
      rintro key ⟨usage, husage⟩
      simp [hmediaEmpty] at husage
    refine ⟨hlast.shows_.keys, hlast.shows_.counted, fun key => ?_, fun button => ?_, fun due hdue => ?_⟩
    · exact (hlast.shows_.media key).trans ⟨False.elim, fun hdown => hnoMedia key hdown⟩
    · refine (hlast.shows_.buttons button).trans ⟨False.elim, fun hdown => ?_⟩
      have hdown' : button ∈ last.buttons := hdown
      simp [hlastButtons] at hdown'
    · have hdue' : last.repeating = some due := hdue
      rw [hlast.repeating] at hdue'
      cases hdue'
  · have hkey' : last.media[usage]? = some key := hkey
    simp [hmediaEmpty] at hkey'
  · exact ⟨rfl, hlastCodes.trans hcodes, hmediaEmpty, hlastButtons, rfl, hlast.repeating, rfl, hkeysUp,
      hmediaUp, hbuttonsUp⟩

theorem good_begin (keyboard : KeyboardMode) (h : Good p) : Good (p.begin keyboard) :=
  (releaseAll_atRest h).1.congr rfl rfl rfl rfl rfl

theorem good_isLocked (now : MonotonicTimeMicros) (h : Good p) : Good (p.isLocked now).2 := by
  unfold isLocked
  dsimp only
  split
  · exact h
  · exact h.congr rfl rfl rfl rfl rfl

/-- **A repeat is of the newest key, which is down**, and a failure leaves the Mac at rest. -/
theorem good_tick (now : MonotonicTimeMicros) (h : Good p) :
    Good (p.tick now).2 ∧ (∀ error, (p.tick now).1 = .error error → AtRest (p.tick now).2) := by
  unfold tick
  cases hdue : p.repeating with
  | none => exact ⟨h, fun _ herror => by cases herror⟩
  | some due =>
    dsimp only
    split
    · exact ⟨h, fun _ herror => by cases herror⟩
    have hlock := good_isLocked now h
    have hkept : (p.isLocked now).2.repeating = some due := by
      unfold isLocked
      dsimp only
      split <;> exact hdue
    rcases hlocked : p.isLocked now with ⟨locked, p'⟩
    rw [hlocked] at hlock hkept
    cases locked with
    | true => exact ⟨(releaseAll_atRest hlock).1, fun _ _ => (releaseAll_atRest hlock).2⟩
    | false =>
      dsimp only
      generalize (if due.at_ + p'.environment.interval > now then due.at_ + p'.environment.interval
        else now + p'.environment.interval) = next
      obtain ⟨hplain, hmem, hnewest⟩ := hlock.shows_.repeating due hkept
      have hnext : Good { p' with repeating := some ⟨due.code, next⟩ } := by
        refine ⟨hlock.legal, ⟨hlock.shows_.keys, hlock.shows_.counted, hlock.shows_.media,
          hlock.shows_.buttons, fun other hother => ?_⟩, hlock.mediaKeys⟩
        cases hother
        exact ⟨hplain, hmem, hnewest⟩
      have hpost := good_still (p'.keyEvent due.code true true) hnext
        ⟨hplain, congrArg (· ||| keyFlags due.code) hlock.shows_.flags,
          rfl, (hlock.shows_.keys due.code).mpr hmem, hnewest⟩ rfl
      rcases hresult : post (p'.keyEvent due.code true true)
        { p' with repeating := some ⟨due.code, next⟩ } with ⟨result, p''⟩
      rw [hresult] at hpost
      cases result with
      | ok _ => exact ⟨hpost, fun _ herror => by cases herror⟩
      | error _ => exact ⟨(releaseAll_atRest hpost).1, fun _ _ => (releaseAll_atRest hpost).2⟩

/-! ## Effects and batches -/

theorem carries_effect (keyboard : KeyboardMode) (effect : ReceiverEffect) (now : MonotonicTimeMicros) :
    Act.Within Carries (InjectorCore.effect keyboard effect now : Act String (Poster B) Unit) := by
  refine Act.Within.bind (fun p h => ?_) fun _ => ?_
  · unfold preparePointer
    split
    · exact carries_pointer _ now p h
    · exact h.congr rfl rfl rfl rfl rfl
    · exact h
  · cases effect with
    | activationOpened session => exact fun p h => good_begin keyboard h
    | activationClosed session reason => exact fun p h => (releaseAll_atRest h).1
    | motion delta through =>
      exact Act.Within.bind (fun p h => good_motion delta.dx delta.dy now h)
        fun _ p h => good_scroll delta.scrollX delta.scrollY h
    | key key pressed synthetic => exact carries_key key pressed now
    | button button pressed synthetic => exact fun p h => good_button button pressed now h
    | touchReplaced touch => exact Act.Within.pure ()
    | snapshotAck => exact Act.Within.pure ()
    | rejected => exact Act.Within.pure ()

theorem carries_effects (keyboard : KeyboardMode) (now : MonotonicTimeMicros) (batch : List ReceiverEffect) :
    Act.Within Carries (InjectorCore.effects keyboard now batch : Act String (Poster B) Unit) := by
  induction batch with
  | nil => exact Act.Within.pure ()
  | cons effect rest ih => exact Act.Within.bind (carries_effect keyboard effect now) fun _ => ih

theorem carries_applyUnlocked (batch : List ReceiverEffect) (keyboard : KeyboardMode) (now : MonotonicTimeMicros) :
    Act.Within Carries (InjectorCore.applyUnlocked batch keyboard now : Act String (Poster B) Unit) := by
  refine Act.Within.bind (fun p h => ?_) fun _ => carries_effects keyboard now batch
  unfold InjectorCore.refuseLocked
  split
  · have hlock := good_isLocked now h
    rcases hlocked : MacInput.locked now p with ⟨locked, p'⟩
    have hgood : Good p' := by
      have hsame : (p.isLocked now).2 = p' := congrArg Prod.snd hlocked
      exact hsame ▸ hlock
    cases locked <;> exact hgood
  · exact h

end Poster

variable {B : Type} [Backend B]

/-- **Each call keeps the record true**, and a failure of `apply` or `tick`, and `release_all`, leave the
Mac at rest. -/
theorem InjectorCore.good_call (core : InjectorCore (Poster B)) (h : core.input.Good) (call : PosterCall) :
    (core.call call).2.input.Good ∧ match call with
      | .apply .. | .tick _ => ∀ error, (core.call call).1 = .error error → (core.call call).2.input.AtRest
      | .releaseAll => (core.call call).2.input.AtRest
      | .moveTo _ => True := by
  cases call with
  | apply effects keyboard now =>
    have hbatch := Poster.carries_applyUnlocked effects (keyboard.getD core.nextKeyboard) now core.input h
    show (core.apply effects keyboard now).2.input.Good ∧ ∀ error,
      (core.apply effects keyboard now).1 = .error error → (core.apply effects keyboard now).2.input.AtRest
    unfold InjectorCore.apply
    dsimp only
    rcases hresult : applyUnlocked effects (keyboard.getD core.nextKeyboard) now core.input with ⟨result, p⟩
    rw [hresult] at hbatch
    cases result with
    | ok _ => exact ⟨hbatch, fun _ herror => by cases herror⟩
    | error _ => exact ⟨(Poster.releaseAll_atRest hbatch).1, fun _ _ => (Poster.releaseAll_atRest hbatch).2⟩
  | tick now => exact Poster.good_tick now h
  | moveTo point => exact ⟨Poster.good_moveTo point h, trivial⟩
  | releaseAll => exact Poster.releaseAll_atRest h

theorem Poster.good_new (backend : B) : (Poster.new backend).Good where
  legal := trivial
  shows_ := by
    refine ⟨fun code => ?_, fun code count hcount => ?_, fun key => ?_, fun button => ?_, fun due hdue => ?_⟩
    · exact iff_of_false Bool.false_ne_true Std.ExtTreeMap.not_mem_empty
    · have hcount' : (∅ : Std.ExtTreeMap Nat Nat)[code]? = some count := hcount
      simp at hcount'
    · refine iff_of_false Bool.false_ne_true ?_
      rintro ⟨usage, husage⟩
      have husage' : (∅ : Std.ExtTreeMap HidUsage Nat)[usage]? = some key := husage
      simp at husage'
    · exact iff_of_false Bool.false_ne_true Std.ExtTreeMap.not_mem_empty
    · cases hdue
  mediaKeys usage key hkey := by
    have hkey' : (∅ : Std.ExtTreeMap HidUsage Nat)[usage]? = some key := hkey
    simp at hkey'

theorem InjectorCore.good_ran (backend : B) (calls : List PosterCall) :
    (InjectorCore.ran backend calls).input.Good := by
  have hrun : ∀ (calls : List PosterCall) (core : InjectorCore (Poster B)), core.input.Good →
      (calls.foldl (fun core call => (core.call call).2) core).input.Good := by
    intro calls
    induction calls with
    | nil => exact fun _ h => h
    | cons call rest ih => exact fun core h => ih _ (core.good_call h call).1
  exact hrun calls _ (Poster.good_new backend)

/-- A batch in two parts. -/
theorem InjectorCore.effects_append (keyboard : KeyboardMode) (now : MonotonicTimeMicros)
    (batch rest : List ReceiverEffect) :
    (InjectorCore.effects keyboard now (batch ++ rest) : Act String (Poster B) Unit) =
      (InjectorCore.effects keyboard now batch >>= fun _ => InjectorCore.effects keyboard now rest) := by
  induction batch with
  | nil => rfl
  | cons effect batch ih =>
    show (InjectorCore.effect keyboard effect now >>= fun _ =>
      InjectorCore.effects keyboard now (batch ++ rest)) = _
    rw [ih]
    exact (Act.bind_assoc _ _ _).symm

/-- **The Mac injector leaves nothing stuck.** In every run of calls, with any effects, any answers of the
Mac and any posts failing: every event handed to the Mac so far was one the desk admits (downs and ups
alternate, a repeat is of the newest plain key, which is down, and the flags are those of the modifiers
down); and a failed `apply` or `tick`, a `release_all`, and a deactivation anywhere in a batch leave
nothing recorded and nothing down. -/
theorem injector_leaves_nothing_stuck (backend : B) (calls : List PosterCall) :
    let core := InjectorCore.ran backend calls
    (∀ before event after, core.input.posted = before ++ event :: after →
        desk.admits (desk.run Desk.clear before) event) ∧
      (∀ effects keyboard now error, (core.call (.apply effects keyboard now)).1 = .error error →
        (core.call (.apply effects keyboard now)).2.input.AtRest) ∧
      (∀ now error, (core.call (.tick now)).1 = .error error → (core.call (.tick now)).2.input.AtRest) ∧
      (core.call .releaseAll).2.input.AtRest ∧
      ∀ effects keyboard now session reason p,
        InjectorCore.effects keyboard now (effects ++ [.activationClosed session reason]) core.input =
          (.ok (), p) → p.AtRest := by
  intro core
  have h := InjectorCore.good_ran backend calls
  refine ⟨(desk.legal_iff_forall_split _ _).mp h.legal, ?_, ?_, ?_, ?_⟩
  · exact fun effects keyboard now => (core.good_call h (.apply effects keyboard now)).2
  · exact fun now => (core.good_call h (.tick now)).2
  · exact (core.good_call h .releaseAll).2
  · intro effects keyboard now session reason p hp
    rw [InjectorCore.effects_append] at hp
    obtain ⟨_, before, hbefore, hclosed⟩ := Act.bind_eq_ok.mp hp
    have hgood := Poster.carries_effects keyboard now effects core.input h
    rw [hbefore] at hgood
    have hreleased : before.releaseAll = p := congrArg Prod.snd hclosed
    exact hreleased ▸ (Poster.releaseAll_atRest hgood).2

end Zflow.Macos
