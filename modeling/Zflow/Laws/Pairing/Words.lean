import Mathlib.Data.List.Chain
import Zflow.Pairing.Hello

/-!
# Words with one blank between them

`joinWords` from the left: a word starts, and `continued` is what the text after one of its letters adds. So the words of a
text go on where a start of it ends (`joinWords_append`), and every start of them that ends in a letter is what a start of
the text gives (`exists_start`).
-/

namespace Zflow.Pairing

/-- What a text adds after a letter. -/
def continued : List Char → List Char
  | [] => []
  | c :: text => if c = ' ' then (if joinWords text = [] then [] else ' ' :: joinWords text) else c :: continued text

variable {text front rest word : List Char} {c : Char}

@[simp] theorem joinWords_nil : joinWords [] = [] := rfl

@[simp] theorem continued_nil : continued [] = [] := rfl

@[simp] theorem joinWords_blank (text : List Char) : joinWords (' ' :: text) = joinWords text := by
  unfold joinWords
  rw [List.splitOnP_cons_eq_if_modifyHead, if_pos (by decide), List.filter_cons_of_neg (by decide)]

@[simp] theorem continued_blank (text : List Char) :
    continued (' ' :: text) = if joinWords text = [] then [] else ' ' :: joinWords text := if_pos rfl

@[simp] theorem continued_letter (hc : c ≠ ' ') (text : List Char) : continued (c :: text) = c :: continued text :=
  if_neg hc

/-- The words of a text with its first one apart. -/
theorem exists_first_word (text : List Char) : ∃ first words, text.splitOnP (· = ' ') = first :: words :=
  List.exists_cons_of_ne_nil (List.splitOnP_ne_nil _ _)

theorem intercalate_eq_nil {words : List (List Char)} (hwords : ∀ word ∈ words, word ≠ []) :
    [' '].intercalate words = [] ↔ words = [] := by
  cases words with
  | nil => simp
  | cons word words =>
    have hword := hwords word List.mem_cons_self
    cases words with
    | nil => simpa using hword
    | cons next words => simp [List.intercalate_cons_cons, hword]

theorem continued_eq {first : List Char} {words : List (List Char)} (h : text.splitOnP (· = ' ') = first :: words) :
    continued text = first ++ if words.filter (· ≠ []) = [] then [] else ' ' :: [' '].intercalate (words.filter (· ≠ [])) := by
  induction text generalizing first words with
  | nil =>
    rw [List.splitOnP_nil] at h
    obtain ⟨rfl, rfl⟩ := List.cons.inj h
    rfl
  | cons d text ih =>
    rw [List.splitOnP_cons_eq_if_modifyHead] at h
    by_cases hd : d = ' '
    · obtain rfl := hd
      rw [if_pos (by decide)] at h
      obtain ⟨rfl, rfl⟩ := List.cons.inj h
      have hempty : joinWords text = [] ↔ (text.splitOnP (· = ' ')).filter (· ≠ []) = [] :=
        intercalate_eq_nil fun word hword => by simpa using (List.mem_filter.mp hword).2
      rw [continued_blank, List.nil_append]
      exact if_congr hempty rfl rfl
    · rw [if_neg (by simpa using hd)] at h
      obtain ⟨next, words', hnext⟩ := exists_first_word text
      rw [hnext] at h
      obtain ⟨rfl, rfl⟩ := List.cons.inj h
      rw [continued_letter hd, ih hnext, List.cons_append]

@[simp] theorem joinWords_letter (hc : c ≠ ' ') (text : List Char) : joinWords (c :: text) = c :: continued text := by
  obtain ⟨first, words, h⟩ := exists_first_word text
  have hsplit : (c :: text).splitOnP (· = ' ') = (c :: first) :: words := by
    rw [List.splitOnP_cons_eq_if_modifyHead, if_neg (by simpa using hc), h, List.modifyHead_cons]
  rw [continued_eq h]
  unfold joinWords
  rw [hsplit, List.filter_cons_of_pos (by simp)]
  split
  · rename_i hnil
    rw [hnil, List.intercalate_singleton, List.append_nil]
  · rename_i hne
    rw [List.intercalate_cons_of_ne_nil hne]
    simp

/-! ## Words spaced by one blank -/

/-- No blank at an end, and none after a blank. -/
structure Spaced (name : List Char) : Prop where
  head : name.head? ≠ some ' '
  last : name.getLast? ≠ some ' '
  single : name.IsChain fun a b => a = ' ' → b ≠ ' '

theorem joinWords_eq_nil : joinWords text = [] ↔ ∀ c ∈ text, c = ' ' := by
  induction text with
  | nil => simp
  | cons c text ih =>
    by_cases hc : c = ' '
    · obtain rfl := hc
      rw [joinWords_blank, ih, List.forall_mem_cons]
      exact (and_iff_right rfl).symm
    · simp [joinWords_letter hc, hc]

theorem mem_joinWords (text : List Char) : (∀ c ∈ joinWords text, c ∈ text) ∧ ∀ c ∈ continued text, c ∈ text := by
  induction text with
  | nil => exact ⟨fun _ h => h, fun _ h => h⟩
  | cons d text ih =>
    obtain ⟨hjoined, hcontinued⟩ := ih
    by_cases hd : d = ' '
    · obtain rfl := hd
      rw [joinWords_blank, continued_blank]
      refine ⟨fun c hc => List.mem_cons_of_mem _ (hjoined c hc), fun c hc => ?_⟩
      split at hc
      · cases hc
      · rcases List.mem_cons.mp hc with rfl | hc
        · exact List.mem_cons_self
        · exact List.mem_cons_of_mem _ (hjoined c hc)
    · rw [joinWords_letter hd, continued_letter hd]
      have hboth : ∀ c ∈ d :: continued text, c ∈ d :: text := fun c hc =>
        (List.mem_cons.mp hc).elim (fun h => h ▸ List.mem_cons_self) fun h => List.mem_cons_of_mem _ (hcontinued c h)
      exact ⟨hboth, hboth⟩

theorem getLast?_cons_ne {d : Char} (hd : d ≠ ' ') (h : text.getLast? ≠ some ' ') : (d :: text).getLast? ≠ some ' ' := by
  cases text with
  | nil => simpa using hd
  | cons e text => rwa [List.getLast?_cons_cons]

/-- What is joined is spaced, and what goes on after a letter is but for a blank at its start. -/
theorem spaced_both (text : List Char) : Spaced (joinWords text) ∧ (continued text).getLast? ≠ some ' ' ∧
    (continued text).IsChain fun a b => a = ' ' → b ≠ ' ' := by
  induction text with
  | nil => exact ⟨⟨by simp, by simp, by simp⟩, by simp, by simp⟩
  | cons c text ih =>
    obtain ⟨hjoined, hlast, hsingle⟩ := ih
    by_cases hc : c = ' '
    · obtain rfl := hc
      rw [joinWords_blank, continued_blank]
      refine ⟨hjoined, ?_⟩
      split
      · exact ⟨by simp, by simp⟩
      · rename_i hne
        obtain ⟨d, words, hwords⟩ := List.exists_cons_of_ne_nil hne
        rw [hwords, List.getLast?_cons_cons]
        rw [hwords] at hjoined
        refine ⟨hjoined.last, List.isChain_cons_cons.mpr ⟨fun _ hd => hjoined.head ?_, hjoined.single⟩⟩
        rw [hd]
        rfl
    · rw [joinWords_letter hc, continued_letter hc]
      have hcons : (c :: continued text).getLast? ≠ some ' ' := getLast?_cons_ne hc hlast
      have hchain : (c :: continued text).IsChain fun a b => a = ' ' → b ≠ ' ' :=
        List.isChain_cons.mpr ⟨fun _ _ hblank => absurd hblank hc, hsingle⟩
      exact ⟨⟨by simpa using hc, hcons, hchain⟩, hcons, hchain⟩

theorem spaced_joinWords (text : List Char) : Spaced (joinWords text) := (spaced_both text).1

/-- What is spaced already stays as it is. -/
theorem joined_both (text : List Char) (hlast : text.getLast? ≠ some ' ')
    (hsingle : text.IsChain fun a b => a = ' ' → b ≠ ' ') :
    (text.head? ≠ some ' ' → joinWords text = text) ∧ continued text = text := by
  induction text with
  | nil => exact ⟨fun _ => rfl, rfl⟩
  | cons c text ih =>
    have htail : text.getLast? ≠ some ' ' := by
      cases text with
      | nil => simp
      | cons d text => rwa [List.getLast?_cons_cons] at hlast
    obtain ⟨hjoined, hcontinued⟩ := ih htail (List.isChain_cons.mp hsingle).2
    by_cases hc : c = ' '
    · obtain rfl := hc
      refine ⟨fun h => absurd rfl h, ?_⟩
      have hhead : text.head? ≠ some ' ' := fun h => (List.isChain_cons.mp hsingle).1 ' ' h rfl rfl
      have hne : text ≠ [] := fun hnil => hlast (by rw [hnil]; rfl)
      rw [continued_blank, hjoined hhead, if_neg hne]
    · rw [joinWords_letter hc, continued_letter hc, hcontinued]
      exact ⟨fun _ => rfl, rfl⟩

theorem Spaced.joinWords_eq (h : Spaced text) : joinWords text = text := (joined_both text h.last h.single).1 h.head

/-- A start of a spaced text is spaced, where it does not end in a blank. -/
theorem Spaced.of_start (h : Spaced text) (hstart : front <+: text) (hlast : front.getLast? ≠ some ' ') :
    Spaced front where
  head hhead := by
    obtain ⟨rest, rfl⟩ := hstart
    cases front with
    | nil => cases hhead
    | cons c front => exact h.head hhead
  last := hlast
  single := h.single.prefix hstart

/-! ## Starts of a text -/

theorem append_both (hc : c ≠ ' ') (front rest : List Char) :
    joinWords (front ++ c :: rest) = joinWords (front ++ [c]) ++ continued rest ∧
      continued (front ++ c :: rest) = continued (front ++ [c]) ++ continued rest := by
  induction front with
  | nil => simp [hc]
  | cons d front ih =>
    obtain ⟨hjoined, hcontinued⟩ := ih
    by_cases hd : d = ' '
    · obtain rfl := hd
      have hne : joinWords (front ++ [c]) ≠ [] := fun hnil => hc (joinWords_eq_nil.mp hnil c (by simp))
      simp [hjoined, hne]
    · simp [hd, hcontinued]

/-- **The words go on where a start of the text ends in a letter.** -/
theorem joinWords_append (hc : c ≠ ' ') (front rest : List Char) :
    joinWords (front ++ c :: rest) = joinWords (front ++ [c]) ++ continued rest :=
  (append_both hc front rest).1

theorem start_both (text : List Char) (start : List Char) (hc : c ≠ ' ') :
    (start ++ [c] <+: joinWords text → ∃ front rest, text = front ++ c :: rest ∧ joinWords (front ++ [c]) = start ++ [c]) ∧
      (start ++ [c] <+: continued text →
        ∃ front rest, text = front ++ c :: rest ∧ continued (front ++ [c]) = start ++ [c]) := by
  induction text generalizing start with
  | nil => exact ⟨fun h => by simpa using h.length_le, fun h => by simpa using h.length_le⟩
  | cons d text ih =>
    by_cases hd : d = ' '
    · obtain rfl := hd
      refine ⟨fun h => ?_, fun h => ?_⟩
      · rw [joinWords_blank] at h
        obtain ⟨front, rest, rfl, hfront⟩ := (ih start).1 h
        exact ⟨' ' :: front, rest, rfl, by rw [List.cons_append, joinWords_blank, hfront]⟩
      · rw [continued_blank] at h
        split at h
        · simpa using h.length_le
        · cases start with
          | nil => exact absurd (List.cons_prefix_cons.mp h).1 hc
          | cons e start =>
            obtain ⟨rfl, hstart⟩ := List.cons_prefix_cons.mp h
            obtain ⟨front, rest, rfl, hfront⟩ := (ih start).1 hstart
            refine ⟨' ' :: front, rest, rfl, ?_⟩
            rw [List.cons_append, continued_blank, hfront, if_neg (by simp), List.cons_append]
    · rw [joinWords_letter hd, continued_letter hd]
      have hstart : start ++ [c] <+: d :: continued text → ∃ front rest, d :: text = front ++ c :: rest ∧
          joinWords (front ++ [c]) = start ++ [c] ∧ continued (front ++ [c]) = start ++ [c] := by
        intro h
        cases start with
        | nil =>
          obtain ⟨rfl, -⟩ := List.cons_prefix_cons.mp h
          exact ⟨[], text, rfl, by simp [hd]⟩
        | cons e start =>
          obtain ⟨rfl, hstart⟩ := List.cons_prefix_cons.mp h
          obtain ⟨front, rest, rfl, hfront⟩ := (ih start).2 hstart
          exact ⟨e :: front, rest, rfl, by simp [hd, hfront]⟩
      refine ⟨fun h => ?_, fun h => ?_⟩
      · obtain ⟨front, rest, heq, hjoined, -⟩ := hstart h
        exact ⟨front, rest, heq, hjoined⟩
      · obtain ⟨front, rest, heq, -, hcontinued⟩ := hstart h
        exact ⟨front, rest, heq, hcontinued⟩

/-- **A start of the words that ends in a letter** is what a start of the text gives. -/
theorem exists_start (hc : c ≠ ' ') {start : List Char} (h : start ++ [c] <+: joinWords text) :
    ∃ front rest, text = front ++ c :: rest ∧ joinWords (front ++ [c]) = start ++ [c] :=
  (start_both text start hc).1 h

/-! ## The last word -/

/-- A text that ends in a word is joined to one that does. -/
theorem word_both (hword : ∀ c ∈ word, c ≠ ' ') (front : List Char) :
    word <:+ joinWords (front ++ word) ∧ word <:+ continued (front ++ word) := by
  induction front with
  | nil =>
    have hcontinued : continued word = word := by
      induction word with
      | nil => rfl
      | cons c word ih =>
        obtain ⟨hc, hword⟩ := List.forall_mem_cons.mp hword
        rw [continued_letter hc, ih hword]
    cases word with
    | nil => exact ⟨List.nil_suffix, List.nil_suffix⟩
    | cons c word =>
      have hc := hword c List.mem_cons_self
      rw [List.nil_append, hcontinued, joinWords_letter hc, ← continued_letter hc, hcontinued]
      exact ⟨List.suffix_rfl, List.suffix_rfl⟩
  | cons d front ih =>
    by_cases hd : d = ' '
    · obtain rfl := hd
      rw [List.cons_append, joinWords_blank, continued_blank]
      refine ⟨ih.1, ?_⟩
      split
      · rename_i hnil
        rw [hnil] at ih
        exact ih.1
      · exact ih.1.trans (List.suffix_cons _ _)
    · rw [List.cons_append, joinWords_letter hd, continued_letter hd]
      exact ⟨ih.2.trans (List.suffix_cons _ _), ih.2.trans (List.suffix_cons _ _)⟩

theorem suffix_joinWords (hword : ∀ c ∈ word, c ≠ ' ') (h : word <:+ text) : word <:+ joinWords text := by
  obtain ⟨front, rfl⟩ := h
  exact (word_both hword front).1

theorem after_blank_both (hc : c ≠ ' ') (front : List Char) :
    (∃ before, joinWords (front ++ [' ', c]) = before ++ [c] ∧ ∀ d, before.getLast? = some d → d = ' ') ∧
      ∃ before, continued (front ++ [' ', c]) = before ++ [c] ∧ before.getLast? = some ' ' := by
  induction front with
  | nil => exact ⟨⟨[], by simp [hc], by simp⟩, ⟨[' '], by simp [hc], rfl⟩⟩
  | cons e front ih =>
    obtain ⟨⟨before, hjoined, hlast⟩, ⟨before', hcontinued, hlast'⟩⟩ := ih
    have hne' : before' ≠ [] := by
      rintro rfl
      cases hlast'
    by_cases he : e = ' '
    · obtain rfl := he
      refine ⟨⟨before, by rw [List.cons_append, joinWords_blank, hjoined], hlast⟩, ' ' :: before, ?_, ?_⟩
      · rw [List.cons_append, continued_blank, hjoined, if_neg (by simp), List.cons_append]
      · cases before with
        | nil => rfl
        | cons d before =>
          rw [List.getLast?_cons_cons, List.getLast?_eq_some_getLast (by simp)]
          exact congrArg some (hlast _ (List.getLast?_eq_some_getLast (by simp)))
    · have hletter : (e :: before').getLast? = some ' ' := by
        obtain ⟨d, rest, rfl⟩ := List.exists_cons_of_ne_nil hne'
        rwa [List.getLast?_cons_cons]
      have hends : ∀ d, (e :: before').getLast? = some d → d = ' ' := fun d hd =>
        Option.some.inj (hd.symm.trans hletter)
      refine ⟨⟨e :: before', ?_, hends⟩, e :: before', ?_, hletter⟩
      · rw [List.cons_append, joinWords_letter he, hcontinued, List.cons_append]
      · rw [List.cons_append, continued_letter he, hcontinued, List.cons_append]

/-- **A word at the end of what is joined** is at the end of the text, where the text ends in a letter. -/
theorem suffix_of_joinWords (hc : c ≠ ' ') (hword : ∀ d ∈ word, d ≠ ' ') (h : word <:+ joinWords (front ++ [c])) :
    word <:+ front ++ [c] := by
  induction word using List.reverseRecOn generalizing front c with
  | nil => exact List.nil_suffix
  | append_singleton word d ih =>
    obtain ⟨hword, hd⟩ := List.forall_mem_append.mp hword
    -- the letter at the end, and what is joined before it
    have hsplit : ∃ before, joinWords (front ++ [c]) = before ++ [c] ∧
        (word ≠ [] → word <:+ before → word <:+ front) := by
      rcases List.eq_nil_or_concat front with rfl | ⟨front, e, rfl⟩
      · exact ⟨[], by simp [hc], fun hne hsuffix => absurd (List.suffix_nil.mp hsuffix) hne⟩
      rw [List.concat_eq_append, List.append_assoc]
      by_cases he : e = ' '
      · obtain rfl := he
        obtain ⟨⟨before, hjoined, hlast⟩, -⟩ := after_blank_both hc front
        refine ⟨before, hjoined, fun hne hsuffix => ?_⟩
        have hlonger : before ≠ [] := fun hnil => hne (List.suffix_nil.mp (hnil ▸ hsuffix))
        have hblank := hlast _ (List.getLast?_eq_some_getLast hlonger)
        rw [← hsuffix.getLast hne] at hblank
        exact absurd hblank (hword _ (List.getLast_mem hne))
      · refine ⟨joinWords (front ++ [e]), ?_, fun _ hsuffix => ih he hword hsuffix⟩
        have happend := joinWords_append he front [c]
        rwa [continued_letter hc] at happend
    obtain ⟨before, hbefore, hgo⟩ := hsplit
    rw [hbefore] at h
    obtain ⟨start, hstart⟩ := h
    rw [← List.append_assoc] at hstart
    obtain ⟨hinit, hlast⟩ := List.append_inj' hstart rfl
    obtain rfl := List.head_eq_of_cons_eq hlast
    by_cases hnil : word = []
    · obtain rfl := hnil
      exact List.suffix_append _ _
    · obtain ⟨pre, hpre⟩ := hgo hnil ⟨start, hinit⟩
      exact ⟨pre, by rw [← hpre, List.append_assoc]⟩

end Zflow.Pairing
