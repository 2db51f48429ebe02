import Zflow.Pairing.Window

/-!
# The pairing window opens once, and names only a lone stranger

An eligible window in memory means that the file reads `eligible`, and while it does the window has
not opened since it was marked: so a mark is good for one open period, in every run. That the window
stays closed rests on its file. A failed save is only logged, so a window closed while the file reads
`eligible` is eligible again after a restart (`reopens`), and the law is about the runs in which such
a closing is saved (`Lasting`).
-/

namespace Zflow.Pairing

open Lib

namespace PairingWindow

variable {window : PairingWindow} {file : File} {save : Save} {now : Instant}

/-! ## What each operation does -/

theorem isOpen_iff : window.isOpen = true ↔ ∃ until_, window.phase = .opened until_ := by
  unfold isOpen
  cases hphase : window.phase with
  | opened until_ => simp
  | _ => simp

theorem isOpen_of_opened {until_ : Instant} (h : window.phase = .opened until_) : window.isOpen = true :=
  isOpen_iff.mpr ⟨until_, h⟩

theorem isOpen_of_eligible (h : window.phase = .eligible) : window.isOpen = false := by
  unfold isOpen
  rw [h]

/-- **What an operation does** to the window and its file: it closes, opens or fails to open. -/
inductive Does (window : PairingWindow) (file : File) (save : Save) (now : Instant) (closes : Bool) :
    PairingWindow × File → Prop
  | nothing (hcloses : closes = false) : Does window file save now closes (window, file)
  | closed (reason : Reason) (hcloses : closes = true) :
    Does window file save now closes (window.close reason save file)
  | opened (since : Nat) (hcloses : closes = false) (heligible : window.phase = .eligible) :
    Does window file save now closes
      ({ window with phase := .opened (now + openFor) }, some ["open", toString since])
  | shut (since : Nat) (hcloses : closes = false) (heligible : window.phase = .eligible) :
    Does window file save now closes
      ({ window with phase := .never }, saveText save ["open", toString since] file)

theorem open_does (hasPeers : Bool) (since : Nat) :
    Does window file save now (hasPeers && decide (window.phase = .eligible))
      (window.open_ hasPeers since now save file) := by
  unfold open_
  by_cases heligible : window.phase = .eligible
  · rw [if_neg (not_not_intro heligible)]
    cases hasPeers with
    | true =>
      rw [if_pos rfl]
      exact .closed .hadPeers (by simp [heligible])
    | false =>
      rw [if_neg Bool.false_ne_true]
      cases save with
      | saved => exact .opened since rfl heligible
      | failed => exact .shut since rfl heligible
      | unsynced => exact .shut since rfl heligible
  · rw [if_pos heligible]
    exact .nothing (by simp [heligible])

theorem placed_does : Does window file save now (decide (window.phase = .eligible) || window.isOpen)
      (window.placed save file) := by
  unfold placed isOpen
  cases hphase : window.phase with
  | eligible => exact .closed .accepted rfl
  | opened until_ => exact .closed .accepted rfl
  | never => exact .nothing rfl
  | closed reason => exact .nothing rfl

theorem notAdded_does : Does window file save now window.isOpen (window.notAdded save file) := by
  unfold notAdded isOpen
  cases hphase : window.phase with
  | opened until_ => exact .closed .failed rfl
  | _ => exact .nothing rfl

end PairingWindow

/-! ## The candidate -/

/-- `s` is the only stranger, it may join, and nobody else might be around. -/
structure Strangers.Lone (strangers : Strangers) (s : Stranger) : Prop where
  only : strangers.present = [s]
  identified : strangers.unidentified = 0
  nobodyTurnedAway : strangers.turnedAway = false
  answered : s.answered = true
  fresh : s.fresh = true
  unique : s.duplicateName = false

namespace PairingWindow

variable {window : PairingWindow} {file : File} {save : Save} {now : Instant}

theorem lone_of_candidate {strangers : Strangers} {s : Stranger} (h : candidate strangers = some s)
    (hturned : strangers.turnedAway = false) : strangers.Lone s := by
  unfold candidate at h
  split at h
  · rename_i only hpresent
    split at h
    · rename_i hcandidate
      cases h
      obtain ⟨hunidentified, hanswered, hfresh, hduplicate⟩ := hcandidate
      exact ⟨hpresent, hunidentified, hturned, hanswered, hfresh, by simpa using hduplicate⟩
    · cases h
  · cases h

/-- Whoever is held is the candidate, and is held since now or was held before. -/
theorem hold_cases {cand : Option Stranger} {s : Stranger} {since : Instant}
    (h : window.hold cand now = some (s, since)) :
    cand = some s ∧ (since = now ∨ window.holding = some (s, since)) := by
  unfold hold at h
  split at h
  · rename_i hsame
    rw [h] at hsame
    exact ⟨(of_decide_eq_true hsame).symm, .inr h⟩
  · cases cand with
    | none => cases h
    | some other =>
      cases h
      exact ⟨rfl, .inl rfl⟩

/-- **What a tick does**: it closes the window, weighs who is around or, on a window that is not open,
does nothing. -/
theorem tick_cases (window : PairingWindow) (strangers : Strangers) (now : Instant) (save : Save) (file : File) :
    (∃ until_ reason, window.phase = .opened until_ ∧
        (until_ ≤ now ∨ 1 < strangers.present.length ∨ strangers.turnedAway = true) ∧
        window.tick strangers now save file = (window.close reason save file, none)) ∨
      (∃ until_, window.phase = .opened until_ ∧ now < until_ ∧
        ¬(1 < strangers.present.length ∨ strangers.turnedAway = true) ∧ window.tick strangers now save file =
          (({ window with holding := window.hold (candidate strangers) now }, file),
            (window.hold (candidate strangers) now).bind fun held =>
              if now - held.2 < holdOff then none else some held.1)) ∨
      window.isOpen = false ∧ window.tick strangers now save file = ((window, file), none) := by
  unfold tick
  cases hphase : window.phase with
  | opened until_ =>
    by_cases hexpired : until_ ≤ now
    · exact .inl ⟨until_, .expired, rfl, .inl hexpired, if_pos hexpired⟩
    · by_cases hrival : 1 < strangers.present.length ∨ strangers.turnedAway = true
      · exact .inl ⟨until_, .rival, rfl, .inr hrival, by simp only [if_neg hexpired, if_pos hrival]⟩
      · exact .inr (.inl ⟨until_, rfl, Nat.lt_of_not_le hexpired, hrival,
          by simp only [if_neg hexpired, if_neg hrival]⟩)
  | _ => exact .inr (.inr ⟨by simp [isOpen, hphase], rfl⟩)

end PairingWindow

namespace PairingWindow

variable {window : PairingWindow} {file : File} {save : Save}

/-- **What a load does**: it closes a window left open, or reads the file and leaves it. -/
theorem load_cases (readable : Bool) (save : Save) (file : File) :
    (readable && decide ((file.getD []).head? = some "open")) = true ∧
        load readable save file = (⟨.never, none⟩ : PairingWindow).close .restarted save file ∨
      (readable && decide ((file.getD []).head? = some "open")) = false ∧
        ∃ phase, load readable save file = (⟨phase, none⟩, file) ∧ (∀ until_, phase ≠ .opened until_) ∧
          (phase = .eligible → file = some ["eligible"]) := by
  unfold load
  cases readable with
  | false => exact .inr ⟨rfl, .never, rfl, nofun, nofun⟩
  | true =>
    simp only [Bool.true_and, decide_eq_true_eq, decide_eq_false_iff_not, if_true]
    split
    · rename_i htext
      cases hfile : file with
      | none => simp [hfile] at htext
      | some text =>
        obtain rfl : text = ["eligible"] := by simpa [hfile] using htext
        exact .inr ⟨by simp, .eligible, rfl, nofun, fun _ => rfl⟩
    · rename_i rest htext
      exact .inl ⟨by rw [htext]; rfl, rfl⟩
    · rename_i reason htext
      exact .inr ⟨by rw [htext]; simp, _, rfl, nofun, nofun⟩
    · rename_i htext hopen hclosed
      refine .inr ⟨?_, .never, rfl, nofun, nofun⟩
      cases heq : file.getD [] with
      | nil => simp
      | cons word rest =>
        intro hword
        obtain rfl : word = "open" := by simpa using hword
        exact hopen rest heq

end PairingWindow

namespace World

variable {w w' : World} {label : Label} {window : PairingWindow} {save : Save}
  {result : PairingWindow × File}

/-! ## What each step does -/

theorem isOpen_eq (hwindow : w.window = some window) : w.isOpen = window.isOpen := by
  rw [World.isOpen, hwindow, Option.any_some]

/-- A step keeps the number of open periods, unless the window was not open and is open after it. -/
theorem after_not_opens (w : World) (label : Label) (result : Option PairingWindow × File)
    (hopen : result.1.any (·.isOpen) = true → w.isOpen = true) (joining : Option Stranger) :
    (w.after label result joining).ledger =
      { w.ledger with
        closed := w.ledger.closed || w.closes label
        ticks := w.ledger.ticks ++ label.around.map (·, w.now)
        joining } := by
  have hopens : (!w.isOpen && result.1.any (·.isOpen)) = false := by
    cases hafter : result.1.any (·.isOpen) with
    | false => exact Bool.and_false _
    | true => rw [hopen hafter]; rfl
  simp [after, hopens]

theorem after_opens (w : World) (label : Label) (result : Option PairingWindow × File)
    (hopen : result.1.any (·.isOpen) = true) (hbefore : w.isOpen = false) (joining : Option Stranger) :
    (w.after label result joining).ledger =
      { w.ledger with
        opened := w.ledger.opened + 1
        closed := w.ledger.closed || w.closes label
        reopened := w.ledger.reopened || w.ledger.closed
        openedAt := w.now
        ticks := w.ledger.ticks ++ label.around.map (·, w.now)
        joining } := by
  simp [after, hopen, hbefore]

/-- **What a step does**: time passes, the file is marked, the program starts or stops, or something is
done to the window. -/
inductive Takes (w : World) (label : Label) : World → Prop
  | wait (elapsed : Nat) (hcloses : w.closes label = false) : Takes w label
      { w with now := w.now + elapsed, ledger := { w.ledger with joining := none } }
  | marked (hcloses : w.closes label = false) : Takes w label
      { w with
        file := some ["eligible"]
        ledger := { w.ledger with joining := none, marked := true, opened := 0, closed := false } }
  /-- The program starts or stops, and the file stays. -/
  | fresh (window : Option PairingWindow) (hcloses : w.closes label = false)
      (hfresh : ∀ fresh, window = some fresh → fresh.holding = none ∧ fresh.isOpen = false ∧
        (fresh.phase = .eligible → w.file = some ["eligible"])) :
      Takes w label (w.after label (window, w.file) none)
  | closed (reason : Reason) (hcloses : w.closes label = true) :
      Takes w label
        (w.after label
          (some ⟨.closed reason, none⟩, saveText label.save ["closed", reason.name] w.file) none)
  | nothing {window : PairingWindow} (hwindow : w.window = some window)
      (hcloses : w.closes label = false) (haround : label.around = [] ∨ window.isOpen = false) :
      Takes w label (w.after label (some window, w.file) none)
  | opened {window : PairingWindow} (since : Nat) (hwindow : w.window = some window)
      (hcloses : w.closes label = false) (heligible : window.phase = .eligible) :
      Takes w label
        (w.after label
          (some { window with phase := .opened (w.now + openFor) }, some ["open", toString since]) none)
  | shut {window : PairingWindow} (since : Nat) (hwindow : w.window = some window)
      (hcloses : w.closes label = false) (heligible : window.phase = .eligible) :
      Takes w label
        (w.after label
          (some { window with phase := .never }, saveText label.save ["open", toString since] w.file)
          none)
  /-- A tick of an open window weighs who is around. -/
  | held {window : PairingWindow} {until_ : Instant} (strangers : Strangers)
      (hwindow : w.window = some window) (hopen : window.phase = .opened until_)
      (hcloses : w.closes label = false) (hinTime : w.now < until_)
      (haround : label.around = [strangers]) (hturned : strangers.turnedAway = false) :
      Takes w label
        (w.after label
          (some { window with holding := window.hold (PairingWindow.candidate strangers) w.now }, w.file)
          ((window.hold (PairingWindow.candidate strangers) w.now).bind fun held =>
            if w.now - held.2 < holdOff then none else some held.1))

theorem takes_does (hwindow : w.window = some window)
    (hdoes : window.Does w.file label.save w.now (w.closes label) result) (haround : label.around = []) :
    w.Takes label (w.after label (some result.1, result.2) none) := by
  cases hdoes with
  | nothing hcloses => exact .nothing hwindow hcloses (.inl haround)
  | closed reason hcloses => exact .closed reason hcloses
  | opened since hcloses heligible => exact .opened since hwindow hcloses heligible
  | shut since hcloses heligible => exact .shut since hwindow hcloses heligible

theorem takes_withWindow {operation : PairingWindow → File → PairingWindow × File} (haround : label.around = [])
    (hdoes : ∀ window, w.window = some window →
      window.Does w.file label.save w.now (w.closes label) (operation window w.file))
    (h : w.withWindow label operation = some w') : w.Takes label w' := by
  obtain ⟨window, hwindow, rfl⟩ := Option.map_eq_some_iff.mp h
  exact takes_does hwindow (hdoes window hwindow) haround

theorem takes_tick (strangers : Strangers) (save : Save) (hwindow : w.window = some window) :
    w.Takes (.tick strangers save) (w.after (.tick strangers save)
        (some (window.tick strangers w.now save w.file).1.1, (window.tick strangers w.now save w.file).1.2)
        (window.tick strangers w.now save w.file).2) := by
  rcases window.tick_cases strangers w.now save w.file with
    ⟨until_, reason, hphase, hends, heq⟩ | ⟨until_, hphase, hinTime, hcalm, heq⟩ | ⟨hshut, heq⟩
  · rw [heq]
    refine .closed reason ?_
    simpa [closes, hwindow, hphase, or_assoc] using hends
  · rw [heq]
    have hturned : strangers.turnedAway = false := by simpa using fun h => hcalm (.inr h)
    have hcloses : w.closes (.tick strangers save) = false := by
      simp only [not_or] at hcalm
      simp [closes, hwindow, hphase, hturned, Nat.not_le.mpr hinTime, hcalm.1]
    exact .held strangers hwindow hphase hcloses hinTime rfl hturned
  · rw [heq]
    refine .nothing hwindow ?_ (.inr hshut)
    cases hphase : window.phase with
    | opened until_ => simp [PairingWindow.isOpen, hphase] at hshut
    | _ => simp [closes, hwindow, hphase]

theorem takes_load (readable : Bool) (save : Save) : w.Takes (.load readable save) (w.after (.load readable save)
        (some (PairingWindow.load readable save w.file).1, (PairingWindow.load readable save w.file).2) none) := by
  rcases PairingWindow.load_cases readable save w.file with
    ⟨hcloses, heq⟩ | ⟨hcloses, phase, heq, hopen, heligible⟩
  · rw [heq]
    exact .closed .restarted hcloses
  · rw [heq]
    refine .fresh (some ⟨phase, none⟩) hcloses ?_
    intro fresh hfresh
    cases hfresh
    refine ⟨rfl, ?_, heligible⟩
    rw [Bool.eq_false_iff]
    intro h
    obtain ⟨until_, huntil⟩ := PairingWindow.isOpen_iff.mp h
    exact hopen until_ huntil

theorem step_takes (h : step label w = some w') : w.Takes label w' := by
  cases label with
  | wait elapsed =>
    cases h
    exact .wait elapsed rfl
  | markEligible save =>
    cases h
    cases hreaches : save.reaches with
    | true =>
      simpa [PairingWindow.markEligible, saveText, hreaches] using (Takes.marked rfl : w.Takes (.markEligible save) _)
    | false =>
      simpa [PairingWindow.markEligible, saveText, hreaches] using (Takes.wait 0 rfl : w.Takes (.markEligible save) _)
  | load readable save =>
    cases h
    exact takes_load readable save
  | stop =>
    cases h
    exact .fresh none rfl fun _ hnone => by cases hnone
  | open_ hasPeers since save =>
    simp only [step] at h
    refine takes_withWindow rfl (fun window hwindow => ?_) h
    have hcloses : w.closes (.open_ hasPeers since save) = (hasPeers && decide (window.phase = .eligible)) := by
      simp [closes, hwindow]
    rw [hcloses]
    exact PairingWindow.open_does hasPeers since
  | placed save =>
    simp only [step] at h
    refine takes_withWindow rfl (fun window hwindow => ?_) h
    have hcloses : w.closes (.placed save) = (decide (window.phase = .eligible) || window.isOpen) := by
      simp [closes, hwindow]
    rw [hcloses]
    exact PairingWindow.placed_does
  | notAdded save =>
    simp only [step] at h
    refine takes_withWindow rfl (fun window hwindow => ?_) h
    have hcloses : w.closes (.notAdded save) = window.isOpen := by
      simp [closes, hwindow]
    rw [hcloses]
    exact PairingWindow.notAdded_does
  | close reason save =>
    simp only [step] at h
    refine takes_withWindow rfl (fun window hwindow => ?_) h
    exact .closed reason (by simp [closes, hwindow])
  | tick strangers save =>
    obtain ⟨window, hwindow, rfl⟩ := Option.map_eq_some_iff.mp h
    exact takes_tick strangers save hwindow

/-! ## One open period for each mark -/

theorem saveText_eligible {save : Save} {text : List String} {file : File} (htext : text ≠ ["eligible"])
    (h : saveText save text file = some ["eligible"]) : save.reaches = false ∧ file = some ["eligible"] := by
  unfold saveText at h
  split at h
  · exact absurd (Option.some.inj h) htext
  · rename_i hreaches
    exact ⟨by simpa using hreaches, h⟩

/-- **What holds of the mark**: while the file reads `eligible`, it is good for an open period yet. -/
structure Chance (w : World) : Prop where
  unused : w.file = some ["eligible"] → w.ledger.marked = true ∧ w.ledger.opened = 0
  eligible : ∀ window, w.window = some window → window.phase = .eligible → w.file = some ["eligible"]
  once : w.ledger.opened ≤ w.ledger.marked.toNat

namespace Chance

theorem start (file : File) (now : Instant) : Chance (World.start file now) where
  unused hfile := ⟨decide_eq_true hfile, rfl⟩
  eligible _ hnone := by cases hnone
  once := Nat.zero_le _

/-- A step that does not open the window keeps what holds. -/
theorem after (h : Chance w) {result : Option PairingWindow × File} (joining : Option Stranger)
    (hopen : result.1.any (·.isOpen) = true → w.isOpen = true)
    (hfile : result.2 = some ["eligible"] → w.file = some ["eligible"])
    (heligible : ∀ window, result.1 = some window → window.phase = .eligible →
      result.2 = some ["eligible"]) : Chance (w.after label result joining) := by
  have hledger := after_not_opens w label result hopen joining
  refine ⟨?_, heligible, ?_⟩
  · rw [hledger]
    exact fun hafter => h.unused (hfile hafter)
  · rw [hledger]
    exact h.once

theorem takes (h : Chance w) (ht : w.Takes label w') : Chance w' := by
  cases ht with
  | wait elapsed _ => exact ⟨h.unused, h.eligible, h.once⟩
  | marked _ => exact ⟨fun _ => ⟨rfl, rfl⟩, fun _ _ _ => rfl, Nat.zero_le 1⟩
  | fresh window _ hfresh =>
    refine h.after none ?_ id fun fresh heq => (hfresh fresh heq).2.2
    intro hopen
    obtain ⟨fresh, heq, hfreshOpen⟩ := (Option.any_eq_true _ _).mp hopen
    rw [(hfresh fresh heq).2.1] at hfreshOpen
    cases hfreshOpen
  | closed reason _ =>
    refine h.after none nofun (fun hfile => (saveText_eligible (by simp) hfile).2) ?_
    intro window heq hphase
    cases heq
    cases hphase
  | nothing hwindow _ _ =>
    refine h.after none (fun hopen => ?_) id fun window heq => h.eligible window (hwindow.trans heq)
    unfold World.isOpen
    rwa [hwindow]
  | @opened window since hwindow _ heligible =>
    have hbefore : w.isOpen = false :=
      (isOpen_eq hwindow).trans (PairingWindow.isOpen_of_eligible heligible)
    obtain ⟨hmarked, hunused⟩ := h.unused (h.eligible window hwindow heligible)
    have hledger := after_opens w label
      (some { window with phase := .opened (w.now + openFor) }, some ["open", toString since]) rfl hbefore none
    refine ⟨?_, ?_, ?_⟩
    · intro hfile
      exact absurd (Option.some.inj hfile) (by simp)
    · intro after heq hphase
      cases heq
      cases hphase
    · rw [hledger]
      show w.ledger.opened + 1 ≤ w.ledger.marked.toNat
      rw [hmarked, hunused]
      exact Nat.le_refl 1
  | shut since _ _ _ =>
    refine h.after none nofun (fun hfile => (saveText_eligible (by simp) hfile).2) ?_
    intro window heq hphase
    cases heq
    cases hphase
  | held strangers hwindow hopen _ _ _ _ =>
    refine h.after _ (fun _ => ?_) id ?_
    · exact (isOpen_eq hwindow).trans (PairingWindow.isOpen_of_opened hopen)
    · intro window heq hphase
      cases heq
      rw [hopen] at hphase
      cases hphase

end Chance

/-- **A mark is good for one open period**, in every run. -/
theorem chance_of_reaches {calm : World → Label → Prop} {file : File} {now : Instant}
    (h : System.Reaches step calm (World.start file now) w) : Chance w :=
  h.invariant (Chance.start file now) fun _ _ _ hs _ hstep => hs.takes (step_takes hstep)

/-! ## A closing that lasts -/

/-- **What holds of the closing**: while the file reads `eligible`, the window was not closed since it
was marked. -/
structure Shut (w : World) : Prop where
  chance : Chance w
  unclosed : w.file = some ["eligible"] → w.ledger.closed = false
  lasting : w.ledger.reopened = false

namespace Shut

theorem after (h : Shut w) {result : Option PairingWindow × File} {joining : Option Stranger}
    (hchance : Chance (w.after label result joining)) (hopen : result.1.any (·.isOpen) = true → w.isOpen = true)
    (hfile : result.2 = some ["eligible"] → w.file = some ["eligible"] ∧ w.closes label = false) :
    Shut (w.after label result joining) := by
  have hledger := after_not_opens w label result hopen joining
  refine ⟨hchance, ?_, ?_⟩
  · intro hafter
    obtain ⟨hbefore, hcloses⟩ := hfile hafter
    rw [hledger]
    show (w.ledger.closed || w.closes label) = false
    rw [h.unclosed hbefore, hcloses]
    rfl
  · rw [hledger]
    exact h.lasting

theorem takes (h : Shut w) (hl : w.Lasting label) (ht : w.Takes label w') : Shut w' := by
  have hchance := h.chance.takes ht
  cases ht with
  | wait elapsed _ => exact ⟨hchance, h.unclosed, h.lasting⟩
  | marked _ => exact ⟨hchance, fun _ => rfl, h.lasting⟩
  | fresh window hcloses hfresh =>
    refine h.after hchance ?_ fun hfile => ⟨hfile, hcloses⟩
    intro hopen
    obtain ⟨fresh, heq, hfreshOpen⟩ := (Option.any_eq_true _ _).mp hopen
    rw [(hfresh fresh heq).2.1] at hfreshOpen
    cases hfreshOpen
  | closed reason hcloses =>
    refine h.after hchance nofun fun hfile => ?_
    obtain ⟨hreaches, hbefore⟩ := saveText_eligible (by simp) hfile
    rw [hl hcloses hbefore] at hreaches
    cases hreaches
  | nothing hwindow hcloses _ =>
    refine h.after hchance (fun hopen => ?_) fun hfile => ⟨hfile, hcloses⟩
    unfold World.isOpen
    rwa [hwindow]
  | @opened window since hwindow _ heligible =>
    have hbefore : w.isOpen = false :=
      (isOpen_eq hwindow).trans (PairingWindow.isOpen_of_eligible heligible)
    have hunclosed := h.unclosed (h.chance.eligible window hwindow heligible)
    have hledger := after_opens w label
      (some { window with phase := .opened (w.now + openFor) }, some ["open", toString since]) rfl hbefore none
    refine ⟨hchance, ?_, ?_⟩
    · intro hfile
      exact absurd (Option.some.inj hfile) (by simp)
    · rw [hledger]
      show (w.ledger.reopened || w.ledger.closed) = false
      rw [h.lasting, hunclosed]
      rfl
  | shut since _ hcloses _ =>
    refine h.after hchance nofun fun hfile => ?_
    exact ⟨(saveText_eligible (by simp) hfile).2, hcloses⟩
  | held strangers hwindow hopen hcloses _ _ _ =>
    refine h.after hchance (fun _ => ?_) fun hfile => ⟨hfile, hcloses⟩
    exact (isOpen_eq hwindow).trans (PairingWindow.isOpen_of_opened hopen)

end Shut

/-- **Once closed, the window stays closed**, in every run that saves the closings of a marked file. -/
theorem shut_of_reaches {file : File} {now : Instant}
    (h : System.Reaches step Lasting (World.start file now) w) : Shut w :=
  h.invariant ⟨Chance.start file now, fun _ => rfl, rfl⟩
    fun _ _ _ hs hl hstep => hs.takes hl (step_takes hstep)

/-! ## Only a lone stranger -/

end World

/-- Since some tick at `since`, in the open period, every tick found `s` alone. -/
def Ledger.Alone (ledger : Ledger) (s : Stranger) (since : Instant) : Prop :=
  ledger.openedAt ≤ since ∧ ∃ earlier first recent,
    ledger.ticks = earlier ++ first :: recent ∧ first.2 = since ∧
      ∀ tick ∈ first :: recent, tick.1.Lone s

namespace World

/-- `s` was alone at every tick of the last five seconds at least, in an open period of ten minutes at
most. -/
def Lone (w : World) (s : Stranger) : Prop :=
  ∃ since, w.ledger.Alone s since ∧ since + holdOff ≤ w.now ∧ w.now < w.ledger.openedAt + openFor

end World

namespace Ledger

variable {ledger : Ledger} {s : Stranger} {since now : Instant} {strangers : Strangers}

theorem Alone.append (h : ledger.Alone s since) (hlone : strangers.Lone s) :
    { ledger with ticks := ledger.ticks ++ [(strangers, now)] }.Alone s since := by
  obtain ⟨hopened, earlier, first, recent, hticks, hfirst, hall⟩ := h
  refine ⟨hopened, earlier, first, recent ++ [(strangers, now)], ?_, hfirst, ?_⟩
  · show ledger.ticks ++ [(strangers, now)] = _
    rw [hticks, List.append_assoc, List.cons_append]
  · intro tick htick
    rw [← List.cons_append, List.mem_append, List.mem_singleton] at htick
    rcases htick with hbefore | rfl
    · exact hall tick hbefore
    · exact hlone

theorem Alone.begin (hopened : ledger.openedAt ≤ now) (hlone : strangers.Lone s) :
    { ledger with ticks := ledger.ticks ++ [(strangers, now)] }.Alone s now := by
  refine ⟨hopened, ledger.ticks, (strangers, now), [], rfl, rfl, ?_⟩
  intro tick htick
  obtain rfl := List.mem_singleton.mp htick
  exact hlone

end Ledger

namespace World

variable {w w' : World} {label : Label} {s : Stranger} {since : Instant}

/-- **What holds of the wait**: whoever is held was alone since then. -/
structure Waits (w : World) : Prop where
  held : ∀ window s since, w.window = some window → window.holding = some (s, since) →
    window.isOpen = true ∧ w.ledger.Alone s since
  period : ∀ window until_, w.window = some window → window.phase = .opened until_ →
    until_ = w.ledger.openedAt + openFor ∧ w.ledger.openedAt ≤ w.now
  joining : ∀ s, w.ledger.joining = some s → w.Lone s

namespace Waits

theorem start (file : File) (now : Instant) : Waits (World.start file now) :=
  ⟨fun _ _ _ hnone => (by cases hnone), fun _ _ hnone => (by cases hnone), fun _ hnone => (by cases hnone)⟩

/-- Nobody is held by a window that is not open. -/
theorem holding_none (h : Waits w) {window : PairingWindow} (hwindow : w.window = some window)
    (hopen : window.isOpen = false) : window.holding = none := by
  cases hholding : window.holding with
  | none => rfl
  | some held =>
    have hheld := (h.held window held.1 held.2 hwindow hholding).1
    rw [hopen] at hheld
    cases hheld

/-- A window that is not open, and holds nobody, waits for nothing. -/
theorem of_shut {result : Option PairingWindow × File}
    (hshut : ∀ window, result.1 = some window → window.holding = none ∧ window.isOpen = false) :
    Waits (w.after label result none) where
  held window s since hwindow hholding := by
    rw [(hshut window hwindow).1] at hholding
    cases hholding
  period window until_ hwindow hphase := by
    have hopen := PairingWindow.isOpen_of_opened hphase
    rw [(hshut window hwindow).2] at hopen
    cases hopen
  joining s hnone := by cases hnone

theorem takes (h : Waits w) (ht : w.Takes label w') : Waits w' := by
  cases ht with
  | wait elapsed _ =>
    refine ⟨h.held, ?_, fun _ hnone => by cases hnone⟩
    intro window until_ hwindow hphase
    obtain ⟨huntil, hopened⟩ := h.period window until_ hwindow hphase
    exact ⟨huntil, Nat.le_trans hopened (Nat.le_add_right ..)⟩
  | marked _ => exact ⟨h.held, h.period, fun _ hnone => by cases hnone⟩
  | fresh window _ hfresh =>
    exact of_shut fun fresh heq => ⟨(hfresh fresh heq).1, (hfresh fresh heq).2.1⟩
  | closed reason _ =>
    refine of_shut fun window heq => ?_
    cases heq
    exact ⟨rfl, rfl⟩
  | @nothing window hwindow _ haround =>
    cases hopen : window.isOpen with
    | false =>
      refine of_shut fun after heq => ?_
      cases heq
      exact ⟨h.holding_none hwindow hopen, hopen⟩
    | true =>
      obtain haround : label.around = [] := by simpa [hopen] using haround
      have hledger := after_not_opens w label (some window, w.file) (fun _ => (isOpen_eq hwindow).trans hopen) none
      rw [haround, List.map_nil, List.append_nil] at hledger
      refine ⟨?_, ?_, ?_⟩
      · intro after s since heq hholding
        cases heq
        obtain ⟨_, halone⟩ := h.held window s since hwindow hholding
        exact ⟨hopen, by rw [hledger]; exact halone⟩
      · intro after until_ heq hphase
        cases heq
        rw [hledger]
        exact h.period window until_ hwindow hphase
      · intro s hnone
        cases hnone
  | @opened window since hwindow _ heligible =>
    have hopen := PairingWindow.isOpen_of_eligible heligible
    have hledger := after_opens w label
      (some { window with phase := .opened (w.now + openFor) }, some ["open", toString since]) rfl
      ((isOpen_eq hwindow).trans hopen) none
    refine ⟨?_, ?_, ?_⟩
    · intro after s since heq hholding
      cases heq
      rw [show _ = none from h.holding_none hwindow hopen] at hholding
      cases hholding
    · intro after until_ heq hphase
      cases heq
      cases hphase
      rw [hledger]
      exact ⟨rfl, Nat.le_refl _⟩
    · intro s hnone
      cases hnone
  | @shut window since hwindow _ heligible =>
    have hopen := PairingWindow.isOpen_of_eligible heligible
    refine of_shut fun after heq => ?_
    cases heq
    exact ⟨show window.holding = none from h.holding_none hwindow hopen, rfl⟩
  | @held window until_ strangers hwindow hopen _ hinTime haround hturned =>
    obtain ⟨huntil, hopened⟩ := h.period window until_ hwindow hopen
    have hwasOpen : window.isOpen = true := PairingWindow.isOpen_of_opened hopen
    generalize hhold : window.hold (PairingWindow.candidate strangers) w.now = holding
    have hledger := after_not_opens w label (some { window with holding }, w.file)
      (fun _ => (isOpen_eq hwindow).trans hwasOpen)
    simp only [haround, List.map_cons, List.map_nil] at hledger
    -- Whoever is held now was alone up to this tick too.
    have halone : ∀ s since, holding = some (s, since) →
        { w.ledger with ticks := w.ledger.ticks ++ [(strangers, w.now)] }.Alone s since := by
      intro s since heq
      obtain ⟨hcandidate, hsince⟩ := PairingWindow.hold_cases (hhold.trans heq)
      have hlone := PairingWindow.lone_of_candidate hcandidate hturned
      rcases hsince with rfl | hbefore
      · exact Ledger.Alone.begin hopened hlone
      · exact (h.held window s since hwindow hbefore).2.append hlone
    refine ⟨?_, ?_, ?_⟩
    · intro after s since heq hholding
      cases heq
      refine ⟨PairingWindow.isOpen_of_opened hopen, ?_⟩
      rw [hledger]
      exact halone s since hholding
    · intro after other heq hphase
      cases heq
      rw [hledger]
      obtain rfl : until_ = other := by
        rw [hopen] at hphase
        exact Phase.opened.inj hphase
      exact ⟨huntil, hopened⟩
    · intro s hjoins
      cases hholding : holding with
      | none =>
        rw [hholding] at hjoins
        cases hjoins
      | some held =>
        obtain ⟨stranger, since⟩ := held
        subst hholding
        by_cases hearly : w.now - since < holdOff
        · have hnone : (w.after label (some { window with holding := some (stranger, since) }, w.file)
              (if w.now - since < holdOff then none else some stranger)).ledger.joining = some s := hjoins
          rw [hledger, if_pos hearly] at hnone
          cases hnone
        · have hsome : (w.after label (some { window with holding := some (stranger, since) }, w.file)
              (if w.now - since < holdOff then none else some stranger)).ledger.joining = some s := hjoins
          rw [hledger, if_neg hearly] at hsome
          cases hsome
          refine ⟨since, ?_, ?_, ?_⟩
          · rw [hledger]
            exact halone s since rfl
          · have hheld : holdOff ≤ w.now - since := Nat.le_of_not_lt hearly
            have hpositive : 0 < holdOff := by decide
            have hsince : since ≤ w.now := by
              by_contra hlater
              rw [Nat.sub_eq_zero_of_le (Nat.le_of_not_le hlater)] at hheld
              exact Nat.not_le.mpr hpositive hheld
            exact Nat.add_le_of_le_sub' hsince hheld
          · rw [hledger]
            show w.now < w.ledger.openedAt + openFor
            rwa [← huntil]

end Waits

/-- **A tick names only a lone stranger**, in every run. -/
theorem waits_of_reaches {calm : World → Label → Prop} {file : File} {now : Instant}
    (h : System.Reaches step calm (World.start file now) w) : Waits w :=
  h.invariant (Waits.start file now) fun _ _ _ hs _ hstep => hs.takes (step_takes hstep)

/-! ## The law -/

/-- A closing that does not last: after a restart the window is eligible, and opens again. -/
theorem reopens (h : step label w = some w') (hl : ¬ w.Lasting label) :
    ∃ again, System.exec step [.load true .saved, .open_ false 0 .saved] w' = some again ∧
      again.ledger.reopened = true := by
  unfold Lasting at hl
  push Not at hl
  obtain ⟨hcloses, hfile, hreaches⟩ := hl
  cases step_takes h with
  | closed reason _ =>
    have hkept : saveText label.save ["closed", reason.name] w.file = some ["eligible"] := by
      unfold saveText
      rw [if_neg hreaches, hfile]
    refine ⟨_, rfl, ?_⟩
    simp [after, PairingWindow.open_, PairingWindow.isOpen, World.isOpen, hkept, hcloses, Save.succeeds]
  | _ => simp_all

/-- **The window opens once, and names only a lone stranger.** In every run a mark is good for one open
period, and a tick names only a stranger that was alone at every tick of the last five seconds. Once
closed the window stays closed in every run whose closings of a marked file are saved, and a closing
that is not is undone by a restart. -/
theorem window_opens_once (file : File) (now : Instant) :
    (∀ w, System.Reaches step (fun _ _ => True) (World.start file now) w →
      w.ledger.opened ≤ w.ledger.marked.toNat ∧ ∀ s, w.ledger.joining = some s → w.Lone s) ∧
    (∀ w, System.Reaches step Lasting (World.start file now) w → w.ledger.reopened = false) ∧
    ∀ w label w', step label w = some w' → ¬ w.Lasting label →
      ∃ again, System.exec step [.load true .saved, .open_ false 0 .saved] w' = some again ∧
        again.ledger.reopened = true := by
  refine ⟨fun w h => ⟨(chance_of_reaches h).once, (waits_of_reaches h).joining⟩,
    fun w h => (shut_of_reaches h).lasting, ?_⟩
  intro w label w' h hl
  exact reopens h hl

/-! ### A fresh install -/

/-- A computer that may join. -/
def desk : Stranger := ⟨"k1", "desk", "a1b2c3", true, true, false⟩

/-- A fresh install opens its window, and the one computer around stays alone. -/
def joins : List Label :=
  [.markEligible .saved, .load true .saved, .open_ false 1 .saved, .tick ⟨[desk], 0, false⟩ .saved,
    .wait holdOff, .tick ⟨[desk], 0, false⟩ .saved]

/-- A fresh install's window is used up, which is not saved, and the program starts again. -/
def forgets : List Label :=
  [.markEligible .saved, .load true .saved, .placed .failed, .load true .saved, .open_ false 1 .saved]

/-- A window that is eligible, as is its file. -/
def fresh : World :=
  ⟨some ["eligible"], some ⟨.eligible, none⟩, 0, ⟨true, 0, false, false, 0, [], none⟩⟩

theorem window_opens_once_desk : (∃ w, System.Reaches step (fun _ _ => True) (World.start none 0) w ∧
      w.ledger.joining = some desk ∧ w.Lone desk ∧ w.ledger.opened ≤ 1) ∧
    (∃ w, System.Reaches step Lasting (World.start none 0) w ∧ w.ledger.joining = some desk ∧
      w.ledger.reopened = false) ∧
    ∃ w', step (.placed .failed) fresh = some w' ∧
      ∃ again, System.exec step [.load true .saved, .open_ false 0 .saved] w' = some again ∧
        again.ledger.reopened = true := by
  obtain ⟨hall, hlasting, hexact⟩ := window_opens_once none 0
  have hrun : ((System.guarded step fun _ _ => True).exec joins (World.start none 0)).any
      (fun w => w.ledger.joining = some desk && w.ledger.marked) = true := by decide +kernel
  have hcalm : ((System.guarded step Lasting).exec joins (World.start none 0)).any
      (fun w => w.ledger.joining = some desk) = true := by decide +kernel
  refine ⟨?_, ?_, ?_⟩
  · obtain ⟨w, hreaches, hw⟩ := System.exists_reaches_of_exec hrun
    obtain ⟨hjoining, hmarked⟩ := Bool.and_eq_true_iff.mp hw
    obtain ⟨honce, hlone⟩ := hall w hreaches
    rw [hmarked] at honce
    exact ⟨w, hreaches, of_decide_eq_true hjoining, hlone desk (of_decide_eq_true hjoining), honce⟩
  · obtain ⟨w, hreaches, hw⟩ := System.exists_reaches_of_exec hcalm
    exact ⟨w, hreaches, of_decide_eq_true hw, hlasting w hreaches⟩
  · refine ⟨_, rfl, hexact fresh (.placed .failed) _ rfl ?_⟩
    decide +kernel

/-- A window that was used up opens after a restart. -/
theorem window_reopens : ¬ ∀ (file : File) (now : Instant) (w : World),
      System.Reaches step (fun _ _ => True) (World.start file now) w → w.ledger.reopened = false := by
  intro h
  have hrun : ((System.guarded step fun _ _ => True).exec forgets (World.start none 0)).any
      (fun w => w.ledger.reopened) = true := by decide +kernel
  obtain ⟨w, hreaches, hw⟩ := System.exists_reaches_of_exec hrun
  rw [h none 0 w hreaches] at hw
  cases hw

end World

end Zflow.Pairing
