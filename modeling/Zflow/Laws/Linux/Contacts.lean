import Zflow.Laws.Linux.Touchpad
import Zflow.Laws.Linux.Uinput

/-!
# Contacts on the virtual touchpad, in any run

Whatever touch states came before, and wherever the device refused a report, planning a touch state leaves the kernel
with exactly its contacts. Their tracking ids differ in a whole run if and only if the counter never comes to the id
of a contact that stays.
-/

namespace Zflow.Linux

open Zflow.Core Lib Multitouch

/-! ## A touch state's reports -/

/-- The contacts of a touch state that were there. -/
def surviving (previous : TouchpadState) (touch : TouchState) : TouchState :=
  touch.filter fun id _ => id ∈ previous.contacts

section Surviving

variable {previous released : TouchpadState} {touch : TouchState} {id : ContactId}

theorem getElem?_surviving (h : id ∈ previous.contacts) : (surviving previous touch)[id]? = touch[id]? := by
  unfold surviving
  rw [Std.ExtTreeMap.getElem?_filter']
  cases touch[id]? with
  | none => rfl
  | some contact => simp [h]

theorem mem_surviving : id ∈ surviving previous touch ↔ id ∈ previous.contacts ∧ id ∈ touch := by
  constructor
  · intro h
    have hsome := Std.ExtTreeMap.mem_iff_isSome_getElem?.mp h
    unfold surviving at hsome
    rw [Std.ExtTreeMap.getElem?_filter'] at hsome
    cases htouch : touch[id]? with
    | none =>
      rw [htouch] at hsome
      cases hsome
    | some contact =>
      rw [htouch] at hsome
      exact ⟨by simpa using hsome, mem_of_getElem? htouch⟩
  · rintro ⟨hprevious, htouch⟩
    obtain ⟨contact, hcontact⟩ := getElem?_of_mem htouch
    exact mem_of_getElem? ((getElem?_surviving hprevious).trans hcontact)

theorem size_surviving_add (previous : TouchpadState) (touch : TouchState) :
    (surviving previous touch).size + (landing previous touch).length = touch.size := by
  rw [← Std.ExtTreeMap.length_toList, ← Std.ExtTreeMap.length_toList, surviving, Std.ExtTreeMap.toList_filter, landing]
  have hsplit : touch.toList.length = (touch.toList.filter fun entry => decide (entry.1 ∈ previous.contacts)).length +
        (touch.toList.filter fun entry => !decide (entry.1 ∈ previous.contacts)).length :=
    List.length_eq_length_filter_add _
  rw [hsplit]
  simp

theorem landing_surviving (previous : TouchpadState) (touch : TouchState) :
    landing previous (surviving previous touch) = [] := by
  rw [landing, List.filter_eq_nil_iff]
  rintro ⟨id, contact⟩ hmem
  have hthere := mem_surviving.mp (mem_of_getElem? (Std.ExtTreeMap.mem_toList_iff_getElem?_eq_some.mp hmem))
  simpa using hthere.1

theorem landing_released (h : ∀ id, id ∈ released.contacts ↔ id ∈ surviving previous touch) :
    landing released touch = landing previous touch := by
  unfold landing
  refine List.filter_congr fun entry hentry => ?_
  have hmem : entry.1 ∈ touch := mem_of_getElem? (Std.ExtTreeMap.mem_toList_iff_getElem?_eq_some.mp hentry)
  have hiff : entry.1 ∈ released.contacts ↔ entry.1 ∈ previous.contacts := by
    rw [h, mem_surviving, and_iff_left hmem]
  simp [hiff]

end Surviving

/-- **What is planned**: one report, or one that lifts and one that lands. -/
theorem planTouchpadEvents_sent {previous : TouchpadState} {touch : TouchState} (hprevious : previous.Sound)
    (hfew : touch.size ≤ maxTouchpadContacts) : ∃ reports, planTouchpadEvents previous touch = some (.ok reports) ∧
      ((∃ report, reports = [report] ∧ Sent previous touch report) ∨
        ∃ released landed, reports = [released, landed] ∧ Sent previous (surviving previous touch) released ∧
          Sent released.2 touch landed) := by
  unfold planTouchpadEvents
  rw [if_neg (Nat.not_lt.mpr hfew)]
  have hroom := hprevious.few
  by_cases hfree : (landing previous touch).length ≤ maxTouchpadContacts - previous.contacts.size
  · obtain ⟨report, hplan, hsent⟩ := planTouchpadReport_sent hprevious hfew (by omega)
    rw [if_pos hfree, hplan]
    exact ⟨_, rfl, .inl ⟨report, rfl, hsent⟩⟩
  · rw [if_neg hfree]
    have hsize := size_surviving_add previous touch
    have hnone : (landing previous (surviving previous touch)).length = 0 := by rw [landing_surviving]; rfl
    obtain ⟨released, hplan, hsent⟩ : ∃ report, planTouchpadReport previous (surviving previous touch) = some report ∧
        Sent previous (surviving previous touch) report := planTouchpadReport_sent hprevious (by omega) (by omega)
    obtain ⟨used, hplaced⟩ := hsent.placed
    have hlanding := landing_released hplaced.mem_touch
    have hreleased := hplaced.size_eq
    obtain ⟨landed, hplan', hsent'⟩ := planTouchpadReport_sent hsent.sound hfew (by rw [hlanding]; omega)
    refine ⟨[released, landed], ?_, .inr ⟨released, landed, rfl, hsent, hsent'⟩⟩
    have hsurviving : (touch.filter fun id _ => decide (id ∈ previous.contacts)) = surviving previous touch := rfl
    dsimp only
    rw [hsurviving, hplan]
    show (planTouchpadReport released.2 touch).bind _ = _
    rw [hplan']
    rfl

/-! ## Tracking ids -/

/-- **The counter does not come to the id of a contact that stays.** -/
def Fresh (previous : TouchpadState) (touch : TouchState) : Prop :=
  ∀ (id : ContactId) (old : TargetContact), previous.contacts[id]? = some old → id ∈ touch →
    ∀ k < (landing previous touch).length, old.trackingId ≠ succTrackingId^[k] previous.nextTrackingId

namespace Sent

variable {previous : TouchpadState} {touch : TouchState} {report : Report}

/-- A contact that was there and is in the touch state. -/
theorem kept (h : Sent previous touch report) {id : ContactId} {contact : TouchContact} {old : TargetContact}
    (hcontact : touch[id]? = some contact) (hold : previous.contacts[id]? = some old) :
    report.2.contacts[id]? = some (old.at contact) := by
  obtain ⟨used, hplaced⟩ := h.placed
  exact hplaced.kept id contact old (Std.ExtTreeMap.mem_toList_iff_getElem?_eq_some.mpr hcontact) hold

/-- Every contact of the touch state is where it says. -/
theorem at_contact (h : Sent previous touch report) {id : ContactId} {contact : TouchContact}
    (hcontact : touch[id]? = some contact) :
    ∃ c : TargetContact, report.2.contacts[id]? = some c ∧ c = c.at contact := by
  cases hprevious : previous.contacts[id]? with
  | some old => exact ⟨_, h.kept hcontact hprevious, rfl⟩
  | none =>
    obtain ⟨used, hplaced⟩ := h.placed
    obtain ⟨c, hc, hat, -⟩ :=
      hplaced.fresh id contact (Std.ExtTreeMap.mem_toList_iff_getElem?_eq_some.mpr hcontact) hprevious
    exact ⟨c, hc, hat⟩

/-- **The ids stay distinct exactly where they are fresh.** -/
theorem distinct_iff (h : Sent previous touch report) (hdistinct : previous.Distinct) :
    report.2.Distinct ↔ Fresh previous touch := by
  obtain ⟨used, hplaced⟩ := h.placed
  constructor
  · intro hnext id old hold hmem k hk heq
    obtain ⟨contact, hcontact⟩ := getElem?_of_mem hmem
    obtain ⟨id', c', hc', hnone, hid'⟩ := hplaced.handed k hk
    obtain rfl := hnext id id' _ c' (h.kept hcontact hold) hc' (heq.trans hid'.symm)
    rw [hold] at hnone
    cases hnone
  · intro hfresh id id' c c' hc hc' heq
    obtain ⟨contact, hcontact, ⟨old, hold, rfl⟩ | ⟨hnone, -, -, -, k, hk, hid⟩⟩ := hplaced.cases_contact hc
    · obtain ⟨contact', hcontact', ⟨old', hold', rfl⟩ | ⟨hnone', -, -, -, k, hk, hid⟩⟩ := hplaced.cases_contact hc'
      · exact hdistinct id id' old old' hold hold' heq
      · exact absurd (heq.trans hid) (hfresh id old hold (mem_of_getElem? hcontact) k hk)
    · obtain ⟨contact', hcontact', ⟨old', hold', rfl⟩ | ⟨hnone', -⟩⟩ := hplaced.cases_contact hc'
      · exact absurd (heq.symm.trans hid) (hfresh id' old' hold' (mem_of_getElem? hcontact') k hk)
      · by_contra hne
        exact (hplaced.apart id id' c c' hne hc hc' hnone hnone').2 heq

/-- A report that only lifts takes no id. -/
theorem fresh_surviving (h : Sent previous (surviving previous touch) report) :
    report.2.nextTrackingId = previous.nextTrackingId ∧ Fresh previous (surviving previous touch) := by
  obtain ⟨used, hplaced⟩ := h.placed
  have hlanded : landed previous (surviving previous touch).toList = 0 :=
    congrArg List.length (landing_surviving previous touch)
  refine ⟨by rw [hplaced.nextId, hlanded]; rfl, fun id old hold hmem k hk => ?_⟩
  rw [landing_surviving] at hk
  cases hk

/-- Lifting first makes no difference to what is fresh. -/
theorem fresh_released (h : Sent previous (surviving previous touch) report) :
    Fresh report.2 touch ↔ Fresh previous touch := by
  obtain ⟨used, hplaced⟩ := h.placed
  have hlanding := landing_released hplaced.mem_touch
  unfold Fresh
  rw [hlanding, h.fresh_surviving.1]
  constructor
  · intro hfresh id old hold hmem
    obtain ⟨contact, hcontact⟩ := getElem?_of_mem hmem
    have hthere := (getElem?_surviving (mem_of_getElem? hold)).trans hcontact
    exact hfresh id (old.at contact) (h.kept hthere hold) hmem
  · intro hfresh id c hc hmem
    obtain ⟨contact, hcontact, ⟨old, hold, rfl⟩ | ⟨hnone, -⟩⟩ := hplaced.cases_contact hc
    · exact hfresh id old hold hmem
    · exact absurd (mem_surviving.mp (mem_of_getElem? hcontact)).1 (not_mem_of_getElem? hnone)

/-- The same touch state again says nothing. -/
theorem again (h : Sent previous touch report) (hfew : touch.size ≤ maxTouchpadContacts) :
    planTouchpadEvents report.2 touch = some (.ok [([], report.2)]) := by
  obtain ⟨used, hplaced⟩ := h.placed
  have hnone : landing report.2 touch = [] := by
    rw [landing, List.filter_eq_nil_iff]
    rintro ⟨id, contact⟩ hmem
    have hthere := (hplaced.mem_touch id).mpr (mem_of_getElem? (Std.ExtTreeMap.mem_toList_iff_getElem?_eq_some.mp hmem))
    simpa using hthere
  obtain ⟨after, hplan, hsent⟩ : ∃ after, planTouchpadReport report.2 touch = some after ∧ Sent report.2 touch after := by
    refine planTouchpadReport_sent h.sound hfew ?_
    rw [hnone]
    exact h.sound.few
  obtain ⟨used', hplaced'⟩ := hsent.placed
  have hsame : after.2.contacts = report.2.contacts := by
    refine Std.ExtTreeMap.ext_getElem? fun id => ?_
    cases htouch : touch[id]? with
    | some contact =>
      obtain ⟨c, hc, hat⟩ := h.at_contact htouch
      rw [hsent.kept htouch hc, hc, ← hat]
    | none =>
      have hgone : ∀ {m : Std.ExtTreeMap ContactId TargetContact}, (id ∈ m ↔ id ∈ touch) → m[id]? = none := fun hmem =>
        Std.ExtTreeMap.getElem?_eq_none fun hin => not_mem_of_getElem? htouch (hmem.mp hin)
      rw [hgone (hplaced'.mem_touch id), hgone (hplaced.mem_touch id)]
  have hid : after.2.nextTrackingId = report.2.nextTrackingId := by
    have hlanded : landed report.2 touch.toList = 0 := congrArg List.length hnone
    rw [hplaced'.nextId, hlanded]
    rfl
  have hafter : after = ([], report.2) := Prod.ext (hsent.silent hsame)
    (by obtain ⟨events, contacts, nextId⟩ := after; cases hsame; cases hid; rfl)
  unfold planTouchpadEvents
  rw [if_neg (Nat.not_lt.mpr hfew), hnone, hplan, hafter]
  rfl

end Sent

/-! ## A call -/

namespace Touchpad

/-- The planner is sound, and the kernel shows its contacts. -/
structure Good (p : Touchpad) : Prop where
  sound : p.state.Sound
  shows : Shows p.kernel p.state.contacts

/-- **What the reports for a touch state do**, however many of them the device takes, and what all of them leave. -/
structure Exact (p : Touchpad) (touch : TouchState) (reports : List Report) : Prop where
  /-- The contacts have distinct slots and the kernel shows them, with the keys of their count. -/
  good : ∀ n, (p.emitAll (reports.take n)).Good
  distinct : ∀ n, (p.emitAll (reports.take n)).state.Distinct
  kept : ∀ n (id : ContactId) (old : TargetContact), p.state.contacts[id]? = some old → id ∈ touch →
    ∃ c : TargetContact, (p.emitAll (reports.take n)).state.contacts[id]? = some c ∧ c.slot = old.slot ∧
      c.trackingId = old.trackingId
  mem : ∀ id : ContactId, id ∈ (p.emitAll reports).state.contacts ↔ id ∈ touch
  placed : ∀ (id : ContactId) (contact : TouchContact), touch[id]? = some contact →
    ∃ c : TargetContact, (p.emitAll reports).state.contacts[id]? = some c ∧ c.x = touchAxis contact true ∧
      c.y = touchAxis contact false
  once : ∀ report ∈ reports, ∀ start slot id id', (slot, id) ∈ trackings start report.1 →
    (slot, id') ∈ trackings start report.1 → id = id'
  inRange : ∀ report ∈ reports, ∀ event ∈ report.1, InRange event
  again : planTouchpadEvents (p.emitAll reports).state touch = some (.ok [([], (p.emitAll reports).state)])

theorem Good.emit {p : Touchpad} {touch : TouchState} {report : Report} (h : p.Good)
    (hsent : Sent p.state touch report) : (p.emit report).Good :=
  ⟨hsent.sound, hsent.shows p.kernel h.shows⟩

theorem planTouchpadEvents_many {previous : TouchpadState} {touch : TouchState}
    (hmany : ¬ touch.size ≤ maxTouchpadContacts) :
    planTouchpadEvents previous touch = some (.error .tooManyTouchContacts) := by
  unfold planTouchpadEvents
  rw [if_pos (Nat.not_le.mp hmany)]
  rfl

theorem emitAll_take_one (p : Touchpad) (report : Report) (n : Nat) :
    p.emitAll ([report].take n) = p ∨ p.emitAll ([report].take n) = p.emit report := by
  rcases n with _ | n
  · exact .inl rfl
  · exact .inr (by simp [emitAll])

theorem emitAll_take_two (p : Touchpad) (released landed : Report) (n : Nat) :
    p.emitAll ([released, landed].take n) = p ∨ p.emitAll ([released, landed].take n) = p.emit released ∨
      p.emitAll ([released, landed].take n) = (p.emit released).emit landed := by
  rcases n with _ | _ | n
  · exact .inl rfl
  · exact .inr (.inl rfl)
  · exact .inr (.inr (by simp [emitAll]))

section Calls

variable {p : Touchpad} {touch : TouchState} {report released landed : Report}

theorem exact_one (hgood : p.Good) (hdistinct : p.state.Distinct) (hfew : touch.size ≤ maxTouchpadContacts)
    (hsent : Sent p.state touch report) (hfresh : Fresh p.state touch) : p.Exact touch [report] := by
  obtain ⟨used, hplaced⟩ := hsent.placed
  refine ⟨fun n => ?_, fun n => ?_, fun n id old hold hmem => ?_, hplaced.mem_touch, fun id contact hcontact => ?_,
    fun report' h' => ?_, fun report' h' => ?_, hsent.again hfew⟩
  · rcases emitAll_take_one p report n with hn | hn <;> rw [hn]
    · exact hgood
    · exact hgood.emit hsent
  · rcases emitAll_take_one p report n with hn | hn <;> rw [hn]
    · exact hdistinct
    · exact (hsent.distinct_iff hdistinct).mpr hfresh
  · rcases emitAll_take_one p report n with hn | hn <;> rw [hn]
    · exact ⟨old, hold, rfl, rfl⟩
    · obtain ⟨contact, hcontact⟩ := getElem?_of_mem hmem
      exact ⟨_, hsent.kept hcontact hold, rfl, rfl⟩
  · obtain ⟨c, hc, hat⟩ := hsent.at_contact hcontact
    exact ⟨c, hc, by rw [hat]; rfl, by rw [hat]; rfl⟩
  · cases List.mem_singleton.mp h'
    exact hsent.once
  · cases List.mem_singleton.mp h'
    exact hsent.inRange

theorem exact_two (hgood : p.Good) (hdistinct : p.state.Distinct) (hfew : touch.size ≤ maxTouchpadContacts)
    (hreleased : Sent p.state (surviving p.state touch) released) (hlanded : Sent released.2 touch landed)
    (hfresh : Fresh p.state touch) : p.Exact touch [released, landed] := by
  obtain ⟨used, hplaced⟩ := hlanded.placed
  have hgood' : (p.emit released).Good := hgood.emit hreleased
  have hdistinct' : released.2.Distinct := (hreleased.distinct_iff hdistinct).mpr hreleased.fresh_surviving.2
  have hkept : ∀ {id : ContactId} {contact : TouchContact} {old : TargetContact}, touch[id]? = some contact →
      p.state.contacts[id]? = some old → released.2.contacts[id]? = some (old.at contact) := fun hcontact hold =>
    hreleased.kept ((getElem?_surviving (mem_of_getElem? hold)).trans hcontact) hold
  refine ⟨fun n => ?_, fun n => ?_, fun n id old hold hmem => ?_, hplaced.mem_touch, fun id contact hcontact => ?_,
    fun report h' => ?_, fun report h' => ?_, hlanded.again hfew⟩
  · rcases emitAll_take_two p released landed n with hn | hn | hn <;> rw [hn]
    · exact hgood
    · exact hgood'
    · exact hgood'.emit hlanded
  · rcases emitAll_take_two p released landed n with hn | hn | hn <;> rw [hn]
    · exact hdistinct
    · exact hdistinct'
    · exact (hlanded.distinct_iff hdistinct').mpr (hreleased.fresh_released.mpr hfresh)
  · obtain ⟨contact, hcontact⟩ := getElem?_of_mem hmem
    rcases emitAll_take_two p released landed n with hn | hn | hn <;> rw [hn]
    · exact ⟨old, hold, rfl, rfl⟩
    · exact ⟨_, hkept hcontact hold, rfl, rfl⟩
    · exact ⟨_, hlanded.kept hcontact (hkept hcontact hold), rfl, rfl⟩
  · obtain ⟨c, hc, hat⟩ := hlanded.at_contact hcontact
    exact ⟨c, hc, by rw [hat]; rfl, by rw [hat]; rfl⟩
  · rcases List.mem_cons.mp h' with rfl | h'
    · exact hreleased.once
    · cases List.mem_singleton.mp h'
      exact hlanded.once
  · rcases List.mem_cons.mp h' with rfl | h'
    · exact hreleased.inRange
    · cases List.mem_singleton.mp h'
      exact hlanded.inRange

/-- **A call is exact if and only if the ids it hands out are fresh.** -/
theorem exact_iff (hgood : p.Good) (hdistinct : p.state.Distinct) (hfew : touch.size ≤ maxTouchpadContacts) :
    (∃ reports, planTouchpadEvents p.state touch = some (.ok reports) ∧ p.Exact touch reports) ↔
      Fresh p.state touch := by
  obtain ⟨reports, hplan, ⟨report, rfl, hsent⟩ | ⟨released, landed, rfl, hreleased, hlanded⟩⟩ :=
    planTouchpadEvents_sent hgood.sound hfew
  · constructor
    · rintro ⟨reports, hplan', hexact⟩
      cases Option.some.inj (hplan.symm.trans hplan')
      exact (hsent.distinct_iff hdistinct).mp (hexact.distinct 1)
    · exact fun hfresh => ⟨_, hplan, exact_one hgood hdistinct hfew hsent hfresh⟩
  · have hdistinct' : released.2.Distinct := (hreleased.distinct_iff hdistinct).mpr hreleased.fresh_surviving.2
    constructor
    · rintro ⟨reports, hplan', hexact⟩
      cases Option.some.inj (hplan.symm.trans hplan')
      exact hreleased.fresh_released.mp ((hlanded.distinct_iff hdistinct').mp (hexact.distinct 2))
    · exact fun hfresh => ⟨_, hplan, exact_two hgood hdistinct hfew hreleased hlanded hfresh⟩

end Calls

/-- **What a call leaves that the device takes whole.** -/
theorem replaceAt_all {p : Touchpad} {touch : TouchState} (hgood : p.Good) (hfew : touch.size ≤ maxTouchpadContacts) :
    (p.replaceAt touch 2).Good ∧ (∀ id : ContactId, id ∈ (p.replaceAt touch 2).state.contacts ↔ id ∈ touch) ∧
      (∀ (id : ContactId) (contact : TouchContact) (old : TargetContact), touch[id]? = some contact →
        p.state.contacts[id]? = some old →
        ∃ c : TargetContact, (p.replaceAt touch 2).state.contacts[id]? = some c ∧ c.trackingId = old.trackingId) ∧
      (p.replaceAt touch 2).state.nextTrackingId =
        succTrackingId^[(landing p.state touch).length] p.state.nextTrackingId := by
  obtain ⟨reports, hplan, ⟨report, rfl, hsent⟩ | ⟨released, landed, rfl, hreleased, hlanded⟩⟩ :=
    planTouchpadEvents_sent hgood.sound hfew
  · have hafter : p.replaceAt touch 2 = p.emit report := by
      rw [replaceAt, hplan]
      rfl
    obtain ⟨used, hplaced⟩ := hsent.placed
    rw [hafter]
    exact ⟨hgood.emit hsent, hplaced.mem_touch, fun id contact old hcontact hold =>
      ⟨_, hsent.kept hcontact hold, rfl⟩, hplaced.nextId⟩
  · have hafter : p.replaceAt touch 2 = (p.emit released).emit landed := by
      rw [replaceAt, hplan]
      rfl
    obtain ⟨used, hplaced⟩ := hlanded.placed
    obtain ⟨used', hplaced'⟩ := hreleased.placed
    have hgood' : (p.emit released).Good := hgood.emit hreleased
    rw [hafter]
    refine ⟨hgood'.emit hlanded, hplaced.mem_touch, fun id contact old hcontact hold => ?_, ?_⟩
    · have hthere := (getElem?_surviving (mem_of_getElem? hold)).trans hcontact
      exact ⟨_, hlanded.kept hcontact (hreleased.kept hthere hold), rfl⟩
    · have hlanding : (landing released.2 touch).length = (landing p.state touch).length :=
        congrArg List.length (landing_released hplaced'.mem_touch)
      refine hplaced.nextId.trans ?_
      show succTrackingId^[(landing released.2 touch).length] released.2.nextTrackingId = _
      rw [hlanding, hreleased.fresh_surviving.1]

/-! ## A run -/

theorem good_new : new.Good := ⟨TouchpadState.sound_initial, shows_untouched⟩

theorem distinct_new : new.state.Distinct := fun id id' c c' hc => by simp [new, TouchpadState.initial] at hc

/-- A call leaves the touchpad good, wherever the device refuses a report. -/
theorem good_replaceAt {p : Touchpad} (hgood : p.Good) (touch : TouchState) (emitted : Nat) :
    (p.replaceAt touch emitted).Good := by
  by_cases hfew : touch.size ≤ maxTouchpadContacts
  · obtain ⟨reports, hplan, ⟨report, rfl, hsent⟩ | ⟨released, landed, rfl, hreleased, hlanded⟩⟩ :=
      planTouchpadEvents_sent hgood.sound hfew
    · rw [replaceAt, hplan]
      dsimp only
      rcases emitAll_take_one p report emitted with hn | hn <;> rw [hn]
      · exact hgood
      · exact hgood.emit hsent
    · rw [replaceAt, hplan]
      dsimp only
      rcases emitAll_take_two p released landed emitted with hn | hn | hn <;> rw [hn]
      · exact hgood
      · exact hgood.emit hreleased
      · exact (hgood.emit hreleased : (p.emit released).Good).emit hlanded
  · rw [replaceAt, planTouchpadEvents_many hfew]
    exact hgood

theorem distinct_replaceAt {p : Touchpad} (hgood : p.Good) (hdistinct : p.state.Distinct) {touch : TouchState}
    (hfresh : touch.size ≤ maxTouchpadContacts → Fresh p.state touch) (emitted : Nat) :
    (p.replaceAt touch emitted).state.Distinct := by
  by_cases hfew : touch.size ≤ maxTouchpadContacts
  · obtain ⟨reports, hplan, hexact⟩ := (exact_iff hgood hdistinct hfew).mpr (hfresh hfew)
    rw [replaceAt, hplan]
    exact hexact.distinct emitted
  · rw [replaceAt, planTouchpadEvents_many hfew]
    exact hdistinct

/-- A call, and what is said of it. -/
def calls (admits : Touchpad → TouchState → Prop) : Replay Touchpad (TouchState × Nat) where
  apply p call := p.replaceAt call.1 call.2
  admits p call := call.1.size ≤ maxTouchpadContacts → admits p call.1

/-- **In every run** each call is exact if and only if the ids that each hands out are fresh. -/
theorem touchpad_exact_iff (history : List (TouchState × Nat)) :
    (∀ before touch emitted after, history = before ++ (touch, emitted) :: after → touch.size ≤ maxTouchpadContacts →
      ∃ reports, planTouchpadEvents (new.ran before).state touch = some (.ok reports) ∧
        (new.ran before).Exact touch reports) ↔
    ∀ before touch emitted after, history = before ++ (touch, emitted) :: after → touch.size ≤ maxTouchpadContacts →
      Fresh (new.ran before).state touch := by
  have hrun : ∀ {p : Touchpad}, p.Good → p.state.Distinct →
      ((calls fun p touch => ∃ reports, planTouchpadEvents p.state touch = some (.ok reports) ∧
          p.Exact touch reports).Legal p history ↔ (calls fun p touch => Fresh p.state touch).Legal p history) := by
    induction history with
    | nil => exact fun _ _ => Iff.rfl
    | cons call rest ih =>
      intro p hgood hdistinct
      rw [Replay.legal_cons, Replay.legal_cons]
      have hcall (hfew : call.1.size ≤ maxTouchpadContacts) := exact_iff hgood hdistinct hfew
      refine (and_congr (forall_congr' hcall) Iff.rfl).trans (and_congr_right fun hfresh => ?_)
      exact ih (good_replaceAt hgood call.1 call.2) (distinct_replaceAt hgood hdistinct hfresh call.2)
  have hiff := hrun good_new distinct_new
  rw [Replay.legal_iff_forall_split, Replay.legal_iff_forall_split] at hiff
  constructor
  · intro hexact before touch emitted after hsplit
    exact hiff.mp (fun before call after hsplit => hexact before call.1 call.2 after hsplit) before (touch, emitted)
      after hsplit
  · intro hfresh before touch emitted after hsplit
    exact hiff.mpr (fun before call after hsplit => hfresh before call.1 call.2 after hsplit) before (touch, emitted)
      after hsplit

/-! ## A contact that is held for long -/

def finger : TouchContact := ⟨1, 100, 200, none, none, none, none, .finger, none⟩

/-- One finger stays. -/
def one : TouchState := Std.ExtTreeMap.ofList [(1, finger)]

/-- Another one touches beside it. -/
def two : TouchState := Std.ExtTreeMap.ofList [(1, finger), (2, finger)]

def taps (k : Nat) : List (TouchState × Nat) := (one, 2) :: (List.replicate k [(two, 2), (one, 2)]).flatten

/-- The first finger is down with the first id, and `k` more were handed out. -/
structure Holding (p : Touchpad) (k : Nat) : Prop where
  good : p.Good
  mem : ∀ id : ContactId, id ∈ p.state.contacts ↔ id = 1
  held : ∃ c : TargetContact, p.state.contacts[(1 : ContactId)]? = some c ∧ c.trackingId = 1
  nextId : p.state.nextTrackingId = succTrackingId^[k] 2

theorem mem_one (id : ContactId) : id ∈ one ↔ id = 1 := by
  simp only [one, Std.ExtTreeMap.mem_ofList, List.map_cons, List.map_nil, List.contains_cons, List.contains_nil,
    Bool.or_false, beq_iff_eq]

theorem one_few : one.size ≤ maxTouchpadContacts := by decide +kernel
theorem two_few : two.size ≤ maxTouchpadContacts := by decide +kernel

theorem two_toList : two.toList = [(1, finger), (2, finger)] := by decide +kernel

theorem Holding.tap {p : Touchpad} {k : Nat} (h : Holding p k) :
    Holding ((p.replaceAt two 2).replaceAt one 2) (k + 1) := by
  have hone : one[(1 : ContactId)]? = some finger := by decide +kernel
  have htwo : two[(1 : ContactId)]? = some finger := by decide +kernel
  obtain ⟨c, hc, hid⟩ := h.held
  obtain ⟨hgood, hmem, hkept, hnext⟩ := replaceAt_all h.good two_few
  obtain ⟨c', hc', hid'⟩ := hkept 1 finger c htwo hc
  obtain ⟨hgood', hmem', hkept', hnext'⟩ := replaceAt_all hgood one_few
  obtain ⟨c'', hc'', hid''⟩ := hkept' 1 finger c' hone hc'
  have hlanding : (landing p.state two).length = 1 := by
    simp [landing, two_toList, h.mem]
  have hnone : (landing (p.replaceAt two 2).state one).length = 0 := by
    rw [List.length_eq_zero_iff, landing, List.filter_eq_nil_iff]
    rintro ⟨id, contact⟩ hentry
    have hthere : id ∈ one := mem_of_getElem? (Std.ExtTreeMap.mem_toList_iff_getElem?_eq_some.mp hentry)
    have hstays : id ∈ (p.replaceAt two 2).state.contacts := (hmem id).mpr ((mem_one id).mp hthere ▸ mem_of_getElem? htwo)
    simpa using hstays
  refine ⟨hgood', fun id => (hmem' id).trans (mem_one id), ⟨c'', hc'', hid''.trans (hid'.trans hid)⟩, ?_⟩
  rw [hnext', hnone, hnext, hlanding, h.nextId]
  exact (Function.iterate_succ_apply' succTrackingId k 2).symm

theorem holding_taps (k : Nat) : Holding (new.ran (taps k)) k := by
  have hstart : Holding (new.replaceAt one 2) 0 := by
    obtain ⟨hgood, hmem, -, hnext⟩ := replaceAt_all good_new one_few
    refine ⟨hgood, fun id => (hmem id).trans (mem_one id), by decide +kernel, ?_⟩
    rw [hnext]
    decide +kernel
  show Holding ((new.replaceAt one 2).ran _) k
  induction k with
  | zero => exact hstart
  | succ k ih =>
    rw [List.replicate_succ', List.flatten_append]
    show Holding ((new.replaceAt one 2).ran (_ ++ _)) (k + 1)
    rw [ran, List.foldl_append]
    exact ih.tap

/-- Then the next one takes the finger's id. -/
theorem Holding.not_fresh {p : Touchpad} {k : Nat} (h : Holding p k) (hk : k % 65535 = 65534) : ¬ Fresh p.state two := by
  intro hfresh
  obtain ⟨c, hc, hid⟩ := h.held
  have hlanding : (landing p.state two).length = 1 := by
    simp [landing, two_toList, h.mem]
  have htwo : two[(1 : ContactId)]? = some finger := by decide +kernel
  refine hfresh 1 c hc (mem_of_getElem? htwo) 0 (by rw [hlanding]; exact Nat.one_pos) ?_
  rw [Function.iterate_zero, id_eq, h.nextId, succTrackingId_iterate ⟨by decide, by decide⟩, hid]
  omega

theorem not_exact_taps {k : Nat} (hk : k % 65535 = 65534) :
    ¬ ∃ reports, planTouchpadEvents (new.ran (taps k)).state two = some (.ok reports) ∧
      (new.ran (taps k)).Exact two reports := by
  rintro ⟨reports, hplan, hexact⟩
  have hholding := holding_taps k
  exact hholding.not_fresh hk ((exact_iff hholding.good (hexact.distinct 0) two_few).mp ⟨reports, hplan, hexact⟩)

theorem not_touchpad_exact :
    ¬ ∀ (history : List (TouchState × Nat)) (touch : TouchState), touch.size ≤ maxTouchpadContacts →
      ∃ reports, planTouchpadEvents (new.ran history).state touch = some (.ok reports) ∧
        (new.ran history).Exact touch reports :=
  fun hall => not_exact_taps (k := 65534) (by norm_num) (hall (taps 65534) two two_few)

end Touchpad

end Zflow.Linux
