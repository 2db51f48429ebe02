import Zflow.Laws.Core.Held
import Zflow.Session.Negotiate

/-!
# Both peers negotiate the same session

A session is no better than another when it lets through no more: `NegotiatedSession` is ordered by
that. What `selectNegotiation` answers is the greatest session that validates against both offers, and
it is the same one from either side.
-/

namespace Zflow.Core

open Lib

theorem ScrollFields.isSubsetOf_iff {fields supported : ScrollFields} : fields.isSubsetOf supported = true ↔
      (fields.highResolution → supported.highResolution) ∧ (fields.sourceUnit → supported.sourceUnit) ∧
      (fields.sourceResolution → supported.sourceResolution) ∧
      (fields.discreteSteps → supported.discreteSteps) ∧
      (fields.phase → supported.phase) ∧
      (fields.momentumPhase → supported.momentumPhase) := by
  simp only [isSubsetOf, Bool.and_eq_true, Bool.or_eq_true, Bool.not_eq_true', and_assoc,
    ← Bool.not_eq_true, ← imp_iff_not_or]

namespace NegotiatedSession

/-- **No better**: the session lets through no more than the chosen one. A pointer unit is the better
the earlier it is declared. -/
structure NoBetter (session chosen : NegotiatedSession) : Prop where
  datagram : session.maximumDatagramSize ≤ chosen.maximumDatagramSize
  capabilities : ∀ capability ∈ session.capabilities, capability ∈ chosen.capabilities
  pointerUnit : ∀ unit, session.pointerUnit = some unit →
    ∃ first, chosen.pointerUnit = some first ∧ (compare first unit).isLE = true
  scrollFields : session.scrollFields.isSubsetOf chosen.scrollFields = true
  contactLimit : session.contactLimit ≤ chosen.contactLimit
  receiverLease : session.receiverLeaseMs ≤ chosen.receiverLeaseMs
  checkpointBound : session.checkpointBoundMs ≤ chosen.checkpointBoundMs

instance : LE NegotiatedSession := ⟨NoBetter⟩

/-- What `validateFor` accepts, as one statement. -/
structure Fits (session : NegotiatedSession) (offer : NegotiationOffer) : Prop where
  datagram : session.maximumDatagramSize ≠ 0 ∧
    session.maximumDatagramSize ≤ offer.maximumDatagramSize
  supported : ∀ capability ∈ session.capabilities, capability ∈ offer.supportedCapabilities
  required : ∀ capability ∈ offer.requiredCapabilities, capability ∈ session.capabilities
  pointerUnit : session.pointerUnitFits offer = true
  scrollFields : session.scrollFields.isSubsetOf offer.scrollFields = true
  contactLimit : session.contactLimitFits offer = true
  receiverLease : bounded session.receiverLeaseMs maxReceiverLeaseMs
    offer.maximumReceiverLeaseMs = true
  checkpointBound : bounded session.checkpointBoundMs maxCheckpointBoundMs
    offer.maximumCheckpointBoundMs = true

theorem validateFor_eq_ok {session : NegotiatedSession} {offer : NegotiationOffer} :
    session.validateFor offer = .ok () ↔ session.Fits offer := by
  simp only [validateFor, check_bind_eq_ok, refuseIf_eq_ok, Bool.not_eq_false',
    InputCapabilities.isSuperset_iff, Bool.or_eq_false_iff, beq_eq_false_iff_ne,
    decide_eq_false_iff_not, gt_iff_lt, Nat.not_lt]
  constructor
  · intro h
    obtain ⟨hdatagram, hsupported, hrequired, hunit, hscroll, hcontact, hlease, hcheckpoint⟩ := h
    exact ⟨hdatagram, hsupported, hrequired, hunit, hscroll, hcontact, hlease, hcheckpoint⟩
  · intro h
    exact ⟨h.datagram, h.supported, h.required, h.pointerUnit, h.scrollFields, h.contactLimit,
      h.receiverLease, h.checkpointBound⟩

theorem bounded_iff {value bound offered : Nat} :
    bounded value bound offered = true ↔ value ≠ 0 ∧ value ≤ bound ∧ value ≤ offered := by
  simp [bounded, and_assoc]

theorem contactLimitFits_iff {session : NegotiatedSession} {offer : NegotiationOffer} :
    session.contactLimitFits offer = true ↔ session.contactLimit ≤ offer.maximumContacts ∧
      (session.contactLimit = 0 ↔ InputCapability.touch ∉ session.capabilities) := by
  rw [← Std.ExtTreeSet.contains_iff_mem]
  cases htouch : session.capabilities.contains .touch <;> simp [contactLimitFits, htouch]

/-- The unit of a session that fits is one the offer names. -/
theorem Fits.unit_mem {session : NegotiatedSession} {offer : NegotiationOffer} {unit : PointerUnit}
    (h : session.Fits offer) (hunit : session.pointerUnit = some unit) :
    unit ∈ offer.pointerUnits := by
  have hfits := h.pointerUnit
  unfold pointerUnitFits at hfits
  rw [hunit] at hfits
  cases hpointer : session.capabilities.contains .pointer
  · rw [hpointer] at hfits
    cases hfits
  · rw [hpointer] at hfits
    exact Std.ExtTreeSet.mem_iff_contains.mpr hfits

end NegotiatedSession

end Zflow.Core

namespace Zflow.Session

open Zflow.Core Lib NegotiatedSession

theorem mem_offeredByBoth {left right : NegotiationOffer} {capability : InputCapability} :
    capability ∈ (offeredByBoth left right).capabilities ↔
      capability ∈ left.supportedCapabilities ∧ capability ∈ right.supportedCapabilities := by
  simp only [offeredByBoth, Std.ExtTreeSet.mem_ofList, List.contains_iff_mem, List.mem_filter,
    Std.ExtTreeSet.mem_toList, Std.ExtTreeSet.contains_iff_mem]

theorem mem_units {left right : Std.ExtTreeSet PointerUnit} {unit : PointerUnit} :
    unit ∈ left.toList.filter right.contains ↔ unit ∈ left ∧ unit ∈ right := by
  rw [List.mem_filter, Std.ExtTreeSet.mem_toList, Std.ExtTreeSet.contains_iff_mem]

theorem units_pairwise (left right : Std.ExtTreeSet PointerUnit) :
    (left.toList.filter right.contains).Pairwise fun a b => compare a b = .lt :=
  left.ordered_toList.filter _

/-- The units both name, in their order, are the same from either side. -/
theorem units_comm (left right : Std.ExtTreeSet PointerUnit) :
    left.toList.filter right.contains = right.toList.filter left.contains := by
  have hperm : (left.toList.filter right.contains).Perm (right.toList.filter left.contains) := by
    rw [List.perm_ext_iff_of_nodup ((nodup_toList left).filter _) ((nodup_toList right).filter _)]
    intro unit
    rw [mem_units, mem_units, and_comm]
  apply hperm.eq_of_pairwise _ (units_pairwise left right) (units_pairwise right left)
  intro a b _ _ hab hba
  rw [Std.OrientedOrd.eq_swap, hba] at hab
  cases hab

/-- The unit chosen is the first of those both name. -/
theorem head_units_le {left right : Std.ExtTreeSet PointerUnit} {unit : PointerUnit}
    (hleft : unit ∈ left) (hright : unit ∈ right) :
    ∃ first, (left.toList.filter right.contains).head? = some first ∧ (compare first unit).isLE = true := by
  have hmem := mem_units.mpr ⟨hleft, hright⟩
  have hsorted := units_pairwise left right
  cases hunits : left.toList.filter right.contains with
  | nil =>
    rw [hunits] at hmem
    cases hmem
  | cons first rest =>
    rw [hunits] at hmem hsorted
    refine ⟨first, rfl, ?_⟩
    rcases List.mem_cons.mp hmem with heq | hrest
    · rw [heq, Std.ReflOrd.compare_self]
      rfl
    · rw [List.rel_of_pairwise_cons hsorted hrest]
      rfl

theorem intersectScrollFields_comm (left right : ScrollFields) :
    intersectScrollFields left right = intersectScrollFields right left := by
  simp only [intersectScrollFields, Bool.and_comm]

/-- What both offer is the same from either side. -/
theorem offeredByBoth_comm (left right : NegotiationOffer) :
    offeredByBoth left right = offeredByBoth right left := by
  have hcapabilities : (offeredByBoth left right).capabilities = (offeredByBoth right left).capabilities := by
    apply Std.ExtTreeSet.ext_mem
    intro capability
    rw [mem_offeredByBoth, mem_offeredByBoth, and_comm]
  unfold offeredByBoth at hcapabilities ⊢
  dsimp only at hcapabilities
  simp only [hcapabilities, units_comm left.pointerUnits, intersectScrollFields_comm left.scrollFields,
    Nat.min_comm left.maximumDatagramSize, Nat.min_comm left.maximumContacts,
    Nat.min_comm left.maximumReceiverLeaseMs, Nat.min_comm left.maximumCheckpointBoundMs]

/-- The selection answers what both offer, where that validates against both. -/
theorem selectNegotiation_eq_ok {left right : NegotiationOffer} {selected : NegotiatedSession} :
    selectNegotiation left right = .ok selected ↔
      selected = offeredByBoth left right ∧ selected.Fits left ∧ selected.Fits right := by
  simp only [selectNegotiation, validate, check_bind_eq_ok, Act.mapError_eq_ok, refuseIf_eq_ok,
    validateFor_eq_ok, Bool.or_eq_false_iff, Bool.not_eq_false', InputCapabilities.isSuperset_iff]
  constructor
  · intro h
    obtain ⟨_, hleft, hright, hselected⟩ := h
    cases hselected
    exact ⟨rfl, hleft, hright⟩
  · intro h
    obtain ⟨hselected, hleft, hright⟩ := h
    subst hselected
    exact ⟨⟨hleft.required, hright.required⟩, hleft, hright, rfl⟩

/-- No session that validates against both offers is better than what both offer. -/
theorem le_offeredByBoth {left right : NegotiationOffer} {session : NegotiatedSession}
    (hleft : session.Fits left) (hright : session.Fits right) : session ≤ offeredByBoth left right where
  datagram := Nat.le_min.mpr ⟨hleft.datagram.2, hright.datagram.2⟩
  capabilities capability hmem :=
    mem_offeredByBoth.mpr ⟨hleft.supported capability hmem, hright.supported capability hmem⟩
  pointerUnit unit hunit := head_units_le (hleft.unit_mem hunit) (hright.unit_mem hunit)
  scrollFields := by
    have hl := ScrollFields.isSubsetOf_iff.mp hleft.scrollFields
    have hr := ScrollFields.isSubsetOf_iff.mp hright.scrollFields
    rw [ScrollFields.isSubsetOf_iff]
    simp only [offeredByBoth, intersectScrollFields, Bool.and_eq_true]
    grind
  contactLimit := by
    obtain ⟨hl, htouch⟩ := contactLimitFits_iff.mp hleft.contactLimit
    obtain ⟨hr, -⟩ := contactLimitFits_iff.mp hright.contactLimit
    by_cases hmem : InputCapability.touch ∈ session.capabilities
    · have hboth := mem_offeredByBoth.mpr ⟨hleft.supported _ hmem, hright.supported _ hmem⟩
      rw [Std.ExtTreeSet.mem_iff_contains] at hboth
      show _ ≤ if (offeredByBoth left right).capabilities.contains .touch then _ else _
      rw [if_pos hboth]
      exact Nat.le_min.mpr ⟨hl, hr⟩
    · rw [htouch.mpr hmem]
      exact Nat.zero_le _
  receiverLease := Nat.le_min.mpr ⟨(bounded_iff.mp hleft.receiverLease).2.2, (bounded_iff.mp hright.receiverLease).2.2⟩
  checkpointBound := Nat.le_min.mpr
    ⟨(bounded_iff.mp hleft.checkpointBound).2.2, (bounded_iff.mp hright.checkpointBound).2.2⟩

/-- **Both peers negotiate the same session**: the selection succeeds from one side just when it does
from the other, with the same session; and that is the greatest of the sessions that validate against
both offers. -/
theorem negotiation_agrees (left right : NegotiationOffer) :
    (∀ selected, selectNegotiation left right = .ok selected ↔ selectNegotiation right left = .ok selected) ∧
    ∀ selected, selectNegotiation left right = .ok selected → IsGreatest {session : NegotiatedSession |
        session.validateFor left = .ok () ∧ session.validateFor right = .ok ()} selected := by
  constructor
  · intro selected
    rw [selectNegotiation_eq_ok, selectNegotiation_eq_ok, offeredByBoth_comm left right,
      and_comm (a := selected.Fits left)]
  · intro selected h
    obtain ⟨hselected, hleft, hright⟩ := selectNegotiation_eq_ok.mp h
    constructor
    · exact ⟨validateFor_eq_ok.mpr hleft, validateFor_eq_ok.mpr hright⟩
    · intro session ⟨hl, hr⟩
      rw [hselected]
      exact le_offeredByBoth (validateFor_eq_ok.mp hl) (validateFor_eq_ok.mp hr)

/-- An offer of keys, a pointer and touch. -/
def fullOffer (contacts leaseMs : Nat) : NegotiationOffer where
  maximumDatagramSize := 1200
  supportedCapabilities := .ofList [InputCapability.keyboard, .consumerControls, .pointer, .touch]
  requiredCapabilities := .ofList [InputCapability.keyboard, .pointer]
  pointerUnits := .ofList [PointerUnit.deviceUnaccelerated]
  scrollFields := ⟨true, false, false, true, false, false⟩
  maximumContacts := contacts
  maximumReceiverLeaseMs := leaseMs
  maximumCheckpointBoundMs := 50

theorem negotiation_agrees_sample : ∃ selected, selectNegotiation (fullOffer 10 200) (fullOffer 5 300) = .ok selected ∧
      selectNegotiation (fullOffer 5 300) (fullOffer 10 200) = .ok selected ∧
      selected.contactLimit = 5 ∧ selected.receiverLeaseMs = 200 ∧
      IsGreatest {session : NegotiatedSession | session.validateFor (fullOffer 10 200) = .ok () ∧
        session.validateFor (fullOffer 5 300) = .ok ()} selected := by
  have h : selectNegotiation (fullOffer 10 200) (fullOffer 5 300) =
      .ok (offeredByBoth (fullOffer 10 200) (fullOffer 5 300)) := by decide +kernel
  obtain ⟨hsame, hgreatest⟩ := negotiation_agrees (fullOffer 10 200) (fullOffer 5 300)
  exact ⟨_, h, (hsame _).mp h, by decide +kernel, by decide +kernel, hgreatest _ h⟩

/-! ## Two peers -/

theorem negotiate_eq_ok {own : NegotiationOffer} {first second : InputControlMessage}
    {session : NegotiatedSession} : negotiate own first second = .ok session ↔
      ∃ remote, first = .negotiationOffer remote ∧ selectNegotiation own remote = .ok session ∧
        second = .negotiatedSession session := by
  constructor
  · intro h
    obtain ⟨selected, hanswer, hrest⟩ := Act.except_bind_eq_ok.mp h
    cases first with
    | negotiationOffer remote =>
      cases second with
      | negotiatedSession peerSelected =>
        obtain ⟨hsame, hselected⟩ := check_bind_eq_ok.mp hrest
        rw [refuseIf_eq_ok, decide_eq_false_iff_not, not_not] at hsame
        cases hselected
        exact ⟨remote, rfl, hanswer, by rw [hsame]⟩
      | _ => exact nomatch hrest
    | _ => exact nomatch hanswer
  · rintro ⟨remote, rfl, hanswer, rfl⟩
    have hsame : refuseIf (decide (session ≠ session)) NegotiateError.different = .ok () :=
      refuseIf_eq_ok.mpr (decide_eq_false (not_not.mpr rfl))
    exact Act.except_bind_eq_ok.mpr ⟨session, hanswer, check_bind_eq_ok.mpr ⟨hsame, rfl⟩⟩

/-- **Two peers that answer each other end with one session.** What either makes of the other's offer
is what the other waits for, so neither is refused as different. -/
theorem negotiate_answered {left right : NegotiationOffer} {selected : NegotiatedSession}
    (h : answerOffer left (.negotiationOffer right) = .ok selected) :
    negotiate left (.negotiationOffer right) (.negotiatedSession selected) = .ok selected ∧
      answerOffer right (.negotiationOffer left) = .ok selected ∧
      negotiate right (.negotiationOffer left) (.negotiatedSession selected) = .ok selected := by
  have hother : selectNegotiation right left = .ok selected := by
    obtain ⟨heq, hleft, hright⟩ := selectNegotiation_eq_ok.mp h
    exact selectNegotiation_eq_ok.mpr ⟨heq.trans (offeredByBoth_comm left right), hright, hleft⟩
  exact ⟨negotiate_eq_ok.mpr ⟨right, rfl, h, rfl⟩, hother, negotiate_eq_ok.mpr ⟨left, rfl, hother, rfl⟩⟩

end Zflow.Session
