import Zflow.Core.Model
import Zflow.Lib.Check

/-!
# Offers and the negotiated session

What one peer offers for an input session and the schema the two settle on (`src/core/model.rs`).
A set of capabilities or pointer units is an ordered tree in the order of its declaration, as the
source's `BTreeSet` is.
-/

namespace Zflow.Core

open Lib

inductive InputCapability where
  | keyboard | consumerControls | pointer | scroll | touch
  deriving DecidableEq, Repr

namespace InputCapability

instance : Ord InputCapability := ⟨compareOn InputCapability.ctorIdx⟩

instance : Std.TransOrd InputCapability := inferInstanceAs (Std.TransCmp (compareOn InputCapability.ctorIdx))

instance : Std.LawfulEqOrd InputCapability where
  eq_of_compare {a b} h := by
    have hidx : a.ctorIdx = b.ctorIdx :=
      Std.LawfulEqOrd.eq_of_compare (show compare a.ctorIdx b.ctorIdx = .eq from h)
    cases a <;> cases b <;> first | rfl | cases hidx

end InputCapability

/-- Whether motion is the device's own, or already accelerated by the source desktop. -/
inductive PointerUnit where
  | deviceUnaccelerated | desktopAccelerated
  deriving DecidableEq

namespace PointerUnit

instance : Ord PointerUnit := ⟨compareOn PointerUnit.ctorIdx⟩

instance : Std.TransOrd PointerUnit := inferInstanceAs (Std.TransCmp (compareOn PointerUnit.ctorIdx))

instance : Std.LawfulEqOrd PointerUnit where
  eq_of_compare {a b} h := by
    have hidx : a.ctorIdx = b.ctorIdx :=
      Std.LawfulEqOrd.eq_of_compare (show compare a.ctorIdx b.ctorIdx = .eq from h)
    cases a <;> cases b <;> first | rfl | cases hidx

end PointerUnit

abbrev InputCapabilities := Std.ExtTreeSet InputCapability

/-- `is_superset`. -/
def InputCapabilities.isSuperset (set other : InputCapabilities) : Bool :=
  other.toList.all set.contains

@[simp]
theorem InputCapabilities.isSuperset_iff {set other : InputCapabilities} :
    set.isSuperset other = true ↔ ∀ capability ∈ other, capability ∈ set := by
  simp [isSuperset, Std.ExtTreeSet.contains_iff_mem]

structure ScrollFields where
  highResolution : Bool
  sourceUnit : Bool
  sourceResolution : Bool
  discreteSteps : Bool
  phase : Bool
  momentumPhase : Bool
  deriving DecidableEq

def ScrollFields.isSubsetOf (fields supported : ScrollFields) : Bool :=
  (!fields.highResolution || supported.highResolution)
    && (!fields.sourceUnit || supported.sourceUnit)
    && (!fields.sourceResolution || supported.sourceResolution)
    && (!fields.discreteSteps || supported.discreteSteps)
    && (!fields.phase || supported.phase)
    && (!fields.momentumPhase || supported.momentumPhase)

/-- Values one peer is willing to negotiate. -/
structure NegotiationOffer where
  maximumDatagramSize : Nat
  supportedCapabilities : InputCapabilities
  requiredCapabilities : InputCapabilities
  pointerUnits : Std.ExtTreeSet PointerUnit
  scrollFields : ScrollFields
  maximumContacts : Nat
  maximumReceiverLeaseMs : Nat
  maximumCheckpointBoundMs : Nat

/-- The single schema the two peers settle on. -/
structure NegotiatedSession where
  maximumDatagramSize : Nat
  capabilities : InputCapabilities
  pointerUnit : Option PointerUnit
  scrollFields : ScrollFields
  contactLimit : Nat
  receiverLeaseMs : Nat
  checkpointBoundMs : Nat
  deriving DecidableEq

inductive NegotiationError where
  | invalidDatagramSize
  | unsupportedCapability
  | missingRequiredCapability
  | unsupportedPointerUnit
  | unsupportedScrollFields
  | invalidContactLimit
  | invalidReceiverLease
  | invalidCheckpointBound
  deriving DecidableEq

namespace NegotiatedSession

/-- `MAX_RECEIVER_LEASE_MS`. -/
def maxReceiverLeaseMs : Nat := 1000

/-- `MAX_CHECKPOINT_BOUND_MS`. -/
def maxCheckpointBoundMs : Nat := 250

/-- A pointer unit goes with the pointer capability, and only with it. -/
def pointerUnitFits (session : NegotiatedSession) (offer : NegotiationOffer) : Bool :=
  match session.capabilities.contains .pointer, session.pointerUnit with
  | true, some unit => offer.pointerUnits.contains unit
  | false, none => true
  | _, _ => false

/-- A contact limit goes with the touch capability, and only with it. -/
def contactLimitFits (session : NegotiatedSession) (offer : NegotiationOffer) : Bool :=
  !(session.contactLimit > offer.maximumContacts
    || (session.capabilities.contains .touch && session.contactLimit == 0)
    || (!session.capabilities.contains .touch && session.contactLimit != 0))

/-- `0 < value ≤ offered`, and no more than the code's own bound. -/
def bounded (value bound offered : Nat) : Bool :=
  !(value == 0 || value > bound || value > offered)

def validateFor (session : NegotiatedSession) (offer : NegotiationOffer) :
    Except NegotiationError Unit := do
  refuseIf (session.maximumDatagramSize == 0
    || session.maximumDatagramSize > offer.maximumDatagramSize) .invalidDatagramSize
  refuseIf (!InputCapabilities.isSuperset offer.supportedCapabilities session.capabilities)
    .unsupportedCapability
  refuseIf (!InputCapabilities.isSuperset session.capabilities offer.requiredCapabilities)
    .missingRequiredCapability
  refuseIf (!session.pointerUnitFits offer) .unsupportedPointerUnit
  refuseIf (!session.scrollFields.isSubsetOf offer.scrollFields) .unsupportedScrollFields
  refuseIf (!session.contactLimitFits offer) .invalidContactLimit
  refuseIf (!bounded session.receiverLeaseMs maxReceiverLeaseMs offer.maximumReceiverLeaseMs)
    .invalidReceiverLease
  refuseIf (!bounded session.checkpointBoundMs maxCheckpointBoundMs offer.maximumCheckpointBoundMs)
    .invalidCheckpointBound

end NegotiatedSession

end Zflow.Core
