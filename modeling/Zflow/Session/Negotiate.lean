import Zflow.Core.Negotiation

/-!
# Session negotiation

How two peers settle on a session, and the checks that keep a peer inside what it negotiated
(`src/session/negotiate.rs`). `negotiate` reads the first two messages of the peer; what else a
control stream can carry is `other`, and a transport that fails is not modelled.
-/

namespace Zflow.Session

open Zflow.Core Lib

inductive NegotiateError where
  | lacksRequired
  | negotiation (error : NegotiationError)
  | noOffer
  | unfinished
  | different
  | usagePage
  | scrollTotals
  | contactLimit
  | touchState
  | without (event : String) (capability : InputCapability)
  deriving DecidableEq

/-- `intersect_scroll_fields`. -/
def intersectScrollFields (left right : ScrollFields) : ScrollFields where
  highResolution := left.highResolution && right.highResolution
  sourceUnit := left.sourceUnit && right.sourceUnit
  sourceResolution := left.sourceResolution && right.sourceResolution
  discreteSteps := left.discreteSteps && right.discreteSteps
  phase := left.phase && right.phase
  momentumPhase := left.momentumPhase && right.momentumPhase

/-- What both offer: the session `select_negotiation` builds before it checks it. -/
def offeredByBoth (left right : NegotiationOffer) : NegotiatedSession :=
  let capabilities : InputCapabilities :=
    .ofList (left.supportedCapabilities.toList.filter right.supportedCapabilities.contains)
  { maximumDatagramSize := min left.maximumDatagramSize right.maximumDatagramSize
    capabilities
    pointerUnit := (left.pointerUnits.toList.filter right.pointerUnits.contains).head?
    scrollFields := intersectScrollFields left.scrollFields right.scrollFields
    contactLimit :=
      if capabilities.contains .touch then min left.maximumContacts right.maximumContacts else 0
    receiverLeaseMs := min left.maximumReceiverLeaseMs right.maximumReceiverLeaseMs
    checkpointBoundMs := min left.maximumCheckpointBoundMs right.maximumCheckpointBoundMs }

/-- `validate_for`, as `?` reports it. -/
def validate (selected : NegotiatedSession) (offer : NegotiationOffer) :
    Except NegotiateError Unit :=
  (selected.validateFor offer).mapError .negotiation

def selectNegotiation (left right : NegotiationOffer) :
    Except NegotiateError NegotiatedSession := do
  let selected := offeredByBoth left right
  refuseIf (!InputCapabilities.isSuperset selected.capabilities left.requiredCapabilities
    || !InputCapabilities.isSuperset selected.capabilities right.requiredCapabilities) .lacksRequired
  validate selected left
  validate selected right
  return selected

/-- What a peer's control stream can carry, as far as negotiation tells it apart. -/
inductive InputControlMessage where
  | negotiationOffer (offer : NegotiationOffer)
  | negotiatedSession (session : NegotiatedSession)
  | other

/-- What this side sends after the peer's first message, if it gets that far. -/
def answerOffer (own : NegotiationOffer) :
    InputControlMessage → Except NegotiateError NegotiatedSession
  | .negotiationOffer remote => selectNegotiation own remote
  | _ => throw .noOffer

/-- The session this side ends with, from the peer's first two messages. -/
def negotiate (own : NegotiationOffer) (first second : InputControlMessage) :
    Except NegotiateError NegotiatedSession := do
  let selected ← answerOffer own first
  match second with
  | .negotiatedSession peerSelected =>
    refuseIf (peerSelected ≠ selected) .different
    return selected
  | _ => throw .unfinished

/-! ## What a peer may send -/

def requireCapability (negotiated : NegotiatedSession) (capability : InputCapability)
    (event : String) : Except NegotiateError Unit :=
  refuseIf (!negotiated.capabilities.contains capability) (.without event capability)

/-- `HidUsagePage::CONSUMER`. -/
def consumerPage : Nat := 0x0c

def validateNegotiatedUsage (usage : HidUsage) (negotiated : NegotiatedSession) :
    Except NegotiateError Unit :=
  if usage.page = HidUsage.keyboardKeypad then
    requireCapability negotiated .keyboard "key usage"
  else if usage.page = consumerPage then
    requireCapability negotiated .consumerControls "key usage"
  else
    .error .usagePage

def validateNegotiatedTouch (state : TouchState) (negotiated : NegotiatedSession) :
    Except NegotiateError Unit := do
  refuseIf (state.size > negotiated.contactLimit) .contactLimit
  refuseIf (!state.isEmpty && !negotiated.capabilities.contains .touch) .touchState

/-- The checks a motion frame and an anchor share, with their own names for what was sent. -/
def validateTotals (totals : CumulativeMotion) (negotiated : NegotiatedSession)
    (pointer scroll : String) : Except NegotiateError Unit := do
  checkIf (totals.totalDx ≠ 0 ∨ totals.totalDy ≠ 0) do
    requireCapability negotiated .pointer pointer
  checkIf (totals.totalScrollX ≠ 0 ∨ totals.totalScrollY ≠ 0) do
    requireCapability negotiated .scroll scroll
    refuseIf (!negotiated.scrollFields.highResolution) .scrollTotals

def validateNegotiatedAnchor (anchor : MotionAnchor) (negotiated : NegotiatedSession) :
    Except NegotiateError Unit := do
  validateTotals anchor.totals negotiated "pointer anchor" "scroll anchor"
  validateNegotiatedTouch anchor.finalTouchState negotiated

def validateNegotiatedHeld (state : HeldState) (negotiated : NegotiatedSession) :
    Except NegotiateError Unit := do
  state.pressedKeys.toList.forM (validateNegotiatedUsage · negotiated)
  checkIf (!state.pressedButtons.isEmpty) do
    requireCapability negotiated .pointer "pointer button"
  validateNegotiatedTouch state.activeTouch negotiated

def validateNegotiatedControl (payload : ReliableControl) (negotiated : NegotiatedSession) :
    Except NegotiateError Unit := do
  match payload with
  | .enter | .snapshotAck _ => return
  | .keyDown key | .keyUp key => validateNegotiatedUsage key negotiated
  | .buttonDown _ anchor | .buttonUp _ anchor =>
    requireCapability negotiated .pointer "pointer button"
    validateNegotiatedAnchor anchor negotiated
  | .touchBegin initialState =>
    requireCapability negotiated .touch "touch control"
    validateNegotiatedTouch initialState negotiated
  | .touchEnd anchor | .touchCancel anchor =>
    requireCapability negotiated .touch "touch control"
    validateNegotiatedAnchor anchor negotiated
  | .stateSnapshot snapshot =>
    validateNegotiatedHeld snapshot.held negotiated
    validateNegotiatedAnchor snapshot.motionAnchor negotiated
  | .sessionClose _ (some anchor) => validateNegotiatedAnchor anchor negotiated
  | .sessionClose _ none => return

def validateNegotiatedMotion (frame : MotionFrame) (negotiated : NegotiatedSession) :
    Except NegotiateError Unit := do
  validateTotals frame.totals negotiated "pointer motion" "scroll motion"
  match frame.touchSnapshot with
  | some touch =>
    requireCapability negotiated .touch "touch snapshot"
    validateNegotiatedTouch touch negotiated
  | none => return

end Zflow.Session
