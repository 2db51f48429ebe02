import Mathlib
import Zflow.Core.Negotiation
import Zflow.Pairing.Hello

/-!
# The record a computer publishes

`src/discovery.rs`: the text fields of the mDNS record, as one computer writes them and another reads them. The instance
name, the host name and the addresses are left out.
-/

namespace Zflow.Pairing

open Zflow.Core

/-- `INPUT_ALPN_PROTOCOL`. -/
def inputAlpnProtocol : String := "zflow/8"

def maxTxtProperties : Nat := 8

def maxTxtBytes : Nat := 384

def txtProtocol : String := "v"

def txtCapabilities : String := "cap"

def txtName : String := "name"

/-- What zflow publishes of itself. -/
structure Advertisement where
  quicPort : BitVec 16
  capabilitySummary : InputCapabilities
  name : Option String

inductive CandidateParseError where
  | tooManyTxtProperties
  | txtTooLarge
  | invalidTxtValue
  | duplicateTxtProperty
  | missingTxtProperty (key : String)
  | invalidCapabilities

/-- A text field, which may have no value. -/
structure TxtProperty where
  key : String
  val : Option ByteArray

structure ParsedTxt where
  compatible : Bool
  capabilitySummary : InputCapabilities
  name : Option String

def capabilityName : InputCapability → String
  | .keyboard => "keyboard"
  | .consumerControls => "consumer"
  | .pointer => "pointer"
  | .scroll => "scroll"
  | .touch => "touch"

def capabilityFromName (name : String) : Option InputCapability :=
  match name with
  | "keyboard" => some .keyboard
  | "consumer" => some .consumerControls
  | "pointer" => some .pointer
  | "scroll" => some .scroll
  | "touch" => some .touch
  | _ => none

def formatCapabilities (capabilities : InputCapabilities) : String :=
  ",".intercalate (capabilities.toList.map capabilityName)

/-- A name this version does not know is a capability from a newer one. -/
def parseCapabilities (value : String) : Except CandidateParseError InputCapabilities :=
  if value = "" ∨ 96 < value.utf8ByteSize then .error .invalidCapabilities
  else
    ((value.toList.splitOnP (· = ',')).filterMap fun name => capabilityFromName (String.ofList name)).foldlM
      (fun capabilities capability =>
        if capabilities.contains capability then .error .invalidCapabilities
        else .ok (capabilities.insert capability)) ∅

namespace Advertisement

/-- Names the computer in the record, in the plain form a tile shows. -/
def withName (advertisement : Advertisement) (name : String) : Advertisement :=
  { advertisement with name := some (peerName (some name)) }

/-- The text fields of `build_service_info`. -/
def properties (advertisement : Advertisement) : List TxtProperty :=
  [⟨txtProtocol, some inputAlpnProtocol.toByteArray⟩,
    ⟨txtCapabilities, some (formatCapabilities advertisement.capabilitySummary).toByteArray⟩] ++
  advertisement.name.toList.map fun name => ⟨txtName, some name.toByteArray⟩

end Advertisement

/-- What is read of the fields so far. -/
structure TxtFields where
  totalSize : Nat
  compatible : Option Bool
  capabilities : Option InputCapabilities
  name : Option String

/-- One turn of the loop of `parse_txt`. -/
def readProperty (fields : TxtFields) (property : TxtProperty) : Except CandidateParseError TxtFields := do
  let some value := property.val | throw .invalidTxtValue
  let totalSize := fields.totalSize + (1 + property.key.utf8ByteSize + 1 + value.size)
  if maxTxtBytes < totalSize then throw .txtTooLarge
  let some value := String.fromUTF8? value | throw .invalidTxtValue
  let fields := { fields with totalSize }
  if property.key = txtProtocol ∧ fields.compatible = none then
    return { fields with compatible := some (value = inputAlpnProtocol) }
  else if property.key = txtCapabilities ∧ fields.capabilities = none then
    return { fields with capabilities := some (← parseCapabilities value) }
  else if property.key = txtName ∧ fields.name = none then
    return { fields with name := some (peerName (some value)) }
  else if property.key ∈ [txtProtocol, txtCapabilities, txtName] then throw .duplicateTxtProperty
  -- another version's key
  else return fields

def parseTxt (properties : List TxtProperty) : Except CandidateParseError ParsedTxt := do
  if maxTxtProperties < properties.length then throw .tooManyTxtProperties
  let fields ← properties.foldlM readProperty ⟨0, none, none, none⟩
  let some compatible := fields.compatible | throw (.missingTxtProperty txtProtocol)
  let some capabilitySummary := fields.capabilities | throw (.missingTxtProperty txtCapabilities)
  return ⟨compatible, capabilitySummary, fields.name⟩

end Zflow.Pairing
