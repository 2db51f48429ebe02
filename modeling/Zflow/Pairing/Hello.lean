import Mathlib.Data.List.DropRight
import Zflow.Desktop.Protocol
import Zflow.Pairing.Address

/-!
# What a computer says about itself

`src/hello.rs`: the hello, the name a computer is shown under, and where one that said hello takes
input. Every field is only the sender's word.
-/

namespace Zflow.Pairing

open Desktop (isWhitespace)

/-- `MAX_NAME_BYTES`. -/
def maxNameBytes : Nat := 63

inductive Os where
  | linux
  | macos
  | windows

/-- What is read of a hello here. -/
structure Hello where
  name : String
  os : Os
  version : String
  inputPort : BitVec 16
  candidates : List SocketAddr

def trim (text : List Char) : List Char := (text.dropWhile isWhitespace).rdropWhile isWhitespace

/-- Without `.local` at its end, in any case. -/
def stripLocal (label : List Char) : List Char :=
  let stem := label.length - ".local".length
  if ".local".length ≤ label.length ∧ (label.drop stem).map Char.toLower = ".local".toList then
    label.take stem
  else label

/-- The words of a text, with one blank between them. -/
def joinWords (text : List Char) : List Char :=
  [' '].intercalate ((text.splitOnP (· = ' ')).filter (· ≠ []))

/-- `OWN_TILE_LABELS`: what this computer's own tiles are called. -/
def ownTileLabels : List String := ["This Mac", "This computer"]

/-- Whether a name is an own tile's label, once case, spaces and punctuation are left out. -/
def readsAsOwnTile (name : List Char) : Bool :=
  let letters (text : List Char) : List Char := (text.filter Char.isAlphanum).map Char.toLower
  ownTileLabels.any fun label => letters label.toList = letters name

/-- The name a computer is shown and saved under. What is kept is ASCII, so its bytes are its
characters. -/
def peerName (label : Option String) : String :=
  let kept := (stripLocal (trim (label.getD "").toList)).filter fun c =>
    c.isAlphanum || c ∈ [' ', '.', '-', '_', '\'']
  let name := ((joinWords kept).take maxNameBytes).rdropWhile isWhitespace
  if name = [] ∨ readsAsOwnTile name then "Computer" else String.ofList name

/-- This computer's name, from the label that its system gives it. -/
def localName (label : Option String) : String := peerName label

/-- `truncate`: the longest start of the text that fits the bytes. -/
def truncate : List Char → Nat → List Char
  | [], _ => []
  | c :: text, bytes => if c.utf8Size ≤ bytes then c :: truncate text (bytes - c.utf8Size) else []

/-- `MAX_VERSION_BYTES`. -/
def maxVersionBytes : Nat := 32

/-- `MAX_DISCOVERY_CANDIDATES`. -/
def maxDiscoveryCandidates : Nat := 16

/-- What this computer says of itself. -/
def makeHello (os : Os) (version name : String) (inputPort : BitVec 16) (candidates : List SocketAddr) : Hello where
  name := peerName (some name)
  os := os
  version := String.ofList (truncate version.toList maxVersionBytes)
  inputPort := inputPort
  candidates := (candidates.foldl
    (fun unique candidate => if unique.contains candidate then unique else unique ++ [candidate]) []).take
    maxDiscoveryCandidates

/-- Where a computer that said hello takes input: where it spoke from, on the port it named, then the
addresses it claims. -/
def helloAddresses (remote : SocketAddr) (hello : Hello) : List SocketAddr :=
  hello.candidates.foldl
    (fun addresses candidate =>
      if (validateSocketAddress candidate).isOk && !addresses.contains candidate then
        addresses ++ [candidate]
      else addresses)
    [.new remote.ip.toCanonical hello.inputPort]

end Zflow.Pairing
