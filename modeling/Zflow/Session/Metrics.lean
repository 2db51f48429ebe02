import Std.Data.ExtTreeSet
import Zflow.Lib.Checked

/-!
# Motion sequence metrics

What `SessionMetrics` (`src/metrics.rs`) makes of the sequence numbers of motion datagrams: how many were lost, came late
or came twice. The sample windows and the other counters are left out.
-/

namespace Zflow.Session

open Lib

/-- `SEQUENCE_TRACKING_WINDOW`. -/
def sequenceTrackingWindow : Nat := 4096

structure SessionMetrics where
  /-- Unrecovered motion-sequence gaps observed in this live session. -/
  loss : Nat
  reordered : Nat
  duplicateDatagrams : Nat
  highestMotionSequence : Nat
  recentMotionSequences : Std.ExtTreeSet Nat
  lastPacketDelayUs : Option Nat
  deriving DecidableEq

namespace SessionMetrics

def beginActivation (m : SessionMetrics) : SessionMetrics :=
  { m with highestMotionSequence := 0, recentMotionSequences := ∅, lastPacketDelayUs := none }

/-- The lowest sequence that is still tracked below a highest one. -/
def trackingFloor (highest : Nat) : Nat := highest - (sequenceTrackingWindow - 1)

/-- Tracks sequence gaps without retaining an unbounded session history. Late arrivals repair the loss estimate while
they remain in the recent window. -/
def observeMotionSequence (sequence : Nat) (m : SessionMetrics) : SessionMetrics :=
  if sequence = 0 then m
  else if m.highestMotionSequence < sequence then
    { m with
      loss := saturatingAdd m.loss (sequence - m.highestMotionSequence - 1)
      highestMotionSequence := sequence
      recentMotionSequences :=
        (m.recentMotionSequences.insert sequence).filter fun tracked => trackingFloor sequence ≤ tracked }
  else if sequence < trackingFloor m.highestMotionSequence then m
  else if sequence ∈ m.recentMotionSequences then
    { m with duplicateDatagrams := saturatingAdd m.duplicateDatagrams 1 }
  else { m with
    recentMotionSequences := m.recentMotionSequences.insert sequence
    reordered := saturatingAdd m.reordered 1
    loss := m.loss - 1 }

/-- An activation: its sequences as they are observed. -/
def activation (m : SessionMetrics) (sequences : List Nat) : SessionMetrics :=
  sequences.foldl (fun m sequence => observeMotionSequence sequence m) m.beginActivation

end SessionMetrics

end Zflow.Session
