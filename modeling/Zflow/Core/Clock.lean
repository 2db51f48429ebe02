import Zflow.Core.Model
import Zflow.Lib.Act

/-!
# The clock mapper, as playout uses it

`src/core/clock.rs` fits an affine map from sender time to receiver time in floating point. Playout
and the receive side of a session use it only through its methods, and no result about them depends
on the fit; so the mapper is a type with those methods. What a result assumes of the map (that it is
total and monotone) it names as a hypothesis.
-/

namespace Zflow.Core

open Lib

inductive ClockError where
  | invalidConfig (message : String)
  | invalidSample (message : String)
  | notReady
  | mappedTimeOutOfRange
  deriving DecidableEq

/-- Four timestamps from a receiver-originated probe and sender echo. -/
structure ProbeExchange where
  receiverSentAt : MonotonicTimeMicros
  senderReceivedAt : MonotonicTimeMicros
  senderEchoedAt : MonotonicTimeMicros
  receiverReceivedAt : MonotonicTimeMicros

/-- The methods of a `ClockMapper`. `new` is with the default configuration. -/
class ClockMapper (C : Type) where
  new : Except ClockError C
  isReady : C → Bool
  usesArrivalBootstrap : C → Bool
  bootstrapFromArrival : MonotonicTimeMicros → MonotonicTimeMicros → Act ClockError C Unit
  ingestProbe : ProbeExchange → Act ClockError C Unit
  map : C → MonotonicTimeMicros → Except ClockError MonotonicTimeMicros

end Zflow.Core
