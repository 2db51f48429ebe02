import Zflow.Core.Receiver
import Zflow.Lib.Metering

/-!
# Turning scrolling around

A peer's scrolling is turned around on three platforms: by the daemon on Linux (`src/daemon.rs`), while receiving
on a Mac (`src/macos/receive.rs`), and at the wheel on Windows (`src/windows/input.rs`). The first two negate
an `i64`; where that leaves the range the answer is `none`. `Daemon.reverseScrolling` of `Daemon/Policy` is the
same function over unbounded numbers.
-/

namespace Zflow

open Zflow.Core Lib

/-- One effect of `reverse_scrolling`, with the negations of an `i64`. -/
def negateScroll : ReceiverEffect → Option ReceiverEffect
  | .motion delta through => do
    let scrollX ← checkedI64 (-delta.scrollX)
    let scrollY ← checkedI64 (-delta.scrollY)
    return .motion { delta with scrollX, scrollY } through
  | other => some other

/-- `reverse_scrolling` of `src/daemon.rs`. -/
def Daemon.turnScrolling (effects : List ReceiverEffect) : Option (List ReceiverEffect) :=
  effects.mapM negateScroll

/-- `reverse_scrolling` of `src/macos/receive.rs`. -/
def Macos.turnScrolling (effects : List ReceiverEffect) : Option (List ReceiverEffect) :=
  effects.mapM negateScroll

/-- `flip` of `src/windows/input.rs`, when scrolling is reversed: `saturating_neg`. -/
def Windows.flip (amount : Int) : Int := saturateI64 (-amount)

/-- A displacement as a receiver emits it, with the sequence it goes through. -/
abbrev Motion := MotionDelta × MotionSequence

def Motion.effect (motion : Motion) : ReceiverEffect := .motion motion.1 motion.2

/-- The displacements among some effects. -/
def motions (effects : List ReceiverEffect) : List Motion :=
  effects.filterMap fun
    | .motion delta through => some (delta, through)
    | _ => none

end Zflow
