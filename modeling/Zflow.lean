import Zflow.Laws.Core.PlayoutTurns
import Zflow.Laws.Session.Deadline
import Zflow.Laws.Session.Release
import Zflow.Laws.Daemon.Ownership
import Zflow.Laws.Daemon.Cleanup
import Zflow.Laws.Session.Negotiate
import Zflow.Laws.Daemon.Crossing
import Zflow.Laws.Macos.Receive
import Zflow.Laws.Daemon.Converge
import Zflow.Laws.Daemon.Dials
import Zflow.Laws.Macos.Handoff
import Zflow.Laws.Core.ReceiverNeutral
import Zflow.Laws.Pairing.Window
import Zflow.Laws.Core.Chords
import Zflow.Laws.App.Shown
import Zflow.Laws.Daemon.Initial
import Zflow.Laws.Desktop.Reconcile
import Zflow.Laws.Desktop.Placing
import Zflow.Laws.Pairing.Neighbors
import Zflow.Laws.Lens.Viewer
import Zflow.Laws.Lens.Frames
import Zflow.Laws.Session.Capture
import Zflow.Laws.Session.Desktop
import Zflow.Laws.App.Approach
import Zflow.Laws.Session.Metrics
import Zflow.Laws.Core.AdaptiveDelay
import Zflow.Laws.Settings.Trust
import Zflow.Laws.Settings.Document
import Zflow.Laws.Wire.Framing
import Zflow.Laws.Macos.Chosen
import Zflow.Laws.Macos.Edge
import Zflow.Laws.Daemon.Keeping
import Zflow.Laws.Daemon.Seat
import Zflow.Laws.Daemon.Hold
import Zflow.Laws.Core.Alike
import Zflow.Laws.Linux.Contacts
import Zflow.Laws.Linux.TouchpadPointer
import Zflow.Laws.Daemon.Scrolling
import Zflow.Laws.Linux.Grabs
import Zflow.Laws.Linux.Touch
import Zflow.Laws.Settings.Serde
import Zflow.Laws.Session.Connection
