import DesktopPet.Main
import DesktopPet.Proofs.Manager.Modes
import DesktopPet.Proofs.Manager.Passes
import DesktopPet.Proofs.Manager.Reachable
import DesktopPet.Proofs.Pack.Compiled
import DesktopPet.Proofs.Pack.Names
import DesktopPet.Proofs.Settings.Ranges
import DesktopPet.Proofs.Manager.Staging
import DesktopPet.Proofs.Manager.Registry
import DesktopPet.Proofs.Pet.Phases
import DesktopPet.Proofs.Playback.Indexing
import DesktopPet.Proofs.Manager.Independence
import DesktopPet.Proofs.Pet.Agreement
import DesktopPet.Proofs.Pet.Requests
import DesktopPet.Proofs.Manager.Behavior
import DesktopPet.Proofs.Condition.Grammar
import DesktopPet.Proofs.Condition.Soundness
import DesktopPet.Proofs.Condition.Completeness
import DesktopPet.Proofs.Manager.Containment
import DesktopPet.Proofs.Manager.Failures
import DesktopPet.Proofs.Playback.Turns
import DesktopPet.Proofs.Playback.Sequence
import DesktopPet.Proofs.Condition.Lexing
import DesktopPet.Proofs.Number.Notation
import DesktopPet.Proofs.Condition.Printed
import DesktopPet.Proofs.Condition.RoundTrip
import DesktopPet.Proofs.Area.Lines
import DesktopPet.Proofs.Manager.Room
import DesktopPet.Proofs.Selection.Choice
import DesktopPet.Proofs.Ini.RoundTrip
import DesktopPet.Proofs.Settings.Saved
import DesktopPet.Proofs.Manager.Hidden
import DesktopPet.Proofs.Manager.Sound
import DesktopPet.Proofs.Pack.Report
import DesktopPet.Proofs.Pet.Eligibility
import DesktopPet.Proofs.Pack.Clean
import DesktopPet.Proofs.Manager.Loading
import DesktopPet.Proofs.Playback.Sounds
import DesktopPet.Proofs.Playback.Gaps
import DesktopPet.Proofs.Playback.Blocks
import DesktopPet.Proofs.Playback.Endings
import DesktopPet.Proofs.Playback.ChildCaps
import DesktopPet.Proofs.Manager.Throws
import DesktopPet.Proofs.Number.Sign
import DesktopPet.Proofs.Number.Draws
import DesktopPet.Proofs.Pet.Turning
import DesktopPet.Proofs.Pet.Grabbing
import DesktopPet.Proofs.Condition.Evaluation
import DesktopPet.Proofs.Condition.Finiteness
import DesktopPet.Proofs.Condition.Kinds
import DesktopPet.Proofs.Condition.Mascot
import DesktopPet.Proofs.Condition.Spelling
import DesktopPet.Proofs.Condition.Bytes
import DesktopPet.Proofs.Condition.Spans
import DesktopPet.Proofs.Condition.Steady
import DesktopPet.Proofs.Playback.Steady
import DesktopPet.Proofs.Selection.Rolls
import DesktopPet.Proofs.Manager.Chance
import DesktopPet.Proofs.Number.Ticks
import DesktopPet.Proofs.Number.Nearest
import DesktopPet.Proofs.Number.Sums
import DesktopPet.Proofs.Area.Closeness
import DesktopPet.Proofs.Motion.Bounces
import DesktopPet.Proofs.Manager.Flights
import DesktopPet.Proofs.Playback.Expansion
import DesktopPet.Proofs.Playback.Work
