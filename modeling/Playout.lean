import Playout.Wire
import Playout.Bench.Session
import Playout.Bench.Playthrough
import Playout.Bench.Device
import Playout.Proofs.Delivery
import Playout.Proofs.Custody
import Playout.Proofs.Replay
import Playout.Proofs.Discipline
import Playout.Proofs.Attempts
import Playout.Proofs.Occupancy
import Playout.Proofs.Interleaving
import Playout.Proofs.Misuse
import Playout.Proofs.Progress
import Playout.Proofs.Echo
import Playout.Proofs.Audible
import Playout.Proofs.Account
import Playout.Proofs.Intact
import Playout.Proofs.InPlace
import Playout.Proofs.Pausing
import Playout.Proofs.Captured
import Playout.Proofs.JsonText
import Playout.Proofs.Lossless
import Playout.Proofs.Tables
import Playout.Proofs.Allocation
import Playout.Proofs.Census
import Playout.Proofs.Keeping
import Playout.Proofs.Clock
import Playout.Proofs.PlayTime
import Playout.Proofs.Cycle
import Playout.Proofs.Pace
