import Crane.Raft.Refusals
import Crane.State.Sessions
import Crane.State.Placement
import Crane.State.Attempts
import Crane.Worker.Acceptance
import Crane.Worker.Gate
import Crane.Worker.Derivation
import Crane.Swim.Engine
import Crane.Swim.Probe
import Crane.Raft.Repair
import Crane.Raft.Replacement
import Crane.State.Retained
import Crane.Model.Content
