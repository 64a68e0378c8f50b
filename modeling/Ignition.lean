import Ignition.Main
import Ignition.Process.IdentifierFile
import Ignition.Proofs.Config.Profiles
import Ignition.Proofs.Discovery.Steps
import Ignition.Proofs.Discovery.Requests
import Ignition.Proofs.Discovery.Passes
import Ignition.Proofs.Discovery.Completeness
import Ignition.Proofs.Config.Stack
import Ignition.Proofs.Discovery.Precedence
import Ignition.Proofs.Discovery.Loaded
import Ignition.Proofs.Discovery.Defaults
import Ignition.Proofs.Discovery.Itinerary
import Ignition.Proofs.Config.Expansion
import Ignition.Proofs.Discovery.Limits
import Ignition.Proofs.Discovery.Names
import Ignition.Proofs.Discovery.Termination
import Ignition.Proofs.Config.Circularity
import Ignition.Proofs.Run.Notices
import Ignition.Proofs.Run.CommandLine
import Ignition.Proofs.Config.Operations
import Ignition.Proofs.Discovery.Failures
import Ignition.Proofs.Run.Series
import Ignition.Proofs.Container.Lifecycle
import Ignition.Proofs.Discovery.Independence
import Ignition.Proofs.Config.Fallbacks
import Ignition.Proofs.Discovery.Cascade
import Ignition.Proofs.Config.Concatenation
import Ignition.Proofs.Format.Writing
import Ignition.Proofs.Format.Escapes
import Ignition.Proofs.Format.Continuation
import Ignition.Proofs.Format.Flattening
import Ignition.Proofs.Format.Leaves
import Ignition.Proofs.Format.Documents
import Ignition.Proofs.Discovery.Places
import Ignition.Proofs.Format.Routing
import Ignition.Proofs.Config.Installation
import Ignition.Proofs.Config.Rendering
import Ignition.Proofs.Config.Spelling
import Ignition.Proofs.Config.Overlay
import Ignition.Proofs.Failure.Diagnosis
import Ignition.Proofs.Text.Trimming
import Ignition.Proofs.Config.Randomness
import Ignition.Proofs.Run.Reports
import Ignition.Proofs.Run.Turns
import Ignition.Proofs.Config.ProfileLists
import Ignition.Proofs.Config.Closers
import Ignition.Proofs.Discovery.Identity
