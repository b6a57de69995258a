import ActorCore.Number.Double
import ActorCore.Term.Basic
import ActorCore.Term.Map
import ActorCore.Term.Inspect
import ActorCore.Decimal.Read
import ActorCore.Json
import ActorCore.Binary.Decode
import ActorCore.Binary.Layout
import ActorCore.Pattern.Match
import ActorCore.Pattern.Compile
import ActorCore.Error
import ActorCore.Lang.Argument
import ActorCore.Lang.BodyExpr
import ActorCore.Binary.Bytes
import ActorCore.Comprehension
import ActorCore.Actor.Mailbox
import ActorCore.Actor.Registry
import ActorCore.Actor.Monitor
import ActorCore.Actor.Timer
import ActorCore.Actor.Config
import ActorCore.Actor.Environment
import ActorCore.Actor.Basic
import ActorCore.System.Basic
import ActorCore.System.Run
import ActorCore.Script.Compile
import ActorCore.System.Host
import ActorCore.System.Tables
import ActorCore.Proofs.Layout
import ActorCore.Proofs.Matching
import ActorCore.Proofs.Dispatch
import ActorCore.Proofs.Codec
import ActorCore.Proofs.Single
import ActorCore.Proofs.Segment
import ActorCore.Proofs.BinaryRoundTrip
import ActorCore.Proofs.Frame
import ActorCore.Proofs.Reachable
import ActorCore.Proofs.Links
import ActorCore.Proofs.Cascade
import ActorCore.Proofs.Timers
import ActorCore.Proofs.Waiting
import ActorCore.Proofs.WakeUp
import ActorCore.Proofs.Stable
import ActorCore.Proofs.Registry
import ActorCore.Proofs.Lifecycle
import ActorCore.Proofs.Monitors
import ActorCore.Proofs.KillRequest
import ActorCore.Proofs.Signature
import ActorCore.Proofs.Selective
import ActorCore.Proofs.TimerRefinement
import ActorCore.Proofs.ReceiveTimeouts
import ActorCore.Proofs.BuiltTerms
import ActorCore.Proofs.StrictEquality
import ActorCore.Proofs.TermMapLaws
import ActorCore.Proofs.Defaults
import ActorCore.Proofs.IntegerSegment
import ActorCore.Proofs.Termination
import ActorCore.Proofs.Comprehension
import ActorCore.Proofs.LiteralPatterns
import ActorCore.Proofs.LayoutWindows
import ActorCore.Proofs.TableRefinement
import ActorCore.Proofs.Tables
