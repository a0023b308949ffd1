import Inferences.Binary32
import Inferences.Lines
import Inferences.Schedule
import Inferences.Duration
import Inferences.Custody
import Inferences.Permits
import Inferences.Orbit
import Inferences.Redaction
import Inferences.Json
import Inferences.Serde
import Inferences.JsonSchema
import Inferences.Domain
import Inferences.Engine.Request
import Inferences.Engine.Sse
import Inferences.Engine.Decoding
import Inferences.Engine.Trailing
import Inferences.Engine.Chunks
import Inferences.Engine.Nulls
import Inferences.Engine.Generation
import Inferences.Engine.System
import Inferences.Engine.Normalize
import Inferences.Engine.Usage
import Inferences.Engine.Capture
import Inferences.Engine.Delivery
import Inferences.Engine.Sidecar
import Inferences.Engine.Bounds
import Inferences.Engine.Refinement
import Inferences.Engine.Release
import Inferences.Engine.Survival
import Inferences.Engine.Lane
import Inferences.Engine.Fencing
import Inferences.Protocol
import Inferences.Server.Grpc
import Inferences.Server.Cancellation
import Inferences.Server.Deadline
import Inferences.Server.Http
import Inferences.Server.RoundTrip
import Inferences.Server.Mcp
import Inferences.Server.Tools
import Inferences.Server.Requests
import Inferences.Server.Gate
import Inferences.Server.Workload
import Inferences.Server.Admission
import Inferences.Server.Drain
import Inferences.Server.Termination
import Inferences.Server.Local
import Inferences.Server.Failures
import Inferences.Server.RpcIds
import Inferences.Server.WebSocket
import Inferences.Server.WebSocketSafety
import Inferences.Server.WebSocketIds
import Inferences.Server.WebSocketHub
import Inferences.Server.Transports
import Inferences.Program
import Inferences.FileTree
import Inferences.Artifacts.Manifest
import Inferences.Artifacts.Disk
import Inferences.Artifacts.Archive
import Inferences.Artifacts.Links
import Inferences.Artifacts.Setup
import Inferences.Artifacts.Download
import Inferences.Artifacts.Checks
import Inferences.Artifacts.Entries
import Inferences.Artifacts.Extraction
import Inferences.Artifacts.Filling
import Inferences.Artifacts.Install
import Inferences.Artifacts.Recover
import Inferences.Artifacts.Repair
import Inferences.Artifacts.Readiness
import Inferences.Artifacts.Containment
import Inferences.Artifacts.RuntimeTree
import Inferences.Artifacts.Resolve
import Inferences.Artifacts.Frames
import Inferences.Artifacts.Interruption
import Inferences.Artifacts.Promotion
import Inferences.Artifacts.Untouched
import Inferences.Artifacts.Atomicity
import Inferences.Artifacts.Idempotence
import Inferences.Artifacts.Retry
import Inferences.Server.Serving
import Inferences.Binary32.Exact
import Inferences.Server.Posting
import Inferences.Server.Relay
