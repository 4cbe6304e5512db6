import MehoyRuntime.Lib.System
import MehoyRuntime.Lib.Table
import MehoyRuntime.Lib.Slots
import MehoyRuntime.Lib.Word
import MehoyRuntime.Core.Cancel
import MehoyRuntime.Core.Inference
import MehoyRuntime.Lib.Seen
import MehoyRuntime.Core.Attribution
import MehoyRuntime.Stream.Sse
import MehoyRuntime.Stream.Reference
import MehoyRuntime.Stream.Channel
import MehoyRuntime.Stream.Exchange
import MehoyRuntime.Stream.Evidence
import MehoyRuntime.Stream.Wire
import MehoyRuntime.Stream.Execute
import MehoyRuntime.Stream.Invariant
import MehoyRuntime.Stream.Outcome
import MehoyRuntime.Stream.Demonstration
import MehoyRuntime.Stream.Framing
import MehoyRuntime.Stream.Memory
import MehoyRuntime.Stream.EventSize
import MehoyRuntime.Stream.Undisturbed
import MehoyRuntime.Stream.Release
import MehoyRuntime.Stream.Prefix
import MehoyRuntime.Stream.Truncation
import MehoyRuntime.Stream.Collect
import MehoyRuntime.Stream.WholeResponse
import MehoyRuntime.Runtime.Vocabulary
import MehoyRuntime.Runtime.Request
import MehoyRuntime.Runtime.LoadedModel
import MehoyRuntime.Runtime.Teardown
import MehoyRuntime.Runtime.Admission
import MehoyRuntime.Runtime.Requests
import MehoyRuntime.Runtime.Cleanup
import MehoyRuntime.Runtime.Causes
import MehoyRuntime.Runtime.Tracking
import MehoyRuntime.Runtime.Resources
import MehoyRuntime.Runtime.Ledger
import MehoyRuntime.Runtime.Load
import MehoyRuntime.Runtime.Runtime
import MehoyRuntime.Runtime.Interleaving
import MehoyRuntime.Runtime.Accounting
import MehoyRuntime.Runtime.Residents
import MehoyRuntime.Runtime.Conservation
import MehoyRuntime.Runtime.Unstopped
import MehoyRuntime.Runtime.Retries
import MehoyRuntime.Runtime.Lifecycle
import MehoyRuntime.Runtime.Capabilities
import MehoyRuntime.Worker.State
import MehoyRuntime.Worker.Process
import MehoyRuntime.Worker.Agreement
import MehoyRuntime.Worker.Startup
import MehoyRuntime.Worker.Stopping
import MehoyRuntime.Lib.Lines
import MehoyRuntime.Worker.Log
import MehoyRuntime.Worker.Feed
import MehoyRuntime.Lib.LittleEndian
import MehoyRuntime.Lib.Utf8
import MehoyRuntime.Lib.Ensures
import MehoyRuntime.Registry.Gguf
import MehoyRuntime.Registry.GgufRoundTrip
import MehoyRuntime.Registry.GgufBounds
import MehoyRuntime.Registry.GgufPrefix
import MehoyRuntime.Registry.GgufTypes
import MehoyRuntime.Registry.Provenance
import MehoyRuntime.Registry.Idempotence
import MehoyRuntime.Registry.Integrity
import MehoyRuntime.Registry.Chronicle
import MehoyRuntime.Registry.Drift
import MehoyRuntime.Registry.Rows
import MehoyRuntime.Registry.Tables
import MehoyRuntime.Registry.Reregistration
import MehoyRuntime.Registry.Inspection
import MehoyRuntime.Runtime.Sizing
import MehoyRuntime.Lib.Filesystem
import MehoyRuntime.Transport.Directory
import MehoyRuntime.Transport.Daemons
import MehoyRuntime.Transport.Endpoint
import MehoyRuntime.Backend.Start
import MehoyRuntime.Backend.Credential
import MehoyRuntime.Transport.Pipe
import MehoyRuntime.Transport.Handoff
import MehoyRuntime.Transport.Journal
import MehoyRuntime.Transport.Linger
import MehoyRuntime.Runtime.Reasons
import MehoyRuntime.Registry.Listing
import MehoyRuntime.Daemon.Service
import MehoyRuntime.Daemon.Server
import MehoyRuntime.Daemon.Answers
import MehoyRuntime.Backend.Compatibility
import MehoyRuntime.Runtime.Preflight
import MehoyRuntime.Lib.Watch
import MehoyRuntime.Core.Wakeup
import MehoyRuntime.Lib.Text
import MehoyRuntime.Worker.Report
import MehoyRuntime.Lib.Locks
import MehoyRuntime.Runtime.Locking
import MehoyRuntime.Backend.Embed
import MehoyRuntime.Runtime.Answered
import MehoyRuntime.Transport.Address
import MehoyRuntime.Daemon.CommandLine
import MehoyRuntime.Daemon.Invocation
import MehoyRuntime.Backend.Identity
import MehoyRuntime.Backend.Posting
