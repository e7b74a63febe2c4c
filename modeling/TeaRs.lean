import TeaRs.Lib.TreeMap
import TeaRs.Lib.StateError
import TeaRs.Lib.Run
import TeaRs.Protocol.Content
import TeaRs.Protocol.Record
import TeaRs.Session.State
import TeaRs.Session.Reducer
import TeaRs.Session.Step
import TeaRs.Session.Replay
import TeaRs.Session.History
import TeaRs.Session.Lineage
import TeaRs.Session.Authorization
import TeaRs.Lib.Lifecycle
import TeaRs.Session.AtMostOnce
import TeaRs.Tools.Identity
import TeaRs.Policy.Approval
import TeaRs.Session.Artifact
import TeaRs.Session.StoreEngine
import TeaRs.Session.Memory
import TeaRs.SessionSqlite.Store
import TeaRs.SessionSqlite.Refinement
import TeaRs.Tools.Registry
import TeaRs.Policy.Engine
import TeaRs.Protocol.Event
import TeaRs.Session.Branching
import TeaRs.Session.Transcript
import TeaRs.Policy.Composition
import TeaRs.Lib.Segments
import TeaRs.CodingTools.WorkspacePath
import TeaRs.Runtime.SessionGrant
import TeaRs.SessionSqlite.Reopen
import TeaRs.Kernel.Classification
import TeaRs.Kernel.Redirects
import TeaRs.Kernel.Grants
import TeaRs.Kernel.Ports
import TeaRs.Kernel.ToolTurn
import TeaRs.Kernel.RunLoop
import TeaRs.Session.Extension
import TeaRs.Kernel.Commit
import TeaRs.Session.Journals
import TeaRs.Session.Provenance
import TeaRs.Session.Archive
import TeaRs.SessionSqlite.TwoHandles
import TeaRs.Kernel.InputQueue
import TeaRs.Lib.Scan
import TeaRs.ProviderHttp.ErrorText
import TeaRs.ProviderHttp.Secrets
import TeaRs.Runtime.SessionApproval
import TeaRs.CodingTools.HostFiles
import TeaRs.CodingTools.Workspace
import TeaRs.Lib.Replace
import TeaRs.CodingTools.CodeChange
import TeaRs.CodingTools.Output
import TeaRs.CodingTools.FileTools
import TeaRs.CodingTools.FetchAddress
import TeaRs.CodingTools.FetchHttp
import TeaRs.Mcp.Connection
import TeaRs.Mcp.Lifecycle
import TeaRs.Mcp.Transport
import TeaRs.Mcp.Canonical
import TeaRs.Mcp.Digest
import TeaRs.Mcp.Catalog
import TeaRs.Mcp.Frozen
import TeaRs.Policy.Redaction
import TeaRs.Runtime.AskPresentation
import TeaRs.Lib.Recognizer
import TeaRs.Model.Event
import TeaRs.Model.Stream
import TeaRs.Kernel.Request
import TeaRs.Cli.OwnedRuns
import TeaRs.Cli.SnapshotPages
import TeaRs.Protocol.Timestamp
import TeaRs.Cli.ProjectTrust
import TeaRs.Kernel.Batches
import TeaRs.Kernel.Limits

