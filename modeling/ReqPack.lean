import ReqPack.Scheduler.Gating
import ReqPack.Scheduler.PluginCalls
import ReqPack.Executor.Handover
import ReqPack.Executor.Outcome
import ReqPack.Executor.RecoveryOrder
import ReqPack.Executor.DryRun
import ReqPack.Executor.Removals
import ReqPack.Executor.Refresh
import ReqPack.Workflow.Mutation
import ReqPack.Workflow.ReadyMarker
import ReqPack.Storage.InstalledInvariant
import ReqPack.Storage.JournalInvariant
import ReqPack.Storage.Processes
import ReqPack.Remote.Arguments
import ReqPack.Remote.Authorization
import ReqPack.Remote.Framing
import ReqPack.Remote.Readonly
import ReqPack.Remote.Credentials
import ReqPack.Registry.Names
import ReqPack.Rqp.Extraction
import ReqPack.Rqp.MetadataRoundTrip
import ReqPack.Rqp.Update
import ReqPack.Rqp.Requests
import ReqPack.Workflow.Snapshot
import ReqPack.Workflow.Rewrite
import ReqPack.Executor.UpdateOverlap
import ReqPack.Workflow.PluginRemoval
import ReqPack.Workflow.PluginDryRun
import ReqPack.Rqp.Artifacts
import ReqPack.PluginHost.Chunking
import ReqPack.Planner.ProxySoundness
import ReqPack.Storage.JournalItems
import ReqPack.Executor.Classification
import ReqPack.PluginHost.PrivilegeRequests
import ReqPack.PluginHost.CommandTargets
import ReqPack.Registry.TrustedMetadata
import ReqPack.Rqp.SystemAliases
import ReqPack.History.EventLog
import ReqPack.Workflow.Specifiers
import ReqPack.Workflow.UrlInstalls
import ReqPack.Archive.InPlace
import ReqPack.Storage.InstalledReplacement
import ReqPack.Executor.RequirementEntry
import ReqPack.Rqp.Ranking
import ReqPack.Rqp.InstalledResolution
import ReqPack.Rqp.TarLongNames
import ReqPack.Rqp.TarBounds
import ReqPack.Planner.DependencySpecs
import ReqPack.Scheduler.LinearExtension
import ReqPack.Query.Suggestions
import ReqPack.Registry.GitReferences
import ReqPack.Data.FileBelow
import ReqPack.Rqp.StateDirectories
import ReqPack.Rqp.Uninstalls
import ReqPack.Remote.ServingRuns
import ReqPack.PluginHost.ExecRuleDispatch
