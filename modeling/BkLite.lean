import BkLite.Ansible.CallbackSize
import BkLite.JobMgmt.HostAttribution
import BkLite.Alerts.LinkedRecoveries
import BkLite.Alerts.GroupKeys
import BkLite.Framework.Segments
import BkLite.Alerts.EscalationSafety
import BkLite.Alerts.AutoAssignment
import BkLite.Alerts.MissingDetection
import BkLite.Alerts.InstantAlerts
import BkLite.Alerts.ReminderCap
import BkLite.Alerts.Ingest
import BkLite.Alerts.IngestRetry
import BkLite.Alerts.Recovery
import BkLite.Alerts.Aggregation
import BkLite.Alerts.Closing
import BkLite.Alerts.Writers
import BkLite.Alerts.Lifecycle
import BkLite.Ansible.TaskStore
import BkLite.Ansible.Lease
import BkLite.Ansible.Worker
import BkLite.Ansible.Accepted
import BkLite.Ansible.Callbacks
import BkLite.Ansible.Redaction
import BkLite.Framework.Coverage
import BkLite.Monitor.ScanWindow
import BkLite.Framework.TupleText
import BkLite.Monitor.Identity
import BkLite.Framework.Exceptions
import BkLite.Monitor.PolicyScan
import BkLite.Monitor.Recording
import BkLite.Monitor.LiveAlerts
import BkLite.Monitor.UniqueAlerts
import BkLite.Monitor.FailedScans
import BkLite.Framework.Reach
import BkLite.Framework.TopologicalOrder
import BkLite.OpsPilot.Flow
import BkLite.OpsPilot.AgentSearch
import BkLite.OpsPilot.NodeChain
import BkLite.OpsPilot.Streaming
import BkLite.Alerts.Isolation
import BkLite.Alerts.Reopening
import BkLite.Alerts.MatchParity
import BkLite.OpsPilot.Interruption
import BkLite.OpsPilot.PendingChoice
import BkLite.Framework.Blocks
import BkLite.OpsPilot.ThinkFilter
import BkLite.Cmdb.Instances
import BkLite.Cmdb.Subnets
import BkLite.Cmdb.UniqueRules
import BkLite.Cmdb.UniqueRuns
import BkLite.OpsPilot.Executions
import BkLite.Framework.Branches
import BkLite.OpsPilot.SharedVariables
import BkLite.Framework.Programs
import BkLite.Cmdb.Passes
import BkLite.Cmdb.Ledger
import BkLite.Cmdb.LedgerRuns
import BkLite.Cmdb.AutoRelation
import BkLite.Cmdb.FullSync
import BkLite.Cmdb.Convergence
import BkLite.Cmdb.Subscription
import BkLite.Cmdb.SubscriptionChecks
import BkLite.Cmdb.SyncRequests
import BkLite.Cmdb.SendNotifications
import BkLite.Cmdb.FieldGroupRuns
import BkLite.JobMgmt.DangerousRules
import BkLite.Monitor.SyncInstances
import BkLite.Framework.Tasks
import BkLite.JobMgmt.Executions
import BkLite.JobMgmt.LifeCycle
import BkLite.Framework.Once
import BkLite.JobMgmt.CompletionCallback
import BkLite.JobMgmt.ScheduledTask
import BkLite.Framework.LogsQL
import BkLite.Framework.QueryText
import BkLite.Log.LogGroups
import BkLite.Log.Confinement
import BkLite.NodeMgmt.InstallTokens
import BkLite.Log.ScanCoverage
import BkLite.Log.AlertNotices
import BkLite.Framework.Rows
import BkLite.Framework.Cached
import BkLite.NodeMgmt.Heartbeats
import BkLite.NodeMgmt.ConfigTemplate
import BkLite.NodeMgmt.NodeConfig
import BkLite.Framework.Reading
import BkLite.Framework.Literals
import BkLite.Log.GroupRules
import BkLite.Log.GroupScope
import BkLite.Ansible.Inventory
import BkLite.Ansible.Distribution
import BkLite.Ansible.DistributedFiles
import BkLite.Cmdb.Topology
import BkLite.Cmdb.TopologyCorrelation
import BkLite.Cmdb.TopologyReconcile
import BkLite.Cmdb.TopologyLinks
import BkLite.Ansible.Output
import BkLite.Ansible.HostReports
import BkLite.JobMgmt.AnsibleOutcome
import BkLite.Monitor.AlertEnding
import BkLite.Core.PermissionCache
import BkLite.NodeMgmt.ActionTasks
import BkLite.NodeMgmt.ActionAccounts
import BkLite.Monitor.AlertCompensation
import BkLite.Core.PermissionRules
import BkLite.Monitor.AlertPermissions
import BkLite.Core.RuleDeletion
import BkLite.Core.AccessAfterDeletion
import BkLite.SystemMgmt.LoginThrottling
import BkLite.SystemMgmt.LoginSafety
import BkLite.Alerts.MonitorLife
import BkLite.OperationAnalysis.ViewSets
import BkLite.OperationAnalysis.Import
import BkLite.OperationAnalysis.ImportAuthorization
import BkLite.OperationAnalysis.ImportRuns
import BkLite.OperationAnalysis.ImportSafety
import BkLite.Framework.Numerals
import BkLite.Ansible.AdHocOutput
import BkLite.Framework.Shlex
import BkLite.Ansible.InventoryRead
import BkLite.NatsExecutor.OutputCapture
import BkLite.Framework.SlashPaths
import BkLite.NatsExecutor.Unzip
import BkLite.Framework.JsonText
import BkLite.Log.AlertGroups
import BkLite.Framework.Doubles
import BkLite.Log.AggregateRules
import BkLite.Stargazer.CredentialResults
import BkLite.Stargazer.CollectQueue
import BkLite.Framework.IpNetworks
import BkLite.Core.SsrfValidator
import BkLite.Framework.Expressions
import BkLite.OpsPilot.SafeEval
import BkLite.Monitor.PolicyCalculate
import BkLite.Framework.ClockText
import BkLite.Alerts.TimeRange
import BkLite.Alerts.Shield
import BkLite.Framework.Quoting
import BkLite.JobMgmt.PositionalParams
import BkLite.Framework.Forest
import BkLite.SystemMgmt.GroupRoles
import BkLite.SystemMgmt.GroupTree
import BkLite.Core.SafeTemplate
import BkLite.Cmdb.SubscriptionReminders
import BkLite.OpsPilot.Schedules
