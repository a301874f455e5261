import Paigasus.Foundation.Transition
import Paigasus.Foundation.EventLog
import Paigasus.Foundation.FixedWidth
import Paigasus.Foundation.Ordered
import Paigasus.Foundation.Delimited
import Paigasus.Foundation.RowLocks
import Paigasus.Foundation.Uuid
import Paigasus.Foundation.Bytes
import Paigasus.Foundation.Cedar
import Paigasus.Kernel.ResourceName
import Paigasus.Core.Tenancy
import Paigasus.Core.Authz
import Paigasus.Core.Authn
import Paigasus.Core.StarterPolicies
import Paigasus.Dpop.ReplayStore
import Paigasus.Dpop.Verifier
import Paigasus.Dpop.OneTimeUse
import Paigasus.Dpop.Representation
import Paigasus.Dpop.FollowUp
import Paigasus.Roles.GrantPublication
import Paigasus.Policies.Engine
import Paigasus.Policies.Snapshot
import Paigasus.Policies.ContentHash
import Paigasus.Policies.AcceptedWrites
import Paigasus.ApiKeys.Resolve
import Paigasus.ApiKeys.Justification
import Paigasus.Outbox.Store
import Paigasus.Outbox.Lifecycle
import Paigasus.Tenancy.Model
import Paigasus.Tenancy.Transactions
import Paigasus.Tenancy.Isolation
import Paigasus.Tenancy.Soundness
import Paigasus.Tenancy.ArchivedGuard
import Paigasus.Tenancy.RootedMemberships
import Paigasus.Tenancy.EventFold
import Paigasus.Foundation.CedarDecision
import Paigasus.Tenancy.Steps
import Paigasus.Authorization.Decide
import Paigasus.Tenancy.Hierarchy
import Paigasus.Tenancy.GrantRows
import Paigasus.Authorization.EntitySlice
import Paigasus.Authorization.CachedDecisions
import Paigasus.Authorization.Generations
import Paigasus.Delegation.Model
import Paigasus.Delegation.Confinement
import Paigasus.Authorization.StarterSemantics
import Paigasus.Policies.Reconcile
import Paigasus.Gateway.SlidingWindow
import Paigasus.Foundation.Calendar
import Paigasus.Gateway.Limits
import Paigasus.Gateway.RetryAfter
import Paigasus.Foundation.Table
import Paigasus.Gateway.MemoryStore
import Paigasus.Foundation.EventStream
import Paigasus.Gateway.UsageScanner
import Paigasus.Foundation.Json
import Paigasus.Gateway.ChargeGuard
import Paigasus.Gateway.ChatCompletion
import Paigasus.Gateway.ChargeProtocol
import Paigasus.Redis.Breaker
import Paigasus.Foundation.Processes
import Paigasus.Oidc.Jwks
import Paigasus.Identities.Model
import Paigasus.Identities.Provisioning
import Paigasus.Identities.FirstLogins
import Paigasus.Discovery.ResolveService
import Paigasus.Discovery.Fencing
import Paigasus.Auth.ResolveSession
import Paigasus.Auth.SingleFlight
import Paigasus.Auth.Revocation
import Paigasus.Foundation.Decimal
import Paigasus.Foundation.JsonText
import Paigasus.Foundation.Keyed
import Paigasus.Foundation.KeysetPaging
import Paigasus.Foundation.Redis
import Paigasus.Auth.SessionStores
import Paigasus.Auth.StoresAgree
import Paigasus.Kernel.Grammar
import Paigasus.ApiKeys.Token
import Paigasus.Gateway.Periods
import Paigasus.Redis.FailureRuns
import Paigasus.Foundation.Double
import Paigasus.Foundation.LuaNumber
import Paigasus.Gateway.AdmissionScript
import Paigasus.Policies.RetirementGate
import Paigasus.Foundation.Traced
import Paigasus.Gateway.IamAuth
import Paigasus.Gateway.OrgInference
import Paigasus.Gateway.Sweep
import Paigasus.Gateway.RedisStore
import Paigasus.Gateway.MirroredWindow
import Paigasus.Gateway.LimitStores
import Paigasus.Foundation.EventSource
import Paigasus.Foundation.Utf8
import Paigasus.Gateway.TerminalFrame
import Paigasus.Foundation.JsString
import Paigasus.Sdk.TerminalFrameParser
import Paigasus.Sdk.FrameAgreement
import Paigasus.Sdk.SplitRecords
import Paigasus.Auth.ReturnTo
import Paigasus.Dpop.ForwardedBases
import Paigasus.Policies.Retirement
import Paigasus.Foundation.JsonGrammar
import Paigasus.Gateway.UsagePrefilter
import Paigasus.Gateway.UsageReference
import Paigasus.Auth.LiveSessions
import Paigasus.Auth.OrphanedTokens
import Paigasus.Auth.OperationDeadline
import Paigasus.Audit.PartitionMaintainer
import Paigasus.Discovery.Cleanup
import Paigasus.Foundation.OffsetPaging
import Paigasus.Tenancy.PrincipalContext
import Paigasus.Dpop.ProofKey
import Paigasus.Auth.RouteHandlers
import Paigasus.Auth.LoginSystem
import Paigasus.Auth.LoginBinding
import Paigasus.Audit.Query
import Paigasus.Audit.Paging
import Paigasus.Oidc.KeyAnswers
import Paigasus.ApiKeys.RequestHeaders
import Paigasus.ApiKeys.CredentialRouter
import Paigasus.Foundation.JsonDocument
import Paigasus.Oidc.Validator
import Paigasus.Oidc.ClaimRules
import Paigasus.Oidc.Acceptance
