import MuxivoConsole.Guarantees.Knowledge
import MuxivoConsole.Guarantees.Reads
import MuxivoConsole.Guarantees.MemberUseCases
import MuxivoConsole.Guarantees.ConnectionUseCases
import MuxivoConsole.Guarantees.InvitationUseCases
import MuxivoConsole.Guarantees.Evolution
import MuxivoConsole.Guarantees.Transitions
import MuxivoConsole.Guarantees.Revocation
import MuxivoConsole.Guarantees.Retries
import MuxivoConsole.Guarantees.PlatformWrites
import MuxivoConsole.Guarantees.Scopes
import MuxivoConsole.Guarantees.Ownership
import MuxivoConsole.Guarantees.Authorization
import MuxivoConsole.Guarantees.Authority
import MuxivoConsole.Guarantees.SelfGrant
import MuxivoConsole.Guarantees.SingleUse
import MuxivoConsole.Guarantees.TokenStores
import MuxivoConsole.Guarantees.AuthKnowledge
import MuxivoConsole.Guarantees.AuthUseCases
import MuxivoConsole.Guarantees.AuthEvolution
import MuxivoConsole.Guarantees.LoginMethods
import MuxivoConsole.Guarantees.Recovery
import MuxivoConsole.Guarantees.PasswordChange
import MuxivoConsole.Guarantees.PasswordProof
import MuxivoConsole.Guarantees.SessionFinality
import MuxivoConsole.Guarantees.FinishedFlows
import MuxivoConsole.Guarantees.GuessBudget
import MuxivoConsole.Guarantees.RetryKeys
import MuxivoConsole.Guarantees.PlatformSubjects
import MuxivoConsole.Guarantees.TenantIsolation
import MuxivoConsole.Guarantees.RetryResults
import MuxivoConsole.Guarantees.RegistrationFlows
import MuxivoConsole.Guarantees.CodeRotation
import MuxivoConsole.Guarantees.CodeExpiry
import MuxivoConsole.Guarantees.ProvenAccounts
import MuxivoConsole.Interleaving.Receipts
import MuxivoConsole.Guarantees.OAuthUseCases
import MuxivoConsole.Guarantees.ConnectionListing
import MuxivoConsole.Guarantees.AuditStream
import MuxivoConsole.Guarantees.HealthGate
import MuxivoConsole.Guarantees.ReconciliationCoverage
import MuxivoConsole.Guarantees.RateLimits
import MuxivoConsole.Guarantees.UndeliveredRecovery
import MuxivoConsole.Infrastructure.OAuthClients
import MuxivoConsole.Guarantees.LinkCompletion
import MuxivoConsole.Guarantees.MemberRows
import MuxivoConsole.Guarantees.MembersAgree
import MuxivoConsole.Guarantees.InvitationAcceptance
import MuxivoConsole.Text.Integers
import MuxivoConsole.Text.Utf8
import MuxivoConsole.Resp.Format
import MuxivoConsole.Streams.Reader
import MuxivoConsole.Infrastructure.RedisProtocol
import MuxivoConsole.Guarantees.RespFraming
import MuxivoConsole.Guarantees.RateLimitReplies
import MuxivoConsole.Uri.Reference
import MuxivoConsole.Text.Unicode
import MuxivoConsole.Text.Hexadecimal
import MuxivoConsole.UuidText
import MuxivoConsole.Infrastructure.ControlRequests
import MuxivoConsole.Guarantees.ControlAddresses
import MuxivoConsole.Floats.Binary64
import MuxivoConsole.Floats.Decimals
import MuxivoConsole.Mapping.Dict
import MuxivoConsole.Json.Values
import MuxivoConsole.Json.Conversions
import MuxivoConsole.Domain.ModerationPolicies
import MuxivoConsole.Contracts.ModerationPolicies
import MuxivoConsole.Guarantees.PolicyContract
import MuxivoConsole.Domain.PlatformSummaries
import MuxivoConsole.Infrastructure.DiscordAnswers
import MuxivoConsole.Infrastructure.DiscordPolicies
import MuxivoConsole.Guarantees.PolicyWire
import MuxivoConsole.Text.Splitting
import MuxivoConsole.Web.PolicyEditor
import MuxivoConsole.Guarantees.PolicyEditing
import MuxivoConsole.Guarantees.DiscordAnswers
import MuxivoConsole.Guarantees.DiscordOverflows
import MuxivoConsole.Infrastructure.Identifiers
import MuxivoConsole.Guarantees.Identifiers
import MuxivoConsole.Guarantees.InvitationHints
import MuxivoConsole.Guarantees.RetryAfter
import MuxivoConsole.Regex.Backtracking
import MuxivoConsole.Infrastructure.Naming
import MuxivoConsole.Guarantees.Slugs
import MuxivoConsole.Text.Base64
import MuxivoConsole.Json.Strings
import MuxivoConsole.Json.Scanner
import MuxivoConsole.Infrastructure.Metrics
import MuxivoConsole.Guarantees.Metrics
import MuxivoConsole.Domain.Redaction
import MuxivoConsole.Regex.Stability
import MuxivoConsole.Guarantees.RedactionMatches
import MuxivoConsole.Guarantees.RedactionIdempotence
import MuxivoConsole.Guarantees.RedactionPasses
import MuxivoConsole.Guarantees.RedactionShapes
import MuxivoConsole.Guarantees.RedactionDisclosure
import MuxivoConsole.Guarantees.CredentialShapes
import MuxivoConsole.Infrastructure.StructuredLogging
import MuxivoConsole.Guarantees.StructuredRedaction
import MuxivoConsole.Events.Runs
import MuxivoConsole.Web.Workspace
import MuxivoConsole.Guarantees.WorkspaceIsolation
import MuxivoConsole.Guarantees.CandidateCatalog
import MuxivoConsole.Web.PolicyDashboard
import MuxivoConsole.Guarantees.PolicyDashboard
import MuxivoConsole.Json.Objects
import MuxivoConsole.Application.PendingRegistrations
import MuxivoConsole.Guarantees.PendingRegistrations
import MuxivoConsole.Guarantees.RegistrationDecoding
import MuxivoConsole.Infrastructure.TelegramOAuth
import MuxivoConsole.Guarantees.TelegramTokens
import MuxivoConsole.Guarantees.MintedTokens
import MuxivoConsole.Guarantees.OAuthFlows
import MuxivoConsole.Guarantees.OAuthStates
