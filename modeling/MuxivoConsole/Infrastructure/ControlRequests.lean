/-
The connection-scoped requests of the Control API adapters: the assertion that is signed for a
resource, and the URL that the request is sent to.  The bodies of the `PUT` requests, and the
checks on them before anything is signed, play no part in either.
-/
import MuxivoConsole.Domain.Connections
import MuxivoConsole.Domain.Organizations
import MuxivoConsole.Uri.Reference

namespace MuxivoConsole

/-- The claims of a control assertion; issuer, audience and times are the same for all. -/
structure ControlAssertion where
  actorId : UUID
  organizationId : UUID
  resource : AuthorizationResource
  action : AuthorizationAction
  correlationId : UUID
  platformSubject : Option String := none
  platformResourceId : Option String := none
  deriving DecidableEq

/-- `HmacControlAssertionIssuer.issue`, with the text of its `ValueError` -/
def ControlAssertion.issue (claims : ControlAssertion) : Except String ControlAssertion :=
  match claims.platformResourceId with
  | none => .ok claims
  | some platformResourceId =>
      if isBlank platformResourceId || platformResourceId.length > 255 then
        .error "Platform resource identifier must contain 1 to 255 characters."
      else .ok claims

inductive HttpVerb where
  | get
  | put
  deriving DecidableEq

/-- A request to a Control API; the URL is relative to the root of the service. -/
structure ControlRequest where
  verb : HttpVerb
  url : String
  assertion : ControlAssertion
  deriving DecidableEq

/-- Why an adapter sends nothing. -/
inductive ControlFailure where
  /-- `PlatformControlUnavailableError` -/
  | unavailable (message : String)
  | valueError (message : String)
  /-- a probe that reports a connection of another platform as it is -/
  | anotherPlatform
  deriving DecidableEq

/-- What a method of the adapters asks for. -/
structure ConnectionEndpoint where
  verb : HttpVerb := .get
  operation : String
  resource : AuthorizationResource := .controlModules
  /-- whether the method needs the linked identity of the actor -/
  identity : Bool := false
  /-- the message under which the method reports a `ValueError` of the issuer -/
  reported : Option String := none

/-- The f-string of the URL. -/
def connectionUrl (organizationId : UUID) (externalResourceId operation : String) : String :=
  "/control/v1/organizations/" ++ organizationId.str ++ "/connections/" ++
    externalResourceId ++ "/" ++ operation

/-- What the methods of one adapter share; of the identities, only whether a reader is there and
what `find_provider_subject` finds for the actor. -/
structure ControlCaller where
  actorId : UUID
  correlationId : UUID
  identities : Option (Option String)

/-- The subject that a method puts into its assertion. -/
def ConnectionEndpoint.subject (endpoint : ConnectionEndpoint) (caller : ControlCaller) :
    Except ControlFailure (Option String) :=
  if endpoint.identity then
    match caller.identities with
    | none => .error (.unavailable "Discord identity verification is unavailable.")
    | some none => .error (.unavailable "A linked Discord identity is required.")
    | some (some subject) => .ok (some subject)
  else .ok none

/-- The request of a method, up to the point where it is handed to the client. -/
def ConnectionEndpoint.request (endpoint : ConnectionEndpoint) (caller : ControlCaller)
    (organizationId : UUID) (externalResourceId : String) :
    Except ControlFailure ControlRequest := do
  let platformSubject ← endpoint.subject caller
  let claims : ControlAssertion :=
    { actorId := caller.actorId
      organizationId := organizationId
      resource := endpoint.resource
      action := .read
      correlationId := caller.correlationId
      platformSubject := platformSubject
      platformResourceId := some externalResourceId }
  match claims.issue with
  | .ok assertion =>
      .ok ⟨endpoint.verb, connectionUrl organizationId externalResourceId endpoint.operation,
        assertion⟩
  | .error message =>
      .error (endpoint.reported.elim (.valueError message) ControlFailure.unavailable)

namespace DiscordControlApiCatalog

def getForConnection : ConnectionEndpoint where
  operation := "dashboard"

def getBotSettingsForConnection : ConnectionEndpoint where
  operation := "bot-settings"
  identity := true

def getIntegrationsForConnection : ConnectionEndpoint where
  operation := "integrations"
  identity := true

def getServerStatisticsForConnection : ConnectionEndpoint where
  operation := "server-stats"
  identity := true

def getAuditTimelineForConnection : ConnectionEndpoint where
  operation := "audit-timeline"
  identity := true

def getChannelCatalogForConnection : ConnectionEndpoint where
  operation := "channels"

def getChannelPurposesForConnection : ConnectionEndpoint where
  operation := "channel-purposes"

def getAiModerationSummaryForConnection : ConnectionEndpoint where
  operation := "ai-moderation-summary"

def updateChannelPurposeForConnection : ConnectionEndpoint where
  verb := .put
  operation := "channel-purposes"
  identity := true

def updateAiModerationPolicyForConnection : ConnectionEndpoint where
  verb := .put
  operation := "ai-moderation-policy"
  identity := true
  reported := some "Discord Control API AI moderation policy update failed."

def getAiModerationPolicyForConnection : ConnectionEndpoint where
  operation := "ai-moderation-policy"
  identity := true
  reported := some "Discord Control API AI moderation policy request failed."

def getWelcomeSettingsForConnection : ConnectionEndpoint where
  operation := "welcome-settings"

def updateWelcomeSettingsForConnection : ConnectionEndpoint where
  verb := .put
  operation := "welcome-settings"
  identity := true

end DiscordControlApiCatalog

/-- `inspect_connection` of the probes -/
def reconciliation : ConnectionEndpoint where
  operation := "reconciliation"
  resource := .platformConnections

/-- The methods of the adapters that ask about one connection. -/
inductive ConnectionCall where
  | getForConnection
  | getBotSettingsForConnection
  | getIntegrationsForConnection
  | getServerStatisticsForConnection
  | getAuditTimelineForConnection
  | getChannelCatalogForConnection
  | getChannelPurposesForConnection
  | getAiModerationSummaryForConnection
  | updateChannelPurposeForConnection
  | updateAiModerationPolicyForConnection
  | getAiModerationPolicyForConnection
  | getWelcomeSettingsForConnection
  | updateWelcomeSettingsForConnection
  | inspectDiscordConnection
  | inspectTwitchConnection
  deriving DecidableEq

namespace ConnectionCall

def endpoint : ConnectionCall → ConnectionEndpoint
  | getForConnection => DiscordControlApiCatalog.getForConnection
  | getBotSettingsForConnection => DiscordControlApiCatalog.getBotSettingsForConnection
  | getIntegrationsForConnection => DiscordControlApiCatalog.getIntegrationsForConnection
  | getServerStatisticsForConnection => DiscordControlApiCatalog.getServerStatisticsForConnection
  | getAuditTimelineForConnection => DiscordControlApiCatalog.getAuditTimelineForConnection
  | getChannelCatalogForConnection => DiscordControlApiCatalog.getChannelCatalogForConnection
  | getChannelPurposesForConnection => DiscordControlApiCatalog.getChannelPurposesForConnection
  | getAiModerationSummaryForConnection =>
      DiscordControlApiCatalog.getAiModerationSummaryForConnection
  | updateChannelPurposeForConnection =>
      DiscordControlApiCatalog.updateChannelPurposeForConnection
  | updateAiModerationPolicyForConnection =>
      DiscordControlApiCatalog.updateAiModerationPolicyForConnection
  | getAiModerationPolicyForConnection =>
      DiscordControlApiCatalog.getAiModerationPolicyForConnection
  | getWelcomeSettingsForConnection => DiscordControlApiCatalog.getWelcomeSettingsForConnection
  | updateWelcomeSettingsForConnection =>
      DiscordControlApiCatalog.updateWelcomeSettingsForConnection
  | inspectDiscordConnection => reconciliation
  | inspectTwitchConnection => reconciliation

/-- The platform that a probe answers for. -/
def probed : ConnectionCall → Option Platform
  | inspectDiscordConnection => some .discord
  | inspectTwitchConnection => some .twitch
  | _ => none

/-- The request that a call for a connection makes. -/
def request (call : ConnectionCall) (caller : ControlCaller) (connection : PlatformConnection) :
    Except ControlFailure ControlRequest :=
  if call.probed.any (· ≠ connection.fields.platform) then .error .anotherPlatform
  else
    call.endpoint.request caller connection.fields.organizationId
      connection.fields.externalResourceId

end ConnectionCall

/-- What matters of the HTTP client: the references that it takes, and whether it resolves dot
components before it sends one. -/
structure HttpClient where
  takes : List Char → Bool
  dots : Bool

/-- A call hands a request to the client, and the client sends it. -/
def HttpClient.Sends (client : HttpClient) (call : ConnectionCall) (caller : ControlCaller)
    (connection : PlatformConnection) (request : ControlRequest) : Prop :=
  call.request caller connection = .ok request ∧ client.takes request.url.toList = true

/-- What the URL of a request addresses. -/
def HttpClient.target (client : HttpClient) (request : ControlRequest) : Uri.Target :=
  Uri.target client.dots request.url.toList

/-- The names on the path to an operation of a connection. -/
def operationNames (organizationId : UUID) (externalResourceId operation : String) :
    List (List Char) :=
  ["control".toList, "v1".toList, "organizations".toList, organizationId.str.toList,
    "connections".toList, externalResourceId.toList, operation.toList]

section Requests

variable {call : ConnectionCall} {caller : ControlCaller} {connection : PlatformConnection}
  {request : ControlRequest}

/-- The text that puts seven names on a path, where `start` brings the first three and `middle`
the fifth. -/
theorem toList_append_eq_absolute {start middle slash : String}
    {first second third fifth : List Char}
    (hstart : start.toList = '/' :: first ++ '/' :: second ++ '/' :: third ++ ['/'])
    (hmiddle : middle.toList = '/' :: fifth ++ ['/']) (hslash : slash.toList = ['/'])
    (fourth sixth seventh : String) :
    (start ++ fourth ++ middle ++ sixth ++ slash ++ seventh).toList =
      Uri.absolute [first, second, third, fourth.toList, fifth, sixth.toList, seventh.toList] := by
  simp only [String.toList_append, hstart, hmiddle, hslash, Uri.absolute,
    List.intercalate_cons_cons, List.intercalate_singleton, List.nil_append, List.append_assoc,
    List.cons_append]

theorem toList_connectionUrl (organizationId : UUID) (externalResourceId operation : String) :
    (connectionUrl organizationId externalResourceId operation).toList =
      Uri.absolute (operationNames organizationId externalResourceId operation) :=
  toList_append_eq_absolute (by decide +kernel) (by decide +kernel) (by decide +kernel) _ _ _

/-- A request is signed for the connection, and its URL is made of the same identifiers. -/
theorem ConnectionCall.request_eq_ok (hrequest : call.request caller connection = .ok request) :
    request.url = connectionUrl connection.fields.organizationId
        connection.fields.externalResourceId call.endpoint.operation ∧
      request.assertion.organizationId = connection.fields.organizationId ∧
      request.assertion.platformResourceId = some connection.fields.externalResourceId := by
  unfold ConnectionCall.request at hrequest
  split_ifs at hrequest
  unfold ConnectionEndpoint.request at hrequest
  cases hsubject : call.endpoint.subject caller with
  | error failure =>
      rw [hsubject] at hrequest
      cases hrequest
  | ok platformSubject =>
      rw [hsubject] at hrequest
      simp only [bind, Except.bind, ControlAssertion.issue] at hrequest
      split_ifs at hrequest
      cases hrequest
      exact ⟨rfl, rfl, rfl⟩

end Requests

end MuxivoConsole
