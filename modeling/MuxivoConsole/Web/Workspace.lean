/-
The workspace of the active organization in the browser: the organizations of the user, the
connections, the candidates for new ones, the members and the invitations, with the requests that
are in flight.
-/
import MuxivoConsole.Domain.Connections
import MuxivoConsole.Domain.Organizations
import MuxivoConsole.Web.PolicyEditor

namespace MuxivoConsole.Web

open Text

/-- `OrganizationListItem`: an organization with the user's membership in it -/
structure OrganizationListItem where
  organizationId : Str
  role : OrganizationRole
  resourceScopes : List (AuthorizationResource × AuthorizationAction)
  deriving DecidableEq

/-- `PlatformConnection`, as the server returns it -/
structure ConnectionItem where
  id : Str
  platform : Platform
  externalResourceId : Str
  status : ConnectionStatus
  deriving DecidableEq

/-- `PlatformConnectionCandidate` -/
structure CandidateItem where
  platform : Platform
  externalResourceId : Str
  displayName : Str
  deriving DecidableEq

/-- `PlatformConnectionCandidateCatalog` -/
structure CandidateCatalog where
  items : List CandidateItem
  identityLinked : Bool
  deriving DecidableEq

/-- `membershipAllows` -/
def membershipAllows (membership : Option OrganizationListItem) (resource : AuthorizationResource)
    (action : AuthorizationAction) : Bool :=
  match membership with
  | none => false
  | some item => item.role = .owner || item.resourceScopes.any (· = (resource, action))

/-- `chooseActiveOrganizationId` -/
def chooseActiveOrganizationId (organizations : List OrganizationListItem)
    (preferredOrganizationId : Str) : Str :=
  let preferred := trim Control.isScriptSpace preferredOrganizationId
  if preferred ≠ [] && organizations.any (·.organizationId = preferred) then preferred
  else (organizations.head?.map (·.organizationId)).getD []

/-- The reactive state of the workspace; members and invitations are shown as they come. -/
structure Workspace (μ ι : Type) where
  organizations : List OrganizationListItem := []
  selectedOrganizationId : Str := []
  platform : Platform := .discord
  connectionCandidates : List CandidateItem := []
  connectionCandidatesIdentityLinked : Option Bool := none
  connectionCandidatesLoading : Bool := false
  connectionCandidatesUnavailable : Bool := false
  selectedConnectionCandidateId : Str := []
  connections : List ConnectionItem := []
  selectedConnectionId : Str := []
  selectedDiscordConnectionId : Str := []
  organizationMembers : List μ := []
  organizationInvitations : List ι := []

namespace Workspace

variable {μ ι : Type} (workspace : Workspace μ ι)

def activeOrganization : Option OrganizationListItem :=
  workspace.organizations.find? (·.organizationId = workspace.selectedOrganizationId)

def activeOrganizationId : Str :=
  (workspace.activeOrganization.map (·.organizationId)).getD []

def canReadPlatformConnections : Bool :=
  membershipAllows workspace.activeOrganization .platformConnections .read

def canManagePlatformConnections : Bool :=
  membershipAllows workspace.activeOrganization .platformConnections .manage

/-- `canManageOrganizationMembers` of the active role -/
def canManageMembers : Bool :=
  workspace.activeOrganization.any fun item => item.role = .owner || item.role = .admin

def usableConnections : List ConnectionItem :=
  workspace.connections.filter fun connection =>
    connection.status = .active || connection.status = .degraded

def usableDiscordConnections : List ConnectionItem :=
  workspace.usableConnections.filter (·.platform = .discord)

def selectableConnectionCandidates : List CandidateItem :=
  workspace.connectionCandidates.filter fun candidate =>
    !workspace.connections.any fun connection =>
      connection.platform = candidate.platform &&
        connection.externalResourceId = candidate.externalResourceId

def resetConnectionCandidateCatalog : Workspace μ ι :=
  { workspace with
    connectionCandidates := []
    connectionCandidatesIdentityLinked := none
    connectionCandidatesLoading := false
    connectionCandidatesUnavailable := false
    selectedConnectionCandidateId := [] }

def resetPlatformConnectionCatalog : Workspace μ ι :=
  { workspace.resetConnectionCandidateCatalog with
    connections := []
    selectedConnectionId := []
    selectedDiscordConnectionId := [] }

def resetOrganizationMembers : Workspace μ ι :=
  { workspace with organizationMembers := [], organizationInvitations := [] }

/-- `resetOrganizationWorkspace`, without the dashboard -/
def resetOrganizationWorkspace : Workspace μ ι :=
  workspace.resetPlatformConnectionCatalog.resetOrganizationMembers

def syncSelectedConnectionCandidate : Workspace μ ι :=
  if workspace.selectedConnectionCandidateId ≠ [] &&
      workspace.selectableConnectionCandidates.any
        (·.externalResourceId = workspace.selectedConnectionCandidateId) then workspace
  else
    { workspace with
      selectedConnectionCandidateId :=
        (workspace.selectableConnectionCandidates.head?.map (·.externalResourceId)).getD [] }

end Workspace

/-- A request that waits for its answer, with what its path was made of. -/
inductive Request where
  | organizations (preferredOrganizationId : Str)
  | connections (organizationId : Str)
  | candidates (organizationId : Str) (platform : Platform)
  | members (organizationId : Str)
  | invitations (organizationId : Str)
  deriving DecidableEq

/-- The answer to a request, with `none` for a failure; that of the candidates tells whether the
server was unavailable. -/
inductive Answer (μ ι : Type) where
  | organizations (preferredOrganizationId : Str) (items : Option (List OrganizationListItem))
  | connections (organizationId : Str) (items : Option (List ConnectionItem))
  | candidates (organizationId : Str) (platform : Platform)
      (catalog : Except Bool CandidateCatalog)
  | members (organizationId : Str) (items : Option (List μ))
  | invitations (organizationId : Str) (items : Option (List ι))

def Answer.request {μ ι : Type} : Answer μ ι → Request
  | .organizations preferredOrganizationId _ => .organizations preferredOrganizationId
  | .connections organizationId _ => .connections organizationId
  | .candidates organizationId platform _ => .candidates organizationId platform
  | .members organizationId _ => .members organizationId
  | .invitations organizationId _ => .invitations organizationId

structure Client (μ ι : Type) where
  workspace : Workspace μ ι := {}
  inFlight : List Request := []

/-- What the user does, and the answers that arrive. -/
inductive Event (μ ι : Type) where
  | selectOrganization (organizationId : Str)
  | loadOrganizations (preferredOrganizationId : Str)
  | loadConnections
  | loadConnectionCandidates
  | loadOrganizationMembers
  | loadOrganizationInvitations
  | selectConnectionWizard (platform : Platform)
  | answered (answer : Answer μ ι)

namespace Client

variable {μ ι : Type} (client : Client μ ι)

/-- A request goes out. -/
def send (request : Request) : Client μ ι :=
  { client with inFlight := client.inFlight ++ [request] }

def loadConnections : Client μ ι :=
  let workspace := client.workspace
  if workspace.activeOrganizationId = [] || !workspace.canReadPlatformConnections then
    { client with workspace := workspace.resetPlatformConnectionCatalog }
  else client.send (.connections workspace.activeOrganizationId)

def loadConnectionCandidates : Client μ ι :=
  let workspace := client.workspace
  if workspace.activeOrganizationId = [] || !workspace.canManagePlatformConnections then
    { client with workspace := workspace.resetConnectionCandidateCatalog }
  else
    { client with
      workspace := { workspace with
        connectionCandidatesLoading := true, connectionCandidatesUnavailable := false }
      inFlight := client.inFlight ++
        [.candidates workspace.activeOrganizationId workspace.platform] }

def loadOrganizationMembers : Client μ ι :=
  let workspace := client.workspace
  if workspace.activeOrganizationId = [] || !workspace.canManageMembers then
    { client with workspace := { workspace with organizationMembers := [] } }
  else client.send (.members workspace.activeOrganizationId)

def loadOrganizationInvitations : Client μ ι :=
  let workspace := client.workspace
  if workspace.activeOrganizationId = [] || !workspace.canManageMembers then
    { client with workspace := { workspace with organizationInvitations := [] } }
  else client.send (.invitations workspace.activeOrganizationId)

def refreshOrganizationWorkspace : Client μ ι :=
  let client := { client with workspace := client.workspace.resetOrganizationWorkspace }
  if client.workspace.activeOrganizationId = [] then client
  else
    client.loadConnections.loadConnectionCandidates.loadOrganizationMembers
      |>.loadOrganizationInvitations

/-- What the awaiting function does with its answer. -/
def answered : Answer μ ι → Client μ ι
  | .organizations preferredOrganizationId (some items) =>
      refreshOrganizationWorkspace { client with
        workspace := { client.workspace with
          organizations := items
          selectedOrganizationId := chooseActiveOrganizationId items preferredOrganizationId } }
  | .organizations _ none =>
      { client with
        workspace := Workspace.resetOrganizationWorkspace { client.workspace with
          organizations := [], selectedOrganizationId := [] } }
  | .connections _ (some items) =>
      let workspace := { client.workspace with connections := items }
      { client with
        workspace := Workspace.syncSelectedConnectionCandidate { workspace with
          selectedConnectionId := (workspace.usableConnections.head?.map (·.id)).getD []
          selectedDiscordConnectionId :=
            (workspace.usableDiscordConnections.head?.map (·.id)).getD [] } }
  | .connections _ none =>
      { client with workspace := client.workspace.resetPlatformConnectionCatalog }
  | .candidates requestedOrganizationId requestedPlatform catalog =>
      let workspace := client.workspace
      if requestedPlatform ≠ workspace.platform ||
          requestedOrganizationId ≠ workspace.activeOrganizationId then client
      else
        let workspace := match catalog with
          | .ok payload => Workspace.syncSelectedConnectionCandidate { workspace with
              connectionCandidates := payload.items
              connectionCandidatesIdentityLinked := some payload.identityLinked }
          | .error unavailable => { workspace.resetConnectionCandidateCatalog with
              connectionCandidatesUnavailable := unavailable }
        { client with workspace := { workspace with connectionCandidatesLoading := false } }
  | .members _ items =>
      { client with workspace := { client.workspace with organizationMembers := items.getD [] } }
  | .invitations _ items =>
      { client with
        workspace := { client.workspace with organizationInvitations := items.getD [] } }

/-- Only requests that are in flight are answered. -/
def step (client : Client μ ι) : Event μ ι → Option (Client μ ι)
  | .selectOrganization organizationId =>
      some (refreshOrganizationWorkspace { client with
        workspace := { client.workspace with selectedOrganizationId := organizationId } })
  | .loadOrganizations preferredOrganizationId =>
      some (client.send (.organizations preferredOrganizationId))
  | .loadConnections => some client.loadConnections
  | .loadConnectionCandidates => some client.loadConnectionCandidates
  | .loadOrganizationMembers => some client.loadOrganizationMembers
  | .loadOrganizationInvitations => some client.loadOrganizationInvitations
  | .selectConnectionWizard platform =>
      some (loadConnectionCandidates { client with
        workspace := Workspace.resetConnectionCandidateCatalog { client.workspace with
          platform := platform } })
  | .answered answer =>
      if answer.request ∈ client.inFlight then
        some (answered { client with inFlight := client.inFlight.erase answer.request } answer)
      else none

end Client

end MuxivoConsole.Web
