/-
The Console as one system: any number of use cases in progress over one
database, each taking its transactions one at a time.
-/
import MuxivoConsole.Application.ConnectionLifecycle
import MuxivoConsole.Application.Invitations
import MuxivoConsole.Application.PlatformUpdates
import MuxivoConsole.Interleaving.Serial

namespace MuxivoConsole

open Interleaving

/-- A use case with its command. -/
inductive Request where
  | completeEmailPasswordRegistration (command : CompleteEmailPasswordRegistrationCommand)
  | createOrganization (command : CreateOrganizationCommand)
  | addOrganizationMember (command : AddOrganizationMemberCommand)
  | updateOrganizationMember (command : UpdateOrganizationMemberCommand)
  | removeOrganizationMember (command : RemoveOrganizationMemberCommand)
  | inviteOrganizationMember (command : InviteOrganizationMemberCommand)
  | acceptOrganizationInvitation (command : AcceptOrganizationInvitationCommand)
  | revokeOrganizationInvitation (command : RevokeOrganizationInvitationCommand)
  | authorize (request : AuthorizationRequest)
  | connectPlatformConnection (command : ConnectPlatformConnectionCommand)
  | managePlatformConnectionLifecycle (command : ManagePlatformConnectionLifecycleCommand)
  | reconcilePlatformConnections (command : ReconcilePlatformConnectionsCommand)
  | updatePlatformAiModerationPolicy (command : UpdatePlatformAiModerationPolicyCommand)
  | updatePlatformChannelPurpose (command : UpdatePlatformChannelPurposeCommand)
  | updatePlatformWelcomeSettings (command : UpdatePlatformWelcomeSettingsCommand)
  deriving DecidableEq

/-- What a use case returns. -/
inductive Outcome where
  | user (id : UUID)
  | organization (organization : Organization)
  | membership (membership : OrganizationMembership)
  | invitation (result : OrganizationInvitationCreationResult)
  | done
  | decision (decision : AuthorizationDecision)
  | connection (connection : PlatformConnection)
  | reconciled (result : ReconcilePlatformConnectionsResult)
  | summary (summary : PlatformSummary)
  deriving DecidableEq

/-- Tag the result of a use case. -/
def UseCase.returning {α : Type} (tag : α → Outcome) (useCase : UseCase α) :
    UseCase Outcome := do
  let value ← useCase
  pure (tag value)

def Request.program (ports : Ports) : Request → UseCase Outcome
  | completeEmailPasswordRegistration command =>
      .returning .user (.completeEmailPasswordRegistration ports command)
  | createOrganization command =>
      .returning .organization (.createOrganization command)
  | addOrganizationMember command =>
      .returning .membership (.addOrganizationMember ports command)
  | updateOrganizationMember command =>
      .returning .membership (.updateOrganizationMember command)
  | removeOrganizationMember command =>
      .returning (fun _ => .done) (.removeOrganizationMember command)
  | inviteOrganizationMember command =>
      .returning .invitation (.inviteOrganizationMember ports command)
  | acceptOrganizationInvitation command =>
      .returning .membership (.acceptOrganizationInvitation ports command)
  | revokeOrganizationInvitation command =>
      .returning (fun _ => .done) (.revokeOrganizationInvitation command)
  | authorize request => .returning .decision (.authorize request)
  | connectPlatformConnection command =>
      .returning .connection (.connectPlatformConnection command)
  | managePlatformConnectionLifecycle command =>
      .returning .connection (.managePlatformConnectionLifecycle command)
  | reconcilePlatformConnections command =>
      .returning .reconciled (.reconcilePlatformConnections ports command)
  | updatePlatformAiModerationPolicy command =>
      .returning .summary (.updatePlatformAiModerationPolicy command)
  | updatePlatformChannelPurpose command =>
      .returning .summary (.updatePlatformChannelPurpose command)
  | updatePlatformWelcomeSettings command =>
      .returning .summary (.updatePlatformWelcomeSettings command)

abbrev ConsoleWorld := World console

abbrev ConsoleHistory := History console

abbrev ConsoleProcess := Process console Request Failure Outcome

abbrev ConsoleSystem := System console Request Failure Outcome

abbrev ConsoleChoice := Choice console Request

abbrev ConsoleCommit := Commit console Request Failure Outcome

namespace Database

def empty : Database :=
  ⟨{}, by decide⟩

/-- The membership identifiers a database already uses; the generator does
not draw them again. -/
def membershipIds (database : Database) : List UUID :=
  database.tables.organizationMemberships.map OrganizationMembershipRecord.id

/-- Nothing in progress over a database. -/
def idle (database : Database) : ConsoleSystem :=
  System.idle ⟨database, database.membershipIds⟩ database.membershipIds

/-- The system after a run over a database. -/
abbrev after (ports : Ports) (database : Database) (choices : List ConsoleChoice) :
    ConsoleSystem :=
  database.idle.run (Request.program ports) choices

/-- A property of every step of a run over a database. -/
abbrev Along (ports : Ports) (property : ConsoleSystem → ConsoleChoice → Prop)
    (database : Database) (choices : List ConsoleChoice) : Prop :=
  System.Along (Request.program ports) property database.idle choices

theorem after_snoc (ports : Ports) (database : Database) (choices : List ConsoleChoice)
    (choice : ConsoleChoice) :
    database.after ports (choices ++ [choice]) =
      (database.after ports choices).step (Request.program ports) choice :=
  System.run_snoc database.idle choices choice

theorem along_snoc (ports : Ports) {property : ConsoleSystem → ConsoleChoice → Prop}
    (database : Database) (choices : List ConsoleChoice) (choice : ConsoleChoice) :
    database.Along ports property (choices ++ [choice]) ↔
      database.Along ports property choices ∧
        property (database.after ports choices) choice :=
  System.along_snoc database.idle choices choice

end Database

namespace Scenario

/-- Ports that hand their argument through; every platform has a probe. -/
def ports : Ports where
  normalizeEmail email := some email
  lookupHash email := email
  hashToken token := token
  hasProbe _ := true

def healthy : ConnectionReconciliationDecision :=
  ⟨.active, .healthy, by decide⟩

/-- An address as long as the hash of an e-mail or of a token. -/
def address (letter : Char) : String :=
  String.ofList (List.replicate 62 letter ++ ['@', letter])

/-- Services that agree to everything, and probes that take this decision. -/
def reply (decision : ConnectionReconciliationDecision) (name : UUID) : Reply console where
  name := name
  answer
    | .now => (0 : Nat)
    | .issueToken => (address 't' : String)
    | .encryptEmail _ => ([0] : List UInt8)
    | .generateSlug name => (name : String)
    | .verifyConnection .. => (.ok true : Except Failure Bool)
    | .inspectConnection .. =>
        (.ok decision : Except Failure ConnectionReconciliationDecision)
    | .sendInvitation .. => (.ok true : Except Failure Bool)
    | .updatePlatform .. => (.ok ⟨"summary"⟩ : Except Failure PlatformSummary)

/-- Let a process take `count` turns; the generator counts on from `name`. -/
def turns (index name count : Nat)
    (decision : ConnectionReconciliationDecision := healthy) : List ConsoleChoice :=
  (List.range' name count).map fun name =>
    .advance index (reply decision ⟨BitVec.ofNat 128 name⟩)

/-- A user registers: the identifier is the first name drawn, 10. -/
def registered : List ConsoleChoice :=
  [.start (.completeEmailPasswordRegistration
    ⟨address 'a', "founder", "$argon2id$v=19$m=65536,t=3,p=4$c2FsdA$aGFzaA", 5⟩)] ++
    turns 0 10 6

/-- The user founds an organization, which gets the identifier 21. -/
def founded : List ConsoleChoice :=
  registered ++ [.start (.createOrganization ⟨10, "organization", 5⟩)] ++ turns 1 20 6

/-- An organization with its owner and one connection. -/
def withConnection (status : ConnectionStatus) : Database where
  tables := {
    users := [⟨1, .active, "owner"⟩]
    organizations := [⟨2, "organization", "organization"⟩]
    organizationMemberships := [⟨3, 2, 1, .owner⟩]
    platformConnections := [⟨4, 2, "discord", "guild", status, none, none⟩] }
  constraints := by cases status <;> decide

/-- The owner asks for a lifecycle action on the connection. -/
def act (action : PlatformConnectionLifecycleAction) (key : Option String) : ConsoleChoice :=
  .start (.managePlatformConnectionLifecycle ⟨1, 2, 4, action, 5, key⟩)

end Scenario

end MuxivoConsole
