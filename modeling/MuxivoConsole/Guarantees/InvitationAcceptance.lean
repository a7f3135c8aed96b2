/-
Accepting the invitation that is on offer: it makes the invited user a member unless the user is one
already, with the grants of the invitation.  With what is known of the other executions this says
when the two ways of making a member agree.
-/
import MuxivoConsole.Guarantees.MembersAgree

namespace MuxivoConsole

open Interleaving Relational

section Same

variable {before after : Database}

theorem SameMembers.activeUser (hsame : SameMembers before after) (emailLookupHash : String) :
    after.activeUserIdByEmailLookupHash emailLookupHash =
      before.activeUserIdByEmailLookupHash emailLookupHash := by
  unfold Database.activeUserIdByEmailLookupHash
  rw [hsame.users, hsame.userEmails]

end Same

section Accepting

variable {ports : Ports} {start store : Database} {inputs : List (Input console)}
variable {invitation : OrganizationInvitation} {scopes : List MembershipResourceScope}
variable {names granted : List UUID} {userId id : UUID} {now : Instant}

/-- The one row that `accept` updates. -/
theorem Offers.rowcount_openAt (hoffers : Offers start invitation scopes names)
    (hnow : now < invitation.fields.expiresAt) :
    rowcount (·.openAt invitation.fields.id invitation.fields.organizationId now)
      start.tables.organizationInvitations = 1 := by
  apply Nat.le_antisymm
  · apply rowcount_le_one start.constraints.invitationId
    intro row hrow
    simp only [OrganizationInvitationRecord.openAt, Bool.and_eq_true, beq_iff_eq] at hrow
    exact hrow.1.1.1.1
  · refine List.countP_pos_iff.mpr ⟨_, hoffers.stored, ?_⟩
    simp [OrganizationInvitationRecord.openAt, OrganizationInvitationFields.offer, hnow]

/-- What `accept` makes of the tables. -/
theorem Offers.acceptance (hoffers : Offers start invitation scopes names)
    (hnow : now < invitation.fields.expiresAt) {membership : OrganizationMembershipRecord}
    {rows : List MembershipResourceScopeRecord} {auditEvent : AuditEvent} {tables : Tables} :
    (Write.acceptInvitation invitation.fields.id invitation.fields.organizationId membership rows
      now auditEvent).statements start.tables = some tables ↔
      { start.tables with
        organizationInvitations :=
          update (·.openAt invitation.fields.id invitation.fields.organizationId now)
            (fun row => { row with acceptedAt := some now })
            start.tables.organizationInvitations
        organizationMemberships := start.tables.organizationMemberships ++ [membership]
        membershipResourceScopes := start.tables.membershipResourceScopes ++ rows
        auditEvents := start.tables.auditEvents ++ [auditEvent] } = tables := by
  simp only [Write.statements]
  rw [if_neg (by rw [hoffers.rowcount_openAt hnow]; simp), Option.some.injEq]

/-- The transaction of `accept` is not rolled back for an outsider. -/
theorem Offers.accept_commits (hoffers : Offers start invitation scopes names)
    (hnow : now < invitation.fields.expiresAt)
    (houtsider : ∀ row ∈ start.tables.organizationMemberships,
      ¬(row.organizationId = invitation.fields.organizationId ∧ row.userId = userId))
    (huser : userId ∈ start.tables.users.map UserRecord.id)
    {asked : List MembershipResourceScope} (hlength : granted.length = asked.length)
    {auditId : UUID} {auditEvent : AuditEvent}
    (hfresh : FreshNames start (id :: granted ++ [auditId])) (haudit : auditEvent.id = auditId) :
    Write.apply (.acceptInvitation invitation.fields.id invitation.fields.organizationId
      ⟨id, invitation.fields.organizationId, userId, invitation.fields.role⟩
      (identifiedRows (UseCase.membershipScopeRecord id) asked granted) now auditEvent) start ≠
        none := by
  have hrowIds : UniqueOn MembershipResourceScopeRecord.id
      (identifiedRows (UseCase.membershipScopeRecord id) asked granted) := by
    rw [UniqueOn, map_identifiedRows_id (fun _ _ => rfl) hlength]
    exact hfresh.distinct.of_cons.of_append_left
  have hrows : ∀ record ∈ identifiedRows (UseCase.membershipScopeRecord id) asked granted,
      record.membershipId = id ∧ record.id ∉
        start.tables.membershipResourceScopes.map MembershipResourceScopeRecord.id := by
    intro record hrecord
    obtain ⟨scope, _, name, hname, rfl⟩ := mem_identifiedRows hrecord
    exact ⟨rfl, hfresh.scope (by simp [UseCase.membershipScopeRecord, hname])⟩
  have horganization : invitation.fields.organizationId ∈
      start.tables.organizations.map OrganizationRecord.id :=
    start.constraints.invitationOrganization _ hoffers.stored
  have hunused : auditEvent.id ∉ start.tables.auditEvents.map AuditEvent.id := by
    rw [haudit]
    exact hfresh.auditEvent (by simp)
  have hrewritten := @Tables.Constraints.rewriteInvitations _ start.constraints
    (·.openAt invitation.fields.id invitation.fields.organizationId now)
    (fun row => { row with acceptedAt := some now }) (fun _ => rfl) (fun _ => rfl)
    (fun _ => rfl) (fun _ => rfl) fun _ => rfl
  have hconstraints := @Tables.Constraints.join _ hrewritten
    ⟨id, invitation.fields.organizationId, userId, invitation.fields.role⟩ _ auditEvent
    (hfresh.membership (by simp)) houtsider horganization huser hrowIds hrows hunused
  exact Write.apply_ne_none ((hoffers.acceptance hnow).mpr rfl) hconstraints

/-- It is rolled back for a member. -/
theorem Offers.accept_outsider (hoffers : Offers start invitation scopes names)
    (hnow : now < invitation.fields.expiresAt) {membership : OrganizationMembershipRecord}
    {rows : List MembershipResourceScopeRecord} {auditEvent : AuditEvent} {after : Database}
    (happly : Write.apply (.acceptInvitation invitation.fields.id invitation.fields.organizationId
      membership rows now auditEvent) start = some after) :
    ∀ row ∈ start.tables.organizationMemberships,
      ¬(row.organizationId = membership.organizationId ∧ row.userId = membership.userId) := by
  intro row hrow hsame
  have htables := (hoffers.acceptance hnow).mp (Write.apply_eq_some.mp happly)
  have hunique := after.constraints.organizationMembership
  rw [← htables] at hunique
  refine absurd ?_ (hunique.fresh hrow)
  rw [hsame.1, hsame.2]

/-- Who accepted is a member afterwards. -/
theorem Offers.accept_joined (hoffers : Offers start invitation scopes names)
    (hnow : now < invitation.fields.expiresAt) {asked : List MembershipResourceScope}
    {auditEvent : AuditEvent} {after : Database} (hid : id ∉ start.membershipIds)
    (hlength : granted.length = asked.length) (hdistinct : granted.Nodup)
    (happly : Write.apply (.acceptInvitation invitation.fields.id invitation.fields.organizationId
      ⟨id, invitation.fields.organizationId, userId, invitation.fields.role⟩
      (identifiedRows (UseCase.membershipScopeRecord id) asked granted) now auditEvent) start =
        some after) :
    after.Joined invitation.fields.organizationId userId invitation.fields.role
      (asked.map MembershipResourceScope.grant) := by
  have htables := (hoffers.acceptance hnow).mp (Write.apply_eq_some.mp happly)
  exact @joined_of_rows start after asked granted
    ⟨id, invitation.fields.organizationId, userId, invitation.fields.role⟩
    (by rw [← htables]) (by rw [← htables]) hid hlength hdistinct

/-- `AcceptOrganizationInvitation.execute` alone, by the user that the invitation is for, before it
expires. -/
theorem acceptOrganizationInvitation_runs {rawToken : String} {correlationId : UUID}
    {outcome : Except Failure OrganizationMembership}
    (hoffers : Offers start invitation scopes names) (hlength : names.length = scopes.length)
    (hnamed : names.Nodup) (husable : isUsableToken rawToken = true)
    (htoken : invitation.fields.tokenHash = ports.hashToken rawToken)
    (huser : start.activeUserIdByEmailLookupHash invitation.fields.emailLookupHash = some userId)
    (hclock : ∀ now : Instant, Input.heard (I := console) .now now ∈ inputs →
      now < invitation.fields.expiresAt)
    (hfresh : FreshNames start (drawnNames inputs))
    (hruns : (UseCase.acceptOrganizationInvitation ports ⟨userId, rawToken, correlationId⟩).Runs
      start inputs outcome store) :
    ((∀ row ∈ start.tables.organizationMemberships,
        ¬(row.organizationId = invitation.fields.organizationId ∧ row.userId = userId)) ∧
      (∃ membership, outcome = .ok membership) ∧
      store.Joined invitation.fields.organizationId userId invitation.fields.role
        (scopes.map MembershipResourceScope.grant)) ∨
    (¬ (∀ row ∈ start.tables.organizationMemberships,
        ¬(row.organizationId = invitation.fields.organizationId ∧ row.userId = userId)) ∧
      ∃ failure, outcome = .error failure) := by
  obtain ⟨hactive, hknown⟩ := active_of_emailLookupHash huser
  unfold UseCase.acceptOrganizationInvitation at hruns
  rw [if_neg (by simp [husable])] at hruns
  obtain ⟨answer, rest, rfl, hfound⟩ := Execution.runs_ask_bind.mp hruns
  clear hruns
  obtain ⟨now, rfl⟩ : ∃ now : Instant, now = answer := ⟨answer, rfl⟩
  have hnow : now < invitation.fields.expiresAt := hclock now List.mem_cons_self
  dsimp only at hfound
  rw [← htoken] at hfound
  have hread := runs_findPendingByTokenHash_bind hoffers hnow hfound
  clear hfound
  dsimp only at hread
  have hstatus : invitation.fields.statusAt now = .pending := by
    have hopen : ¬ now ≥ invitation.fields.expiresAt := Nat.not_le.mpr hnow
    simp [OrganizationInvitationFields.statusAt, hoffers.pending.1, hoffers.pending.2, hopen]
  rw [if_neg (not_not.mpr hstatus)] at hread
  have hinvited := Execution.runs_select_bind.mp hread
  clear hread
  rw [huser, if_neg (not_not.mpr rfl)] at hinvited
  have hmember := Execution.runs_select_bind.mp hinvited
  clear hinvited
  rw [hactive, if_neg (not_not.mpr rfl)] at hmember
  rw [runs_getMembership_bind] at hmember
  cases hexisting : start.membership userId invitation.fields.organizationId with
  | some membership =>
      rw [hexisting, if_pos Option.isSome_some] at hmember
      refine Or.inr ⟨fun houtsider => ?_, _, hmember.2.1⟩
      obtain ⟨row, hrow, _⟩ := Option.bind_eq_some_iff.mp hexisting
      obtain ⟨hmem, hsame, horganization⟩ := membershipRow_eq_some hrow
      exact houtsider row hmem ⟨horganization, hsame⟩
  | none =>
  rw [hexisting, if_neg (by simp)] at hmember
  obtain ⟨id, rest, rfl, hscopes⟩ := Execution.runs_newName_bind.mp hmember
  clear hmember
  have helements : invitation.fields.resourceScopes.elements = identifiedScopes scopes names := by
    rw [hoffers.granted, elements_identifiedScopes hlength hnamed]
  rcases Execution.runs_bind.mp hscopes with
    ⟨first, second, middle, set, rfl, hfirst, hsecond⟩ | ⟨error, herror, _⟩
  swap
  · obtain ⟨granted, _, _, hvalue, _⟩ := freshScopeIds_runs herror
    cases hvalue
  clear hscopes
  obtain ⟨granted, hcount, rfl, hset, rfl⟩ := freshScopeIds_runs hfirst
  cases hset
  rw [helements] at hcount hsecond
  obtain ⟨auditId, tail, rfl, hsave⟩ := hsecond
  have hnames : FreshNames middle (id :: granted ++ [auditId]) := by
    have hdrawn : drawnNames (granted.map (fun name => Input.drew (I := console) name) ++
        Input.drew auditId :: tail) = granted ++ auditId :: drawnNames tail := by
      rw [drawnNames_append, drawnNames_map_drew, drawnNames_drew]
    apply hfresh.sublist
    change (id :: granted ++ [auditId]).Sublist (id :: drawnNames
      (granted.map (fun name => Input.drew (I := console) name) ++ Input.drew auditId :: tail))
    rw [hdrawn]
    simp
  have hdistinct : granted.Nodup := hnames.distinct.of_cons.of_append_left
  change Execution.Runs (UseCase.acceptInvitation _ _ _ _ >>= _) middle tail outcome store
    at hsave
  rw [acceptInvitation_eq hcount hdistinct] at hsave
  have hgrants : (identifiedScopes scopes names).map MembershipResourceScope.grant =
      scopes.map MembershipResourceScope.grant := map_grant_identifiedScopes hlength
  rcases Execution.runs_save_bind_cases hsave with ⟨hnone, hreturns⟩ | ⟨after, hsome, hreturns⟩
  · refine Or.inr ⟨fun houtsider => ?_, _, hreturns.2.1⟩
    exact absurd hnone (hoffers.accept_commits hnow houtsider hknown hcount hnames rfl)
  · obtain ⟨-, houtcome, rfl⟩ := hreturns
    have hjoined := hoffers.accept_joined hnow (hnames.membership (by simp)) hcount hdistinct hsome
    rw [hgrants] at hjoined
    exact Or.inl ⟨hoffers.accept_outsider hnow hsome, ⟨_, houtcome⟩, hjoined⟩

end Accepting

section Agreement

/-- The same wish in both ways: a role and scopes for the user of an address. -/
structure JoinRequest where
  actorId : UUID
  organizationId : UUID
  email : String
  role : OrganizationRole
  scopes : List MembershipResourceScope
  correlationId : UUID

namespace JoinRequest

variable (request : JoinRequest)

def adding : AddOrganizationMemberCommand :=
  ⟨request.actorId, request.organizationId, request.email, request.role, request.scopes,
    request.correlationId⟩

def inviting : InviteOrganizationMemberCommand :=
  ⟨request.actorId, request.organizationId, request.email, request.role, request.scopes,
    request.correlationId⟩

/-- The address is that of an active user, the scopes come without identifiers, and the token of
the invitation is new and may be sent in. -/
structure Applies (ports : Ports) (start : Database) (normalized rawToken : String)
    (userId : UUID) : Prop where
  address : ports.normalizeEmail request.email = some normalized
  user : start.activeUserIdByEmailLookupHash (ports.lookupHash normalized) = some userId
  ids : ∀ scope ∈ request.scopes, scope.id = none
  lookup : (ports.lookupHash normalized).length = 64
  token : (ports.hashToken rawToken).length = 64
  unused : ∀ row ∈ start.tables.organizationInvitations, row.tokenHash ≠ ports.hashToken rawToken
  usable : isUsableToken rawToken = true

/-- What an invitation asks for beyond what adding does. -/
structure Invitable (start : Database) (normalized : String) : Prop where
  organization : ∃ organization, start.organizationById request.organizationId = some organization
  distinct : (request.scopes.map MembershipResourceScope.grant).Nodup
  hint : HintFits normalized

end JoinRequest

variable {request : JoinRequest} {ports : Ports} {start added offered accepted : Database}
variable {normalized rawToken : String} {userId : UUID} {createdAt : Instant}
variable {addInputs inviteInputs acceptInputs : List (Input console)}
variable {addOutcome acceptOutcome : Except Failure OrganizationMembership}
variable {inviteOutcome : Except Failure OrganizationInvitationCreationResult}

theorem mayOffer_iff :
    MayOffer start request.actorId request.organizationId request.role request.scopes normalized ↔
      (∃ actor, start.membership request.actorId request.organizationId = some actor ∧
        actor.role.canManageMembers = true ∧ actor.role.mayAssign request.role = true) ∧
      (∀ scope ∈ request.scopes, request.role.supportsScope scope = true) ∧
        request.Invitable start normalized :=
  ⟨fun hmay => ⟨hmay.authority, hmay.supported, hmay.organization, hmay.distinct, hmay.hint⟩,
    fun ⟨hauthority, hsupported, horganization, hdistinct, hhint⟩ =>
      ⟨horganization, hauthority, hsupported, hdistinct, hhint⟩⟩

/-- Adding succeeds exactly if the user may join; inviting and accepting in time succeed exactly if,
besides, the organization is readable, no grant is asked for twice and the hint of the address fits;
and both leave the same role and grants. -/
theorem two_ways_to_join (happlies : request.Applies ports start normalized rawToken userId)
    (haddFresh : FreshNames start (drawnNames addInputs))
    (hadd : (UseCase.addOrganizationMember ports request.adding).Runs start addInputs addOutcome
      added)
    (hinviteFresh : FreshNames start (drawnNames inviteInputs))
    (hhears : InviteHears rawToken createdAt inviteInputs)
    (hinvite : (UseCase.inviteOrganizationMember ports request.inviting).Runs start inviteInputs
      inviteOutcome offered)
    (hacceptFresh : FreshNames offered (drawnNames acceptInputs))
    (hclock : ∀ now : Instant, Input.heard (I := console) .now now ∈ acceptInputs →
      now < createdAt + invitationLifetime)
    (haccept : (UseCase.acceptOrganizationInvitation ports
      ⟨userId, rawToken, request.correlationId⟩).Runs offered acceptInputs acceptOutcome
        accepted) :
    ((∃ membership, addOutcome = .ok membership) ↔
      MayJoin start request.actorId request.organizationId userId request.role request.scopes) ∧
    (((∃ result, inviteOutcome = .ok result) ∧ ∃ membership, acceptOutcome = .ok membership) ↔
      MayJoin start request.actorId request.organizationId userId request.role request.scopes ∧
        request.Invitable start normalized) ∧
    ((∃ membership, addOutcome = .ok membership) →
      added.Joined request.organizationId userId request.role
        (request.scopes.map MembershipResourceScope.grant)) ∧
    ((∃ result, inviteOutcome = .ok result) → (∃ membership, acceptOutcome = .ok membership) →
      accepted.Joined request.organizationId userId request.role
        (request.scopes.map MembershipResourceScope.grant)) := by
  have hadds := addOrganizationMember_runs happlies.address happlies.user happlies.ids haddFresh
    hadd
  have hinvites := inviteOrganizationMember_runs happlies.address happlies.ids hinviteFresh
    hhears happlies.token happlies.lookup happlies.unused hinvite
  have hfails : ∀ {α : Type} {outcome : Except Failure α},
      (∃ failure, outcome = .error failure) → ¬ ∃ value, outcome = .ok value := by
    rintro α outcome ⟨failure, rfl⟩ ⟨value, ⟨⟩⟩
  have haccepts : (∃ result, inviteOutcome = .ok result) →
      MayOffer start request.actorId request.organizationId request.role request.scopes
        normalized ∧
      (((∀ row ∈ start.tables.organizationMemberships,
          ¬(row.organizationId = request.organizationId ∧ row.userId = userId)) ∧
        (∃ membership, acceptOutcome = .ok membership) ∧
        accepted.Joined request.organizationId userId request.role
          (request.scopes.map MembershipResourceScope.grant)) ∨
      (¬ (∀ row ∈ start.tables.organizationMemberships,
          ¬(row.organizationId = request.organizationId ∧ row.userId = userId)) ∧
        ∃ failure, acceptOutcome = .error failure)) := by
    intro hok
    rcases hinvites with ⟨hmay, _, hsame, invitation, names, hoffers⟩ | ⟨_, hfailed⟩
    swap
    · exact absurd hok (hfails hfailed)
    have huser : offered.activeUserIdByEmailLookupHash invitation.fields.emailLookupHash =
        some userId := by
      rw [hsame.activeUser, hoffers.emailLookupHash]
      exact happlies.user
    have haccepted := acceptOrganizationInvitation_runs hoffers.offers hoffers.length
      hoffers.named happlies.usable hoffers.tokenHash huser
      (fun now hheard => hoffers.expiresAt ▸ hclock now hheard) hacceptFresh haccept
    rw [hoffers.organization, hoffers.role, hsame.memberships] at haccepted
    exact ⟨hmay, haccepted⟩
  refine ⟨?_, ?_, ?_, ?_⟩
  · rcases hadds with ⟨hmay, hok, _⟩ | ⟨hdenied, hfailed⟩
    · exact iff_of_true hok hmay
    · exact iff_of_false (hfails hfailed) hdenied
  · constructor
    · rintro ⟨hinvited, hok⟩
      obtain ⟨hmay, ⟨houtsider, _⟩ | ⟨_, hfailed⟩⟩ := haccepts hinvited
      · obtain ⟨hauthority, hsupported, hinvitable⟩ := mayOffer_iff.mp hmay
        exact ⟨⟨hauthority, hsupported, houtsider⟩, hinvitable⟩
      · exact absurd hok (hfails hfailed)
    · rintro ⟨hjoin, hinvitable⟩
      have hmay := mayOffer_iff.mpr ⟨hjoin.authority, hjoin.supported, hinvitable⟩
      have hinvited : ∃ result, inviteOutcome = .ok result := by
        rcases hinvites with ⟨_, hok, _⟩ | ⟨hdenied, _⟩
        · exact hok
        · exact absurd hmay hdenied
      refine ⟨hinvited, ?_⟩
      obtain ⟨_, ⟨_, hok, _⟩ | ⟨hmember, _⟩⟩ := haccepts hinvited
      · exact hok
      · exact absurd hjoin.outsider hmember
  · intro hok
    rcases hadds with ⟨_, _, hjoined⟩ | ⟨_, hfailed⟩
    · exact hjoined
    · exact absurd hok (hfails hfailed)
  · intro hinvited hok
    obtain ⟨_, ⟨_, _, hjoined⟩ | ⟨_, hfailed⟩⟩ := haccepts hinvited
    · exact hjoined
    · exact absurd hok (hfails hfailed)

end Agreement

namespace Scenario

/-- An organization with its owner, and a user whose address is known. -/
def neighbours : Database where
  tables := {
    users := [⟨1, .active, "owner"⟩, ⟨6, .active, "guest"⟩]
    userEmails := [⟨7, 6, [0], address 'b', true⟩]
    organizations := [⟨2, "organization", "organization"⟩]
    organizationMemberships := [⟨3, 2, 1, .owner⟩] }
  constraints := by decide +kernel

/-- The owner wants the user as an analyst who reads the audit events. -/
def analystWanted : JoinRequest where
  actorId := 1
  organizationId := 2
  email := address 'b'
  role := .analyst
  scopes := [⟨.auditEvents, .read, none⟩]
  correlationId := 5

def addInputs : List (Input console) :=
  [.drew (10 : UUID), .drew (11 : UUID), .drew (12 : UUID)]

def inviteInputs : List (Input console) :=
  [.heard .issueToken (address 't'), .heard .now (0 : Nat), .drew (20 : UUID),
    .heard (.encryptEmail (address 'b')) ([0] : List UInt8), .drew (21 : UUID),
    .drew (22 : UUID),
    .heard (.sendInvitation 20 "organization" (address 'b')
      (StrEnum.value OrganizationRole.analyst) (address 't') invitationLifetime 5)
      (.ok true : Except Failure Bool)]

def acceptInputs : List (Input console) :=
  [.heard .now (1 : Nat), .drew (30 : UUID), .drew (31 : UUID), .drew (32 : UUID)]

theorem analystWanted_applies :
    analystWanted.Applies ports neighbours (address 'b') (address 't') 6 where
  address := rfl
  user := by decide +kernel
  ids := by decide
  lookup := by decide +kernel
  token := by decide +kernel
  unused := by simp [neighbours]
  usable := by decide +kernel

theorem inviteInputs_heard : InviteHears (address 't') 0 inviteInputs where
  token token hheard := by
    simp only [inviteInputs, List.mem_cons, List.not_mem_nil, or_false] at hheard
    rcases hheard with hheard | hheard | hheard | hheard | hheard | hheard | hheard <;>
      cases hheard
    rfl
  clock now hheard := by
    simp only [inviteInputs, List.mem_cons, List.not_mem_nil, or_false] at hheard
    rcases hheard with hheard | hheard | hheard | hheard | hheard | hheard | hheard <;>
      cases hheard
    rfl
  ciphertext email ciphertext hheard := by
    simp only [inviteInputs, List.mem_cons, List.not_mem_nil, or_false] at hheard
    rcases hheard with hheard | hheard | hheard | hheard | hheard | hheard | hheard <;>
      cases hheard
    exact List.cons_ne_nil _ _

end Scenario

theorem both_ways_end :
    (∃ added, (UseCase.addOrganizationMember Scenario.ports
      Scenario.analystWanted.adding).replay Scenario.neighbours Scenario.addInputs = some added ∧
        added.1.toOption.isSome) ∧
    ∃ offered, (UseCase.inviteOrganizationMember Scenario.ports
      Scenario.analystWanted.inviting).replay Scenario.neighbours Scenario.inviteInputs =
        some offered ∧ offered.1.toOption.isSome ∧
      (∀ name ∈ drawnNames Scenario.acceptInputs, name ∉ offered.2.memberIdentifiers) ∧
      ∃ accepted, (UseCase.acceptOrganizationInvitation Scenario.ports
        ⟨6, Scenario.address 't', Scenario.analystWanted.correlationId⟩).replay offered.2
          Scenario.acceptInputs = some accepted ∧
          accepted.1.toOption.isSome := by
  have hevaluated : ((UseCase.addOrganizationMember Scenario.ports
      Scenario.analystWanted.adding).replay Scenario.neighbours Scenario.addInputs).any
        (fun added => added.1.toOption.isSome) = true ∧
      ((UseCase.inviteOrganizationMember Scenario.ports
        Scenario.analystWanted.inviting).replay Scenario.neighbours Scenario.inviteInputs).any
        (fun offered => offered.1.toOption.isSome &&
          (decide (∀ name ∈ drawnNames Scenario.acceptInputs,
            name ∉ offered.2.memberIdentifiers) &&
          ((UseCase.acceptOrganizationInvitation Scenario.ports
            ⟨6, Scenario.address 't', Scenario.analystWanted.correlationId⟩).replay offered.2
              Scenario.acceptInputs).any fun accepted => accepted.1.toOption.isSome)) = true := by
    decide +kernel
  generalize (UseCase.addOrganizationMember Scenario.ports
      Scenario.analystWanted.adding).replay Scenario.neighbours Scenario.addInputs = added,
    (UseCase.inviteOrganizationMember Scenario.ports
      Scenario.analystWanted.inviting).replay Scenario.neighbours Scenario.inviteInputs = offered
    at hevaluated ⊢
  simpa only [Option.any_eq_true, Bool.and_eq_true, decide_eq_true_eq] using hevaluated

theorem addInputs_fresh : FreshNames Scenario.neighbours (drawnNames Scenario.addInputs) :=
  ⟨by decide +kernel, by decide +kernel⟩

theorem inviteInputs_fresh : FreshNames Scenario.neighbours (drawnNames Scenario.inviteInputs) :=
  ⟨by decide +kernel, by decide +kernel⟩

theorem acceptInputs_distinct : (drawnNames Scenario.acceptInputs).Nodup := by
  decide +kernel

theorem acceptInputs_heard (now : Instant)
    (hheard : Input.heard (I := console) .now now ∈ Scenario.acceptInputs) :
    now < 0 + invitationLifetime := by
  simp only [Scenario.acceptInputs, List.mem_cons, List.not_mem_nil, or_false] at hheard
  rcases hheard with hheard | hheard | hheard | hheard <;> cases hheard
  decide

/-- Both ways make the user an analyst with the same grant. -/
theorem two_ways_to_join_analyst : ∃ added accepted : Database,
    added.Joined Scenario.analystWanted.organizationId 6 Scenario.analystWanted.role
      (Scenario.analystWanted.scopes.map MembershipResourceScope.grant) ∧
    accepted.Joined Scenario.analystWanted.organizationId 6 Scenario.analystWanted.role
      (Scenario.analystWanted.scopes.map MembershipResourceScope.grant) := by
  obtain ⟨⟨⟨addOutcome, added⟩, hadd, haddSome⟩, ⟨inviteOutcome, offered⟩, hinvite,
    hinviteSome, hunused, ⟨acceptOutcome, accepted⟩, haccept, hacceptSome⟩ := both_ways_end
  have hok : ∀ {α : Type} {outcome : Except Failure α}, outcome.toOption.isSome = true →
      ∃ value, outcome = .ok value := by
    rintro α (failure | value) hsome
    · cases hsome
    · exact ⟨value, rfl⟩
  have hadds := Execution.runs_of_replay hadd
  have hinvites := Execution.runs_of_replay hinvite
  have haccepts := Execution.runs_of_replay haccept
  have hways := @two_ways_to_join Scenario.analystWanted Scenario.ports Scenario.neighbours added
    offered accepted (Scenario.address 'b') (Scenario.address 't') 6 0 Scenario.addInputs
    Scenario.inviteInputs Scenario.acceptInputs addOutcome acceptOutcome inviteOutcome
    Scenario.analystWanted_applies addInputs_fresh hadds inviteInputs_fresh
    Scenario.inviteInputs_heard hinvites ⟨acceptInputs_distinct, hunused⟩ acceptInputs_heard
    haccepts
  exact ⟨added, accepted, hways.2.2.1 (hok haddSome),
    hways.2.2.2 (hok hinviteSome) (hok hacceptSome)⟩

end MuxivoConsole
