/-
Two ways of making a member: adding a user, or inviting the address of the user, who
accepts in time.  They ask for the same authority and leave the same grants, but the
invitation refuses what its own table and its own constructor cannot hold.
-/
import MuxivoConsole.Guarantees.Evolution
import MuxivoConsole.Guarantees.MemberRows

namespace MuxivoConsole

open Interleaving Relational

/-- What both ways decide on: the actor manages members and outranks the role, the role
supports the scopes, and the user is no member yet. -/
structure MayJoin (database : Database) (actorId organizationId userId : UUID)
    (role : OrganizationRole) (scopes : List MembershipResourceScope) : Prop where
  authority : ∃ actor, database.membership actorId organizationId = some actor ∧
    actor.role.canManageMembers = true ∧ actor.role.mayAssign role = true
  supported : ∀ scope ∈ scopes, role.supportsScope scope = true
  outsider : ∀ row ∈ database.tables.organizationMemberships,
    ¬(row.organizationId = organizationId ∧ row.userId = userId)

section Guards

variable {start store : Database} {inputs : List (Input console)} {α : Type}
variable {actorId organizationId : UUID} {role : OrganizationRole}
variable {scopes : List MembershipResourceScope} {outcome : Except Failure α}

/-- `require_actor_can_manage` passes a manager who outranks the role. -/
theorem requireActorCanManage_cases {continuation : OrganizationMembership → UseCase α}
    (hruns : (UseCase.requireActorCanManage actorId organizationId role >>=
      continuation).Runs start inputs outcome store) :
    (∃ actor, start.membership actorId organizationId = some actor ∧
      actor.role.canManageMembers = true ∧ actor.role.mayAssign role = true ∧
        (continuation actor).Runs start inputs outcome store) ∨
    (¬ ∃ actor, start.membership actorId organizationId = some actor ∧
      actor.role.canManageMembers = true ∧ actor.role.mayAssign role = true) ∧
        ∃ failure, outcome = .error failure := by
  unfold UseCase.requireActorCanManage at hruns
  rw [Execution.runs_bind_assoc, runs_getMembership_bind] at hruns
  cases hactor : start.membership actorId organizationId with
  | none =>
      rw [hactor] at hruns
      exact Or.inr ⟨by simp, _, hruns.2.1⟩
  | some actor =>
      rw [hactor] at hruns
      dsimp only at hruns
      by_cases hmanages : actor.role.canManageMembers = true ∧ actor.role.mayAssign role = true
      · rw [if_neg (by simp [hmanages])] at hruns
        exact Or.inl ⟨actor, rfl, hmanages.1, hmanages.2, hruns⟩
      · rw [if_pos (by grind)] at hruns
        refine Or.inr ⟨?_, _, hruns.2.1⟩
        rintro ⟨other, hother, hauthority⟩
        cases hother
        exact hmanages hauthority

/-- The scopes that a role does not support. -/
theorem unsupported_isEmpty :
    (scopes.filter fun scope => !role.supportsScope scope).isEmpty = true ↔
      ∀ scope ∈ scopes, role.supportsScope scope = true := by
  simp [List.isEmpty_iff, List.filter_eq_nil_iff]

/-- `reject_scopes_not_supported_by_role` passes supported scopes. -/
theorem rejectScopes_cases {continuation : Unit → UseCase α}
    (hruns : (UseCase.rejectScopesNotSupportedByRole role scopes >>= continuation).Runs start
      inputs outcome store) :
    ((∀ scope ∈ scopes, role.supportsScope scope = true) ∧
      (continuation ()).Runs start inputs outcome store) ∨
    (¬ ∀ scope ∈ scopes, role.supportsScope scope = true) ∧
      ∃ failure, outcome = .error failure := by
  unfold UseCase.rejectScopesNotSupportedByRole at hruns
  by_cases hsupported : ∀ scope ∈ scopes, role.supportsScope scope = true
  · rw [if_pos (unsupported_isEmpty.mpr hsupported)] at hruns
    exact Or.inl ⟨hsupported, hruns⟩
  · rw [if_neg fun hempty => hsupported (unsupported_isEmpty.mp hempty)] at hruns
    exact Or.inr ⟨hsupported, _, hruns.2.1⟩

end Guards

section Adding

variable {ports : Ports} {start store : Database} {inputs : List (Input console)}
variable {actorId organizationId userId : UUID} {role : OrganizationRole}
variable {scopes : List MembershipResourceScope} {normalized : String}

/-- The transaction of `add_member` is not rolled back for an outsider. -/
theorem addMember_commits {id auditId : UUID} {names : List UUID} {auditEvent : AuditEvent}
    (houtsider : ∀ row ∈ start.tables.organizationMemberships,
      ¬(row.organizationId = organizationId ∧ row.userId = userId))
    (horganization : organizationId ∈ start.tables.organizations.map OrganizationRecord.id)
    (huser : userId ∈ start.tables.users.map UserRecord.id)
    (hlength : names.length = scopes.length)
    (hfresh : FreshNames start (id :: names ++ [auditId])) (haudit : auditEvent.id = auditId) :
    Write.apply (.addMember ⟨id, organizationId, userId, role⟩
      (identifiedRows (UseCase.membershipScopeRecord id) scopes names) auditEvent) start ≠
        none := by
  have hrowIds : UniqueOn MembershipResourceScopeRecord.id
      (identifiedRows (UseCase.membershipScopeRecord id) scopes names) := by
    rw [UniqueOn, map_identifiedRows_id (fun _ _ => rfl) hlength]
    exact hfresh.distinct.of_cons.of_append_left
  have hrows : ∀ record ∈ identifiedRows (UseCase.membershipScopeRecord id) scopes names,
      record.membershipId = id ∧ record.id ∉
        start.tables.membershipResourceScopes.map MembershipResourceScopeRecord.id := by
    intro record hrecord
    obtain ⟨scope, _, name, hname, rfl⟩ := mem_identifiedRows hrecord
    exact ⟨rfl, hfresh.scope (by simp [UseCase.membershipScopeRecord, hname])⟩
  have hconstraints := @Tables.Constraints.join start.tables start.constraints
    ⟨id, organizationId, userId, role⟩ _ auditEvent (hfresh.membership (by simp)) houtsider
    horganization huser hrowIds hrows (haudit ▸ hfresh.auditEvent (by simp))
  exact Write.apply_ne_none rfl hconstraints

/-- Who was added is a member afterwards. -/
theorem addMember_joined {id : UUID} {names : List UUID} {auditEvent : AuditEvent}
    {after : Database} (hid : id ∉ start.membershipIds)
    (hlength : names.length = scopes.length) (hdistinct : names.Nodup)
    (happly : Write.apply (.addMember ⟨id, organizationId, userId, role⟩
      (identifiedRows (UseCase.membershipScopeRecord id) scopes names) auditEvent) start =
        some after) :
    after.Joined organizationId userId role
      (scopes.map MembershipResourceScope.grant) := by
  have htables := Write.apply_eq_some.mp happly
  simp only [Write.statements, Option.some.injEq] at htables
  exact @joined_of_rows start after scopes names ⟨id, organizationId, userId, role⟩
    (by rw [← htables]) (by rw [← htables]) hid hlength hdistinct

/-- It is rolled back for a member. -/
theorem addMember_outsider {membership : OrganizationMembershipRecord}
    {rows : List MembershipResourceScopeRecord} {auditEvent : AuditEvent} {after : Database}
    (happly : Write.apply (.addMember membership rows auditEvent) start = some after) :
    ∀ row ∈ start.tables.organizationMemberships,
      ¬(row.organizationId = membership.organizationId ∧ row.userId = membership.userId) := by
  intro row hrow hsame
  have htables := Write.apply_eq_some.mp happly
  simp only [Write.statements, Option.some.injEq] at htables
  have hunique := after.constraints.organizationMembership
  rw [← htables] at hunique
  refine absurd ?_ (hunique.fresh hrow)
  rw [hsame.1, hsame.2]

/-- `AddOrganizationMember.execute` alone. -/
theorem addOrganizationMember_runs {email : String} {correlationId : UUID}
    {outcome : Except Failure OrganizationMembership}
    (hnormalized : ports.normalizeEmail email = some normalized)
    (huser : start.activeUserIdByEmailLookupHash (ports.lookupHash normalized) = some userId)
    (hids : ∀ scope ∈ scopes, scope.id = none)
    (hfresh : FreshNames start (drawnNames inputs))
    (hruns : (UseCase.addOrganizationMember ports
      ⟨actorId, organizationId, email, role, scopes, correlationId⟩).Runs start inputs outcome
        store) :
    (MayJoin start actorId organizationId userId role scopes ∧
      (∃ membership, outcome = .ok membership) ∧
      store.Joined organizationId userId role
        (scopes.map MembershipResourceScope.grant)) ∨
    (¬ MayJoin start actorId organizationId userId role scopes ∧
      ∃ failure, outcome = .error failure) := by
  obtain ⟨hactive, hknown⟩ := active_of_emailLookupHash huser
  unfold UseCase.addOrganizationMember UseCase.normalizeEmail at hruns
  dsimp only at hruns
  rw [hnormalized, Execution.pure_bind_eq] at hruns
  rcases requireActorCanManage_cases hruns with
    ⟨actor, hactor, hmanages, hassigns, hpassed⟩ | ⟨hdenied, hfailed⟩
  swap
  · exact Or.inr ⟨fun hmay => hdenied hmay.authority, hfailed⟩
  clear hruns
  rcases rejectScopes_cases hpassed with ⟨hsupported, hrest⟩ | ⟨hunsupported, hfailed⟩
  swap
  · exact Or.inr ⟨fun hmay => hunsupported hmay.supported, hfailed⟩
  clear hpassed
  have hfound := Execution.runs_select_bind.mp hrest
  clear hrest
  rw [huser] at hfound
  have hstatus := Execution.runs_select_bind.mp hfound
  clear hfound
  rw [hactive, if_neg (not_not.mpr rfl)] at hstatus
  obtain ⟨id, rest, rfl, hscopes⟩ := Execution.runs_newName_bind.mp hstatus
  clear hstatus
  rcases Execution.runs_bind.mp hscopes with
    ⟨first, second, middle, set, rfl, hfirst, hsecond⟩ | ⟨error, herror, _⟩
  swap
  · obtain ⟨names, _, _, hvalue, _⟩ := assignScopeIds_runs hids herror
    cases hvalue
  clear hscopes
  obtain ⟨names, hlength, rfl, hset, rfl⟩ := assignScopeIds_runs hids hfirst
  cases hset
  obtain ⟨auditId, tail, rfl, hsave⟩ := hsecond
  have hnames : FreshNames middle (id :: names ++ [auditId]) := by
    apply hfresh.sublist
    rw [drawnNames_drew, drawnNames_append, drawnNames_map_drew, drawnNames_drew]
    simp
  have hdistinct : names.Nodup := hnames.distinct.of_cons.of_append_left
  change Execution.Runs (UseCase.addMember _ _ >>= _) middle tail outcome store at hsave
  rw [addMember_eq hlength hdistinct] at hsave
  rcases Execution.runs_save_bind_cases hsave with ⟨hnone, hreturns⟩ | ⟨after, hsome, hreturns⟩
  · refine Or.inr ⟨?_, _, hreturns.2.1⟩
    intro hmay
    exact absurd hnone (addMember_commits hmay.outsider (organization_of_membership hactor)
      hknown hlength hnames rfl)
  · obtain ⟨-, houtcome, rfl⟩ := hreturns
    exact Or.inl ⟨⟨⟨actor, hactor, hmanages, hassigns⟩, hsupported, addMember_outsider hsome⟩,
      ⟨_, houtcome⟩, addMember_joined (hnames.membership (by simp)) hlength hdistinct hsome⟩

end Adding

section Hints

variable {normalized hint : String}

/-- The address has something before its first `@`, and the masked hint, with the domain in
full, has at most 192 characters. -/
def HintFits (normalized : String) : Prop :=
  ∃ first others domain, normalized.toList = first :: others ++ '@' :: domain ∧
    first ≠ '@' ∧ '@' ∉ others ∧ 2 + max 1 (min 3 others.length) + domain.length ≤ 192

/-- What `_masked_email_hint` returns for the parts of an address. -/
theorem maskedEmailHint_eq_ok :
    maskedEmailHint normalized = .ok hint ↔
      ∃ first others domain, normalized.toList = first :: others ++ '@' :: domain ∧
        first ≠ '@' ∧ '@' ∉ others ∧
        hint = String.ofList
          (first :: List.replicate (max 1 (min 3 others.length)) '*' ++ '@' :: domain) := by
  have hsplit := List.takeWhile_append_dropWhile (p := (· != '@')) (l := normalized.toList)
  unfold maskedEmailHint
  dsimp only
  constructor
  · intro hok
    cases hdomain : normalized.toList.dropWhile (· != '@') with
    | nil =>
        rw [hdomain] at hok
        cases hok
    | cons separator domain =>
        rw [hdomain] at hok
        cases hlocal : normalized.toList.takeWhile (· != '@') with
        | nil =>
            rw [hlocal] at hok
            cases hok
        | cons first others =>
            rw [hlocal] at hok
            cases hok
            have hseparator : separator = '@' := by
              have hhead := List.head?_dropWhile_not (· != '@') normalized.toList
              rw [hdomain] at hhead
              simpa using hhead
            have hnone : ∀ character ∈ first :: others, character ≠ '@' := by
              intro character hmem
              rw [← hlocal] at hmem
              simpa using List.mem_takeWhile_imp hmem
            rw [hlocal, hdomain, hseparator] at hsplit
            refine ⟨first, others, domain, hsplit.symm, hnone first List.mem_cons_self, ?_, rfl⟩
            intro hmem
            exact hnone '@' (List.mem_cons_of_mem _ hmem) rfl
  · rintro ⟨first, others, domain, hlist, hfirst, hothers, rfl⟩
    have hall : ∀ character ∈ first :: others, (character != '@') = true := by
      intro character hmem
      rcases List.mem_cons.mp hmem with rfl | hmem
      · simpa using hfirst
      · simp only [bne_iff_ne, ne_eq]
        rintro rfl
        exact hothers hmem
    have htake : normalized.toList.takeWhile (· != '@') = first :: others := by
      rw [hlist, List.takeWhile_append_of_pos hall]
      simp
    have hdrop : normalized.toList.dropWhile (· != '@') = '@' :: domain := by
      rw [hlist, List.dropWhile_append_of_pos hall]
      simp
    rw [htake, hdrop]

theorem hintFits_iff :
    HintFits normalized ↔ ∃ hint, maskedEmailHint normalized = .ok hint ∧ hint.length ≤ 192 := by
  constructor
  · rintro ⟨first, others, domain, hlist, hfirst, hothers, hbound⟩
    refine ⟨_, maskedEmailHint_eq_ok.mpr ⟨first, others, domain, hlist, hfirst, hothers, rfl⟩, ?_⟩
    simp only [String.length_ofList, List.length_append, List.length_cons,
      List.length_replicate]
    omega
  · rintro ⟨hint, hhint, hbound⟩
    obtain ⟨first, others, domain, hlist, hfirst, hothers, rfl⟩ := maskedEmailHint_eq_ok.mp hhint
    simp only [String.length_ofList, List.length_append, List.length_cons,
      List.length_replicate] at hbound
    exact ⟨first, others, domain, hlist, hfirst, hothers, by omega⟩

/-- A hint is never blank. -/
theorem maskedEmailHint_not_blank (hhint : maskedEmailHint normalized = .ok hint) :
    isBlank hint = false := by
  obtain ⟨first, others, domain, _, _, _, rfl⟩ := maskedEmailHint_eq_ok.mp hhint
  rw [isBlank, String.toList_ofList]
  apply List.all_eq_false.mpr
  exact ⟨'@', by simp, by decide⟩

end Hints

section Inviting

/-- The row that `create` inserts for an invitation. -/
def OrganizationInvitationFields.offer (invitation : OrganizationInvitationFields) :
    OrganizationInvitationRecord where
  id := invitation.id
  organizationId := invitation.organizationId
  invitedByUserId := some invitation.invitedByUserId
  emailCiphertext := invitation.emailCiphertext
  emailLookupHash := invitation.emailLookupHash
  emailHint := invitation.emailHint
  tokenHash := invitation.tokenHash
  role := invitation.role
  deliveryStatus := invitation.deliveryStatus
  expiresAt := invitation.expiresAt
  acceptedAt := none
  revokedAt := none
  createdAt := invitation.createdAt

/-- The tables that decide who is a member and whose address is whose are the same. -/
structure SameMembers (before after : Database) : Prop where
  users : after.tables.users = before.tables.users
  userEmails : after.tables.userEmails = before.tables.userEmails
  organizations : after.tables.organizations = before.tables.organizations
  memberships : after.tables.organizationMemberships = before.tables.organizationMemberships
  scopes : after.tables.membershipResourceScopes = before.tables.membershipResourceScopes

theorem SameMembers.trans {first second third : Database} (hfirst : SameMembers first second)
    (hsecond : SameMembers second third) : SameMembers first third where
  users := hsecond.users.trans hfirst.users
  userEmails := hsecond.userEmails.trans hfirst.userEmails
  organizations := hsecond.organizations.trans hfirst.organizations
  memberships := hsecond.memberships.trans hfirst.memberships
  scopes := hsecond.scopes.trans hfirst.scopes

/-- The database holds an open invitation with a row for each of these scopes. -/
structure Offers (database : Database) (invitation : OrganizationInvitation)
    (scopes : List MembershipResourceScope) (names : List UUID) : Prop where
  stored : invitation.fields.offer ∈ database.tables.organizationInvitations
  pending : invitation.fields.acceptedAt = none ∧ invitation.fields.revokedAt = none
  granted : invitation.fields.resourceScopes = FrozenSet.of (identifiedScopes scopes names)
  rows : database.invitationScopes invitation.fields.id =
    identifiedRows (UseCase.invitationScopeRecord invitation.fields.id) scopes names

variable {database start store : Database} {invitation : OrganizationInvitation}
variable {scopes : List MembershipResourceScope} {names : List UUID} {now : Instant}
variable {inputs : List (Input console)}

/-- An open invitation is found by its token before it expires. -/
theorem Offers.found (hoffers : Offers database invitation scopes names)
    (hnow : now < invitation.fields.expiresAt) :
    database.pendingInvitationRow invitation.fields.tokenHash now =
      some invitation.fields.offer := by
  apply Relational.find?_eq_some database.constraints.invitationTokenHash hoffers.stored
  · simp [OrganizationInvitationFields.offer, hnow]
  · intro other _ hother
    simp only [Bool.and_eq_true, beq_iff_eq] at hother
    exact hother.1.1.1

/-- It is read as it was written. -/
theorem Offers.read (hoffers : Offers database invitation scopes names) :
    invitationFromRecords invitation.fields.offer
      (database.invitationScopes invitation.fields.id) = some invitation := by
  have hread : (identifiedRows (UseCase.invitationScopeRecord invitation.fields.id) scopes
      names).mapM (fun scope => scopeFromRecord scope.id scope.resource scope.action) =
        some (identifiedScopes scopes names) := by
    apply mapM_identifiedRows
    intro id scope
    exact scopeFromRecord_eq_some.mpr ⟨rfl, rfl, rfl⟩
  rw [hoffers.rows, invitationFromRecords, hread]
  apply Validated.make_toOption_eq_some.mpr
  obtain ⟨hpending, hgranted⟩ := And.intro hoffers.pending hoffers.granted
  clear hoffers hread
  generalize invitation.fields = fields at hpending hgranted ⊢
  cases fields
  dsimp only at hpending hgranted
  rw [hpending.1, hpending.2, hgranted]
  rfl

theorem runs_findPendingByTokenHash_bind {α : Type}
    {continuation : Option OrganizationInvitation → UseCase α} {outcome : Except Failure α}
    (hoffers : Offers start invitation scopes names) (hnow : now < invitation.fields.expiresAt)
    (hruns : (UseCase.findPendingByTokenHash invitation.fields.tokenHash now >>=
      continuation).Runs start inputs outcome store) :
    (continuation (some invitation)).Runs start inputs outcome store := by
  unfold UseCase.findPendingByTokenHash at hruns
  have hrow := Execution.runs_select_bind.mp (Execution.runs_bind_assoc.mp hruns)
  rw [hoffers.found hnow] at hrow
  have hread := Execution.runs_select_bind.mp (Execution.runs_bind_assoc.mp hrow)
  have hsame : invitationFromRecords invitation.fields.offer
      (start.invitationScopes invitation.fields.offer.id) = some invitation := hoffers.read
  rw [hsame] at hread
  exact hread

/-- What `create` does with scopes that the use case identified. -/
theorem createInvitation_eq {auditEvent : AuditEvent}
    (hscopes : invitation.fields.resourceScopes =
      FrozenSet.of (identifiedScopes scopes names))
    (hlength : names.length = scopes.length) (hdistinct : names.Nodup) :
    UseCase.createInvitation invitation auditEvent =
      UseCase.save (Write.createInvitation invitation.fields.offer
        (identifiedRows (UseCase.invitationScopeRecord invitation.fields.id) scopes names)
        auditEvent) := by
  unfold UseCase.createInvitation
  rw [hscopes, elements_identifiedScopes hlength hdistinct, scopeRecords_identifiedScopes]
  rfl

theorem grants_nodup_iff {id : UUID} (hlength : names.length = scopes.length) :
    UniqueOn (fun scope : OrganizationInvitationScopeRecord => (scope.resource, scope.action))
        (identifiedRows (UseCase.invitationScopeRecord id) scopes names) ↔
      (scopes.map MembershipResourceScope.grant).Nodup := by
  have hpairs : (identifiedRows (UseCase.invitationScopeRecord id) scopes names).map
      (fun scope => (scope.resource, scope.action)) =
        scopes.map fun scope => (StrEnum.value scope.resource, StrEnum.value scope.action) :=
    map_identifiedRows (fun _ _ => rfl) hlength
  rw [UniqueOn, hpairs]
  have htexts : scopes.map (fun scope =>
      (StrEnum.value scope.resource, StrEnum.value scope.action)) =
        (scopes.map MembershipResourceScope.grant).map
          (Prod.map StrEnum.value StrEnum.value) := by
    rw [List.map_map]
    rfl
  have hinjective : Function.Injective
      (Prod.map (StrEnum.value (α := AuthorizationResource))
        (StrEnum.value (α := AuthorizationAction))) :=
    Function.Injective.prodMap (fun _ _ => StrEnum.value_injective)
      fun _ _ => StrEnum.value_injective
  rw [htexts, List.nodup_map_iff hinjective]

/-- The transaction of `create` is not rolled back for scopes without a repeated grant. -/
theorem createInvitation_commits {auditId : UUID} {auditEvent : AuditEvent}
    (hrole : invitation.fields.role ≠ .owner)
    (horganization : invitation.fields.organizationId ∈
      start.tables.organizations.map OrganizationRecord.id)
    (hinviter : invitation.fields.invitedByUserId ∈ start.tables.users.map UserRecord.id)
    (hunused : ∀ row ∈ start.tables.organizationInvitations,
      row.tokenHash ≠ invitation.fields.tokenHash)
    (hlength : names.length = scopes.length)
    (hgrants : (scopes.map MembershipResourceScope.grant).Nodup)
    (hfresh : FreshNames start (invitation.fields.id :: names ++ [auditId]))
    (haudit : auditEvent.id = auditId) :
    Write.apply (.createInvitation invitation.fields.offer
      (identifiedRows (UseCase.invitationScopeRecord invitation.fields.id) scopes names)
      auditEvent) start ≠ none := by
  have hrowIds : UniqueOn OrganizationInvitationScopeRecord.id
      (identifiedRows (UseCase.invitationScopeRecord invitation.fields.id) scopes names) := by
    rw [UniqueOn, map_identifiedRows_id (fun _ _ => rfl) hlength]
    exact hfresh.distinct.of_cons.of_append_left
  have hrows : ∀ record ∈
      identifiedRows (UseCase.invitationScopeRecord invitation.fields.id) scopes names,
      record.invitationId = invitation.fields.id ∧ record.id ∉
        start.tables.organizationInvitationScopes.map OrganizationInvitationScopeRecord.id := by
    intro record hrecord
    obtain ⟨scope, _, name, hname, rfl⟩ := mem_identifiedRows hrecord
    exact ⟨rfl, hfresh.invitationScope (by simp [UseCase.invitationScopeRecord, hname])⟩
  have hknown : ∀ inviter, invitation.fields.offer.invitedByUserId = some inviter →
      inviter ∈ start.tables.users.map UserRecord.id := by
    intro inviter hsome
    cases hsome
    exact hinviter
  have hid : invitation.fields.offer.id ∉
      start.tables.organizationInvitations.map OrganizationInvitationRecord.id :=
    hfresh.invitation (by simp [OrganizationInvitationFields.offer])
  have hconstraints := @Tables.Constraints.invite start.tables start.constraints
    invitation.fields.offer _ auditEvent hid hunused hrole horganization hknown hrowIds
    ((grants_nodup_iff hlength).mpr hgrants) hrows (haudit ▸ hfresh.auditEvent (by simp))
  exact Write.apply_ne_none rfl hconstraints

/-- It is rolled back for a repeated grant. -/
theorem createInvitation_distinct {auditEvent : AuditEvent} {after : Database}
    (hlength : names.length = scopes.length)
    (happly : Write.apply (.createInvitation invitation.fields.offer
      (identifiedRows (UseCase.invitationScopeRecord invitation.fields.id) scopes names)
      auditEvent) start = some after) :
    (scopes.map MembershipResourceScope.grant).Nodup := by
  have htables := Write.apply_eq_some.mp happly
  simp only [Write.statements, Option.some.injEq] at htables
  have hunique := after.constraints.invitationScope
  rw [← htables] at hunique
  have hrows := (uniqueOn_append.mp hunique).2.1
  apply (@grants_nodup_iff scopes names invitation.fields.id hlength).mp
  unfold UniqueOn at hrows ⊢
  have htriples : (identifiedRows (UseCase.invitationScopeRecord invitation.fields.id) scopes
      names).map (fun row => (row.invitationId, row.resource, row.action)) =
        ((identifiedRows (UseCase.invitationScopeRecord invitation.fields.id) scopes
          names).map fun row => (row.resource, row.action)).map
            (Prod.mk invitation.fields.id) := by
    rw [List.map_map]
    apply List.map_congr_left
    intro record hrecord
    obtain ⟨scope, _, name, _, rfl⟩ := mem_identifiedRows hrecord
    rfl
  rw [htriples] at hrows
  exact hrows.of_map

/-- The invitation is on offer after `create`. -/
theorem createInvitation_offers {auditEvent : AuditEvent} {after : Database}
    (hfresh : invitation.fields.id ∉
      start.tables.organizationInvitations.map OrganizationInvitationRecord.id)
    (hpending : invitation.fields.acceptedAt = none ∧ invitation.fields.revokedAt = none)
    (hgranted : invitation.fields.resourceScopes =
      FrozenSet.of (identifiedScopes scopes names))
    (happly : Write.apply (.createInvitation invitation.fields.offer
      (identifiedRows (UseCase.invitationScopeRecord invitation.fields.id) scopes names)
      auditEvent) start = some after) :
    Offers after invitation scopes names ∧ SameMembers start after := by
  have htables := Write.apply_eq_some.mp happly
  simp only [Write.statements, Option.some.injEq] at htables
  refine ⟨⟨?_, hpending, hgranted, ?_⟩, ?_⟩
  · rw [← htables]
    exact List.mem_append_right _ List.mem_cons_self
  · have hold : start.tables.organizationInvitationScopes.filter
        (·.invitationId == invitation.fields.id) = [] := by
      apply List.filter_eq_nil_iff.mpr
      intro scope hscope hsame
      have hparent := start.constraints.invitationScopeInvitation scope hscope
      rw [beq_iff_eq.mp hsame] at hparent
      exact hfresh hparent
    have hnew : (identifiedRows (UseCase.invitationScopeRecord invitation.fields.id) scopes
        names).filter (·.invitationId == invitation.fields.id) =
          identifiedRows (UseCase.invitationScopeRecord invitation.fields.id) scopes names := by
      apply List.filter_eq_self.mpr
      intro record hrecord
      obtain ⟨scope, _, id, _, rfl⟩ := mem_identifiedRows hrecord
      exact beq_self_eq_true _
    rw [Database.invitationScopes, ← htables, List.filter_append, hold, hnew, List.nil_append]
  · constructor <;> rw [← htables]

/-- Storing how the delivery went changes nothing else. -/
theorem updateDeliveryStatus_offers {organizationId : UUID}
    {deliveryStatus : OrganizationInvitationDeliveryStatus} {after : Database}
    (hoffers : Offers start invitation scopes names)
    (happly : Write.apply (.updateDeliveryStatus invitation.fields.id organizationId
      deliveryStatus) start = some after) :
    (∃ stored : OrganizationInvitation, Offers after stored scopes names ∧
      stored.fields = { invitation.fields with
        deliveryStatus := stored.fields.deliveryStatus }) ∧ SameMembers start after := by
  have hstatements := Write.apply_eq_some.mp happly
  have hrewritten := Write.rewriteInvitation_mem hstatements hoffers.stored
  simp only [Write.statements, Option.ite_none_left_eq_some, Option.some.injEq] at hstatements
  obtain ⟨_, htables⟩ := hstatements
  refine ⟨?_, ?_⟩
  · have hrows : after.invitationScopes invitation.fields.id =
        start.invitationScopes invitation.fields.id := by
      rw [Database.invitationScopes, ← htables]
      rfl
    unfold Write.rewriteInvitation at hrewritten
    dsimp only at hrewritten
    split at hrewritten
    · refine ⟨withDeliveryStatus invitation deliveryStatus, ⟨hrewritten, hoffers.pending,
        hoffers.granted, ?_⟩, rfl⟩
      exact hrows.trans hoffers.rows
    · exact ⟨invitation, ⟨hrewritten, hoffers.pending, hoffers.granted,
        hrows.trans hoffers.rows⟩, rfl⟩
  · constructor <;> rw [← htables]

/-- What an invitation needs that is on offer afterwards. -/
structure MayOffer (database : Database) (actorId organizationId : UUID)
    (role : OrganizationRole) (scopes : List MembershipResourceScope) (normalized : String) :
    Prop where
  organization : ∃ organization, database.organizationById organizationId = some organization
  authority : ∃ actor, database.membership actorId organizationId = some actor ∧
    actor.role.canManageMembers = true ∧ actor.role.mayAssign role = true
  supported : ∀ scope ∈ scopes, role.supportsScope scope = true
  distinct : (scopes.map MembershipResourceScope.grant).Nodup
  hint : HintFits normalized

/-- Of the checks of the constructor only the one on the hint can fail. -/
theorem offer_accepted_iff {fields : OrganizationInvitationFields}
    (hlookup : fields.emailLookupHash.length = 64) (htoken : fields.tokenHash.length = 64)
    (hblank : isBlank fields.emailHint = false) (hciphertext : fields.emailCiphertext ≠ [])
    (hexpires : fields.createdAt < fields.expiresAt) (hpending : fields.acceptedAt = none) :
    fields.postInit = none ↔ fields.emailHint.length ≤ 192 := by
  have hnonempty : fields.emailCiphertext.isEmpty = false := by
    simpa [List.isEmpty_iff] using hciphertext
  by_cases hbound : fields.emailHint.length ≤ 192
  · have hshort : ¬ 192 < fields.emailHint.length := by omega
    have hlater : ¬ fields.expiresAt ≤ fields.createdAt := Nat.not_le.mpr hexpires
    simp [OrganizationInvitationFields.postInit, hlookup, htoken, hblank, hnonempty, hshort,
      hlater, hpending, hbound]
  · have hlong : 192 < fields.emailHint.length := by omega
    simp [OrganizationInvitationFields.postInit, hlookup, htoken, hlong]

/-- What the environment of an invitation tells it. -/
structure InviteHears (rawToken : String) (createdAt : Instant) (inputs : List (Input console)) :
    Prop where
  token : ∀ token : String, Input.heard (I := console) .issueToken token ∈ inputs →
    token = rawToken
  clock : ∀ now : Instant, Input.heard (I := console) .now now ∈ inputs → now = createdAt
  ciphertext : ∀ (email : String) (ciphertext : List UInt8),
    Input.heard (I := console) (.encryptEmail email) ciphertext ∈ inputs → ciphertext ≠ []

/-- The open invitation that stands for these arguments. -/
structure OffersFor (database : Database) (organizationId : UUID) (role : OrganizationRole)
    (scopes : List MembershipResourceScope) (emailLookupHash tokenHash : String)
    (createdAt : Instant) (invitation : OrganizationInvitation) (names : List UUID) :
    Prop where
  offers : Offers database invitation scopes names
  organization : invitation.fields.organizationId = organizationId
  role : invitation.fields.role = role
  emailLookupHash : invitation.fields.emailLookupHash = emailLookupHash
  tokenHash : invitation.fields.tokenHash = tokenHash
  expiresAt : invitation.fields.expiresAt = createdAt + invitationLifetime
  length : names.length = scopes.length
  named : names.Nodup

/-- `InviteOrganizationMember.execute` alone. -/
theorem inviteOrganizationMember_runs {ports : Ports} {actorId organizationId : UUID}
    {role : OrganizationRole} {email normalized rawToken : String} {createdAt : Instant}
    {correlationId : UUID} {outcome : Except Failure OrganizationInvitationCreationResult}
    (hnormalized : ports.normalizeEmail email = some normalized)
    (hids : ∀ scope ∈ scopes, scope.id = none)
    (hfresh : FreshNames start (drawnNames inputs))
    (hhears : InviteHears rawToken createdAt inputs)
    (htoken : (ports.hashToken rawToken).length = 64)
    (hlookup : (ports.lookupHash normalized).length = 64)
    (hunused : ∀ row ∈ start.tables.organizationInvitations,
      row.tokenHash ≠ ports.hashToken rawToken)
    (hruns : (UseCase.inviteOrganizationMember ports
      ⟨actorId, organizationId, email, role, scopes, correlationId⟩).Runs start inputs outcome
        store) :
    (MayOffer start actorId organizationId role scopes normalized ∧
      (∃ result, outcome = .ok result) ∧ SameMembers start store ∧
      ∃ invitation names, OffersFor store organizationId role scopes
        (ports.lookupHash normalized) (ports.hashToken rawToken) createdAt invitation names) ∨
    (¬ MayOffer start actorId organizationId role scopes normalized ∧
      ∃ failure, outcome = .error failure) := by
  unfold UseCase.inviteOrganizationMember UseCase.normalizeEmail at hruns
  dsimp only at hruns
  rw [hnormalized, Execution.pure_bind_eq] at hruns
  have horganization := Execution.runs_select_bind.mp hruns
  clear hruns
  rw [runs_getMembership_bind] at horganization
  cases hfound : start.organizationById organizationId with
  | none =>
      rw [hfound] at horganization
      refine Or.inr ⟨fun hmay => ?_, _, horganization.2.1⟩
      obtain ⟨organization, hsome⟩ := hmay.organization
      rw [hfound] at hsome
      cases hsome
  | some organization =>
  rw [hfound] at horganization
  cases hactor : start.membership actorId organizationId with
  | none =>
      rw [hactor] at horganization
      refine Or.inr ⟨fun hmay => ?_, _, horganization.2.1⟩
      obtain ⟨actor, hsome, _⟩ := hmay.authority
      rw [hactor] at hsome
      cases hsome
  | some actor =>
  rw [hactor] at horganization
  dsimp only at horganization
  by_cases hmanages : actor.role.canManageMembers = true ∧ actor.role.mayAssign role = true
  swap
  · rw [if_pos (by grind)] at horganization
    refine Or.inr ⟨fun hmay => ?_, _, horganization.2.1⟩
    obtain ⟨other, hsome, hauthority⟩ := hmay.authority
    rw [hactor] at hsome
    cases hsome
    exact hmanages hauthority
  rw [if_neg (by simp [hmanages])] at horganization
  by_cases hsupported : ∀ scope ∈ scopes, role.supportsScope scope = true
  swap
  · have hrejected : ¬(scopes.filter fun scope => !role.supportsScope scope).isEmpty = true :=
      fun hempty => hsupported (unsupported_isEmpty.mp hempty)
    rw [if_pos (by simpa using hrejected)] at horganization
    exact Or.inr ⟨fun hmay => hsupported hmay.supported, _, horganization.2.1⟩
  rw [if_neg (by simpa using unsupported_isEmpty.mpr hsupported)] at horganization
  obtain ⟨issued, rest, rfl, hissued⟩ := Execution.runs_ask_bind.mp horganization
  clear horganization
  obtain rfl : rawToken = issued := (hhears.token issued List.mem_cons_self).symm
  obtain ⟨now, rest, rfl, hclock⟩ := Execution.runs_ask_bind.mp hissued
  clear hissued
  obtain rfl : createdAt = now := (hhears.clock now (by simp)).symm
  obtain ⟨id, rest, rfl, hid⟩ := Execution.runs_newName_bind.mp hclock
  clear hclock
  cases hhint : maskedEmailHint normalized with
  | error failure =>
      rw [hhint] at hid
      refine Or.inr ⟨fun hmay => ?_, _, hid.2.1⟩
      obtain ⟨hint, hok, _⟩ := hintFits_iff.mp hmay.hint
      rw [hhint] at hok
      cases hok
  | ok hint =>
  rw [hhint] at hid
  obtain ⟨ciphertext, rest, rfl, hencrypted⟩ := hid
  have hcipher : ciphertext ≠ [] := hhears.ciphertext normalized ciphertext (by simp)
  change Execution.Runs (UseCase.assignScopeIds scopes >>= _) start rest outcome store
    at hencrypted
  rcases Execution.runs_bind.mp hencrypted with
    ⟨first, second, middle, set, rfl, hfirst, hmade⟩ | ⟨error, herror, _⟩
  swap
  · obtain ⟨names, _, _, hvalue, _⟩ := assignScopeIds_runs hids herror
    cases hvalue
  clear hencrypted
  obtain ⟨names, hlength, rfl, hset, rfl⟩ := assignScopeIds_runs hids hfirst
  cases hset
  have haccepted := @offer_accepted_iff
    { id := id
      organizationId := organizationId
      invitedByUserId := actorId
      emailLookupHash := ports.lookupHash normalized
      emailHint := hint
      emailCiphertext := ciphertext
      tokenHash := ports.hashToken rawToken
      role := role
      resourceScopes := FrozenSet.of (identifiedScopes scopes names)
      expiresAt := createdAt + invitationLifetime
      createdAt := createdAt } hlookup htoken (maskedEmailHint_not_blank hhint) hcipher
      (Nat.lt_add_of_pos_right (by decide)) rfl
  by_cases hbound : hint.length ≤ 192
  swap
  · refine Or.inr ⟨fun hmay => ?_, ?_⟩
    · obtain ⟨other, hother, hshort⟩ := hintFits_iff.mp hmay.hint
      rw [hhint] at hother
      cases hother
      exact hbound hshort
    · rw [Validated.make, dif_neg fun hnone => hbound (haccepted.mp hnone)] at hmade
      exact ⟨_, hmade.2.1⟩
  rw [Validated.make_of_accepted (haccepted.mpr hbound)] at hmade
  obtain ⟨auditId, tail, rfl, hcreate⟩ := hmade
  change Execution.Runs (UseCase.createInvitation _ _ >>= _) middle tail outcome store at hcreate
  have hdrawn : drawnNames (names.map (fun name => Input.drew (I := console) name) ++
      Input.drew auditId :: tail) = names ++ auditId :: drawnNames tail := by
    rw [drawnNames_append, drawnNames_map_drew, drawnNames_drew]
  have hnames : FreshNames middle (id :: names ++ [auditId]) := by
    apply hfresh.sublist
    change (id :: names ++ [auditId]).Sublist (id :: drawnNames
      (names.map (fun name => Input.drew (I := console) name) ++ Input.drew auditId :: tail))
    rw [hdrawn]
    simp
  have hdistinct : names.Nodup := hnames.distinct.of_cons.of_append_left
  rw [createInvitation_eq rfl hlength hdistinct] at hcreate
  rcases Execution.runs_save_bind_cases hcreate with ⟨hnone, hreturns⟩ | ⟨created, hsome, hsend⟩
  · refine Or.inr ⟨fun hmay => ?_, _, hreturns.2.1⟩
    have hrole : role ≠ .owner := by
      rintro rfl
      simp at hmanages
    exact absurd hnone (createInvitation_commits hrole (organization_of_membership hactor)
      (user_of_membership hactor) hunused hlength hmay.distinct hnames rfl)
  · have hgrants := createInvitation_distinct hlength hsome
    obtain ⟨hoffers, hsame⟩ := createInvitation_offers (hnames.invitation (by simp))
      ⟨rfl, rfl⟩ rfl hsome
    obtain ⟨delivered, rest, rfl, hstatus⟩ := Execution.runs_ask_bind.mp hsend
    have hmay : MayOffer middle actorId organizationId role scopes normalized :=
      ⟨⟨organization, hfound⟩, ⟨actor, hactor, hmanages⟩, hsupported, hgrants,
        hintFits_iff.mpr ⟨hint, hhint, hbound⟩⟩
    rcases Execution.runs_save_bind_cases hstatus with ⟨_, hreturns⟩ | ⟨sent, hsent, hreturns⟩
    · obtain ⟨-, houtcome, rfl⟩ := hreturns
      exact Or.inl ⟨hmay, ⟨_, houtcome⟩, hsame, _, names, hoffers, rfl, rfl, rfl, rfl, rfl,
        hlength, hdistinct⟩
    · obtain ⟨-, houtcome, rfl⟩ := hreturns
      obtain ⟨⟨stored, hstored, hfields⟩, hkept⟩ := updateDeliveryStatus_offers hoffers hsent
      refine Or.inl ⟨hmay, ⟨_, houtcome⟩, hsame.trans hkept, stored, names, hstored, ?_, ?_, ?_,
        ?_, ?_, hlength, hdistinct⟩
      all_goals rw [hfields]

end Inviting

end MuxivoConsole
