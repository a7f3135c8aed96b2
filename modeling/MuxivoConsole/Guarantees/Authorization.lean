/-
Authorization reads a membership in two statements, its row and then its scope
rows.  What the two put together may never have been stored; a request that is
allowed was nevertheless allowed by the stored membership at one of the two
instants.
-/
import MuxivoConsole.Guarantees.Scopes

namespace MuxivoConsole

open Interleaving

/-- The stored membership of the actor allows the request. -/
def AllowedBy (request : AuthorizationRequest) (database : Database) : Prop :=
  ∃ membership, database.membership request.actorId request.organizationId = some membership ∧
    membership.allows request = true

/-- A stored scope row grants what the request asks for. -/
def MembershipResourceScopeRecord.grants (request : AuthorizationRequest)
    (scope : MembershipResourceScopeRecord) : Prop :=
  scope.resource = StrEnum.value request.resource ∧
    scope.action = StrEnum.value request.action

section OneStore

variable {database : Database} {request : AuthorizationRequest}
variable {row : OrganizationMembershipRecord}

/-- Where scopes fit, an owner row, or a row with a granting scope, allows. -/
theorem allowedBy_of_row (hfits : ScopesFitRoles database)
    (hrow : row ∈ database.tables.organizationMemberships)
    (huser : row.userId = request.actorId)
    (horganization : row.organizationId = request.organizationId)
    (hgrants : row.role = .owner ∨ ∃ scope ∈ database.membershipScopes row.id,
      scope.grants request) : AllowedBy request database := by
  have hfit : ∀ scope ∈ database.membershipScopes row.id,
      row.role.supportsStored scope.resource scope.action = true := by
    intro scope hscope
    obtain ⟨hmem, hid⟩ := mem_membershipScopes.mp hscope
    exact hfits.memberships row hrow scope hmem hid
  obtain ⟨membership, hread⟩ := membershipFromRecord_of_fit hfit
  obtain ⟨_, hactor, htenant, hrole, hscopes⟩ := membershipFromRecord_eq_some hread
  have hstored : database.membership request.actorId request.organizationId =
      some membership := by
    rw [Database.membership, ← huser, ← horganization, membershipRow_of_mem hrow]
    exact hread
  refine ⟨membership, hstored, OrganizationMembership.allows_iff.mpr ⟨?_, ?_, ?_⟩⟩
  · rw [hactor, huser]
  · rw [htenant, horganization]
  · rcases hgrants with howner | ⟨scope, hscope, hresource, haction⟩
    · exact Or.inl (hrole.trans howner)
    · have hparsed : (⟨request.resource, request.action, some scope.id⟩ :
          MembershipResourceScope) ∈ membership.resourceScopes.elements :=
        (hscopes _).mpr ⟨scope, hscope,
          scopeFromRecord_eq_some.mpr ⟨hresource.symm, haction.symm, rfl⟩⟩
      have hsupports := supportsPair_of_scope hfit hread hparsed
      exact Or.inr ⟨hsupports, _, hparsed, rfl, rfl⟩

end OneStore

/-- A torn read that allows a request: one of its two stores did so already. -/
theorem TornRead.allowed {first second : ConsoleWorld} {request : AuthorizationRequest}
    {row : OrganizationMembershipRecord} {membership : OrganizationMembership}
    (hknown : Known first) (hevolves : Evolves first second)
    (hfirst : ScopesFitRoles first.store) (hsecond : ScopesFitRoles second.store)
    (hrow : first.store.membershipRow request.actorId request.organizationId = some row)
    (hread : membershipFromRecord row (second.store.membershipScopes row.id) = some membership)
    (hallows : membership.allows request = true) :
    AllowedBy request first.store ∨ AllowedBy request second.store := by
  obtain ⟨hmem, huser, horganization⟩ := membershipRow_eq_some hrow
  obtain ⟨_, _, _, hrole, hscopes⟩ := membershipFromRecord_eq_some hread
  obtain ⟨_, _, hgrants⟩ := OrganizationMembership.allows_iff.mp hallows
  rcases hgrants with howner | ⟨_, scope, hscope, hresource, haction⟩
  · -- the owner's row is read first, and it alone decides
    exact Or.inl (allowedBy_of_row hfirst hmem huser horganization
      (Or.inl (hrole.symm.trans howner)))
  · -- the scope row is of a membership that the second store still has
    obtain ⟨stored, hstored, hparse⟩ := (hscopes scope).mp hscope
    obtain ⟨hresource', haction', _⟩ := scopeFromRecord_eq_some.mp hparse
    obtain ⟨hscopeMem, hscopeId⟩ := mem_membershipScopes.mp hstored
    obtain ⟨later, hlater, hlaterId⟩ :=
      second.store.constraints.scopeMembership.exists hscopeMem
    have hid : later.id = row.id := hlaterId.trans hscopeId
    obtain ⟨old, hold, holdId, holdOrganization, holdUser, _⟩ :=
      hevolves.tables.memberships.origin later hlater (hid ▸ hknown row hmem)
    have hsame : old = row :=
      first.store.constraints.membershipId.eq hold hmem (holdId.trans hid)
    rw [hsame] at holdOrganization holdUser
    refine Or.inr (allowedBy_of_row hsecond hlater (holdUser.symm.trans huser)
      (holdOrganization.symm.trans horganization) (Or.inr ⟨stored, hid ▸ hstored, ?_, ?_⟩))
    · rw [← hresource', hresource]
    · rw [← haction', haction]

/-- In every run, an authorization that was allowed made two reads, and at an
instant between them the stored membership allowed the request. -/
theorem authorization_sound (ports : Ports) (choices : List ConsoleChoice)
    {process : ConsoleProcess}
    (hprocess : process ∈ (Database.empty.after ports choices).processes)
    {request : AuthorizationRequest} (hrequest : process.request = .authorize request)
    (hallowed : process.execution = .done (.ok (.decision ⟨true⟩))) :
    ∃ first last past present,
      process.history = [.saw first past, .saw last present] ∧
        ∃ instant, first ≤ instant ∧ instant ≤ last ∧
          AllowedBy request
            (Database.empty.idle.storeAt (Request.program ports) choices instant) := by
  have hholds := consoleDiscipline_holds (scopesDiscipline_verified ports)
    scopesFitRoles_empty choices
  have hpost := hholds.outcome hprocess hallowed
  rw [hrequest] at hpost
  obtain ⟨membership, ⟨first, past, last, present, row, hhistory, hrow, hread⟩, hallows⟩ :=
    hpost _ rfl rfl
  rw [List.nil_append] at hhistory
  have hinformed := hholds.informed process hprocess
  rw [hhistory] at hinformed
  have hinv := hinformed.inv
  have hordered := hinformed.ordered
  simp only [seen, List.filterMap_cons, List.filterMap_nil, List.mem_cons, List.not_mem_nil,
    or_false, forall_eq_or_imp, forall_eq, List.pairwise_cons] at hinv hordered
  have hsaw := (saw_storeAt choices process hprocess).2
  have hmoments := (moments_increase choices process hprocess).1
  rw [hhistory] at hsaw hmoments
  simp only [moments, List.filterMap_cons, List.filterMap_nil, List.pairwise_cons,
    List.mem_singleton, forall_eq] at hmoments
  have hle : first ≤ last := Nat.le_of_lt hmoments.1
  have hpast := (hsaw first past (by simp)).2.2
  have hpresent := (hsaw last present (by simp)).2.2
  refine ⟨first, last, past, present, hhistory, ?_⟩
  rcases TornRead.allowed hinv.1.1 hordered.1 hinv.1.2 hinv.2.2 hrow hread hallows with
    hearly | hlate
  · exact ⟨first, Nat.le_refl _, hle, hpast ▸ hearly⟩
  · exact ⟨last, hle, Nat.le_refl _, hpresent ▸ hlate⟩

namespace Scenario

/-- The founder asks for access to the control modules. -/
def access : AuthorizationRequest :=
  ⟨10, 21, .controlModules, .manage⟩

def authorized : List ConsoleChoice :=
  founded ++ [.start (.authorize access)] ++ turns 2 30 2

end Scenario

theorem authorization_sound_founder :
    ∃ first last instant, first ≤ instant ∧ instant ≤ last ∧
      AllowedBy Scenario.access (Database.empty.idle.storeAt
        (Request.program Scenario.ports) Scenario.authorized instant) := by
  have hdone : ∃ process ∈ (Database.empty.after Scenario.ports
      Scenario.authorized).processes,
      process.request = .authorize Scenario.access ∧
        process.execution.outcome? = some (.ok (.decision ⟨true⟩)) := by decide +kernel
  obtain ⟨process, hprocess, hrequest, hallowed⟩ := hdone
  obtain ⟨first, last, _, _, _, instant, hfrom, hto, hstored⟩ :=
    authorization_sound _ _ hprocess hrequest (Execution.outcome?_eq_some.mp hallowed)
  exact ⟨first, last, instant, hfrom, hto, hstored⟩

end MuxivoConsole
