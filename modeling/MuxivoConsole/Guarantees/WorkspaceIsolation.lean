/-
What the workspace shows comes from the organization that is active: for the candidates in every
run, for everything else in the runs in which no answer arrives after its organization has been
left.
-/
import MuxivoConsole.Events.Runs
import MuxivoConsole.Web.Workspace

namespace MuxivoConsole.Web

open Text Events

/-- An element of one of the lists of the workspace. -/
inductive Shown (μ ι : Type) where
  | connection (item : ConnectionItem)
  | candidate (item : CandidateItem)
  | member (item : μ)
  | invitation (item : ι)
  deriving DecidableEq

/-- The elements of an answer, with the organization they were returned for. -/
def Answer.shown {μ ι : Type} : Answer μ ι → List (Str × Shown μ ι)
  | .connections organizationId (some items) =>
      items.map fun item => (organizationId, .connection item)
  | .candidates organizationId _ (.ok catalog) =>
      catalog.items.map fun item => (organizationId, .candidate item)
  | .members organizationId (some items) => items.map fun item => (organizationId, .member item)
  | .invitations organizationId (some items) =>
      items.map fun item => (organizationId, .invitation item)
  | _ => []

/-- All that has been returned in a run. -/
def returned {μ ι : Type} (events : List (Event μ ι)) : List (Str × Shown μ ι) :=
  events.flatMap fun
    | .answered answer => answer.shown
    | _ => []

/-- The elements of `connections`, `connectionCandidates`, `organizationMembers` and
`organizationInvitations`. -/
def Workspace.shown {μ ι : Type} (workspace : Workspace μ ι) : List (Shown μ ι) :=
  workspace.connections.map .connection ++ workspace.connectionCandidates.map .candidate ++
    workspace.organizationMembers.map .member ++ workspace.organizationInvitations.map .invitation

/-- An answer that is no list of candidates brings elements only for the active organization. -/
def Timely {μ ι : Type} (client : Client μ ι) : Event μ ι → Prop
  | .answered (.candidates _ _ _) => True
  | .answered answer =>
      ∀ entry ∈ answer.shown, entry.1 = client.workspace.activeOrganizationId
  | _ => True

instance {μ ι : Type} (client : Client μ ι) (event : Event μ ι) :
    Decidable (Timely client event) :=
  match event with
  | .answered (.candidates _ _ _) => isTrue trivial
  | .answered (.organizations _ _) => inferInstanceAs (Decidable (∀ entry ∈ _, _ = _))
  | .answered (.connections _ _) => inferInstanceAs (Decidable (∀ entry ∈ _, _ = _))
  | .answered (.members _ _) => inferInstanceAs (Decidable (∀ entry ∈ _, _ = _))
  | .answered (.invitations _ _) => inferInstanceAs (Decidable (∀ entry ∈ _, _ = _))
  | .selectOrganization _ | .loadOrganizations _ | .loadConnections | .loadConnectionCandidates
  | .loadOrganizationMembers | .loadOrganizationInvitations | .selectConnectionWizard _ =>
      isTrue trivial

section Steps

variable {μ ι : Type} {workspace workspace' : Workspace μ ι} {client : Client μ ι}
  {events : List (Event μ ι)} {event : Event μ ι}

/-- The active organization stays, and nothing new is shown. -/
structure Workspace.Shrinks (workspace workspace' : Workspace μ ι) : Prop where
  active : workspace'.activeOrganizationId = workspace.activeOrganizationId
  shown : workspace'.shown ⊆ workspace.shown

theorem Workspace.Shrinks.trans {last : Workspace μ ι} (hfirst : workspace.Shrinks workspace')
    (hsecond : workspace'.Shrinks last) : workspace.Shrinks last where
  active := hsecond.active.trans hfirst.active
  shown := List.Subset.trans hsecond.shown hfirst.shown

theorem shrinks_self (workspace : Workspace μ ι) : workspace.Shrinks workspace :=
  ⟨rfl, List.Subset.refl _⟩

theorem shrinks_resetConnectionCandidateCatalog (workspace : Workspace μ ι) :
    workspace.Shrinks workspace.resetConnectionCandidateCatalog := by
  refine ⟨rfl, fun item hitem => ?_⟩
  simp only [Workspace.shown, Workspace.resetConnectionCandidateCatalog, List.mem_append,
    List.map_nil, List.not_mem_nil] at hitem ⊢
  tauto

theorem shrinks_resetPlatformConnectionCatalog (workspace : Workspace μ ι) :
    workspace.Shrinks workspace.resetPlatformConnectionCatalog := by
  refine ⟨rfl, fun item hitem => ?_⟩
  simp only [Workspace.shown, Workspace.resetPlatformConnectionCatalog,
    Workspace.resetConnectionCandidateCatalog, List.mem_append, List.map_nil,
    List.not_mem_nil] at hitem ⊢
  tauto

theorem shrinks_loadConnections (client : Client μ ι) :
    client.workspace.Shrinks client.loadConnections.workspace := by
  unfold Client.loadConnections
  dsimp only
  split_ifs
  · exact shrinks_resetPlatformConnectionCatalog _
  · exact shrinks_self _

theorem shrinks_loadConnectionCandidates (client : Client μ ι) :
    client.workspace.Shrinks client.loadConnectionCandidates.workspace := by
  unfold Client.loadConnectionCandidates
  dsimp only
  split_ifs
  · exact shrinks_resetConnectionCandidateCatalog _
  · exact ⟨rfl, List.Subset.refl _⟩

theorem shrinks_loadOrganizationMembers (client : Client μ ι) :
    client.workspace.Shrinks client.loadOrganizationMembers.workspace := by
  unfold Client.loadOrganizationMembers
  dsimp only
  split_ifs
  · refine ⟨rfl, fun item hitem => ?_⟩
    simp only [Workspace.shown, List.mem_append, List.map_nil, List.not_mem_nil] at hitem ⊢
    tauto
  · exact shrinks_self _

theorem shrinks_loadOrganizationInvitations (client : Client μ ι) :
    client.workspace.Shrinks client.loadOrganizationInvitations.workspace := by
  unfold Client.loadOrganizationInvitations
  dsimp only
  split_ifs
  · refine ⟨rfl, fun item hitem => ?_⟩
    simp only [Workspace.shown, List.mem_append, List.map_nil, List.not_mem_nil] at hitem ⊢
    tauto
  · exact shrinks_self _

theorem shown_resetOrganizationWorkspace (workspace : Workspace μ ι) :
    workspace.resetOrganizationWorkspace.shown = [] := rfl

/-- A refreshed workspace shows nothing yet. -/
theorem shown_refreshOrganizationWorkspace (client : Client μ ι) :
    client.refreshOrganizationWorkspace.workspace.shown = [] := by
  unfold Client.refreshOrganizationWorkspace
  dsimp only
  split_ifs
  · rfl
  · generalize hreset : ({ client with
      workspace := client.workspace.resetOrganizationWorkspace } : Client μ ι) = reset
    have hshrinks := (shrinks_loadConnections reset).trans
      ((shrinks_loadConnectionCandidates _).trans
        ((shrinks_loadOrganizationMembers _).trans (shrinks_loadOrganizationInvitations _)))
    refine List.eq_nil_of_subset_nil (List.Subset.trans hshrinks.shown ?_)
    rw [← hreset, shown_resetOrganizationWorkspace]
    exact List.Subset.refl _

theorem sync_eq (workspace : Workspace μ ι) :
    workspace.syncSelectedConnectionCandidate.shown = workspace.shown ∧
      workspace.syncSelectedConnectionCandidate.activeOrganizationId =
        workspace.activeOrganizationId := by
  unfold Workspace.syncSelectedConnectionCandidate
  split_ifs <;> exact ⟨rfl, rfl⟩

/-- Every element that is shown was returned for the active organization. -/
def Workspace.Belongs (events : List (Event μ ι)) (workspace : Workspace μ ι) : Prop :=
  ∀ item ∈ workspace.shown, (workspace.activeOrganizationId, item) ∈ returned events

theorem belongs_of_shown_eq_nil (hshown : workspace.shown = []) :
    workspace.Belongs events := by
  intro item hitem
  rw [hshown] at hitem
  exact absurd hitem List.not_mem_nil

theorem mem_returned_cons {entry : Str × Shown μ ι} (hentry : entry ∈ returned events) :
    entry ∈ returned (event :: events) := by
  rw [returned, List.flatMap_cons]
  exact List.mem_append_right _ hentry

theorem Workspace.Belongs.shrinks (hbelongs : workspace.Belongs events)
    (hshrinks : workspace.Shrinks workspace') : workspace'.Belongs (event :: events) := by
  intro item hitem
  rw [hshrinks.active]
  exact mem_returned_cons (hbelongs item (hshrinks.shown hitem))

/-- What an answer adds belongs to the active organization if the answer is timely. -/
theorem Workspace.Belongs.answered {answer : Answer μ ι} (hbelongs : workspace.Belongs events)
    (hactive : workspace'.activeOrganizationId = workspace.activeOrganizationId)
    (hshown : ∀ item ∈ workspace'.shown, item ∈ workspace.shown ∨
      (workspace.activeOrganizationId, item) ∈ answer.shown) :
    workspace'.Belongs (.answered answer :: events) := by
  intro item hitem
  rw [hactive]
  rcases hshown item hitem with hold | hnew
  · exact mem_returned_cons (hbelongs item hold)
  · rw [returned, List.flatMap_cons]
    exact List.mem_append_left _ hnew

/-- One step: the answers are those of the active organization, as the guard of the candidates or
the condition makes sure. -/
theorem belongs_answered {answer : Answer μ ι} {client' : Client μ ι}
    (hclient : client'.workspace = client.workspace)
    (hbelongs : client.workspace.Belongs events) (htimely : Timely client (.answered answer)) :
    (client'.answered answer).workspace.Belongs (.answered answer :: events) := by
  match answer with
  | .organizations preferred (some items) =>
      exact belongs_of_shown_eq_nil (shown_refreshOrganizationWorkspace _)
  | .organizations preferred none =>
      exact belongs_of_shown_eq_nil (shown_resetOrganizationWorkspace _)
  | .connections organizationId (some items) =>
      simp only [Client.answered, hclient]
      obtain ⟨hshown, hactive⟩ := sync_eq { client.workspace with
        connections := items
        selectedConnectionId := ((Workspace.usableConnections { client.workspace with
          connections := items }).head?.map (·.id)).getD []
        selectedDiscordConnectionId := ((Workspace.usableDiscordConnections { client.workspace with
          connections := items }).head?.map (·.id)).getD [] }
      refine hbelongs.answered hactive fun item hitem => ?_
      rw [hshown] at hitem
      simp only [Workspace.shown, List.mem_append, List.mem_map] at hitem ⊢
      rcases hitem with ((⟨connection, hconnection, rfl⟩ | hother) | hother) | hother
      · refine Or.inr ?_
        have hentry : (organizationId, Shown.connection connection) ∈
            (Answer.connections organizationId (some items) : Answer μ ι).shown :=
          List.mem_map_of_mem hconnection
        have horganization := htimely _ hentry
        rwa [← horganization]
      · exact Or.inl (Or.inl (Or.inl (Or.inr hother)))
      · exact Or.inl (Or.inl (Or.inr hother))
      · exact Or.inl (Or.inr hother)
  | .connections organizationId none =>
      simp only [Client.answered, hclient]
      exact hbelongs.shrinks (shrinks_resetPlatformConnectionCatalog _)
  | .candidates organizationId platform catalog =>
      simp only [Client.answered, hclient]
      split_ifs with hguard
      · rw [hclient]
        exact hbelongs.shrinks (shrinks_self _)
      · simp only [Bool.or_eq_true, decide_eq_true_eq, not_or, not_not] at hguard
        cases catalog with
        | error unavailable =>
            exact hbelongs.shrinks
              ⟨rfl, (shrinks_resetConnectionCandidateCatalog client.workspace).shown⟩
        | ok payload =>
            obtain ⟨hshown, hactive⟩ := sync_eq { client.workspace with
              connectionCandidates := payload.items
              connectionCandidatesIdentityLinked := some payload.identityLinked }
            refine hbelongs.answered hactive fun item hitem => ?_
            have hitem' := hshown ▸ hitem
            simp only [Workspace.shown, List.mem_append, List.mem_map] at hitem' ⊢
            rcases hitem' with ((hother | ⟨candidate, hcandidate, rfl⟩) | hother) | hother
            · exact Or.inl (Or.inl (Or.inl (Or.inl hother)))
            · refine Or.inr ?_
              rw [← hguard.2]
              exact List.mem_map_of_mem hcandidate
            · exact Or.inl (Or.inl (Or.inr hother))
            · exact Or.inl (Or.inr hother)
  | .members organizationId items =>
      simp only [Client.answered, hclient]
      refine hbelongs.answered rfl fun item hitem => ?_
      simp only [Workspace.shown, List.mem_append, List.mem_map] at hitem ⊢
      rcases hitem with (hother | ⟨member, hmember, rfl⟩) | hother
      · exact Or.inl (Or.inl (Or.inl hother))
      · cases items with
        | none => exact absurd hmember List.not_mem_nil
        | some items =>
            refine Or.inr ?_
            have hentry : (organizationId, Shown.member member) ∈
                (Answer.members organizationId (some items) : Answer μ ι).shown :=
              List.mem_map_of_mem hmember
            have horganization := htimely _ hentry
            rwa [← horganization]
      · exact Or.inl (Or.inr hother)
  | .invitations organizationId items =>
      simp only [Client.answered, hclient]
      refine hbelongs.answered rfl fun item hitem => ?_
      simp only [Workspace.shown, List.mem_append, List.mem_map] at hitem ⊢
      rcases hitem with hother | ⟨invitation, hinvitation, rfl⟩
      · exact Or.inl (Or.inl hother)
      · cases items with
        | none => exact absurd hinvitation List.not_mem_nil
        | some items =>
            refine Or.inr ?_
            have hentry : (organizationId, Shown.invitation invitation) ∈
                (Answer.invitations organizationId (some items) : Answer μ ι).shown :=
              List.mem_map_of_mem hinvitation
            have horganization := htimely _ hentry
            rwa [← horganization]

/-- One step of the client keeps what is shown to the active organization. -/
theorem belongs_step {client' : Client μ ι} (hbelongs : client.workspace.Belongs events)
    (htimely : Timely client event) (hstep : client.step event = some client') :
    client'.workspace.Belongs (event :: events) := by
  cases event with
  | selectOrganization organizationId =>
      cases hstep
      exact belongs_of_shown_eq_nil (shown_refreshOrganizationWorkspace _)
  | loadOrganizations preferred =>
      cases hstep
      exact hbelongs.shrinks (shrinks_self _)
  | loadConnections =>
      cases hstep
      exact hbelongs.shrinks (shrinks_loadConnections client)
  | loadConnectionCandidates =>
      cases hstep
      exact hbelongs.shrinks (shrinks_loadConnectionCandidates client)
  | loadOrganizationMembers =>
      cases hstep
      exact hbelongs.shrinks (shrinks_loadOrganizationMembers client)
  | loadOrganizationInvitations =>
      cases hstep
      exact hbelongs.shrinks (shrinks_loadOrganizationInvitations client)
  | selectConnectionWizard platform =>
      cases hstep
      refine hbelongs.shrinks (Workspace.Shrinks.trans ?_ (shrinks_loadConnectionCandidates _))
      exact ⟨rfl, (shrinks_resetConnectionCandidateCatalog client.workspace).shown⟩
  | answered answer =>
      simp only [Client.step] at hstep
      split_ifs at hstep with hflight
      cases hstep
      exact belongs_answered rfl hbelongs htimely

end Steps

/-- In a run whose answers are timely, what is shown was returned for the active organization. -/
theorem shown_belongs_to_active {μ ι : Type} {events : List (Event μ ι)} {client : Client μ ι}
    (hruns : Runs Client.step Timely {} events client) :
    ∀ item ∈ client.workspace.shown,
      (client.workspace.activeOrganizationId, item) ∈ returned events :=
  Runs.invariant (motive := fun events client => client.workspace.Belongs events)
    (belongs_of_shown_eq_nil rfl)
    (fun _ _ _ _ hbelongs htimely hstep => belongs_step hbelongs htimely hstep) hruns

section Overtaken

/-- The organizations `a` and `b`, of which the user is an owner. -/
def twoOrganizations : List OrganizationListItem :=
  [⟨[97], .owner, []⟩, ⟨[98], .owner, []⟩]

/-- The connections of `a`. -/
def answerForFirst : Event Unit Unit :=
  .answered (.connections [97] (some [⟨[49], .discord, [50], .active⟩]))

/-- The connections of `a` are asked for, and the answer arrives. -/
def promptAnswer : List (Event Unit Unit) :=
  [.loadOrganizations [], .answered (.organizations [] (some twoOrganizations)), answerForFirst]

theorem prompt_answer_belongs : ∃ client : Client Unit Unit,
    Runs Client.step Timely {} promptAnswer.reverse client ∧ client.workspace.shown ≠ [] ∧
      ∀ item ∈ client.workspace.shown,
        (client.workspace.activeOrganizationId, item) ∈ returned promptAnswer.reverse := by
  obtain ⟨client, hclient⟩ : ∃ client, replay Client.step Timely {} promptAnswer = some client :=
    Option.isSome_iff_exists.mp (by decide +kernel)
  have hshown :
      (replay Client.step Timely {} promptAnswer).any (·.workspace.shown ≠ []) = true := by
    decide +kernel
  rw [hclient, Option.any_some] at hshown
  have hruns := runs_of_replay hclient
  exact ⟨client, hruns, of_decide_eq_true hshown, shown_belongs_to_active hruns⟩

/-- `b` is selected before the answer for `a` arrives. -/
def overtakenAnswer : List (Event Unit Unit) :=
  [.loadOrganizations [], .answered (.organizations [] (some twoOrganizations)),
    .selectOrganization [98], answerForFirst]

theorem overtaken_answer_is_shown : ∃ (events : List (Event Unit Unit)) (client : Client Unit Unit),
    Runs Client.step (fun _ _ => True) {} events client ∧
      ¬ ∀ item ∈ client.workspace.shown,
        (client.workspace.activeOrganizationId, item) ∈ returned events := by
  obtain ⟨client, hclient⟩ : ∃ client,
      replay Client.step (fun _ _ => True) {} overtakenAnswer = some client :=
    Option.isSome_iff_exists.mp (by decide +kernel)
  refine ⟨_, client, runs_of_replay hclient, ?_⟩
  have hshown : (replay Client.step (fun _ _ => True) {} overtakenAnswer).any (fun client =>
      client.workspace.shown.any fun item =>
        (client.workspace.activeOrganizationId, item) ∉ returned overtakenAnswer.reverse) =
          true := by
    decide +kernel
  rw [hclient, Option.any_some, List.any_eq_true] at hshown
  obtain ⟨item, hitem, hforeign⟩ := hshown
  exact fun hall => of_decide_eq_true hforeign (hall item hitem)

end Overtaken

end MuxivoConsole.Web
