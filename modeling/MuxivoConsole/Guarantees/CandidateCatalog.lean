/-
The candidates for new connections: in every run they are those of one answer for the active
organization and the chosen platform, the selected one can be connected, and the workspace waits
only for requests that are in flight.
-/
import MuxivoConsole.Events.Runs
import MuxivoConsole.Web.Workspace

namespace MuxivoConsole.Web

open Text Events

variable {μ ι : Type}

structure Client.CatalogSound (events : List (Event μ ι)) (client : Client μ ι) : Prop where
  origin : (client.workspace.connectionCandidates = [] ∧
      client.workspace.connectionCandidatesIdentityLinked = none) ∨
    ∃ catalog, Event.answered (.candidates client.workspace.activeOrganizationId
        client.workspace.platform (.ok catalog)) ∈ events ∧
      client.workspace.connectionCandidates = catalog.items ∧
        client.workspace.connectionCandidatesIdentityLinked = some catalog.identityLinked
  selected : client.workspace.selectedConnectionCandidateId = [] ∨
    ∃ candidate ∈ client.workspace.selectableConnectionCandidates,
      candidate.externalResourceId = client.workspace.selectedConnectionCandidateId
  awaited : client.workspace.connectionCandidatesLoading = true →
    Request.candidates client.workspace.activeOrganizationId client.workspace.platform ∈
      client.inFlight

section Steps

variable {client client' : Client μ ι} {events : List (Event μ ι)} {event : Event μ ι}

theorem Client.CatalogSound.later (hsound : client.CatalogSound events) :
    client.CatalogSound (event :: events) where
  origin := hsound.origin.imp id fun ⟨catalog, hanswered, hsame⟩ =>
    ⟨catalog, List.mem_cons_of_mem _ hanswered, hsame⟩
  selected := hsound.selected
  awaited := hsound.awaited

/-- Behind a reset there is nothing to be sound about. -/
theorem catalogSound_of_reset {workspace : Workspace μ ι} {inFlight : List Request}
    (hcandidates : workspace.connectionCandidates = [])
    (hlinked : workspace.connectionCandidatesIdentityLinked = none)
    (hselected : workspace.selectedConnectionCandidateId = [])
    (hloading : workspace.connectionCandidatesLoading = false) :
    Client.CatalogSound events ⟨workspace, inFlight⟩ where
  origin := Or.inl ⟨hcandidates, hlinked⟩
  selected := Or.inl hselected
  awaited hwaits := by
    rw [hloading] at hwaits
    cases hwaits

/-- Other requests may go out, and members and invitations may change. -/
theorem Client.CatalogSound.send (hsound : client.CatalogSound events) (request : Request) :
    (client.send request).CatalogSound events where
  origin := hsound.origin
  selected := hsound.selected
  awaited hwaits := List.mem_append_left _ (hsound.awaited hwaits)

theorem Client.CatalogSound.loadConnections (hsound : client.CatalogSound events) :
    client.loadConnections.CatalogSound events := by
  unfold Client.loadConnections
  dsimp only
  split_ifs
  · exact catalogSound_of_reset rfl rfl rfl rfl
  · exact hsound.send _

theorem Client.CatalogSound.loadConnectionCandidates (hsound : client.CatalogSound events) :
    client.loadConnectionCandidates.CatalogSound events := by
  unfold Client.loadConnectionCandidates
  dsimp only
  split_ifs
  · exact catalogSound_of_reset rfl rfl rfl rfl
  · exact ⟨hsound.origin, hsound.selected, fun _ => List.mem_append_right _ List.mem_cons_self⟩

theorem Client.CatalogSound.loadOrganizationMembers (hsound : client.CatalogSound events) :
    client.loadOrganizationMembers.CatalogSound events := by
  unfold Client.loadOrganizationMembers
  dsimp only
  split_ifs
  · exact ⟨hsound.origin, hsound.selected, hsound.awaited⟩
  · exact hsound.send _

theorem Client.CatalogSound.loadOrganizationInvitations (hsound : client.CatalogSound events) :
    client.loadOrganizationInvitations.CatalogSound events := by
  unfold Client.loadOrganizationInvitations
  dsimp only
  split_ifs
  · exact ⟨hsound.origin, hsound.selected, hsound.awaited⟩
  · exact hsound.send _

theorem catalogSound_refreshOrganizationWorkspace (client : Client μ ι) :
    client.refreshOrganizationWorkspace.CatalogSound events := by
  have hreset : Client.CatalogSound events
      { client with workspace := client.workspace.resetOrganizationWorkspace } :=
    catalogSound_of_reset rfl rfl rfl rfl
  unfold Client.refreshOrganizationWorkspace
  dsimp only
  split_ifs
  · exact hreset
  · exact hreset.loadConnections.loadConnectionCandidates.loadOrganizationMembers
      |>.loadOrganizationInvitations

/-- The selected candidate is one of those that can be connected. -/
theorem selected_sync (workspace : Workspace μ ι) :
    workspace.syncSelectedConnectionCandidate.selectedConnectionCandidateId = [] ∨
      ∃ candidate ∈ workspace.syncSelectedConnectionCandidate.selectableConnectionCandidates,
        candidate.externalResourceId =
          workspace.syncSelectedConnectionCandidate.selectedConnectionCandidateId := by
  unfold Workspace.syncSelectedConnectionCandidate
  split_ifs with hkept
  · rw [Bool.and_eq_true, List.any_eq_true] at hkept
    obtain ⟨candidate, hcandidate, hsame⟩ := hkept.2
    exact Or.inr ⟨candidate, hcandidate, of_decide_eq_true hsame⟩
  · have hsame (selected : Str) : Workspace.selectableConnectionCandidates
        { workspace with selectedConnectionCandidateId := selected } =
          workspace.selectableConnectionCandidates := rfl
    rw [hsame]
    cases hselectable : workspace.selectableConnectionCandidates with
    | nil => exact Or.inl rfl
    | cons candidate candidates =>
        exact Or.inr ⟨candidate, by rw [hsame, hselectable]; exact List.mem_cons_self, rfl⟩

theorem sync_other (workspace : Workspace μ ι) :
    let synced := workspace.syncSelectedConnectionCandidate
    synced.activeOrganizationId = workspace.activeOrganizationId ∧
      synced.platform = workspace.platform ∧
        synced.connectionCandidates = workspace.connectionCandidates ∧
          synced.connectionCandidatesIdentityLinked =
            workspace.connectionCandidatesIdentityLinked ∧
          synced.connectionCandidatesLoading = workspace.connectionCandidatesLoading := by
  unfold Workspace.syncSelectedConnectionCandidate
  split_ifs <;> exact ⟨rfl, rfl, rfl, rfl, rfl⟩

/-- The answer to another request than the candidates that are waited for leaves them waited
for. -/
theorem mem_erase_of_request_ne {request waited : Request} {inFlight : List Request}
    (hne : request ≠ waited) (hwaited : waited ∈ inFlight) : waited ∈ inFlight.erase request :=
  (List.mem_erase_of_ne (Ne.symm hne)).mpr hwaited

theorem Client.CatalogSound.answered {answer : Answer μ ι} (hsound : client.CatalogSound events)
    (hclient : client' = { client with inFlight := client.inFlight.erase answer.request }) :
    (client'.answered answer).CatalogSound (.answered answer :: events) := by
  subst hclient
  match answer with
  | .organizations preferred (some items) => exact catalogSound_refreshOrganizationWorkspace _
  | .organizations preferred none => exact catalogSound_of_reset rfl rfl rfl rfl
  | .connections organizationId none => exact catalogSound_of_reset rfl rfl rfl rfl
  | .connections organizationId (some items) =>
      have hlater : client.CatalogSound
          (.answered (.connections organizationId (some items)) :: events) := hsound.later
      simp only [Client.answered]
      generalize hchanged : ({ client.workspace with
        connections := items
        selectedConnectionId := ((Workspace.usableConnections { client.workspace with
          connections := items }).head?.map (·.id)).getD []
        selectedDiscordConnectionId := ((Workspace.usableDiscordConnections { client.workspace with
          connections := items }).head?.map (·.id)).getD [] } : Workspace μ ι) = changed
      obtain ⟨hactive, hplatform, hcandidates, hlinked, hloading⟩ := sync_other changed
      refine ⟨?_, selected_sync changed, ?_⟩
      · rw [hactive, hplatform, hcandidates, hlinked, ← hchanged]
        exact hlater.origin
      · rw [hactive, hplatform, hloading, ← hchanged]
        exact fun hwaits => mem_erase_of_request_ne (by rintro ⟨⟩) (hsound.awaited hwaits)
  | .candidates organizationId platform catalog =>
      have hlater : client.CatalogSound
          (.answered (.candidates organizationId platform catalog) :: events) := hsound.later
      simp only [Client.answered]
      split_ifs with hguard
      · refine ⟨hlater.origin, hsound.selected, fun hwaits => ?_⟩
        refine mem_erase_of_request_ne ?_ (hsound.awaited hwaits)
        intro hsame
        obtain ⟨horganization, hplatform⟩ := Request.candidates.inj hsame
        simp [horganization, hplatform] at hguard
      · simp only [Bool.or_eq_true, decide_eq_true_eq, not_or, not_not] at hguard
        obtain ⟨rfl, rfl⟩ := hguard
        cases catalog with
        | error unavailable => exact catalogSound_of_reset rfl rfl rfl rfl
        | ok payload =>
            dsimp only
            generalize hchanged : ({ client.workspace with
              connectionCandidates := payload.items
              connectionCandidatesIdentityLinked := some payload.identityLinked } :
                Workspace μ ι) = changed
            obtain ⟨hactive, hplatform, hcandidates, hlinked, -⟩ := sync_other changed
            refine ⟨Or.inr ⟨payload, ?_, ?_, ?_⟩, selected_sync changed,
              fun hwaits => nomatch hwaits⟩
            · have hsame : changed.activeOrganizationId = client.workspace.activeOrganizationId ∧
                  changed.platform = client.workspace.platform := by
                rw [← hchanged]
                exact ⟨rfl, rfl⟩
              refine List.mem_cons.mpr (Or.inl ?_)
              rw [← hsame.1, ← hsame.2, ← hactive, ← hplatform]
              rfl
            · exact hcandidates.trans (by rw [← hchanged])
            · exact hlinked.trans (by rw [← hchanged])
  | .members organizationId items =>
      have hlater : client.CatalogSound (.answered (.members organizationId items) :: events) :=
        hsound.later
      exact ⟨hlater.origin, hsound.selected, fun hwaits =>
        mem_erase_of_request_ne (by rintro ⟨⟩) (hsound.awaited hwaits)⟩
  | .invitations organizationId items =>
      have hlater : client.CatalogSound (.answered (.invitations organizationId items) :: events) :=
        hsound.later
      exact ⟨hlater.origin, hsound.selected, fun hwaits =>
        mem_erase_of_request_ne (by rintro ⟨⟩) (hsound.awaited hwaits)⟩

theorem Client.CatalogSound.step (hsound : client.CatalogSound events)
    (hstep : client.step event = some client') : client'.CatalogSound (event :: events) := by
  cases event with
  | selectOrganization organizationId =>
      cases hstep
      exact catalogSound_refreshOrganizationWorkspace _
  | loadOrganizations preferred =>
      cases hstep
      exact hsound.later.send _
  | loadConnections =>
      cases hstep
      exact hsound.later.loadConnections
  | loadConnectionCandidates =>
      cases hstep
      exact hsound.later.loadConnectionCandidates
  | loadOrganizationMembers =>
      cases hstep
      exact hsound.later.loadOrganizationMembers
  | loadOrganizationInvitations =>
      cases hstep
      exact hsound.later.loadOrganizationInvitations
  | selectConnectionWizard platform =>
      cases hstep
      exact Client.CatalogSound.loadConnectionCandidates (catalogSound_of_reset rfl rfl rfl rfl)
  | answered answer =>
      simp only [Client.step] at hstep
      split_ifs at hstep with hflight
      cases hstep
      exact hsound.answered rfl

end Steps

/-- Candidates are asked for in the organization `a`; the platform is chosen again before the first
answer arrives. -/
def candidatesAnswered : List (Event Unit Unit) :=
  [.loadOrganizations [], .answered (.organizations [] (some [⟨[97], .owner, []⟩])),
    .selectConnectionWizard .twitch, .selectConnectionWizard .discord,
    .answered (.candidates [97] .twitch (.ok ⟨[⟨.twitch, [49], [50]⟩], true⟩)),
    .answered (.candidates [97] .discord (.ok ⟨[⟨.discord, [51], [52]⟩], true⟩))]

end MuxivoConsole.Web
