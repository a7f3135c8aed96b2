/-
The audit stream of an organization, page by page, while events keep arriving.
-/
import MuxivoConsole.Guarantees.Alone

namespace MuxivoConsole

open Interleaving Paging

/-- `ListOrganizationAuditEvents` for the audit stream of an organization -/
def readsAuditEvents (actorId organizationId : UUID) : AuthorizationRequest where
  actorId := actorId
  organizationId := organizationId
  resource := .auditEvents
  action := .read

/-- Request `number` for the audit stream, with its limit and over the database it finds,
is answered with the page. -/
def AuditAnswered (actorId organizationId : UUID) (databases : Nat → Database)
    (limits : Nat → Int) (number : Nat) (cursor : Option UUID)
    (page : Page AuditLogEntry UUID) : Prop :=
  ∃ inputs, (UseCase.listOrganizationAuditEvents actorId organizationId cursor
    (limits number)).Runs (databases number) inputs (.ok page) (databases number)

section Pages

variable {actorId organizationId : UUID} {databases : Nat → Database} {limits : Nat → Int}

theorem auditAnswered_iff {number : Nat} {cursor : Option UUID}
    {page : Page AuditLogEntry UUID} :
    AuditAnswered actorId organizationId databases limits number cursor page ↔
      (1 ≤ limits number ∧ limits number ≤ 100) ∧
        (databases number).permits (readsAuditEvents actorId organizationId) = true ∧
          page = cut (·.id) ((databases number).auditEventsForOrganization organizationId cursor
            (limits number + 1).toNat) (limits number).toNat := by
  unfold AuditAnswered UseCase.listOrganizationAuditEvents
  by_cases hlimit : 1 ≤ limits number ∧ limits number ≤ 100
  · simp only [hlimit, and_self, not_true_eq_false, ↓reduceIte, true_and]
    simp only [runs_authorize_bind]
    cases hallowed : (databases number).permits (readsAuditEvents actorId organizationId) with
    | false => simp [readsAuditEvents] at hallowed; simp [hallowed]
    | true => simp [readsAuditEvents] at hallowed; simp [hallowed]
  · simp [hlimit]

/-- Every answer lists the next events in the order of the stream. -/
theorem AuditAnswered.lists {number : Nat} {cursor : Option UUID}
    {page : Page AuditLogEntry UUID}
    (hanswered : AuditAnswered actorId organizationId databases limits number cursor page) :
    @Lists AuditEvent AuditLogEntry UUIDᵒᵈ _ Database.auditKey
      (fun entry => OrderDual.toDual entry.id) auditLogEntry
        ((databases number).auditRows organizationId) cursor page := by
  obtain ⟨hlimit, _, rfl⟩ := auditAnswered_iff.mp hanswered
  have hcount : (limits number + 1).toNat = (limits number).toNat + 1 := by omega
  have hcursor : cursor.map OrderDual.toDual = cursor := by
    cases cursor <;> rfl
  rw [hcount, Database.auditEventsForOrganization, hcursor]
  exact @cut_window_lists AuditEvent AuditLogEntry UUIDᵒᵈ _ Database.auditKey
    (fun entry => OrderDual.toDual entry.id) auditLogEntry _
      ((databases number).auditRows_unique organizationId) (fun _ => rfl) cursor _ (by omega)

/-- Following the cursor of the audit stream to its end, while events are only inserted:
every event of the organization that was there at first comes exactly once, nothing comes
twice or from elsewhere, the identifiers descend, and without insertions there are not many
more pages than events. -/
theorem audit_walk_stable (actorId organizationId : UUID) (databases : Nat → Database)
    (limits : Nat → Int) (hlimits : ∀ number, 1 ≤ limits number ∧ limits number ≤ 100)
    (hinserts : ∀ number, (databases number).tables.auditEvents ⊆
      (databases (number + 1)).tables.auditEvents) :
    ((∀ number, (databases number).permits (readsAuditEvents actorId organizationId) = true) →
        ∃ pages, Walk (AuditAnswered actorId organizationId databases limits) 0 none pages) ∧
      ∀ pages, Walk (AuditAnswered actorId organizationId databases limits) 0 none pages →
        (∀ event ∈ (databases 0).auditRows organizationId,
          (listed pages).count (auditLogEntry event) = 1) ∧
        ((listed pages).map (·.id)).Nodup ∧
        (∀ entry ∈ listed pages, ∃ number < pages.length,
          ∃ event ∈ (databases number).auditRows organizationId, auditLogEntry event = entry) ∧
        ((listed pages).Pairwise fun first second => second.id < first.id) ∧
        ((∀ number, (databases number).tables.auditEvents =
            (databases 0).tables.auditEvents) →
          pages.length ≤ ((databases 0).auditRows organizationId).length + 1) := by
  have hrows : ∀ number, (databases number).auditRows organizationId ⊆
      (databases (number + 1)).auditRows organizationId :=
    fun number => List.filter_subset _ (hinserts number)
  constructor
  · intro hpermits
    refine @Walk.exists AuditLogEntry UUIDᵒᵈ _ _ _ ?_ ?_ 0 none
    · intro number cursor
      exact ⟨_, auditAnswered_iff.mpr ⟨hlimits number, hpermits number, rfl⟩⟩
    · intro number cursor page next hanswered hnext
      exact (hanswered.lists.next next hnext).2.2.1
  · intro pages hwalk
    obtain ⟨hsorted, hsound, hcomplete⟩ := @Walk.lists AuditEvent AuditLogEntry UUIDᵒᵈ _
      Database.auditKey (fun entry => OrderDual.toDual entry.id) auditLogEntry _ _
      (fun _ => rfl) (fun _ _ _ hanswered => hanswered.lists) hrows 0 none pages hwalk
    have hdescending : (listed pages).Pairwise fun first second => second.id < first.id :=
      hsorted
    have hids : ((listed pages).map (·.id)).Nodup :=
      List.pairwise_map.mpr (hdescending.imp fun hlt => (ne_of_lt hlt).symm)
    have hentries : ∀ entry ∈ listed pages, ∃ number < pages.length,
        ∃ event ∈ (databases number).auditRows organizationId, auditLogEntry event = entry := by
      intro entry hentry
      obtain ⟨_, number, _, hnumber, hevent⟩ := hsound entry hentry
      rw [Nat.zero_add] at hnumber
      exact ⟨number, hnumber, hevent⟩
    refine ⟨?_, hids, hentries, hdescending, ?_⟩
    · intro event hevent
      exact List.count_eq_one_of_mem (List.Nodup.of_map _ hids)
        (hcomplete event hevent rfl)
    · intro hsame
      have hpages : pages.length ≤ (listed pages).length + 1 := @Walk.length_le AuditLogEntry UUIDᵒᵈ _
        (fun _ _ _ next hanswered hnext => (hanswered.lists.next next hnext).1) 0 none pages hwalk
      have hfew : (listed pages).length ≤ ((databases 0).auditRows organizationId).length := by
        rw [← List.length_map (f := (·.id)), ← List.length_map (f := AuditEvent.id)]
        refine (List.subperm_of_subset hids ?_).length_le
        intro id hid
        obtain ⟨entry, hentry, rfl⟩ := List.mem_map.mp hid
        obtain ⟨number, _, event, hevent, rfl⟩ := hentries entry hentry
        have hfirst : event ∈ (databases 0).auditRows organizationId := by
          unfold Database.auditRows at hevent ⊢
          rwa [hsame number] at hevent
        exact List.mem_map_of_mem hfirst
      omega

end Pages

namespace Scenario

/-- An audit event of the organization of `withConnection`. -/
def audited (id : UUID) : AuditEvent where
  id := id
  correlationId := 5
  actorId := some 1
  organizationId := some 2
  action := "organization.created"
  resourceType := "organization"
  resourceId := none
  result := .succeeded

/-- Two more events arrive after the first request, one before and one after the cursor. -/
def auditing : Nat → Database
  | 0 =>
      { tables := { (withConnection .active).tables with
          auditEvents := [audited 10, audited 20] }
        constraints := by decide }
  | _ + 1 =>
      { tables := { (withConnection .active).tables with
          auditEvents := [audited 10, audited 20, audited 15, audited 30] }
        constraints := by decide }

end Scenario

theorem audit_walk_stable_growing :
    (∃ pages, Walk (AuditAnswered 1 2 Scenario.auditing fun _ => 1) 0 none pages) ∧
      ∀ pages, Walk (AuditAnswered 1 2 Scenario.auditing fun _ => 1) 0 none pages →
        (listed pages).count (auditLogEntry (Scenario.audited 10)) = 1 := by
  have hstable := audit_walk_stable 1 2 Scenario.auditing (fun _ => 1) (fun _ => by decide) (by
    intro number
    cases number with
    | zero => decide
    | succ number => exact List.Subset.refl _)
  refine ⟨hstable.1 ?_, ?_⟩
  · intro number
    cases number with
    | zero => decide
    | succ number =>
        have hpermits : (Scenario.auditing 1).permits (readsAuditEvents 1 2) = true := by decide
        exact hpermits
  · intro pages hwalk
    exact (hstable.2 pages hwalk).1 _ (by decide)

end MuxivoConsole
