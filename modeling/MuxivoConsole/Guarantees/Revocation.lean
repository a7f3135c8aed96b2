/-
Runs of whole executions: how long a revocation lasts.  A revoked connection
has the status `REAUTH_REQUIRED`, which the reconciler shares, so a healthy
probe may take it back to `ACTIVE`; without such a probe only a reauthorization
by an authorized actor does.
-/
import MuxivoConsole.Guarantees.Transitions

namespace MuxivoConsole

open Interleaving Relational

/-- The step commits this action for this connection. -/
def CommitsAction (action : PlatformConnectionLifecycleAction) (connectionId : UUID)
    (system : ConsoleSystem) (choice : ConsoleChoice) : Prop :=
  ∃ commit ∈ system.commit? choice, ∃ command,
    commit.process.request = .managePlatformConnectionLifecycle command ∧
      command.action = action ∧ command.connectionId = connectionId

/-- The stored membership of the actor lets it manage the connections. -/
def MayManage (database : Database) (command : ManagePlatformConnectionLifecycleCommand) :
    Prop :=
  ∃ membership ∈ database.membership command.actorId command.organizationId,
    membership.allows (UseCase.manageConnections command.actorId command.organizationId) = true

/-- The step commits a reauthorization of this connection by an authorized actor. -/
def Reauthorizes (connectionId : UUID) (system : ConsoleSystem) (choice : ConsoleChoice) :
    Prop :=
  ∃ commit ∈ system.commit? choice, ∃ command,
    commit.process.request = .managePlatformConnectionLifecycle command ∧
      command.action = .reauthorize ∧ command.connectionId = connectionId ∧
        MayManage system.world.store command

/-- After a revocation of a connection, and until an authorized actor
reauthorizes it, its stored status is not `ACTIVE`. -/
def RevocationSticks (ports : Ports) (database : Database) (choices : List ConsoleChoice) :
    Prop :=
  ∀ before revocation middle rest connectionId,
    choices = before ++ [revocation] ++ middle ++ rest →
      CommitsAction .revoke connectionId (database.after ports before) revocation →
        System.Along (Request.program ports)
            (fun system choice => ¬ Reauthorizes connectionId system choice)
            (database.after ports (before ++ [revocation])) middle →
          ∀ row ∈ (database.after ports
              (before ++ [revocation] ++ middle)).world.store.tables.platformConnections,
            row.id = connectionId → row.status ≠ .active

/-- The decision does not activate the revoked connection it is about. -/
def KeepsRevoked : (request : Call) → request.Answer → Prop
  | .inspectConnection connection _, answer =>
      match answer with
      | .ok decision =>
          connection.fields.status = .reauthRequired →
            connection.fields.statusReason = some .revoked → decision.targetStatus ≠ .active
      | .error _ => True
  | _, _ => True

instance (request : Call) (answer : request.Answer) : Decidable (KeepsRevoked request answer) :=
  match request, answer with
  | .inspectConnection connection _, .ok decision =>
      inferInstanceAs (Decidable (connection.fields.status = .reauthRequired →
        connection.fields.statusReason = some .revoked → decision.targetStatus ≠ .active))
  | .inspectConnection _ _, .error _ => isTrue trivial
  | .now, _ | .issueToken, _ | .encryptEmail _, _ | .generateSlug _, _ => isTrue trivial
  | .verifyConnection .., _ | .sendInvitation .., _ | .updatePlatform .., _ => isTrue trivial

/-- No probe answers in this step that a revoked connection is healthy. -/
def ProbesKeepRevoked (system : ConsoleSystem) (choice : ConsoleChoice) : Prop :=
  Answers KeepsRevoked system choice

instance (system : ConsoleSystem) (choice : ConsoleChoice) :
    Decidable (ProbesKeepRevoked system choice) :=
  inferInstanceAs (Decidable (Answers KeepsRevoked system choice))

/-- What a revoked connection is until it is reauthorized: still revoked, or
disconnected for good. -/
def PlatformConnectionRecord.Blocked (row : PlatformConnectionRecord) : Prop :=
  (row.status = .reauthRequired ∧
      row.statusReason = some (StrEnum.value ConnectionStatusReason.revoked)) ∨
    row.status = .disconnected

def BlockedIn (database : Database) (connectionId : UUID) : Prop :=
  ∃ row ∈ database.tables.platformConnections, row.id = connectionId ∧ row.Blocked

theorem PlatformConnectionRecord.Blocked.not_active {row : PlatformConnectionRecord}
    (hblocked : row.Blocked) : row.status ≠ .active := by
  intro hactive
  rcases hblocked with ⟨hstatus, _⟩ | hstatus <;> rw [hactive] at hstatus <;> cases hstatus

/-- What may follow a blocked state. -/
theorem PlatformConnectionRecord.Blocked.next {row : PlatformConnectionRecord}
    (hblocked : row.Blocked) {target : ConnectionStatus}
    (hallowed : target ∈ allowedTransitions row.status) :
    target = .disconnected ∨
      target = .active ∧ row.status = .reauthRequired ∧
        row.statusReason = some (StrEnum.value ConnectionStatusReason.revoked) := by
  rcases hblocked with ⟨hstatus, hreason⟩ | hstatus
  · rw [hstatus] at hallowed
    rcases List.mem_cons.mp hallowed with rfl | hdisconnected
    · exact Or.inr ⟨rfl, hstatus, hreason⟩
    · exact Or.inl (List.mem_singleton.mp hdisconnected)
  · rw [hstatus] at hallowed
    cases hallowed

section Alone

variable {history : ConsoleHistory} {start store : Database}

/-- Writes to other connections leave a stored connection where it is. -/
theorem Replays.keeps_connection {later : ConsoleHistory}
    (hreplays : Replays (I := console) start later store) {row : PlatformConnectionRecord}
    (hrow : row ∈ start.tables.platformConnections)
    (hothers : ∀ write : Write, @Observation.wrote console write true ∈ later →
      write.rewriteConnection row = row) :
    row ∈ store.tables.platformConnections := by
  induction later generalizing start with
  | nil => exact hreplays ▸ hrow
  | cons observation later ih =>
      have hrest : ∀ write : Write, @Observation.wrote console write true ∈ later →
          write.rewriteConnection row = row :=
        fun write hwrite => hothers write (List.mem_cons_of_mem _ hwrite)
      cases observation with
      | saw moment world => exact ih hreplays.2 hrow hrest
      | drew name => exact ih hreplays hrow hrest
      | heard request answer => exact ih hreplays hrow hrest
      | wrote write saved =>
          cases saved with
          | false => exact ih hreplays.2 hrow hrest
          | true =>
              obtain ⟨next, happly, hnext⟩ := hreplays
              have hmem := Write.rewriteConnection_mem happly hrow
              rw [hothers write List.mem_cons_self] at hmem
              exact ih hnext hmem hrest

/-- Alone, a listed connection that this program left alone is still stored as
it was listed. -/
theorem ListedAndUntouched.stored (hreplays : Replays (I := console) start history store)
    {connection : PlatformConnection} (hlisted : ListedAndUntouched history connection) :
    ∃ row ∈ store.tables.platformConnections, connectionFromRecord row = some connection := by
  obtain ⟨earlier, moment, later, world, row, rfl, hrow, hparse, hlater⟩ := hlisted
  obtain ⟨middle, _, hworld, hrest⟩ := replays_append.mp hreplays
  rw [hworld] at hrow
  refine ⟨row, Replays.keeps_connection hrest hrow ?_, hparse⟩
  intro write hwrite
  obtain ⟨connectionId, organizationId, status, reason, auditEvent, rfl, hother⟩ :=
    hlater write hwrite
  rw [(connectionFromRecord_eq_some hparse).1] at hother
  have hkeyed : row.keyed connectionId organizationId = false := by
    simp [PlatformConnectionRecord.keyed, Ne.symm hother]
  simp [Write.rewriteConnection, hkeyed]

end Alone

/-- A status update that commits touches a stored connection. -/
theorem Write.updateStatus_touches {database after : Database}
    {connectionId organizationId : UUID} {status : ConnectionStatus}
    {reason : Option ConnectionStatusReason}
    {idempotency : Option PlatformConnectionLifecycleIdempotencyRecord}
    {auditEvent : AuditEvent}
    (happly : (Write.updateStatus connectionId organizationId status reason idempotency
      auditEvent).apply database = some after) :
    ∃ row ∈ database.tables.platformConnections,
      row.keyed connectionId organizationId = true := by
  have hstatements := Write.apply_eq_some.mp happly
  simp only [Write.statements, Option.ite_none_left_eq_some, ne_eq, not_not] at hstatements
  exact exists_of_rowcount_eq_one hstatements.1

/-- A revocation blocks its connection. -/
theorem revocation_blocks {ports : Ports} {history : ConsoleHistory} {write : Write}
    {command : ManagePlatformConnectionLifecycleCommand} {database after : Database}
    (hjustified : Justified ports (.managePlatformConnectionLifecycle command) history
      (.commit write))
    (haction : command.action = .revoke) (happly : write.apply database = some after) :
    BlockedIn after command.connectionId := by
  cases hjustified with
  | change hmay =>
      obtain ⟨row, hrow, hkeyed⟩ := Write.updateStatus_touches happly
      refine ⟨_, Write.rewriteConnection_mem happly hrow, ?_, Or.inl ?_⟩
      · simp only [PlatformConnectionRecord.keyed, Bool.and_eq_true, beq_iff_eq] at hkeyed
        rw [Write.rewriteConnection_id, hkeyed.1]
      · simp only [Write.rewriteConnection, hkeyed, ↓reduceIte, haction]
        exact ⟨rfl, rfl⟩

/-- Step rule: whoever commits alone leaves a blocked connection blocked, if it
is no authorized reauthorization and heard no healthy probe of it. -/
theorem commit_keeps_blocked {ports : Ports} {request : Request} {history : ConsoleHistory}
    {write : Write} {start database after : Database} {connectionId : UUID}
    (hjustified : Justified ports request history (.commit write))
    (hreplays : Replays (I := console) start history database)
    (hheard : ∀ (call : Call) (answer : call.Answer),
      @Observation.heard console call answer ∈ history → KeepsRevoked call answer)
    (hnot : ∀ command, request = .managePlatformConnectionLifecycle command →
      command.action = .reauthorize → command.connectionId = connectionId →
        ¬ MayManage database command)
    (happly : write.apply database = some after) (hblocked : BlockedIn database connectionId) :
    BlockedIn after connectionId := by
  obtain ⟨row, hrow, hid, hbar⟩ := hblocked
  have hmem := Write.rewriteConnection_mem happly hrow
  have hid' : (write.rewriteConnection row).id = connectionId :=
    (Write.rewriteConnection_id _ _).trans hid
  by_cases hsame : (write.rewriteConnection row).status = row.status ∧
      (write.rewriteConnection row).statusReason = row.statusReason
  · refine ⟨_, hmem, hid', ?_⟩
    unfold PlatformConnectionRecord.Blocked
    rw [hsame.1, hsame.2]
    exact hbar
  · -- the write changes this very row, from a status it was allowed to leave
    suffices hdisconnected : (write.rewriteConnection row).status = .disconnected from
      ⟨_, hmem, hid', Or.inr hdisconnected⟩
    cases hjustified with
    | change hmay =>
        rename_i command auditEvent
        by_cases hkeyed : row.keyed command.connectionId command.organizationId = true
        · simp only [Write.rewriteConnection, hkeyed, ↓reduceIte]
          simp only [PlatformConnectionRecord.keyed, Bool.and_eq_true, beq_iff_eq] at hkeyed
          obtain ⟨current, hsaw, hcurrentId, _, hallowed⟩ := hmay.allowed
          have hcurrent : current = row := database.constraints.connectionId.eq
            (hsaw.stored hreplays) hrow (hcurrentId.trans hkeyed.1.symm)
          rw [hcurrent] at hallowed
          rcases hbar.next hallowed with hdisconnected | ⟨hactive, _⟩
          · exact hdisconnected
          · obtain ⟨membership, hmembership, hallows⟩ := hmay.authority
            refine absurd ⟨membership, hmembership.stored hreplays, hallows⟩
              (hnot command rfl ?_ (hkeyed.1.symm.trans hid))
            exact PlatformConnectionLifecycleAction.targetStatus_injective hactive
        · simp [Write.rewriteConnection, hkeyed] at hsame
    | reconcile hmay =>
        rename_i command connection decision auditEvent
        by_cases hkeyed : row.keyed connection.fields.id connection.fields.organizationId = true
        · simp only [Write.rewriteConnection, hkeyed, ↓reduceIte]
          simp only [PlatformConnectionRecord.keyed, Bool.and_eq_true, beq_iff_eq] at hkeyed
          obtain ⟨listed, hlisted, hparse⟩ := hmay.listed.stored hreplays
          obtain ⟨hlistedId, _, _, _, hstatus, hreason⟩ := connectionFromRecord_eq_some hparse
          have hrow' : listed = row := database.constraints.connectionId.eq hlisted hrow
            (hlistedId.symm.trans hkeyed.1.symm)
          rw [hrow'] at hstatus hreason
          have hallowed := hmay.allowed
          rw [hstatus] at hallowed
          rcases hbar.next hallowed with hdisconnected | ⟨hactive, hreauth, hrevoked⟩
          · exact hdisconnected
          · obtain ⟨earlier, auditId, answer, hhistory, hdecides⟩ := hmay.probed
            have hshown : connection.fields.statusReason = some .revoked := by
              rw [hrevoked] at hreason
              obtain ⟨reason, hsome, hvalue⟩ := Option.map_eq_some_iff.mp hreason
              rw [hsome, StrEnum.value_injective hvalue]
            have hprobe : KeepsRevoked
                (.inspectConnection connection command.correlationId) answer :=
              hheard _ _ (hhistory ▸ by simp)
            rw [hdecides.of_active hactive] at hprobe
            exact absurd hactive (hprobe (hstatus.trans hreauth) hshown)
        · simp [Write.rewriteConnection, hkeyed] at hsame
    | _ => exact absurd ⟨rfl, rfl⟩ hsame

/-- From the revocation on, the connection is blocked. -/
theorem blocked_after {ports : Ports} {database : Database}
    {before middle : List ConsoleChoice} {revocation : ConsoleChoice} {connectionId : UUID}
    (hrevoked : CommitsAction .revoke connectionId (database.after ports before) revocation)
    (hserial : System.Serial (Request.program ports) database.idle
      (before ++ [revocation] ++ middle))
    (hprobes : database.Along ports ProbesKeepRevoked (before ++ [revocation] ++ middle))
    (hnot : System.Along (Request.program ports)
      (fun system choice => ¬ Reauthorizes connectionId system choice)
      (database.after ports (before ++ [revocation])) middle) :
    BlockedIn (database.after ports
      (before ++ [revocation] ++ middle)).world.store connectionId := by
  induction middle using List.reverseRecOn with
  | nil =>
      obtain ⟨commit, hcommit, command, hrequest, haction, rfl⟩ := hrevoked
      have hjustified := (console_holds ports database before).guard_commit hcommit
      have happly := (System.commit?_eq_some hcommit).2.2
      rw [List.append_nil, database.after_snoc, System.step_store_of_commit hcommit]
      rw [hrequest] at hjustified
      exact revocation_blocks hjustified haction happly
  | append_singleton middle choice ih =>
      rw [← List.append_assoc] at hserial hprobes ⊢
      have hserial' : System.Serial (Request.program ports) database.idle
          (before ++ [revocation] ++ middle) := ((database.along_snoc ports _ _).mp hserial).1
      have hprobes' := ((database.along_snoc ports _ _).mp hprobes).1
      obtain ⟨hnot', hlast⟩ :=
        (System.along_snoc (database.after ports (before ++ [revocation])) middle choice).mp hnot
      have hblocked := ih hserial' hprobes' hnot'
      rw [database.after_snoc]
      cases hcommit : (database.after ports
          (before ++ [revocation] ++ middle)).commit? choice with
      | none =>
          rw [System.step_store_of_no_commit hcommit]
          exact hblocked
      | some commit =>
          rw [System.step_store_of_commit hcommit]
          obtain ⟨hprocess, _, happly⟩ := System.commit?_eq_some hcommit
          have hjustified := (console_holds ports database
            (before ++ [revocation] ++ middle)).guard_commit hcommit
          refine commit_keeps_blocked hjustified (hserial'.replays hcommit)
            (heard_accepted hprobes' commit.process hprocess) ?_ happly hblocked
          intro command hrequest haction hid hmay
          apply hlast
          rw [← System.run_append database.idle]
          exact ⟨commit, hcommit, command, hrequest, haction, hid, hmay⟩

/-- Run rule: in a run of whole executions in which no probe finds a revoked
connection healthy, revocation sticks until an authorized reauthorization. -/
theorem revocation_sticks (ports : Ports) (database : Database)
    (choices : List ConsoleChoice)
    (hserial : System.Serial (Request.program ports) database.idle choices)
    (hprobes : database.Along ports ProbesKeepRevoked choices) :
    RevocationSticks ports database choices := by
  intro before revocation middle rest connectionId hsplit hrevoked hnot
  subst hsplit
  have hserial' := ((System.along_append database.idle _ rest).mp hserial).1
  have hprobes' := ((System.along_append database.idle _ rest).mp hprobes).1
  obtain ⟨blocked, hmem, hid, hbar⟩ := blocked_after hrevoked hserial' hprobes' hnot
  intro row hrow hrowId hactive
  have hsame := (database.after ports
    (before ++ [revocation] ++ middle)).world.store.constraints.connectionId.eq hmem hrow
      (hid.trans hrowId.symm)
  exact hbar.not_active (hsame ▸ hactive)

namespace Scenario

/-- The step at which the action of `asked` commits. -/
def commits : ConsoleChoice :=
  .advance 0 (reply healthy 20)

/-- A whole reconciliation whose probe takes this decision. -/
def reconciled (decision : ConnectionReconciliationDecision) : List ConsoleChoice :=
  [.start (.reconcilePlatformConnections ⟨6, 7, 100⟩)] ++ turns 1 30 4 decision

end Scenario

/-- The probe reports that the platform's resource is gone. -/
theorem revocation_sticks_removed :
    RevocationSticks Scenario.ports (Scenario.withConnection .active)
      (Scenario.asked .revoke ++ [Scenario.commits] ++
        Scenario.reconciled ⟨.disconnected, .resourceRemoved, by decide⟩) :=
  revocation_sticks _ _ _ (by decide +kernel) (by decide +kernel)

/-- A healthy probe takes a revoked connection back. -/
theorem revocation_undone :
    System.Serial (Request.program Scenario.ports)
        (Scenario.withConnection .active).idle
        (Scenario.asked .revoke ++ [Scenario.commits] ++
          Scenario.reconciled Scenario.healthy) ∧
      ¬ RevocationSticks Scenario.ports (Scenario.withConnection .active)
        (Scenario.asked .revoke ++ [Scenario.commits] ++
          Scenario.reconciled Scenario.healthy) := by
  refine ⟨by decide +kernel, ?_⟩
  intro hsticks
  have hrevoked : ∃ commit ∈ ((Scenario.withConnection .active).after Scenario.ports
        (Scenario.asked .revoke)).commit? Scenario.commits,
      commit.process.request =
        .managePlatformConnectionLifecycle ⟨1, 2, 4, .revoke, 5, none⟩ := by decide +kernel
  obtain ⟨commit, hcommit, hrequest⟩ := hrevoked
  have hsystem : System.Along (Request.program Scenario.ports)
      (fun system choice => ∀ commit ∈ system.commit? choice,
        commit.process.request = .reconcilePlatformConnections ⟨6, 7, 100⟩)
      ((Scenario.withConnection .active).after Scenario.ports
        (Scenario.asked .revoke ++ [Scenario.commits]))
      (Scenario.reconciled Scenario.healthy) := by decide +kernel
  have hnot : System.Along (Request.program Scenario.ports)
      (fun system choice => ¬ Reauthorizes 4 system choice)
      ((Scenario.withConnection .active).after Scenario.ports
        (Scenario.asked .revoke ++ [Scenario.commits]))
      (Scenario.reconciled Scenario.healthy) := by
    refine hsystem.mono ?_
    rintro system choice honly ⟨other, hother, command, hlifecycle, _⟩
    rw [honly other hother] at hlifecycle
    cases hlifecycle
  have hactive : ∃ row ∈ ((Scenario.withConnection .active).after Scenario.ports
      (Scenario.asked .revoke ++ [Scenario.commits] ++
        Scenario.reconciled Scenario.healthy)).world.store.tables.platformConnections,
      row.id = 4 ∧ row.status = .active := by decide +kernel
  obtain ⟨row, hrow, hid, hstatus⟩ := hactive
  exact hsticks (Scenario.asked .revoke) Scenario.commits
    (Scenario.reconciled Scenario.healthy) [] 4 (by rw [List.append_nil])
    ⟨commit, hcommit, _, hrequest, rfl, rfl⟩ hnot row hrow hid hstatus

end MuxivoConsole
