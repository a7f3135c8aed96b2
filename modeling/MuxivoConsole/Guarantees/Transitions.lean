/-
Status changes of stored connections under every interleaving.  The use cases
check the transition table against a row they read; the write is keyed by the
identifiers alone.  The law of the table therefore holds of a run exactly when
no write is overtaken by another change of the same row.
-/
import MuxivoConsole.Guarantees.Evolution

namespace MuxivoConsole

open Interleaving

/-- Every status change from one store to the next is in the transition table. -/
def LawfulTransitions (before after : Database) : Prop :=
  ∀ row ∈ before.tables.platformConnections,
    ∀ changed ∈ after.tables.platformConnections, changed.id = row.id →
      changed.status ≠ row.status → changed.status ∈ allowedTransitions row.status

instance (before after : Database) : Decidable (LawfulTransitions before after) :=
  inferInstanceAs (Decidable (∀ row ∈ before.tables.platformConnections,
    ∀ changed ∈ after.tables.platformConnections, changed.id = row.id →
      changed.status ≠ row.status → changed.status ∈ allowedTransitions row.status))

/-- The step commits no status change outside the transition table. -/
def CommitsLawfully (system : ConsoleSystem) (choice : ConsoleChoice) : Prop :=
  ∀ commit ∈ system.commit? choice, LawfulTransitions system.world.store commit.after

instance (system : ConsoleSystem) (choice : ConsoleChoice) :
    Decidable (CommitsLawfully system choice) :=
  inferInstanceAs (Decidable (∀ commit ∈ system.commit? choice,
    LawfulTransitions system.world.store commit.after))

/-- A connection that is disconnected at some point of the run is so at its end. -/
def StaysDisconnected (ports : Ports) (database : Database) (choices : List ConsoleChoice) :
    Prop :=
  ∀ before rest, choices = before ++ rest →
    ∀ row ∈ (database.after ports before).world.store.tables.platformConnections,
      row.status = .disconnected →
        ∃ kept ∈ (database.after ports choices).world.store.tables.platformConnections,
          kept.id = row.id ∧ kept.status = .disconnected

/-- The write is for a connection that meanwhile became disconnected, or it
degrades one that meanwhile came to require reauthorization. -/
def Write.overtaken (write : Write) (row : PlatformConnectionRecord) : Bool :=
  match write with
  | .updateStatus connectionId organizationId status _ _ _ =>
      row.keyed connectionId organizationId &&
        (row.status == .disconnected && status != .disconnected ||
          row.status == .reauthRequired && status == .degraded)
  | _ => false

/-- No stored connection has overtaken the write that commits. -/
def NotOvertaken (system : ConsoleSystem) (choice : ConsoleChoice) : Prop :=
  ∀ commit ∈ system.commit? choice,
    ∀ row ∈ system.world.store.tables.platformConnections,
      commit.write.overtaken row = false

/-- Of the targets other than `PENDING`, the table misses only these pairs. -/
theorem allowed_iff_not_overtaken {current target : ConnectionStatus}
    (htarget : target ≠ .pending) :
    (target ≠ current → target ∈ allowedTransitions current) ↔
      (current == .disconnected && target != .disconnected ||
        current == .reauthRequired && target == .degraded) = false := by
  revert htarget
  cases current <;> cases target <;> decide

/-- No use case sets a connection back to `PENDING`. -/
theorem Justified.target_ne_pending {ports : Ports} {request : Request}
    {history : ConsoleHistory} {connectionId organizationId : UUID}
    {status : ConnectionStatus} {reason : Option ConnectionStatusReason}
    {idempotency : Option PlatformConnectionLifecycleIdempotencyRecord}
    {auditEvent : AuditEvent}
    (hjustified : Justified ports request history (.commit
      (Write.updateStatus connectionId organizationId status reason idempotency auditEvent))) :
    status ≠ .pending := by
  have hnever := pending_not_mem_allowedTransitions
  cases hjustified with
  | change hmay =>
      obtain ⟨current, _, _, _, hallowed⟩ := hmay.allowed
      intro hpending
      exact hnever current.status (hpending ▸ hallowed)
  | reconcile hmay =>
      intro hpending
      exact hnever _ (hpending ▸ hmay.allowed)

/-- A transaction keeps to the transition table for one row exactly when the
row has not overtaken it. -/
theorem rewriteConnection_lawful_iff {ports : Ports} {request : Request}
    {history : ConsoleHistory} {write : Write}
    (hjustified : Justified ports request history (.commit write))
    (row : PlatformConnectionRecord) :
    ((write.rewriteConnection row).status ≠ row.status →
      (write.rewriteConnection row).status ∈ allowedTransitions row.status) ↔
        write.overtaken row = false := by
  unfold Write.rewriteConnection Write.overtaken
  split
  · rename_i connectionId organizationId status reason idempotency auditEvent
    have htarget := hjustified.target_ne_pending
    by_cases hkeyed : row.keyed connectionId organizationId = true
    · simp only [hkeyed, ↓reduceIte, Bool.true_and]
      exact allowed_iff_not_overtaken htarget
    · simp [hkeyed]
  · simp

/-- Step rule: one commit is lawful exactly when it is not overtaken. -/
theorem commitsLawfully_iff {ports : Ports} {Stored : Database → Prop}
    {system : ConsoleSystem} (hholds : (consoleDiscipline ports Stored).Holds system)
    (choice : ConsoleChoice) :
    CommitsLawfully system choice ↔ NotOvertaken system choice := by
  have hcommit : ∀ commit ∈ system.commit? choice,
      LawfulTransitions system.world.store commit.after ↔
        ∀ row ∈ system.world.store.tables.platformConnections,
          commit.write.overtaken row = false := by
    intro commit hcommit
    have hjustified := hholds.guard_commit hcommit
    have happly := (System.commit?_eq_some hcommit).2.2
    constructor
    · intro hlawful row hrow
      apply (rewriteConnection_lawful_iff hjustified row).mp
      exact hlawful row hrow _ (Write.rewriteConnection_mem happly hrow)
        (Write.rewriteConnection_id _ _)
    · intro hclear row hrow changed hchanged hid
      rw [Write.eq_rewriteConnection happly hrow hchanged hid]
      exact (rewriteConnection_lawful_iff hjustified row).mpr (hclear row hrow)
  constructor
  · intro hlawful commit hmem
    exact (hcommit commit hmem).mp (hlawful commit hmem)
  · intro hclear commit hmem
    exact (hcommit commit hmem).mpr (hclear commit hmem)

/-- Run rule: a lawful run never leaves `DISCONNECTED`. -/
theorem staysDisconnected_of_lawful {ports : Ports} {database : Database}
    {choices : List ConsoleChoice}
    (hlawful : database.Along ports CommitsLawfully choices) :
    StaysDisconnected ports database choices := by
  intro before rest hsplit row hrow hstatus
  subst hsplit
  induction rest using List.reverseRecOn with
  | nil =>
      rw [List.append_nil]
      exact ⟨row, hrow, rfl, hstatus⟩
  | append_singleton rest choice ih =>
      rw [← List.append_assoc] at hlawful ⊢
      obtain ⟨hearlier, hstep⟩ := (database.along_snoc ports _ _).mp hlawful
      obtain ⟨kept, hkept, hid, hdisconnected⟩ := ih hearlier
      rw [database.after_snoc]
      cases hcommit : (database.after ports (before ++ rest)).commit? choice with
      | none =>
          rw [System.step_store_of_no_commit hcommit]
          exact ⟨kept, hkept, hid, hdisconnected⟩
      | some commit =>
          rw [System.step_store_of_commit hcommit]
          have happly := (System.commit?_eq_some hcommit).2.2
          have hmem := Write.rewriteConnection_mem happly hkept
          refine ⟨_, hmem, (Write.rewriteConnection_id _ _).trans hid, ?_⟩
          by_contra hchanged
          have hallowed := hstep commit hcommit kept hkept _ hmem
            (Write.rewriteConnection_id _ _) (hdisconnected ▸ hchanged)
          rw [hdisconnected] at hallowed
          exact List.not_mem_nil hallowed

namespace Scenario

/-- A reauthorization reads the connection, a whole disconnection follows, and
then the reauthorization commits. -/
def revival : List ConsoleChoice :=
  [act .reauthorize none, act .disconnect none] ++ turns 0 10 4 ++ turns 1 20 5 ++
    turns 0 30 1

end Scenario

/-- The last thing a reconciliation heard before this write was that the
connection is healthy. -/
def ProbedHealthy (history : ConsoleHistory) (connectionId : UUID) : Prop :=
  ∃ earlier connection correlationId auditId, ∃ decision : ConnectionReconciliationDecision,
    history = earlier ++
        [@Observation.heard console (Call.inspectConnection connection correlationId)
          (.ok decision), .drew auditId] ∧
      connection.fields.id = connectionId ∧ decision.targetStatus = .active ∧
        decision.reason = .healthy

/-- If the step activates a pending connection, a healthy probe asked for it. -/
def ActivatesProbed (system : ConsoleSystem) (choice : ConsoleChoice) : Prop :=
  ∀ commit ∈ system.commit? choice,
    ∀ row ∈ system.world.store.tables.platformConnections, row.status = .pending →
      ∀ changed ∈ commit.after.tables.platformConnections, changed.id = row.id →
        changed.status = .active →
          (∃ command, commit.process.request = .reconcilePlatformConnections command) ∧
            ProbedHealthy commit.process.history row.id

/-- The step is no reauthorization of a connection that is still pending. -/
def ReauthorizesNoPending (system : ConsoleSystem) (choice : ConsoleChoice) : Prop :=
  ∀ commit ∈ system.commit? choice, ∀ command,
    commit.process.request = .managePlatformConnectionLifecycle command →
      command.action = .reauthorize →
        ∀ row ∈ system.world.store.tables.platformConnections,
          row.keyed command.connectionId command.organizationId = true →
            row.status ≠ .pending

section Activation

variable {ports : Ports} {request : Request} {history : ConsoleHistory} {write : Write}
variable {row : PlatformConnectionRecord}

theorem Decides.of_active {answer : Except Failure ConnectionReconciliationDecision}
    {decision : ConnectionReconciliationDecision} (hdecides : Decides answer decision)
    (hactive : decision.targetStatus = .active) : answer = .ok decision := by
  rcases hdecides with hanswer | ⟨hunreachable, _⟩
  · exact hanswer
  · rw [hunreachable] at hactive
    cases hactive

/-- A row whose status a transaction changed is the one it is keyed by. -/
theorem keyed_of_status_ne {connectionId organizationId : UUID} {status : ConnectionStatus}
    {reason : Option ConnectionStatusReason}
    {idempotency : Option PlatformConnectionLifecycleIdempotencyRecord}
    {auditEvent : AuditEvent}
    (hchanged : ((Write.updateStatus connectionId organizationId status reason idempotency
      auditEvent).rewriteConnection row).status ≠ row.status) :
    row.keyed connectionId organizationId = true ∧
      ((Write.updateStatus connectionId organizationId status reason idempotency
        auditEvent).rewriteConnection row).status = status := by
  unfold Write.rewriteConnection at hchanged ⊢
  by_cases hkeyed : row.keyed connectionId organizationId = true
  · simp [hkeyed]
  · simp [hkeyed] at hchanged

/-- The two ways in which a pending connection becomes active. -/
theorem activation_cases (hjustified : Justified ports request history (.commit write))
    (hpending : row.status = .pending)
    (hactive : (write.rewriteConnection row).status = .active) :
    (∃ command, request = .managePlatformConnectionLifecycle command ∧
        command.action = .reauthorize ∧
          row.keyed command.connectionId command.organizationId = true) ∨
      (∃ command, request = .reconcilePlatformConnections command) ∧
        ProbedHealthy history row.id := by
  have hchanged : (write.rewriteConnection row).status ≠ row.status := by
    rw [hactive, hpending]
    decide
  cases hjustified with
  | change hmay =>
      obtain ⟨hkeyed, hstatus⟩ := keyed_of_status_ne hchanged
      rw [hstatus] at hactive
      exact Or.inl ⟨_, rfl,
        PlatformConnectionLifecycleAction.targetStatus_injective hactive, hkeyed⟩
  | reconcile hmay =>
      obtain ⟨hkeyed, hstatus⟩ := keyed_of_status_ne hchanged
      rw [hstatus] at hactive
      obtain ⟨earlier, auditId, answer, hhistory, hdecides⟩ := hmay.probed
      rw [hdecides.of_active hactive] at hhistory
      simp only [PlatformConnectionRecord.keyed, Bool.and_eq_true, beq_iff_eq] at hkeyed
      exact Or.inr ⟨⟨_, rfl⟩, earlier, _, _, auditId, _, hhistory, hkeyed.1.symm, hactive,
        ConnectionReconciliationDecision.healthy_of_active hactive⟩
  | _ => exact absurd rfl hchanged

/-- A reauthorization activates whatever it is keyed by. -/
theorem reauthorization_activates {command : ManagePlatformConnectionLifecycleCommand}
    (hjustified : Justified ports (.managePlatformConnectionLifecycle command) history
      (.commit write)) (haction : command.action = .reauthorize)
    (hkeyed : row.keyed command.connectionId command.organizationId = true) :
    (write.rewriteConnection row).status = .active := by
  cases hjustified with
  | change hmay =>
      unfold Write.rewriteConnection
      simp only [hkeyed, ↓reduceIte, haction]
      rfl

end Activation

/-- Step rule: the activation gate holds of a commit exactly when it is no
reauthorization of a pending connection. -/
theorem activatesProbed_iff {ports : Ports} {Stored : Database → Prop}
    {system : ConsoleSystem} (hholds : (consoleDiscipline ports Stored).Holds system)
    (choice : ConsoleChoice) :
    ActivatesProbed system choice ↔ ReauthorizesNoPending system choice := by
  constructor
  · intro hgate commit hcommit command hrequest haction row hrow hkeyed hpending
    have hjustified := hholds.guard_commit hcommit
    have happly := (System.commit?_eq_some hcommit).2.2
    rw [hrequest] at hjustified
    have hactive := reauthorization_activates hjustified haction hkeyed
    obtain ⟨⟨reconcile, hreconcile⟩, _⟩ := hgate commit hcommit row hrow hpending _
      (Write.rewriteConnection_mem happly hrow) (Write.rewriteConnection_id _ _) hactive
    rw [hrequest] at hreconcile
    cases hreconcile
  · intro hclear commit hcommit row hrow hpending changed hchanged hid hactive
    have hjustified := hholds.guard_commit hcommit
    have happly := (System.commit?_eq_some hcommit).2.2
    rw [Write.eq_rewriteConnection happly hrow hchanged hid] at hactive
    rcases activation_cases hjustified hpending hactive with
      ⟨command, hrequest, haction, hkeyed⟩ | hprobed
    · exact absurd hpending (hclear commit hcommit command hrequest haction row hrow hkeyed)
    · exact hprobed

/-- In every run, pending connections are activated by healthy probes alone,
exactly when no reauthorization commits on a pending connection. -/
theorem activation_gate_iff (ports : Ports) (database : Database)
    (choices : List ConsoleChoice) :
    database.Along ports ActivatesProbed choices ↔
      database.Along ports ReauthorizesNoPending choices :=
  System.along_congr database.idle choices fun before choice =>
    activatesProbed_iff (console_holds ports database before) choice

namespace Scenario

/-- The owner asks for an action, and it is about to commit. -/
def asked (action : PlatformConnectionLifecycleAction) : List ConsoleChoice :=
  [act action none] ++ turns 0 10 4

end Scenario

/-- The owner reauthorizes a pending connection, and no probe was asked. -/
theorem pending_reauthorized :
    ¬ (Scenario.withConnection .pending).Along Scenario.ports ActivatesProbed
      (Scenario.asked .reauthorize ++ [.advance 0 (Scenario.reply Scenario.healthy 20)]) := by
  intro hgate
  have hlast := ((Database.along_snoc _ _ _ _).mp hgate).2
  have hactivated : ∃ commit ∈ ((Scenario.withConnection .pending).after Scenario.ports
        (Scenario.asked .reauthorize)).commit?
          (.advance 0 (Scenario.reply Scenario.healthy 20)),
      commit.process.request =
          .managePlatformConnectionLifecycle ⟨1, 2, 4, .reauthorize, 5, none⟩ ∧
        ∃ row ∈ ((Scenario.withConnection .pending).after Scenario.ports
            (Scenario.asked .reauthorize)).world.store.tables.platformConnections,
          row.status = .pending ∧ ∃ changed ∈ commit.after.tables.platformConnections,
            changed.id = row.id ∧ changed.status = .active := by decide +kernel
  obtain ⟨commit, hcommit, hrequest, row, hrow, hpending, changed, hchanged, hid, hactive⟩ :=
    hactivated
  obtain ⟨⟨reconcile, hreconcile⟩, _⟩ :=
    hlast commit hcommit row hrow hpending changed hchanged hid hactive
  rw [hrequest] at hreconcile
  cases hreconcile

end MuxivoConsole
