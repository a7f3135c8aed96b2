/-
Retry keys of lifecycle actions.  The key goes into a table with the change that it
names, under a primary key, and nothing is ever taken out of that table; an action
that is rejected has committed nothing.
-/
import MuxivoConsole.Guarantees.Evolution
import MuxivoConsole.Interleaving.Rollback

namespace MuxivoConsole

open Interleaving Relational

/-- The commit is one of a lifecycle action that carries the key, as the server
normalizes it. -/
def actsUnder (organizationId : UUID) (key : String) (commit : ConsoleCommit) : Bool :=
  match commit.process.request with
  | .managePlatformConnectionLifecycle command =>
      command.organizationId == organizationId && retryKey command.idempotencyKey == some key
  | _ => false

/-- The execution is a lifecycle action and was rejected. -/
def RejectedAction (process : ConsoleProcess) : Prop :=
  (∃ command, process.request = .managePlatformConnectionLifecycle command) ∧
    ∃ failure, process.execution = .done (.error failure)

/-- The table of retry results has the key. -/
def KeyTaken (organizationId : UUID) (key : String) (database : Database) : Prop :=
  ∃ record ∈ database.tables.lifecycleIdempotency,
    record.organizationId = organizationId ∧ record.idempotencyKey = key

section Keys

variable {write : Write} {database after : Database} {organizationId : UUID} {key : String}

/-- No transaction takes a retry result away. -/
theorem Write.lifecycleIdempotency_subset (happly : write.apply database = some after) :
    database.tables.lifecycleIdempotency ⊆ after.tables.lifecycleIdempotency := by
  have hstatements := Write.apply_eq_some.mp happly
  cases write with
  | updateStatus =>
      simp only [statements, Option.ite_none_left_eq_some, Option.some.injEq] at hstatements
      rw [← hstatements.2]
      exact List.subset_append_left _ _
  | updateMember | removeMember | updateDeliveryStatus | acceptInvitation | revokeInvitation =>
      simp only [statements, Option.ite_none_left_eq_some, Option.some.injEq] at hstatements
      rw [← hstatements.2]
      exact List.Subset.refl _
  | _ =>
      simp only [statements, Option.some.injEq] at hstatements
      rw [← hstatements]
      exact List.Subset.refl _

theorem KeyTaken.kept (htaken : KeyTaken organizationId key database)
    (happly : write.apply database = some after) : KeyTaken organizationId key after := by
  obtain ⟨record, hrecord, hnames⟩ := htaken
  exact ⟨record, Write.lifecycleIdempotency_subset happly hrecord, hnames⟩

/-- The write of an action under a key finds the key free and takes it. -/
theorem lifecycleWrite_takes {command : ManagePlatformConnectionLifecycleCommand}
    {auditEvent : AuditEvent} (hkey : retryKey command.idempotencyKey = some key)
    (happly : (Write.updateStatus command.connectionId command.organizationId
      command.action.targetStatus (some command.action.statusReason)
      ((retryKey command.idempotencyKey).map (lifecycleRecord command)) auditEvent).apply
        database = some after) :
    ¬ KeyTaken command.organizationId key database ∧
      KeyTaken command.organizationId key after := by
  have hunique := after.constraints.lifecycleKey
  have hstatements := Write.apply_eq_some.mp happly
  simp only [Write.statements, Option.ite_none_left_eq_some, Option.some.injEq, hkey,
    Option.map_some, Option.toList_some] at hstatements
  rw [← hstatements.2] at hunique
  constructor
  · rintro ⟨record, hrecord, htenant, hname⟩
    apply hunique.fresh hrecord
    rw [htenant, hname]
    rfl
  · rw [KeyTaken, ← hstatements.2]
    exact ⟨lifecycleRecord command key, List.mem_append_right _ List.mem_cons_self, rfl, rfl⟩

end Keys

/-- Run rule: at most one commit is made under a key. -/
theorem acts_at_most_once (ports : Ports) (database : Database)
    (choices : List ConsoleChoice) (organizationId : UUID) (key : String) :
    (database.idle.commits (Request.program ports) choices).countP
      (actsUnder organizationId key) ≤ 1 := by
  refine (@System.countP_commits_le_one console _ _ _ _ (Request.program ports)
    (KeyTaken organizationId key) _ database.idle choices ?_ ?_).1
  · intro before choice commit hcommit htaken
    exact htaken.kept (System.commit?_eq_some hcommit).2.2
  · intro before choice commit hcommit hacts
    have hjustified : Justified ports commit.process.request commit.process.history
        (.commit commit.write) := (console_holds ports database before).guard_commit hcommit
    obtain ⟨_, _, happly⟩ := System.commit?_eq_some hcommit
    obtain ⟨process, write, after⟩ := commit
    dsimp only [actsUnder] at hjustified hacts happly ⊢
    generalize process.request = request at hjustified hacts
    cases hjustified with
    | @change command history auditEvent hmay =>
        simp only [Bool.and_eq_true, beq_iff_eq] at hacts
        obtain ⟨rfl, hkey⟩ := hacts
        exact lifecycleWrite_takes hkey happly
    | _ => cases hacts

section Rejections

open Execution

theorem getMembership_harmless (actorId organizationId : UUID) :
    (UseCase.getMembership actorId organizationId).Harmless := by
  unfold UseCase.getMembership
  refine (harmless_select _).bind ?_
  intro membership
  cases membership with
  | none => exact harmless_pure _
  | some membership => exact (harmless_select _).bind fun _ => harmless_pure _

theorem authorize_harmless (request : AuthorizationRequest) :
    (UseCase.authorize request).Harmless := by
  unfold UseCase.authorize
  refine (getMembership_harmless _ _).bind ?_
  intro membership
  cases membership with
  | none => exact harmless_pure _
  | some membership => exact harmless_pure _

theorem normalizedIdempotencyKey_harmless (value : Option String) :
    (UseCase.normalizedIdempotencyKey value).Harmless := by
  unfold UseCase.normalizedIdempotencyKey
  split
  · exact harmless_pure _
  · dsimp only
    split
    · exact harmless_pure _
    · split
      · exact harmless_raise _
      · exact harmless_pure _

/-- After the update was refused the action raises, after it was saved it returns. -/
theorem applyLifecycleAction_raisesHarmless
    (command : ManagePlatformConnectionLifecycleCommand) (key : Option String) :
    (UseCase.applyLifecycleAction command key).RaisesHarmless := by
  unfold UseCase.applyLifecycleAction
  refine (harmless_select _).then ?_
  intro current
  cases current with
  | none => exact (harmless_raise _).raises
  | some current =>
      dsimp only
      split
      · exact (harmless_pure _).raises
      · split
        · exact (harmless_raise _).raises
        · refine harmless_newName.then ?_
          intro auditId
          exact raisesHarmless_save _ rfl (harmless_raise _).raises

theorem managePlatformConnectionLifecycle_raisesHarmless
    (command : ManagePlatformConnectionLifecycleCommand) :
    (UseCase.managePlatformConnectionLifecycle command).RaisesHarmless := by
  unfold UseCase.managePlatformConnectionLifecycle
  refine (authorize_harmless _).then ?_
  intro decision
  split
  · exact (harmless_raise _).raises
  · refine (normalizedIdempotencyKey_harmless _).then ?_
    intro key
    cases key with
    | none => exact applyLifecycleAction_raisesHarmless command none
    | some key =>
        refine (harmless_select _).then ?_
        intro result
        cases result with
        | none => exact applyLifecycleAction_raisesHarmless command (some key)
        | some result =>
            refine (harmless_select _).then ?_
            intro current
            cases current with
            | none => exact (harmless_raise _).raises
            | some current =>
                dsimp only
                split
                · exact (harmless_raise _).raises
                · exact (harmless_pure _).raises

end Rejections

/-- In every run over any database: at most one commit is made under a key of an
organization, and no step of a rejected action changes the database. -/
theorem lifecycle_key_acts_once (ports : Ports) (database : Database)
    (choices : List ConsoleChoice) :
    (∀ organizationId key, (database.idle.commits (Request.program ports) choices).countP
        (actsUnder organizationId key) ≤ 1) ∧
      ∀ index process, (database.after ports choices).processes[index]? = some process →
        RejectedAction process →
          ∀ before reply rest, choices = before ++ .advance index reply :: rest →
            (database.after ports (before ++ [.advance index reply])).world.store =
              (database.after ports before).world.store := by
  refine ⟨acts_at_most_once ports database choices, ?_⟩
  intro index process hprocess hrejected before reply rest hsplit
  obtain ⟨⟨command, hrequest⟩, failure, herror⟩ := hrejected
  refine raised_unchanged hprocess ?_ herror hsplit
  rw [hrequest]
  exact (managePlatformConnectionLifecycle_raisesHarmless command).map Outcome.connection

end MuxivoConsole
