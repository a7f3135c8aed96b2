/-
The platform writer ports under every interleaving.  Each update reads the
membership and the connection in transactions of their own; what it then asks
of the platform is about a resource that belongs to the organization alone.
-/
import MuxivoConsole.Guarantees.Evolution

namespace MuxivoConsole

open Interleaving Relational

/-- A stored Discord connection of this resource. -/
def PlatformConnectionRecord.isDiscord (externalResourceId : String)
    (row : PlatformConnectionRecord) : Bool :=
  row.platform == StrEnum.value Platform.discord && row.externalResourceId == externalResourceId

/-- The resource has an active Discord connection. -/
def DiscordActive (externalResourceId : String) (database : Database) : Prop :=
  ∃ row ∈ database.tables.platformConnections,
    row.isDiscord externalResourceId = true ∧ row.status = .active

/-- The resource has an active Discord connection of this organization. -/
def ActiveFor (organizationId : UUID) (externalResourceId : String) (database : Database) :
    Prop :=
  ∃ row ∈ database.tables.platformConnections, row.isDiscord externalResourceId = true ∧
    row.organizationId = organizationId ∧ row.status = .active

/-- The user is stored as the owner of the organization. -/
def OwnedBy (organizationId userId : UUID) (database : Database) : Prop :=
  ∃ row ∈ database.tables.organizationMemberships, row.organizationId = organizationId ∧
    row.userId = userId ∧ row.role = .owner

/-- What is known of a call to a platform writer port at the end of a run. -/
structure PlatformWrite (ports : Ports) (database : Database) (choices : List ConsoleChoice)
    (process : ConsoleProcess) (organizationId actorId : UUID) (externalResourceId : String) :
    Prop where
  /-- the call is made for the organization and the actor of the request -/
  request : process.request.platformUpdate = some (organizationId, actorId)
  /-- the resource has one Discord row, and it belongs to the organization -/
  tenant : ∃ row, (database.after ports choices).world.store.tables.platformConnections.filter
      (PlatformConnectionRecord.isDiscord externalResourceId) = [row] ∧
    row.organizationId = organizationId
  /-- the execution read the connection while it was active -/
  active : ∃ moment past, Observation.saw moment past ∈ process.history ∧
    process.startedAt ≤ moment ∧ moment < choices.length ∧
      past.store = database.idle.storeAt (Request.program ports) choices moment ∧
        ActiveFor organizationId externalResourceId past.store
  /-- the execution read the membership while the actor was the owner -/
  owner : ∃ moment past, Observation.saw moment past ∈ process.history ∧
    process.startedAt ≤ moment ∧ moment < choices.length ∧
      past.store = database.idle.storeAt (Request.program ports) choices moment ∧
        OwnedBy organizationId actorId past.store
  /-- a connection that was not active at some instant before the start was
  made active by a later commit -/
  reactivated : ∀ instant ≤ process.startedAt,
    ¬ DiscordActive externalResourceId
        (database.idle.storeAt (Request.program ports) choices instant) →
      ∃ moment choice commit, instant ≤ moment ∧ choices[moment]? = some choice ∧
        (database.after ports (choices.take moment)).commit? choice = some commit ∧
          ¬ DiscordActive externalResourceId
              (database.idle.storeAt (Request.program ports) choices moment) ∧
            DiscordActive externalResourceId commit.after

section Facts

variable {ports : Ports} {database : Database} {choices : List ConsoleChoice}
variable {process : ConsoleProcess}

/-- What justifies a call to a platform writer port. -/
theorem Justified.platform_update {request : Request} {history : ConsoleHistory}
    {organizationId actorId : UUID} {externalResourceId : String} {update : PlatformUpdate}
    {correlationId : UUID}
    (hjustified : Justified ports request history
      (.call (.updatePlatform organizationId actorId externalResourceId update
        correlationId))) :
    request.platformUpdate = some (organizationId, actorId) ∧
      MayUpdatePlatform history organizationId actorId externalResourceId := by
  cases hjustified with
  | updatePlatform hrequest hmay => exact ⟨hrequest, hmay⟩
  | call hother => exact absurd rfl (hother _ _ _ _ _)

/-- The read behind a sighting, with its instant. -/
theorem Saw.moment (hprocess : process ∈ (database.after ports choices).processes) {ρ : Type}
    {table : Tables → List ρ} {row : ρ} (hsaw : Saw process.history table row) :
    ∃ moment past, Observation.saw moment past ∈ process.history ∧
      process.startedAt ≤ moment ∧ moment < choices.length ∧
        past.store = database.idle.storeAt (Request.program ports) choices moment ∧
          row ∈ table past.store.tables := by
  obtain ⟨past, hpast, hrow⟩ := hsaw
  obtain ⟨moment, hmem⟩ := exists_saw_of_mem_seen (seen_of_recent hpast)
  obtain ⟨hfrom, hto, hstore⟩ :=
    (saw_storeAt choices process hprocess).2 moment past hmem
  exact ⟨moment, past, hmem, hfrom, hto, hstore, hrow⟩

/-- The Discord rows of a resource: at most one. -/
theorem discord_rows (store : Database) {row : PlatformConnectionRecord}
    {externalResourceId : String} (hrow : row ∈ store.tables.platformConnections)
    (hdiscord : row.isDiscord externalResourceId = true) :
    store.tables.platformConnections.filter
      (PlatformConnectionRecord.isDiscord externalResourceId) = [row] := by
  have hkey : ∀ other : PlatformConnectionRecord, other.isDiscord externalResourceId = true →
      (other.platform, other.externalResourceId) =
        (StrEnum.value Platform.discord, externalResourceId) := by
    intro other hother
    simp only [PlatformConnectionRecord.isDiscord, Bool.and_eq_true, beq_iff_eq] at hother
    rw [hother.1, hother.2]
  apply filter_eq_singleton store.constraints.connectionExternalResource hrow hdiscord
  intro other _ hother
  rw [hkey other hother, hkey row hdiscord]

/-- A connection that was read still belongs to the same organization. -/
theorem SawConnection.kept {Stored : Database → Prop} {world : ConsoleWorld}
    {history : ConsoleHistory}
    (hinformed : (consoleDiscipline ports Stored).Informed world history)
    {row : PlatformConnectionRecord} (hsaw : SawConnection history row) :
    ∃ kept ∈ world.store.tables.platformConnections, SameConnection row kept := by
  obtain ⟨past, hpast, hrow⟩ := hsaw
  exact (recalls_of_informed hinformed past hpast).2.tables.connections row hrow

end Facts

/-- Every call to a platform writer port is about a resource of the acting
organization, which was active and acted for by its owner when it was read. -/
theorem platform_write (ports : Ports) (database : Database) (choices : List ConsoleChoice)
    (choice : ConsoleChoice) {process : ConsoleProcess} {organizationId actorId : UUID}
    {externalResourceId : String} {update : PlatformUpdate} {correlationId : UUID}
    (hcall : (database.after ports choices).call? choice =
      some (process, .updatePlatform organizationId actorId externalResourceId update
        correlationId)) :
    PlatformWrite ports database choices process organizationId actorId
      externalResourceId := by
  have hholds := console_holds ports database choices
  have hprocess := (System.call?_eq_some hcall).1
  have hguard : Justified ports process.request process.history
      (.call (.updatePlatform organizationId actorId externalResourceId update
        correlationId)) := hholds.guard_call hcall
  obtain ⟨hrequest, hmay⟩ := hguard.platform_update
  obtain ⟨ownerRow, hownerSaw, hownerUser, hownerOrganization, hownerRole⟩ := hmay.owner
  obtain ⟨row, hsaw, horganization, hplatform, hexternal, hstatus⟩ := hmay.active
  have hdiscord : row.isDiscord externalResourceId = true := by
    simp [PlatformConnectionRecord.isDiscord, hplatform, hexternal]
  obtain ⟨moment, past, hmem, hfrom, hto, hstore, hrow⟩ := hsaw.moment hprocess
  have hactive : DiscordActive externalResourceId
      (database.idle.storeAt (Request.program ports) choices moment) :=
    hstore ▸ ⟨row, hrow, hdiscord, hstatus⟩
  refine ⟨hrequest, ?_, ?_, ?_, ?_⟩
  · obtain ⟨kept, hkept, hsame⟩ :=
      SawConnection.kept (hholds.informed process hprocess) hsaw
    have hkeptDiscord : kept.isDiscord externalResourceId = true := by
      rw [PlatformConnectionRecord.isDiscord, ← hsame.platform, ← hsame.externalResourceId]
      exact hdiscord
    exact ⟨kept, discord_rows _ hkept hkeptDiscord,
      hsame.organizationId.symm.trans horganization⟩
  · exact ⟨moment, past, hmem, hfrom, hto, hstore, row, hrow, hdiscord, horganization, hstatus⟩
  · obtain ⟨moment', past', hmem', hfrom', hto', hstore', hownerRow⟩ :=
      hownerSaw.moment hprocess
    exact ⟨moment', past', hmem', hfrom', hto', hstore', ownerRow, hownerRow,
      hownerOrganization, hownerUser, hownerRole⟩
  · intro instant hinstant hinactive
    obtain ⟨later, choice, commit, hle, _, hchoice, hcommit, hbefore, hafter⟩ :=
      System.exists_commit_between database.idle choices
        (Nat.le_trans hinstant hfrom) (Nat.le_of_lt hto) hinactive hactive
    exact ⟨later, choice, commit, hle, hchoice, hcommit, hbefore, hafter⟩

namespace Scenario

/-- The owner sets a channel purpose, and the platform is about to be called. -/
def channelPurpose : List ConsoleChoice :=
  [.start (.updatePlatformChannelPurpose ⟨1, 2, 4, .welcome, "channel", 5⟩)] ++ turns 0 10 3

end Scenario

theorem platform_write_channelPurpose :
    ∃ process, PlatformWrite Scenario.ports (Scenario.withConnection .active)
      Scenario.channelPurpose process 2 1 "guild" := by
  have hcalled : ∃ called ∈ ((Scenario.withConnection .active).after Scenario.ports
      Scenario.channelPurpose).call? (.advance 0 (Scenario.reply Scenario.healthy 20)),
      called.2 = .updatePlatform 2 1 "guild" (.channelPurpose .welcome "channel") 5 := by
    decide +kernel
  obtain ⟨⟨process, _⟩, hcall, rfl⟩ := hcalled
  exact ⟨process, platform_write _ _ _ _ hcall⟩

end MuxivoConsole
