/-
When the health of a platform is refused for lack of a connection.
-/
import MuxivoConsole.Guarantees.Alone

namespace MuxivoConsole

open Interleaving Paging Relational

/-- `GetPlatformHealth` reads under this permission. -/
def readsControlModules (actorId organizationId : UUID) : AuthorizationRequest where
  actorId := actorId
  organizationId := organizationId
  resource := .controlModules
  action := .read

/-- The request is refused before any health reader is asked: there is no usable
connection. -/
def RefusedForLack (hasReader : Platform → Bool) (actorId organizationId : UUID)
    (platform : Platform) (correlationId : UUID) (database : Database) : Prop :=
  (HealthUseCase.getPlatformHealth hasReader actorId organizationId platform
    correlationId).Runs database []
      (.error ⟨.platformHealthUnavailable, "No usable platform connection exists."⟩) database

/-- One of the rows is a well-formed connection of the platform in a usable state. -/
def Usable (platform : Platform) (rows : List PlatformConnectionRecord) : Prop :=
  ∃ row ∈ rows, ∃ connection, connectionFromRecord row = some connection ∧
    HealthUseCase.usable platform connection = true

section Gate

variable {hasReader : Platform → Bool} {actorId organizationId : UUID} {platform : Platform}
variable {correlationId : UUID} {database : Database}

theorem runs_embed_authorize_bind {α : Type} {request : AuthorizationRequest}
    {continuation : AuthorizationDecision → HealthUseCase α} {inputs : List (Input monitoring)}
    {outcome : Except Failure α} {store : Database} :
    ((UseCase.authorize request).embed consoleInMonitoring >>= continuation).Runs database
        inputs outcome store ↔
      (continuation ⟨database.permits request⟩).Runs database inputs outcome store := by
  change (Execution.bind (Execution.embed _ (Execution.bind (Execution.bind _ _) _)) _).Runs
    _ _ _ _ ↔ _
  unfold Database.permits Database.membership
  cases hrow : database.membershipRow request.actorId request.organizationId with
  | none =>
      simp only [Execution.select, Execution.bind, Execution.embed, Execution.Runs,
        consoleInMonitoring, id, hrow]
      exact Iff.rfl
  | some row =>
      simp only [Execution.select, Execution.bind, Execution.embed, Execution.Runs,
        consoleInMonitoring, id, hrow]
      change (Execution.bind (Execution.embed consoleInMonitoring (Execution.bind (Execution.done
        (.ok (membershipFromRecord row (database.membershipScopes row.id)))) _))
          continuation).Runs _ _ _ _ ↔ _
      rw [Option.bind_some]
      cases hread : membershipFromRecord row (database.membershipScopes row.id) with
      | none => exact Iff.rfl
      | some membership => exact Iff.rfl

/-- What the reader hands over are the connections among the first hundred rows. -/
theorem any_usable_iff : (database.connectionsForOrganization organizationId none 100).any
      (HealthUseCase.usable platform) = true ↔
    Usable platform ((ordered PlatformConnectionRecord.id
      (database.connectionRows organizationId)).take 100) := by
  unfold Database.connectionsForOrganization
  dsimp only
  rw [window_none, List.any_eq_true]
  constructor
  · rintro ⟨connection, hconnection, husable⟩
    obtain ⟨row, hrow, hread⟩ := List.mem_filterMap.mp hconnection
    exact ⟨row, hrow, connection, hread, husable⟩
  · rintro ⟨row, hrow, connection, hread, husable⟩
    exact ⟨connection, List.mem_filterMap.mpr ⟨row, hrow, hread⟩, husable⟩

theorem refusedForLack_iff
    (hpermits : database.permits (readsControlModules actorId organizationId) = true)
    (hreader : hasReader platform = true) :
    RefusedForLack hasReader actorId organizationId platform correlationId database ↔
      ¬ Usable platform ((ordered PlatformConnectionRecord.id
        (database.connectionRows organizationId)).take 100) := by
  have hallowed : database.permits ⟨actorId, organizationId, .controlModules, .read⟩ = true :=
    hpermits
  unfold RefusedForLack HealthUseCase.getPlatformHealth
  rw [runs_embed_authorize_bind, ← any_usable_iff, hallowed]
  simp only [Bool.not_true, Bool.false_eq_true, ↓reduceIte, Execution.runs_select_bind]
  cases (database.connectionsForOrganization organizationId none 100).any
      (HealthUseCase.usable platform) with
  | false => simp
  | true =>
      simp only [hreader, Bool.not_true, Bool.false_eq_true, ↓reduceIte, not_true_eq_false,
        iff_false]
      rintro ⟨answer, rest, hinputs, _⟩
      cases hinputs

/-- An authorized actor is refused for lack of a connection of a platform with a health
reader exactly if the organization has no usable one, provided that, if it has one, it has
one among its first hundred rows. -/
theorem health_refused_iff (hasReader : Platform → Bool) (actorId organizationId : UUID)
    (platform : Platform) (correlationId : UUID) (database : Database)
    (hpermits : database.permits (readsControlModules actorId organizationId) = true)
    (hreader : hasReader platform = true) :
    (RefusedForLack hasReader actorId organizationId platform correlationId database ↔
        ¬ Usable platform (database.connectionRows organizationId)) ↔
      (Usable platform (database.connectionRows organizationId) →
        Usable platform ((ordered PlatformConnectionRecord.id
          (database.connectionRows organizationId)).take 100)) := by
  have hfirst : Usable platform ((ordered PlatformConnectionRecord.id
        (database.connectionRows organizationId)).take 100) →
      Usable platform (database.connectionRows organizationId) := by
    rintro ⟨row, hrow, hconnection⟩
    exact ⟨row, mem_ordered.mp (List.mem_of_mem_take hrow), hconnection⟩
  rw [refusedForLack_iff hpermits hreader]
  constructor
  · intro hgate husable
    by_contra hnone
    exact hgate.mp hnone husable
  · intro hcondition
    exact ⟨fun hnone husable => hnone (hcondition husable), fun hnone husable =>
      hnone (hfirst husable)⟩

end Gate

theorem health_refused_single :
    (RefusedForLack (fun _ => true) 1 2 .twitch 5 (Scenario.withConnection .active) ↔
        ¬ Usable .twitch ((Scenario.withConnection .active).connectionRows 2)) ↔
      (Usable .twitch ((Scenario.withConnection .active).connectionRows 2) →
        Usable .twitch ((ordered PlatformConnectionRecord.id
          ((Scenario.withConnection .active).connectionRows 2)).take 100)) :=
  health_refused_iff (fun _ => true) 1 2 .twitch 5 (Scenario.withConnection .active)
    (by decide) rfl

namespace Scenario

/-- A guild of the organization of `withConnection`. -/
def guild (number : Nat) : PlatformConnectionRecord where
  id := ⟨BitVec.ofNat 128 (number + 10)⟩
  organizationId := 2
  platform := "discord"
  externalResourceId := String.ofList (List.replicate (number + 1) 'g')
  status := .active
  statusReason := none
  grantedCapabilities := none

/-- A Twitch channel of the organization. -/
def channel : PlatformConnectionRecord :=
  ⟨200, 2, "twitch", "channel", .active, none, none⟩

/-- A hundred guilds, and a channel after them. -/
def crowd : List PlatformConnectionRecord :=
  (List.range 100).map guild ++ [channel]

theorem crowd_external :
    UniqueOn (fun row : PlatformConnectionRecord => (row.platform, row.externalResourceId))
      crowd := by
  have hguilds : UniqueOn (fun row : PlatformConnectionRecord =>
      (row.platform, row.externalResourceId)) ((List.range 100).map guild) := by
    unfold UniqueOn
    rw [List.map_map]
    refine List.Nodup.map ?_ List.nodup_range
    intro first second heq
    have hname := congrArg (fun key => key.2.toList.length) heq
    simpa [guild] using hname
  refine uniqueOn_snoc.mpr ⟨hguilds, ?_⟩
  intro row hrow heq
  obtain ⟨number, _, rfl⟩ := List.mem_map.mp hrow
  have hplatform : "discord" = "twitch" := congrArg Prod.fst heq
  exact absurd hplatform (by decide)

def crowded : Database where
  tables := { (withConnection .active).tables with platformConnections := crowd }
  constraints := { (withConnection .active).constraints with
    connectionId := by decide +kernel
    connectionExternalResource := crowd_external
    connectionOrganization := by
      intro row hrow
      rcases List.mem_append.mp hrow with hguild | hchannel
      · obtain ⟨number, _, rfl⟩ := List.mem_map.mp hguild
        exact List.mem_cons_self
      · rw [List.mem_singleton.mp hchannel]
        exact List.mem_cons_self
    lifecycleConnection := by
      intro row hrow
      cases hrow }

theorem ordered_crowd : (ordered PlatformConnectionRecord.id crowd).take 100 =
    (List.range 100).map guild := by
  have hsorted : crowd.Pairwise fun first second => first.id ≤ second.id := by
    have hids : (crowd.map (·.id.int.toNat)).Pairwise (· ≤ ·) := by decide +kernel
    exact (List.pairwise_map.mp hids).imp fun hle => hle
  rw [ordered, hsorted.insertionSort_eq]
  rfl

end Scenario

/-- A hundred connections to other platforms come before the one that can be used. -/
theorem health_refused_crowded :
    ¬ (RefusedForLack (fun _ => true) 1 2 .twitch 5 Scenario.crowded ↔
      ¬ Usable .twitch (Scenario.crowded.connectionRows 2)) := by
  have hrows : Scenario.crowded.connectionRows 2 = Scenario.crowd := by
    refine List.filter_eq_self.mpr ?_
    intro row hrow
    rcases List.mem_append.mp hrow with hguild | hchannel
    · obtain ⟨number, _, rfl⟩ := List.mem_map.mp hguild
      rfl
    · rw [List.mem_singleton.mp hchannel]
      rfl
  have husable : Usable .twitch Scenario.crowd :=
    ⟨Scenario.channel, List.mem_append_right _ List.mem_cons_self, ⟨⟨200, 2, .twitch, "channel",
      .active, none, []⟩, by decide⟩, by decide, by decide⟩
  rw [refusedForLack_iff (by decide) rfl, hrows, Scenario.ordered_crowd]
  intro hgate
  refine hgate.mp ?_ husable
  rintro ⟨row, hrow, connection, hread, hconnection⟩
  obtain ⟨number, _, rfl⟩ := List.mem_map.mp hrow
  have hplatform : StrEnum.value connection.fields.platform = "discord" :=
    (connectionFromRecord_eq_some hread).2.2.1
  have htwitch : connection.fields.platform = .twitch := by
    have hboth := hconnection
    simp only [HealthUseCase.usable, Bool.and_eq_true, beq_iff_eq] at hboth
    exact hboth.1
  rw [htwitch] at hplatform
  exact absurd hplatform (by decide)

end MuxivoConsole
