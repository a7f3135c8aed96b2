/-
The connections of an organization, page by page.  The reader takes one row more than the
page holds and then drops what it cannot decode, so a malformed row can make a page look
like the last one.
-/
import MuxivoConsole.Guarantees.Alone

namespace MuxivoConsole

open Interleaving Paging

/-- `ListPlatformConnections` for the connections of an organization -/
def readsConnections (actorId organizationId : UUID) : AuthorizationRequest where
  actorId := actorId
  organizationId := organizationId
  resource := .platformConnections
  action := .read

/-- Request `number` for the connections, with its limit, is answered with the page. -/
def ConnectionsAnswered (actorId organizationId : UUID) (database : Database)
    (limits : Nat → Int) (number : Nat) (cursor : Option UUID)
    (page : Page PlatformConnection UUID) : Prop :=
  ∃ inputs, (UseCase.listPlatformConnections actorId organizationId cursor
    (limits number)).Runs database inputs (.ok page) database

/-- Every well-formed connection of the organization once, by identifier. -/
def Database.wellFormedConnections (database : Database) (organizationId : UUID) :
    List PlatformConnection :=
  (ordered PlatformConnectionRecord.id (database.connectionRows organizationId)).filterMap
    connectionFromRecord

section Pages

variable {actorId organizationId : UUID} {database : Database} {limits : Nat → Int}

theorem connectionsAnswered_iff {number : Nat} {cursor : Option UUID}
    {page : Page PlatformConnection UUID} :
    ConnectionsAnswered actorId organizationId database limits number cursor page ↔
      (1 ≤ limits number ∧ limits number ≤ 100) ∧
        database.permits (readsConnections actorId organizationId) = true ∧
          page = cut (·.fields.id) (database.connectionsForOrganization organizationId cursor
            (limits number + 1).toNat) (limits number).toNat := by
  unfold ConnectionsAnswered UseCase.listPlatformConnections
  by_cases hlimit : 1 ≤ limits number ∧ limits number ≤ 100
  · simp only [hlimit, and_self, not_true_eq_false, ↓reduceIte, true_and, runs_authorize_bind]
    change (∃ inputs, Execution.Runs (if (!database.permits
      (readsConnections actorId organizationId)) = true then _ else _) _ _ _ _) ↔ _
    cases database.permits (readsConnections actorId organizationId) <;> simp
  · simp [hlimit]

/-- Every answer is cut from the rows beyond the cursor that can be decoded. -/
theorem ConnectionsAnswered.cut {number : Nat} {cursor : Option UUID}
    {page : Page PlatformConnection UUID}
    (hanswered : ConnectionsAnswered actorId organizationId database limits number cursor
      page) :
    page = Paging.cut (·.fields.id) ((window PlatformConnectionRecord.id
      (database.connectionRows organizationId) cursor
        ((limits number).toNat + 1)).filterMap connectionFromRecord) (limits number).toNat := by
  obtain ⟨hlimit, _, hpage⟩ := connectionsAnswered_iff.mp hanswered
  have hcount : (limits number + 1).toNat = (limits number).toNat + 1 := by omega
  rwa [hcount] at hpage

/-- The cursor after a page lies beyond the one before it. -/
theorem ConnectionsAnswered.forward {number : Nat} {cursor : Option UUID}
    {page : Page PlatformConnection UUID}
    (hanswered : ConnectionsAnswered actorId organizationId database limits number cursor page)
    {next : UUID} (hnext : page.nextCursor = some next) : ∀ last ∈ cursor, last < next := by
  rw [hanswered.cut] at hnext
  obtain ⟨_, items, connection, htake, rfl⟩ := cut_nextCursor hnext
  have hfound : connection ∈ (window PlatformConnectionRecord.id
      (database.connectionRows organizationId) cursor
        ((limits number).toNat + 1)).filterMap connectionFromRecord :=
    List.mem_of_mem_take (htake ▸ List.mem_append_right items List.mem_cons_self)
  obtain ⟨row, hrow, hread⟩ := List.mem_filterMap.mp hfound
  rw [window_eq (database.connectionRows_unique organizationId)] at hrow
  have hbeyond := (List.mem_filter.mp (List.mem_of_mem_take hrow)).2
  rw [(connectionFromRecord_eq_some hread).1]
  exact beyond_eq_true.mp hbeyond

/-- Following the cursor of the listing to its end lists every well-formed connection of the
organization once and in order exactly if, whenever the window of a page holds a malformed
row, no well-formed connection lies behind it. -/
theorem connection_walk_complete_iff (actorId organizationId : UUID) (database : Database)
    (limits : Nat → Int) (hlimits : ∀ number, 1 ≤ limits number ∧ limits number ≤ 100)
    (hpermits : database.permits (readsConnections actorId organizationId) = true) :
    (∃ pages, Walk (ConnectionsAnswered actorId organizationId database limits) 0 none
        pages) ∧
      ∀ pages, Walk (ConnectionsAnswered actorId organizationId database limits) 0 none
          pages →
        (listed pages = database.wellFormedConnections organizationId ↔
          SkipsNothing PlatformConnectionRecord.id connectionFromRecord
            (database.connectionRows organizationId) fun number => (limits number).toNat) := by
  constructor
  · refine Walk.exists ?_ ?_ 0 none
    · intro number cursor
      exact ⟨_, connectionsAnswered_iff.mpr ⟨hlimits number, hpermits, rfl⟩⟩
    · intro number cursor page next hanswered hnext
      exact hanswered.forward hnext
  · intro pages hwalk
    have hpositive : ∀ number, 0 < (limits number).toNat := by
      intro number
      have hlimit := (hlimits number).1
      omega
    have hskips := Walk.skips (database.connectionRows_unique organizationId)
      (fun row connection hread => (connectionFromRecord_eq_some hread).1) hpositive
      (fun number cursor page hanswered => hanswered.cut) hwalk (by simp [place])
    have hwhole : ((ordered PlatformConnectionRecord.id
        (database.connectionRows organizationId)).drop
          (place (fun number => (limits number).toNat) 0)).filterMap connectionFromRecord =
        database.wellFormedConnections organizationId := rfl
    rw [hwhole] at hskips
    rw [hskips]
    constructor
    · exact fun hall number => hall number (Nat.zero_le _)
    · exact fun hall number _ => hall number

end Pages

namespace Scenario

/-- Three connections of the organization; the platform of the first is unknown. -/
def withMalformed : Database where
  tables := { (withConnection .active).tables with
    platformConnections :=
      [⟨4, 2, "myspace", "profile", .active, none, none⟩,
        ⟨5, 2, "discord", "guild", .active, none, none⟩,
        ⟨6, 2, "twitch", "channel", .active, none, none⟩] }
  constraints := by decide

end Scenario

theorem connection_walk_complete_single :
    (∃ pages, Walk (ConnectionsAnswered 1 2 (Scenario.withConnection .active) fun _ => 1) 0
        none pages) ∧
      ∀ pages, Walk (ConnectionsAnswered 1 2 (Scenario.withConnection .active) fun _ => 1) 0
          none pages →
        listed pages = (Scenario.withConnection .active).wellFormedConnections 2 := by
  have hcomplete := connection_walk_complete_iff 1 2 (Scenario.withConnection .active)
    (fun _ => 1) (fun _ => by decide) (by decide)
  refine ⟨hcomplete.1, ?_⟩
  intro pages hwalk
  refine (hcomplete.2 pages hwalk).mpr ?_
  have hread : ∀ row ∈ (Scenario.withConnection .active).connectionRows 2,
      (connectionFromRecord row).isSome = true := by decide
  rintro number ⟨row, hrow, hnone⟩
  have hsome := hread row (mem_ordered.mp (List.mem_of_mem_drop (List.mem_of_mem_take hrow)))
  rw [hnone] at hsome
  cases hsome

/-- Pages of one row: the first page reads the malformed row and the connection 5, drops the
one, and takes the other for the last; the connection 6 is never listed. -/
theorem connection_walk_loses :
    ¬ ∀ pages, Walk (ConnectionsAnswered 1 2 Scenario.withMalformed fun _ => 1) 0 none pages →
      listed pages = Scenario.withMalformed.wellFormedConnections 2 := by
  intro hcomplete
  have hwalk : Walk (ConnectionsAnswered 1 2 Scenario.withMalformed fun _ => 1) 0 none
      [cut (·.fields.id) (Scenario.withMalformed.connectionsForOrganization 2 none 2) 1] :=
    Walk.last (connectionsAnswered_iff.mpr ⟨by decide, by decide, rfl⟩) (by decide)
  have hlost := congrArg List.length (hcomplete _ hwalk)
  revert hlost
  decide

end MuxivoConsole
