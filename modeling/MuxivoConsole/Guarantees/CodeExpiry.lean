/-
When a registration code expires.  The notifier announces an instant that lies one
lifetime after a clock reading, and Redis gives the value one lifetime whenever it is
set; the first is not before the second as long as no value is set again late.
-/
import MuxivoConsole.Guarantees.CodeRotation

namespace MuxivoConsole

open Interleaving Expiring

/-- The announcements of an execution: those that it sent, and the one for which it has
read the clock. -/
def announcementsOf (process : AuthProcess) : List Announcement :=
  process.history.filterMap sentAnnouncement ++
    match process.execution with
    | .call called _ => (AuthCall.announcement called).toList
    | _ => []

def announcements (system : AuthSystem) : List Announcement :=
  system.processes.flatMap announcementsOf

/-- The key and the value of a command that sets a key. -/
def AuthWrite.set? : AuthWrite → Option (String × String)
  | put key value _ => some (key, value)
  | replace key value _ => some (key, value)
  | _ => none

/-- The announcement of the code that a pending value waits for. -/
def Announcement.Of (ports : AuthPorts) (rawToken : String)
    (pending : PendingEmailPasswordRegistration) (announcement : Announcement) : Prop :=
  announcement.registrationId = pending.fields.registrationId ∧
    registrationCodeHash ports rawToken announcement.code = pending.fields.verificationCodeHash

instance (ports : AuthPorts) (rawToken : String) (pending : PendingEmailPasswordRegistration)
    (announcement : Announcement) : Decidable (announcement.Of ports rawToken pending) :=
  inferInstanceAs (Decidable (_ ∧ _))

/-- What the reply says when it is asked for the time. -/
def clockReading (reply : Reply auth) : Instant :=
  reply.answer (.console .now)

section Conditions

variable (ports : AuthPorts) (rawToken : String) (store : AuthStore)

/-- There is one time: who reads the clock gets the time of the Redis server. -/
def OneTime (before : List AuthChoice) (choice : AuthChoice) : Prop :=
  ∀ index reply, choice = .advance index reply →
    ∀ called ∈ (store.after ports before).call? choice, called.2 = .console .now →
      clockReading reply = (store.after ports before).world.store.tokens.now

instance (before : List AuthChoice) : (choice : AuthChoice) →
    Decidable (OneTime ports store before choice)
  | .start _ => isTrue fun _ _ hchoice => nomatch hchoice
  | .advance index reply =>
      decidable_of_iff (∀ called ∈ (store.after ports before).call? (.advance index reply),
        called.2 = .console .now →
          clockReading reply = (store.after ports before).world.store.tokens.now)
        ⟨fun hreading _ _ hchoice => by cases hchoice; exact hreading,
          fun hreading => hreading index reply rfl⟩

/-- The code that the step accepts has not reached an expiry announced with it. -/
def AcceptsInTime (before : List AuthChoice) (choice : AuthChoice) : Prop :=
  ∀ commit ∈ (store.after ports before).commit? choice,
    finishesFlow ports rawToken ((store.after ports before).world.store, commit) = true →
      ∀ command, commit.process.request = .verifyEmailPasswordRegistration command →
        command.token = rawToken → ∀ value pending,
          (store.after ports before).world.store.pendingOf ports rawToken =
              some (value, pending) →
            ∀ announcement ∈ announcements (store.after ports before),
              announcement.registrationId = pending.fields.registrationId →
                announcement.code = command.code →
                  (store.after ports before).world.store.tokens.now < announcement.expiresAt

/-- When the step sets the key of the flow, no expiry announced with the code of the
value comes before one lifetime from then. -/
def SetsInTime (before : List AuthChoice) (choice : AuthChoice) : Prop :=
  ∀ commit ∈ (store.after ports before).commit? choice, ∀ set ∈ commit.write.set?,
    set.1 = registrationKey ports rawToken → ∀ pending ∈ ports.fromJson set.2,
      ∀ announcement ∈ announcements (store.after ports before),
        announcement.Of ports rawToken pending →
          (store.after ports before).world.store.tokens.now + verificationLifetime ≤
            announcement.expiresAt

instance (before : List AuthChoice) (choice : AuthChoice) :
    Decidable (SetsInTime ports rawToken store before choice) :=
  inferInstanceAs (Decidable (∀ commit ∈ (store.after ports before).commit? choice,
    ∀ set ∈ commit.write.set?, set.1 = registrationKey ports rawToken →
      ∀ pending ∈ ports.fromJson set.2,
        ∀ announcement ∈ announcements (store.after ports before),
          announcement.Of ports rawToken pending →
            (store.after ports before).world.store.tokens.now + verificationLifetime ≤
              announcement.expiresAt))

/-- What is held under the key of the flow: it goes within one lifetime, and not after
an expiry announced with its code. -/
structure HeldInTime (system : AuthSystem) : Prop where
  lifetime : ∀ lease, system.world.store.tokens.keys.live system.world.store.tokens.now
      (registrationKey ports rawToken) = some lease →
    lease.expiresAt ≤ system.world.store.tokens.now + verificationLifetime
  announced : ∀ lease, system.world.store.tokens.keys.live system.world.store.tokens.now
      (registrationKey ports rawToken) = some lease →
    ∀ pending, ports.fromJson lease.value = some pending →
      ∀ announcement ∈ announcements system, announcement.Of ports rawToken pending →
        lease.expiresAt ≤ announcement.expiresAt

end Conditions

section Announcing

variable {ports : AuthPorts} {store : AuthStore}

theorem mem_announcementsOf {process : AuthProcess} {announcement : Announcement} :
    announcement ∈ announcementsOf process ↔
      announcement ∈ process.history.filterMap sentAnnouncement ∨
        ∃ called next, process.execution = .call called next ∧
          AuthCall.announcement called = some announcement := by
  unfold announcementsOf
  rw [List.mem_append]
  constructor
  · rintro (hsent | hnext)
    · exact Or.inl hsent
    · split at hnext
      · rename_i called next hnode
        exact Or.inr ⟨called, next, hnode, by simpa using hnext⟩
      · cases hnext
  · rintro (hsent | ⟨called, next, hnode, hcalled⟩)
    · exact Or.inl hsent
    · right
      rw [hnode]
      simp [hcalled]

/-- An announcement after an observation was there before, or is what the observation
is about. -/
theorem announcements_observe {process : AuthProcess} {observation : Observation auth}
    {execution : AuthUseCase AuthOutcome} (hrequest : process.request.OfRegistration)
    (hmeets : execution.Meets (FlowJustified ports process.request) (fun _ _ => True)
      (process.history ++ [observation])) {announcement : Announcement}
    (hmem : announcement ∈ announcementsOf { process with
      history := process.history ++ [observation], execution := execution }) :
    announcement ∈ process.history.filterMap sentAnnouncement ∨
      sentAnnouncement observation = some announcement ∨
        ∃ now : Instant, observation = @Observation.heard auth (.console .now) now ∧
          announcement.expiresAt = now + verificationLifetime := by
  rcases mem_announcementsOf.mp hmem with hsent | ⟨called, next, hnode, hcalled⟩
  · simp only [List.filterMap_append, List.mem_append] at hsent
    rcases hsent with hold | hnew
    · exact Or.inl hold
    · exact Or.inr (Or.inl (by simpa using hnew))
  · dsimp only at hnode
    rw [hnode] at hmeets
    obtain ⟨before, now, hhistory, hexpires⟩ := hmeets.1.announces hrequest hcalled
    have hlast := (List.append_inj' hhistory rfl).2
    exact Or.inr (Or.inr ⟨now, List.singleton_inj.mp hlast, hexpires⟩)

/-- An announcement after a turn was there before, or the turn read the clock for it. -/
theorem announcements_advance {process : AuthProcess} {world : AuthWorld}
    {issued : List UUID} {moment : Nat} {reply : Reply auth}
    {advanced : Advanced auth AuthRequest Failure AuthOutcome}
    (hrequest : process.request.OfRegistration)
    (hmeets : process.execution.Meets (FlowJustified ports process.request) (fun _ _ => True)
      process.history)
    (hadvance : Advances process world issued moment reply advanced)
    {announcement : Announcement}
    (hmem : announcement ∈ announcementsOf advanced.process) :
    announcement ∈ announcementsOf process ∨
      ((∃ next, process.execution = .call (.console .now) next) ∧
        announcement.expiresAt = clockReading reply + verificationLifetime) := by
  have hlater := hmeets.advance hadvance
  cases hadvance with
  | idle => exact Or.inl hmem
  | query hnode | draw hnode hfresh | refuse hnode happly | commit hnode happly =>
      rcases announcements_observe hrequest hlater hmem with hold | hnew | ⟨now, hheard, _⟩
      · exact Or.inl (mem_announcementsOf.mpr (Or.inl hold))
      · cases hnew
      · cases hheard
  | @call asked next hnode =>
      rcases announcements_observe hrequest hlater hmem with
        hold | hnew | ⟨now, hheard, hexpires⟩
      · exact Or.inl (mem_announcementsOf.mpr (Or.inl hold))
      · exact Or.inl (mem_announcementsOf.mpr (Or.inr ⟨asked, next, hnode, hnew⟩))
      · cases hheard
        exact Or.inr ⟨⟨next, hnode⟩, hexpires⟩

/-- The announcements after a step of a run. -/
theorem announcements_step {choices : List AuthChoice} {choice : AuthChoice}
    (hflow : ∀ earlier ∈ choices ++ [choice], earlier.StartsRegistration)
    {announcement : Announcement}
    (hmem : announcement ∈ announcements (store.after ports (choices ++ [choice]))) :
    announcement ∈ announcements (store.after ports choices) ∨
      ∃ index reply process, choice = .advance index reply ∧
        (store.after ports choices).call? choice = some (process, .console .now) ∧
          announcement.expiresAt = clockReading reply + verificationLifetime := by
  have hbefore : ∀ process ∈ (store.after ports choices).processes,
      process.request.OfRegistration := by
    intro process hprocess
    exact hflow (.start process.request)
      (List.mem_append_left _ (request_started choices process hprocess))
  rw [AuthStore.after_snoc] at hmem
  obtain ⟨process, hprocess, hannounced⟩ := List.mem_flatMap.mp hmem
  cases choice with
  | start request =>
      simp only [System.step, List.mem_append, List.mem_singleton] at hprocess
      rcases hprocess with hold | rfl
      · exact Or.inl (List.mem_flatMap.mpr ⟨process, hold, hannounced⟩)
      · -- a new execution has not read the clock
        exfalso
        rcases mem_announcementsOf.mp hannounced with hsent | ⟨called, next, hnode, hcalled⟩
        · cases hsent
        · have hmeets := @AuthRequest.program_flow ports request
          dsimp only at hnode
          rw [hnode] at hmeets
          obtain ⟨before, now, hhistory, _⟩ := hmeets.1.announces
            (hflow (.start request) (List.mem_append_right _ List.mem_cons_self)) hcalled
          simp at hhistory
  | advance index reply =>
      cases hindex : (store.after ports choices).processes[index]? with
      | none =>
          simp only [System.step, hindex] at hprocess
          exact Or.inl (List.mem_flatMap.mpr ⟨process, hprocess, hannounced⟩)
      | some old =>
          have hold := List.mem_of_getElem? hindex
          simp only [System.step, hindex] at hprocess
          rcases List.mem_or_eq_of_mem_set hprocess with hother | rfl
          · exact Or.inl (List.mem_flatMap.mpr ⟨process, hother, hannounced⟩)
          · have hadvance := old.advances (store.after ports choices).world
              (store.after ports choices).issued (store.after ports choices).moment reply
            rcases announcements_advance (hbefore old hold)
              (running_meets hold (AuthRequest.program_flow old.request)) hadvance
                hannounced with hkept | ⟨⟨next, hnode⟩, hexpires⟩
            · exact Or.inl (List.mem_flatMap.mpr ⟨old, hold, hkept⟩)
            · exact Or.inr ⟨index, reply, old, rfl, by simp [System.call?, hindex, hnode],
                hexpires⟩

end Announcing

section Holding

variable {ports : AuthPorts} {rawToken : String} {store : AuthStore}

theorem seconds_verificationLifetime :
    seconds (max 1 verificationLifetimeSeconds) = verificationLifetime := by
  decide

/-- A value that is set is held for the lifetime of a registration. -/
theorem RedisOneTimeTokenStore.live_replace {server : RedisServer} {key value : String}
    {lease : Lease String}
    (hlive : (RedisOneTimeTokenStore.replace server key value
      verificationLifetimeSeconds).1.keys.live server.now key = some lease) :
    lease = ⟨value, server.now + verificationLifetime⟩ := by
  simp only [RedisOneTimeTokenStore.replace, RedisServer.setEx, Keyspace.live_eq_some,
    Keyspace.hold, Function.update_self, Option.some.injEq, seconds_verificationLifetime] at hlive
  exact hlive.1.symm

/-- What is held under a key after a command was held before, or the command set it. -/
theorem FlowJustified.held {request : AuthRequest} {history : AuthHistory} {write : AuthWrite}
    {found after : AuthStore} (hguard : FlowJustified ports request history (.commit write))
    (hrequest : request.OfRegistration) (happly : write.apply found = some after)
    {key : String} {lease : Lease String}
    (hlive : after.tokens.keys.live after.tokens.now key = some lease) :
    found.tokens.keys.live found.tokens.now key = some lease ∨
      ∃ value, write.set? = some (key, value) ∧
        lease = ⟨value, found.tokens.now + verificationLifetime⟩ := by
  have hconsume : ∀ other value, after = { found with
      tokens := (RedisOneTimeTokenStore.consume found.tokens other value).1 } →
        found.tokens.keys.live found.tokens.now key = some lease := by
    intro other value hafter
    subst hafter
    simp only [RedisOneTimeTokenStore.consume, RedisServer.evalConsume] at hlive
    split at hlive
    · by_cases hkey : key = other
      · simp [hkey] at hlive
      · rwa [Keyspace.live_drop_of_ne hkey] at hlive
    · exact hlive
  have hset : ∀ other value, write.set? = some (other, value) → after = { found with
      tokens := (RedisOneTimeTokenStore.replace found.tokens other value
        verificationLifetimeSeconds).1 } →
      found.tokens.keys.live found.tokens.now key = some lease ∨
        ∃ value, write.set? = some (key, value) ∧
          lease = ⟨value, found.tokens.now + verificationLifetime⟩ := by
    intro other value hwrite hafter
    subst hafter
    by_cases hkey : key = other
    · subst hkey
      exact Or.inr ⟨value, hwrite, RedisOneTimeTokenStore.live_replace hlive⟩
    · left
      simpa only [RedisOneTimeTokenStore.replace, RedisServer.setEx,
        Keyspace.live_hold_of_ne hkey] using hlive
  cases hguard with
  | @put _ _ rawToken _ _ pending hstarted =>
      by_cases htaken : (found.tokens.get (registrationKey ports rawToken)).isSome = true
      · cases happly
        left
        simpa only [RedisOneTimeTokenStore.put, RedisServer.setExNx, htaken, ↓reduceIte]
          using hlive
      · refine hset _ _ rfl ?_
        cases happly
        simp only [RedisOneTimeTokenStore.put, RedisServer.setExNx, htaken, ↓reduceIte,
          RedisOneTimeTokenStore.replace, Bool.false_eq_true]
  | rotate | count =>
      cases happly
      exact hset _ _ rfl rfl
  | discardStarted | discardRotated | accept =>
      cases happly
      exact Or.inl (hconsume _ _ rfl)
  | register =>
      simp only [AuthWrite.apply, Option.map_eq_some_iff] at happly
      obtain ⟨database, _, rfl⟩ := happly
      exact Or.inl hlive
  | elapse =>
      cases happly
      left
      simp only [RedisServer.elapse, Keyspace.live_eq_some] at hlive ⊢
      exact ⟨hlive.1, Nat.lt_of_le_of_lt (Nat.le_add_right _ _) hlive.2⟩
  | elsewhere hother => exact absurd hrequest hother

theorem AuthWrite.now_le {write : AuthWrite} {found after : AuthStore}
    (happly : write.apply found = some after) : found.tokens.now ≤ after.tokens.now := by
  cases write with
  | console | account =>
      simp only [apply, Option.map_eq_some_iff] at happly
      obtain ⟨database, _, rfl⟩ := happly
      exact Nat.le_refl _
  | put =>
      cases happly
      simp only [RedisOneTimeTokenStore.put, RedisServer.setExNx]
      split <;> exact Nat.le_refl _
  | replace =>
      cases happly
      exact Nat.le_refl _
  | consume =>
      cases happly
      simp only [RedisOneTimeTokenStore.consume, RedisServer.evalConsume]
      split <;> exact Nat.le_refl _
  | elapse =>
      cases happly
      exact Nat.le_add_right _ _

/-- Step lemma: nothing is set late, so nothing is held late. -/
theorem HeldInTime.step {choices : List AuthChoice} {choice : AuthChoice}
    (hflow : ∀ earlier ∈ choices ++ [choice], earlier.StartsRegistration)
    (htime : OneTime ports store choices choice)
    (hsets : SetsInTime ports rawToken store choices choice)
    (hheld : HeldInTime ports rawToken (store.after ports choices)) :
    HeldInTime ports rawToken (store.after ports (choices ++ [choice])) := by
  cases hcommit : (store.after ports choices).commit? choice with
  | none =>
      have hstore : (store.after ports (choices ++ [choice])).world.store =
          (store.after ports choices).world.store := by
        rw [AuthStore.after_snoc, System.step_store_of_no_commit hcommit]
      constructor
      · rw [hstore]
        exact hheld.lifetime
      · rw [hstore]
        intro lease hlease pending hpending announcement hmem hof
        rcases announcements_step hflow hmem with
          hold | ⟨index, reply, process, rfl, hcall, hexpires⟩
        · exact hheld.announced lease hlease pending hpending announcement hold hof
        · rw [hexpires, htime index reply rfl _ hcall rfl]
          exact hheld.lifetime lease hlease
  | some commit =>
      have hstore : (store.after ports (choices ++ [choice])).world.store = commit.after := by
        rw [AuthStore.after_snoc, System.step_store_of_commit hcommit]
      obtain ⟨hprocess, _, happly⟩ := System.commit?_eq_some hcommit
      have hrequest : commit.process.request.OfRegistration :=
        hflow (.start commit.process.request)
          (List.mem_append_left _ (request_started choices commit.process hprocess))
      have hguard := flow_guard_commit hcommit
      have hnow := AuthWrite.now_le happly
      constructor
      · rw [hstore]
        intro lease hlease
        rcases hguard.held hrequest happly hlease with hfound | ⟨value, _, rfl⟩
        · exact Nat.le_trans (hheld.lifetime lease hfound) (Nat.add_le_add_right hnow _)
        · exact Nat.add_le_add_right hnow _
      · rw [hstore]
        intro lease hlease pending hpending announcement hmem hof
        have hold : announcement ∈ announcements (store.after ports choices) := by
          rcases announcements_step hflow hmem with hold | ⟨_, _, _, _, hcall, _⟩
          · exact hold
          · rw [System.commit?_of_call hcall] at hcommit
            cases hcommit
        rcases hguard.held hrequest happly hlease with hfound | ⟨value, hset, rfl⟩
        · exact hheld.announced lease hfound pending hpending announcement hold hof
        · exact hsets commit hcommit _ hset rfl pending hpending announcement hold hof

/-- Run lemma. -/
theorem heldInTime_after {choices : List AuthChoice}
    (hflow : ∀ choice ∈ choices, choice.StartsRegistration)
    (htime : System.EveryStep (OneTime ports store) choices)
    (hsets : System.EveryStep (SetsInTime ports rawToken store) choices)
    (hlifetime : ∀ lease ∈ store.tokens.keys.live store.tokens.now
      (registrationKey ports rawToken),
        lease.expiresAt ≤ store.tokens.now + verificationLifetime) :
    HeldInTime ports rawToken (store.after ports choices) := by
  induction choices using List.reverseRecOn with
  | nil =>
      refine ⟨hlifetime, ?_⟩
      intro lease _ pending _ announcement hmem
      cases hmem
  | append_singleton choices choice ih =>
      have hbefore := ih (fun choice hmem => hflow choice (List.mem_append_left _ hmem))
        htime.first hsets.first
      exact hbefore.step hflow (htime choices choice [] rfl) (hsets choices choice [] rfl)

/-- A verification that consumes the value of its flow read that value with its code. -/
theorem consumed_code {choices : List AuthChoice} {choice : AuthChoice} {commit : AuthCommit}
    (hcommit : (store.after ports choices).commit? choice = some commit)
    (hfinishes : finishesFlow ports rawToken ((store.after ports choices).world.store, commit) =
      true) {command : VerifyEmailPasswordRegistrationCommand}
    (hrequest : commit.process.request = .verifyEmailPasswordRegistration command)
    {value : String} {pending : PendingEmailPasswordRegistration}
    (hpending : (store.after ports choices).world.store.pendingOf ports rawToken =
      some (value, pending)) :
    registrationCodeHash ports command.token command.code =
      pending.fields.verificationCodeHash := by
  have hguard := flow_guard_commit hcommit
  rw [hrequest] at hguard
  obtain ⟨process, write, after⟩ := commit
  dsimp only at hguard hfinishes
  generalize process.history = history at hguard
  cases hguard with
  | accept hright =>
      obtain ⟨⟨moment, past, _, hread⟩, hcode⟩ := hright
      have hshown := (AuthStore.pendingOf_eq_some.mp hread).2.2
      obtain ⟨hget, _, hdecoded⟩ := AuthStore.pendingOf_eq_some.mp hpending
      simp only [finishesFlow, Bool.and_eq_true, beq_iff_eq] at hfinishes
      obtain ⟨hkey, hvalue⟩ := hfinishes
      rw [hkey, hget, Option.some.injEq] at hvalue
      rw [← hvalue, hdecoded, Option.some.injEq] at hshown
      rw [hcode, hshown]
  | count | register => cases hfinishes
  | elsewhere hother => exact absurd trivial hother

end Holding

namespace Scenario

/-- A code is sent, a wrong one is submitted after 800 seconds, and the right one is about
to be after 1000. -/
def wrongThenLate : List AuthChoice :=
  resent 0 10 7 ++ [.start (.elapse 800000000)] ++ authTurns 1 20 1 800000000 ++
    submission 2 30 4 "000000" ++ [.start (.elapse 200000000)] ++
      authTurns 3 40 1 1000000000 ++ submission 4 50 3 "654321"

end Scenario

end MuxivoConsole
