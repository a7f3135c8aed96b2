/-
What a state of the OAuth flows is good for: one exchange of a code, with the provider it was issued
for and before it expires; and the purpose and the user it was issued for.
-/
import MuxivoConsole.Guarantees.LinkCompletion
import MuxivoConsole.Guarantees.OAuthFlows
import MuxivoConsole.Guarantees.ProvenAccounts

namespace MuxivoConsole

open Interleaving Relational

/-- The process in a place has issued a state. -/
def IssuedAt (system : OAuthSystem) (index : Nat) (purpose : OAuthPurpose) (owner : purpose.Owner)
    (provider : LoginIdentityProvider) (state : String) (expiresAt : Instant) : Prop :=
  ∃ process, system.processes[index]? = some process ∧
    Issued process.request process.history purpose owner provider state expiresAt

/-- No two processes issue one state. -/
def StatesApart (system : OAuthSystem) : Prop :=
  ∀ i j purpose owner provider state expiresAt purpose' owner' provider' expiresAt',
    IssuedAt system i purpose owner provider state expiresAt →
      IssuedAt system j purpose' owner' provider' state expiresAt' → i = j

/-- The choice lets a callback with the state ask the client of a provider to exchange a code. -/
def Exchanges (system : OAuthSystem) (choice : OAuthChoice) (process : OAuthProcess)
    (client : LoginIdentityProvider) (state : String) : Prop :=
  ∃ request provider code exchanged verifier,
    process.request = .callback request provider state code ∧
      system.call? choice = some (process, .resolveSubject client exchanged verifier)

section Grounds

variable {ports : OAuthPorts} {request : OAuthRequest} {trace : OAuthTrace}

theorem OAuthJustified.opened {purpose : OAuthPurpose}
    {row : OAuthTransactionRecord purpose.Owner} {auditEvent : AuditEvent}
    (hjustified : OAuthJustified ports request trace (.commit (.create purpose row auditEvent))) :
    Opened ports request (trace.map Event.observation) purpose row := by
  cases hjustified with
  | start hopened => exact hopened

theorem OAuthJustified.exchanged {client : LoginIdentityProvider} {code verifier : String}
    (hjustified : OAuthJustified ports request trace
      (.call (.resolveSubject client code verifier))) :
    ∃ sender state before purpose moment consumedAt row,
      request = .callback sender client state code ∧ row.provider = StrEnum.value client ∧
        trace = before ++ [.heard (.auth (.console .now)) consumedAt,
          Claim ports purpose state moment consumedAt row] := by
  cases hjustified with
  | call hclient => cases hclient
  | exchange hprovider => exact ⟨_, _, _, _, _, _, _, rfl, hprovider, rfl⟩

theorem OAuthJustified.signedIn {sender : HttpRequest} {provider : LoginIdentityProvider}
    {state code : String} {session : AuthSessionRecord} {auditEvent : AuditEvent}
    (hjustified : OAuthJustified ports (.callback sender provider state code) trace
      (.commit (.auth (.account (.createSession session auditEvent))))) :
    ∃ row, Claimed ports .login state row trace := by
  cases hjustified with
  | signIn hclaimed => exact ⟨_, hclaimed⟩

theorem OAuthJustified.linked {sender : HttpRequest} {provider : LoginIdentityProvider}
    {state code : String} {identity : LoginIdentityRecord} {auditEvent : AuditEvent}
    (hjustified : OAuthJustified ports (.callback sender provider state code) trace
      (.commit (.auth (.account (.link identity auditEvent))))) :
    ∃ row, Claimed ports .link state row trace ∧ identity.userId = row.owner ∧
      identity.provider = row.provider := by
  cases hjustified with
  | link hclaimed huser hprovider => exact ⟨_, hclaimed, huser, hprovider⟩

end Grounds

section Rows

variable {ports : OAuthPorts} {purpose : OAuthPurpose} {stateHash : String}
  {store after : OAuthStore} {write : OAuthWrite}

/-- A row of the hash has been claimed. -/
def Spent (purpose : OAuthPurpose) (stateHash : String) (store : OAuthStore) : Prop :=
  ∃ row ∈ store.transactions purpose, row.stateHash = stateHash ∧ row.consumedAt ≠ none

/-- Where the rows of a store come from. -/
theorem rows_of_apply (happly : write.apply store = some after)
    {row : OAuthTransactionRecord purpose.Owner} (hrow : row ∈ after.transactions purpose) :
    (∃ old ∈ store.transactions purpose, row = old ∨ ∃ now, row = old.consumed now) ∨
      ∃ auditEvent, write = .create purpose row auditEvent := by
  cases write with
  | auth write =>
      obtain ⟨accounts, _, hcommit⟩ := Option.bind_eq_some_iff.mp happly
      rw [(OAuthStore.commit_eq_some hcommit).2] at hrow
      exact Or.inl ⟨row, hrow, Or.inl rfl⟩
  | create created transaction auditEvent =>
      obtain ⟨database, _, hcommit⟩ := Option.bind_eq_some_iff.mp happly
      rw [(OAuthStore.commit_eq_some hcommit).2] at hrow
      by_cases hsame : purpose = created
      · subst hsame
        rw [Function.update_self, List.mem_append, List.mem_singleton] at hrow
        rcases hrow with hold | rfl
        · exact Or.inl ⟨row, hold, Or.inl rfl⟩
        · exact Or.inr ⟨auditEvent, rfl⟩
      · rw [Function.update_of_ne hsame] at hrow
        exact Or.inl ⟨row, hrow, Or.inl rfl⟩
  | consume claimed hash consumedAt =>
      rw [(OAuthStore.commit_eq_some happly).2] at hrow
      by_cases hsame : purpose = claimed
      · subst hsame
        rw [Function.update_self] at hrow
        rcases mem_update.mp hrow with ⟨hold, _⟩ | ⟨old, hold, _, rfl⟩
        · exact Or.inl ⟨row, hold, Or.inl rfl⟩
        · exact Or.inl ⟨old, hold, Or.inr ⟨consumedAt, rfl⟩⟩
      · rw [Function.update_of_ne hsame] at hrow
        exact Or.inl ⟨row, hrow, Or.inl rfl⟩

/-- A claimed row stays claimed. -/
theorem Spent.kept (hspent : Spent purpose stateHash store)
    (happly : write.apply store = some after) : Spent purpose stateHash after := by
  obtain ⟨row, hrow, hhash, hconsumed⟩ := hspent
  refine ⟨row, ?_, hhash, hconsumed⟩
  cases write with
  | auth write =>
      obtain ⟨accounts, _, hcommit⟩ := Option.bind_eq_some_iff.mp happly
      rw [(OAuthStore.commit_eq_some hcommit).2]
      exact hrow
  | create created transaction auditEvent =>
      obtain ⟨database, _, hcommit⟩ := Option.bind_eq_some_iff.mp happly
      rw [(OAuthStore.commit_eq_some hcommit).2]
      by_cases hsame : purpose = created
      · subst hsame
        rw [Function.update_self]
        exact List.mem_append_left _ hrow
      · rw [Function.update_of_ne hsame]
        exact hrow
  | consume claimed hash consumedAt =>
      rw [(OAuthStore.commit_eq_some happly).2]
      by_cases hsame : purpose = claimed
      · subst hsame
        rw [Function.update_self]
        refine mem_update.mpr (Or.inl ⟨hrow, ?_⟩)
        simp [OAuthTransactionRecord.openFor, hconsumed]
      · rw [Function.update_of_ne hsame]
        exact hrow

/-- A claim finds its row open and leaves it claimed. -/
theorem claim_spends {consumedAt : Instant} {row : OAuthTransactionRecord purpose.Owner}
    (happly : (OAuthWrite.consume purpose stateHash consumedAt).apply store = some after)
    (hreceipt : some row = (OAuthWrite.consume purpose stateHash consumedAt).receipt store) :
    ¬ Spent purpose stateHash store ∧ Spent purpose stateHash after ∧
      ∃ old ∈ store.transactions purpose, row = old.consumed consumedAt ∧
        old.stateHash = stateHash ∧ consumedAt < old.expiresAt := by
  obtain ⟨old, hfound, rfl⟩ := Option.map_eq_some_iff.mp hreceipt.symm
  have hold := List.mem_of_find?_eq_some hfound
  have hopen := List.find?_some hfound
  simp only [OAuthTransactionRecord.openFor, Bool.and_eq_true, beq_iff_eq,
    Option.isNone_iff_eq_none, decide_eq_true_eq] at hopen
  obtain ⟨⟨hhash, hnone⟩, hearly⟩ := hopen
  refine ⟨?_, ?_, old, hold, rfl, hhash, hearly⟩
  · rintro ⟨other, hother, hotherHash, hconsumed⟩
    have hsame := (store.constraints.stateHash purpose).eq hother hold
      (hotherHash.trans hhash.symm)
    exact hconsumed (hsame ▸ hnone)
  · refine ⟨old.consumed consumedAt, ?_, hhash, Option.some_ne_none _⟩
    rw [(OAuthStore.commit_eq_some happly).2, Function.update_self]
    refine mem_update.mpr (Or.inr ⟨old, hold, ?_, rfl⟩)
    simp [OAuthTransactionRecord.openFor, hhash, hnone, hearly]

end Rows

section Runs

variable {ports : OAuthPorts} {accounts : AuthStore} {purpose : OAuthPurpose}
  {owner : purpose.Owner} {provider : LoginIdentityProvider} {state : String}
  {expiresAt : Instant}

theorem Issued.purpose_eq {request : OAuthRequest} {history : OAuthHistory}
    {other : OAuthPurpose} {owner' : other.Owner} {provider' : LoginIdentityProvider}
    {state' : String} {expiresAt' : Instant}
    (hissued : Issued request history purpose owner provider state expiresAt)
    (hother : Issued request history other owner' provider' state' expiresAt') :
    purpose = other := by
  cases hissued with
  | link => cases hother; rfl
  | login => cases hother; rfl

theorem IssuedAt.later {system : OAuthSystem} {index : Nat}
    (hissued : IssuedAt system index purpose owner provider state expiresAt)
    (choices : List OAuthChoice) :
    IssuedAt (system.run (OAuthRequest.program ports) choices) index purpose owner provider state
      expiresAt := by
  obtain ⟨process, hprocess, hstate⟩ := hissued
  obtain ⟨later, hlater, hrequest, hgrown⟩ := System.process_grows hprocess choices
  exact ⟨later, hlater, hrequest ▸ hstate.mono hgrown⟩

/-- Run rule: the rows are those of states that somebody issued. -/
theorem rows_issued (choices : List OAuthChoice) :
    ∀ purpose, ∀ row ∈ ((OAuthStore.beforeOAuth accounts).after ports
        choices).world.store.transactions purpose,
      ∃ index provider state,
        IssuedAt ((OAuthStore.beforeOAuth accounts).after ports choices) index purpose row.owner
          provider state row.expiresAt ∧
        row.provider = StrEnum.value provider ∧ row.stateHash = ports.hashToken state := by
  induction choices using List.reverseRecOn with
  | nil =>
      intro purpose row hrow
      cases hrow
  | append_singleton choices choice ih =>
      intro purpose row hrow
      have hgrows : ∀ {index provider state} {owner : purpose.Owner} {expiresAt},
          IssuedAt ((OAuthStore.beforeOAuth accounts).after ports choices) index purpose owner
            provider state expiresAt →
          IssuedAt ((OAuthStore.beforeOAuth accounts).after ports (choices ++ [choice])) index
            purpose owner provider state expiresAt := by
        intro index provider state owner expiresAt hissued
        rw [OAuthStore.after_append]
        exact hissued.later [choice]
      rw [OAuthStore.after_snoc] at hrow
      cases hcommit : ((OAuthStore.beforeOAuth accounts).after ports choices).commit? choice with
      | none =>
          rw [System.step_store_of_no_commit hcommit] at hrow
          obtain ⟨index, provider, state, hissued, hsame⟩ := ih purpose row hrow
          exact ⟨index, provider, state, hgrows hissued, hsame⟩
      | some commit =>
          rw [System.step_store_of_commit hcommit] at hrow
          obtain ⟨_, _, happly⟩ := System.commit?_eq_some hcommit
          rcases rows_of_apply happly hrow with ⟨old, hold, hrow⟩ | ⟨auditEvent, hwrite⟩
          · obtain ⟨index, provider, state, hissued, hnamed, hhash⟩ := ih purpose old hold
            rcases hrow with rfl | ⟨now, rfl⟩
            · exact ⟨index, provider, state, hgrows hissued, hnamed, hhash⟩
            · exact ⟨index, provider, state, hgrows hissued, hnamed, hhash⟩
          · obtain ⟨index, hprocess, hfollows, hallowed⟩ :=
              commit_allowed (fun request => request.program_keeps) hcommit
            have hopened := (hwrite ▸ hallowed).opened
            rw [hfollows.history] at hopened
            obtain ⟨provider, state, hissued, hnamed, hhash⟩ := hopened
            exact ⟨index, provider, state, hgrows ⟨_, hprocess, hissued⟩, hnamed, hhash⟩

theorem spent_later {stateHash : String} {before : List OAuthChoice}
    (hspent : Spent purpose stateHash
      ((OAuthStore.beforeOAuth accounts).after ports before).world.store)
    (rest : List OAuthChoice) :
    Spent purpose stateHash
      ((OAuthStore.beforeOAuth accounts).after ports (before ++ rest)).world.store := by
  rw [OAuthStore.after_append]
  refine System.stores_induction _ hspent ?_ rest
  intro earlier choice commit hcommit hheld
  exact hheld.kept (System.commit?_eq_some hcommit).2.2

/-- A state is claimed once. -/
theorem claims_at_once {choices : List OAuthChoice} {first second : Nat} {moment moment' : Nat}
    {consumedAt consumedAt' : Instant} {row row' : OAuthTransactionRecord purpose.Owner}
    (hfirst : Claim ports purpose state moment consumedAt row ∈
      (OAuthStore.beforeOAuth accounts).idle.trace (OAuthRequest.program ports) first choices)
    (hsecond : Claim ports purpose state moment' consumedAt' row' ∈
      (OAuthStore.beforeOAuth accounts).idle.trace (OAuthRequest.program ports) second choices) :
    ¬ moment < moment' := by
  intro hearlier
  obtain ⟨reply, commit, hchoice, hcommit, hwrite, hreceipt⟩ := wrote_committed hfirst
  obtain ⟨reply', commit', hchoice', hcommit', hwrite', hreceipt'⟩ := wrote_committed hsecond
  obtain ⟨_, _, happly⟩ := System.commit?_eq_some hcommit
  obtain ⟨_, _, happly'⟩ := System.commit?_eq_some hcommit'
  rw [hwrite] at happly
  rw [hwrite'] at happly'
  obtain ⟨_, hspent, _⟩ := claim_spends happly hreceipt
  obtain ⟨hunspent, _, _⟩ := claim_spends happly' hreceipt'
  have hnext : choices.take (moment + 1) = choices.take moment ++ [.advance first reply] := by
    rw [List.take_add_one, hchoice]
    rfl
  have hafter : Spent purpose (ports.hashToken state)
      ((OAuthStore.beforeOAuth accounts).after ports (choices.take (moment + 1))).world.store := by
    rw [hnext, OAuthStore.after_snoc, OAuthStore.after, OAuthStore.idle,
      System.step_store_of_commit hcommit]
    exact hspent
  have hsplit : choices.take moment' =
      choices.take (moment + 1) ++ (choices.take moment').drop (moment + 1) := by
    conv_lhs => rw [← List.take_append_drop (moment + 1) (choices.take moment')]
    rw [List.take_take, Nat.min_eq_left hearlier]
  refine hunspent ?_
  have hlater := spent_later hafter ((choices.take moment').drop (moment + 1))
  rw [← hsplit] at hlater
  exact hlater

/-- A claimed state was issued. -/
theorem claimed_issued (hhash : Function.Injective ports.hashToken) {choices : List OAuthChoice}
    {index : Nat} {row : OAuthTransactionRecord purpose.Owner}
    (hclaimed : Claimed ports purpose state row
      ((OAuthStore.beforeOAuth accounts).idle.trace (OAuthRequest.program ports) index choices)) :
    ∃ issuer provider, IssuedAt ((OAuthStore.beforeOAuth accounts).after ports choices) issuer
      purpose row.owner provider state row.expiresAt ∧ row.provider = StrEnum.value provider := by
  obtain ⟨moment, consumedAt, hclaim⟩ := hclaimed
  obtain ⟨reply, commit, hchoice, hcommit, hwrite, hreceipt⟩ := wrote_committed hclaim
  obtain ⟨_, _, happly⟩ := System.commit?_eq_some hcommit
  rw [hwrite] at happly
  obtain ⟨_, _, old, hold, rfl, hsame, _⟩ := claim_spends happly hreceipt
  obtain ⟨issuer, provider, issued, hissued, hnamed, hrow⟩ :=
    rows_issued (choices.take moment) purpose old hold
  cases hhash (hrow.symm.trans hsame)
  have hlater := @IssuedAt.later ports _ _ _ _ _ _ _ hissued (choices.drop moment)
  rw [← OAuthStore.after_append, List.take_append_drop] at hlater
  exact ⟨issuer, provider, hlater, hnamed⟩

/-- A claim is in time. -/
theorem claim_in_time {choices : List OAuthChoice} {index moment : Nat} {consumedAt : Instant}
    {row : OAuthTransactionRecord purpose.Owner}
    (hclaim : Claim ports purpose state moment consumedAt row ∈
      (OAuthStore.beforeOAuth accounts).idle.trace (OAuthRequest.program ports) index choices) :
    consumedAt < row.expiresAt := by
  obtain ⟨reply, commit, hchoice, hcommit, hwrite, hreceipt⟩ := wrote_committed hclaim
  obtain ⟨_, _, happly⟩ := System.commit?_eq_some hcommit
  rw [hwrite] at happly
  obtain ⟨_, _, old, _, rfl, _, hearly⟩ := claim_spends happly hreceipt
  exact hearly

/-- What an exchange stands on: the trace of its callback ends with the claim of its state. -/
theorem exchange_claims {before : List OAuthChoice} {choice : OAuthChoice} {process : OAuthProcess}
    {client : LoginIdentityProvider}
    (hexchange : Exchanges ((OAuthStore.beforeOAuth accounts).after ports before) choice process
      client state) :
    ∃ index reply earlier purpose moment consumedAt row answer,
      choice = .advance index reply ∧ row.provider = StrEnum.value client ∧
      (OAuthStore.beforeOAuth accounts).idle.trace (OAuthRequest.program ports) index before =
        earlier ++ [.heard (.auth (.console .now)) consumedAt,
          Claim ports purpose state moment consumedAt row] ∧
      process.history = earlier.map Event.observation ++
        [.heard (.auth (.console .now)) consumedAt,
          .wrote (.consume purpose (ports.hashToken state) consumedAt) true] ∧
      (OAuthStore.beforeOAuth accounts).idle.trace (OAuthRequest.program ports) index
        (before ++ [choice]) =
          (OAuthStore.beforeOAuth accounts).idle.trace (OAuthRequest.program ports) index before ++
            [answer] := by
  obtain ⟨request, provider, code, exchanged, verifier, hrequest, hcall⟩ := hexchange
  obtain ⟨index, reply, rfl, hprocess, hfollows, hallowed, htrace⟩ :=
    call_allowed (fun request => request.program_keeps) hcall
  obtain ⟨sender, named, earlier, purpose, moment, consumedAt, row, hsame, hrow, hends⟩ :=
    hallowed.exchanged
  cases hrequest.symm.trans hsame
  refine ⟨index, reply, earlier, purpose, moment, consumedAt, row, _, rfl, hrow, hends, ?_, htrace⟩
  rw [← hfollows.history, hends, List.map_append]
  rfl

theorem IssuedAt.purpose_eq {system : OAuthSystem} (hapart : StatesApart system)
    {index index' : Nat} {other : OAuthPurpose} {owner' : other.Owner}
    {provider' : LoginIdentityProvider} {expiresAt' : Instant}
    (hissued : IssuedAt system index purpose owner provider state expiresAt)
    (hother : IssuedAt system index' other owner' provider' state expiresAt') :
    purpose = other := by
  cases hapart _ _ _ _ _ _ _ _ _ _ _ hissued hother
  obtain ⟨process, hprocess, hstate⟩ := hissued
  obtain ⟨process', hprocess', hstate'⟩ := hother
  cases hprocess.symm.trans hprocess'
  exact hstate.purpose_eq hstate'

/-- Two claims of a state are one. -/
theorem claims_agree (hhash : Function.Injective ports.hashToken) {choices : List OAuthChoice}
    (hapart : StatesApart ((OAuthStore.beforeOAuth accounts).after ports choices))
    {other : OAuthPurpose} {first second moment moment' : Nat} {consumedAt consumedAt' : Instant}
    {row : OAuthTransactionRecord purpose.Owner} {row' : OAuthTransactionRecord other.Owner}
    (hfirst : Claim ports purpose state moment consumedAt row ∈
      (OAuthStore.beforeOAuth accounts).idle.trace (OAuthRequest.program ports) first choices)
    (hsecond : Claim ports other state moment' consumedAt' row' ∈
      (OAuthStore.beforeOAuth accounts).idle.trace (OAuthRequest.program ports) second choices) :
    first = second ∧ moment = moment' := by
  obtain ⟨_, _, hissued, _⟩ := claimed_issued hhash ⟨_, _, hfirst⟩
  obtain ⟨_, _, hissued', _⟩ := claimed_issued hhash ⟨_, _, hsecond⟩
  cases hissued.purpose_eq hapart hissued'
  have hmoment : moment = moment' :=
    Nat.le_antisymm (Nat.not_lt.mp (claims_at_once hsecond hfirst))
      (Nat.not_lt.mp (claims_at_once hfirst hsecond))
  subst hmoment
  obtain ⟨_, _, hchoice, _⟩ := wrote_committed hfirst
  obtain ⟨_, _, hchoice', _⟩ := wrote_committed hsecond
  cases hchoice.symm.trans hchoice'
  exact ⟨rfl, rfl⟩

theorem StatesApart.earlier {before rest : List OAuthChoice}
    (hapart : StatesApart ((OAuthStore.beforeOAuth accounts).after ports (before ++ rest))) :
    StatesApart ((OAuthStore.beforeOAuth accounts).after ports before) := by
  intro i j purpose owner provider state expiresAt purpose' owner' provider' expiresAt' hfirst
    hsecond
  rw [OAuthStore.after_append] at hapart
  exact hapart _ _ _ _ _ _ _ _ _ _ _ (hfirst.later rest) (hsecond.later rest)

/-- Behind an exchange there is no other one of its state. -/
theorem not_exchanges_later (hhash : Function.Injective ports.hashToken)
    {before between : List OAuthChoice} {choice later : OAuthChoice}
    {process process' : OAuthProcess} {client client' : LoginIdentityProvider}
    (hapart : StatesApart
      ((OAuthStore.beforeOAuth accounts).after ports (before ++ choice :: between)))
    (hfirst : Exchanges ((OAuthStore.beforeOAuth accounts).after ports before) choice process client
      state) :
    ¬ Exchanges ((OAuthStore.beforeOAuth accounts).after ports (before ++ choice :: between)) later
      process' client' state := by
  intro hsecond
  obtain ⟨index, _, earlier, purpose, moment, consumedAt, row, answer, -, _, hends, _, hanswer⟩ :=
    exchange_claims hfirst
  obtain ⟨index', _, earlier', purpose', moment', consumedAt', row', _, -, _, hends', _, _⟩ :=
    exchange_claims hsecond
  obtain ⟨rest, hgrown⟩ : ∃ rest, (OAuthStore.beforeOAuth accounts).idle.trace
      (OAuthRequest.program ports) index (before ++ choice :: between) =
        earlier ++ [.heard (.auth (.console .now)) consumedAt,
          Claim ports purpose state moment consumedAt row] ++ answer :: rest := by
    have hsplit : before ++ choice :: between = (before ++ [choice]) ++ between := by simp
    have happend := @System.trace_append oauth OAuthRequest OAuthFailure OAuthOutcome _
      (OAuthRequest.program ports) (OAuthStore.beforeOAuth accounts).idle index
      (before ++ [choice]) between
    rw [hanswer, hends, List.append_assoc _ [answer]] at happend
    exact ⟨_, hsplit ▸ happend⟩
  have hclaim : Claim ports purpose state moment consumedAt row ∈
      (OAuthStore.beforeOAuth accounts).idle.trace (OAuthRequest.program ports) index
        (before ++ choice :: between) := by
    rw [hgrown]
    simp
  have hclaim' : Claim ports purpose' state moment' consumedAt' row' ∈
      (OAuthStore.beforeOAuth accounts).idle.trace (OAuthRequest.program ports) index'
        (before ++ choice :: between) := by
    rw [hends']
    simp
  obtain ⟨rfl, rfl⟩ := claims_agree hhash hapart hclaim hclaim'
  -- The trace ends with the claim, which is behind the answer, then.
  have hlast : (answer :: rest).getLast? = some (Claim ports purpose' state moment consumedAt'
      row') := by
    have hends := congrArg List.getLast? (hgrown.symm.trans hends')
    simpa using hends
  have hmem := List.mem_of_getLast? hlast
  have hclaims : (OAuthStore.beforeOAuth accounts).idle.trace (OAuthRequest.program ports) index
      (before ++ choice :: between) = (earlier ++ [.heard (.auth (.console .now)) consumedAt]) ++
        Claim ports purpose state moment consumedAt row :: answer :: rest := by
    rw [hgrown]
    simp
  have hbehind : moment ∉ (answer :: rest).filterMap Event.instant? :=
    instant_notMem_behind hclaims rfl
  exact hbehind (List.mem_filterMap.mpr ⟨_, hmem, rfl⟩)

/-- What every run makes of the states that were issued in it. -/
structure StatesBound (ports : OAuthPorts) (accounts : AuthStore) (choices : List OAuthChoice) :
    Prop where
  /-- an exchange is with the provider of an issued state, right behind a claim in time -/
  exchanged : ∀ before choice rest process client state, choices = before ++ choice :: rest →
    Exchanges ((OAuthStore.beforeOAuth accounts).after ports before) choice process client state →
      ∃ issuer purpose owner expiresAt consumedAt earlier,
        IssuedAt ((OAuthStore.beforeOAuth accounts).after ports before) issuer purpose owner client
          state expiresAt ∧ consumedAt < expiresAt ∧
        process.history = earlier ++ [.heard (.auth (.console .now)) consumedAt,
          .wrote (.consume purpose (ports.hashToken state) consumedAt) true]
  /-- a state leads to one exchange at most -/
  once : ∀ first second choice choice' rest rest' process process' client client' state,
    choices = first ++ choice :: rest → choices = second ++ choice' :: rest' →
      Exchanges ((OAuthStore.beforeOAuth accounts).after ports first) choice process client state →
        Exchanges ((OAuthStore.beforeOAuth accounts).after ports second) choice' process' client'
          state → first = second
  /-- a callback that inserts a session has a state that was issued for signing in only -/
  signedIn : ∀ before choice rest commit request provider state code session auditEvent,
    choices = before ++ choice :: rest →
      ((OAuthStore.beforeOAuth accounts).after ports before).commit? choice = some commit →
        commit.process.request = .callback request provider state code →
          commit.write = .auth (.account (.createSession session auditEvent)) →
    (∃ issuer provider expiresAt, IssuedAt ((OAuthStore.beforeOAuth accounts).after ports before)
      issuer .login () provider state expiresAt) ∧
    ∀ issuer owner provider expiresAt, ¬ IssuedAt
      ((OAuthStore.beforeOAuth accounts).after ports choices) issuer .link owner provider state
        expiresAt
  /-- a callback that inserts an identity has a state that was issued for linking only, and inserts
  it for the user and the provider of the state -/
  linked : ∀ before choice rest commit request provider state code identity auditEvent,
    choices = before ++ choice :: rest →
      ((OAuthStore.beforeOAuth accounts).after ports before).commit? choice = some commit →
        commit.process.request = .callback request provider state code →
          commit.write = .auth (.account (.link identity auditEvent)) →
    (∃ issuer named expiresAt, IssuedAt ((OAuthStore.beforeOAuth accounts).after ports before)
      issuer .link identity.userId named state expiresAt ∧
        identity.provider = StrEnum.value named) ∧
    ∀ issuer provider expiresAt, ¬ IssuedAt
      ((OAuthStore.beforeOAuth accounts).after ports choices) issuer .login () provider state
        expiresAt

/-- The part of a run in front of one of its steps. -/
theorem statesApart_before {choices before rest : List OAuthChoice} {choice : OAuthChoice}
    (hsplit : choices = before ++ choice :: rest)
    (hapart : StatesApart ((OAuthStore.beforeOAuth accounts).after ports choices)) :
    StatesApart ((OAuthStore.beforeOAuth accounts).after ports before) := by
  rw [hsplit] at hapart
  exact hapart.earlier

theorem exchanges_once (hhash : Function.Injective ports.hashToken) {choices : List OAuthChoice}
    (hapart : StatesApart ((OAuthStore.beforeOAuth accounts).after ports choices))
    {first second rest rest' : List OAuthChoice} {choice choice' : OAuthChoice}
    {process process' : OAuthProcess} {client client' : LoginIdentityProvider}
    (hsplit : choices = first ++ choice :: rest) (hsplit' : choices = second ++ choice' :: rest')
    (hfirst : Exchanges ((OAuthStore.beforeOAuth accounts).after ports first) choice process client
      state)
    (hsecond : Exchanges ((OAuthStore.beforeOAuth accounts).after ports second) choice' process'
      client' state) : first = second := by
  rcases List.append_eq_append_iff.mp (hsplit.symm.trans hsplit') with
    ⟨between, rfl, hbetween⟩ | ⟨between, rfl, hbetween⟩
  · cases between with
    | nil => exact (List.append_nil _).symm
    | cons head between =>
        obtain ⟨rfl, _⟩ := List.cons.inj hbetween
        exact absurd hsecond
          (not_exchanges_later hhash (statesApart_before hsplit' hapart) hfirst)
  · cases between with
    | nil => exact List.append_nil _
    | cons head between =>
        obtain ⟨rfl, _⟩ := List.cons.inj hbetween
        exact absurd hfirst
          (not_exchanges_later hhash (statesApart_before hsplit hapart) hsecond)

/-- An exchange follows a claim in time of a state that was issued for its provider. -/
theorem exchange_issued (hhash : Function.Injective ports.hashToken) {before : List OAuthChoice}
    {choice : OAuthChoice} {process : OAuthProcess} {client : LoginIdentityProvider}
    (hexchange : Exchanges ((OAuthStore.beforeOAuth accounts).after ports before) choice process
      client state) :
    ∃ issuer purpose owner expiresAt consumedAt earlier,
      IssuedAt ((OAuthStore.beforeOAuth accounts).after ports before) issuer purpose owner client
        state expiresAt ∧ consumedAt < expiresAt ∧
      process.history = earlier ++ [.heard (.auth (.console .now)) consumedAt,
        .wrote (.consume purpose (ports.hashToken state) consumedAt) true] := by
  obtain ⟨index, _, earlier, purpose, moment, consumedAt, row, _, _, hrow, hends, hhistory, _⟩ :=
    exchange_claims hexchange
  have hclaim : Claim ports purpose state moment consumedAt row ∈
      (OAuthStore.beforeOAuth accounts).idle.trace (OAuthRequest.program ports) index before := by
    rw [hends]
    simp
  obtain ⟨issuer, named, hissued, hnamed⟩ := claimed_issued hhash ⟨_, _, hclaim⟩
  cases StrEnum.value_injective (hnamed.symm.trans hrow)
  exact ⟨issuer, purpose, row.owner, row.expiresAt, consumedAt, _, hissued, claim_in_time hclaim,
    hhistory⟩

/-- In every run from a deployment without OAuth flows, a state is good for one exchange with its
provider before its expiry, and for nothing but what it was issued for. -/
theorem oauth_states_bound (hhash : Function.Injective ports.hashToken)
    (choices : List OAuthChoice)
    (hapart : StatesApart ((OAuthStore.beforeOAuth accounts).after ports choices)) :
    StatesBound ports accounts choices where
  exchanged before choice rest process client state hsplit hexchange :=
    exchange_issued hhash hexchange
  once first second choice choice' rest rest' process process' client client' state hsplit hsplit'
      hfirst hsecond := exchanges_once hhash hapart hsplit hsplit' hfirst hsecond
  signedIn before choice rest commit request provider state code session auditEvent hsplit hcommit
      hrequest hwrite := by
    obtain ⟨index, hprocess, hfollows, hallowed⟩ :=
      commit_allowed (fun request => request.program_keeps) hcommit
    rw [hrequest, hwrite] at hallowed
    obtain ⟨row, hclaimed⟩ := hallowed.signedIn
    obtain ⟨issuer, named, hissued, _⟩ := claimed_issued hhash hclaimed
    refine ⟨⟨issuer, named, row.expiresAt, hissued⟩, ?_⟩
    intro other owner provider' expiresAt hother
    have hlater := @IssuedAt.later ports _ _ _ _ _ _ _ hissued (choice :: rest)
    rw [← OAuthStore.after_append, ← hsplit] at hlater
    cases hlater.purpose_eq hapart hother
  linked before choice rest commit request provider state code identity auditEvent hsplit hcommit
      hrequest hwrite := by
    obtain ⟨index, hprocess, hfollows, hallowed⟩ :=
      commit_allowed (fun request => request.program_keeps) hcommit
    rw [hrequest, hwrite] at hallowed
    obtain ⟨row, hclaimed, huser, hprovider⟩ := hallowed.linked
    obtain ⟨issuer, named, hissued, hnamed⟩ := claimed_issued hhash hclaimed
    refine ⟨⟨issuer, named, row.expiresAt, huser ▸ hissued, hprovider.trans hnamed⟩, ?_⟩
    intro other provider' expiresAt hother
    have hlater := @IssuedAt.later ports _ _ _ _ _ _ _ hissued (choice :: rest)
    rw [← OAuthStore.after_append, ← hsplit] at hlater
    cases hlater.purpose_eq hapart hother

end Runs

namespace Scenario

/-- Hashes that tell every two states apart. -/
def statePorts : OAuthPorts :=
  { oauthPorts with hashToken := exactHash }

/-- A user starts to link a Discord account, and the callback comes from a browser without a
session. -/
def linkedRun : List OAuthChoice :=
  linkStart ++ [.start (.callback (httpRequest none) .discord "token-12" "code")] ++
    oauthTurns 1 30 10

theorem linkedRun_requests :
    ((OAuthStore.beforeOAuth signedUp).after statePorts linkedRun).processes.map (·.request) =
      [.beginIdentityLink (httpRequest (some 1)) .discord,
        .callback (httpRequest none) .discord "token-12" "code"] := by
  rfl

theorem linkedRun_statesApart :
    StatesApart ((OAuthStore.beforeOAuth signedUp).after statePorts linkedRun) := by
  have hfirst : ∀ index purpose owner provider state expiresAt,
      IssuedAt ((OAuthStore.beforeOAuth signedUp).after statePorts linkedRun) index purpose owner
        provider state expiresAt → index = 0 := by
    rintro index purpose owner provider state expiresAt ⟨process, hprocess, hissued⟩
    have hrequest := congrArg (Option.map (·.request)) hprocess
    rw [← List.getElem?_map, linkedRun_requests, Option.map_some] at hrequest
    rcases index with _ | _ | index
    · rfl
    · have hcallback := Option.some.inj hrequest
      rw [← hcallback] at hissued
      cases hissued
    · cases hrequest
  intro i j purpose owner provider state expiresAt purpose' owner' provider' expiresAt' hi hj
  rw [hfirst _ _ _ _ _ _ hi, hfirst _ _ _ _ _ _ hj]

end Scenario

/-- The account that the callback linked is that of the user who had started. -/
theorem oauth_states_bound_linked :
    StatesBound Scenario.statePorts Scenario.signedUp Scenario.linkedRun ∧
      ∃ identity ∈ ((OAuthStore.beforeOAuth Scenario.signedUp).after Scenario.statePorts
        Scenario.linkedRun).world.store.accounts.database.tables.loginIdentities,
        identity.provider = "discord" ∧ identity.userId = 1 :=
  ⟨oauth_states_bound Scenario.exactHash_injective Scenario.linkedRun
    Scenario.linkedRun_statesApart, by decide +kernel⟩

end MuxivoConsole
