/-
What a process learned, the answers to its transactions included.  A history does not say
what a transaction returned.  A trace does, and every answer in the trace of a process is
the one that the store gave at its instant.
-/
import MuxivoConsole.Interleaving.Embedding
import MuxivoConsole.Interleaving.Rollback

namespace Interleaving

variable {I J : Interface} {Request ε ε' α β : Type}

/-- One thing that a process learned; a transaction stands with its instant. -/
inductive Event (I : Interface) where
  | saw (moment : Nat) (world : World I)
  | drew (name : I.Name)
  | wrote (moment : Nat) (write : I.Write) (response : Option (I.Receipt write))
  | heard (request : I.Call) (answer : I.Answer request)

abbrev Trace (I : Interface) := List (Event I)

/-- What the history keeps of it. -/
def Event.observation : Event I → Observation I
  | saw moment world => .saw moment world
  | drew name => .drew name
  | wrote _ write response => .wrote write response.isSome
  | heard request answer => .heard request answer

/-- The instant of a transaction. -/
def Event.instant? : Event I → Option Nat
  | .wrote moment _ _ => some moment
  | _ => none

/-- The request that the event answers. -/
def Event.action? : Event I → Option (Action I)
  | wrote _ write _ => some (.commit write)
  | heard request _ => some (.call request)
  | _ => none

/-- Every request of the trace was allowed when it was made. -/
def Guarded (guard : Trace I → Action I → Prop) (trace : Trace I) : Prop :=
  ∀ before event rest, trace = before ++ event :: rest →
    ∀ action, event.action? = some action → guard before action

theorem Guarded.nil {guard : Trace I → Action I → Prop} : Guarded guard [] := by
  intro before event rest hsplit
  have hlength := congrArg List.length hsplit
  simp at hlength

theorem Guarded.snoc {guard : Trace I → Action I → Prop} {trace : Trace I} {event : Event I}
    (hguarded : Guarded guard trace)
    (hevent : ∀ action, event.action? = some action → guard trace action) :
    Guarded guard (trace ++ [event]) := by
  intro before last rest hsplit action haction
  rcases List.eq_nil_or_concat rest with rfl | ⟨between, final, rfl⟩
  · obtain ⟨rfl, hlast⟩ := List.append_inj' hsplit rfl
    cases hlast
    exact hevent action haction
  · have hsplit : trace ++ [event] = (before ++ last :: between) ++ [final] := by
      simpa using hsplit
    exact hguarded before last between (List.append_inj' hsplit rfl).1 action haction

namespace Execution

/-- `execution.Keeps guard post trace`: the same as `Meets`, where the guard may depend on
what transactions returned. -/
def Keeps (guard : Trace I → Action I → Prop) (post : Trace I → Except ε α → Prop) :
    Execution I ε α → Trace I → Prop
  | done outcome, trace => post trace outcome
  | query next, trace =>
      ∀ moment world, (next world.store).Keeps guard post (trace ++ [.saw moment world])
  | draw next, trace => ∀ name, (next name).Keeps guard post (trace ++ [.drew name])
  | commit write next, trace =>
      guard trace (.commit write) ∧
        ∀ moment response, (next response).Keeps guard post
          (trace ++ [.wrote moment write response])
  | call request next, trace =>
      guard trace (.call request) ∧
        ∀ answer, (next answer).Keeps guard post (trace ++ [.heard request answer])

/-- Partial correctness over traces: an error promises nothing. -/
def Promises (guard : Trace I → Action I → Prop) (post : Trace I → α → Prop)
    (execution : Execution I ε α) (trace : Trace I) : Prop :=
  execution.Keeps guard (fun after outcome => ∀ value, outcome = .ok value → post after value)
    trace

section Rules

variable {guard : Trace I → Action I → Prop} {trace : Trace I}

/-- Rule of consequence. -/
theorem Keeps.mono {execution : Execution I ε α} {guard' : Trace I → Action I → Prop}
    {post post' : Trace I → Except ε α → Prop} (hkeeps : execution.Keeps guard post trace)
    (hguard : ∀ trace action, guard trace action → guard' trace action)
    (hpost : ∀ trace outcome, post trace outcome → post' trace outcome) :
    execution.Keeps guard' post' trace := by
  induction execution generalizing trace with
  | done outcome => exact hpost trace outcome hkeeps
  | query next ih => exact fun moment world => ih world.store (hkeeps moment world)
  | draw next ih => exact fun name => ih name (hkeeps name)
  | commit write next ih =>
      exact ⟨hguard _ _ hkeeps.1, fun moment response =>
        ih response (hkeeps.2 moment response)⟩
  | call request next ih =>
      exact ⟨hguard _ _ hkeeps.1, fun answer => ih answer (hkeeps.2 answer)⟩

/-- Rule of composition. -/
theorem Keeps.bind {execution : Execution I ε α} {continuation : α → Execution I ε β}
    {middle : Trace I → Except ε α → Prop} {post : Trace I → Except ε β → Prop}
    (hfirst : execution.Keeps guard middle trace)
    (hthen : ∀ after value, middle after (.ok value) →
      (continuation value).Keeps guard post after)
    (herror : ∀ after error, middle after (.error error) → post after (.error error)) :
    (execution >>= continuation).Keeps guard post trace := by
  change (execution.bind continuation).Keeps guard post trace
  induction execution generalizing trace with
  | done outcome =>
      cases outcome with
      | error error => exact herror trace error hfirst
      | ok value => exact hthen trace value hfirst
  | query next ih => exact fun moment world => ih world.store (hfirst moment world)
  | draw next ih => exact fun name => ih name (hfirst name)
  | commit write next ih =>
      exact ⟨hfirst.1, fun moment response => ih response (hfirst.2 moment response)⟩
  | call request next ih => exact ⟨hfirst.1, fun answer => ih answer (hfirst.2 answer)⟩

theorem Keeps.attempt {execution : Execution I ε α} {post : Trace I → Except ε α → Prop}
    (hkeeps : execution.Keeps guard post trace) :
    (execution.attempt : Execution I ε' (Except ε α)).Keeps guard
      (fun after outcome => ∀ value, outcome = .ok value → post after value) trace := by
  induction execution generalizing trace with
  | done outcome =>
      intro value hvalue
      cases hvalue
      exact hkeeps
  | query next ih => exact fun moment world => ih world.store (hkeeps moment world)
  | draw next ih => exact fun name => ih name (hkeeps name)
  | commit write next ih =>
      exact ⟨hkeeps.1, fun moment response => ih response (hkeeps.2 moment response)⟩
  | call request next ih => exact ⟨hkeeps.1, fun answer => ih answer (hkeeps.2 answer)⟩

/-- What a program of a smaller interface asks for, it asks for in the larger one. -/
theorem Meets.keeps {embedding : Embedding I J} {execution : Execution I ε α}
    {allowed : Action I → Prop} {post : Except ε α → Prop} {history : History I}
    {guard' : Trace J → Action J → Prop} {start trace' : Trace J}
    (hmeets : execution.Meets (fun _ action => allowed action) (fun _ outcome => post outcome)
      history) (hstart : start <+: trace')
    (hallowed : ∀ after action, start <+: after → allowed action →
      guard' after (embedding.action action)) :
    (execution.embed embedding).Keeps guard' (fun _ outcome => post outcome) trace' := by
  induction execution generalizing history trace' with
  | done outcome => exact hmeets
  | query next ih =>
      intro moment world
      exact ih _ (hmeets moment ⟨embedding.store world.store, []⟩)
        (hstart.trans (List.prefix_append _ _))
  | draw next ih =>
      exact fun name => ih _ (hmeets (embedding.name name))
        (hstart.trans (List.prefix_append _ _))
  | commit write next ih =>
      refine ⟨hallowed _ _ hstart hmeets.1, ?_⟩
      intro moment response
      exact ih _ (hmeets.2 (response.map (embedding.receipt write)))
        (hstart.trans (List.prefix_append _ _))
  | call request next ih =>
      refine ⟨hallowed _ _ hstart hmeets.1, ?_⟩
      intro answer
      exact ih _ (hmeets.2 (embedding.answer request answer))
        (hstart.trans (List.prefix_append _ _))

theorem promises_pure {post : Trace I → α → Prop} {value : α} (hpost : post trace value) :
    (pure value : Execution I ε α).Promises guard post trace := by
  intro returned hreturned
  cases hreturned
  exact hpost

theorem promises_raise {post : Trace I → α → Prop} {error : ε} :
    (raise error : Execution I ε α).Promises guard post trace := by
  intro returned hreturned
  cases hreturned

theorem promises_select {read : I.Store → α} :
    (select read : Execution I ε α).Promises guard
      (fun after value => ∃ moment world,
        after = trace ++ [.saw moment world] ∧ value = read world.store) trace := by
  intro moment world returned hreturned
  cases hreturned
  exact ⟨moment, world, rfl, rfl⟩

theorem promises_newName :
    (newName : Execution I ε I.Name).Promises guard
      (fun after name => after = trace ++ [.drew name]) trace := by
  intro name returned hreturned
  cases hreturned
  rfl

theorem promises_transact {write : I.Write} (hguard : guard trace (.commit write)) :
    (transact write : Execution I ε (Option (I.Receipt write))).Promises guard
      (fun after response => ∃ moment, after = trace ++ [.wrote moment write response])
      trace := by
  refine ⟨hguard, ?_⟩
  intro moment response returned hreturned
  cases hreturned
  exact ⟨moment, rfl⟩

theorem promises_save {write : I.Write} (hguard : guard trace (.commit write)) :
    (save write : Execution I ε Bool).Promises guard
      (fun after saved => ∃ moment response, after = trace ++ [.wrote moment write response] ∧
        saved = response.isSome) trace := by
  refine ⟨hguard, ?_⟩
  intro moment response returned hreturned
  cases hreturned
  exact ⟨moment, response, rfl, rfl⟩

theorem promises_ask {request : I.Call} (hguard : guard trace (.call request)) :
    (ask request : Execution I ε (I.Answer request)).Promises guard
      (fun after answer => after = trace ++ [.heard request answer]) trace := by
  refine ⟨hguard, ?_⟩
  intro answer returned hreturned
  cases hreturned
  rfl

theorem Promises.bind {execution : Execution I ε α} {continuation : α → Execution I ε β}
    {middle : Trace I → α → Prop} {post : Trace I → β → Prop}
    (hfirst : execution.Promises guard middle trace)
    (hthen : ∀ after value, middle after value →
      (continuation value).Promises guard post after) :
    (execution >>= continuation).Promises guard post trace := by
  refine Keeps.bind hfirst ?_ ?_
  · intro after value hmiddle
    exact hthen after value (hmiddle value rfl)
  · intro after error _ value hvalue
    cases hvalue

theorem Promises.mono {execution : Execution I ε α} {post post' : Trace I → α → Prop}
    (hpromises : execution.Promises guard post trace)
    (hpost : ∀ after value, post after value → post' after value) :
    execution.Promises guard post' trace :=
  Keeps.mono hpromises (fun _ _ hguard => hguard)
    fun after _ houtcome value hvalue => hpost after value (houtcome value hvalue)

theorem Promises.keeps {execution : Execution I ε α} {post : Trace I → α → Prop}
    (hpromises : execution.Promises guard post trace) :
    execution.Keeps guard
      (fun after outcome => ∀ value, outcome = .ok value → post after value) trace :=
  hpromises

theorem Promises.of_keeps {execution : Execution I ε α} {post : Trace I → α → Prop}
    (hkeeps : execution.Keeps guard
      (fun after outcome => ∀ value, outcome = .ok value → post after value) trace) :
    execution.Promises guard post trace :=
  hkeeps

end Rules

-- the rules above are the interface: elaboration must not run the program
attribute [irreducible] Promises

end Execution

/-- The process is where its program can be after the trace. -/
structure Process.Follows (guard : Request → Trace I → Action I → Prop)
    (post : Request → Trace I → Except ε α → Prop) (process : Process I Request ε α)
    (trace : Trace I) : Prop where
  keeps : process.execution.Keeps (guard process.request) (post process.request) trace
  history : trace.map Event.observation = process.history
  guarded : Guarded (guard process.request) trace

namespace System

section Traces

variable [DecidableEq I.Name]

/-- What the process in a place learns in one step of the system. -/
def events (system : System I Request ε α) (index : Nat) : Choice I Request → List (Event I)
  | .start _ => []
  | .advance target reply =>
      if target ≠ index then []
      else
        match system.processes[target]? with
        | none => []
        | some process =>
            match process.execution with
            | .done _ => []
            | .query _ => [.saw system.moment system.world]
            | .draw _ => if reply.name ∈ system.issued then [] else [.drew reply.name]
            | .commit write _ =>
                [.wrote system.moment write ((I.apply write system.world.store).map fun _ =>
                  I.receipt write system.world.store)]
            | .call request _ => [.heard request (reply.answer request)]

variable (program : Request → Execution I ε α)

/-- The trace of the process in a place over a run. -/
def trace (system : System I Request ε α) (index : Nat) : List (Choice I Request) → Trace I
  | [] => []
  | choice :: rest => system.events index choice ++ (system.step program choice).trace index rest

variable {program}

theorem trace_append (system : System I Request ε α) (index : Nat)
    (first second : List (Choice I Request)) :
    system.trace program index (first ++ second) =
      system.trace program index first ++ (system.run program first).trace program index second := by
  induction first generalizing system with
  | nil => rfl
  | cons choice rest ih => simp [trace, ih]

theorem trace_snoc (system : System I Request ε α) (index : Nat)
    (choices : List (Choice I Request)) (choice : Choice I Request) :
    system.trace program index (choices ++ [choice]) =
      system.trace program index choices ++ (system.run program choices).events index choice := by
  simp [trace_append, trace]

/-- A transaction that the process commits in one step. -/
theorem wrote_mem_events {system : System I Request ε α} {index : Nat}
    {choice : Choice I Request} {moment : Nat} {write : I.Write} {receipt : I.Receipt write}
    (hmem : Event.wrote moment write (some receipt) ∈ system.events index choice) :
    moment = system.moment ∧ ∃ reply commit, choice = .advance index reply ∧
      system.commit? choice = some commit ∧ commit.write = write ∧
        receipt = I.receipt write system.world.store := by
  cases choice with
  | start request => cases hmem
  | advance target reply =>
      simp only [events] at hmem
      split at hmem
      · cases hmem
      · rename_i hsame
        have hsame := not_not.mp hsame
        split at hmem
        · cases hmem
        · rename_i process hprocess
          split at hmem
          · cases hmem
          · cases List.mem_singleton.mp hmem
          · split at hmem
            · cases hmem
            · cases List.mem_singleton.mp hmem
          · rename_i asked next hnode
            have hevent := List.mem_singleton.mp hmem
            cases happly : I.apply asked system.world.store with
            | none =>
                rw [happly] at hevent
                cases hevent
            | some store =>
                rw [happly] at hevent
                cases hevent
                refine ⟨rfl, reply, ⟨process, write, store⟩, by rw [hsame], ?_, rfl, rfl⟩
                simp [commit?, hprocess, hnode, happly]
          · cases List.mem_singleton.mp hmem

/-- The transactions of a trace came after its start. -/
theorem moment_le_of_wrote {system : System I Request ε α} {index : Nat}
    {choices : List (Choice I Request)} {moment : Nat} {write : I.Write}
    {receipt : I.Receipt write}
    (hmem : Event.wrote moment write (some receipt) ∈ system.trace program index choices) :
    system.moment ≤ moment := by
  induction choices generalizing system with
  | nil => cases hmem
  | cons choice rest ih =>
      rcases List.mem_append.mp hmem with hnow | hlater
      · exact Nat.le_of_eq (wrote_mem_events hnow).1.symm
      · have hafter := ih hlater
        rw [step_moment] at hafter
        omega

/-- The transaction of the process in a place that the run committed at an instant; it
returned what the store gave. -/
def Committed (program : Request → Execution I ε α) (start : System I Request ε α)
    (choices : List (Choice I Request)) (index moment : Nat) (write : I.Write)
    (receipt : I.Receipt write) : Prop :=
  ∃ reply commit, choices[moment]? = some (.advance index reply) ∧
    (start.run program (choices.take moment)).commit? (.advance index reply) = some commit ∧
      commit.write = write ∧
        receipt = I.receipt write (start.run program (choices.take moment)).world.store

end Traces

end System

section Runs

variable [DecidableEq I.Name] {program : Request → Execution I ε α}
variable {world : World I} {issued : List I.Name}

/-- Every answer to a transaction in a trace is the one that the store gave. -/
theorem wrote_committed {choices : List (Choice I Request)} {index moment : Nat}
    {write : I.Write} {receipt : I.Receipt write}
    (hmem : Event.wrote moment write (some receipt) ∈
      (System.idle world issued : System I Request ε α).trace program index choices) :
    System.Committed program (System.idle world issued) choices index moment write
      receipt := by
  induction choices using List.reverseRecOn with
  | nil => cases hmem
  | append_singleton choices choice ih =>
      rw [System.trace_snoc] at hmem
      rcases List.mem_append.mp hmem with hold | hnew
      · obtain ⟨reply, commit, hchoice, hcommit, hwrite, hreceipt⟩ := ih hold
        have hbound := (List.getElem?_eq_some_iff.mp hchoice).1
        have htake : (choices ++ [choice]).take moment = choices.take moment :=
          List.take_append_of_le_length (Nat.le_of_lt hbound)
        rw [← htake] at hcommit hreceipt
        exact ⟨reply, commit, by rw [List.getElem?_append_left hbound, hchoice], hcommit, hwrite,
          hreceipt⟩
      · obtain ⟨hmoment, reply, commit, rfl, hcommit, hwrite, hreceipt⟩ :=
          System.wrote_mem_events hnew
        have hclock : moment = choices.length := by
          rw [hmoment]
          simp [System.idle]
        subst hclock
        refine ⟨reply, commit, List.getElem?_concat_length, ?_, hwrite, ?_⟩
        · rw [List.take_left]
          exact hcommit
        · rw [List.take_left]
          exact hreceipt

/-- What a turn adds to a trace is what the process observes and what its execution may do,
and the execution goes on from there. -/
theorem Process.Follows.advance {guard : Request → Trace I → Action I → Prop}
    {post : Request → Trace I → Except ε α → Prop} {system : System I Request ε α} {index : Nat}
    {process : Process I Request ε α} (hprocess : system.processes[index]? = some process)
    {trace : Trace I} (hfollows : process.Follows guard post trace) (reply : Reply I) :
    (process.advance system.world system.issued system.moment reply).process.Follows guard post
      (trace ++ system.events index (.advance index reply)) := by
  have hrequest := (process.advances system.world system.issued system.moment reply).request
  obtain ⟨hkeeps, hhistory, hguarded⟩ := hfollows
  suffices hnext : (process.advance system.world system.issued system.moment
        reply).process.execution.Keeps (guard process.request) (post process.request)
          (trace ++ system.events index (.advance index reply)) ∧
      (trace ++ system.events index (.advance index reply)).map Event.observation =
        (process.advance system.world system.issued system.moment reply).process.history ∧
      Guarded (guard process.request) (trace ++ system.events index (.advance index reply)) by
    rw [← hrequest] at hnext
    exact ⟨hnext.1, hnext.2.1, hnext.2.2⟩
  simp only [System.events, hprocess, Process.advance, ne_eq, not_true_eq_false, ↓reduceIte]
  cases hnode : process.execution with
  | done outcome =>
      rw [hnode] at hkeeps
      simp only [List.append_nil]
      exact ⟨by rw [hnode]; exact hkeeps, hhistory, hguarded⟩
  | query next =>
      rw [hnode] at hkeeps
      exact ⟨hkeeps _ _, by simp [hhistory, Event.observation],
        hguarded.snoc fun action haction => by cases haction⟩
  | draw next =>
      rw [hnode] at hkeeps
      by_cases hissued : reply.name ∈ system.issued
      · simp only [hissued, ↓reduceIte, List.append_nil]
        exact ⟨by rw [hnode]; exact hkeeps, hhistory, hguarded⟩
      · simp only [hissued, ↓reduceIte]
        exact ⟨hkeeps _, by simp [hhistory, Event.observation],
          hguarded.snoc fun action haction => by cases haction⟩
  | commit write next =>
      rw [hnode] at hkeeps
      have hstep : ∀ response, Guarded (guard process.request)
          (trace ++ [.wrote system.moment write response]) := by
        intro response
        refine hguarded.snoc ?_
        intro action haction
        cases haction
        exact hkeeps.1
      cases happly : I.apply write system.world.store with
      | none =>
          simp only [happly, Option.map_none]
          exact ⟨hkeeps.2 _ none, by simp [hhistory, Event.observation], hstep none⟩
      | some store =>
          simp only [happly, Option.map_some]
          exact ⟨hkeeps.2 _ (some _), by simp [hhistory, Event.observation], hstep (some _)⟩
  | call request next =>
      rw [hnode] at hkeeps
      refine ⟨hkeeps.2 _, by simp [hhistory, Event.observation], hguarded.snoc ?_⟩
      intro action haction
      cases haction
      exact hkeeps.1

/-- Run rule: at every instant a process follows its program, from its trace; and where
there is no process, nobody has learned anything. -/
theorem running_follows {guard : Request → Trace I → Action I → Prop}
    {post : Request → Trace I → Except ε α → Prop}
    (hkeeps : ∀ request, (program request).Keeps (guard request) (post request) [])
    (choices : List (Choice I Request)) (index : Nat) :
    match ((System.idle world issued : System I Request ε α).run program
        choices).processes[index]? with
    | none =>
        (System.idle world issued : System I Request ε α).trace program index choices = []
    | some process =>
        process.Follows guard post
          ((System.idle world issued : System I Request ε α).trace program index choices) := by
  induction choices using List.reverseRecOn with
  | nil => rfl
  | append_singleton choices choice ih =>
      rw [System.run_snoc, System.trace_snoc]
      generalize (System.idle world issued : System I Request ε α).run program choices = system
        at ih ⊢
      generalize (System.idle world issued : System I Request ε α).trace program index choices =
        trace at ih ⊢
      cases choice with
      | start request =>
          simp only [System.step, System.events, List.append_nil]
          by_cases hold : index < system.processes.length
          · rw [List.getElem?_append_left hold]
            exact ih
          · rw [List.getElem?_eq_none (Nat.le_of_not_lt hold)] at ih
            have hnothing : trace = [] := ih
            rw [List.getElem?_append_right (Nat.le_of_not_lt hold), List.getElem?_singleton,
              hnothing]
            by_cases hnew : index - system.processes.length = 0
            · rw [if_pos hnew]
              exact ⟨hkeeps request, rfl, Guarded.nil⟩
            · rw [if_neg hnew]
      | advance target reply =>
          by_cases hsame : target = index
          · subst hsame
            cases hprocess : system.processes[target]? with
            | none =>
                rw [hprocess] at ih
                have hnothing : trace = [] := ih
                simp [System.step, System.events, hprocess, hnothing]
            | some process =>
                rw [hprocess] at ih
                have hbound := (List.getElem?_eq_some_iff.mp hprocess).1
                have hnext := Process.Follows.advance hprocess ih reply
                simp only [System.step, hprocess]
                rw [List.getElem?_set_self hbound]
                exact hnext
          · have hnothing : system.events index (.advance target reply) = [] := by
              simp [System.events, hsame]
            have hother : (system.step program (.advance target reply)).processes[index]? =
                system.processes[index]? := by
              simp only [System.step]
              split
              · rfl
              · exact List.getElem?_set_ne hsame
            rw [hnothing, List.append_nil, hother]
            exact ih

/-- Run rule for a process of the system. -/
theorem process_follows {guard : Request → Trace I → Action I → Prop}
    {post : Request → Trace I → Except ε α → Prop}
    (hkeeps : ∀ request, (program request).Keeps (guard request) (post request) [])
    {choices : List (Choice I Request)} {index : Nat} {process : Process I Request ε α}
    (hprocess : ((System.idle world issued : System I Request ε α).run program
      choices).processes[index]? = some process) :
    process.Follows guard post
      ((System.idle world issued : System I Request ε α).trace program index choices) := by
  have hfollows := @running_follows I Request ε α _ program world issued guard post hkeeps
    choices index
  rw [hprocess] at hfollows
  exact hfollows

end Runs

section Instants

variable [DecidableEq I.Name] {program : Request → Execution I ε α}
variable {world : World I} {issued : List I.Name}

theorem events_cases (system : System I Request ε α) (index : Nat) (choice : Choice I Request) :
    system.events index choice = [] ∨ ∃ event, system.events index choice = [event] ∧
      ∀ moment, event.instant? = some moment → moment = system.moment := by
  cases choice with
  | start request => exact Or.inl rfl
  | advance target reply =>
      simp only [System.events]
      split
      · exact Or.inl rfl
      · split
        · exact Or.inl rfl
        · split
          · exact Or.inl rfl
          · exact Or.inr ⟨_, rfl, fun moment hmoment => by cases hmoment⟩
          · split
            · exact Or.inl rfl
            · exact Or.inr ⟨_, rfl, fun moment hmoment => by cases hmoment⟩
          · exact Or.inr ⟨_, rfl, fun moment hmoment => by cases hmoment; rfl⟩
          · exact Or.inr ⟨_, rfl, fun moment hmoment => by cases hmoment⟩

/-- The transactions of a trace have instants of their own, all of them past. -/
theorem instants_nodup (choices : List (Choice I Request)) (index : Nat) :
    (((System.idle world issued : System I Request ε α).trace program index choices).filterMap
      Event.instant?).Nodup ∧
    ∀ moment ∈ ((System.idle world issued : System I Request ε α).trace program index
      choices).filterMap Event.instant?, moment < choices.length := by
  induction choices using List.reverseRecOn with
  | nil => exact ⟨List.nodup_nil, by simp [System.trace]⟩
  | append_singleton choices choice ih =>
      rw [System.trace_snoc, List.filterMap_append, List.length_append]
      obtain ⟨hnodup, hpast⟩ := ih
      have hmoment : ((System.idle world issued : System I Request ε α).run program
          choices).moment = choices.length := by
        simp [System.idle]
      rcases events_cases ((System.idle world issued : System I Request ε α).run program choices)
        index choice with hnothing | ⟨event, hevent, hinstant⟩
      · rw [hnothing, List.filterMap_nil, List.append_nil]
        exact ⟨hnodup, fun moment hmem => Nat.lt_add_right _ (hpast moment hmem)⟩
      · rw [hevent, List.filterMap_cons, List.filterMap_nil]
        rw [hmoment] at hinstant
        cases hnow : event.instant? with
        | none =>
            rw [List.append_nil]
            exact ⟨hnodup, fun moment hmem => Nat.lt_add_right _ (hpast moment hmem)⟩
        | some now =>
            obtain rfl := hinstant now hnow
            constructor
            · refine List.nodup_append.mpr ⟨hnodup, List.pairwise_singleton _ _, ?_⟩
              rintro moment hold now hnew rfl
              rw [List.mem_singleton.mp hnew] at hold
              exact Nat.lt_irrefl _ (hpast _ hold)
            · intro moment hmem
              rcases List.mem_append.mp hmem with hold | hnew
              · exact Nat.lt_add_right _ (hpast moment hold)
              · rw [List.mem_singleton.mp hnew]
                exact Nat.lt_succ_self _

/-- A transaction stands once in a trace. -/
theorem instant_notMem_behind {choices : List (Choice I Request)} {index moment : Nat}
    {before rest : Trace I} {event : Event I}
    (htrace : (System.idle world issued : System I Request ε α).trace program index choices =
      before ++ event :: rest) (hinstant : event.instant? = some moment) :
    moment ∉ rest.filterMap Event.instant? := by
  have hnodup := (@instants_nodup I Request ε α _ program world issued choices index).1
  rw [htrace, List.filterMap_append, List.filterMap_cons, hinstant] at hnodup
  exact (List.nodup_cons.mp (List.nodup_append.mp hnodup).2.1).1

/-- A call that a process makes is allowed, and its answer is the next thing in its trace. -/
theorem call_allowed {guard : Request → Trace I → Action I → Prop}
    {post : Request → Trace I → Except ε α → Prop}
    (hkeeps : ∀ request, (program request).Keeps (guard request) (post request) [])
    {choices : List (Choice I Request)} {choice : Choice I Request}
    {process : Process I Request ε α} {called : I.Call}
    (hcall : ((System.idle world issued : System I Request ε α).run program choices).call? choice =
      some (process, called)) :
    ∃ index reply, choice = .advance index reply ∧
      ((System.idle world issued : System I Request ε α).run program choices).processes[index]? =
        some process ∧
      process.Follows guard post
        ((System.idle world issued : System I Request ε α).trace program index choices) ∧
      guard process.request
        ((System.idle world issued : System I Request ε α).trace program index choices)
        (.call called) ∧
      (System.idle world issued : System I Request ε α).trace program index (choices ++ [choice]) =
        (System.idle world issued : System I Request ε α).trace program index choices ++
          [.heard called (reply.answer called)] := by
  cases choice with
  | start request => cases hcall
  | advance index reply =>
      simp only [System.call?] at hcall
      split at hcall
      · cases hcall
      · rename_i found hfound
        split at hcall
        · rename_i asked next hexecution
          cases hcall
          have hfollows := process_follows hkeeps hfound
          have hnode := hfollows.keeps
          rw [hexecution] at hnode
          refine ⟨index, reply, rfl, hfound, hfollows, hnode.1, ?_⟩
          rw [System.trace_snoc]
          simp [System.events, hfound, hexecution]
        · cases hcall

/-- So is a transaction that a process commits. -/
theorem commit_allowed {guard : Request → Trace I → Action I → Prop}
    {post : Request → Trace I → Except ε α → Prop}
    (hkeeps : ∀ request, (program request).Keeps (guard request) (post request) [])
    {choices : List (Choice I Request)} {choice : Choice I Request} {commit : Commit I Request ε α}
    (hcommit : ((System.idle world issued : System I Request ε α).run program choices).commit?
      choice = some commit) :
    ∃ index,
      ((System.idle world issued : System I Request ε α).run program choices).processes[index]? =
        some commit.process ∧
      commit.process.Follows guard post
        ((System.idle world issued : System I Request ε α).trace program index choices) ∧
      guard commit.process.request
        ((System.idle world issued : System I Request ε α).trace program index choices)
        (.commit commit.write) := by
  obtain ⟨_, ⟨next, hexecution⟩, _⟩ := System.commit?_eq_some hcommit
  cases choice with
  | start request => cases hcommit
  | advance index reply =>
      have hprocess := System.commit?_process hcommit
      have hfollows := process_follows hkeeps hprocess
      have hnode := hfollows.keeps
      rw [hexecution] at hnode
      exact ⟨index, hprocess, hfollows, hnode.1⟩

end Instants

end Interleaving
