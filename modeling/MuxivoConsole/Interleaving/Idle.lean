/-
Executions that cannot do anything: as long as the others keep an invariant of the store,
no commit of theirs changes it, whatever they are told and however they are interleaved.
-/
import MuxivoConsole.Interleaving.Discipline

namespace Interleaving

variable {I : Interface} {Request ε α β : Type}

namespace Execution

/-- While `stable` holds, the execution leaves the store as it is, and what it ends with
satisfies `ends`. -/
def Idles (stable : I.Store → Prop) (ends : Except ε α → Prop) : Execution I ε α → Prop
  | done outcome => ends outcome
  | query next => ∀ store, stable store → (next store).Idles stable ends
  | draw next => ∀ name, (next name).Idles stable ends
  | commit write next => ∀ store, stable store →
      match I.apply write store with
      | none => (next none).Idles stable ends
      | some after => after = store ∧ (next (some (I.receipt write store))).Idles stable ends
  | call _ next => ∀ answer, (next answer).Idles stable ends

variable {stable : I.Store → Prop}

/-- Rule of composition. -/
theorem Idles.bind {execution : Execution I ε α} {continuation : α → Execution I ε β}
    {first : Except ε α → Prop} {ends : Except ε β → Prop}
    (hfirst : execution.Idles stable first)
    (hvalue : ∀ value, first (.ok value) → (continuation value).Idles stable ends)
    (herror : ∀ error, first (.error error) → ends (.error error)) :
    (execution >>= continuation).Idles stable ends := by
  change (execution.bind continuation).Idles stable ends
  induction execution with
  | done outcome =>
      cases outcome with
      | ok value => exact hvalue value hfirst
      | error error => exact herror error hfirst
  | query next ih => exact fun store hstore => ih store (hfirst store hstore)
  | draw next ih => exact fun name => ih name (hfirst name)
  | call request next ih => exact fun answer => ih answer (hfirst answer)
  | commit write next ih =>
      intro store hstore
      have hcommit := hfirst store hstore
      cases happly : I.apply write store with
      | none =>
          rw [happly] at hcommit
          exact ih none hcommit
      | some after =>
          rw [happly] at hcommit
          exact ⟨hcommit.1, ih _ hcommit.2⟩

end Execution

section Pool

variable [DecidableEq I.Name] {program : Request → Execution I ε α}
variable {stable : I.Store → Prop} {ends : Except ε α → Prop} {idle : Request → Prop}

/-- The invariant: the store is stable and the chosen processes idle. -/
def System.Idling (idle : Request → Prop) (stable : I.Store → Prop) (ends : Except ε α → Prop)
    (system : System I Request ε α) : Prop :=
  stable system.world.store ∧
    ∀ process ∈ system.processes, idle process.request → process.execution.Idles stable ends

/-- The choice advances one of the chosen processes. -/
def System.AdvancesIdle (idle : Request → Prop) (system : System I Request ε α)
    (choice : Choice I Request) : Prop :=
  ∃ index reply process, choice = .advance index reply ∧
    system.processes[index]? = some process ∧ idle process.request

theorem Process.advance_idles {process : Process I Request ε α} {world : World I}
    (hstable : stable world.store) (hidles : process.execution.Idles stable ends)
    (issued : List I.Name) (moment : Nat) (reply : Reply I) :
    (process.advance world issued moment reply).process.execution.Idles stable ends ∧
      (process.advance world issued moment reply).world.store = world.store := by
  have hadvances := process.advances world issued moment reply
  generalize process.advance world issued moment reply = advanced at hadvances
  cases hadvances with
  | idle => exact ⟨hidles, rfl⟩
  | query hnode =>
      rw [hnode] at hidles
      exact ⟨hidles world.store hstable, rfl⟩
  | draw hnode hfresh =>
      rw [hnode] at hidles
      exact ⟨hidles reply.name, rfl⟩
  | call hnode =>
      rw [hnode] at hidles
      exact ⟨hidles (reply.answer _), rfl⟩
  | refuse hnode happly =>
      rw [hnode] at hidles
      have hcommit := hidles world.store hstable
      rw [happly] at hcommit
      exact ⟨hcommit, rfl⟩
  | commit hnode happly =>
      rw [hnode] at hidles
      have hcommit := hidles world.store hstable
      rw [happly] at hcommit
      exact ⟨hcommit.2, hcommit.1⟩

theorem Process.advance_request (process : Process I Request ε α) (world : World I)
    (issued : List I.Name) (moment : Nat) (reply : Reply I) :
    (process.advance world issued moment reply).process.request = process.request := by
  have hadvances := process.advances world issued moment reply
  generalize process.advance world issued moment reply = advanced at hadvances
  cases hadvances <;> rfl

/-- Step lemma: the invariant is kept by an idle process, and by the others if they keep the
store stable. -/
theorem System.Idling.step {system : System I Request ε α}
    (hprogram : ∀ request, idle request → (program request).Idles stable ends)
    (hidling : system.Idling idle stable ends) (choice : Choice I Request)
    (hstable : stable (system.step program choice).world.store) :
    (system.step program choice).Idling idle stable ends := by
  refine ⟨hstable, ?_⟩
  cases choice with
  | start request =>
      intro process hprocess hidle
      rcases List.mem_append.mp hprocess with hold | hnew
      · exact hidling.2 process hold hidle
      · rw [List.mem_singleton.mp hnew] at hidle ⊢
        exact hprogram request hidle
  | advance index reply =>
      intro other hother hidle
      cases hprocess : system.processes[index]? with
      | none =>
          simp only [System.step, hprocess] at hother
          exact hidling.2 other hother hidle
      | some process =>
          have hmem : process ∈ system.processes := List.mem_of_getElem? hprocess
          simp only [System.step, hprocess] at hother
          rcases List.mem_or_eq_of_mem_set hother with hold | hnew
          · exact hidling.2 other hold hidle
          · rw [hnew, process.advance_request] at hidle
            rw [hnew]
            exact (Process.advance_idles hidling.1 (hidling.2 process hmem hidle) _ _ _).1

/-- An idle process changes nothing. -/
theorem System.Idling.unchanged {system : System I Request ε α}
    (hidling : system.Idling idle stable ends) {choice : Choice I Request}
    (hadvances : system.AdvancesIdle idle choice) :
    (system.step program choice).world.store = system.world.store := by
  obtain ⟨index, reply, process, rfl, hprocess, hidle⟩ := hadvances
  have hmem : process ∈ system.processes := List.mem_of_getElem? hprocess
  simp only [System.step, hprocess]
  exact (Process.advance_idles hidling.1 (hidling.2 process hmem hidle) _ _ _).2

/-- Run lemma: as long as every step keeps the store stable. -/
theorem System.Idling.run {system : System I Request ε α}
    (hprogram : ∀ request, idle request → (program request).Idles stable ends)
    (hidling : system.Idling idle stable ends) (choices : List (Choice I Request))
    (hkeeps : ∀ before choice rest, choices = before ++ choice :: rest →
      stable (system.run program before).world.store →
        stable (system.run program (before ++ [choice])).world.store) :
    (system.run program choices).Idling idle stable ends := by
  induction choices using List.reverseRecOn with
  | nil => exact hidling
  | append_singleton choices choice ih =>
      have hbefore := ih fun before other rest hsplit =>
        hkeeps before other (rest ++ [choice]) (by rw [hsplit]; simp)
      have hstable := hkeeps choices choice [] rfl hbefore.1
      rw [System.run_snoc] at hstable ⊢
      exact hbefore.step hprogram choice hstable

end Pool

end Interleaving
