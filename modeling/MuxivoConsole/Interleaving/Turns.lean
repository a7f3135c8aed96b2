/-
One execution that takes several turns while nothing else does: what it reads is
the same store until it writes, so a program that only reads ends after as many
turns as it has reads, and leaves everything as it was.
-/
import MuxivoConsole.Interleaving.Rollback
import MuxivoConsole.Interleaving.Serial

namespace Interleaving

variable {I : Interface} {Request ε α β : Type}

namespace Execution

/-- With the store for itself, the program reads at most `count` times and ends. -/
def Settles (store : I.Store) : Execution I ε α → Nat → Except ε α → Prop
  | done result, _, outcome => result = outcome
  | query next, count + 1, outcome => (next store).Settles store count outcome
  | _, _, _ => False

section Rules

variable {store : I.Store}

theorem settles_pure (value : α) (count : Nat) :
    (pure value : Execution I ε α).Settles store count (.ok value) := by
  cases count <;> exact rfl

theorem settles_select_bind {read : I.Store → α} {continuation : α → Execution I ε β}
    {count : Nat} {outcome : Except ε β}
    (hrest : (continuation (read store)).Settles store count outcome) :
    (select read >>= continuation).Settles store (count + 1) outcome :=
  hrest

theorem Settles.mono {execution : Execution I ε α} {count more : Nat} {outcome : Except ε α}
    (hsettles : execution.Settles store count outcome) (hmore : count ≤ more) :
    execution.Settles store more outcome := by
  induction execution generalizing count more with
  | done result =>
      cases count <;> cases more <;> exact hsettles
  | query next ih =>
      cases count with
      | zero => exact hsettles.elim
      | succ count =>
          cases more with
          | zero => exact absurd hmore (by omega)
          | succ more => exact ih store hsettles (by omega)
  | draw next ih => cases count <;> exact hsettles.elim
  | commit write next ih => cases count <;> exact hsettles.elim
  | call request next ih => cases count <;> exact hsettles.elim

/-- Rule of composition. -/
theorem Settles.bind {execution : Execution I ε α} {continuation : α → Execution I ε β}
    {first second : Nat} {value : α} {outcome : Except ε β}
    (hfirst : execution.Settles store first (.ok value))
    (hsecond : (continuation value).Settles store second outcome) :
    (execution >>= continuation).Settles store (first + second) outcome := by
  change (execution.bind continuation).Settles store (first + second) outcome
  induction execution generalizing first with
  | done result =>
      have hresult : result = .ok value := by cases first <;> exact hfirst
      subst hresult
      exact hsecond.mono (Nat.le_add_left second first)
  | query next ih =>
      cases first with
      | zero => exact hfirst.elim
      | succ first =>
          rw [Nat.add_right_comm]
          exact ih store hfirst
  | draw next ih => cases first <;> exact hfirst.elim
  | commit write next ih => cases first <;> exact hfirst.elim
  | call request next ih => cases first <;> exact hfirst.elim

end Rules

end Execution

/-- Alone and without a write, a program reads the store it began with. -/
theorem Replays.reads_start {start store : I.Store} {history : History I}
    (hreplays : Replays start history store) (hnone : Uncommitted history) :
    ∀ past ∈ (reads history).map Prod.snd, past = start := by
  induction history generalizing start with
  | nil => simp
  | cons observation history ih =>
      have hrest : Uncommitted history :=
        fun write hmem => hnone write (List.mem_cons_of_mem _ hmem)
      cases observation with
      | saw moment world =>
          intro past hpast
          rcases List.mem_cons.mp hpast with rfl | hpast
          · exact hreplays.1
          · exact ih hreplays.2 hrest past hpast
      | drew name => exact ih hreplays hrest
      | heard request answer => exact ih hreplays hrest
      | wrote write saved =>
          cases saved with
          | false => exact ih hreplays.2 hrest
          | true => exact absurd List.mem_cons_self (hnone write)

namespace System

/-- Only this process takes turns. -/
def turns (index : Nat) (replies : List (Reply I)) : List (Choice I Request) :=
  replies.map (.advance index)

variable [DecidableEq I.Name] {program : Request → Execution I ε α}

/-- Induction over the turns of one process. -/
theorem turns_induction {P : Process I Request ε α → World I → Prop}
    (hadvance : ∀ process world issued moment reply advanced, P process world →
      Advances process world issued moment reply advanced → P advanced.process advanced.world)
    {system : System I Request ε α} {index : Nat} {process : Process I Request ε α}
    (hprocess : system.processes[index]? = some process) (hstart : P process system.world)
    (replies : List (Reply I)) :
    ∃ last, (system.run program (turns index replies)).processes[index]? = some last ∧
      P last (system.run program (turns index replies)).world := by
  induction replies generalizing system process with
  | nil => exact ⟨process, hprocess, hstart⟩
  | cons reply replies ih =>
      rw [turns, List.map_cons, run_cons]
      have hnext := process.advances system.world system.issued system.moment reply
      have hbound := (List.getElem?_eq_some_iff.mp hprocess).1
      have hindex : (system.step program (.advance index reply)).processes[index]? =
          some (process.advance system.world system.issued system.moment reply).process := by
        simp only [step, hprocess]
        exact List.getElem?_set_self hbound
      apply ih hindex
      simp only [step, hprocess]
      exact hadvance process system.world _ _ reply _ hstart hnext

/-- A request that starts is the last process, and has done nothing. -/
theorem started_getElem (system : System I Request ε α) (request : Request) :
    (system.step program (.start request)).processes[system.processes.length]? =
      some ⟨request, system.moment, [], program request⟩ := by
  simp [step]

/-- A program that only reads ends in that many turns, and nothing has changed. -/
theorem turns_settle {system : System I Request ε α} {index : Nat}
    {process : Process I Request ε α} (hprocess : system.processes[index]? = some process)
    {count : Nat} {outcome : Except ε α}
    (hsettles : process.execution.Settles system.world.store count outcome)
    {replies : List (Reply I)} (hcount : count ≤ replies.length) :
    ∃ last, (system.run program (turns index replies)).processes[index]? = some last ∧
      last.execution = .done outcome ∧
        (system.run program (turns index replies)).world = system.world := by
  induction replies generalizing system process count with
  | nil =>
      have hzero : count = 0 := by simpa using hcount
      subst hzero
      refine ⟨process, hprocess, ?_, rfl⟩
      cases hexecution : process.execution with
      | done result =>
          rw [hexecution] at hsettles
          exact congrArg _ hsettles
      | query next | draw next | commit write next | call request next =>
          rw [hexecution] at hsettles
          exact hsettles.elim
  | cons reply replies ih =>
      rw [turns, List.map_cons, run_cons]
      have hbound := (List.getElem?_eq_some_iff.mp hprocess).1
      cases hexecution : process.execution with
      | done result =>
          rw [hexecution] at hsettles
          have hsame : (system.step program (.advance index reply)).processes[index]? =
              some process := by
            simp only [step, hprocess, Process.advance, hexecution]
            exact List.getElem?_set_self hbound
          have hworld : (system.step program (.advance index reply)).world = system.world := by
            simp only [step, hprocess, Process.advance, hexecution]
          have hdone : process.execution.Settles
              (system.step program (.advance index reply)).world.store 0 outcome := by
            rw [hexecution]
            cases count <;> exact hsettles
          obtain ⟨last, hlast, houtcome, hkept⟩ := ih hsame hdone (Nat.zero_le _)
          exact ⟨last, hlast, houtcome, hkept.trans hworld⟩
      | query next =>
          rw [hexecution] at hsettles
          cases count with
          | zero => exact hsettles.elim
          | succ count =>
              have hworld : (system.step program (.advance index reply)).world =
                  system.world := by
                simp only [step, hprocess, Process.advance, hexecution]
              have hnext : (system.step program (.advance index reply)).processes[index]? =
                  some { process with
                    history := process.history ++ [.saw system.moment system.world]
                    execution := next system.world.store } := by
                simp only [step, hprocess, Process.advance, hexecution]
                exact List.getElem?_set_self hbound
              rw [List.length_cons] at hcount
              have hrest : (next system.world.store).Settles
                  (system.step program (.advance index reply)).world.store count outcome := by
                rw [hworld]
                exact hsettles
              obtain ⟨last, hlast, houtcome, hkept⟩ := ih hnext hrest (by omega)
              exact ⟨last, hlast, houtcome, hkept.trans hworld⟩
      | draw next | commit write next | call request next =>
          rw [hexecution] at hsettles
          cases count <;> exact hsettles.elim

/-- A process that has just started and takes its turns alone ends as its program
promises of a program alone. -/
theorem turns_solo {guard : History I → Action I → Prop}
    {post : History I → Except ε α → Prop} {system : System I Request ε α} {index : Nat}
    {process : Process I Request ε α} (hprocess : system.processes[index]? = some process)
    (hmeets : process.execution.Meets guard post process.history)
    (hnew : process.history = []) (replies : List (Reply I)) :
    ∃ last, (system.run program (turns index replies)).processes[index]? = some last ∧
      (∀ outcome, last.execution = .done outcome → post last.history outcome) ∧
        Replays system.world.store last.history
          (system.run program (turns index replies)).world.store := by
  have hadvance : ∀ (process : Process I Request ε α) world issued moment reply advanced,
      (process.execution.Meets guard post process.history ∧
        Replays system.world.store process.history world.store) →
      Advances process world issued moment reply advanced →
        advanced.process.execution.Meets guard post advanced.process.history ∧
          Replays system.world.store advanced.process.history advanced.world.store :=
    fun process world _ _ _ _ hbefore hadvance =>
      ⟨hbefore.1.advance hadvance, hbefore.2.advance hadvance⟩
  obtain ⟨last, hlast, hlastMeets, hreplays⟩ := turns_induction hadvance hprocess
    ⟨hmeets, by rw [hnew]; rfl⟩ replies
  refine ⟨last, hlast, ?_, hreplays⟩
  intro outcome hdone
  rw [hdone] at hlastMeets
  exact hlastMeets

/-- A request that starts now and takes its turns alone. -/
theorem alone_settle (system : System I Request ε α) {request : Request} {count : Nat}
    {outcome : Except ε α}
    (hsettles : (program request).Settles system.world.store count outcome)
    {replies : List (Reply I)} (hcount : count ≤ replies.length) :
    ∃ last, (system.run program (.start request ::
        turns system.processes.length replies)).processes[system.processes.length]? =
          some last ∧
      last.execution = .done outcome ∧
        (system.run program (.start request ::
          turns system.processes.length replies)).world = system.world :=
  turns_settle (system.started_getElem request) hsettles hcount

theorem alone_solo {guard : History I → Action I → Prop}
    {post : History I → Except ε α → Prop} (system : System I Request ε α)
    {request : Request} (hmeets : (program request).Meets guard post [])
    (replies : List (Reply I)) :
    ∃ last, (system.run program (.start request ::
        turns system.processes.length replies)).processes[system.processes.length]? =
          some last ∧
      (∀ outcome, last.execution = .done outcome → post last.history outcome) ∧
        Replays system.world.store last.history
          (system.run program (.start request ::
            turns system.processes.length replies)).world.store :=
  turns_solo (system.started_getElem request) hmeets rfl replies

/-- A write that stands in a history as saved was committed by some step of the run. -/
theorem wrote_committed {world : World I} {issued : List I.Name}
    (choices : List (Choice I Request)) :
    ∀ process ∈ ((System.idle world issued : System I Request ε α).run program
        choices).processes, ∀ write, Observation.wrote write true ∈ process.history →
      ∃ before choice rest commit, choices = before ++ choice :: rest ∧
        ((System.idle world issued : System I Request ε α).run program before).commit? choice =
            some commit ∧ commit.write = write := by
  have hkeep : ∀ choices choice (process : Process I Request ε α),
      (∀ write, Observation.wrote write true ∈ process.history →
        ∃ before choice rest commit, choices = before ++ choice :: rest ∧
          ((System.idle world issued : System I Request ε α).run program before).commit?
              choice = some commit ∧ commit.write = write) →
      ∀ write, Observation.wrote write true ∈ process.history →
        ∃ before choice' rest commit, choices ++ [choice] = before ++ choice' :: rest ∧
          ((System.idle world issued : System I Request ε α).run program before).commit?
              choice' = some commit ∧ commit.write = write := by
    intro choices choice process hprocess write hwrote
    obtain ⟨before, earlier, rest, commit, hsplit, hcommit⟩ := hprocess write hwrote
    exact ⟨before, earlier, rest ++ [choice], commit, by simp [hsplit], hcommit⟩
  refine processes_induction ?_ hkeep ?_ choices
  · intro choices request write hwrote
    cases hwrote
  · intro choices index reply process advanced hindex hprocess hadvance
    have hlater := hkeep choices (.advance index reply) process hprocess
    intro write hwrote
    cases hadvance with
    | idle => exact hlater write hwrote
    | query hnode => exact hlater write (by simpa using hwrote)
    | draw hnode hfresh => exact hlater write (by simpa using hwrote)
    | refuse hnode happly => exact hlater write (by simpa using hwrote)
    | call hnode => exact hlater write (by simpa using hwrote)
    | @commit asked next store hnode happly =>
        rcases List.mem_append.mp hwrote with hold | hnew
        · exact hlater write hold
        · cases List.mem_singleton.mp hnew
          refine ⟨choices, .advance index reply, [], ⟨process, write, store⟩, rfl, ?_, rfl⟩
          simp only [commit?, hindex, hnode, happly, Option.map_some]

end System

end Interleaving
