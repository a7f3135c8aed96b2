/-
Runs in which every execution is whole: nothing starts before everything that
was started has finished.  Such a run is a sequence of programs that each see
the store as the previous one left it, changed only by their own writes.
-/
import MuxivoConsole.Interleaving.Discipline

namespace Interleaving

variable {I : Interface} {Request ε α : Type}

namespace Execution

def Finished : Execution I ε α → Prop
  | done _ => True
  | _ => False

instance : DecidablePred (Finished : Execution I ε α → Prop) := fun execution =>
  match execution with
  | done _ => isTrue trivial
  | query _ => isFalse id
  | draw _ => isFalse id
  | commit _ _ => isFalse id
  | call _ _ => isFalse id

theorem finished_iff {execution : Execution I ε α} :
    execution.Finished ↔ ∃ outcome, execution = .done outcome := by
  cases execution <;> simp [Finished]

/-- What a finished execution ended with. -/
def outcome? : Execution I ε α → Option (Except ε α)
  | done outcome => some outcome
  | _ => none

theorem outcome?_eq_some {execution : Execution I ε α} {outcome : Except ε α} :
    execution.outcome? = some outcome ↔ execution = .done outcome := by
  cases execution <;> simp [outcome?]

end Execution

/-- `Replays start history store`: the program was alone.  Its reads show
`start` as changed by its own writes so far, and `store` is what it leaves. -/
def Replays : I.Store → History I → I.Store → Prop
  | start, [], store => store = start
  | start, .saw _ world :: rest, store => world.store = start ∧ Replays start rest store
  | start, .drew _ :: rest, store => Replays start rest store
  | start, .heard _ _ :: rest, store => Replays start rest store
  | start, .wrote write true :: rest, store =>
      ∃ next, I.apply write start = some next ∧ Replays next rest store
  | start, .wrote write false :: rest, store =>
      I.apply write start = none ∧ Replays start rest store

theorem replays_append {start store : I.Store} {first second : History I} :
    Replays start (first ++ second) store ↔
      ∃ middle, Replays start first middle ∧ Replays middle second store := by
  induction first generalizing start with
  | nil => simp [Replays]
  | cons observation first ih =>
      cases observation with
      | saw moment world => simp [Replays, ih, and_assoc]
      | drew name => simp [Replays, ih]
      | heard request answer => simp [Replays, ih]
      | wrote write saved =>
          cases saved with
          | false => simp [Replays, ih, and_assoc]
          | true =>
              simp only [List.cons_append, Replays, ih]
              constructor
              · rintro ⟨next, happly, middle, hfirst, hsecond⟩
                exact ⟨middle, ⟨next, happly, hfirst⟩, hsecond⟩
              · rintro ⟨middle, ⟨next, happly, hfirst⟩, hsecond⟩
                exact ⟨next, happly, middle, hfirst, hsecond⟩

/-- Alone, a program knows the store from what it read since its last write. -/
theorem Replays.recent {start store : I.Store} {history : History I}
    (hreplays : Replays start history store) :
    ∀ world ∈ recent history, world.store = store := by
  induction history using List.reverseRecOn generalizing store with
  | nil => simp
  | append_singleton history observation ih =>
      obtain ⟨middle, hbefore, hlast⟩ := replays_append.mp hreplays
      cases observation with
      | saw moment world =>
          obtain ⟨hworld, hstore⟩ := hlast
          simp only [Replays] at hstore
          subst hstore
          intro other hother
          rw [recent_saw, List.mem_append, List.mem_singleton] at hother
          rcases hother with hother | rfl
          · exact ih hbefore other hother
          · exact hworld
      | drew name =>
          simp only [Replays] at hlast
          subst hlast
          intro other hother
          exact ih hbefore other (recent_drew history name ▸ hother)
      | heard request answer =>
          simp only [Replays] at hlast
          subst hlast
          intro other hother
          rw [recent_heard] at hother
          exact ih hbefore other hother
      | wrote write saved =>
          cases saved with
          | false =>
              obtain ⟨_, hstore⟩ := hlast
              simp only [Replays] at hstore
              subst hstore
              intro other hother
              exact ih hbefore other (recent_wrote_false history write ▸ hother)
          | true => simp

/-- Without a write, a program alone leaves the store as it was. -/
theorem Replays.quiet {start store : I.Store} {added : History I}
    (hreplays : Replays start added store)
    (hquiet : ∀ write, Observation.wrote write true ∉ added) : store = start := by
  induction added generalizing start with
  | nil => exact hreplays
  | cons observation added ih =>
      have hrest : ∀ write, Observation.wrote write true ∉ added :=
        fun write hmem => hquiet write (List.mem_cons_of_mem _ hmem)
      cases observation with
      | saw moment world => exact ih hreplays.2 hrest
      | drew name => exact ih hreplays hrest
      | heard request answer => exact ih hreplays hrest
      | wrote write saved =>
          cases saved with
          | false => exact ih hreplays.2 hrest
          | true => exact absurd List.mem_cons_self (hquiet write)

/-- An execution that asked for no write has left everything as it was. -/
theorem Quiet.store_eq {start store : I.Store} {history : History I}
    (hquiet : Quiet [] history) (hreplays : Replays start history store) : store = start := by
  obtain ⟨added, rfl, hadded⟩ := hquiet
  exact Replays.quiet hreplays fun write => hadded write true

/-- What one node of work does to a program that runs alone. -/
theorem Replays.advance {process : Process I Request ε α} {world : World I}
    {issued : List I.Name} {moment : Nat} {reply : Reply I}
    {advanced : Advanced I Request ε α} {start : I.Store}
    (hreplays : Replays start process.history world.store)
    (hadvance : Advances process world issued moment reply advanced) :
    Replays start advanced.process.history advanced.world.store := by
  cases hadvance with
  | idle => exact hreplays
  | query hnode => exact replays_append.mpr ⟨_, hreplays, rfl, rfl⟩
  | draw hnode hfresh => exact replays_append.mpr ⟨_, hreplays, rfl⟩
  | refuse hnode happly => exact replays_append.mpr ⟨_, hreplays, happly, rfl⟩
  | commit hnode happly => exact replays_append.mpr ⟨_, hreplays, _, happly, rfl⟩
  | call hnode => exact replays_append.mpr ⟨_, hreplays, rfl⟩

/-- Everything but the latest process has finished, and the latest one ran
alone since it started, from the store that `origin` says was there. -/
def Solo (origin : Nat → I.Store) (system : System I Request ε α) : Prop :=
  ∀ index process, system.processes[index]? = some process →
    (index + 1 < system.processes.length → process.execution.Finished) ∧
      (index + 1 = system.processes.length →
        Replays (origin process.startedAt) process.history system.world.store)

/-- The process that still has something to do ran alone. -/
theorem Solo.replays {origin : Nat → I.Store} {system : System I Request ε α}
    (hsolo : Solo origin system) {process : Process I Request ε α}
    (hprocess : process ∈ system.processes) (hbusy : ¬ process.execution.Finished) :
    Replays (origin process.startedAt) process.history system.world.store := by
  obtain ⟨index, hindex⟩ := List.getElem?_of_mem hprocess
  obtain ⟨hfinished, hlatest⟩ := hsolo index process hindex
  have hbound : index < system.processes.length := (List.getElem?_eq_some_iff.mp hindex).1
  by_cases hlast : index + 1 = system.processes.length
  · exact hlatest hlast
  · exact absurd (hfinished (by omega)) hbusy

theorem Solo.latest {origin : Nat → I.Store} {system : System I Request ε α}
    (hsolo : Solo origin system) {process : Process I Request ε α}
    (hlatest : system.processes.getLast? = some process) :
    Replays (origin process.startedAt) process.history system.world.store := by
  rw [List.getLast?_eq_getElem?] at hlatest
  obtain ⟨hbound, _⟩ := List.getElem?_eq_some_iff.mp hlatest
  exact (hsolo _ process hlatest).2 (by omega)

namespace System

variable [DecidableEq I.Name] {program : Request → Execution I ε α}
variable {system : System I Request ε α} {origin : Nat → I.Store}

theorem solo_start (hfinished : ∀ process ∈ system.processes, process.execution.Finished)
    (horigin : origin system.moment = system.world.store) (request : Request) :
    Solo origin (system.step program (.start request)) := by
  intro index process hindex
  simp only [step, List.getElem?_append] at hindex
  simp only [step, List.length_append, List.length_singleton]
  split at hindex
  · refine ⟨fun _ => hfinished process (List.mem_of_getElem? hindex), fun hlast => ?_⟩
    omega
  · rw [List.getElem?_singleton] at hindex
    split at hindex
    · cases hindex
      exact ⟨fun hlt => by omega, fun _ => horigin.symm⟩
    · cases hindex

theorem solo_advance (hsolo : Solo origin system) (target : Nat) (reply : Reply I) :
    Solo origin (system.step program (.advance target reply)) := by
  simp only [step]
  cases htarget : system.processes[target]? with
  | none => exact hsolo
  | some old =>
      obtain ⟨hfinished, hlatest⟩ := hsolo target old htarget
      have hbound : target < system.processes.length :=
        (List.getElem?_eq_some_iff.mp htarget).1
      have hadvance := old.advances system.world system.issued system.moment reply
      simp only
      generalize old.advance system.world system.issued system.moment reply = advanced
        at hadvance ⊢
      intro index process hindex
      simp only [List.length_set]
      simp only [List.getElem?_set] at hindex
      split at hindex
      · rename_i heq
        subst heq
        cases hindex
        refine ⟨fun hlt => ?_, fun hlast => ?_⟩
        · -- an earlier process has finished, so nothing was advanced
          obtain ⟨outcome, hdone⟩ := Execution.finished_iff.mp (hfinished hlt)
          rw [hadvance.done hdone]
          exact hfinished hlt
        · rw [hadvance.startedAt]
          exact (hlatest hlast).advance hadvance
      · rename_i hne
        obtain ⟨hothers, hother⟩ := hsolo index process hindex
        refine ⟨hothers, fun hlast => ?_⟩
        have hlt : target + 1 < system.processes.length := by omega
        obtain ⟨outcome, hdone⟩ := Execution.finished_iff.mp (hfinished hlt)
        rw [hadvance.done hdone]
        exact hother hlast

/-- The choice starts nothing before everything started has finished. -/
def KeepsWhole (system : System I Request ε α) : Choice I Request → Prop
  | .start _ => ∀ process ∈ system.processes, process.execution.Finished
  | .advance _ _ => True

instance (system : System I Request ε α) (choice : Choice I Request) :
    Decidable (KeepsWhole system choice) :=
  match choice with
  | .start _ =>
      inferInstanceAs (Decidable (∀ process ∈ system.processes, process.execution.Finished))
  | .advance _ _ => isTrue trivial

variable (program) in
/-- Every execution of the run is whole. -/
abbrev Serial : System I Request ε α → List (Choice I Request) → Prop :=
  Along program KeepsWhole

/-- In a serial run every execution is whole. -/
theorem Serial.solo {world : World I} {issued : List I.Name}
    {choices : List (Choice I Request)}
    (hserial : Serial program (System.idle world issued) choices) :
    Solo ((System.idle world issued : System I Request ε α).storeAt program choices)
      ((System.idle world issued : System I Request ε α).run program choices) := by
  induction choices using List.reverseRecOn with
  | nil => simp [Solo, System.idle]
  | append_singleton choices choice ih =>
      obtain ⟨hbefore, hchoice⟩ := (along_snoc _ choices choice).mp hserial
      have hstarted := @saw_storeAt I Request ε α _ program world issued choices
      have hearlier : Solo
          ((System.idle world issued : System I Request ε α).storeAt program
            (choices ++ [choice]))
          ((System.idle world issued : System I Request ε α).run program choices) := by
        intro index process hindex
        rw [storeAt_append _ _ (hstarted process (List.mem_of_getElem? hindex)).1]
        exact ih hbefore index process hindex
      rw [run_snoc]
      cases choice with
      | start request =>
          refine solo_start hchoice ?_ request
          rw [run_moment, System.idle, Nat.zero_add, storeAt_append _ _ (Nat.le_refl _),
            storeAt_length]
      | advance target reply => exact solo_advance hearlier target reply

/-- In a serial run, whatever commits has run alone. -/
theorem Serial.replays {world : World I} {issued : List I.Name}
    {choices : List (Choice I Request)}
    (hserial : Serial program (System.idle world issued) choices)
    {choice : Choice I Request} {commit : Commit I Request ε α}
    (hcommit : ((System.idle world issued : System I Request ε α).run program
      choices).commit? choice = some commit) :
    Replays
      ((System.idle world issued : System I Request ε α).storeAt program choices
        commit.process.startedAt)
      commit.process.history
      ((System.idle world issued : System I Request ε α).run program choices).world.store := by
  obtain ⟨hprocess, ⟨next, hnode⟩, _⟩ := commit?_eq_some hcommit
  refine hserial.solo.replays hprocess ?_
  rw [hnode]
  exact id

end System

end Interleaving
