/-
A pool of executions over one store, advanced one transaction at a time in any
order.  The proof rule of this module is rely and guarantee: each program is
verified once against a discipline, and the discipline then holds of every
state that any interleaving of any number of runs of the programs reaches.
-/
import MuxivoConsole.Interleaving.Execution

namespace Interleaving

variable {I : Interface} {Request ε α : Type}

instance [DecidableEq I.Name] : LawfulBEq I.Name :=
  inferInstance

/-- One started execution: what it was asked, when, what it did so far and
what remains to be done. -/
structure Process (I : Interface) (Request ε α : Type) where
  request : Request
  startedAt : Nat
  history : History I
  execution : Execution I ε α

/-- What the environment contributes to one step: the name a generator would
return and the answer an outside service would give. -/
structure Reply (I : Interface) where
  name : I.Name
  answer : (request : I.Call) → I.Answer request

/-- `issued` lists the names generated so far: a generator never repeats one. -/
structure System (I : Interface) (Request ε α : Type) where
  world : World I
  issued : List I.Name
  moment : Nat
  processes : List (Process I Request ε α)

/-- The scheduler's choice at one instant. -/
inductive Choice (I : Interface) (Request : Type) where
  | start (request : Request)
  | advance (index : Nat) (reply : Reply I)

/-- A system with nothing started yet. -/
def System.idle (world : World I) (issued : List I.Name) : System I Request ε α :=
  ⟨world, issued, 0, []⟩

/-- What one transaction of one process leaves behind. -/
structure Advanced (I : Interface) (Request ε α : Type) where
  process : Process I Request ε α
  world : World I
  issued : List I.Name

namespace Process

variable [DecidableEq I.Name]

/-- Let a process do its next node of work.  A finished process stays as it
is, and a name that was issued before is not offered again. -/
def advance (process : Process I Request ε α) (world : World I)
    (issued : List I.Name) (moment : Nat) (reply : Reply I) : Advanced I Request ε α :=
  match process.execution with
  | .done _ => ⟨process, world, issued⟩
  | .query next =>
      ⟨{ process with
          history := process.history ++ [.saw moment world]
          execution := next world.store }, world, issued⟩
  | .draw next =>
      if reply.name ∈ issued then ⟨process, world, issued⟩
      else
        ⟨{ process with
            history := process.history ++ [.drew reply.name]
            execution := next reply.name }, world, reply.name :: issued⟩
  | .commit write next =>
      match I.apply write world.store with
      | none =>
          ⟨{ process with
              history := process.history ++ [.wrote write false]
              execution := next none }, world, issued⟩
      | some store =>
          ⟨{ process with
              history := process.history ++ [.wrote write true]
              execution := next (some (I.receipt write world.store)) },
            ⟨store, held process.history ++ world.spent⟩, issued⟩
  | .call request next =>
      ⟨{ process with
          history := process.history ++ [.heard request (reply.answer request)]
          execution := next (reply.answer request) }, world, issued⟩

end Process

/-- A write that is about to commit, with the process that asks for it and the
store it will leave. -/
structure Commit (I : Interface) (Request ε α : Type) where
  process : Process I Request ε α
  write : I.Write
  after : I.Store

namespace System

section Steps

variable [DecidableEq I.Name]
variable (program : Request → Execution I ε α)

/-- One instant of the system. -/
def step (system : System I Request ε α) : Choice I Request → System I Request ε α
  | .start request =>
      { system with
        moment := system.moment + 1
        processes := system.processes ++ [⟨request, system.moment, [], program request⟩] }
  | .advance index reply =>
      match system.processes[index]? with
      | none => { system with moment := system.moment + 1 }
      | some process =>
          let advanced := process.advance system.world system.issued system.moment reply
          { world := advanced.world
            issued := advanced.issued
            moment := system.moment + 1
            processes := system.processes.set index advanced.process }

/-- The state after a list of choices. -/
def run (system : System I Request ε α) (choices : List (Choice I Request)) :
    System I Request ε α :=
  choices.foldl (step program) system

/-- `property` holds at every step of the run, before the step is taken. -/
def Along (property : System I Request ε α → Choice I Request → Prop) :
    System I Request ε α → List (Choice I Request) → Prop
  | _, [] => True
  | system, choice :: rest =>
      property system choice ∧ Along property (step program system choice) rest

instance decidableAlong {property : System I Request ε α → Choice I Request → Prop}
    [∀ system choice, Decidable (property system choice)] :
    ∀ (system : System I Request ε α) (choices : List (Choice I Request)),
      Decidable (Along program property system choices)
  | _, [] => isTrue trivial
  | system, choice :: rest =>
      @instDecidableAnd _ _ _ (decidableAlong (step program system choice) rest)

/-- The store the system had at an instant of a run. -/
def storeAt (system : System I Request ε α) (choices : List (Choice I Request))
    (moment : Nat) : I.Store :=
  (system.run program (choices.take moment)).world.store

end Steps

/-- The write that the choice commits, if it commits one. -/
def commit? (system : System I Request ε α) :
    Choice I Request → Option (Commit I Request ε α)
  | .start _ => none
  | .advance index _ =>
      match system.processes[index]? with
      | none => none
      | some process =>
          match process.execution with
          | .commit write _ => (I.apply write system.world.store).map (⟨process, write, ·⟩)
          | _ => none

/-- The outside call that the choice makes, if it makes one. -/
def call? (system : System I Request ε α) :
    Choice I Request → Option (Process I Request ε α × I.Call)
  | .start _ => none
  | .advance index _ =>
      match system.processes[index]? with
      | none => none
      | some process =>
          match process.execution with
          | .call request _ => some (process, request)
          | _ => none

/-- The process whose read the choice makes, if it makes one. -/
def query? (system : System I Request ε α) :
    Choice I Request → Option (Process I Request ε α)
  | .start _ => none
  | .advance index _ =>
      match system.processes[index]? with
      | none => none
      | some process =>
          match process.execution with
          | .query _ => some process
          | _ => none

/-- A property of every step of a list of choices and of the choices before it. -/
def EveryStep {κ : Type} (property : List κ → κ → Prop) (choices : List κ) : Prop :=
  ∀ before choice rest, choices = before ++ choice :: rest → property before choice

/-- The first part of a list of choices has the property too. -/
theorem EveryStep.first {κ : Type} {property : List κ → κ → Prop} {first second : List κ}
    (hevery : EveryStep property (first ++ second)) : EveryStep property first := by
  intro before choice rest hsplit
  exact hevery before choice (rest ++ second) (by simp [hsplit])

theorem everyStep_iff {κ : Type} {property : List κ → κ → Prop} {choices : List κ} :
    EveryStep property choices ↔
      ∀ index : Fin choices.length, property (choices.take index) (choices.get index) := by
  constructor
  · intro hevery index
    refine hevery _ _ (choices.drop (index + 1)) ?_
    rw [List.get_eq_getElem, List.getElem_cons_drop, List.take_append_drop]
  · intro hall before choice rest hsplit
    have hbound : before.length < choices.length := by simp [hsplit]
    have hindex := hall ⟨before.length, hbound⟩
    simp only [hsplit, List.get_eq_getElem, List.take_left', List.getElem_append_right,
      Nat.le_refl, Nat.sub_self, List.getElem_cons_zero] at hindex
    exact hindex

instance {κ : Type} {property : List κ → κ → Prop}
    [∀ before choice, Decidable (property before choice)] (choices : List κ) :
    Decidable (EveryStep property choices) :=
  decidable_of_iff _ everyStep_iff.symm

section Runs

variable [DecidableEq I.Name]

/-- Everything that a run commits, oldest first. -/
def commits (program : Request → Execution I ε α) :
    System I Request ε α → List (Choice I Request) → List (Commit I Request ε α)
  | _, [] => []
  | system, choice :: rest =>
      (system.commit? choice).toList ++ commits program (system.step program choice) rest

variable {program : Request → Execution I ε α}

@[simp] theorem run_nil (system : System I Request ε α) : system.run program [] = system :=
  rfl

@[simp] theorem run_cons (system : System I Request ε α) (choice : Choice I Request)
    (rest : List (Choice I Request)) :
    system.run program (choice :: rest) = (system.step program choice).run program rest :=
  rfl

theorem run_append (system : System I Request ε α)
    (first second : List (Choice I Request)) :
    system.run program (first ++ second) = (system.run program first).run program second :=
  List.foldl_append

@[simp] theorem run_snoc (system : System I Request ε α)
    (choices : List (Choice I Request)) (choice : Choice I Request) :
    system.run program (choices ++ [choice]) =
      (system.run program choices).step program choice := by
  simp [run_append]

/-- Time passes by one at every choice, effective or not. -/
@[simp] theorem step_moment (system : System I Request ε α) (choice : Choice I Request) :
    (system.step program choice).moment = system.moment + 1 := by
  cases choice with
  | start request => rfl
  | advance index reply =>
      simp only [step]
      split <;> rfl

@[simp] theorem run_moment (system : System I Request ε α)
    (choices : List (Choice I Request)) :
    (system.run program choices).moment = system.moment + choices.length := by
  induction choices generalizing system with
  | nil => simp
  | cons choice rest ih => simp [ih, Nat.add_assoc, Nat.add_comm 1]

/-- A property of every step is a property of the step after every prefix. -/
theorem along_iff {property : System I Request ε α → Choice I Request → Prop}
    (system : System I Request ε α) (choices : List (Choice I Request)) :
    Along program property system choices ↔
      ∀ before choice rest, choices = before ++ choice :: rest →
        property (system.run program before) choice := by
  induction choices generalizing system with
  | nil => simp [Along]
  | cons head tail ih =>
      simp only [Along, ih]
      constructor
      · rintro ⟨hhead, htail⟩ before choice rest hsplit
        cases before with
        | nil =>
            simp only [List.nil_append, List.cons.injEq] at hsplit
            rw [← hsplit.1]
            exact hhead
        | cons first before =>
            simp only [List.cons_append, List.cons.injEq] at hsplit
            rw [← hsplit.1]
            exact htail before choice rest hsplit.2
      · intro hall
        refine ⟨hall [] head tail rfl, ?_⟩
        intro before choice rest hsplit
        exact hall (head :: before) choice rest (by rw [hsplit]; rfl)

theorem along_append {property : System I Request ε α → Choice I Request → Prop}
    (system : System I Request ε α) (first second : List (Choice I Request)) :
    Along program property system (first ++ second) ↔
      Along program property system first ∧
        Along program property (system.run program first) second := by
  induction first generalizing system with
  | nil => simp [Along]
  | cons head tail ih => simp [Along, ih, and_assoc]

theorem along_snoc {property : System I Request ε α → Choice I Request → Prop}
    (system : System I Request ε α) (choices : List (Choice I Request))
    (choice : Choice I Request) :
    Along program property system (choices ++ [choice]) ↔
      Along program property system choices ∧ property (system.run program choices) choice := by
  simp [along_append, Along]

theorem Along.mono {first second : System I Request ε α → Choice I Request → Prop}
    (himp : ∀ system choice, first system choice → second system choice)
    {system : System I Request ε α} {choices : List (Choice I Request)}
    (hfirst : Along program first system choices) : Along program second system choices := by
  induction choices generalizing system with
  | nil => trivial
  | cons choice rest ih => exact ⟨himp system choice hfirst.1, ih hfirst.2⟩

/-- Two properties that agree on every state that is reached. -/
theorem along_congr {first second : System I Request ε α → Choice I Request → Prop}
    (system : System I Request ε α) (choices : List (Choice I Request))
    (hcongr : ∀ before choice, first (system.run program before) choice ↔
      second (system.run program before) choice) :
    Along program first system choices ↔ Along program second system choices := by
  induction choices using List.reverseRecOn with
  | nil => simp [Along]
  | append_singleton choices choice ih => rw [along_snoc, along_snoc, ih, hcongr]

/-- What a longer run does later leaves the stores of the past alone. -/
theorem storeAt_append (system : System I Request ε α)
    {first : List (Choice I Request)} (second : List (Choice I Request)) {moment : Nat}
    (hmoment : moment ≤ first.length) :
    system.storeAt program (first ++ second) moment = system.storeAt program first moment := by
  rw [storeAt, List.take_append_of_le_length hmoment, storeAt]

@[simp] theorem storeAt_length (system : System I Request ε α)
    (choices : List (Choice I Request)) :
    system.storeAt program choices choices.length =
      (system.run program choices).world.store := by
  rw [storeAt, List.take_length]

/-- Only a commit changes the store. -/
theorem step_store (system : System I Request ε α) (choice : Choice I Request) :
    (system.step program choice).world.store =
      ((system.commit? choice).map Commit.after).getD system.world.store := by
  cases choice with
  | start request => rfl
  | advance index reply =>
      simp only [step, commit?]
      cases hprocess : system.processes[index]? with
      | none => rfl
      | some process =>
          cases hexecution : process.execution with
          | done outcome => simp [Process.advance, hexecution]
          | query next => simp [Process.advance, hexecution]
          | draw next =>
              simp only [Process.advance, hexecution]
              split <;> rfl
          | commit write next =>
              cases happly : I.apply write system.world.store <;>
                simp [Process.advance, hexecution, happly]
          | call request next => simp [Process.advance, hexecution]

theorem step_store_of_commit {system : System I Request ε α} {choice : Choice I Request}
    {commit : Commit I Request ε α} (hcommit : system.commit? choice = some commit) :
    (system.step program choice).world.store = commit.after := by
  simp [step_store, hcommit]

/-- Between an instant at which a property of the store fails and a later one at
which it holds, some step commits and makes it hold. -/
theorem exists_commit_between {property : I.Store → Prop} (system : System I Request ε α)
    (choices : List (Choice I Request)) {first last : Nat} (hle : first ≤ last)
    (hlast : last ≤ choices.length) (hfails : ¬ property (system.storeAt program choices first))
    (hholds : property (system.storeAt program choices last)) :
    ∃ moment choice commit, first ≤ moment ∧ moment < last ∧ choices[moment]? = some choice ∧
      (system.run program (choices.take moment)).commit? choice = some commit ∧
        ¬ property (system.storeAt program choices moment) ∧ property commit.after := by
  induction last, hle using Nat.le_induction with
  | base => exact absurd hholds hfails
  | succ last hle ih =>
      by_cases hearlier : property (system.storeAt program choices last)
      · obtain ⟨moment, choice, commit, hfrom, hto, hrest⟩ := ih (by omega) hearlier
        exact ⟨moment, choice, commit, hfrom, by omega, hrest⟩
      · have hbound : last < choices.length := by omega
        have htake : choices.take (last + 1) = choices.take last ++ [choices[last]] :=
          List.take_succ_eq_append_getElem hbound
        rw [storeAt, htake, run_snoc, step_store] at hholds
        cases hcommit : (system.run program (choices.take last)).commit? choices[last] with
        | none =>
            rw [hcommit] at hholds
            exact absurd hholds hearlier
        | some commit =>
            rw [hcommit] at hholds
            exact ⟨last, choices[last], commit, hle, Nat.lt_succ_self last,
              List.getElem?_eq_getElem hbound, hcommit, hearlier, hholds⟩

theorem step_store_of_no_commit {system : System I Request ε α}
    {choice : Choice I Request} (hcommit : system.commit? choice = none) :
    (system.step program choice).world.store = system.world.store := by
  simp [step_store, hcommit]

end Runs

section Stores

variable [DecidableEq I.Name] {program : Request → Execution I ε α}

/-- Induction over runs for what holds of the store: every commit keeps it. -/
theorem stores_induction {P : I.Store → Prop} (system : System I Request ε α)
    (hstart : P system.world.store)
    (hcommit : ∀ before choice commit, (system.run program before).commit? choice = some commit →
      P (system.run program before).world.store → P commit.after)
    (choices : List (Choice I Request)) : P (system.run program choices).world.store := by
  induction choices using List.reverseRecOn with
  | nil => exact hstart
  | append_singleton choices choice ih =>
      rw [run_snoc]
      cases hwrite : (system.run program choices).commit? choice with
      | none => rwa [step_store_of_no_commit hwrite]
      | some commit =>
          rw [step_store_of_commit hwrite]
          exact hcommit choices choice commit hwrite ih

end Stores

section Commits

variable [DecidableEq I.Name] {program : Request → Execution I ε α}

theorem commits_append (system : System I Request ε α)
    (first second : List (Choice I Request)) :
    system.commits program (first ++ second) =
      system.commits program first ++ (system.run program first).commits program second := by
  induction first generalizing system with
  | nil => rfl
  | cons choice rest ih => simp [commits, ih]

theorem commits_snoc (system : System I Request ε α) (choices : List (Choice I Request))
    (choice : Choice I Request) :
    system.commits program (choices ++ [choice]) =
      system.commits program choices ++
        ((system.run program choices).commit? choice).toList := by
  simp [commits_append, commits]

/-- A kind of commit that happens at most once: it finds the store unused and
leaves it used, and nothing makes it unused again. -/
theorem countP_commits_le_one {used : I.Store → Prop}
    {kind : Commit I Request ε α → Bool} (system : System I Request ε α)
    (choices : List (Choice I Request))
    (hkeeps : ∀ before choice commit, (system.run program before).commit? choice = some commit →
      used (system.run program before).world.store → used commit.after)
    (huses : ∀ before choice commit, (system.run program before).commit? choice = some commit →
      kind commit = true →
        ¬ used (system.run program before).world.store ∧ used commit.after) :
    (system.commits program choices).countP kind ≤ 1 ∧
      (¬ used (system.run program choices).world.store →
        (system.commits program choices).countP kind = 0) := by
  induction choices using List.reverseRecOn with
  | nil => exact ⟨Nat.zero_le 1, fun _ => rfl⟩
  | append_singleton choices choice ih =>
      obtain ⟨hmost, hnone⟩ := ih
      rw [run_snoc, commits_snoc, List.countP_append]
      cases hcommit : (system.run program choices).commit? choice with
      | none =>
          rw [step_store_of_no_commit hcommit]
          exact ⟨hmost, hnone⟩
      | some commit =>
          rw [step_store_of_commit hcommit]
          have hbefore := hkeeps choices choice commit hcommit
          by_cases hkind : kind commit = true
          · obtain ⟨hunused, hused⟩ := huses choices choice commit hcommit hkind
            have hzero := hnone hunused
            exact ⟨by simp [hkind, hzero], fun hnot => absurd hused hnot⟩
          · have hsame : ((some commit).toList).countP kind = 0 := by simp [hkind]
            rw [hsame, Nat.add_zero]
            exact ⟨hmost, fun hnot => hnone fun hused => hnot (hbefore hused)⟩

end Commits

section Changes

variable [DecidableEq I.Name]

/-- Everything that a run commits, each with the store that it finds, oldest first. -/
def changes (program : Request → Execution I ε α) :
    System I Request ε α → List (Choice I Request) → List (I.Store × Commit I Request ε α)
  | _, [] => []
  | system, choice :: rest =>
      ((system.commit? choice).map (system.world.store, ·)).toList ++
        changes program (system.step program choice) rest

variable {program : Request → Execution I ε α}

theorem changes_append (system : System I Request ε α)
    (first second : List (Choice I Request)) :
    system.changes program (first ++ second) =
      system.changes program first ++ (system.run program first).changes program second := by
  induction first generalizing system with
  | nil => rfl
  | cons choice rest ih => simp [changes, ih]

/-- What a step commits is among the changes of every run that takes the step. -/
theorem mem_changes (system : System I Request ε α) {before : List (Choice I Request)}
    {choice : Choice I Request} {commit : Commit I Request ε α}
    (hcommit : (system.run program before).commit? choice = some commit)
    (rest : List (Choice I Request)) :
    ((system.run program before).world.store, commit) ∈
      system.changes program (before ++ choice :: rest) := by
  rw [changes_append, changes, hcommit]
  exact List.mem_append_right _ (List.mem_append_left _ List.mem_cons_self)

/-- The same for the changes since an earlier instant. -/
theorem mem_changes_since (system : System I Request ε α) {before : List (Choice I Request)}
    {choice : Choice I Request} {commit : Commit I Request ε α}
    (hcommit : (system.run program before).commit? choice = some commit)
    (rest : List (Choice I Request)) {moment : Nat} (hmoment : moment ≤ before.length) :
    ((system.run program before).world.store, commit) ∈
      (system.run program ((before ++ choice :: rest).take moment)).changes program
        ((before ++ choice :: rest).drop moment) := by
  have hwhole : (system.run program (before.take moment)).run program (before.drop moment) =
      system.run program before := by
    rw [← run_append, List.take_append_drop]
  rw [List.take_append_of_le_length hmoment, List.drop_append_of_le_length hmoment]
  rw [← hwhole] at hcommit ⊢
  exact mem_changes _ hcommit rest

theorem changes_snoc (system : System I Request ε α) (choices : List (Choice I Request))
    (choice : Choice I Request) :
    system.changes program (choices ++ [choice]) =
      system.changes program choices ++
        (((system.run program choices).commit? choice).map
          ((system.run program choices).world.store, ·)).toList := by
  simp [changes_append, changes]

/-- Without changes of a kind, a run keeps whatever all other changes keep. -/
theorem store_of_changes {P : I.Store → Prop} {kind : I.Store × Commit I Request ε α → Bool}
    (system : System I Request ε α) (hstart : P system.world.store)
    (choices : List (Choice I Request))
    (hcommit : ∀ before choice commit, (system.run program before).commit? choice = some commit →
      kind ((system.run program before).world.store, commit) = false →
        P (system.run program before).world.store → P commit.after)
    (hnone : ∀ change ∈ system.changes program choices, kind change = false) :
    P (system.run program choices).world.store := by
  induction choices using List.reverseRecOn with
  | nil => exact hstart
  | append_singleton choices choice ih =>
      rw [changes_snoc] at hnone
      have hearlier := ih fun change hchange => hnone change (List.mem_append_left _ hchange)
      rw [run_snoc]
      cases hwrite : (system.run program choices).commit? choice with
      | none => rwa [step_store_of_no_commit hwrite]
      | some commit =>
          rw [step_store_of_commit hwrite]
          refine hcommit choices choice commit hwrite (hnone _ ?_) hearlier
          rw [hwrite]
          exact List.mem_append_right _ List.mem_cons_self

/-- Two kinds of change and a quantity of the store: one kind uses it up and only the
other one brings more of it. -/
theorem countP_changes_le {potential : I.Store → Nat}
    {spends earns : I.Store × Commit I Request ε α → Bool} (system : System I Request ε α)
    (choices : List (Choice I Request))
    (hstep : ∀ before choice commit, (system.run program before).commit? choice = some commit →
      potential commit.after +
          (spends ((system.run program before).world.store, commit)).toNat ≤
        potential (system.run program before).world.store +
          (earns ((system.run program before).world.store, commit)).toNat) :
    (system.changes program choices).countP spends +
        potential (system.run program choices).world.store ≤
      potential system.world.store + (system.changes program choices).countP earns := by
  induction choices using List.reverseRecOn with
  | nil => simp [changes]
  | append_singleton choices choice ih =>
      rw [run_snoc, changes_snoc, List.countP_append, List.countP_append]
      cases hcommit : (system.run program choices).commit? choice with
      | none =>
          rw [step_store_of_no_commit hcommit]
          simpa using ih
      | some commit =>
          rw [step_store_of_commit hcommit]
          have hone := hstep choices choice commit hcommit
          have hcount : ∀ kind : I.Store × Commit I Request ε α → Bool,
              (((some commit).map
                ((system.run program choices).world.store, ·)).toList).countP kind =
                  (kind ((system.run program choices).world.store, commit)).toNat := by
            intro kind
            cases hkind : kind ((system.run program choices).world.store, commit) <;>
              simp [hkind]
          rw [hcount, hcount]
          omega

end Changes

/-- Inversion of a commit: it is the next node of a process of the pool, and
its transaction goes through. -/
theorem commit?_eq_some {system : System I Request ε α} {choice : Choice I Request}
    {commit : Commit I Request ε α} (hcommit : system.commit? choice = some commit) :
    commit.process ∈ system.processes ∧
      (∃ next, commit.process.execution = .commit commit.write next) ∧
      I.apply commit.write system.world.store = some commit.after := by
  cases choice with
  | start request => simp [commit?] at hcommit
  | advance index reply =>
      simp only [commit?] at hcommit
      split at hcommit
      · simp at hcommit
      · rename_i process hprocess
        split at hcommit
        · rename_i write next hexecution
          simp only [Option.map_eq_some_iff] at hcommit
          obtain ⟨after, happly, rfl⟩ := hcommit
          exact ⟨List.mem_of_getElem? hprocess, ⟨next, hexecution⟩, happly⟩
        · simp at hcommit

/-- What a step commits, the process that takes the step commits. -/
theorem commit?_process {system : System I Request ε α} {index : Nat} {reply : Reply I}
    {commit : Commit I Request ε α}
    (hcommit : system.commit? (.advance index reply) = some commit) :
    system.processes[index]? = some commit.process := by
  simp only [commit?] at hcommit
  split at hcommit
  · cases hcommit
  · rename_i process hprocess
    split at hcommit
    · simp only [Option.map_eq_some_iff] at hcommit
      obtain ⟨after, _, rfl⟩ := hcommit
      exact hprocess
    · cases hcommit

theorem query?_mem {system : System I Request ε α} {choice : Choice I Request}
    {process : Process I Request ε α} (hquery : system.query? choice = some process) :
    process ∈ system.processes := by
  cases choice with
  | start request => simp [query?] at hquery
  | advance index reply =>
      simp only [query?] at hquery
      split at hquery
      · simp at hquery
      · rename_i found hfound
        split at hquery
        · cases hquery
          exact List.mem_of_getElem? hfound
        · simp at hquery

theorem call?_eq_some {system : System I Request ε α} {choice : Choice I Request}
    {process : Process I Request ε α} {request : I.Call}
    (hcall : system.call? choice = some (process, request)) :
    process ∈ system.processes ∧ ∃ next, process.execution = .call request next := by
  cases choice with
  | start request => simp [call?] at hcall
  | advance index reply =>
      simp only [call?] at hcall
      split at hcall
      · simp at hcall
      · rename_i found hfound
        split at hcall
        · rename_i asked next hexecution
          simp only [Option.some.injEq, Prod.mk.injEq] at hcall
          obtain ⟨rfl, rfl⟩ := hcall
          exact ⟨List.mem_of_getElem? hfound, next, hexecution⟩
        · simp at hcall

end System

end Interleaving
