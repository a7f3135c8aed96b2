/-
Executions that leave nothing behind when they raise: until the error, no
transaction of theirs has committed.
-/
import MuxivoConsole.Interleaving.Discipline

namespace Interleaving

variable {I : Interface} {Request ε α β : Type}

/-- No transaction of this history has committed. -/
def Uncommitted (history : History I) : Prop :=
  ∀ write, Observation.wrote write true ∉ history

theorem Uncommitted.snoc {history : History I} (hnone : Uncommitted history)
    {observation : Observation I} (hnot : ∀ write, observation ≠ .wrote write true) :
    Uncommitted (history ++ [observation]) := by
  intro write hmem
  rcases List.mem_append.mp hmem with hmem | hmem
  · exact hnone write hmem
  · exact hnot write (List.mem_singleton.mp hmem).symm

namespace Execution

/-- The execution commits nothing, whatever the store shows. -/
def Harmless (execution : Execution I ε α) : Prop :=
  ∀ history : History I, Uncommitted history →
    execution.Meets (fun _ _ => True) (fun after _ => Uncommitted after) history

/-- If the execution raises, it has committed nothing. -/
def RaisesHarmless (execution : Execution I ε α) : Prop :=
  ∀ history : History I, Uncommitted history →
    execution.Meets (fun _ _ => True)
      (fun after outcome => ∀ error, outcome = .error error → Uncommitted after) history

section Rules

variable {execution : Execution I ε α} {continuation : α → Execution I ε β}

theorem harmless_pure (value : α) : (pure value : Execution I ε α).Harmless :=
  fun _ hnone => hnone

theorem harmless_raise (error : ε) : (raise error : Execution I ε α).Harmless :=
  fun _ hnone => hnone

theorem harmless_select (read : I.Store → α) : (select read : Execution I ε α).Harmless :=
  fun _ hnone _ _ => hnone.snoc (by simp)

theorem harmless_newName : (newName : Execution I ε I.Name).Harmless :=
  fun _ hnone _ => hnone.snoc (by simp)

theorem Harmless.bind (hfirst : execution.Harmless)
    (hthen : ∀ value, (continuation value).Harmless) : (execution >>= continuation).Harmless := by
  intro history hnone
  refine Meets.bind (hfirst history hnone) ?_ ?_
  · intro after value hafter
    exact hthen value after hafter
  · intro after error hafter
    exact hafter

theorem Harmless.raises (hharmless : execution.Harmless) : execution.RaisesHarmless :=
  fun history hnone => (hharmless history hnone).mono (fun _ _ _ => trivial)
    fun _ _ hafter _ _ => hafter

/-- What commits nothing may come before what raises harmlessly. -/
theorem Harmless.then (hfirst : execution.Harmless)
    (hthen : ∀ value, (continuation value).RaisesHarmless) :
    (execution >>= continuation).RaisesHarmless := by
  intro history hnone
  refine Meets.bind (hfirst history hnone) ?_ ?_
  · intro after value hafter
    exact hthen value after hafter
  · intro after error hafter _ _
    exact hafter

/-- A transaction that is followed by an error only where it was refused. -/
theorem raisesHarmless_save (write : I.Write) {continuation : Bool → Execution I ε β}
    {value : β} (hsaved : continuation true = pure value)
    (hrefused : (continuation false).RaisesHarmless) :
    (save write >>= continuation).RaisesHarmless := by
  intro history hnone
  refine ⟨trivial, ?_⟩
  intro receipt
  cases receipt with
  | none => exact hrefused _ (hnone.snoc (by simp))
  | some receipt =>
      change (continuation true).Meets _ _ _
      rw [hsaved]
      intro error herror
      cases herror

/-- Nothing is raised after the end. -/
theorem RaisesHarmless.map (hraises : execution.RaisesHarmless) (change : α → β) :
    (execution >>= fun value => pure (change value)).RaisesHarmless := by
  intro history hnone
  refine Meets.bind (hraises history hnone) ?_ ?_
  · intro after value _ error herror
    cases herror
  · intro after error hafter other herror
    exact hafter error rfl

/-- A guard that lets everything pass. -/
theorem meets_of_guard {guard : History I → Action I → Prop} {history : History I}
    (hguard : ∀ after action, guard after action) :
    execution.Meets guard (fun _ _ => True) history := by
  induction execution generalizing history with
  | done outcome => exact trivial
  | query next ih => exact fun moment world => ih world.store
  | draw next ih => exact fun name => ih name
  | commit write next ih => exact ⟨hguard _ _, fun receipt => ih receipt⟩
  | call request next ih => exact ⟨hguard _ _, fun answer => ih answer⟩

/-- What an execution meets, the rest of it meets after every node of work. -/
theorem Meets.advance {guard : History I → Action I → Prop}
    {post : History I → Except ε α → Prop} {process : Process I Request ε α} {world : World I}
    {issued : List I.Name} {moment : Nat} {reply : Reply I}
    {advanced : Advanced I Request ε α}
    (hmeets : process.execution.Meets guard post process.history)
    (hadvance : Advances process world issued moment reply advanced) :
    advanced.process.execution.Meets guard post advanced.process.history := by
  cases hadvance with
  | idle => exact hmeets
  | query hnode =>
      rw [hnode] at hmeets
      exact hmeets moment world
  | draw hnode hfresh =>
      rw [hnode] at hmeets
      exact hmeets reply.name
  | refuse hnode happly =>
      rw [hnode] at hmeets
      exact hmeets.2 none
  | commit hnode happly =>
      rw [hnode] at hmeets
      exact hmeets.2 (some _)
  | call hnode =>
      rw [hnode] at hmeets
      exact hmeets.2 (reply.answer _)

end Rules

end Execution

/-- A step that calls a port commits nothing. -/
theorem System.commit?_of_call {system : System I Request ε α} {choice : Choice I Request}
    {called : Process I Request ε α × I.Call} (hcall : system.call? choice = some called) :
    system.commit? choice = none := by
  cases choice with
  | start request => rfl
  | advance index reply =>
      simp only [System.call?, System.commit?] at hcall ⊢
      cases hprocess : system.processes[index]? with
      | none => rfl
      | some process =>
          rw [hprocess] at hcall
          dsimp only at hcall ⊢
          split at hcall
          · rename_i request next hnode
            rw [hnode]
          · cases hcall

section Runs

variable [DecidableEq I.Name] {program : Request → Execution I ε α}
variable {world : World I} {issued : List I.Name}

/-- A process keeps its place, its request and its past. -/
theorem System.process_grows {system : System I Request ε α} {index : Nat}
    {process : Process I Request ε α} (hprocess : system.processes[index]? = some process)
    (choices : List (Choice I Request)) :
    ∃ later, (system.run program choices).processes[index]? = some later ∧
      later.request = process.request ∧ process.history <+: later.history := by
  induction choices using List.reverseRecOn with
  | nil => exact ⟨process, hprocess, rfl, List.prefix_rfl⟩
  | append_singleton choices choice ih =>
      obtain ⟨later, hlater, hrequest, hextends⟩ := ih
      rw [System.run_snoc]
      have hbound := (List.getElem?_eq_some_iff.mp hlater).1
      cases choice with
      | start request =>
          refine ⟨later, ?_, hrequest, hextends⟩
          simp only [System.step]
          rw [List.getElem?_append_left hbound, hlater]
      | advance target reply =>
          simp only [System.step]
          cases htarget : (system.run program choices).processes[target]? with
          | none => exact ⟨later, hlater, hrequest, hextends⟩
          | some old =>
              by_cases hsame : target = index
              · subst hsame
                rw [htarget] at hlater
                cases hlater
                have hadvance := later.advances (system.run program choices).world
                  (system.run program choices).issued (system.run program choices).moment
                  reply
                exact ⟨_, List.getElem?_set_self hbound, hadvance.request.trans hrequest,
                  hextends.trans hadvance.history_prefix⟩
              · refine ⟨later, ?_, hrequest, hextends⟩
                simp only
                rw [List.getElem?_set_ne hsame, hlater]

theorem System.history_grows {system : System I Request ε α} {index : Nat}
    {process : Process I Request ε α} (hprocess : system.processes[index]? = some process)
    (choices : List (Choice I Request)) :
    ∃ later, (system.run program choices).processes[index]? = some later ∧
      process.history <+: later.history := by
  obtain ⟨later, hlater, _, hgrown⟩ := System.process_grows hprocess choices
  exact ⟨later, hlater, hgrown⟩

theorem System.mem_processes_grows {system : System I Request ε α}
    {process : Process I Request ε α} (hprocess : process ∈ system.processes)
    (choices : List (Choice I Request)) :
    ∃ later ∈ (system.run program choices).processes, later.request = process.request ∧
      process.history <+: later.history := by
  obtain ⟨index, hindex⟩ := List.mem_iff_getElem?.mp hprocess
  obtain ⟨later, hlater, hgrown⟩ := System.process_grows hindex choices
  exact ⟨later, List.mem_of_getElem? hlater, hgrown⟩

/-- A process that is over does nothing more. -/
theorem System.done_stays {system : System I Request ε α} {index : Nat}
    {process : Process I Request ε α} (hprocess : system.processes[index]? = some process)
    {outcome : Except ε α} (hdone : process.execution = .done outcome)
    (choices : List (Choice I Request)) :
    (system.run program choices).processes[index]? = some process := by
  induction choices using List.reverseRecOn with
  | nil => exact hprocess
  | append_singleton choices choice ih =>
      rw [System.run_snoc]
      have hbound := (List.getElem?_eq_some_iff.mp ih).1
      cases choice with
      | start request =>
          simp only [System.step]
          rw [List.getElem?_append_left hbound, ih]
      | advance target reply =>
          simp only [System.step]
          cases htarget : (system.run program choices).processes[target]? with
          | none => exact ih
          | some old =>
              by_cases hsame : target = index
              · subst hsame
                rw [htarget] at ih
                cases ih
                simp only [Process.advance, hdone]
                exact List.getElem?_set_self hbound
              · simp only
                rw [List.getElem?_set_ne hsame, ih]

/-- What a process commits stands in its history. -/
theorem System.commit?_wrote {system : System I Request ε α} {index : Nat} {reply : Reply I}
    {commit : Commit I Request ε α}
    (hcommit : system.commit? (.advance index reply) = some commit) :
    ∃ process, (system.step program (.advance index reply)).processes[index]? = some process ∧
      Observation.wrote commit.write true ∈ process.history := by
  simp only [System.commit?] at hcommit
  split at hcommit
  · cases hcommit
  · rename_i process hprocess
    split at hcommit
    · rename_i write next hnode
      simp only [Option.map_eq_some_iff] at hcommit
      obtain ⟨after, happly, rfl⟩ := hcommit
      have hbound := (List.getElem?_eq_some_iff.mp hprocess).1
      simp only [System.step, hprocess, Process.advance, hnode, happly]
      exact ⟨_, List.getElem?_set_self hbound, List.mem_append_right _ List.mem_cons_self⟩
    · cases hcommit

/-- Run rule: what a program promises, its execution keeps at every instant. -/
theorem running_meets {guard : History I → Action I → Prop}
    {post : History I → Except ε α → Prop} {choices : List (Choice I Request)}
    {process : Process I Request ε α}
    (hprocess : process ∈ ((System.idle world issued : System I Request ε α).run program
      choices).processes)
    (hmeets : (program process.request).Meets guard post []) :
    process.execution.Meets guard post process.history := by
  refine processes_induction (P := fun _ (process : Process I Request ε α) =>
    (program process.request).Meets guard post [] →
      process.execution.Meets guard post process.history) ?_ ?_ ?_ choices process hprocess
      hmeets
  · intro choices request hprogram
    exact hprogram
  · intro choices choice process hearlier
    exact hearlier
  · intro choices index reply process advanced _ hearlier hadvance hprogram
    rw [hadvance.request] at hprogram
    exact (hearlier hprogram).advance hadvance

theorem finished_meets {guard : History I → Action I → Prop}
    {post : History I → Except ε α → Prop} {choices : List (Choice I Request)}
    {process : Process I Request ε α}
    (hprocess : process ∈ ((System.idle world issued : System I Request ε α).run program
      choices).processes)
    (hmeets : (program process.request).Meets guard post []) {outcome : Except ε α}
    (hdone : process.execution = .done outcome) : post process.history outcome := by
  have hkept := running_meets hprocess hmeets
  rw [hdone] at hkept
  exact hkept

/-- Run rule: no step of an execution that has raised changed the store. -/
theorem raised_unchanged {choices : List (Choice I Request)} {index : Nat}
    {process : Process I Request ε α}
    (hprocess : ((System.idle world issued : System I Request ε α).run program
      choices).processes[index]? = some process)
    (hharmless : (program process.request).RaisesHarmless) {error : ε}
    (herror : process.execution = .done (.error error))
    {before rest : List (Choice I Request)} {reply : Reply I}
    (hsplit : choices = before ++ .advance index reply :: rest) :
    ((System.idle world issued : System I Request ε α).run program
        (before ++ [.advance index reply])).world.store =
      ((System.idle world issued : System I Request ε α).run program before).world.store := by
  have huncommitted : Uncommitted process.history :=
    finished_meets (List.mem_of_getElem? hprocess) (hharmless [] (by simp [Uncommitted]))
      herror error rfl
  rw [System.run_snoc]
  cases hcommit : ((System.idle world issued : System I Request ε α).run program
      before).commit? (.advance index reply) with
  | none => exact System.step_store_of_no_commit hcommit
  | some commit =>
      obtain ⟨earlier, hearlier, hwrote⟩ := System.commit?_wrote hcommit
      obtain ⟨later, hlater, hextends⟩ := System.history_grows hearlier rest
      rw [hsplit, System.run_append, System.run_cons, hlater] at hprocess
      cases hprocess
      exact absurd (hextends.subset hwrote) (huncommitted commit.write)

/-- No two processes of the system drew one name. -/
structure DrawnApart (system : System I Request ε α) : Prop where
  issued : ∀ process ∈ system.processes, ∀ name, .drew name ∈ process.history →
    name ∈ system.issued
  apart : ∀ (i j : Nat) first second, system.processes[i]? = some first →
    system.processes[j]? = some second → ∀ name, .drew name ∈ first.history →
      .drew name ∈ second.history → i = j

omit [DecidableEq I.Name] in
/-- A name that a process has drawn after a turn it had drawn before, or it is new. -/
theorem Advances.drew {process : Process I Request ε α} {world : World I}
    {issued : List I.Name} {moment : Nat} {reply : Reply I}
    {advanced : Advanced I Request ε α}
    (hadvance : Advances process world issued moment reply advanced) {name : I.Name}
    (hdrew : .drew name ∈ advanced.process.history) :
    .drew name ∈ process.history ∨ (name ∉ issued ∧ name ∈ advanced.issued) := by
  cases hadvance with
  | idle => exact Or.inl hdrew
  | draw hnode hfresh =>
      rcases List.mem_append.mp hdrew with hold | hnew
      · exact Or.inl hold
      · cases List.mem_singleton.mp hnew
        exact Or.inr ⟨hfresh, List.mem_cons_self⟩
  | query hnode | refuse hnode happly | commit hnode happly | call hnode =>
      exact Or.inl (by simpa using hdrew)

omit [DecidableEq I.Name] in
/-- Replacing a process by its advanced form keeps the drawn names apart. -/
theorem DrawnApart.advance {system : System I Request ε α} (hdrawn : DrawnApart system)
    {target : Nat} {old : Process I Request ε α} (htarget : system.processes[target]? = some old)
    {moment : Nat} {reply : Reply I} {advanced : Advanced I Request ε α}
    (hadvance : Advances old system.world system.issued moment reply advanced) :
    DrawnApart (⟨advanced.world, advanced.issued, system.moment + 1,
      system.processes.set target advanced.process⟩ : System I Request ε α) := by
  have hbound := (List.getElem?_eq_some_iff.mp htarget).1
  -- nobody else has drawn a name that the process now has
  have hother : ∀ index, target ≠ index → ∀ other, system.processes[index]? = some other →
      ∀ name, .drew name ∈ advanced.process.history → .drew name ∉ other.history := by
    intro index hne other hindex name hdrew hagain
    rcases hadvance.drew hdrew with hbefore | ⟨hfresh, _⟩
    · exact hne (hdrawn.apart target index old other htarget hindex name hbefore hagain)
    · exact hfresh (hdrawn.issued other (List.mem_of_getElem? hindex) name hagain)
  constructor
  · intro process hprocess name hdrew
    rcases List.mem_or_eq_of_mem_set hprocess with hprocess | rfl
    · exact hadvance.issued_mono (hdrawn.issued process hprocess name hdrew)
    · rcases hadvance.drew hdrew with hbefore | ⟨_, hissued⟩
      · exact hadvance.issued_mono
          (hdrawn.issued old (List.mem_of_getElem? htarget) name hbefore)
      · exact hissued
  · intro i j first second hfirst hsecond name hone hagain
    dsimp only at hfirst hsecond
    by_cases hi : target = i
    · by_cases hj : target = j
      · rw [← hi, ← hj]
      · subst hi
        rw [List.getElem?_set_self hbound, Option.some.injEq] at hfirst
        subst hfirst
        rw [List.getElem?_set_ne hj] at hsecond
        exact absurd hagain (hother j hj second hsecond name hone)
    · rw [List.getElem?_set_ne hi] at hfirst
      by_cases hj : target = j
      · subst hj
        rw [List.getElem?_set_self hbound, Option.some.injEq] at hsecond
        subst hsecond
        exact absurd hone (hother i hi first hfirst name hagain)
      · rw [List.getElem?_set_ne hj] at hsecond
        exact hdrawn.apart i j first second hfirst hsecond name hone hagain

theorem DrawnApart.step {system : System I Request ε α} (hdrawn : DrawnApart system)
    (choice : Choice I Request) : DrawnApart (system.step program choice) := by
  cases choice with
  | start request =>
      have hnone : ∀ (index : Nat) process, (system.processes ++
          [⟨request, system.moment, [], program request⟩])[index]? = some process →
          ∀ name, .drew name ∈ process.history → system.processes[index]? = some process := by
        intro index process hprocess name hdrew
        by_cases hold : index < system.processes.length
        · rwa [List.getElem?_append_left hold] at hprocess
        · rw [List.getElem?_append_right (Nat.le_of_not_lt hold),
            List.getElem?_singleton] at hprocess
          split at hprocess
          · cases hprocess
            cases hdrew
          · cases hprocess
      constructor
      · intro process hprocess name hdrew
        obtain ⟨index, hindex⟩ := List.mem_iff_getElem?.mp hprocess
        exact hdrawn.issued process
          (List.mem_of_getElem? (hnone index process hindex name hdrew)) name hdrew
      · intro i j first second hfirst hsecond name hone hother
        exact hdrawn.apart i j first second (hnone i first hfirst name hone)
          (hnone j second hsecond name hother) name hone hother
  | advance target reply =>
      simp only [System.step]
      cases htarget : system.processes[target]? with
      | none => exact ⟨hdrawn.issued, hdrawn.apart⟩
      | some old =>
          exact hdrawn.advance htarget
            (old.advances system.world system.issued system.moment reply)

/-- Run rule: no two processes ever draw one name. -/
theorem drawnApart_run (choices : List (Choice I Request)) :
    DrawnApart ((System.idle world issued : System I Request ε α).run program choices) := by
  induction choices using List.reverseRecOn with
  | nil =>
      constructor
      · intro process hprocess
        cases hprocess
      · intro i j first second hfirst
        cases hfirst
  | append_singleton choices choice ih =>
      rw [System.run_snoc]
      exact ih.step choice

end Runs

end Interleaving
