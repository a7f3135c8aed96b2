/-
One execution with the store to itself: what it ends with and what it leaves behind, given
the names it draws and the answers it hears.  A process that nobody disturbs runs like this.
-/
import MuxivoConsole.Interleaving.Embedding
import MuxivoConsole.Interleaving.Serial

namespace Interleaving

variable {I : Interface} {Request ε α β : Type}

/-- What the environment tells an execution. -/
inductive Input (I : Interface) where
  | drew (name : I.Name)
  | heard (request : I.Call) (answer : I.Answer request)

/-- The names among it. -/
def drawnNames (inputs : List (Input I)) : List I.Name :=
  inputs.filterMap fun input =>
    match input with
    | .drew name => some name
    | .heard _ _ => none

theorem drawnNames_append (first second : List (Input I)) :
    drawnNames (first ++ second) = drawnNames first ++ drawnNames second :=
  List.filterMap_append

@[simp] theorem drawnNames_nil : drawnNames ([] : List (Input I)) = [] := rfl

@[simp] theorem drawnNames_drew (name : I.Name) (inputs : List (Input I)) :
    drawnNames (.drew name :: inputs) = name :: drawnNames inputs := rfl

@[simp] theorem drawnNames_heard (request : I.Call) (answer : I.Answer request)
    (inputs : List (Input I)) :
    drawnNames (.heard request answer :: inputs) = drawnNames inputs := rfl

namespace Execution

/-- Run an execution over a store of its own with what the environment tells it: the
outcome and the store it leaves, if the inputs are those that it asks for. -/
def replay [DecidableEq I.Call] :
    Execution I ε α → I.Store → List (Input I) → Option (Except ε α × I.Store)
  | done result, start, [] => some (result, start)
  | query next, start, inputs => (next start).replay start inputs
  | draw next, start, .drew name :: rest => (next name).replay start rest
  | commit write next, start, inputs =>
      match I.apply write start with
      | none => (next none).replay start inputs
      | some after => (next (some (I.receipt write start))).replay after inputs
  | call request next, start, .heard asked answer :: rest =>
      if hasked : asked = request then (next (hasked ▸ answer)).replay start rest else none
  | _, _, _ => none

/-- `execution.Runs start inputs outcome store`: alone over `start` and told `inputs`, it
ends with `outcome` and leaves `store`. -/
def Runs : Execution I ε α → I.Store → List (Input I) → Except ε α → I.Store → Prop
  | done result, start, inputs, outcome, store =>
      inputs = [] ∧ outcome = result ∧ store = start
  | query next, start, inputs, outcome, store => (next start).Runs start inputs outcome store
  | draw next, start, inputs, outcome, store =>
      ∃ name rest, inputs = .drew name :: rest ∧ (next name).Runs start rest outcome store
  | commit write next, start, inputs, outcome, store =>
      match I.apply write start with
      | none => (next none).Runs start inputs outcome store
      | some after =>
          (next (some (I.receipt write start))).Runs after inputs outcome store
  | call request next, start, inputs, outcome, store =>
      ∃ answer rest, inputs = .heard request answer :: rest ∧
        (next answer).Runs start rest outcome store

section Rules

variable {start store : I.Store} {inputs : List (Input I)}

theorem runs_of_replay [DecidableEq I.Call] {execution : Execution I ε α}
    {outcome : Except ε α} (hreplay : execution.replay start inputs = some (outcome, store)) :
    execution.Runs start inputs outcome store := by
  induction execution generalizing start inputs with
  | done result =>
      cases inputs with
      | nil =>
          cases hreplay
          exact ⟨rfl, rfl, rfl⟩
      | cons input rest => cases hreplay
  | query next ih => exact ih start hreplay
  | draw next ih =>
      cases inputs with
      | nil => cases hreplay
      | cons input rest =>
          cases input with
          | drew name => exact ⟨name, rest, rfl, ih name hreplay⟩
          | heard asked answer => cases hreplay
  | commit write next ih =>
      simp only [replay] at hreplay
      simp only [Runs]
      cases happly : I.apply write start with
      | none =>
          rw [happly] at hreplay
          exact ih none hreplay
      | some after =>
          rw [happly] at hreplay
          exact ih (some (I.receipt write start)) hreplay
  | call request next ih =>
      cases inputs with
      | nil => cases hreplay
      | cons input rest =>
          cases input with
          | drew name => cases hreplay
          | heard asked answer =>
              simp only [replay] at hreplay
              by_cases hasked : asked = request
              · subst hasked
                rw [dif_pos rfl] at hreplay
                exact ⟨answer, rest, rfl, ih answer hreplay⟩
              · rw [dif_neg hasked] at hreplay
                cases hreplay

@[simp] theorem runs_pure {value : α} {outcome : Except ε α} :
    (pure value : Execution I ε α).Runs start inputs outcome store ↔
      inputs = [] ∧ outcome = .ok value ∧ store = start :=
  Iff.rfl

@[simp] theorem runs_raise {error : ε} {outcome : Except ε α} :
    (raise error : Execution I ε α).Runs start inputs outcome store ↔
      inputs = [] ∧ outcome = .error error ∧ store = start :=
  Iff.rfl

/-- Rule of composition. -/
theorem runs_bind {execution : Execution I ε α} {continuation : α → Execution I ε β}
    {outcome : Except ε β} :
    (execution >>= continuation).Runs start inputs outcome store ↔
      (∃ first second middle value, inputs = first ++ second ∧
        execution.Runs start first (.ok value) middle ∧
          (continuation value).Runs middle second outcome store) ∨
      ∃ error, execution.Runs start inputs (.error error) store ∧ outcome = .error error := by
  change (execution.bind continuation).Runs start inputs outcome store ↔ _
  induction execution generalizing start inputs with
  | done result =>
      cases result with
      | error error =>
          constructor
          · rintro ⟨rfl, rfl, rfl⟩
            exact Or.inr ⟨error, ⟨rfl, rfl, rfl⟩, rfl⟩
          · rintro (⟨first, second, middle, value, _, ⟨_, hvalue, _⟩, _⟩ |
              ⟨other, ⟨rfl, hother, rfl⟩, rfl⟩)
            · cases hvalue
            · cases hother
              exact ⟨rfl, rfl, rfl⟩
      | ok value =>
          constructor
          · intro hrest
            exact Or.inl ⟨[], inputs, start, value, rfl, ⟨rfl, rfl, rfl⟩, hrest⟩
          · rintro (⟨first, second, middle, other, rfl, ⟨rfl, hother, rfl⟩, hrest⟩ |
              ⟨error, ⟨_, herror, _⟩, _⟩)
            · cases hother
              exact hrest
            · cases herror
  | query next ih => exact ih start
  | draw next ih =>
      constructor
      · rintro ⟨name, rest, rfl, hrest⟩
        rcases (ih name).mp hrest with ⟨first, second, middle, value, rfl, hfirst, hsecond⟩ |
          ⟨error, herror, houtcome⟩
        · exact Or.inl ⟨_ :: first, second, middle, value, rfl, ⟨name, first, rfl, hfirst⟩,
            hsecond⟩
        · exact Or.inr ⟨error, ⟨name, rest, rfl, herror⟩, houtcome⟩
      · rintro (⟨_, second, middle, value, rfl, ⟨name, rest, rfl, hfirst⟩, hsecond⟩ |
          ⟨error, ⟨name, rest, rfl, herror⟩, houtcome⟩)
        · exact ⟨name, rest ++ second, rfl, (ih name).mpr
            (Or.inl ⟨rest, second, middle, value, rfl, hfirst, hsecond⟩)⟩
        · exact ⟨name, rest, rfl, (ih name).mpr (Or.inr ⟨error, herror, houtcome⟩)⟩
  | commit write next ih =>
      simp only [bind, Runs]
      cases I.apply write start with
      | none => exact ih none
      | some after => exact ih (some _)
  | call request next ih =>
      constructor
      · rintro ⟨answer, rest, rfl, hrest⟩
        rcases (ih answer).mp hrest with ⟨first, second, middle, value, rfl, hfirst, hsecond⟩ |
          ⟨error, herror, houtcome⟩
        · exact Or.inl ⟨_ :: first, second, middle, value, rfl, ⟨answer, first, rfl, hfirst⟩,
            hsecond⟩
        · exact Or.inr ⟨error, ⟨answer, rest, rfl, herror⟩, houtcome⟩
      · rintro (⟨_, second, middle, value, rfl, ⟨answer, rest, rfl, hfirst⟩, hsecond⟩ |
          ⟨error, ⟨answer, rest, rfl, herror⟩, houtcome⟩)
        · exact ⟨answer, rest ++ second, rfl, (ih answer).mpr
            (Or.inl ⟨rest, second, middle, value, rfl, hfirst, hsecond⟩)⟩
        · exact ⟨answer, rest, rfl, (ih answer).mpr (Or.inr ⟨error, herror, houtcome⟩)⟩

/-- Composition is associative, so a program is run step by step. -/
theorem runs_bind_assoc {γ : Type} {execution : Execution I ε α}
    {second : α → Execution I ε β} {third : β → Execution I ε γ} {outcome : Except ε γ} :
    (execution >>= second >>= third).Runs start inputs outcome store ↔
      (execution >>= fun value => second value >>= third).Runs start inputs outcome store := by
  change ((execution.bind second).bind third).Runs start inputs outcome store ↔
    (execution.bind fun value => (second value).bind third).Runs start inputs outcome store
  induction execution generalizing start inputs with
  | done result => cases result <;> exact Iff.rfl
  | query next ih => exact ih start
  | draw next ih =>
      simp only [bind, Runs]
      exact exists_congr fun name => exists_congr fun rest => and_congr_right fun _ => ih name
  | commit write next ih =>
      simp only [bind, Runs]
      cases I.apply write start with
      | none => exact ih none
      | some after => exact ih (some _)
  | call request next ih =>
      simp only [bind, Runs]
      exact exists_congr fun answer => exists_congr fun rest =>
        and_congr_right fun _ => ih answer

@[simp] theorem runs_select_bind {read : I.Store → α} {continuation : α → Execution I ε β}
    {outcome : Except ε β} :
    ((select read : Execution I ε α) >>= continuation).Runs start inputs outcome store ↔
      (continuation (read start)).Runs start inputs outcome store :=
  Iff.rfl

@[simp] theorem runs_newName_bind {continuation : I.Name → Execution I ε β}
    {outcome : Except ε β} :
    ((newName : Execution I ε I.Name) >>= continuation).Runs start inputs outcome store ↔
      ∃ name rest, inputs = .drew name :: rest ∧
        (continuation name).Runs start rest outcome store :=
  Iff.rfl

@[simp] theorem runs_ask_bind {request : I.Call}
    {continuation : I.Answer request → Execution I ε β} {outcome : Except ε β} :
    ((ask request : Execution I ε (I.Answer request)) >>= continuation).Runs start inputs
        outcome store ↔
      ∃ answer rest, inputs = .heard request answer :: rest ∧
        (continuation answer).Runs start rest outcome store :=
  Iff.rfl

/-- Running a write transaction, whether it commits or not. -/
theorem runs_transact_bind {write : I.Write}
    {continuation : Option (I.Receipt write) → Execution I ε β} {outcome : Except ε β} :
    ((transact write : Execution I ε (Option (I.Receipt write))) >>= continuation).Runs start
        inputs outcome store ↔
      match I.apply write start with
      | none => (continuation none).Runs start inputs outcome store
      | some after =>
          (continuation (some (I.receipt write start))).Runs after inputs outcome store :=
  Iff.rfl

theorem runs_save_of_some {write : I.Write} {after : I.Store}
    (happly : I.apply write start = some after) {outcome : Except ε Bool} :
    (save write : Execution I ε Bool).Runs start inputs outcome store ↔
      inputs = [] ∧ outcome = .ok true ∧ store = after := by
  simp only [save, Runs, happly]
  exact Iff.rfl

/-- Running a write transaction that commits. -/
theorem runs_save_bind_of_some {write : I.Write} {after : I.Store}
    (happly : I.apply write start = some after) {continuation : Bool → Execution I ε β}
    {outcome : Except ε β} :
    ((save write : Execution I ε Bool) >>= continuation).Runs start inputs outcome store ↔
      (continuation true).Runs after inputs outcome store := by
  change ((save write).bind continuation).Runs start inputs outcome store ↔ _
  simp only [save, bind, Runs, happly]
  exact Iff.rfl

/-- Running a write transaction that is rolled back. -/
theorem runs_save_bind_of_none {write : I.Write} (happly : I.apply write start = none)
    {continuation : Bool → Execution I ε β} {outcome : Except ε β} :
    ((save write : Execution I ε Bool) >>= continuation).Runs start inputs outcome store ↔
      (continuation false).Runs start inputs outcome store := by
  change ((save write).bind continuation).Runs start inputs outcome store ↔ _
  simp only [save, bind, Runs, happly]
  exact Iff.rfl

/-- Running a write transaction whose caller wants to know whether it commits. -/
theorem runs_save_bind_cases {write : I.Write} {continuation : Bool → Execution I ε β}
    {outcome : Except ε β}
    (hruns : ((save write : Execution I ε Bool) >>= continuation).Runs start inputs outcome
      store) :
    (I.apply write start = none ∧ (continuation false).Runs start inputs outcome store) ∨
      ∃ after, I.apply write start = some after ∧
        (continuation true).Runs after inputs outcome store := by
  cases happly : I.apply write start with
  | none => exact Or.inl ⟨rfl, (runs_save_bind_of_none happly).mp hruns⟩
  | some after => exact Or.inr ⟨after, rfl, (runs_save_bind_of_some happly).mp hruns⟩

/-- A write transaction is rolled back, or it commits. -/
theorem Runs.commit_cases {write : I.Write}
    {next : Option (I.Receipt write) → Execution I ε α} {outcome : Except ε α}
    (hruns : (commit write next).Runs start inputs outcome store) :
    (I.apply write start = none ∧ (next none).Runs start inputs outcome store) ∨
      ∃ after, I.apply write start = some after ∧
        (next (some (I.receipt write start))).Runs after inputs outcome store := by
  simp only [Runs] at hruns
  cases happly : I.apply write start with
  | none =>
      rw [happly] at hruns
      exact Or.inl ⟨rfl, hruns⟩
  | some after =>
      rw [happly] at hruns
      exact Or.inr ⟨after, rfl, hruns⟩

/-- An exception that is handed on as a value ends nothing. -/
theorem runs_attempt {ε' : Type} {execution : Execution I ε α}
    {outcome : Except ε' (Except ε α)} :
    (execution.attempt : Execution I ε' (Except ε α)).Runs start inputs outcome store ↔
      ∃ result, outcome = .ok result ∧ execution.Runs start inputs result store := by
  induction execution generalizing start inputs with
  | done result =>
      constructor
      · rintro ⟨rfl, rfl, rfl⟩
        exact ⟨result, rfl, rfl, rfl, rfl⟩
      · rintro ⟨other, rfl, rfl, rfl, rfl⟩
        exact ⟨rfl, rfl, rfl⟩
  | query next ih => exact ih start
  | draw next ih =>
      simp only [attempt, Runs]
      constructor
      · rintro ⟨name, rest, rfl, hrest⟩
        obtain ⟨result, houtcome, hruns⟩ := (ih name).mp hrest
        exact ⟨result, houtcome, name, rest, rfl, hruns⟩
      · rintro ⟨result, houtcome, name, rest, rfl, hruns⟩
        exact ⟨name, rest, rfl, (ih name).mpr ⟨result, houtcome, hruns⟩⟩
  | commit write next ih =>
      simp only [attempt, Runs]
      cases I.apply write start with
      | none => exact ih none
      | some after => exact ih (some _)
  | call request next ih =>
      simp only [attempt, Runs]
      constructor
      · rintro ⟨answer, rest, rfl, hrest⟩
        obtain ⟨result, houtcome, hruns⟩ := (ih answer).mp hrest
        exact ⟨result, houtcome, answer, rest, rfl, hruns⟩
      · rintro ⟨result, houtcome, answer, rest, rfl, hruns⟩
        exact ⟨answer, rest, rfl, (ih answer).mpr ⟨result, houtcome, hruns⟩⟩

/-- Rule of composition for a program under `try`. -/
theorem runs_attempt_bind {ε' : Type} {execution : Execution I ε α}
    {continuation : Except ε α → Execution I ε' β} {outcome : Except ε' β} :
    ((execution.attempt : Execution I ε' (Except ε α)) >>= continuation).Runs start inputs
        outcome store ↔
      ∃ first second middle result, inputs = first ++ second ∧
        execution.Runs start first result middle ∧
          (continuation result).Runs middle second outcome store := by
  rw [runs_bind]
  constructor
  · rintro (⟨first, second, middle, value, rfl, hfirst, hsecond⟩ | ⟨error, herror, _⟩)
    · obtain ⟨result, hresult, hruns⟩ := runs_attempt.mp hfirst
      cases hresult
      exact ⟨first, second, middle, value, rfl, hruns, hsecond⟩
    · obtain ⟨result, hresult, _⟩ := runs_attempt.mp herror
      cases hresult
  · rintro ⟨first, second, middle, result, rfl, hruns, hsecond⟩
    exact Or.inl ⟨first, second, middle, result, rfl,
      runs_attempt.mpr ⟨result, rfl, hruns⟩, hsecond⟩

end Rules

end Execution

section Pool

variable [DecidableEq I.Name] {program : Request → Execution I ε α}

/-- A process that is advanced until it is over, and nothing else with it, has run alone. -/
theorem System.runs_alone {system : System I Request ε α} {index : Nat}
    {process later : Process I Request ε α} {outcome : Except ε α}
    (hprocess : system.processes[index]? = some process) (replies : List (Reply I))
    (hlater : (system.run program (replies.map (.advance index))).processes[index]? =
      some later) (hdone : later.execution = .done outcome) :
    ∃ inputs, process.execution.Runs system.world.store inputs outcome
      (system.run program (replies.map (.advance index))).world.store := by
  induction replies generalizing system process with
  | nil =>
      rw [List.map_nil, System.run_nil, hprocess] at hlater
      cases hlater
      exact ⟨[], by rw [hdone]; exact ⟨rfl, rfl, rfl⟩⟩
  | cons reply replies ih =>
      rw [List.map_cons, System.run_cons] at hlater ⊢
      have hbound := (List.getElem?_eq_some_iff.mp hprocess).1
      have hstep : system.step program (.advance index reply) =
          ⟨(process.advance system.world system.issued system.moment reply).world,
            (process.advance system.world system.issued system.moment reply).issued,
            system.moment + 1, system.processes.set index
              (process.advance system.world system.issued system.moment reply).process⟩ := by
        simp only [System.step, hprocess]
      rw [hstep] at hlater ⊢
      obtain ⟨inputs, hruns⟩ := ih (List.getElem?_set_self hbound) hlater
      clear hstep ih hlater
      dsimp only at hruns
      generalize (System.run program _ (replies.map (.advance index))).world.store = store
        at hruns ⊢
      have hadvances := process.advances system.world system.issued system.moment reply
      generalize process.advance system.world system.issued system.moment reply = advanced
        at hadvances hruns
      cases hadvances with
      | idle => exact ⟨inputs, hruns⟩
      | query hnode => exact ⟨inputs, by rw [hnode]; exact hruns⟩
      | draw hnode hfresh =>
          exact ⟨.drew reply.name :: inputs, by rw [hnode]; exact ⟨_, _, rfl, hruns⟩⟩
      | refuse hnode happly =>
          refine ⟨inputs, ?_⟩
          rw [hnode]
          simp only [Execution.Runs, happly]
          exact hruns
      | commit hnode happly =>
          refine ⟨inputs, ?_⟩
          rw [hnode]
          simp only [Execution.Runs, happly]
          exact hruns
      | call hnode =>
          exact ⟨.heard _ (reply.answer _) :: inputs, by
            rw [hnode]; exact ⟨_, _, rfl, hruns⟩⟩

end Pool

end Interleaving
