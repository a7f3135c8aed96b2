/-
Rely and guarantee for pools of executions.  A discipline names an invariant
of the committed store, a relation that every commit respects, and what each
program has to know before it may write.  Programs are verified one at a time;
the discipline then holds throughout every interleaving.
-/
import MuxivoConsole.Interleaving.System

namespace Interleaving

variable {I : Interface} {Request ε α : Type}

/-- The worlds a history read from, oldest first. -/
def seen (history : History I) : List (World I) :=
  history.filterMap fun observation =>
    match observation with
    | .saw _ world => some world
    | _ => none

@[simp] theorem seen_nil : seen ([] : History I) = [] := rfl

@[simp] theorem seen_saw (history : History I) (moment : Nat) (world : World I) :
    seen (history ++ [.saw moment world]) = seen history ++ [world] := by
  simp [seen]

@[simp] theorem seen_drew (history : History I) (name : I.Name) :
    seen (history ++ [.drew name]) = seen history := by
  simp [seen]

@[simp] theorem seen_heard (history : History I) (request : I.Call)
    (answer : I.Answer request) :
    seen (history ++ [.heard request answer]) = seen history := by
  simp [seen]

@[simp] theorem seen_wrote (history : History I) (write : I.Write) (saved : Bool) :
    seen (history ++ [.wrote write saved]) = seen history := by
  simp [seen]

theorem mem_seen_of_mem {history : History I} {moment : Nat} {world : World I}
    (hmem : Observation.saw moment world ∈ history) : world ∈ seen history := by
  simp only [seen, List.mem_filterMap]
  exact ⟨_, hmem, rfl⟩

theorem exists_saw_of_mem_seen {history : History I} {world : World I}
    (hworld : world ∈ seen history) : ∃ moment, Observation.saw moment world ∈ history := by
  simp only [seen, List.mem_filterMap] at hworld
  obtain ⟨observation, hmem, hsome⟩ := hworld
  cases observation with
  | saw moment other =>
      rw [Option.some.inj hsome] at hmem
      exact ⟨moment, hmem⟩
  | drew name => cases hsome
  | heard request answer => cases hsome
  | wrote write saved => cases hsome

/-- The reads of a history with their instants, oldest first. -/
def reads (history : History I) : List (Nat × I.Store) :=
  history.filterMap fun observation =>
    match observation with
    | .saw moment world => some (moment, world.store)
    | _ => none

@[simp] theorem reads_nil : reads ([] : History I) = [] := rfl

@[simp] theorem reads_append (first second : History I) :
    reads (first ++ second) = reads first ++ reads second :=
  List.filterMap_append

@[simp] theorem reads_saw (moment : Nat) (world : World I) :
    reads [.saw moment world] = [(moment, world.store)] := rfl

@[simp] theorem reads_drew (name : I.Name) : reads [.drew name] = [] := rfl

@[simp] theorem reads_heard (request : I.Call) (answer : I.Answer request) :
    reads [.heard request answer] = [] := rfl

@[simp] theorem reads_wrote (write : I.Write) (saved : Bool) :
    reads [Observation.wrote write saved] = [] := rfl

theorem mem_reads {history : History I} {moment : Nat} {store : I.Store} :
    (moment, store) ∈ reads history ↔
      ∃ world, Observation.saw moment world ∈ history ∧ world.store = store := by
  simp only [reads, List.mem_filterMap]
  constructor
  · rintro ⟨observation, hmem, hsome⟩
    cases observation with
    | saw other world =>
        cases hsome
        exact ⟨world, hmem, rfl⟩
    | drew name => cases hsome
    | heard request answer => cases hsome
    | wrote write saved => cases hsome
  · rintro ⟨world, hmem, rfl⟩
    exact ⟨_, hmem, rfl⟩

theorem Quiet.seen {before after : History I} (hquiet : Quiet before after)
    {world : World I} (hworld : world ∈ seen before) : world ∈ seen after := by
  simp only [Interleaving.seen, List.mem_filterMap] at hworld ⊢
  obtain ⟨observation, hmem, hsome⟩ := hworld
  exact ⟨observation, hquiet.mem hmem, hsome⟩

theorem seen_of_recent {history : History I} {world : World I}
    (hworld : world ∈ recent history) : world ∈ seen history := by
  induction history using List.reverseRecOn with
  | nil => simp at hworld
  | append_singleton history observation ih =>
      cases observation with
      | saw moment other =>
          rw [recent_saw, List.mem_append] at hworld
          rw [seen_saw, List.mem_append]
          exact hworld.imp ih id
      | drew name => exact seen_drew history name ▸ ih (recent_drew history name ▸ hworld)
      | heard request answer =>
          rw [recent_heard] at hworld
          rw [seen_heard]
          exact ih hworld
      | wrote write saved =>
          rw [seen_wrote]
          cases saved with
          | false => exact ih (recent_wrote_false history write ▸ hworld)
          | true => simp at hworld

/-- How the next node of a process changes the process, the world and the
generated names. -/
inductive Advances (process : Process I Request ε α) (world : World I)
    (issued : List I.Name) (moment : Nat) (reply : Reply I) :
    Advanced I Request ε α → Prop
  | idle : Advances process world issued moment reply ⟨process, world, issued⟩
  | query {next} (hnode : process.execution = .query next) :
      Advances process world issued moment reply
        ⟨{ process with
            history := process.history ++ [.saw moment world]
            execution := next world.store }, world, issued⟩
  | draw {next} (hnode : process.execution = .draw next) (hfresh : reply.name ∉ issued) :
      Advances process world issued moment reply
        ⟨{ process with
            history := process.history ++ [.drew reply.name]
            execution := next reply.name }, world, reply.name :: issued⟩
  | refuse {write next} (hnode : process.execution = .commit write next)
      (happly : I.apply write world.store = none) :
      Advances process world issued moment reply
        ⟨{ process with
            history := process.history ++ [.wrote write false]
            execution := next none }, world, issued⟩
  | commit {write next store} (hnode : process.execution = .commit write next)
      (happly : I.apply write world.store = some store) :
      Advances process world issued moment reply
        ⟨{ process with
            history := process.history ++ [.wrote write true]
            execution := next (some (I.receipt write world.store)) },
          ⟨store, held process.history ++ world.spent⟩, issued⟩
  | call {request next} (hnode : process.execution = .call request next) :
      Advances process world issued moment reply
        ⟨{ process with
            history := process.history ++ [.heard request (reply.answer request)]
            execution := next (reply.answer request) }, world, issued⟩

theorem Process.advances [DecidableEq I.Name] (process : Process I Request ε α)
    (world : World I) (issued : List I.Name) (moment : Nat) (reply : Reply I) :
    Advances process world issued moment reply
      (process.advance world issued moment reply) := by
  unfold Process.advance
  cases hnode : process.execution with
  | done outcome => exact Advances.idle
  | query next => exact Advances.query hnode
  | draw next =>
      by_cases hfresh : reply.name ∈ issued
      · simp only [hfresh, ↓reduceIte]
        exact Advances.idle
      · simp only [hfresh, ↓reduceIte]
        exact Advances.draw hnode hfresh
  | commit write next =>
      cases happly : I.apply write world.store with
      | none =>
          simp only [happly]
          exact Advances.refuse hnode happly
      | some store =>
          simp only [happly]
          exact Advances.commit hnode happly
  | call request next => exact Advances.call hnode

/-- A node of work keeps what a process was asked and when. -/
theorem Advances.startedAt {process : Process I Request ε α} {world : World I}
    {issued : List I.Name} {moment : Nat} {reply : Reply I}
    {advanced : Advanced I Request ε α}
    (hadvance : Advances process world issued moment reply advanced) :
    advanced.process.startedAt = process.startedAt := by
  cases hadvance <;> rfl

theorem Advances.request {process : Process I Request ε α} {world : World I}
    {issued : List I.Name} {moment : Nat} {reply : Reply I}
    {advanced : Advanced I Request ε α}
    (hadvance : Advances process world issued moment reply advanced) :
    advanced.process.request = process.request := by
  cases hadvance <;> rfl

/-- A node of work adds to the history. -/
theorem Advances.history_prefix {process : Process I Request ε α} {world : World I}
    {issued : List I.Name} {moment : Nat} {reply : Reply I}
    {advanced : Advanced I Request ε α}
    (hadvance : Advances process world issued moment reply advanced) :
    process.history <+: advanced.process.history := by
  cases hadvance with
  | idle => exact List.prefix_rfl
  | query | draw | refuse | commit | call => exact List.prefix_append _ _

/-- A finished process does nothing more. -/
theorem Advances.done {process : Process I Request ε α} {world : World I}
    {issued : List I.Name} {moment : Nat} {reply : Reply I}
    {advanced : Advanced I Request ε α}
    (hadvance : Advances process world issued moment reply advanced)
    {outcome : Except ε α} (hdone : process.execution = .done outcome) :
    advanced = ⟨process, world, issued⟩ := by
  cases hadvance with
  | idle => rfl
  | query hnode => cases hdone.symm.trans hnode
  | draw hnode hfresh => cases hdone.symm.trans hnode
  | refuse hnode happly => cases hdone.symm.trans hnode
  | commit hnode happly => cases hdone.symm.trans hnode
  | call hnode => cases hdone.symm.trans hnode

/-- No name is held by two processes, and no held name was used before. -/
structure NamesApart (system : System I Request ε α) : Prop where
  spent : ∀ name ∈ system.world.spent, name ∈ system.issued
  held : ∀ process ∈ system.processes, ∀ name ∈ held process.history,
    name ∈ system.issued ∧ name ∉ system.world.spent
  apart : ∀ (i j : Nat) first second, system.processes[i]? = some first →
    system.processes[j]? = some second → i ≠ j →
      ∀ name ∈ Interleaving.held first.history, name ∉ Interleaving.held second.history

/-- What a family of programs keeps to. -/
structure Discipline (I : Interface) (Request ε α : Type) where
  guard : Request → History I → Action I → Prop
  post : Request → History I → Except ε α → Prop
  Inv : World I → Prop
  Evolves : World I → World I → Prop

namespace Discipline

variable (D : Discipline I Request ε α)

/-- What may be relied on about the worlds a process read from: they satisfied
the invariant and lead, in the order they were read, to the present world. -/
structure Informed (world : World I) (history : History I) : Prop where
  inv : ∀ past ∈ seen history, D.Inv past
  evolves : ∀ past ∈ seen history, D.Evolves past world
  ordered : (seen history).Pairwise D.Evolves

/-- The proof obligations of a discipline for a program family. -/
structure Verified (program : Request → Execution I ε α) : Prop where
  refl : ∀ world, D.Evolves world world
  trans : ∀ first second third, D.Evolves first second → D.Evolves second third →
    D.Evolves first third
  meets : ∀ request,
    (program request).Meets (D.guard request) (D.post request) []
  keeps : ∀ request history write world after, D.Inv world →
    D.Informed world history → (∀ name ∈ held history, name ∉ world.spent) →
    D.guard request history (.commit write) → I.apply write world.store = some after →
      D.Inv ⟨after, held history ++ world.spent⟩ ∧
        D.Evolves world ⟨after, held history ++ world.spent⟩

/-- The discipline holds of a system: of its world and of every process. -/
structure Holds (system : System I Request ε α) : Prop where
  inv : D.Inv system.world
  names : NamesApart system
  meets : ∀ process ∈ system.processes,
    process.execution.Meets (D.guard process.request) (D.post process.request)
      process.history
  informed : ∀ process ∈ system.processes, D.Informed system.world process.history

variable {D}

theorem Informed.nil (world : World I) : D.Informed world [] :=
  ⟨by simp, by simp, by simp⟩

/-- Knowledge survives a commit by somebody else. -/
theorem Informed.later {program : Request → Execution I ε α} (hD : D.Verified program)
    {world world' : World I} {history : History I} (hinformed : D.Informed world history)
    (hevolves : D.Evolves world world') : D.Informed world' history :=
  ⟨hinformed.inv, fun past hpast =>
    hD.trans _ _ _ (hinformed.evolves past hpast) hevolves, hinformed.ordered⟩

theorem Informed.of_seen_eq {world : World I} {history history' : History I}
    (hinformed : D.Informed world history) (hseen : seen history' = seen history) :
    D.Informed world history' :=
  ⟨hseen ▸ hinformed.inv, hseen ▸ hinformed.evolves, hseen ▸ hinformed.ordered⟩

theorem Informed.saw {program : Request → Execution I ε α} (hD : D.Verified program)
    {world : World I} {history : History I} (hinformed : D.Informed world history)
    (hinv : D.Inv world) (moment : Nat) :
    D.Informed world (history ++ [.saw moment world]) := by
  refine ⟨?_, ?_, ?_⟩
  · intro past hpast
    rw [seen_saw, List.mem_append, List.mem_singleton] at hpast
    rcases hpast with hpast | rfl
    · exact hinformed.inv past hpast
    · exact hinv
  · intro past hpast
    rw [seen_saw, List.mem_append, List.mem_singleton] at hpast
    rcases hpast with hpast | rfl
    · exact hinformed.evolves past hpast
    · exact hD.refl _
  · rw [seen_saw, List.pairwise_append]
    refine ⟨hinformed.ordered, List.pairwise_singleton _ _, ?_⟩
    intro past hpast last hlast
    rw [List.mem_singleton] at hlast
    exact hlast ▸ hinformed.evolves past hpast

theorem holds_idle {world : World I} {issued : List I.Name} (hinv : D.Inv world)
    (hspent : ∀ name ∈ world.spent, name ∈ issued) :
    D.Holds (System.idle world issued) where
  inv := hinv
  names := ⟨hspent, by simp [System.idle], by simp [System.idle]⟩
  meets := by simp [System.idle]
  informed := by simp [System.idle]

section Steps

variable [DecidableEq I.Name] {program : Request → Execution I ε α}
variable {system : System I Request ε α}

theorem Holds.start (hD : D.Verified program) (hholds : D.Holds system)
    (request : Request) : D.Holds (system.step program (.start request)) where
  inv := hholds.inv
  names := by
    refine ⟨hholds.names.spent, ?_, ?_⟩
    · intro process hprocess name hname
      simp only [System.step, List.mem_append, List.mem_singleton] at hprocess
      rcases hprocess with hprocess | rfl
      · exact hholds.names.held process hprocess name hname
      · simp at hname
    · intro i j first second hfirst hsecond hne name hname
      simp only [System.step, List.getElem?_append] at hfirst hsecond
      split at hfirst
      · split at hsecond
        · exact hholds.names.apart i j first second hfirst hsecond hne name hname
        · rw [List.getElem?_singleton] at hsecond
          split at hsecond
          · simp only [Option.some.injEq] at hsecond
            subst hsecond
            simp
          · simp at hsecond
      · rw [List.getElem?_singleton] at hfirst
        split at hfirst
        · simp only [Option.some.injEq] at hfirst
          subst hfirst
          simp at hname
        · simp at hfirst
  meets := by
    intro process hprocess
    simp only [System.step, List.mem_append, List.mem_singleton] at hprocess
    rcases hprocess with hprocess | rfl
    · exact hholds.meets process hprocess
    · exact hD.meets request
  informed := by
    intro process hprocess
    simp only [System.step, List.mem_append, List.mem_singleton] at hprocess
    rcases hprocess with hprocess | rfl
    · exact hholds.informed process hprocess
    · exact Informed.nil _

end Steps

/-- What one node of work of a process does to the world keeps the discipline
for that process and respects the relation the others rely on. -/
theorem Holds.advance {program : Request → Execution I ε α}
    {system : System I Request ε α} (hD : D.Verified program) (hholds : D.Holds system)
    {process : Process I Request ε α} (hprocess : process ∈ system.processes)
    {moment : Nat} {reply : Reply I} {advanced : Advanced I Request ε α}
    (hadvance : Advances process system.world system.issued moment reply advanced) :
    D.Inv advanced.world ∧ D.Evolves system.world advanced.world ∧
      advanced.process.execution.Meets (D.guard advanced.process.request)
        (D.post advanced.process.request) advanced.process.history ∧
      D.Informed advanced.world advanced.process.history := by
  have hmeets := hholds.meets process hprocess
  have hinformed := hholds.informed process hprocess
  cases hadvance with
  | idle => exact ⟨hholds.inv, hD.refl _, hmeets, hinformed⟩
  | query hnode =>
      rw [hnode] at hmeets
      exact ⟨hholds.inv, hD.refl _, hmeets moment system.world,
        hinformed.saw hD hholds.inv moment⟩
  | draw hnode hfresh =>
      rw [hnode] at hmeets
      exact ⟨hholds.inv, hD.refl _, hmeets reply.name,
        hinformed.of_seen_eq (seen_drew _ _)⟩
  | refuse hnode happly =>
      rw [hnode] at hmeets
      exact ⟨hholds.inv, hD.refl _, hmeets.2 none,
        hinformed.of_seen_eq (seen_wrote _ _ _)⟩
  | commit hnode happly =>
      rw [hnode] at hmeets
      obtain ⟨hinv, hevolves⟩ := hD.keeps process.request process.history _ system.world _
        hholds.inv hinformed
        (fun name hname => (hholds.names.held process hprocess name hname).2)
        hmeets.1 happly
      exact ⟨hinv, hevolves, hmeets.2 (some (I.receipt _ _)),
        (hinformed.later hD hevolves).of_seen_eq (seen_wrote _ _ _)⟩
  | call hnode =>
      rw [hnode] at hmeets
      exact ⟨hholds.inv, hD.refl _, hmeets.2 (reply.answer _),
        hinformed.of_seen_eq (seen_heard _ _ _)⟩

end Discipline

/-- Where the names of a process can come from in one node of work: it held
them before, or they were just generated. -/
theorem Advances.held {process : Process I Request ε α} {world : World I}
    {issued : List I.Name} {moment : Nat} {reply : Reply I}
    {advanced : Advanced I Request ε α}
    (hadvance : Advances process world issued moment reply advanced) {name : I.Name}
    (hname : name ∈ Interleaving.held advanced.process.history) :
    (name ∈ Interleaving.held process.history ∧ advanced.world.spent = world.spent) ∨
      (name ∉ issued ∧ name ∈ advanced.issued ∧ advanced.world.spent = world.spent) := by
  cases hadvance with
  | idle => exact Or.inl ⟨hname, rfl⟩
  | query hnode => exact Or.inl ⟨by simpa using hname, rfl⟩
  | draw hnode hfresh =>
      simp only [held_drew, List.mem_append, List.mem_singleton] at hname
      rcases hname with hname | rfl
      · exact Or.inl ⟨hname, rfl⟩
      · exact Or.inr ⟨hfresh, List.mem_cons_self, rfl⟩
  | refuse hnode happly => exact Or.inl ⟨by simpa using hname, rfl⟩
  | commit hnode happly => simp at hname
  | call hnode => exact Or.inl ⟨by simpa using hname, rfl⟩

theorem Advances.issued_mono {process : Process I Request ε α} {world : World I}
    {issued : List I.Name} {moment : Nat} {reply : Reply I}
    {advanced : Advanced I Request ε α}
    (hadvance : Advances process world issued moment reply advanced) {name : I.Name}
    (hname : name ∈ issued) : name ∈ advanced.issued := by
  cases hadvance with
  | draw hnode hfresh => exact List.mem_cons_of_mem _ hname
  | _ => exact hname

/-- A node of work only spends names that its process held. -/
theorem Advances.spent {process : Process I Request ε α} {world : World I}
    {issued : List I.Name} {moment : Nat} {reply : Reply I}
    {advanced : Advanced I Request ε α}
    (hadvance : Advances process world issued moment reply advanced) {name : I.Name}
    (hname : name ∈ advanced.world.spent) :
    name ∈ world.spent ∨ name ∈ Interleaving.held process.history := by
  cases hadvance with
  | commit hnode happly =>
      simp only [List.mem_append] at hname
      exact hname.symm
  | _ => exact Or.inl hname

/-- Replacing a process by its advanced form keeps the names apart. -/
theorem NamesApart.advance {system : System I Request ε α} (hnames : NamesApart system) {index : Nat}
    {process : Process I Request ε α} (hindex : system.processes[index]? = some process)
    {moment : Nat} {reply : Reply I} {advanced : Advanced I Request ε α}
    (hadvance : Advances process system.world system.issued moment reply advanced) :
    NamesApart (⟨advanced.world, advanced.issued, system.moment + 1,
      system.processes.set index advanced.process⟩ : System I Request ε α) := by
  have hprocess : process ∈ system.processes := List.mem_of_getElem? hindex
  -- a name of the advanced process is unknown to every other process
  have hother : ∀ i other, i ≠ index → system.processes[i]? = some other →
      ∀ name ∈ Interleaving.held advanced.process.history,
        name ∉ Interleaving.held other.history := by
    intro i other hne hi name hname
    rcases hadvance.held hname with ⟨hold, _⟩ | ⟨hfresh, _, _⟩
    · exact hnames.apart index i process other hindex hi (Ne.symm hne) name hold
    · intro hheld
      exact hfresh (hnames.held other (List.mem_of_getElem? hi) name hheld).1
  refine ⟨?_, ?_, ?_⟩
  · intro name hname
    rcases hadvance.spent hname with hspent | hheld
    · exact hadvance.issued_mono (hnames.spent name hspent)
    · exact hadvance.issued_mono (hnames.held process hprocess name hheld).1
  · intro other hmem name hname
    obtain ⟨i, hi⟩ := List.getElem?_of_mem hmem
    simp only [List.getElem?_set] at hi
    split at hi
    · split at hi
      · simp only [Option.some.injEq] at hi
        subst hi
        rcases hadvance.held hname with ⟨hold, hsame⟩ | ⟨hfresh, hissued, hsame⟩
        · have hbefore := hnames.held process hprocess name hold
          exact ⟨hadvance.issued_mono hbefore.1, hsame ▸ hbefore.2⟩
        · exact ⟨hissued, fun hspent => hfresh (hnames.spent name (hsame ▸ hspent))⟩
      · simp at hi
    · rename_i hne
      have hbefore := hnames.held other (List.mem_of_getElem? hi) name hname
      refine ⟨hadvance.issued_mono hbefore.1, fun hspent => ?_⟩
      rcases hadvance.spent hspent with hspent | hheld
      · exact hbefore.2 hspent
      · exact hnames.apart index i process other hindex hi hne name hheld hname
  · intro i j first second hfirst hsecond hne name hname
    simp only [List.getElem?_set] at hfirst hsecond
    split at hfirst
    · rename_i hi
      subst hi
      rw [if_neg hne] at hsecond
      split at hfirst
      · simp only [Option.some.injEq] at hfirst
        subst hfirst
        exact hother j second (Ne.symm hne) hsecond name hname
      · simp at hfirst
    · rename_i hi
      split at hsecond
      · split at hsecond
        · simp only [Option.some.injEq] at hsecond
          subst hsecond
          exact fun hheld => hother i first (Ne.symm hi) hfirst name hheld hname
        · simp at hsecond
      · exact hnames.apart i j first second hfirst hsecond hne name hname

namespace Discipline

variable {D : Discipline I Request ε α} {system : System I Request ε α}

/-- A write that a process of the pool is about to ask for was guarded by its program. -/
theorem Holds.guard_node (hholds : D.Holds system) {process : Process I Request ε α}
    (hprocess : process ∈ system.processes) {write : I.Write}
    {next : Option (I.Receipt write) → Execution I ε α}
    (hnode : process.execution = .commit write next) :
    D.guard process.request process.history (.commit write) := by
  have hmeets := hholds.meets process hprocess
  rw [hnode] at hmeets
  exact hmeets.1

/-- Whatever commits next was guarded by its program. -/
theorem Holds.guard_commit (hholds : D.Holds system) {choice : Choice I Request}
    {commit : Commit I Request ε α} (hcommit : system.commit? choice = some commit) :
    D.guard commit.process.request commit.process.history (.commit commit.write) := by
  obtain ⟨hprocess, ⟨next, hnode⟩, _⟩ := System.commit?_eq_some hcommit
  exact hholds.guard_node hprocess hnode

/-- Whatever outside call is made next was guarded by its program. -/
theorem Holds.guard_call (hholds : D.Holds system) {choice : Choice I Request}
    {process : Process I Request ε α} {request : I.Call}
    (hcall : system.call? choice = some (process, request)) :
    D.guard process.request process.history (.call request) := by
  obtain ⟨hprocess, next, hnode⟩ := System.call?_eq_some hcall
  have hmeets := hholds.meets process hprocess
  rw [hnode] at hmeets
  exact hmeets.1

/-- A finished process satisfies its postcondition. -/
theorem Holds.outcome (hholds : D.Holds system) {process : Process I Request ε α}
    (hprocess : process ∈ system.processes) {outcome : Except ε α}
    (hdone : process.execution = .done outcome) :
    D.post process.request process.history outcome := by
  have hmeets := hholds.meets process hprocess
  rwa [hdone] at hmeets

variable [DecidableEq I.Name] {program : Request → Execution I ε α}

/-- Step rule: every choice of the scheduler keeps the discipline. -/
theorem Holds.step (hD : D.Verified program) (hholds : D.Holds system)
    (choice : Choice I Request) :
    D.Holds (system.step program choice) ∧
      D.Evolves system.world (system.step program choice).world := by
  cases choice with
  | start request => exact ⟨hholds.start hD request, hD.refl _⟩
  | advance index reply =>
      simp only [System.step]
      cases hindex : system.processes[index]? with
      | none =>
          exact ⟨⟨hholds.inv, ⟨hholds.names.spent, hholds.names.held, hholds.names.apart⟩,
            hholds.meets, hholds.informed⟩, hD.refl _⟩
      | some process =>
          have hadvance := process.advances system.world system.issued system.moment reply
          obtain ⟨hinv, hevolves, hmeets, hinformed⟩ :=
            hholds.advance hD (List.mem_of_getElem? hindex) hadvance
          refine ⟨⟨hinv, hholds.names.advance hindex hadvance, ?_, ?_⟩, hevolves⟩
          · intro other hother
            rcases List.mem_or_eq_of_mem_set hother with hother | rfl
            · exact hholds.meets other hother
            · exact hmeets
          · intro other hother
            rcases List.mem_or_eq_of_mem_set hother with hother | rfl
            · exact (hholds.informed other hother).later hD hevolves
            · exact hinformed

/-- Run rule: the discipline holds after every interleaving. -/
theorem Holds.run (hD : D.Verified program) (hholds : D.Holds system)
    (choices : List (Choice I Request)) :
    D.Holds (system.run program choices) ∧
      D.Evolves system.world (system.run program choices).world := by
  induction choices generalizing system with
  | nil => exact ⟨hholds, hD.refl _⟩
  | cons choice rest ih =>
      obtain ⟨hnext, hfirst⟩ := hholds.step hD choice
      obtain ⟨hlast, hrest⟩ := ih hnext
      exact ⟨hlast, hD.trans _ _ _ hfirst hrest⟩

end Discipline

section Instants

variable [DecidableEq I.Name] {program : Request → Execution I ε α}
variable {world : World I} {issued : List I.Name}

/-- Induction over runs for what holds of single processes: a property that
every start establishes, that time keeps and that every node of work keeps. -/
theorem processes_induction {P : List (Choice I Request) → Process I Request ε α → Prop}
    (hstart : ∀ choices request,
      P (choices ++ [.start request]) ⟨request, choices.length, [], program request⟩)
    (hkeep : ∀ choices choice process, P choices process →
      P (choices ++ [choice]) process)
    (hadvance : ∀ choices index reply process advanced,
      ((System.idle world issued : System I Request ε α).run program
        choices).processes[index]? = some process → P choices process →
          Advances process
            ((System.idle world issued : System I Request ε α).run program choices).world
            ((System.idle world issued : System I Request ε α).run program choices).issued
            choices.length reply advanced →
            P (choices ++ [.advance index reply]) advanced.process)
    (choices : List (Choice I Request)) :
    ∀ process ∈ ((System.idle world issued : System I Request ε α).run program
      choices).processes, P choices process := by
  induction choices using List.reverseRecOn with
  | nil => simp [System.idle]
  | append_singleton choices choice ih =>
      have hclock : ((System.idle world issued : System I Request ε α).run program
          choices).moment = choices.length := by
        simp [System.idle]
      intro process hprocess
      rw [System.run_snoc] at hprocess
      cases choice with
      | start request =>
          simp only [System.step, List.mem_append, List.mem_singleton] at hprocess
          rcases hprocess with hprocess | rfl
          · exact hkeep _ _ process (ih process hprocess)
          · rw [hclock]
            exact hstart choices request
      | advance index reply =>
          simp only [System.step] at hprocess
          cases hindex : ((System.idle world issued : System I Request ε α).run program
              choices).processes[index]? with
          | none =>
              rw [hindex] at hprocess
              exact hkeep _ _ process (ih process hprocess)
          | some old =>
              rw [hindex, hclock] at hprocess
              rcases List.mem_or_eq_of_mem_set hprocess with hprocess | rfl
              · exact hkeep _ _ process (ih process hprocess)
              · exact hadvance choices index reply old _ hindex
                  (ih old (List.mem_of_getElem? hindex)) (old.advances _ _ _ reply)

/-- Every process was started. -/
theorem request_started (choices : List (Choice I Request)) :
    ∀ process ∈ ((System.idle world issued : System I Request ε α).run program
        choices).processes, Choice.start process.request ∈ choices := by
  refine processes_induction (P := fun choices process =>
    Choice.start process.request ∈ choices) ?_ ?_ ?_ choices
  · intro choices request
    exact List.mem_append_right _ List.mem_cons_self
  · intro choices choice process hprocess
    exact List.mem_append_left _ hprocess
  · intro choices index reply process advanced _ hprocess hadvance
    rw [hadvance.request]
    exact List.mem_append_left _ hprocess

/-- Every snapshot in a history is the committed store at the instant it is
stamped with, an instant between the start of the process and now. -/
theorem saw_storeAt (choices : List (Choice I Request)) :
    ∀ process ∈ ((System.idle world issued : System I Request ε α).run program
        choices).processes,
      process.startedAt ≤ choices.length ∧
        ∀ moment past, Observation.saw moment past ∈ process.history →
          process.startedAt ≤ moment ∧ moment < choices.length ∧
            past.store =
              (System.idle world issued : System I Request ε α).storeAt program choices
                moment := by
  have hkeep : ∀ choices choice (process : Process I Request ε α),
      (process.startedAt ≤ choices.length ∧
        ∀ moment past, Observation.saw moment past ∈ process.history →
          process.startedAt ≤ moment ∧ moment < choices.length ∧
            past.store =
              (System.idle world issued : System I Request ε α).storeAt program choices
                moment) →
      (process.startedAt ≤ (choices ++ [choice]).length ∧
        ∀ moment past, Observation.saw moment past ∈ process.history →
          process.startedAt ≤ moment ∧ moment < (choices ++ [choice]).length ∧
            past.store =
              (System.idle world issued : System I Request ε α).storeAt program
                (choices ++ [choice]) moment) := by
    intro choices choice process hprocess
    obtain ⟨hstarted, hsaw⟩ := hprocess
    rw [List.length_append, List.length_singleton]
    refine ⟨by omega, ?_⟩
    intro moment past hmem
    obtain ⟨hfrom, hto, hstore⟩ := hsaw moment past hmem
    refine ⟨hfrom, by omega, ?_⟩
    rw [System.storeAt_append _ _ (Nat.le_of_lt hto), hstore]
  refine processes_induction ?_ hkeep ?_ choices
  · intro choices request
    simp
  · intro choices index reply process advanced _ hprocess hadvance
    have hstarted := hprocess.1
    have hlater := hkeep choices (.advance index reply) process hprocess
    cases hadvance with
    | idle => exact hlater
    | query hnode =>
        refine ⟨hlater.1, ?_⟩
        intro moment past hmem
        rcases List.mem_append.mp hmem with hmem | hmem
        · exact hlater.2 moment past hmem
        · cases List.mem_singleton.mp hmem
          rw [System.storeAt_append _ _ (Nat.le_refl _), System.storeAt_length,
            List.length_append, List.length_singleton]
          exact ⟨hstarted, Nat.lt_succ_self _, rfl⟩
    | draw hnode hfresh => exact ⟨hlater.1, by simpa using hlater.2⟩
    | refuse hnode happly => exact ⟨hlater.1, by simpa using hlater.2⟩
    | commit hnode happly => exact ⟨hlater.1, by simpa using hlater.2⟩
    | call hnode => exact ⟨hlater.1, by simpa using hlater.2⟩

/-- What a process read at an instant is what the run had stored then. -/
theorem read_storeAt (choices : List (Choice I Request)) :
    ∀ process ∈ ((System.idle world issued : System I Request ε α).run program
        choices).processes,
      ∀ moment store, (moment, store) ∈ reads process.history → moment < choices.length ∧
        store = (System.idle world issued : System I Request ε α).storeAt program choices
          moment := by
  intro process hprocess moment store hread
  obtain ⟨past, hsaw, rfl⟩ := mem_reads.mp hread
  have hstored := (saw_storeAt choices process hprocess).2 moment past hsaw
  exact hstored.2

/-- The instants at which a history read the store, oldest first. -/
def moments (history : History I) : List Nat :=
  history.filterMap fun observation =>
    match observation with
    | .saw moment _ => some moment
    | _ => none

/-- Reads are stamped in the order they are made. -/
theorem moments_increase (choices : List (Choice I Request)) :
    ∀ process ∈ ((System.idle world issued : System I Request ε α).run program
        choices).processes,
      (moments process.history).Pairwise (· < ·) ∧
        ∀ moment ∈ moments process.history, moment < choices.length := by
  refine processes_induction (P := fun choices process =>
    (moments process.history).Pairwise (· < ·) ∧
      ∀ moment ∈ moments process.history, moment < choices.length) ?_ ?_ ?_ choices
  · intro choices request
    simp [moments]
  · intro choices choice process hprocess
    refine ⟨hprocess.1, ?_⟩
    intro moment hmoment
    have hbound := hprocess.2 moment hmoment
    rw [List.length_append, List.length_singleton]
    omega
  · intro choices index reply process advanced _ hprocess hadvance
    obtain ⟨hordered, hbound⟩ := hprocess
    have hlater : ∀ moment ∈ moments process.history,
        moment < (choices ++ [Choice.advance index reply]).length := by
      intro moment hmoment
      have hearlier := hbound moment hmoment
      rw [List.length_append, List.length_singleton]
      omega
    cases hadvance with
    | idle => exact ⟨hordered, hlater⟩
    | query hnode =>
        have hmoments : moments (process.history ++ [.saw choices.length
            ((System.idle world issued : System I Request ε α).run program choices).world]) =
            moments process.history ++ [choices.length] := by
          simp [moments]
        rw [hmoments]
        refine ⟨?_, ?_⟩
        · rw [List.pairwise_append]
          refine ⟨hordered, List.pairwise_singleton _ _, ?_⟩
          intro moment hmoment last hlast
          rw [List.mem_singleton.mp hlast]
          exact hbound moment hmoment
        · intro moment hmoment
          rcases List.mem_append.mp hmoment with hmoment | hmoment
          · exact hlater moment hmoment
          · rw [List.mem_singleton.mp hmoment, List.length_append, List.length_singleton]
            omega
    | draw hnode hfresh => exact ⟨by simpa [moments] using hordered, by simpa [moments] using hlater⟩
    | refuse hnode happly => exact ⟨by simpa [moments] using hordered, by simpa [moments] using hlater⟩
    | commit hnode happly => exact ⟨by simpa [moments] using hordered, by simpa [moments] using hlater⟩
    | call hnode => exact ⟨by simpa [moments] using hordered, by simpa [moments] using hlater⟩

end Instants

/-- Every answer that the choice gives to an outside call satisfies `accepted`. -/
def Answers (accepted : (request : I.Call) → I.Answer request → Prop)
    (system : System I Request ε α) : Choice I Request → Prop
  | .start _ => True
  | .advance index reply => ∀ called ∈ system.call? (.advance index reply),
      accepted called.2 (reply.answer called.2)

instance {accepted : (request : I.Call) → I.Answer request → Prop}
    [∀ request answer, Decidable (accepted request answer)] (system : System I Request ε α)
    (choice : Choice I Request) : Decidable (Answers accepted system choice) :=
  match choice with
  | .start _ => isTrue trivial
  | .advance index reply =>
      inferInstanceAs (Decidable (∀ called ∈ system.call? (.advance index reply),
        accepted called.2 (reply.answer called.2)))

section Answers

variable [DecidableEq I.Name] {program : Request → Execution I ε α}
variable {accepted : (request : I.Call) → I.Answer request → Prop}

/-- What the processes heard are the answers that were given. -/
theorem heard_accepted {world : World I} {issued : List I.Name}
    {choices : List (Choice I Request)}
    (hanswers : System.Along program (Answers accepted) (System.idle world issued) choices) :
    ∀ process ∈ ((System.idle world issued : System I Request ε α).run program
        choices).processes,
      ∀ request answer, Observation.heard request answer ∈ process.history →
        accepted request answer := by
  intro process hprocess
  revert hanswers
  revert process
  refine processes_induction (P := fun choices process =>
    System.Along program (Answers accepted) (System.idle world issued) choices →
      ∀ request answer, Observation.heard request answer ∈ process.history →
        accepted request answer) ?_ ?_ ?_ choices
  · intro choices request _ call answer hheard
    cases hheard
  · intro choices choice process hprocess hanswers
    exact hprocess ((System.along_snoc _ choices choice).mp hanswers).1
  · intro choices index reply process advanced hindex hprocess hadvance hanswers
    obtain ⟨hbefore, hchoice⟩ := (System.along_snoc _ choices (.advance index reply)).mp hanswers
    have hold := hprocess hbefore
    intro request answer hheard
    cases hadvance with
    | call hnode =>
        rcases List.mem_append.mp hheard with hheard | hlast
        · exact hold _ _ hheard
        · cases List.mem_singleton.mp hlast
          refine hchoice (process, request) ?_
          simp only [System.call?, hindex, hnode, Option.mem_def]
    | idle => exact hold _ _ hheard
    | query hnode => exact hold _ _ (by simpa using hheard)
    | draw hnode hfresh => exact hold _ _ (by simpa using hheard)
    | refuse hnode happly => exact hold _ _ (by simpa using hheard)
    | commit hnode happly => exact hold _ _ (by simpa using hheard)

end Answers

end Interleaving
