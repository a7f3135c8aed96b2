/-
Programs whose work on a shared store is a sequence of separate transactions.
An execution is the tree of everything such a program can do: it reads one
committed snapshot at a time, asks one atomic write at a time, draws names
from a generator and calls services outside.  Nothing holds between two nodes
of the tree, so an interleaving of executions may put other commits there.
-/
import Mathlib.Data.List.Infix

namespace Interleaving

/-- What a family of programs can touch.  A write either commits as a whole
(`some`) or leaves the store alone (`none`); the caller of one that commits gets
a receipt, which depends on the store that the write found. -/
structure Interface where
  Store : Type
  Write : Type
  apply : Write → Store → Option Store
  Receipt : Write → Type
  receipt : (write : Write) → Store → Receipt write
  Name : Type
  Call : Type
  Answer : Call → Type

/-- The store together with the names that committed transactions used up. -/
structure World (I : Interface) where
  store : I.Store
  spent : List I.Name

/-- One thing a running program did, with what it learned from it. -/
inductive Observation (I : Interface) where
  | saw (moment : Nat) (world : World I)
  | drew (name : I.Name)
  | heard (request : I.Call) (answer : I.Answer request)
  | wrote (write : I.Write) (saved : Bool)

/-- Everything one program did so far, oldest first. -/
abbrev History (I : Interface) := List (Observation I)

inductive Execution (I : Interface) (ε α : Type) where
  | done (outcome : Except ε α)
  | query (next : I.Store → Execution I ε α)
  | draw (next : I.Name → Execution I ε α)
  | commit (write : I.Write) (next : Option (I.Receipt write) → Execution I ε α)
  | call (request : I.Call) (next : I.Answer request → Execution I ε α)

variable {I : Interface} {ε α β : Type}

namespace Execution

def bind : Execution I ε α → (α → Execution I ε β) → Execution I ε β
  | done (.ok value), continuation => continuation value
  | done (.error error), _ => done (.error error)
  | query next, continuation => query fun store => (next store).bind continuation
  | draw next, continuation => draw fun name => (next name).bind continuation
  | commit write next, continuation =>
      commit write fun receipt => (next receipt).bind continuation
  | call request next, continuation =>
      call request fun answer => (next answer).bind continuation

instance : Monad (Execution I ε) where
  pure value := done (.ok value)
  bind := bind

/-- Raise an error; nothing after it runs. -/
def raise (error : ε) : Execution I ε α :=
  done (.error error)

/-- Read a projection of one committed snapshot. -/
def select (read : I.Store → α) : Execution I ε α :=
  query fun store => pure (read store)

def newName : Execution I ε I.Name :=
  draw pure

/-- Run one write transaction; the answer is its receipt, if it committed. -/
def transact (write : I.Write) : Execution I ε (Option (I.Receipt write)) :=
  commit write pure

/-- Run one write transaction; the answer says whether it committed. -/
def save (write : I.Write) : Execution I ε Bool :=
  commit write fun receipt => pure receipt.isSome

def ask (request : I.Call) : Execution I ε (I.Answer request) :=
  call request pure

@[simp] theorem pure_bind_eq (value : α) (continuation : α → Execution I ε β) :
    ((pure value : Execution I ε α) >>= continuation) = continuation value :=
  rfl

@[simp] theorem raise_bind_eq (error : ε) (continuation : α → Execution I ε β) :
    ((raise error : Execution I ε α) >>= continuation) = raise error :=
  rfl

end Execution

/-- A step that may be refused to a program: a write or an outside call. -/
inductive Action (I : Interface) where
  | commit (write : I.Write)
  | call (request : I.Call)

/-- Names drawn since the last committed write, hence not used by any write
yet. -/
def held (history : History I) : List I.Name :=
  history.foldl (fun names observation =>
    match observation with
    | .drew name => names ++ [name]
    | .wrote _ true => []
    | _ => names) []

@[simp] theorem held_nil : held ([] : History I) = [] := rfl

@[simp] theorem held_saw (history : History I) (moment : Nat) (world : World I) :
    held (history ++ [.saw moment world]) = held history := by
  simp [held]

@[simp] theorem held_drew (history : History I) (name : I.Name) :
    held (history ++ [.drew name]) = held history ++ [name] := by
  simp [held]

theorem mem_held_drew (history : History I) (name : I.Name) :
    name ∈ held (history ++ [.drew name]) := by
  rw [held_drew]
  exact List.mem_append_right _ List.mem_cons_self

@[simp] theorem held_heard (history : History I) (request : I.Call)
    (answer : I.Answer request) :
    held (history ++ [.heard request answer]) = held history := by
  simp [held]

@[simp] theorem held_wrote_true (history : History I) (write : I.Write) :
    held (history ++ [.wrote write true]) = [] := by
  simp [held]

@[simp] theorem held_wrote_false (history : History I) (write : I.Write) :
    held (history ++ [.wrote write false]) = held history := by
  simp [held]

/-- The worlds read since the last committed write, oldest first. -/
def recent (history : History I) : List (World I) :=
  history.foldl (fun worlds observation =>
    match observation with
    | .saw _ world => worlds ++ [world]
    | .wrote _ true => []
    | _ => worlds) []

@[simp] theorem recent_nil : recent ([] : History I) = [] := rfl

@[simp] theorem recent_saw (history : History I) (moment : Nat) (world : World I) :
    recent (history ++ [.saw moment world]) = recent history ++ [world] := by
  simp [recent]

theorem mem_recent_saw (history : History I) (moment : Nat) (world : World I) :
    world ∈ recent (history ++ [.saw moment world]) := by
  rw [recent_saw]
  exact List.mem_append_right _ List.mem_cons_self

@[simp] theorem recent_drew (history : History I) (name : I.Name) :
    recent (history ++ [.drew name]) = recent history := by
  simp [recent]

@[simp] theorem recent_heard (history : History I) (request : I.Call)
    (answer : I.Answer request) :
    recent (history ++ [.heard request answer]) = recent history := by
  simp [recent]

@[simp] theorem recent_wrote_true (history : History I) (write : I.Write) :
    recent (history ++ [.wrote write true]) = [] := by
  simp [recent]

@[simp] theorem recent_wrote_false (history : History I) (write : I.Write) :
    recent (history ++ [.wrote write false]) = recent history := by
  simp [recent]

namespace Execution

/-- `execution.Meets guard post history`: continuing from `history`, whatever
the store shows and the services answer, every write and call the execution
makes satisfies `guard` and its outcome satisfies `post`. -/
def Meets (guard : History I → Action I → Prop)
    (post : History I → Except ε α → Prop) :
    Execution I ε α → History I → Prop
  | done outcome, history => post history outcome
  | query next, history =>
      ∀ moment world, (next world.store).Meets guard post (history ++ [.saw moment world])
  | draw next, history =>
      ∀ name, (next name).Meets guard post (history ++ [.drew name])
  | commit write next, history =>
      guard history (.commit write) ∧
        ∀ receipt, (next receipt).Meets guard post
          (history ++ [.wrote write receipt.isSome])
  | call request next, history =>
      guard history (.call request) ∧
        ∀ answer, (next answer).Meets guard post (history ++ [.heard request answer])

section Rules

variable {guard guard' : History I → Action I → Prop}
variable {history : History I}

/-- Rule of consequence. -/
theorem Meets.mono {execution : Execution I ε α}
    {post post' : History I → Except ε α → Prop}
    (hmeets : execution.Meets guard post history)
    (hguard : ∀ history action, guard history action → guard' history action)
    (hpost : ∀ history outcome, post history outcome → post' history outcome) :
    execution.Meets guard' post' history := by
  induction execution generalizing history with
  | done outcome => exact hpost history outcome hmeets
  | query next ih => exact fun moment world => ih world.store (hmeets moment world)
  | draw next ih => exact fun name => ih name (hmeets name)
  | commit write next ih =>
      exact ⟨hguard _ _ hmeets.1, fun receipt => ih receipt (hmeets.2 receipt)⟩
  | call request next ih =>
      exact ⟨hguard _ _ hmeets.1, fun answer => ih answer (hmeets.2 answer)⟩

/-- Rule of composition: the second program starts from whatever history the
first one leaves; an error of the first ends the whole. -/
theorem Meets.bind {execution : Execution I ε α}
    {continuation : α → Execution I ε β}
    {middle : History I → Except ε α → Prop}
    {post : History I → Except ε β → Prop}
    (hfirst : execution.Meets guard middle history)
    (hthen : ∀ history value, middle history (.ok value) →
      (continuation value).Meets guard post history)
    (herror : ∀ history error, middle history (.error error) →
      post history (.error error)) :
    (execution >>= continuation).Meets guard post history := by
  change (execution.bind continuation).Meets guard post history
  induction execution generalizing history with
  | done outcome =>
      cases outcome with
      | error error => exact herror history error hfirst
      | ok value => exact hthen history value hfirst
  | query next ih => exact fun moment world => ih world.store (hfirst moment world)
  | draw next ih => exact fun name => ih name (hfirst name)
  | commit write next ih =>
      exact ⟨hfirst.1, fun receipt => ih receipt (hfirst.2 receipt)⟩
  | call request next ih =>
      exact ⟨hfirst.1, fun answer => ih answer (hfirst.2 answer)⟩

end Rules

end Execution

/-- `after` continues `before` without a write in between. -/
def Quiet (before after : History I) : Prop :=
  ∃ added : History I, after = before ++ added ∧
    ∀ write saved, Observation.wrote write saved ∉ added

theorem Quiet.refl (history : History I) : Quiet history history :=
  ⟨[], by simp⟩

theorem Quiet.trans {first second third : History I} (hfirst : Quiet first second)
    (hsecond : Quiet second third) : Quiet first third := by
  obtain ⟨added, rfl, hadded⟩ := hfirst
  obtain ⟨more, rfl, hmore⟩ := hsecond
  refine ⟨added ++ more, List.append_assoc _ _ _, ?_⟩
  intro write saved hmem
  rcases List.mem_append.mp hmem with hmem | hmem
  · exact hadded write saved hmem
  · exact hmore write saved hmem

/-- One more observation that is no write keeps the history quiet. -/
theorem Quiet.snoc {before after : History I} (hquiet : Quiet before after)
    {observation : Observation I}
    (hnot : ∀ write saved, observation ≠ .wrote write saved) :
    Quiet before (after ++ [observation]) :=
  hquiet.trans ⟨[observation], rfl, fun write saved hmem =>
    hnot write saved (List.mem_singleton.mp hmem).symm⟩

theorem Quiet.saw (history : History I) (moment : Nat) (world : World I) :
    Quiet history (history ++ [.saw moment world]) :=
  (Quiet.refl history).snoc (by simp)

theorem Quiet.drew (history : History I) (name : I.Name) :
    Quiet history (history ++ [.drew name]) :=
  (Quiet.refl history).snoc (by simp)

theorem Quiet.heard (history : History I) (request : I.Call) (answer : I.Answer request) :
    Quiet history (history ++ [.heard request answer]) :=
  (Quiet.refl history).snoc (by simp)

theorem Quiet.mem {before after : History I} (hquiet : Quiet before after)
    {observation : Observation I} (hmem : observation ∈ before) :
    observation ∈ after := by
  obtain ⟨added, rfl, _⟩ := hquiet
  exact List.mem_append_left added hmem

/-- Names stay held as long as nothing is written. -/
theorem Quiet.held {before after : History I} (hquiet : Quiet before after)
    {name : I.Name} (hname : name ∈ held before) : name ∈ held after := by
  obtain ⟨added, rfl, hadded⟩ := hquiet
  induction added using List.reverseRecOn with
  | nil => simpa using hname
  | append_singleton added observation ih =>
      have hextends : ∀ write saved, Observation.wrote write saved ∉ added :=
        fun write saved hmem => hadded write saved (List.mem_append_left _ hmem)
      have hkept := ih hextends
      rw [← List.append_assoc]
      cases observation with
      | saw moment world => rwa [held_saw]
      | drew other =>
          rw [held_drew]
          exact List.mem_append_left _ hkept
      | heard request answer => rwa [held_heard]
      | wrote write saved => exact absurd (by simp) (hadded write saved)

/-- What was read lately stays so as long as nothing is written. -/
theorem Quiet.recent {before after : History I} (hquiet : Quiet before after)
    {world : World I} (hworld : world ∈ recent before) : world ∈ recent after := by
  obtain ⟨added, rfl, hadded⟩ := hquiet
  induction added using List.reverseRecOn with
  | nil => simpa using hworld
  | append_singleton added observation ih =>
      have hextends : ∀ write saved, Observation.wrote write saved ∉ added :=
        fun write saved hmem => hadded write saved (List.mem_append_left _ hmem)
      have hkept := ih hextends
      rw [← List.append_assoc]
      cases observation with
      | saw moment other =>
          rw [recent_saw]
          exact List.mem_append_left _ hkept
      | drew name => rwa [recent_drew]
      | heard request answer => rwa [recent_heard]
      | wrote write saved => exact absurd (by simp) (hadded write saved)

namespace Execution

/-- Partial correctness: every write and call satisfies `guard`, and a value
that is returned satisfies `post`; an error ends the program and promises
nothing. -/
def Ensures (guard : History I → Action I → Prop) (post : History I → α → Prop)
    (execution : Execution I ε α) (history : History I) : Prop :=
  execution.Meets guard (fun after outcome => ∀ value, outcome = .ok value → post after value)
    history

section Ensures

variable {guard : History I → Action I → Prop} {history : History I}

theorem ensures_pure {post : History I → α → Prop} {value : α} (hpost : post history value) :
    (pure value : Execution I ε α).Ensures guard post history := by
  intro returned hreturned
  cases hreturned
  exact hpost

theorem ensures_raise {post : History I → α → Prop} {error : ε} :
    (raise error : Execution I ε α).Ensures guard post history := by
  intro returned hreturned
  cases hreturned

theorem ensures_select {read : I.Store → α} :
    (select read : Execution I ε α).Ensures guard
      (fun after value => ∃ moment world,
        after = history ++ [.saw moment world] ∧ value = read world.store) history := by
  intro moment world returned hreturned
  cases hreturned
  exact ⟨moment, world, rfl, rfl⟩

theorem ensures_newName :
    (newName : Execution I ε I.Name).Ensures guard
      (fun after name => after = history ++ [.drew name]) history := by
  intro name returned hreturned
  cases hreturned
  rfl

theorem ensures_save {write : I.Write} (hguard : guard history (.commit write)) :
    (save write : Execution I ε Bool).Ensures guard
      (fun after saved => after = history ++ [.wrote write saved]) history := by
  refine ⟨hguard, ?_⟩
  intro receipt returned hreturned
  cases hreturned
  rfl

theorem ensures_transact {write : I.Write} (hguard : guard history (.commit write)) :
    (transact write : Execution I ε (Option (I.Receipt write))).Ensures guard
      (fun after receipt => after = history ++ [.wrote write receipt.isSome]) history := by
  refine ⟨hguard, ?_⟩
  intro receipt returned hreturned
  cases hreturned
  rfl

theorem ensures_ask {request : I.Call} (hguard : guard history (.call request)) :
    (ask request : Execution I ε (I.Answer request)).Ensures guard
      (fun after answer => after = history ++ [.heard request answer]) history := by
  refine ⟨hguard, ?_⟩
  intro answer returned hreturned
  cases hreturned
  rfl

theorem Ensures.bind {execution : Execution I ε α} {continuation : α → Execution I ε β}
    {middle : History I → α → Prop} {post : History I → β → Prop}
    (hfirst : execution.Ensures guard middle history)
    (hthen : ∀ after value, middle after value →
      (continuation value).Ensures guard post after) :
    (execution >>= continuation).Ensures guard post history := by
  refine Meets.bind hfirst ?_ ?_
  · intro after value hmiddle
    exact hthen after value (hmiddle value rfl)
  · intro after error _ value hvalue
    cases hvalue

theorem Ensures.ite {condition : Prop} [Decidable condition] {first second : Execution I ε α}
    {post : History I → α → Prop}
    (hfirst : condition → first.Ensures guard post history)
    (hsecond : ¬ condition → second.Ensures guard post history) :
    (if condition then first else second).Ensures guard post history := by
  by_cases hcondition : condition
  · rw [if_pos hcondition]
    exact hfirst hcondition
  · rw [if_neg hcondition]
    exact hsecond hcondition

theorem Ensures.mono {execution : Execution I ε α} {post post' : History I → α → Prop}
    (hensures : execution.Ensures guard post history)
    (hpost : ∀ after value, post after value → post' after value) :
    execution.Ensures guard post' history :=
  Meets.mono hensures (fun _ _ hguard => hguard)
    fun after _ houtcome value hvalue => hpost after value (houtcome value hvalue)

theorem Ensures.meets {execution : Execution I ε α} {post : History I → α → Prop}
    (hensures : execution.Ensures guard post history) :
    execution.Meets guard
      (fun after outcome => ∀ value, outcome = .ok value → post after value) history :=
  hensures

theorem Ensures.of_meets {execution : Execution I ε α} {post : History I → α → Prop}
    (hmeets : execution.Meets guard
      (fun after outcome => ∀ value, outcome = .ok value → post after value) history) :
    execution.Ensures guard post history :=
  hmeets

end Ensures

-- the rules above are the interface: elaboration must not run the program
attribute [irreducible] Ensures

end Execution

end Interleaving
