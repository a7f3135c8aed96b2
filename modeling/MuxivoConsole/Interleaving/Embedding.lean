/-
Programs of one interface run as programs of a larger one, and an exception of
a program taken as its value.
-/
import MuxivoConsole.Interleaving.Execution

namespace Interleaving

/-- How the programs of `I` see the store of `J` and ask for its writes. -/
structure Embedding (I J : Interface) where
  store : J.Store → I.Store
  write : I.Write → J.Write
  receipt : (asked : I.Write) → J.Receipt (write asked) → I.Receipt asked
  name : J.Name → I.Name
  call : I.Call → J.Call
  answer : (asked : I.Call) → J.Answer (call asked) → I.Answer asked

variable {I J : Interface} {ε ε' α : Type}

/-- The same request in the larger interface. -/
def Embedding.action (embedding : Embedding I J) : Action I → Action J
  | .commit write => .commit (embedding.write write)
  | .call request => .call (embedding.call request)

namespace Execution

def embed (embedding : Embedding I J) : Execution I ε α → Execution J ε α
  | done outcome => done outcome
  | query next => query fun store => (next (embedding.store store)).embed embedding
  | draw next => draw fun name => (next (embedding.name name)).embed embedding
  | commit write next =>
      commit (embedding.write write) fun receipt =>
        (next (receipt.map (embedding.receipt write))).embed embedding
  | call request next =>
      call (embedding.call request) fun answer =>
        (next (embedding.answer request answer)).embed embedding

/-- Run a program and hand its exception on as a value: `try ... except`. -/
def attempt : Execution I ε α → Execution I ε' (Except ε α)
  | done outcome => done (.ok outcome)
  | query next => query fun store => (next store).attempt
  | draw next => draw fun name => (next name).attempt
  | commit write next => commit write fun receipt => (next receipt).attempt
  | call request next => call request fun answer => (next answer).attempt

section Rules

variable {guard : History I → Action I → Prop} {history : History I}

/-- What a program observed stays in its history. -/
theorem Meets.since {execution : Execution I ε α} {post : History I → Except ε α → Prop}
    {start : History I} (hstart : start <+: history)
    (hmeets : execution.Meets guard post history) :
    execution.Meets guard (fun after outcome => start <+: after ∧ post after outcome)
      history := by
  induction execution generalizing history with
  | done outcome => exact ⟨hstart, hmeets⟩
  | query next ih =>
      exact fun moment world =>
        ih world.store (hstart.trans (List.prefix_append _ _)) (hmeets moment world)
  | draw next ih =>
      exact fun name => ih name (hstart.trans (List.prefix_append _ _)) (hmeets name)
  | commit write next ih =>
      exact ⟨hmeets.1, fun receipt =>
        ih receipt (hstart.trans (List.prefix_append _ _)) (hmeets.2 receipt)⟩
  | call request next ih =>
      exact ⟨hmeets.1, fun answer =>
        ih answer (hstart.trans (List.prefix_append _ _)) (hmeets.2 answer)⟩

theorem Meets.attempt {execution : Execution I ε α} {post : History I → Except ε α → Prop}
    (hmeets : execution.Meets guard post history) :
    (execution.attempt : Execution I ε' (Except ε α)).Meets guard
      (fun after outcome => ∀ value, outcome = .ok value → post after value) history := by
  induction execution generalizing history with
  | done outcome =>
      intro value hvalue
      cases hvalue
      exact hmeets
  | query next ih => exact fun moment world => ih world.store (hmeets moment world)
  | draw next ih => exact fun name => ih name (hmeets name)
  | commit write next ih => exact ⟨hmeets.1, fun receipt => ih receipt (hmeets.2 receipt)⟩
  | call request next ih => exact ⟨hmeets.1, fun answer => ih answer (hmeets.2 answer)⟩

/-- A program whose requests are all of a kind asks only for requests of that
kind in the larger interface too, each with what was observed before. -/
theorem Meets.embed {embedding : Embedding I J} {execution : Execution I ε α}
    {allowed : Action I → Prop} {post : Except ε α → Prop}
    {guard' : History J → Action J → Prop} {start history' : History J}
    (hmeets : execution.Meets (fun _ action => allowed action) (fun _ outcome => post outcome)
      history)
    (hstart : start <+: history')
    (hallowed : ∀ after action, start <+: after → allowed action →
      guard' after (embedding.action action)) :
    (execution.embed embedding).Meets guard' (fun _ outcome => post outcome) history' := by
  induction execution generalizing history history' with
  | done outcome => exact hmeets
  | query next ih =>
      intro moment world
      exact ih _ (hmeets moment ⟨embedding.store world.store, []⟩)
        (hstart.trans (List.prefix_append _ _))
  | draw next ih =>
      exact fun name => ih _ (hmeets (embedding.name name))
        (hstart.trans (List.prefix_append _ _))
  | commit write next ih =>
      refine ⟨hallowed _ _ hstart hmeets.1, ?_⟩
      intro receipt
      exact ih _ (hmeets.2 (receipt.map (embedding.receipt write)))
        (hstart.trans (List.prefix_append _ _))
  | call request next ih =>
      refine ⟨hallowed _ _ hstart hmeets.1, ?_⟩
      intro answer
      exact ih _ (hmeets.2 (embedding.answer request answer))
        (hstart.trans (List.prefix_append _ _))

/-- What a program observed stays in its history. -/
theorem Ensures.since {execution : Execution I ε α} {post : History I → α → Prop}
    (hensures : execution.Ensures guard post history) :
    execution.Ensures guard (fun after value => history <+: after ∧ post after value)
      history := by
  apply Ensures.of_meets
  refine (hensures.meets.since (List.prefix_refl history)).mono (fun _ _ hguard => hguard) ?_
  intro after outcome hpost value hvalue
  exact ⟨hpost.1, hpost.2 value hvalue⟩

theorem Ensures.attempt {execution : Execution I ε α} {post : History I → α → Prop}
    (hensures : execution.Ensures guard post history) :
    (execution.attempt : Execution I ε' (Except ε α)).Ensures guard
      (fun after result => ∀ value, result = .ok value → post after value) history :=
  Ensures.of_meets hensures.meets.attempt

theorem Ensures.embed {embedding : Embedding I J} {execution : Execution I ε α}
    {allowed : Action I → Prop} {post : α → Prop}
    {guard' : History J → Action J → Prop} {history' : History J}
    (hensures : execution.Ensures (fun _ action => allowed action)
      (fun _ value => post value) history)
    (hallowed : ∀ after action, history' <+: after → allowed action →
      guard' after (embedding.action action)) :
    (execution.embed embedding).Ensures guard' (fun _ value => post value) history' :=
  Ensures.of_meets (hensures.meets.embed (List.prefix_refl history') hallowed)

end Rules

end Execution

end Interleaving
