/-
Runs of a machine whose events may be refused, with the events as their history.
-/
import Mathlib.Data.List.Basic

namespace Events

variable {σ ε : Type} {step : σ → ε → Option σ} {allowed : σ → ε → Prop} {start state : σ}
  {events : List ε}

/-- The runs whose steps are all allowed; the latest event comes first. -/
inductive Runs (step : σ → ε → Option σ) (allowed : σ → ε → Prop) (start : σ) :
    List ε → σ → Prop where
  | start : Runs step allowed start [] start
  | step {events : List ε} {state next : σ} {event : ε} : Runs step allowed start events state →
      allowed state event → step state event = some next →
        Runs step allowed start (event :: events) next

/-- What holds at the start and is kept by each allowed step holds in every state of a run. -/
theorem Runs.invariant {motive : List ε → σ → Prop} (hstart : motive [] start)
    (hstep : ∀ events state event next, motive events state → allowed state event →
      step state event = some next → motive (event :: events) next)
    (hruns : Runs step allowed start events state) : motive events state := by
  induction hruns with
  | start => exact hstart
  | step _ hallowed hnext ih => exact hstep _ _ _ _ ih hallowed hnext

section Replay

variable [∀ state event, Decidable (allowed state event)]

/-- One allowed step. -/
def stepIf (step : σ → ε → Option σ) (allowed : σ → ε → Prop)
    [∀ state event, Decidable (allowed state event)] (state : σ) (event : ε) : Option σ :=
  if allowed state event then step state event else none

/-- The state behind a list of events, the earliest one first. -/
def replay (step : σ → ε → Option σ) (allowed : σ → ε → Prop)
    [∀ state event, Decidable (allowed state event)] (start : σ) (events : List ε) : Option σ :=
  events.foldlM (stepIf step allowed) start

theorem runs_of_replay_from {earlier : List ε} {next : σ}
    (hruns : Runs step allowed start earlier state)
    (hreplay : replay step allowed state events = some next) :
    Runs step allowed start (events.reverse ++ earlier) next := by
  induction events generalizing state earlier with
  | nil =>
      cases hreplay
      exact hruns
  | cons event events ih =>
      rw [replay, List.foldlM_cons, Option.bind_eq_bind, Option.bind_eq_some_iff] at hreplay
      obtain ⟨middle, hstep, hrest⟩ := hreplay
      rw [List.reverse_cons, List.append_assoc, List.singleton_append]
      unfold stepIf at hstep
      split_ifs at hstep with hallowed
      exact ih (hruns.step hallowed hstep) hrest

/-- What can be replayed is a run. -/
theorem runs_of_replay (hreplay : replay step allowed start events = some state) :
    Runs step allowed start events.reverse state := by
  have hruns := runs_of_replay_from .start hreplay
  rwa [List.append_nil] at hruns

end Replay

end Events
