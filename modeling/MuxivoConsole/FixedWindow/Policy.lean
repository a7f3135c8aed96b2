/-
Fixed windows: the calls under a key are counted from the call that opens a window until the
window closes, and the first of them are admitted.  A machine that gives the same verdict at
every step, along a relation that its steps keep, gives the same verdicts over a whole run.
-/
import Mathlib.Algebra.Order.Group.Defs
import Mathlib.Data.List.Basic
import Mathlib.Logic.Function.Basic

namespace FixedWindow

variable {κ τ σ : Type}

/-- How many calls are admitted within a window, and how long a window is. -/
structure Rule (τ : Type) where
  limit : Nat
  length : τ

structure Call (κ τ : Type) where
  key : κ
  time : τ

/-- The calls counted so far and the instant at which the count ends. -/
structure Window (τ : Type) where
  calls : Nat
  closesAt : τ

abbrev Windows (κ τ : Type) := κ → Option (Window τ)

section Counting

variable [DecidableEq κ] [LinearOrder τ] [Add τ] (rules : κ → Option (Rule τ))

/-- The window that a call belongs to, counting the call. -/
def Window.enter (rule : Rule τ) (time : τ) : Option (Window τ) → Window τ
  | none => ⟨1, time + rule.length⟩
  | some window =>
      if window.closesAt ≤ time then ⟨1, time + rule.length⟩
      else { window with calls := window.calls + 1 }

/-- The call is the first of its window. -/
def Opens (windows : Windows κ τ) (call : Call κ τ) : Prop :=
  ∀ window, windows call.key = some window → window.closesAt ≤ call.time

/-- One call, and whether it is admitted; nothing is counted without a rule. -/
def step (windows : Windows κ τ) (call : Call κ τ) : Windows κ τ × Bool :=
  match rules call.key with
  | none => (windows, true)
  | some rule =>
      let window := Window.enter rule call.time (windows call.key)
      (Function.update windows call.key (some window), decide (window.calls ≤ rule.limit))

variable {rules} {windows : Windows κ τ} {call : Call κ τ}

theorem step_of_none (hrule : rules call.key = none) :
    step rules windows call = (windows, true) := by
  unfold step
  rw [hrule]

theorem step_of_some {rule : Rule τ} {window : Window τ} (hrule : rules call.key = some rule)
    (hwindow : Window.enter rule call.time (windows call.key) = window) :
    step rules windows call =
      (Function.update windows call.key (some window), decide (window.calls ≤ rule.limit)) := by
  unfold step
  rw [hrule]
  dsimp only
  rw [hwindow]

theorem Window.enter_positive (rule : Rule τ) (time : τ) (window : Option (Window τ)) :
    1 ≤ (Window.enter rule time window).calls := by
  cases window with
  | none => exact Nat.le_refl 1
  | some opened =>
      by_cases hclosed : opened.closesAt ≤ time
      · rw [Window.enter, if_pos hclosed]
      · rw [Window.enter, if_neg hclosed]
        exact Nat.le_add_left 1 _

end Counting

section Machines

variable {χ δ : Type}

/-- The state that a machine is in after some calls. -/
def after (next : σ → χ → σ × δ) : σ → List χ → σ
  | state, [] => state
  | state, call :: rest => after next (next state call).1 rest

/-- What a machine answers to the calls. -/
def answers (next : σ → χ → σ × δ) : σ → List χ → List δ
  | _, [] => []
  | state, call :: rest => (next state call).2 :: answers next (next state call).1 rest

variable {next : σ → χ → σ × δ}

theorem after_append (state : σ) (first second : List χ) :
    after next state (first ++ second) = after next (after next state first) second := by
  induction first generalizing state with
  | nil => rfl
  | cons call rest ih => exact ih _

theorem answers_append (state : σ) (first second : List χ) :
    answers next state (first ++ second) =
      answers next state first ++ answers next (after next state first) second := by
  induction first generalizing state with
  | nil => rfl
  | cons call rest ih => exact congrArg _ (ih _)

@[simp] theorem length_answers (state : σ) (calls : List χ) :
    (answers next state calls).length = calls.length := by
  induction calls generalizing state with
  | nil => rfl
  | cons call rest ih => exact congrArg Nat.succ (ih _)

/-- Rule of simulation: the calls may be written differently on the two sides. -/
theorem simulation {σ' χ' δ' : Type} {next' : σ' → χ' → σ' × δ'} {related : σ → σ' → Prop}
    {translate : χ → χ'} {verdict : δ → Bool} {verdict' : δ' → Bool} {calls : List χ}
    (hstep : ∀ call ∈ calls, ∀ state state', related state state' →
      related (next state call).1 (next' state' (translate call)).1 ∧
        verdict (next state call).2 = verdict' (next' state' (translate call)).2)
    {state : σ} {state' : σ'} (hrelated : related state state') :
    related (after next state calls) (after next' state' (calls.map translate)) ∧
      (answers next state calls).map verdict =
        (answers next' state' (calls.map translate)).map verdict' := by
  induction calls generalizing state state' with
  | nil => exact ⟨hrelated, rfl⟩
  | cons call rest ih =>
      obtain ⟨hnext, hverdict⟩ := hstep call List.mem_cons_self state state' hrelated
      obtain ⟨hafter, hverdicts⟩ := ih
        (fun other hother => hstep other (List.mem_cons_of_mem _ hother)) hnext
      refine ⟨hafter, ?_⟩
      rw [answers, List.map_cons, List.map_cons, answers, List.map_cons, hverdict, hverdicts]

end Machines

section Admission

variable [DecidableEq κ] [LinearOrder τ] {key : κ}

/-- The admitted calls of a key before an instant. -/
def admitted (key : κ) (closesAt : τ) (calls : List (Call κ τ)) (verdicts : List Bool) : Nat :=
  (calls.zip verdicts).countP fun entry =>
    decide (entry.1.key = key) && decide (entry.1.time < closesAt) && entry.2

theorem admitted_of_late {closesAt : τ} {calls : List (Call κ τ)} {verdicts : List Bool}
    (hlate : ∀ call ∈ calls, closesAt ≤ call.time) : admitted key closesAt calls verdicts = 0 := by
  refine List.countP_eq_zero.mpr ?_
  intro entry hentry hadmitted
  simp only [Bool.and_eq_true, decide_eq_true_eq] at hadmitted
  have hcall : entry.1 ∈ calls := (List.of_mem_zip hentry).1
  exact absurd hadmitted.1.2 (not_lt.mpr (hlate entry.1 hcall))

variable [Add τ] {rules : κ → Option (Rule τ)} {windows : Windows κ τ}

theorem step_fst_of_ne {call : Call κ τ} (hne : call.key ≠ key) :
    (step rules windows call).1 key = windows key := by
  cases hrule : rules call.key with
  | none => rw [step_of_none hrule]
  | some rule =>
      rw [step_of_some hrule rfl]
      exact Function.update_of_ne (Ne.symm hne) _ _

/-- While a window lasts, no more calls are admitted than its count leaves over.  By
induction on the calls: a call of the key moves the count on, a call after the end of the
window leaves only later ones. -/
theorem admitted_le_rest {rule : Rule τ} (hrule : rules key = some rule)
    {calls : List (Call κ τ)} (htimes : calls.Pairwise fun first second =>
      first.time ≤ second.time) {window : Window τ} (hwindow : windows key = some window) :
    admitted key window.closesAt calls (answers (step rules) windows calls) ≤
      rule.limit - window.calls := by
  induction calls generalizing windows window with
  | nil => exact Nat.zero_le _
  | cons call rest ih =>
      obtain ⟨hlater, hrest⟩ := List.pairwise_cons.mp htimes
      by_cases hclosed : window.closesAt ≤ call.time
      · have hnone : admitted key window.closesAt (call :: rest)
            (answers (step rules) windows (call :: rest)) = 0 := by
          refine admitted_of_late ?_
          intro other hother
          rcases List.mem_cons.mp hother with rfl | hother
          · exact hclosed
          · exact le_trans hclosed (hlater other hother)
        omega
      · have hcount : admitted key window.closesAt (call :: rest)
            (answers (step rules) windows (call :: rest)) =
              admitted key window.closesAt rest
                (answers (step rules) (step rules windows call).1 rest) +
              if decide (call.key = key) && decide (call.time < window.closesAt) &&
                (step rules windows call).2 then 1 else 0 :=
          List.countP_cons
        rw [hcount]
        by_cases hkey : call.key = key
        · have hnext : step rules windows call =
              (Function.update windows key (some { window with calls := window.calls + 1 }),
                decide (window.calls + 1 ≤ rule.limit)) := by
            have hentered : Window.enter rule call.time (windows call.key) =
                { window with calls := window.calls + 1 } := by
              rw [hkey, hwindow, Window.enter, if_neg hclosed]
            rw [step_of_some (hkey ▸ hrule) hentered, hkey]
          have hcounted : (step rules windows call).1 key =
              some { window with calls := window.calls + 1 } := by
            rw [hnext]
            exact Function.update_self _ _ _
          have hle : admitted key window.closesAt rest
              (answers (step rules) (step rules windows call).1 rest) ≤
                rule.limit - (window.calls + 1) := ih hrest hcounted
          have hallows : (step rules windows call).2 = decide (window.calls + 1 ≤ rule.limit) := by
            rw [hnext]
          rw [hallows]
          by_cases hroom : window.calls + 1 ≤ rule.limit
          · simp only [hkey, hroom, decide_true, Bool.and_true, Bool.true_and,
              decide_eq_true_eq]
            split <;> omega
          · simp only [hroom, decide_false, Bool.and_false, Bool.false_eq_true, ↓reduceIte]
            omega
        · have hkept : (step rules windows call).1 key = some window :=
            (step_fst_of_ne hkey).trans hwindow
          have hle := ih hrest hkept
          simp only [hkey, decide_false, Bool.false_and, Bool.false_eq_true, ↓reduceIte]
          omega

/-- From the call that opens a window on, the limit is what is admitted before it closes. -/
theorem admitted_le_limit {rule : Rule τ} {call : Call κ τ} (hrule : rules call.key = some rule)
    (hopens : Opens windows call) {calls : List (Call κ τ)}
    (htimes : calls.Pairwise fun first second => first.time ≤ second.time)
    (hlimit : 1 ≤ rule.limit) :
    admitted call.key (call.time + rule.length) (call :: calls)
      (answers (step rules) windows (call :: calls)) ≤ rule.limit := by
  have hnext : step rules windows call =
      (Function.update windows call.key (some ⟨1, call.time + rule.length⟩),
        decide (1 ≤ rule.limit)) := by
    have hentered : Window.enter rule call.time (windows call.key) =
        ⟨1, call.time + rule.length⟩ := by
      cases hwindow : windows call.key with
      | none => rfl
      | some window => rw [Window.enter, if_pos (hopens window hwindow)]
    exact step_of_some hrule hentered
  have hopened : (step rules windows call).1 call.key =
      some ⟨1, call.time + rule.length⟩ := by
    rw [hnext]
    exact Function.update_self _ _ _
  have hrest : admitted call.key (call.time + rule.length) calls
      (answers (step rules) (step rules windows call).1 calls) ≤ rule.limit - 1 :=
    admitted_le_rest hrule htimes hopened
  have hcount : admitted call.key (call.time + rule.length) (call :: calls)
      (answers (step rules) windows (call :: calls)) =
        admitted call.key (call.time + rule.length) calls
          (answers (step rules) (step rules windows call).1 calls) +
        if decide (call.key = call.key) && decide (call.time < call.time + rule.length) &&
          (step rules windows call).2 then 1 else 0 :=
    List.countP_cons
  rw [hcount]
  split <;> omega

end Admission

end FixedWindow
