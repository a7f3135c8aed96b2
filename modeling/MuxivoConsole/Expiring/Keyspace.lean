/-
Values kept under keys until an instant.  An expired value may still lie in the
map; only what is live at an instant can be observed then, so two keyspaces are
compared by what is live in them.
-/
import Mathlib.Logic.Function.Basic

namespace Expiring

variable {κ ν : Type}

/-- A value and the instant from which it is gone. -/
structure Lease (ν : Type) where
  value : ν
  expiresAt : Nat
  deriving DecidableEq

abbrev Keyspace (κ ν : Type) := κ → Option (Lease ν)

namespace Keyspace

def empty : Keyspace κ ν :=
  fun _ => none

/-- What a key holds at an instant. -/
def live (space : Keyspace κ ν) (now : Nat) (key : κ) : Option (Lease ν) :=
  (space key).filter fun lease => decide (now < lease.expiresAt)

/-- Throw expired values away. -/
def purge (space : Keyspace κ ν) (now : Nat) : Keyspace κ ν :=
  space.live now

theorem live_eq_some {space : Keyspace κ ν} {now : Nat} {key : κ} {lease : Lease ν} :
    space.live now key = some lease ↔ space key = some lease ∧ now < lease.expiresAt := by
  simp [live, Option.filter_eq_some_iff]

theorem live_empty (now : Nat) (key : κ) : (empty : Keyspace κ ν).live now key = none :=
  rfl

/-- Waiting forgets what expires meanwhile and nothing else. -/
theorem live_later (space : Keyspace κ ν) {now later : Nat} (hle : now ≤ later) (key : κ) :
    space.live later key =
      (space.live now key).filter fun lease => decide (later < lease.expiresAt) := by
  cases hkey : space key with
  | none => simp [live, hkey]
  | some lease =>
      by_cases hlater : later < lease.expiresAt
      · have hnow : now < lease.expiresAt := by omega
        simp [live, hkey, Option.filter, hlater, hnow]
      · by_cases hnow : now < lease.expiresAt <;>
          simp [live, hkey, Option.filter, hlater, hnow]

/-- What is gone stays gone as long as nothing is put there. -/
theorem live_later_eq_none {space : Keyspace κ ν} {now later : Nat} (hle : now ≤ later)
    {key : κ} (hnone : space.live now key = none) : space.live later key = none := by
  rw [live_later space hle, hnone]
  rfl

@[simp] theorem live_purge (space : Keyspace κ ν) (now : Nat) (key : κ) :
    (space.purge now).live now key = space.live now key := by
  simp [live, purge]

section Writes

variable [DecidableEq κ] {space : Keyspace κ ν} {now : Nat} {key : κ} {lease : Lease ν}

def hold (space : Keyspace κ ν) (key : κ) (lease : Lease ν) : Keyspace κ ν :=
  Function.update space key (some lease)

def drop (space : Keyspace κ ν) (key : κ) : Keyspace κ ν :=
  Function.update space key none

@[simp] theorem live_hold_self (hnow : now < lease.expiresAt) :
    (space.hold key lease).live now key = some lease := by
  simp [live, hold, hnow]

theorem live_hold_of_ne {other : κ} (hne : other ≠ key) :
    (space.hold key lease).live now other = space.live now other := by
  simp [live, hold, Function.update_of_ne hne]

@[simp] theorem live_drop_self : (space.drop key).live now key = none := by
  simp [live, drop]

theorem live_drop_of_ne {other : κ} (hne : other ≠ key) :
    (space.drop key).live now other = space.live now other := by
  simp [live, drop, Function.update_of_ne hne]

end Writes

/-- Nobody can tell the two apart from this instant on. -/
def Agree (now : Nat) (first second : Keyspace κ ν) : Prop :=
  ∀ key, first.live now key = second.live now key

namespace Agree

variable {now : Nat} {first second : Keyspace κ ν}

theorem refl (now : Nat) (space : Keyspace κ ν) : Agree now space space :=
  fun _ => rfl

theorem later (hagree : Agree now first second) {after : Nat} (hle : now ≤ after) :
    Agree after first second := by
  intro key
  rw [live_later first hle, live_later second hle, hagree key]

theorem purge (hagree : Agree now first second) : Agree now first (second.purge now) := by
  intro key
  rw [live_purge, hagree key]

variable [DecidableEq κ]

theorem hold (hagree : Agree now first second) (key : κ) (lease : Lease ν) :
    Agree now (first.hold key lease) (second.hold key lease) := by
  intro other
  by_cases hkey : other = key
  · rw [hkey]
    simp [Keyspace.live, Keyspace.hold]
  · rw [live_hold_of_ne hkey, live_hold_of_ne hkey, hagree other]

theorem drop (hagree : Agree now first second) (key : κ) :
    Agree now (first.drop key) (second.drop key) := by
  intro other
  by_cases hkey : other = key
  · rw [hkey, live_drop_self, live_drop_self]
  · rw [live_drop_of_ne hkey, live_drop_of_ne hkey, hagree other]

end Agree

end Keyspace

end Expiring
