/-
Reading from a stream of bytes that ends: the peer closes it, or waiting for more fails.  Only
`readExactly` minds the closed end; `readLine` returns the part of a line that arrived.
-/
import Mathlib.Data.List.DropRight
import Mathlib.Data.List.TakeWhile

namespace Streams

/-- What follows the last byte of a stream. -/
inductive Ending (φ : Type) where
  | closed
  | lost (failure : φ)
  deriving DecidableEq

/-- Why a read returns nothing. -/
inductive ReadError (φ : Type) where
  /-- the peer closed the stream before the bytes that were asked for -/
  | incomplete
  /-- a line that exceeds the limit of the buffer -/
  | overrun
  | lost (failure : φ)
  deriving DecidableEq

variable {φ : Type}

/-- `readexactly` -/
def readExactly (ending : Ending φ) (count : Nat) (bytes : List UInt8) :
    Except (ReadError φ) (List UInt8 × List UInt8) :=
  if count ≤ bytes.length then .ok (bytes.take count, bytes.drop count)
  else
    match ending with
    | .closed => .error .incomplete
    | .lost failure => .error (.lost failure)

/-- The line feed. -/
def newline : UInt8 := 10

/-- `readline` -/
def readLine (limit : Nat) (ending : Ending φ) (bytes : List UInt8) :
    Except (ReadError φ) (List UInt8 × List UInt8) :=
  let line := bytes.takeWhile (· ≠ newline)
  if limit < line.length then .error .overrun
  else
    match bytes.dropWhile (· ≠ newline) with
    | separator :: rest => .ok (line ++ [separator], rest)
    | [] =>
        match ending with
        | .closed => .ok (line, [])
        | .lost failure => .error (.lost failure)

section Reads

variable {ending : Ending φ} {count limit : Nat} {bytes rest line : List UInt8}

@[simp] theorem readExactly_append :
    readExactly ending bytes.length (bytes ++ rest) = .ok (bytes, rest) := by
  have hlength : bytes.length ≤ (bytes ++ rest).length := by simp
  unfold readExactly
  rw [if_pos hlength, List.take_left, List.drop_left]

theorem readExactly_eq_incomplete :
    readExactly ending count bytes = .error .incomplete ↔
      ending = .closed ∧ bytes.length < count := by
  by_cases hcount : count ≤ bytes.length
  · have hlong : ¬ bytes.length < count := by omega
    simp [readExactly, hcount, hlong]
  · have hshort : bytes.length < count := by omega
    cases ending <;> simp [readExactly, hcount, hshort]

theorem readLine_append (hline : newline ∉ line) (hlimit : line.length ≤ limit) :
    readLine limit ending (line ++ newline :: rest) = .ok (line ++ [newline], rest) := by
  have hall : ∀ byte ∈ line, decide (byte ≠ newline) = true := by
    intro byte hbyte
    rw [decide_eq_true_eq]
    rintro rfl
    exact hline hbyte
  have htake : (line ++ newline :: rest).takeWhile (· ≠ newline) = line := by
    rw [List.takeWhile_append_of_pos hall]
    simp
  have hdrop : (line ++ newline :: rest).dropWhile (· ≠ newline) = newline :: rest := by
    rw [List.dropWhile_append_of_pos hall]
    simp
  have hshort : ¬ limit < line.length := by omega
  simp only [readLine, htake, hdrop, if_neg hshort]

/-- A line beyond the limit of the buffer is refused. -/
theorem readLine_overrun (hline : newline ∉ line) (hlimit : limit < line.length) :
    readLine limit ending (line ++ newline :: rest) = .error .overrun := by
  have hall : ∀ byte ∈ line, decide (byte ≠ newline) = true := by
    intro byte hbyte
    rw [decide_eq_true_eq]
    rintro rfl
    exact hline hbyte
  have htake : (line ++ newline :: rest).takeWhile (· ≠ newline) = line := by
    rw [List.takeWhile_append_of_pos hall]
    simp
  simp only [readLine, htake, if_pos hlimit]

/-- A line is never incomplete. -/
theorem readLine_ne_incomplete : readLine limit ending bytes ≠ .error .incomplete := by
  intro hread
  unfold readLine at hread
  dsimp only at hread
  split_ifs at hread
  · cases hread
  · cases hdrop : bytes.dropWhile (· ≠ newline) with
    | nil =>
        rw [hdrop] at hread
        cases ending <;> cases hread
    | cons separator rest =>
        rw [hdrop] at hread
        cases hread

end Reads

end Streams
