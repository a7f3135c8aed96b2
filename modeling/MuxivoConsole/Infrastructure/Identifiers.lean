/-
The generator of identifiers in the layout of UUIDv7: a timestamp in milliseconds, the version, and
random bits into which the variant is written.
-/
import Mathlib.Data.Nat.Bitwise
import MuxivoConsole.PythonValues

namespace MuxivoConsole

/-- The integer that `Uuid7IdentifierGenerator.new` builds from `int(time.time() * 1000)` and
`secrets.randbits(74)`. -/
def uuid7Value (timestampMs randomBits : Nat) : Nat :=
  let value := (timestampMs <<< 80) ||| (0b0111 <<< 76) ||| (randomBits &&& ((1 <<< 76) - 1))
  -- `value & ~mask`
  (value.ldiff (0b11 <<< 62)) ||| (0b10 <<< 62)

/-- `UUID(int=value)`, with `none` for the `ValueError` -/
def UUID.ofInt? (value : Nat) : Option UUID :=
  if value < 2 ^ 128 then some ⟨BitVec.ofNat 128 value⟩ else none

/-- `Uuid7IdentifierGenerator.new` -/
def newUuid7 (timestampMs randomBits : Nat) : Option UUID :=
  UUID.ofInt? (uuid7Value timestampMs randomBits)

namespace UUID

/-- The four bits of the version. -/
def version (id : UUID) : Nat := id.int.toNat / 2 ^ 76 % 2 ^ 4

/-- The two bits of the variant. -/
def variant (id : UUID) : Nat := id.int.toNat / 2 ^ 62 % 2 ^ 2

/-- The 48 bits of the timestamp. -/
def timestamp (id : UUID) : Nat := id.int.toNat / 2 ^ 80

theorem ofInt?_eq_some {value : Nat} {id : UUID} :
    ofInt? value = some id ↔ id.int.toNat = value := by
  unfold ofInt?
  split_ifs with hbound
  · have hvalue : (BitVec.ofNat 128 value).toNat = value := by
      rw [BitVec.toNat_ofNat, Nat.mod_eq_of_lt hbound]
    rw [Option.some.injEq]
    constructor
    · rintro rfl
      exact hvalue
    · intro hint
      obtain ⟨int⟩ := id
      exact congrArg UUID.mk (BitVec.eq_of_toNat_eq (hvalue.trans hint.symm))
  · refine iff_of_false (by simp) ?_
    rintro rfl
    exact hbound id.int.isLt

end UUID

end MuxivoConsole
