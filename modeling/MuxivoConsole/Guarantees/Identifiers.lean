/-
The layout of the generated identifiers, their order, and how much of the drawn bits they keep: the
variant is written over two bits of the draw, which are lost.
-/
import MuxivoConsole.Infrastructure.Identifiers

namespace MuxivoConsole

section Bits

variable {value timestampMs randomBits : Nat}

/-- Writing the variant keeps what is above and below its two bits. -/
theorem write_variant (value : Nat) :
    (value.ldiff (0b11 <<< 62)) ||| (0b10 <<< 62) =
      2 ^ 64 * (value / 2 ^ 64) + (2 ^ 63 + value % 2 ^ 62) := by
  have hlow : value % 2 ^ 62 < 2 ^ 63 :=
    (Nat.mod_lt value (by decide)).trans (by decide)
  have hlower : 2 ^ 63 + value % 2 ^ 62 < 2 ^ 64 := by
    omega
  have hsplit : 2 ^ 63 + value % 2 ^ 62 = 2 ^ 63 ||| value % 2 ^ 62 := by
    simpa using Nat.two_pow_add_eq_or_of_lt hlow 1
  rw [Nat.two_pow_add_eq_or_of_lt hlower, hsplit]
  apply Nat.eq_of_testBit_eq
  intro position
  have hmask : ∀ bits : Nat, bits < 4 →
      (bits <<< 62).testBit position = (62 ≤ position && bits.testBit (position - 62)) :=
    fun bits _ => by rw [Nat.testBit_shiftLeft]
  simp only [Nat.testBit_or, Nat.testBit_ldiff, hmask 0b11 (by decide), hmask 0b10 (by decide),
    Nat.testBit_two_pow_mul, Nat.testBit_div_two_pow, Nat.testBit_mod_two_pow,
    Nat.testBit_two_pow]
  rcases Nat.lt_or_ge position 62 with hbelow | habove
  · have h63 : ¬ 63 = position := by omega
    have h64 : ¬ 64 ≤ position := by omega
    simp [hbelow, h63, h64, Nat.not_le.mpr hbelow]
  · obtain ⟨offset, rfl⟩ := Nat.exists_eq_add_of_le habove
    match offset with
    | 0 => simp
    | 1 =>
        have hset : Nat.testBit 2 1 = true := by decide
        simp [hset]
    | rest + 2 =>
        -- beyond the two bits of the variant, both masks are zero
        have hlarge : 2 ^ 2 ≤ 2 ^ (rest + 2) := Nat.pow_le_pow_right (by decide) (by omega)
        have hthree : Nat.testBit 3 (rest + 2) = false := Nat.testBit_lt_two_pow (by omega)
        have htwo : Nat.testBit 2 (rest + 2) = false := Nat.testBit_lt_two_pow (by omega)
        have hnot : ¬ 62 + (rest + 2) < 62 := by omega
        have h63 : ¬ 63 = 62 + (rest + 2) := by omega
        have h64 : 64 ≤ 62 + (rest + 2) := by omega
        simp [hthree, htwo, h64, hnot, h63]

/-- The value in its three parts: above the variant, the variant, and below it. -/
theorem uuid7Value_eq (hrandom : randomBits < 2 ^ 74) :
    uuid7Value timestampMs randomBits =
      2 ^ 80 * timestampMs + 7 * 2 ^ 76 + 2 ^ 64 * (randomBits / 2 ^ 64) + 2 ^ 63 +
        randomBits % 2 ^ 62 := by
  have hmask : randomBits &&& ((1 <<< 76) - 1) = randomBits := by
    rw [Nat.one_shiftLeft, Nat.and_two_pow_sub_one_eq_mod, Nat.mod_eq_of_lt (by omega)]
  have hversion : 7 <<< 76 ||| randomBits = 2 ^ 76 * 7 + randomBits := by
    rw [Nat.two_pow_add_eq_or_of_lt (by omega), Nat.shiftLeft_eq, Nat.mul_comm]
  have hlower : 2 ^ 76 * 7 + randomBits < 2 ^ 80 := by
    omega
  have hassembled : timestampMs <<< 80 ||| 7 <<< 76 ||| randomBits =
      2 ^ 80 * timestampMs + (2 ^ 76 * 7 + randomBits) := by
    rw [Nat.or_assoc, hversion, Nat.two_pow_add_eq_or_of_lt hlower, Nat.shiftLeft_eq,
      Nat.mul_comm]
  unfold uuid7Value
  dsimp only
  rw [hmask, write_variant, hassembled]
  omega

/-- Timestamps of 48 bits leave 128 bits. -/
theorem uuid7Value_lt (htimestamp : timestampMs < 2 ^ 48) (hrandom : randomBits < 2 ^ 74) :
    uuid7Value timestampMs randomBits < 2 ^ 128 := by
  rw [uuid7Value_eq hrandom]
  omega

theorem newUuid7_eq_some {id : UUID} :
    newUuid7 timestampMs randomBits = some id ↔ id.int.toNat = uuid7Value timestampMs randomBits :=
  UUID.ofInt?_eq_some

end Bits

/-- The fields of an identifier. -/
theorem uuid7_layout {timestampMs randomBits : Nat} (htimestamp : timestampMs < 2 ^ 48)
    (hrandom : randomBits < 2 ^ 74) :
    ∃ id, newUuid7 timestampMs randomBits = some id ∧
      id.int.toNat = uuid7Value timestampMs randomBits ∧ id.version = 7 ∧ id.variant = 0b10 ∧
      id.timestamp = timestampMs := by
  have hvalue := @uuid7Value_eq timestampMs randomBits hrandom
  have hint : (BitVec.ofNat 128 (uuid7Value timestampMs randomBits)).toNat =
      uuid7Value timestampMs randomBits := by
    rw [BitVec.toNat_ofNat, Nat.mod_eq_of_lt (uuid7Value_lt htimestamp hrandom)]
  refine ⟨⟨BitVec.ofNat 128 (uuid7Value timestampMs randomBits)⟩, newUuid7_eq_some.mpr hint, hint,
    ?_, ?_, ?_⟩
  · rw [UUID.version, hint, hvalue]
    omega
  · rw [UUID.variant, hint, hvalue]
    omega
  · rw [UUID.timestamp, hint, hvalue]
    omega

/-- Every identifier fits in 128 bits, has the fields of version 7, and precedes the identifiers of
all later timestamps. -/
theorem uuid7_layout_and_order {timestampMs randomBits : Nat} (htimestamp : timestampMs < 2 ^ 48)
    (hrandom : randomBits < 2 ^ 74) :
    ∃ id, newUuid7 timestampMs randomBits = some id ∧
      id.int.toNat = uuid7Value timestampMs randomBits ∧ id.version = 7 ∧ id.variant = 0b10 ∧
      id.timestamp = timestampMs ∧
      ∀ later otherBits, timestampMs < later → later < 2 ^ 48 → otherBits < 2 ^ 74 →
        ∃ other, newUuid7 later otherBits = some other ∧ id.int < other.int := by
  obtain ⟨id, hid, hint, hversion, hvariant, htime⟩ := uuid7_layout htimestamp hrandom
  refine ⟨id, hid, hint, hversion, hvariant, htime, fun later otherBits hlater hbound hother => ?_⟩
  obtain ⟨other, hnew, hotherInt, _⟩ := uuid7_layout hbound hother
  refine ⟨other, hnew, ?_⟩
  rw [BitVec.lt_def, hint, hotherInt, uuid7Value_eq hrandom, uuid7Value_eq hother]
  omega

theorem uuid7_layout_and_order_first :
    1 < 2 ^ 48 ∧ 5 < 2 ^ 74 ∧ ∃ id, newUuid7 1 5 = some id ∧ id.version = 7 :=
  have hlayout := @uuid7_layout_and_order 1 5 (by decide) (by decide)
  ⟨by decide, by decide, hlayout.choose, hlayout.choose_spec.1, hlayout.choose_spec.2.2.1⟩

/-- Two draws of one millisecond give the same identifier exactly if they agree in all bits but the
two that the variant is written over. -/
theorem uuid7Value_eq_iff {timestampMs first second : Nat} (hfirst : first < 2 ^ 74)
    (hsecond : second < 2 ^ 74) :
    uuid7Value timestampMs first = uuid7Value timestampMs second ↔
      ∀ position, position ≠ 62 → position ≠ 63 →
        first.testBit position = second.testBit position := by
  have hparts : uuid7Value timestampMs first = uuid7Value timestampMs second ↔
      first / 2 ^ 64 = second / 2 ^ 64 ∧ first % 2 ^ 62 = second % 2 ^ 62 := by
    rw [uuid7Value_eq hfirst, uuid7Value_eq hsecond]
    omega
  rw [hparts]
  constructor
  · rintro ⟨hhigh, hlow⟩ position h62 h63
    rcases Nat.lt_or_ge position 62 with hbelow | habove
    · have hbit := congrArg (Nat.testBit · position) hlow
      simp only [Nat.testBit_mod_two_pow, hbelow, decide_true, Bool.true_and] at hbit
      exact hbit
    · have hbit := congrArg (Nat.testBit · (position - 64)) hhigh
      have hback : position - 64 + 64 = position := by omega
      simp only [Nat.testBit_div_two_pow, hback] at hbit
      exact hbit
  · intro hbits
    constructor
    · apply Nat.eq_of_testBit_eq
      intro position
      simp only [Nat.testBit_div_two_pow]
      exact hbits _ (by omega) (by omega)
    · apply Nat.eq_of_testBit_eq
      intro position
      simp only [Nat.testBit_mod_two_pow]
      rcases Nat.lt_or_ge position 62 with hbelow | habove
      · rw [hbits position (by omega) (by omega)]
      · simp [Nat.not_lt.mpr habove]

/-- Two different draws of one millisecond give two identifiers exactly if they differ in a bit that
the variant leaves alone. -/
theorem uuid7_distinct_iff {timestampMs first second : Nat} (htimestamp : timestampMs < 2 ^ 48)
    (hfirst : first < 2 ^ 74) (hsecond : second < 2 ^ 74) :
    (first ≠ second → newUuid7 timestampMs first ≠ newUuid7 timestampMs second) ↔
      first = second ∨ ∃ position, position ≠ 62 ∧ position ≠ 63 ∧
        first.testBit position ≠ second.testBit position := by
  have hnew : newUuid7 timestampMs first = newUuid7 timestampMs second ↔
      uuid7Value timestampMs first = uuid7Value timestampMs second := by
    obtain ⟨id, hid, hint, _⟩ := uuid7_layout htimestamp hfirst
    obtain ⟨other, hother, hotherInt, _⟩ := uuid7_layout htimestamp hsecond
    rw [hid, hother, Option.some.injEq, ← hint, ← hotherInt]
    constructor
    · rintro rfl
      rfl
    · intro hsame
      obtain ⟨int⟩ := id
      obtain ⟨otherInt⟩ := other
      exact congrArg UUID.mk (BitVec.eq_of_toNat_eq hsame)
  rw [Ne, Ne, hnew, uuid7Value_eq_iff hfirst hsecond]
  constructor
  · intro hdistinct
    by_cases hsame : first = second
    · exact Or.inl hsame
    · refine Or.inr ?_
      have hbits := hdistinct hsame
      push Not at hbits
      exact hbits
  · rintro (hsame | ⟨position, h62, h63, hbit⟩) hdifferent
    · exact absurd hsame hdifferent
    · exact fun hbits => hbit (hbits position h62 h63)

theorem uuid7_distinct_iff_low_bit :
    (1 ≠ 0 → newUuid7 0 1 ≠ newUuid7 0 0) ↔ (1 : Nat) = 0 ∨
      ∃ position, position ≠ 62 ∧ position ≠ 63 ∧ Nat.testBit 1 position ≠ Nat.testBit 0 position :=
  @uuid7_distinct_iff 0 1 0 (by decide) (by decide) (by decide)

/-- The draws `0` and `2 ^ 62` of the same millisecond collide. -/
theorem uuid7_draws_collide :
    ¬ ∀ timestampMs first second, timestampMs < 2 ^ 48 → first < 2 ^ 74 → second < 2 ^ 74 →
      first ≠ second → newUuid7 timestampMs first ≠ newUuid7 timestampMs second := by
  intro hall
  exact hall 0 0 (2 ^ 62) (by decide) (by decide) (by decide) (by decide)
    (by decide +kernel)

end MuxivoConsole
