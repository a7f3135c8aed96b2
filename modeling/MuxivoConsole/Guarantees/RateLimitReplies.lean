/-
What the rate limiter makes of the replies of Redis.  Every failure of a connection and every
malformed reply is taken for an unavailable backend, save two: the server closes the connection
where bytes are counted, or its arrays nest deeper than the interpreter.
-/
import MuxivoConsole.Guarantees.RespFraming

namespace MuxivoConsole

open Streams Text

section Replies

variable (ending : Ending ConnectionFailure)

/-- A line with a number, as the reader takes it. -/
def NumberLine (bytes : List UInt8) (number : Int) (rest : List UInt8) : Prop :=
  ∃ line, readLine streamLimit ending bytes = .ok (line, rest) ∧
    intOfBytes (rstripNewline line) = some number

/-- A line with a text, as the reader takes it. -/
def TextLine (bytes rest : List UInt8) : Prop :=
  ∃ line text, readLine streamLimit ending bytes = .ok (line, rest) ∧
    decodeUtf8 (rstripNewline line) = some text

mutual

/-- The bytes begin with a whole reply that is no error, and `rest` follows. -/
inductive WholeReply : Nat → List UInt8 → List UInt8 → Prop where
  | simple {frames : Nat} {bytes rest : List UInt8} : TextLine ending bytes rest →
      WholeReply (frames + 1) (43 :: bytes) rest
  | integer {frames : Nat} {number : Int} {bytes rest : List UInt8} :
      NumberLine ending bytes number rest → WholeReply (frames + 1) (58 :: bytes) rest
  | nullBulk {frames : Nat} {length : Int} {bytes rest : List UInt8} :
      NumberLine ending bytes length rest → length < 0 →
        WholeReply (frames + 1) (36 :: bytes) rest
  | bulk {frames length : Nat} {text : String} {bytes rest : List UInt8} :
      NumberLine ending bytes length rest → length + 2 ≤ rest.length →
        decodeUtf8 (rest.take length) = some text →
          WholeReply (frames + 1) (36 :: bytes) (rest.drop (length + 2))
  | nullArray {frames : Nat} {length : Int} {bytes rest : List UInt8} :
      NumberLine ending bytes length rest → length < 0 →
        WholeReply (frames + 1) (42 :: bytes) rest
  | array {frames length : Nat} {bytes items rest : List UInt8} :
      NumberLine ending bytes length items → WholeReplies frames length items rest →
        WholeReply (frames + 1) (42 :: bytes) rest

/-- That many whole replies, one after the other. -/
inductive WholeReplies : Nat → Nat → List UInt8 → List UInt8 → Prop where
  | nil {frames : Nat} {bytes : List UInt8} : WholeReplies frames 0 bytes bytes
  | cons {frames count : Nat} {bytes items rest : List UInt8} :
      WholeReply frames bytes items → WholeReplies frames count items rest →
        WholeReplies frames (count + 1) bytes rest

end

/-- The reply is cut off by the end of the connection before a marker, in a bulk string or in
its terminator, or it nests deeper than `frames` calls. -/
inductive CutReply : Nat → List UInt8 → Prop where
  | deep {bytes : List UInt8} : CutReply 0 bytes
  | marker {frames : Nat} : ending = .closed → CutReply (frames + 1) []
  | bulk {frames length : Nat} {bytes rest : List UInt8} :
      NumberLine ending bytes length rest → ending = .closed → rest.length < length + 2 →
        CutReply (frames + 1) (36 :: bytes)
  | array {frames length whole : Nat} {bytes items rest : List UInt8} :
      NumberLine ending bytes length items → whole < length →
        WholeReplies ending frames whole items rest → CutReply frames rest →
          CutReply (frames + 1) (42 :: bytes)

end Replies

/-- The exceptions that the rate limiter lets through. -/
def RedisException.Escapes (raised : RedisException) : Prop :=
  raised = .incompleteReadError ∨ raised = .recursionError

theorem RedisException.escapes_iff {raised : RedisException} :
    raised.Escapes ↔ raised.isConnectionOrValueError = false := by
  cases raised <;> simp [RedisException.Escapes, RedisException.isConnectionOrValueError]

section Reading

variable {unavailable : String → RedisException} {ending : Ending ConnectionFailure}
variable {frames : Nat} {bytes rest : List UInt8}

theorem readRedisLine_eq_ok {line : List UInt8} :
    readRedisLine ending bytes = .ok (line, rest) ↔
      ∃ whole, readLine streamLimit ending bytes = .ok (whole, rest) ∧
        rstripNewline whole = line := by
  unfold readRedisLine
  cases hread : readLine streamLimit ending bytes with
  | error failure => cases failure <;> simp [raising]
  | ok read =>
      obtain ⟨whole, others⟩ := read
      simp only [raising, RedisException.ok_bind, pure, Except.pure, Except.ok.injEq,
        Prod.mk.injEq]
      constructor
      · rintro ⟨rfl, rfl⟩
        exact ⟨whole, ⟨rfl, rfl⟩, rfl⟩
      · rintro ⟨other, ⟨rfl, rfl⟩, rfl⟩
        exact ⟨rfl, rfl⟩

/-- Reading a line lets nothing through. -/
theorem readRedisLine_not_escapes {raised : RedisException}
    (hread : readRedisLine ending bytes = .error raised) : ¬ raised.Escapes := by
  unfold readRedisLine at hread
  cases hline : readLine streamLimit ending bytes with
  | error failure =>
      rw [hline] at hread
      cases failure with
      | incomplete => exact absurd hline readLine_ne_incomplete
      | overrun =>
          cases hread
          simp [RedisException.Escapes]
      | lost failure =>
          cases hread
          simp [RedisException.Escapes]
  | ok read =>
      rw [hline] at hread
      cases hread

/-- A line with a number is read as that number, any other line lets nothing through. -/
theorem numberLine_cases {α : Type}
    (continuation : Int → List UInt8 → Except RedisException α) :
    (∃ number rest, NumberLine ending bytes number rest ∧
      (do
        let (line, bytes) ← readRedisLine ending bytes
        let number ← orValueError (intOfBytes line)
        continuation number bytes) = continuation number rest) ∨
    (¬ ∃ number rest, NumberLine ending bytes number rest) ∧
      ∃ raised, ¬ raised.Escapes ∧
        (do
          let (line, bytes) ← readRedisLine ending bytes
          let number ← orValueError (intOfBytes line)
          continuation number bytes) = .error raised := by
  cases hread : readRedisLine ending bytes with
  | error raised =>
      have hnone : ¬ ∃ number rest, NumberLine ending bytes number rest := by
        rintro ⟨number, rest, line, hline, _⟩
        have hok := readRedisLine_eq_ok.mpr ⟨line, hline, rfl⟩
        rw [hread] at hok
        cases hok
      exact Or.inr ⟨hnone, raised, readRedisLine_not_escapes hread, rfl⟩
  | ok read =>
      obtain ⟨line, rest⟩ := read
      obtain ⟨whole, hwhole, hstrip⟩ := readRedisLine_eq_ok.mp hread
      cases hnumber : intOfBytes line with
      | none =>
          have hnone : ¬ ∃ number rest, NumberLine ending bytes number rest := by
            rintro ⟨number, others, other, hother, hsome⟩
            rw [hwhole] at hother
            cases hother
            rw [hstrip, hnumber] at hsome
            cases hsome
          refine Or.inr ⟨hnone, .valueError, by simp [RedisException.Escapes], ?_⟩
          simp only [RedisException.ok_bind, hnumber, orValueError]
          rfl
      | some number =>
          refine Or.inl ⟨number, rest, ⟨whole, hwhole, by rw [hstrip, hnumber]⟩, ?_⟩
          simp only [RedisException.ok_bind, hnumber, orValueError]

theorem NumberLine.unique {number other : Int} {others : List UInt8}
    (hfirst : NumberLine ending bytes number rest)
    (hsecond : NumberLine ending bytes other others) : other = number ∧ others = rest := by
  obtain ⟨line, hline, hnumber⟩ := hfirst
  obtain ⟨second, hother, hsame⟩ := hsecond
  rw [hline] at hother
  cases hother
  rw [hnumber] at hsame
  cases hsame
  exact ⟨rfl, rfl⟩

/-- A line with a text is read as that text, any other line lets nothing through. -/
theorem textLine_cases {α : Type}
    (continuation : String → List UInt8 → Except RedisException α) :
    (∃ text rest, TextLine ending bytes rest ∧
      (do
        let (line, bytes) ← readRedisLine ending bytes
        let text ← orValueError (decodeUtf8 line)
        continuation text bytes) = continuation text rest) ∨
    (¬ ∃ rest, TextLine ending bytes rest) ∧
      ∃ raised, ¬ raised.Escapes ∧
        (do
          let (line, bytes) ← readRedisLine ending bytes
          let text ← orValueError (decodeUtf8 line)
          continuation text bytes) = .error raised := by
  cases hread : readRedisLine ending bytes with
  | error raised =>
      have hnone : ¬ ∃ rest, TextLine ending bytes rest := by
        rintro ⟨rest, line, text, hline, _⟩
        have hok := readRedisLine_eq_ok.mpr ⟨line, hline, rfl⟩
        rw [hread] at hok
        cases hok
      exact Or.inr ⟨hnone, raised, readRedisLine_not_escapes hread, rfl⟩
  | ok read =>
      obtain ⟨line, rest⟩ := read
      obtain ⟨whole, hwhole, hstrip⟩ := readRedisLine_eq_ok.mp hread
      cases htext : decodeUtf8 line with
      | none =>
          have hnone : ¬ ∃ rest, TextLine ending bytes rest := by
            rintro ⟨others, other, text, hother, hsome⟩
            rw [hwhole] at hother
            cases hother
            rw [hstrip, htext] at hsome
            cases hsome
          refine Or.inr ⟨hnone, .valueError, by simp [RedisException.Escapes], ?_⟩
          simp only [RedisException.ok_bind, htext, orValueError]
          rfl
      | some text =>
          refine Or.inl ⟨text, rest, ⟨whole, text, hwhole, by rw [hstrip, htext]⟩, ?_⟩
          simp only [RedisException.ok_bind, htext, orValueError]

theorem TextLine.unique {others : List UInt8} (hfirst : TextLine ending bytes rest)
    (hsecond : TextLine ending bytes others) : others = rest := by
  obtain ⟨line, text, hline, _⟩ := hfirst
  obtain ⟨second, other, hother, _⟩ := hsecond
  rw [hline] at hother
  cases hother
  rfl

/-- A result of reading these bytes that agrees with the two descriptions. -/
structure Described (ending : Ending ConnectionFailure) (frames : Nat) (bytes : List UInt8)
    (result : Except RedisException (RedisValue × List UInt8)) : Prop where
  whole : ∀ rest, (∃ value, result = .ok (value, rest)) ↔ WholeReply ending frames bytes rest
  cut : (∃ raised, raised.Escapes ∧ result = .error raised) ↔ CutReply ending frames bytes

theorem Described.of_ok {value : RedisValue} (hwhole : WholeReply ending frames bytes rest)
    (hunique : ∀ others, WholeReply ending frames bytes others → others = rest)
    (hcut : ¬ CutReply ending frames bytes) :
    Described ending frames bytes (.ok (value, rest)) where
  whole := by
    intro others
    constructor
    · rintro ⟨other, hok⟩
      cases hok
      exact hwhole
    · intro hothers
      rw [hunique others hothers]
      exact ⟨value, rfl⟩
  cut := by
    constructor
    · rintro ⟨raised, _, hraised⟩
      cases hraised
    · intro hcut'
      exact absurd hcut' hcut

theorem Described.of_error {raised : RedisException} (hcaught : ¬ raised.Escapes)
    (hwhole : ∀ rest, ¬ WholeReply ending frames bytes rest)
    (hcut : ¬ CutReply ending frames bytes) : Described ending frames bytes (.error raised) where
  whole := by
    intro rest
    constructor
    · rintro ⟨value, hok⟩
      cases hok
    · intro hreply
      exact absurd hreply (hwhole rest)
  cut := by
    constructor
    · rintro ⟨other, hescapes, hraised⟩
      cases hraised
      exact absurd hescapes hcaught
    · intro hcut'
      exact absurd hcut' hcut

theorem Described.of_escape {raised : RedisException} (hescapes : raised.Escapes)
    (hwhole : ∀ rest, ¬ WholeReply ending frames bytes rest)
    (hcut : CutReply ending frames bytes) : Described ending frames bytes (.error raised) where
  whole := by
    intro rest
    constructor
    · rintro ⟨value, hok⟩
      cases hok
    · intro hreply
      exact absurd hreply (hwhole rest)
  cut := ⟨fun _ => hcut, fun _ => ⟨raised, hescapes, rfl⟩⟩

section Arrays

variable {read : List UInt8 → Except RedisException (RedisValue × List UInt8)}

/-- A reader that agrees on one reply agrees on several. -/
theorem wholeReplies_iff (hread : ∀ bytes, Described ending frames bytes (read bytes))
    {count : Nat} :
    (∃ values, readRedisValues read count bytes = .ok (values, rest)) ↔
      WholeReplies ending frames count bytes rest := by
  induction count generalizing bytes with
  | zero =>
      constructor
      · rintro ⟨values, hvalues⟩
        cases hvalues
        exact WholeReplies.nil
      · intro hreplies
        cases hreplies
        exact ⟨[], rfl⟩
  | succ count ih =>
      constructor
      · rintro ⟨values, hvalues⟩
        rw [readRedisValues] at hvalues
        cases hfirst : read bytes with
        | error raised =>
            rw [hfirst] at hvalues
            cases hvalues
        | ok first =>
            obtain ⟨value, others⟩ := first
            rw [hfirst, RedisException.ok_bind] at hvalues
            dsimp only at hvalues
            cases hothers : readRedisValues read count others with
            | error raised =>
                rw [hothers] at hvalues
                cases hvalues
            | ok second =>
                rw [hothers] at hvalues
                cases hvalues
                exact WholeReplies.cons (((hread _).whole _).mp ⟨value, hfirst⟩)
                  (ih.mp ⟨_, hothers⟩)
      · intro hreplies
        cases hreplies with
        | cons hfirst hothers =>
            obtain ⟨value, hvalue⟩ := ((hread _).whole _).mpr hfirst
            obtain ⟨values, hvalues⟩ := ih.mpr hothers
            refine ⟨value :: values, ?_⟩
            rw [readRedisValues, hvalue, RedisException.ok_bind]
            dsimp only
            rw [hvalues]
            rfl

/-- The first reply that is cut off cuts off the whole. -/
theorem cutReplies_iff (hread : ∀ bytes, Described ending frames bytes (read bytes)) {count : Nat} :
    (∃ raised, raised.Escapes ∧ readRedisValues read count bytes = .error raised) ↔
      ∃ whole < count, ∃ rest, WholeReplies ending frames whole bytes rest ∧
        CutReply ending frames rest := by
  induction count generalizing bytes with
  | zero =>
      constructor
      · rintro ⟨raised, _, hraised⟩
        cases hraised
      · rintro ⟨whole, hwhole, _⟩
        omega
  | succ count ih =>
      constructor
      · rintro ⟨raised, hescapes, hraised⟩
        rw [readRedisValues] at hraised
        cases hfirst : read bytes with
        | error failure =>
            rw [hfirst] at hraised
            cases hraised
            exact ⟨0, by omega, bytes, WholeReplies.nil,
              (hread bytes).cut.mp ⟨raised, hescapes, hfirst⟩⟩
        | ok first =>
            obtain ⟨value, others⟩ := first
            rw [hfirst, RedisException.ok_bind] at hraised
            dsimp only at hraised
            cases hothers : readRedisValues read count others with
            | error failure =>
                rw [hothers] at hraised
                cases hraised
                obtain ⟨whole, hwhole, rest, hreplies, hcut⟩ := ih.mp ⟨raised, hescapes, hothers⟩
                exact ⟨whole + 1, by omega, rest,
                  WholeReplies.cons (((hread _).whole _).mp ⟨value, hfirst⟩) hreplies, hcut⟩
            | ok second =>
                rw [hothers] at hraised
                cases hraised
      · rintro ⟨whole, hwhole, rest, hreplies, hcut⟩
        rw [readRedisValues]
        cases hreplies with
        | nil =>
            obtain ⟨raised, hescapes, hraised⟩ := (hread _).cut.mpr hcut
            refine ⟨raised, hescapes, ?_⟩
            rw [hraised]
            rfl
        | @cons _ others _ _ _ hfirst hothers =>
            obtain ⟨value, hvalue⟩ := ((hread _).whole _).mpr hfirst
            obtain ⟨raised, hescapes, hraised⟩ :=
              ih.mpr ⟨others, by omega, rest, hothers, hcut⟩
            refine ⟨raised, hescapes, ?_⟩
            rw [hvalue, RedisException.ok_bind]
            dsimp only
            rw [hraised]
            rfl

end Arrays

section Markers

theorem described_simple :
    Described ending (frames + 1) (43 :: bytes)
      (readRedisValue unavailable ending (frames + 1) (43 :: bytes)) := by
  have hcut : ¬ CutReply ending (frames + 1) (43 :: bytes) := by
    intro hcut
    cases hcut
  rw [readRedisValue_plus]
  rcases @textLine_cases ending bytes _ fun text bytes => pure (RedisValue.text text, bytes) with
    ⟨text, rest, hline, hread⟩ | ⟨hnone, raised, hcaught, hread⟩
  · rw [hread]
    apply Described.of_ok (WholeReply.simple hline) _ hcut
    intro others hothers
    cases hothers with
    | simple hother => exact hline.unique hother
  · rw [hread]
    apply Described.of_error hcaught _ hcut
    intro rest hreply
    cases hreply with
    | simple hline => exact hnone ⟨rest, hline⟩

theorem described_integer :
    Described ending (frames + 1) (58 :: bytes)
      (readRedisValue unavailable ending (frames + 1) (58 :: bytes)) := by
  have hcut : ¬ CutReply ending (frames + 1) (58 :: bytes) := by
    intro hcut
    cases hcut
  rw [readRedisValue_colon]
  rcases @numberLine_cases ending bytes _
    fun value bytes => pure (RedisValue.integer value, bytes) with
    ⟨number, rest, hline, hread⟩ | ⟨hnone, raised, hcaught, hread⟩
  · rw [hread]
    apply Described.of_ok (WholeReply.integer hline) _ hcut
    intro others hothers
    cases hothers with
    | integer hother => exact (hline.unique hother).2
  · rw [hread]
    apply Described.of_error hcaught _ hcut
    intro rest hreply
    cases hreply with
    | integer hline => exact hnone ⟨_, rest, hline⟩

theorem described_error (hcaught : ∀ message, ¬ (unavailable message).Escapes) :
    Described ending (frames + 1) (45 :: bytes)
      (readRedisValue unavailable ending (frames + 1) (45 :: bytes)) := by
  have hcut : ¬ CutReply ending (frames + 1) (45 :: bytes) := by
    intro hcut
    cases hcut
  have hwhole : ∀ rest, ¬ WholeReply ending (frames + 1) (45 :: bytes) rest := by
    intro rest hreply
    cases hreply
  have hread : readRedisValue unavailable ending (frames + 1) (45 :: bytes) = (do
      let (line, _) ← readRedisLine ending bytes
      let message ← orValueError (decodeUtf8 line)
      .error (unavailable message)) := rfl
  rw [hread]
  rcases @textLine_cases ending bytes _
    fun message _ => (Except.error (unavailable message) :
      Except RedisException (RedisValue × List UInt8)) with
    ⟨text, rest, hline, hraised⟩ | ⟨hnone, raised, hother, hraised⟩
  · rw [hraised]
    exact Described.of_error (hcaught text) hwhole hcut
  · rw [hraised]
    exact Described.of_error hother hwhole hcut

/-- What a read raises when too few bytes arrive. -/
def endingRaises : Ending ConnectionFailure → RedisException
  | .closed => .incompleteReadError
  | .lost failure => .connection failure

theorem raising_readExactly {count : Nat} :
    raising (readExactly ending count bytes) =
      if count ≤ bytes.length then .ok (bytes.take count, bytes.drop count)
      else .error (endingRaises ending) := by
  unfold readExactly
  split_ifs
  · rfl
  · cases ending <;> rfl

/-- A payload and its terminator are read if both have arrived. -/
theorem raising_payload {α : Type} {size : Nat} {rest : List UInt8}
    (continuation : List UInt8 → List UInt8 → Except RedisException α) :
    (do
      let (payload, bytes) ← raising (readExactly ending size rest)
      let (_, bytes) ← raising (readExactly ending 2 bytes)
      continuation payload bytes) =
    if size + 2 ≤ rest.length then continuation (rest.take size) (rest.drop (size + 2))
    else .error (endingRaises ending) := by
  rw [raising_readExactly]
  by_cases hpayload : size ≤ rest.length
  · rw [if_pos hpayload, RedisException.ok_bind]
    dsimp only
    rw [raising_readExactly, List.length_drop]
    by_cases hterminator : 2 ≤ rest.length - size
    · have hwhole : size + 2 ≤ rest.length := by omega
      rw [if_pos hterminator, if_pos hwhole, RedisException.ok_bind]
      dsimp only
      rw [List.drop_drop]
    · have hshort : ¬ size + 2 ≤ rest.length := by omega
      rw [if_neg hterminator, if_neg hshort, RedisException.error_bind]
  · have hshort : ¬ size + 2 ≤ rest.length := by omega
    rw [if_neg hpayload, if_neg hshort, RedisException.error_bind]

theorem described_bulk :
    Described ending (frames + 1) (36 :: bytes)
      (readRedisValue unavailable ending (frames + 1) (36 :: bytes)) := by
  rw [readRedisValue_dollar]
  rcases @numberLine_cases ending bytes _ fun length bytes =>
      if length < 0 then pure (RedisValue.none, bytes)
      else do
        let (payload, bytes) ← raising (readExactly ending length.toNat bytes)
        let (_, bytes) ← raising (readExactly ending 2 bytes)
        let text ← orValueError (decodeUtf8 payload)
        pure (RedisValue.text text, bytes) with
    ⟨length, rest, hline, hread⟩ | ⟨hnone, raised, hcaught, hread⟩
  swap
  · rw [hread]
    apply Described.of_error hcaught
    · intro rest hreply
      cases hreply with
      | nullBulk hline _ => exact hnone ⟨_, _, hline⟩
      | bulk hline _ _ => exact hnone ⟨_, _, hline⟩
    · intro hcut
      cases hcut with
      | bulk hline _ _ => exact hnone ⟨_, _, hline⟩
  rw [hread]
  by_cases hnegative : length < 0
  · rw [if_pos hnegative]
    apply Described.of_ok (WholeReply.nullBulk hline hnegative)
    · intro others hothers
      cases hothers with
      | nullBulk hother _ => exact (hline.unique hother).2
      | bulk hother _ _ =>
          obtain ⟨rfl, rfl⟩ := hline.unique hother
          omega
    · intro hcut
      cases hcut with
      | bulk hother _ _ =>
          obtain ⟨rfl, rfl⟩ := hline.unique hother
          omega
  rw [if_neg hnegative]
  obtain ⟨size, rfl⟩ := Int.eq_ofNat_of_zero_le (Int.not_lt.mp hnegative)
  rw [Int.toNat_natCast]
  have hpayload := @raising_payload ending _ size rest fun payload bytes => do
    let text ← orValueError (decodeUtf8 payload)
    pure (RedisValue.text text, bytes)
  rw [hpayload]
  by_cases hsize : size + 2 ≤ rest.length
  swap
  · -- the payload or its terminator is cut off
    have hwhole : ∀ others, ¬ WholeReply ending (frames + 1) (36 :: bytes) others := by
      intro others hothers
      cases hothers with
      | nullBulk hother hlength =>
          obtain ⟨rfl, rfl⟩ := hline.unique hother
          omega
      | bulk hother hlength _ =>
          obtain ⟨hsame, rfl⟩ := hline.unique hother
          omega
    rw [if_neg hsize]
    cases ending with
    | closed =>
        exact Described.of_escape (Or.inl rfl) hwhole (CutReply.bulk hline rfl (by omega))
    | lost failure =>
        apply Described.of_error (by simp [RedisException.Escapes, endingRaises]) hwhole
        intro hcut
        cases hcut with
        | bulk _ hclosed _ => cases hclosed
  rw [if_pos hsize]
  have hcut : ¬ CutReply ending (frames + 1) (36 :: bytes) := by
    intro hcut
    cases hcut with
    | bulk hother _ hlength =>
        obtain ⟨hsame, rfl⟩ := hline.unique hother
        omega
  cases htext : decodeUtf8 (rest.take size) with
  | none =>
      apply @Described.of_error ending _ _ RedisException.valueError
        (by simp [RedisException.Escapes]) _ hcut
      intro others hothers
      cases hothers with
      | nullBulk hother hlength =>
          obtain ⟨rfl, rfl⟩ := hline.unique hother
          omega
      | bulk hother _ hsome =>
          obtain ⟨hsame, rfl⟩ := hline.unique hother
          obtain rfl := Int.ofNat_inj.mp hsame
          rw [htext] at hsome
          cases hsome
  | some text =>
      apply Described.of_ok (WholeReply.bulk hline hsize htext) _ hcut
      intro others hothers
      cases hothers with
      | nullBulk hother hlength =>
          obtain ⟨rfl, rfl⟩ := hline.unique hother
          omega
      | bulk hother _ _ =>
          obtain ⟨hsame, rfl⟩ := hline.unique hother
          obtain rfl := Int.ofNat_inj.mp hsame
          rfl

/-- An array is described if its items are. -/
theorem described_array
    (hread : ∀ bytes, Described ending frames bytes
      (readRedisValue unavailable ending frames bytes)) :
    Described ending (frames + 1) (42 :: bytes)
      (readRedisValue unavailable ending (frames + 1) (42 :: bytes)) := by
  rw [readRedisValue_star]
  rcases @numberLine_cases ending bytes _ (arrayItems unavailable ending frames) with
    ⟨length, rest, hline, hitems⟩ | ⟨hnone, raised, hcaught, hitems⟩
  swap
  · rw [hitems]
    apply Described.of_error hcaught
    · intro rest hreply
      cases hreply with
      | nullArray hline _ => exact hnone ⟨_, _, hline⟩
      | array hline _ => exact hnone ⟨_, _, hline⟩
    · intro hcut
      cases hcut with
      | array hline _ _ _ => exact hnone ⟨_, _, hline⟩
  rw [hitems, arrayItems]
  by_cases hnegative : length < 0
  · rw [if_pos hnegative]
    apply Described.of_ok (WholeReply.nullArray hline hnegative)
    · intro others hothers
      cases hothers with
      | nullArray hother _ => exact (hline.unique hother).2
      | array hother _ =>
          obtain ⟨rfl, rfl⟩ := hline.unique hother
          omega
    · intro hcut
      cases hcut with
      | array hother _ _ _ =>
          obtain ⟨rfl, rfl⟩ := hline.unique hother
          omega
  rw [if_neg hnegative]
  obtain ⟨count, rfl⟩ := Int.eq_ofNat_of_zero_le (Int.not_lt.mp hnegative)
  rw [Int.toNat_natCast]
  have hwhole : ∀ others, WholeReply ending (frames + 1) (42 :: bytes) others ↔
      WholeReplies ending frames count rest others := by
    intro others
    constructor
    · intro hothers
      cases hothers with
      | nullArray hother hlength =>
          obtain ⟨rfl, rfl⟩ := hline.unique hother
          omega
      | array hother hreplies =>
          obtain ⟨hsame, rfl⟩ := hline.unique hother
          obtain rfl := Int.ofNat_inj.mp hsame
          exact hreplies
    · exact WholeReply.array hline
  have hcut : CutReply ending (frames + 1) (42 :: bytes) ↔
      ∃ whole < count, ∃ others, WholeReplies ending frames whole rest others ∧
        CutReply ending frames others := by
    constructor
    · intro hcut
      cases hcut with
      | array hother hlength hreplies hlast =>
          obtain ⟨hsame, rfl⟩ := hline.unique hother
          obtain rfl := Int.ofNat_inj.mp hsame
          exact ⟨_, hlength, _, hreplies, hlast⟩
    · rintro ⟨whole, hlength, others, hreplies, hlast⟩
      exact CutReply.array hline hlength hreplies hlast
  constructor
  · intro others
    rw [hwhole, ← wholeReplies_iff hread]
    cases readRedisValues (readRedisValue unavailable ending frames) count rest with
    | error raised =>
        constructor <;> rintro ⟨value, hvalue⟩ <;> cases hvalue
    | ok read =>
        constructor <;> rintro ⟨value, hvalue⟩ <;> cases hvalue <;> exact ⟨_, rfl⟩
  · rw [hcut, ← cutReplies_iff hread]
    cases readRedisValues (readRedisValue unavailable ending frames) count rest with
    | error raised =>
        constructor <;> rintro ⟨other, hescapes, hraised⟩ <;> cases hraised <;>
          exact ⟨_, hescapes, rfl⟩
    | ok read =>
        constructor <;> rintro ⟨raised, _, hraised⟩ <;> cases hraised

/-- Any other marker is refused. -/
theorem described_other (hcaught : ∀ message, ¬ (unavailable message).Escapes) {marker : UInt8}
    (hmarker : marker ≠ 43 ∧ marker ≠ 45 ∧ marker ≠ 58 ∧ marker ≠ 36 ∧ marker ≠ 42) :
    Described ending (frames + 1) (marker :: bytes)
      (readRedisValue unavailable ending (frames + 1) (marker :: bytes)) := by
  obtain ⟨hplus, hminus, hcolon, hdollar, hstar⟩ := hmarker
  have hread : readRedisValue unavailable ending (frames + 1) (marker :: bytes) =
      .error (unavailable "Unsupported Redis response.") := by
    rw [readRedisValue, raising_readExactly, if_pos (by simp), RedisException.ok_bind]
    simp [hplus, hminus, hcolon, hdollar, hstar]
  rw [hread]
  apply Described.of_error (hcaught _)
  · intro rest hreply
    cases hreply <;> contradiction
  · intro hcut
    cases hcut <;> contradiction

end Markers

/-- The two descriptions are exact. -/
theorem readRedisValue_described (hcaught : ∀ message, ¬ (unavailable message).Escapes) :
    Described ending frames bytes (readRedisValue unavailable ending frames bytes) := by
  induction frames generalizing bytes with
  | zero =>
      apply Described.of_escape (Or.inr rfl)
      · intro rest hreply
        cases hreply
      · exact CutReply.deep
  | succ frames ih =>
      cases bytes with
      | nil =>
          have hread : readRedisValue unavailable ending (frames + 1) [] =
              .error (endingRaises ending) := by
            cases ending <;> rfl
          have hwhole : ∀ rest, ¬ WholeReply ending (frames + 1) [] rest := by
            intro rest hreply
            cases hreply
          rw [hread]
          cases ending with
          | closed => exact Described.of_escape (Or.inl rfl) hwhole (CutReply.marker rfl)
          | lost failure =>
              apply Described.of_error (by simp [RedisException.Escapes, endingRaises]) hwhole
              intro hcut
              cases hcut with
              | marker hclosed => cases hclosed
      | cons marker bytes =>
          by_cases hplus : marker = 43
          · rw [hplus]
            exact described_simple
          by_cases hminus : marker = 45
          · rw [hminus]
            exact described_error hcaught
          by_cases hcolon : marker = 58
          · rw [hcolon]
            exact described_integer
          by_cases hdollar : marker = 36
          · rw [hdollar]
            exact described_bulk
          by_cases hstar : marker = 42
          · rw [hstar]
            exact described_array fun bytes => ih
          exact described_other hcaught ⟨hplus, hminus, hcolon, hdollar, hstar⟩

end Reading

/-- One of the next replies is cut off, after whole replies to the commands before it. -/
inductive CutExchange (ending : Ending ConnectionFailure) (frames : Nat)
    (draining : Nat → Option ConnectionFailure) : Nat → Nat → List UInt8 → Prop where
  | here {sent remaining : Nat} {bytes : List UInt8} : draining sent = none →
      CutReply ending frames bytes → CutExchange ending frames draining sent (remaining + 1) bytes
  | later {sent remaining : Nat} {bytes rest : List UInt8} : draining sent = none →
      WholeReply ending frames bytes rest →
        CutExchange ending frames draining (sent + 1) remaining rest →
          CutExchange ending frames draining sent (remaining + 1) bytes

/-- The connection opens and closes without a failure, and one of the replies to `count`
commands is cut off. -/
def RedisConnection.CutOff (connection : RedisConnection) (frames count : Nat) : Prop :=
  connection.opening = none ∧ connection.closing = none ∧
    CutExchange connection.ending frames connection.draining 0 count connection.incoming

section Exchange

variable {unavailable : String → RedisException} {frames : Nat}

theorem exchangeCommands_escapes_iff {ending : Ending ConnectionFailure}
    {draining : Nat → Option ConnectionFailure} {commands : List (List String)} {sent : Nat}
    {response : RedisValue} {bytes : List UInt8}
    (hcaught : ∀ message, ¬ (unavailable message).Escapes) :
    (∃ raised, raised.Escapes ∧ exchangeCommands (readRedisValue unavailable ending frames)
        draining commands sent response bytes = .error raised) ↔
      CutExchange ending frames draining sent commands.length bytes := by
  induction commands generalizing sent response bytes with
  | nil =>
      constructor
      · rintro ⟨raised, _, hraised⟩
        cases hraised
      · intro hcut
        cases hcut
  | cons command commands ih =>
      have hdescribed := @readRedisValue_described unavailable ending frames bytes hcaught
      rw [exchangeCommands]
      cases hdrain : draining sent with
      | some failure =>
          constructor
          · rintro ⟨raised, hescapes, hraised⟩
            cases hraised
            simp [RedisException.Escapes] at hescapes
          · intro hcut
            cases hcut with
            | here hnone _ =>
                rw [hdrain] at hnone
                cases hnone
            | later hnone _ _ =>
                rw [hdrain] at hnone
                cases hnone
      | none =>
          dsimp only
          cases hread : readRedisValue unavailable ending frames bytes with
          | error failure =>
              rw [hread] at hdescribed
              rw [RedisException.error_bind]
              constructor
              · rintro ⟨raised, hescapes, hraised⟩
                cases hraised
                exact CutExchange.here hdrain (hdescribed.cut.mp ⟨_, hescapes, rfl⟩)
              · intro hcut
                cases hcut with
                | here _ hreply =>
                    obtain ⟨raised, hescapes, hraised⟩ := hdescribed.cut.mpr hreply
                    cases hraised
                    exact ⟨_, hescapes, rfl⟩
                | later _ hreply _ =>
                    obtain ⟨value, hvalue⟩ := (hdescribed.whole _).mpr hreply
                    cases hvalue
          | ok read =>
              obtain ⟨value, rest⟩ := read
              rw [hread] at hdescribed
              rw [RedisException.ok_bind]
              dsimp only
              rw [ih]
              constructor
              · intro hcut
                exact CutExchange.later hdrain ((hdescribed.whole _).mp ⟨value, rfl⟩) hcut
              · intro hcut
                cases hcut with
                | here _ hreply =>
                    obtain ⟨raised, _, hraised⟩ := hdescribed.cut.mpr hreply
                    cases hraised
                | later _ hreply hcut =>
                    obtain ⟨other, hother⟩ := (hdescribed.whole _).mpr hreply
                    cases hother
                    exact hcut

/-- An exchange lets an exception through exactly when it is cut off. -/
theorem exchange_escapes_iff {connection : RedisConnection} {commands : List (List String)}
    (hcaught : ∀ message, ¬ (unavailable message).Escapes) :
    (∃ raised, raised.Escapes ∧
        connection.exchange unavailable frames commands = .error raised) ↔
      connection.CutOff frames commands.length := by
  unfold RedisConnection.exchange RedisConnection.CutOff
  cases hopening : connection.opening with
  | some failure =>
      simp [RedisException.Escapes]
  | none =>
      cases hclosing : connection.closing with
      | some failure =>
          simp [RedisException.Escapes]
      | none =>
          simp only [true_and]
          exact exchangeCommands_escapes_iff hcaught

end Exchange

/-- The limiter fails closed: the counter returns a pair or raises its own exception, `check`
returns a decision, and it denies unless the reply was a pair of integers. -/
structure LimiterFailsClosed (limiter : RedisFixedWindowRateLimiter) (address : RedisAddress)
    (connection : RedisConnection) (frames : Nat) : Prop where
  increment : ∀ key windowSeconds,
    (∃ pair, RedisFixedWindowCounter.incrementOver address connection frames key windowSeconds =
      .ok pair) ∨
    ∃ message, RedisFixedWindowCounter.incrementOver address connection frames key
      windowSeconds = .error (.rateLimitUnavailable message)
  check : ∀ scope key, ∃ decision,
    limiter.checkOver address connection frames scope key = .ok decision ∧
      ∀ rule, limiter.rules scope = some rule →
        (¬ ∃ count ttl, connection.exchange .rateLimitUnavailable frames
          (RedisFixedWindowCounter.commands address (limiter.redisKey scope key)
            rule.windowSeconds) = .ok (.list [.integer count, .integer ttl])) →
          decision.allowed = false

section Limiter

variable {address : RedisAddress} {connection : RedisConnection} {frames windowSeconds : Nat}
variable {key : String}

theorem length_commands :
    (RedisFixedWindowCounter.commands address key windowSeconds).length =
      address.preamble.length + 1 := by
  simp [RedisFixedWindowCounter.commands]

/-- What `increment_windowed` makes of the exchange. -/
theorem incrementOver_cases :
    (∃ count ttl, connection.exchange .rateLimitUnavailable frames
        (RedisFixedWindowCounter.commands address key windowSeconds) =
          .ok (.list [.integer count, .integer ttl]) ∧
      RedisFixedWindowCounter.incrementOver address connection frames key windowSeconds =
        .ok (count, max 1 ttl)) ∨
    (∃ message, RedisFixedWindowCounter.incrementOver address connection frames key
        windowSeconds = .error (.rateLimitUnavailable message)) ∨
    ∃ raised, raised.Escapes ∧
      connection.exchange .rateLimitUnavailable frames
        (RedisFixedWindowCounter.commands address key windowSeconds) = .error raised ∧
      RedisFixedWindowCounter.incrementOver address connection frames key windowSeconds =
        .error raised := by
  unfold RedisFixedWindowCounter.incrementOver
  cases hexchange : connection.exchange .rateLimitUnavailable frames
      (RedisFixedWindowCounter.commands address key windowSeconds) with
  | error raised =>
      dsimp only
      by_cases hcaught : raised.isConnectionOrValueError = true
      · rw [if_pos hcaught]
        exact Or.inr (Or.inl ⟨_, rfl⟩)
      · rw [if_neg hcaught]
        exact Or.inr (Or.inr ⟨raised, RedisException.escapes_iff.mpr (by simpa using hcaught),
          rfl, rfl⟩)
  | ok response =>
      split
      · rename_i heq
        cases heq
      · rename_i count ttl heq
        cases heq
        exact Or.inl ⟨count, ttl, rfl, rfl⟩
      · exact Or.inr (Or.inl ⟨_, rfl⟩)

/-- The limiter fails closed exactly when the exchange is not cut off. -/
theorem rate_limiter_fails_closed_iff (limiter : RedisFixedWindowRateLimiter)
    (address : RedisAddress) (connection : RedisConnection) (frames : Nat) :
    LimiterFailsClosed limiter address connection frames ↔
      ¬ connection.CutOff frames (address.preamble.length + 1) := by
  have hcaught : ∀ message, ¬ (RedisException.rateLimitUnavailable message).Escapes := by
    simp [RedisException.Escapes]
  have hescapes : ∀ key windowSeconds, (∃ raised, raised.Escapes ∧
      connection.exchange .rateLimitUnavailable frames
        (RedisFixedWindowCounter.commands address key windowSeconds) = .error raised) ↔
          connection.CutOff frames (address.preamble.length + 1) := by
    intro key windowSeconds
    rw [exchange_escapes_iff hcaught, length_commands]
  constructor
  · intro hclosed hcut
    obtain ⟨raised, hraised, hexchange⟩ := (hescapes "" 0).mpr hcut
    have hincrement : RedisFixedWindowCounter.incrementOver address connection frames "" 0 =
        .error raised := by
      have huncaught := RedisException.escapes_iff.mp hraised
      rw [RedisFixedWindowCounter.incrementOver, hexchange]
      simp [huncaught]
    rcases hclosed.increment "" 0 with ⟨pair, hpair⟩ | ⟨message, hmessage⟩
    · rw [hincrement] at hpair
      cases hpair
    · rw [hincrement] at hmessage
      cases hmessage
      exact hcaught message hraised
  · intro hwhole
    have hnone : ∀ key windowSeconds raised, raised.Escapes →
        connection.exchange .rateLimitUnavailable frames
          (RedisFixedWindowCounter.commands address key windowSeconds) ≠ .error raised := by
      intro key windowSeconds raised hraised hexchange
      exact hwhole ((hescapes key windowSeconds).mp ⟨raised, hraised, hexchange⟩)
    constructor
    · intro key windowSeconds
      rcases incrementOver_cases with ⟨count, ttl, _, hpair⟩ | hmessage |
        ⟨raised, hraised, hexchange, _⟩
      · exact Or.inl ⟨_, hpair⟩
      · exact Or.inr hmessage
      · exact absurd hexchange (hnone _ _ raised hraised)
    · intro scope key
      unfold RedisFixedWindowRateLimiter.checkOver
      cases hrule : limiter.rules scope with
      | none => exact ⟨_, rfl, by simp⟩
      | some rule =>
          dsimp only
          rcases incrementOver_cases with ⟨count, ttl, hexchange, hpair⟩ | ⟨message, hmessage⟩ |
            ⟨raised, hraised, hexchange, _⟩
          · rw [hpair]
            dsimp only
            by_cases hlimit : (rule.limit : Int) < count
            · rw [if_pos hlimit]
              exact ⟨_, rfl, fun _ _ _ => rfl⟩
            · rw [if_neg hlimit]
              refine ⟨_, rfl, ?_⟩
              intro other hother hpairless
              cases hother
              exact absurd ⟨count, ttl, hexchange⟩ hpairless
          · rw [hmessage]
            exact ⟨_, rfl, fun _ _ _ => rfl⟩
          · exact absurd hexchange (hnone _ _ raised hraised)

end Limiter

/-- The server accepts the connection and closes it before it answers. -/
def closedConnection : RedisConnection :=
  { incoming := []
    ending := .closed }

/-- One call a second for every scope. -/
def oneCallLimiter : RedisFixedWindowRateLimiter where
  rules := fun _ => some ⟨1, 1, Nat.one_pos, Nat.one_pos⟩
  keyPrefix := "muxivo-console:rate-limit"
  hexdigest := id

theorem rate_limiter_closed_connection :
    ¬ LimiterFailsClosed oneCallLimiter {} closedConnection 1000 := by
  intro hclosed
  have hraised : oneCallLimiter.checkOver {} closedConnection 1000 "login" "key" =
      .error .incompleteReadError := rfl
  obtain ⟨decision, hdecision, _⟩ := hclosed.check "login" "key"
  rw [hraised] at hdecision
  cases hdecision

section TokenStore

variable {address : RedisAddress} {connection : RedisConnection} {frames : Nat}
variable {parts : List String}

/-- The token store catches the closed connection as well: of what it does not catch only the
depth of nesting remains. -/
theorem tokenStore_command_cases :
    (∃ response, RedisOneTimeTokenStore.command address connection frames parts =
      .ok response) ∨
    (∃ message, RedisOneTimeTokenStore.command address connection frames parts =
      .error (.tokenStoreUnavailable message)) ∨
    RedisOneTimeTokenStore.command address connection frames parts =
      .error .recursionError := by
  unfold RedisOneTimeTokenStore.command
  cases connection.exchange .tokenStoreUnavailable frames (address.preamble ++ [parts]) with
  | ok response => exact Or.inl ⟨response, rfl⟩
  | error raised =>
      cases raised with
      | recursionError => exact Or.inr (Or.inr rfl)
      | _ => exact Or.inr (Or.inl ⟨_, rfl⟩)

end TokenStore

end MuxivoConsole
