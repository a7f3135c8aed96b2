/-
The framing of the Redis connections: what is written is read back, byte for byte, whatever
follows it.
-/
import MuxivoConsole.Infrastructure.RedisProtocol

namespace MuxivoConsole

open Resp Streams Text

section Lines

variable {ending : Ending ConnectionFailure} {content rest : List UInt8}

/-- A line without line breaks of its own is read without its end. -/
theorem readRedisLine_crlf (hcontent : ∀ byte ∈ content, byte ≠ 13 ∧ byte ≠ 10)
    (hlimit : content.length + 1 ≤ streamLimit) :
    readRedisLine ending (content ++ crlf ++ rest) = .ok (content, rest) := by
  have hline : newline ∉ content ++ [13] := by
    intro hmem
    rcases List.mem_append.mp hmem with hmem | hmem
    · exact (hcontent newline hmem).2 rfl
    · simp [newline] at hmem
  have hbytes : content ++ crlf ++ rest = (content ++ [13]) ++ newline :: rest := by
    simp [crlf, newline]
  have hstrip : rstripNewline (content ++ [13] ++ [newline]) = content := by
    have hlast : content.rdropWhile (fun byte => byte == 13 || byte == 10) = content := by
      rw [List.rdropWhile_eq_self_iff]
      intro hne
      simp [hcontent _ (List.getLast_mem hne)]
    have hreturn : ((13 : UInt8) == 13 || (13 : UInt8) == 10) = true := by decide
    have hfeed : (newline == 13 || newline == 10) = true := by decide
    unfold rstripNewline
    rw [List.rdropWhile_concat_pos (fun byte => byte == 13 || byte == 10) _ newline hfeed,
      List.rdropWhile_concat_pos (fun byte => byte == 13 || byte == 10) _ 13 hreturn, hlast]
  rw [readRedisLine, hbytes, readLine_append hline (by simpa using hlimit)]
  simp only [raising, RedisException.ok_bind, hstrip]
  rfl

/-- The line of an integer is read as the integer. -/
theorem readRedisLine_integer {value : Int} (hbound : value.natAbs < 10 ^ maxDigits) :
    readRedisLine ending (integerBytes value ++ crlf ++ rest) = .ok (integerBytes value, rest) ∧
      intOfBytes (integerBytes value) = some value := by
  have hlength := length_integerBytes_le hbound
  have hlimit : maxDigits + 2 ≤ streamLimit := by decide
  have hbytes : ∀ byte ∈ integerBytes value, byte ≠ 13 ∧ byte ≠ 10 := by
    intro byte hbyte
    have hcode := mem_integerBytes hbyte
    constructor <;> rintro rfl <;> simp at hcode
  refine ⟨readRedisLine_crlf hbytes (by omega), ?_⟩
  rw [intOfBytes, map_toNat_integerBytes]
  exact int?_showInt (length_showNat_le hbound)

/-- Text without line breaks has none in its bytes. -/
theorem encodeUtf8_no_break {text : String}
    (hcharacters : ∀ character ∈ text.toList, character ≠ '\r' ∧ character ≠ '\n') :
    ∀ byte ∈ encodeUtf8 text, byte ≠ 13 ∧ byte ≠ 10 := by
  intro byte hbyte
  constructor
  · rintro rfl
    obtain ⟨character, hcharacter, hcode⟩ := exists_of_mem_encodeUtf8 hbyte (by decide)
    exact (hcharacters character hcharacter).1 (Char.toNat_inj.mp hcode)
  · rintro rfl
    obtain ⟨character, hcharacter, hcode⟩ := exists_of_mem_encodeUtf8 hbyte (by decide)
    exact (hcharacters character hcharacter).2 (Char.toNat_inj.mp hcode)

end Lines

mutual

/-- What `_read_redis_value` returns for a value of the protocol. -/
def meaning : Resp.Value → RedisValue
  | .simple text => .text text
  | .integer value => .integer value
  | .nullBulk => .none
  | .bulk text => .text text
  | .nullArray => .none
  | .array items => .list (meanings items)

def meanings : List Resp.Value → List RedisValue
  | [] => []
  | value :: values => meaning value :: meanings values

end

section Reading

variable {unavailable : String → RedisException} {ending : Ending ConnectionFailure}
variable {rest : List UInt8}

/-- What the marker of a value decides. -/
theorem readRedisValue_plus {frames : Nat} {bytes : List UInt8} :
    readRedisValue unavailable ending (frames + 1) (43 :: bytes) = (do
      let (line, bytes) ← readRedisLine ending bytes
      let text ← orValueError (decodeUtf8 line)
      pure (.text text, bytes)) :=
  rfl

theorem readRedisValue_colon {frames : Nat} {bytes : List UInt8} :
    readRedisValue unavailable ending (frames + 1) (58 :: bytes) = (do
      let (line, bytes) ← readRedisLine ending bytes
      let value ← orValueError (intOfBytes line)
      pure (.integer value, bytes)) :=
  rfl

theorem readRedisValue_dollar {frames : Nat} {bytes : List UInt8} :
    readRedisValue unavailable ending (frames + 1) (36 :: bytes) = (do
      let (line, bytes) ← readRedisLine ending bytes
      let length ← orValueError (intOfBytes line)
      if length < 0 then pure (.none, bytes)
      else do
        let (payload, bytes) ← raising (readExactly ending length.toNat bytes)
        let (_, bytes) ← raising (readExactly ending 2 bytes)
        let text ← orValueError (decodeUtf8 payload)
        pure (.text text, bytes)) :=
  rfl

/-- What follows the line of an array. -/
def arrayItems (unavailable : String → RedisException) (ending : Streams.Ending ConnectionFailure)
    (frames : Nat) (length : Int) (bytes : List UInt8) : Except RedisException (RedisValue × List UInt8) :=
  if length < 0 then pure (.none, bytes)
  else do
    let (items, bytes) ←
      readRedisValues (readRedisValue unavailable ending frames) length.toNat bytes
    pure (.list items, bytes)

theorem readRedisValue_star {frames : Nat} {bytes : List UInt8} :
    readRedisValue unavailable ending (frames + 1) (42 :: bytes) = (do
      let (line, bytes) ← readRedisLine ending bytes
      let length ← orValueError (intOfBytes line)
      arrayItems unavailable ending frames length bytes) :=
  rfl

/-- The items of an array are read one after the other. -/
theorem readRedisValues_wireAll
    {read : List UInt8 → Except RedisException (RedisValue × List UInt8)}
    {items : List Resp.Value}
    (hread : ∀ item ∈ items, ∀ rest, read (item.wire ++ rest) = .ok (meaning item, rest)) :
    readRedisValues read items.length (Value.wireAll items ++ rest) =
      .ok (meanings items, rest) := by
  induction items with
  | nil => rfl
  | cons item items ih =>
      have hitems := ih fun other hother => hread other (List.mem_cons_of_mem _ hother)
      rw [List.length_cons, Value.wireAll, List.append_assoc, readRedisValues,
        hread item List.mem_cons_self, RedisException.ok_bind]
      dsimp only
      rw [hitems]
      rfl

/-- A value is read back, and what follows it is left. -/
theorem readRedisValue_wire {frames : Nat} {value : Resp.Value} (hformed : value.WellFormed)
    (hfits : value.Fits streamLimit frames) :
    readRedisValue unavailable ending frames (value.wire ++ rest) = .ok (meaning value, rest) := by
  induction frames generalizing value rest with
  | zero => cases hfits
  | succ frames ih =>
      cases value with
      | simple text =>
          have hline : readRedisLine ending (encodeUtf8 text ++ crlf ++ rest) =
              .ok (encodeUtf8 text, rest) := by
            cases hformed with
            | simple hcharacters =>
            cases hfits with
            | simple hlimit => exact readRedisLine_crlf (encodeUtf8_no_break hcharacters) hlimit
          change readRedisValue unavailable ending (frames + 1)
            (43 :: (encodeUtf8 text ++ crlf ++ rest)) = _
          rw [readRedisValue_plus, hline, RedisException.ok_bind]
          simp only [decodeUtf8_encodeUtf8, orValueError, RedisException.ok_bind]
          rfl
      | integer value =>
          have hbound : value.natAbs < 10 ^ maxDigits := by
            cases hformed with
            | integer hlow hhigh => exact natAbs_lt_of_64_bits hlow hhigh
          obtain ⟨hline, hvalue⟩ := @readRedisLine_integer ending rest value hbound
          change readRedisValue unavailable ending (frames + 1)
            (58 :: (integerBytes value ++ crlf ++ rest)) = _
          rw [readRedisValue_colon, hline, RedisException.ok_bind]
          simp only [hvalue, orValueError, RedisException.ok_bind]
          rfl
      | nullBulk =>
          obtain ⟨hline, hvalue⟩ := @readRedisLine_integer ending rest (-1)
            (natAbs_lt_of_64_bits (by decide) (by decide))
          change readRedisValue unavailable ending (frames + 1)
            (36 :: (integerBytes (-1) ++ crlf ++ rest)) = _
          rw [readRedisValue_dollar, hline, RedisException.ok_bind]
          simp only [hvalue, orValueError, RedisException.ok_bind]
          rfl
      | bulk text =>
          have hbound : (encodeUtf8 text).length < 10 ^ maxDigits := by
            cases hformed with
            | bulk hlength => exact lt_of_le_maxLength hlength
          obtain ⟨hline, hvalue⟩ := @readRedisLine_integer ending
            (encodeUtf8 text ++ (crlf ++ rest)) (encodeUtf8 text).length (by simpa using hbound)
          rw [integerBytes_natCast] at hline hvalue
          have hwire : (Value.bulk text).wire ++ rest =
              36 :: (lengthBytes (encodeUtf8 text).length ++ crlf ++
                (encodeUtf8 text ++ (crlf ++ rest))) := by
            simp [Value.wire]
          have hlength : ¬ ((encodeUtf8 text).length : Int) < 0 := by omega
          rw [hwire, readRedisValue_dollar, hline, RedisException.ok_bind]
          simp only [hvalue, orValueError, RedisException.ok_bind, if_neg hlength,
            Int.toNat_natCast, readExactly_append, raising, decodeUtf8_encodeUtf8]
          rfl
      | nullArray =>
          obtain ⟨hline, hvalue⟩ := @readRedisLine_integer ending rest (-1)
            (natAbs_lt_of_64_bits (by decide) (by decide))
          change readRedisValue unavailable ending (frames + 1)
            (42 :: (integerBytes (-1) ++ crlf ++ rest)) = _
          rw [readRedisValue_star, hline, RedisException.ok_bind]
          simp only [hvalue, orValueError, RedisException.ok_bind, arrayItems]
          rfl
      | array items =>
          have hbound : items.length < 10 ^ maxDigits := by
            cases hformed with
            | array hlength _ => exact lt_of_le_maxLength hlength
          have hitems : ∀ item ∈ items, ∀ rest,
              readRedisValue unavailable ending frames (item.wire ++ rest) =
                .ok (meaning item, rest) := by
            intro item hitem rest
            cases hformed with
            | array _ hformed =>
            cases hfits with
            | array hfits => exact ih (hformed item hitem) (hfits item hitem)
          obtain ⟨hline, hvalue⟩ := @readRedisLine_integer ending
            (Value.wireAll items ++ rest) items.length (by simpa using hbound)
          rw [integerBytes_natCast] at hline hvalue
          have hwire : (Value.array items).wire ++ rest =
              42 :: (lengthBytes items.length ++ crlf ++ (Value.wireAll items ++ rest)) := by
            simp [Value.wire]
          have hlength : ¬ (items.length : Int) < 0 := by omega
          rw [hwire, readRedisValue_star, hline, RedisException.ok_bind]
          simp only [hvalue, orValueError, RedisException.ok_bind, arrayItems, if_neg hlength,
            Int.toNat_natCast, readRedisValues_wireAll hitems]
          rfl

/-- A simple string that does not fit in the buffer of the stream is a `ValueError`. -/
theorem readRedisValue_overrun {frames : Nat} {text : String}
    (hcharacters : ∀ character ∈ text.toList, character ≠ '\r' ∧ character ≠ '\n')
    (hlimit : streamLimit < (encodeUtf8 text).length + 1) :
    readRedisValue unavailable ending (frames + 1) ((Value.simple text).wire ++ rest) =
      .error .valueError := by
  have hline : newline ∉ encodeUtf8 text ++ [13] := by
    intro hmem
    rcases List.mem_append.mp hmem with hmem | hmem
    · exact (encodeUtf8_no_break hcharacters newline hmem).2 rfl
    · simp [newline] at hmem
  have hbytes : encodeUtf8 text ++ crlf ++ rest =
      (encodeUtf8 text ++ [13]) ++ newline :: rest := by
    simp [crlf, newline]
  change readRedisValue unavailable ending (frames + 1)
    (43 :: (encodeUtf8 text ++ crlf ++ rest)) = _
  rw [readRedisValue_plus, readRedisLine, hbytes, readLine_overrun hline (by simpa using hlimit)]
  rfl

/-- `_encode_redis_command` writes an array of bulk strings. -/
theorem encodeRedisCommand_eq_wire (parts : List String) :
    encodeRedisCommand parts = (Value.array (parts.map .bulk)).wire := by
  have hparts : (parts.flatMap fun part =>
      36 :: lengthBytes (encodeUtf8 part).length ++ crlf ++ encodeUtf8 part ++ crlf) =
        Value.wireAll (parts.map .bulk) := by
    induction parts with
    | nil => rfl
    | cons part parts ih => rw [List.flatMap_cons, ih, List.map_cons, Value.wireAll, Value.wire]
  rw [encodeRedisCommand, hparts, Value.wire, List.length_map]

theorem meanings_bulk (parts : List String) :
    meanings (parts.map .bulk) = parts.map .text := by
  induction parts with
  | nil => rfl
  | cons part parts ih => rw [List.map_cons, meanings, ih, meaning, List.map_cons]

end Reading

/-- The framing of an adapter: a command is read back as the list of its parts, to the last byte,
and a value of the protocol as what it means, to its own last byte. -/
def FramingExact (encode : List String → List UInt8)
    (read : List UInt8 → Except RedisException (RedisValue × List UInt8))
    (readable : Resp.Value → Prop) : Prop :=
  (∀ parts : List String, parts.length ≤ Value.maxLength →
    (∀ part ∈ parts, (encodeUtf8 part).length ≤ Value.maxLength) →
      read (encode parts) = .ok (.list (parts.map .text), [])) ∧
  ∀ (value : Resp.Value) (rest : List UInt8), value.WellFormed → readable value →
    read (value.wire ++ rest) = .ok (meaning value, rest)

section Framing

variable (ending : Ending ConnectionFailure) {frames : Nat}

theorem framingExact_of_frames (unavailable : String → RedisException) (hframes : 2 ≤ frames) :
    FramingExact encodeRedisCommand (readRedisValue unavailable ending frames)
      (Value.Fits streamLimit frames) := by
  obtain ⟨others, rfl⟩ := Nat.exists_eq_add_of_le' hframes
  constructor
  · intro parts hlength hparts
    have hformed : (Value.array (parts.map .bulk)).WellFormed := by
      apply Value.WellFormed.array
      · simpa using hlength
      · intro item hitem
        obtain ⟨part, hpart, rfl⟩ := List.mem_map.mp hitem
        exact Value.WellFormed.bulk (hparts part hpart)
    have hfits : (Value.array (parts.map .bulk)).Fits streamLimit (others + 2) := by
      apply Value.Fits.array
      intro item hitem
      obtain ⟨part, _, rfl⟩ := List.mem_map.mp hitem
      exact Value.Fits.bulk
    have hread := @readRedisValue_wire unavailable ending [] _ _ hformed hfits
    rw [List.append_nil] at hread
    rw [encodeRedisCommand_eq_wire, hread, meaning, meanings_bulk]
  · intro value rest hformed hfits
    exact readRedisValue_wire hformed hfits

/-- The framing of both adapters is exact on every value that fits in the buffer of the stream
and nests no deeper than the interpreter allows. -/
theorem redis_framing_exact (hframes : 2 ≤ frames) :
    FramingExact RedisFixedWindowCounter.encodeRedisCommand
        (RedisFixedWindowCounter.readRedisValue ending frames)
        (Value.Fits streamLimit frames) ∧
      FramingExact RedisOneTimeTokenStore.encodeRedisCommand
        (RedisOneTimeTokenStore.readRedisValue ending frames)
        (Value.Fits streamLimit frames) :=
  ⟨framingExact_of_frames ending .rateLimitUnavailable hframes,
    framingExact_of_frames ending .tokenStoreUnavailable hframes⟩

theorem redis_framing_exact_flat :
    FramingExact RedisFixedWindowCounter.encodeRedisCommand
        (RedisFixedWindowCounter.readRedisValue .closed 2)
        (Value.Fits streamLimit 2) ∧
      FramingExact RedisOneTimeTokenStore.encodeRedisCommand
        (RedisOneTimeTokenStore.readRedisValue .closed 2)
        (Value.Fits streamLimit 2) :=
  redis_framing_exact .closed (by decide)

end Framing

/-- A status line of 64 KiB. -/
def longStatus : String :=
  String.ofList (List.replicate streamLimit 'a')

/-- Without the limits the framing is not exact: a simple string of 64 KiB is not read. -/
theorem redis_framing_overrun :
    ¬ FramingExact RedisFixedWindowCounter.encodeRedisCommand
      (RedisFixedWindowCounter.readRedisValue .closed 1000) fun _ => True := by
  intro hexact
  have hcharacters : ∀ character ∈ longStatus.toList, character ≠ '\r' ∧ character ≠ '\n' := by
    intro character hmem
    rw [longStatus, String.toList_ofList] at hmem
    rw [List.eq_of_mem_replicate hmem]
    decide
  have hlength : (encodeUtf8 longStatus).length = streamLimit := by
    have hletter : (String.utf8EncodeChar 'a').length = 1 := by decide
    rw [encodeUtf8_eq_flatMap, longStatus, String.toList_ofList, List.length_flatMap,
      List.map_replicate, List.sum_replicate, hletter]
    decide
  have hread := hexact.2 (.simple longStatus) [] (Value.WellFormed.simple hcharacters) trivial
  have hoverrun := @readRedisValue_overrun .rateLimitUnavailable .closed [] 999 longStatus
    hcharacters (by omega)
  rw [RedisFixedWindowCounter.readRedisValue, hoverrun] at hread
  cases hread

end MuxivoConsole
