/-
Base64 as Python's `urlsafe_b64encode` writes it and `urlsafe_b64decode` reads it.  The decoder is
lenient: it takes the characters of both alphabets, leaves out every other ASCII character, and
stops at the padding that completes a group.
-/
import MuxivoConsole.Text.Unicode

namespace Text

/-- The six bits of a character of one of the alphabets. -/
def sextet? (code : Nat) : Option Nat :=
  if 65 ≤ code ∧ code ≤ 90 then some (code - 65)
  else if 97 ≤ code ∧ code ≤ 122 then some (code - 71)
  else if 48 ≤ code ∧ code ≤ 57 then some (code + 4)
  else if code = 43 ∨ code = 45 then some 62
  else if code = 47 ∨ code = 95 then some 63
  else none

/-- The character of six bits in the URL-safe alphabet. -/
def sextetCode (value : Nat) : Nat :=
  if value < 26 then 65 + value
  else if value < 52 then 71 + value
  else if value < 62 then value - 4
  else if value = 62 then 45
  else 95

/-- `base64.urlsafe_b64encode` -/
def urlsafeB64encode : List UInt8 → Str
  | [] => []
  | [first] => [sextetCode (first.toNat / 4), sextetCode (first.toNat % 4 * 16), 61, 61]
  | [first, second] =>
      [sextetCode (first.toNat / 4), sextetCode (first.toNat % 4 * 16 + second.toNat / 16),
        sextetCode (second.toNat % 16 * 4), 61]
  | first :: second :: third :: rest =>
      sextetCode (first.toNat / 4) ::
        sextetCode (first.toNat % 4 * 16 + second.toNat / 16) ::
        sextetCode (second.toNat % 16 * 4 + third.toNat / 64) ::
        sextetCode (third.toNat % 64) :: urlsafeB64encode rest

/-- `a2b_base64` at a place of a group of four characters, with the bits that are left of the
previous one and the padding that has been counted. -/
def decodeSextets (place left pads : Nat) : Str → Option (List UInt8)
  | [] => if place = 0 then some [] else none
  | code :: rest =>
      if code = 61 then
        if 2 ≤ place then
          if 4 ≤ place + (pads + 1) then some [] else decodeSextets place left (pads + 1) rest
        else decodeSextets place left pads rest
      else
        match sextet? code with
        | none => decodeSextets place left pads rest
        | some value =>
            match place with
            | 0 => decodeSextets 1 value 0 rest
            | 1 =>
                (decodeSextets 2 (value % 16) 0 rest).map (UInt8.ofNat (left * 4 + value / 16) :: ·)
            | 2 =>
                (decodeSextets 3 (value % 4) 0 rest).map (UInt8.ofNat (left * 16 + value / 4) :: ·)
            | _ => (decodeSextets 0 0 0 rest).map (UInt8.ofNat (left * 64 + value) :: ·)

/-- `base64.urlsafe_b64decode` of a text, with `none` for the `ValueError` -/
def urlsafeB64decode? (codes : Str) : Option (List UInt8) :=
  if codes.all (· < 128) then decodeSextets 0 0 0 codes else none

section RoundTrip

variable {value left pads : Nat} {rest : Str} {bytes : List UInt8}

theorem sextet?_sextetCode (hvalue : value < 64) : sextet? (sextetCode value) = some value := by
  have hall : ∀ value < 64, sextet? (sextetCode value) = some value := by decide
  exact hall value hvalue

theorem sextetCode_ne (value : Nat) : sextetCode value ≠ 61 := by
  unfold sextetCode
  split_ifs <;> omega

theorem sextetCode_lt (value : Nat) : sextetCode value < 128 := by
  unfold sextetCode
  split_ifs <;> omega

theorem decodeSextets_first (hvalue : value < 64) :
    decodeSextets 0 left pads (sextetCode value :: rest) = decodeSextets 1 value 0 rest := by
  rw [decodeSextets, if_neg (sextetCode_ne value), sextet?_sextetCode hvalue]
  rfl

theorem decodeSextets_second (hvalue : value < 64) :
    decodeSextets 1 left pads (sextetCode value :: rest) =
      (decodeSextets 2 (value % 16) 0 rest).map (UInt8.ofNat (left * 4 + value / 16) :: ·) := by
  rw [decodeSextets, if_neg (sextetCode_ne value), sextet?_sextetCode hvalue]
  rfl

theorem decodeSextets_third (hvalue : value < 64) :
    decodeSextets 2 left pads (sextetCode value :: rest) =
      (decodeSextets 3 (value % 4) 0 rest).map (UInt8.ofNat (left * 16 + value / 4) :: ·) := by
  rw [decodeSextets, if_neg (sextetCode_ne value), sextet?_sextetCode hvalue]
  rfl

theorem decodeSextets_fourth (hvalue : value < 64) :
    decodeSextets 3 left pads (sextetCode value :: rest) =
      (decodeSextets 0 0 0 rest).map (UInt8.ofNat (left * 64 + value) :: ·) := by
  rw [decodeSextets, if_neg (sextetCode_ne value), sextet?_sextetCode hvalue]
  rfl

/-- The first of two parts of a byte makes up the byte with the second one. -/
theorem ofNat_eq_of_toNat {byte : UInt8} {number : Nat} (hnumber : number = byte.toNat) :
    UInt8.ofNat number = byte := by
  rw [hnumber, UInt8.ofNat_toNat]

theorem decodeSextets_encode : decodeSextets 0 0 0 (urlsafeB64encode bytes) = some bytes := by
  fun_induction urlsafeB64encode bytes with
  | case1 => rfl
  | case2 first =>
      have hfirst := first.toNat_lt
      rw [decodeSextets_first (by omega), decodeSextets_second (by omega)]
      rw [ofNat_eq_of_toNat (by omega : _ = first.toNat)]
      rfl
  | case3 first second =>
      have hfirst := first.toNat_lt
      have hsecond := second.toNat_lt
      rw [decodeSextets_first (by omega), decodeSextets_second (by omega),
        decodeSextets_third (by omega)]
      rw [ofNat_eq_of_toNat (by omega : _ = first.toNat),
        ofNat_eq_of_toNat (by omega : _ = second.toNat)]
      rfl
  | case4 first second third rest ih =>
      have hfirst := first.toNat_lt
      have hsecond := second.toNat_lt
      have hthird := third.toNat_lt
      rw [decodeSextets_first (by omega), decodeSextets_second (by omega),
        decodeSextets_third (by omega), decodeSextets_fourth (by omega), ih]
      simp only [Option.map_some]
      rw [ofNat_eq_of_toNat (by omega : _ = first.toNat),
        ofNat_eq_of_toNat (by omega : _ = second.toNat),
        ofNat_eq_of_toNat (by omega : _ = third.toNat)]

theorem ascii_urlsafeB64encode : ∀ code ∈ urlsafeB64encode bytes, code < 128 := by
  fun_induction urlsafeB64encode bytes with
  | case1 => simp
  | case2 first => simp [sextetCode_lt]
  | case3 first second => simp [sextetCode_lt]
  | case4 first second third rest ih => simpa [sextetCode_lt] using ih

/-- Bytes are read back from their text. -/
theorem urlsafeB64decode?_encode : urlsafeB64decode? (urlsafeB64encode bytes) = some bytes := by
  rw [urlsafeB64decode?, if_pos, decodeSextets_encode]
  exact List.all_eq_true.mpr fun code hcode => decide_eq_true (ascii_urlsafeB64encode code hcode)

end RoundTrip

/-- `base64.urlsafe_b64encode(value).rstrip(b"=")` -/
def base64url (bytes : List UInt8) : Str :=
  (urlsafeB64encode bytes).rdropWhile (· == 61)

section Unpadded

variable {bytes : List UInt8}

/-- The padding fills the last group of four up. -/
theorem exists_padding (bytes : List UInt8) : ∃ core pads,
    urlsafeB64encode bytes = core ++ List.replicate pads 61 ∧ 61 ∉ core ∧
      (4 - core.length % 4) % 4 = pads ∧ 3 * core.length ≤ 4 * bytes.length + 2 := by
  fun_induction urlsafeB64encode bytes with
  | case1 => exact ⟨[], 0, rfl, by simp, rfl, by simp⟩
  | case2 first =>
      exact ⟨[_, _], 2, rfl, by simp [(sextetCode_ne _).symm], rfl, by simp⟩
  | case3 first second =>
      exact ⟨[_, _, _], 1, rfl, by simp [(sextetCode_ne _).symm], rfl, by simp⟩
  | case4 first second third rest ih =>
      obtain ⟨core, pads, hcore, hmark, hpads, hlength⟩ := ih
      refine ⟨_ :: _ :: _ :: _ :: core, pads, by rw [hcore]; rfl, ?_, ?_, ?_⟩
      · simp [(sextetCode_ne _).symm, hmark]
      · rw [← hpads]
        simp only [List.length_cons]
        omega
      · simp only [List.length_cons]
        omega

theorem rdropWhile_append_replicate {core : Str} (hmark : 61 ∉ core) (pads : Nat) :
    (core ++ List.replicate pads 61).rdropWhile (· == 61) = core := by
  induction pads with
  | zero =>
      rw [List.replicate_zero, List.append_nil, List.rdropWhile_eq_self_iff]
      intro hne hlast
      exact hmark (eq_of_beq hlast ▸ List.getLast_mem hne)
  | succ pads ih =>
      rw [List.replicate_succ', ← List.append_assoc, List.rdropWhile_concat_pos _ _ _ (by rfl), ih]

/-- What is cut off is the padding, and it can be put back. -/
theorem base64url_padded : base64url bytes ++
    List.replicate ((4 - (base64url bytes).length % 4) % 4) 61 = urlsafeB64encode bytes := by
  obtain ⟨core, pads, hcore, hmark, hpads, _⟩ := exists_padding bytes
  rw [base64url, hcore, rdropWhile_append_replicate hmark, hpads]

theorem length_base64url_le : 3 * (base64url bytes).length ≤ 4 * bytes.length + 2 := by
  obtain ⟨core, pads, hcore, hmark, _, hlength⟩ := exists_padding bytes
  rw [base64url, hcore, rdropWhile_append_replicate hmark]
  exact hlength

theorem base64url_ne_nil (hne : bytes ≠ []) : base64url bytes ≠ [] := by
  intro hnil
  have hpadded := @base64url_padded bytes
  rw [hnil] at hpadded
  have hread := @urlsafeB64decode?_encode bytes
  rw [← hpadded] at hread
  cases hread
  exact hne rfl

theorem sextetCode_ne_dot (value : Nat) : sextetCode value ≠ 46 := by
  unfold sextetCode
  split_ifs <;> omega

theorem dot_notMem_urlsafeB64encode : 46 ∉ urlsafeB64encode bytes := by
  fun_induction urlsafeB64encode bytes with
  | case1 => simp
  | case2 first => simp [(sextetCode_ne_dot _).symm]
  | case3 first second => simp [(sextetCode_ne_dot _).symm]
  | case4 first second third rest ih => simp [(sextetCode_ne_dot _).symm, ih]

theorem dot_notMem_base64url : 46 ∉ base64url bytes := fun hdot =>
  dot_notMem_urlsafeB64encode ((List.rdropWhile_prefix _ _).subset hdot)

end Unpadded
end Text
