/-
What Python's subscripts, `iter`, `int`, `float` and `str` make of decoded values, with the class
of the exception where they fail.  The decoder and `str` follow nested values equally deep, so a
value that has been decoded is one that `str` can follow.
-/
import MuxivoConsole.Floats.Decimals
import MuxivoConsole.Json.Values
import MuxivoConsole.Text.Hexadecimal

namespace Json

open Text

/-- The classes of the exceptions. -/
inductive PythonError where
  | keyError
  | typeError
  | valueError
  | attributeError
  | overflowError
  | recursionError
  deriving DecidableEq

abbrev Attempt := Except PythonError

/-- A check that raises a `ValueError`. -/
def require (condition : Bool) : Attempt Unit :=
  if condition then .ok () else .error .valueError

/-- What a conversion raises for values of another kind. -/
def orRaise {α : Type} (error : PythonError) : Option α → Attempt α
  | some value => .ok value
  | none => .error error

namespace Value

/-- `value[key]` -/
def subscript (value : Value) (key : String) : Attempt Value :=
  match value with
  | object members => orRaise .keyError (member? members key)
  | _ => .error .typeError

/-- `iter(value)` -/
def iterate : Value → Attempt (List Value)
  | array items => .ok items
  | object members => .ok (members.map fun member => string member.1)
  | string codes => .ok (codes.map fun code => string [code])
  | _ => .error .typeError

/-- `int(value)` -/
def toInt : Value → Attempt ℤ
  | bool value => .ok (if value then 1 else 0)
  | int value => .ok value
  | float (.finite value) => .ok (Binary64.truncate value)
  | float (.infinite _) => .error .overflowError
  | float .nan => .error .valueError
  | string codes => orRaise .valueError (parseInt? codes)
  | _ => .error .typeError

/-- `float(value)` -/
def toFloat : Value → Attempt Binary64
  | bool value => .ok (.finite (if value then 1 else 0))
  | int value => orRaise .overflowError (Binary64.ofInt? value)
  | float value => .ok value
  | string codes => orRaise .valueError (Binary64.parse? codes)
  | _ => .error .typeError

end Value

/-- What `repr` needs to know about characters beyond ASCII. -/
abbrev Printable := Nat → Bool

/-- `count` hexadecimal digits -/
def hexText (count number : Nat) : List Nat :=
  (List.range count).map fun position => hexCode (number / 16 ^ (count - 1 - position) % 16)

/-- A character in the `repr` of a text. -/
def reprCode (printable : Printable) (quote code : Nat) : List Nat :=
  if code = quote ∨ code = 92 then [92, code]
  else if code = 9 then [92, 116]
  else if code = 10 then [92, 110]
  else if code = 13 then [92, 114]
  else if 32 ≤ code ∧ code < 127 then [code]
  else if 127 < code ∧ printable code then [code]
  else if code ≤ 0xff then 92 :: 120 :: hexText 2 code
  else if code ≤ 0xffff then 92 :: 117 :: hexText 4 code
  else 92 :: 85 :: hexText 8 code

/-- `repr(text)`: in double quotes only if the text has single quotes and no double ones. -/
def reprText (printable : Printable) (codes : List Nat) : List Nat :=
  let quote := if 39 ∈ codes ∧ 34 ∉ codes then 34 else 39
  quote :: codes.flatMap (reprCode printable quote) ++ [quote]

/-- `repr(number)`; too many digits raise a `ValueError`. -/
def reprInt (number : ℤ) : Attempt (List Nat) :=
  if (showNat number.natAbs).length ≤ maxDigits then .ok (showInt number) else .error .valueError

/-- The separator of items. -/
def commaBlank : List Nat := [44, 32]

mutual

/-- `repr(value)` -/
def Value.repr (printable : Printable) : Value → Attempt (List Nat)
  | .null => .ok (codesOf "None")
  | .bool value => .ok (codesOf (if value then "True" else "False"))
  | .int value => reprInt value
  | .float value => .ok value.repr
  | .string codes => .ok (reprText printable codes)
  | .array items =>
      (reprItems printable items).map fun texts => 91 :: commaBlank.intercalate texts ++ [93]
  | .object members =>
      (reprMembers printable members).map fun texts => 123 :: commaBlank.intercalate texts ++ [125]

def reprItems (printable : Printable) : List Value → Attempt (List (List Nat))
  | [] => .ok []
  | item :: rest =>
      (Value.repr printable item).bind fun text =>
        (reprItems printable rest).map fun texts => text :: texts

def reprMembers (printable : Printable) :
    List (List Nat × Value) → Attempt (List (List Nat))
  | [] => .ok []
  | (key, value) :: rest =>
      (Value.repr printable value).bind fun text =>
        (reprMembers printable rest).map fun texts =>
          (reprText printable key ++ 58 :: 32 :: text) :: texts

end

/-- `str(value)` -/
def Value.str (printable : Printable) : Value → Attempt (List Nat)
  | .string codes => .ok codes
  | value => value.repr printable

section Sequences

variable {ε α β : Type} {error : ε}

@[simp] theorem ok_bind (value : α) (next : α → Except ε β) :
    (Except.ok value >>= next) = next value := rfl

@[simp] theorem error_bind (next : α → Except ε β) :
    ((Except.error error : Except ε α) >>= next) = .error error := rfl

theorem bind_eq_error {attempt : Except ε α} {next : α → Except ε β} :
    (attempt >>= next) = .error error ↔
      attempt = .error error ∨ ∃ value, attempt = .ok value ∧ next value = .error error := by
  cases attempt with
  | error other => simp
  | ok value => simp

theorem bind_eq_ok {attempt : Except ε α} {next : α → Except ε β} {result : β} :
    (attempt >>= next) = .ok result ↔
      ∃ value, attempt = .ok value ∧ next value = .ok result := by
  cases attempt with
  | error other => simp
  | ok value => simp

theorem orRaise_eq_ok {error : PythonError} {option : Option α} {result : α} :
    orRaise error option = .ok result ↔ option = some result := by
  cases option <;> simp [orRaise]

theorem require_eq_ok {condition : Bool} {done : Unit} :
    require condition = .ok done ↔ condition = true := by
  unfold require
  split_ifs with hcondition <;> simp [hcondition]

/-- Every item of a list that has been gone through has a result. -/
theorem exists_of_mapM_eq_ok {f : α → Except ε β} {items : List α} {results : List β}
    (hresults : items.mapM f = .ok results) : ∀ item ∈ items, ∃ result, f item = .ok result := by
  induction items generalizing results with
  | nil => simp
  | cons head tail ih =>
      rw [List.mapM_cons, bind_eq_ok] at hresults
      obtain ⟨first, hfirst, hrest⟩ := hresults
      rw [bind_eq_ok] at hrest
      obtain ⟨others, hothers, _⟩ := hrest
      intro item hitem
      rcases List.mem_cons.mp hitem with rfl | hitem
      · exact ⟨first, hfirst⟩
      · exact ih hothers item hitem

theorem exists_mapM_eq_ok {f : α → Except ε β} {items : List α}
    (hall : ∀ item ∈ items, ∃ result, f item = .ok result) :
    ∃ results, items.mapM f = .ok results := by
  induction items with
  | nil => exact ⟨[], rfl⟩
  | cons head tail ih =>
      obtain ⟨first, hfirst⟩ := hall head List.mem_cons_self
      obtain ⟨others, hothers⟩ := ih fun item hitem => hall item (List.mem_cons_of_mem _ hitem)
      exact ⟨first :: others, by rw [List.mapM_cons, hfirst, hothers]; rfl⟩

/-- What every step keeps, the list keeps. -/
theorem map_of_mapM_eq_ok {γ : Type} {f : α → Except ε β} {kept : α → γ} {key : β → γ}
    (hkeeps : ∀ item result, f item = .ok result → key result = kept item) {items : List α}
    {results : List β} (hresults : items.mapM f = .ok results) :
    results.map key = items.map kept := by
  induction items generalizing results with
  | nil =>
      cases hresults
      rfl
  | cons head tail ih =>
      rw [List.mapM_cons, bind_eq_ok] at hresults
      obtain ⟨first, hfirst, hrest⟩ := hresults
      rw [bind_eq_ok] at hrest
      obtain ⟨others, hothers, hresult⟩ := hrest
      cases hresult
      rw [List.map_cons, List.map_cons, hkeeps head first hfirst, ih hothers]

/-- A list fails as its first item that fails. -/
theorem mapM_eq_error {f : α → Except ε β} {items : List α} :
    items.mapM f = .error error ↔ ∃ before item after, items = before ++ item :: after ∧
      (∀ earlier ∈ before, ∃ result, f earlier = .ok result) ∧ f item = .error error := by
  induction items with
  | nil =>
      constructor
      · intro hnil
        cases hnil
      · rintro ⟨before, item, after, hitems, _⟩
        simp at hitems
  | cons head tail ih =>
      rw [List.mapM_cons, bind_eq_error]
      constructor
      · rintro (hhead | ⟨first, hfirst, hrest⟩)
        · exact ⟨[], head, tail, rfl, by simp, hhead⟩
        · rw [bind_eq_error] at hrest
          rcases hrest with htail | ⟨others, _, hothers⟩
          · obtain ⟨before, item, after, hitems, hbefore, hitem⟩ := ih.mp htail
            refine ⟨head :: before, item, after, by rw [hitems]; rfl, ?_, hitem⟩
            intro earlier hearlier
            rcases List.mem_cons.mp hearlier with rfl | hearlier
            · exact ⟨first, hfirst⟩
            · exact hbefore earlier hearlier
          · cases hothers
      · rintro ⟨before, item, after, hitems, hbefore, hitem⟩
        cases before with
        | nil =>
            rw [List.nil_append, List.cons.injEq] at hitems
            exact Or.inl (by rw [hitems.1, hitem])
        | cons first others =>
            rw [List.cons_append, List.cons.injEq] at hitems
            obtain ⟨result, hresult⟩ := hbefore first List.mem_cons_self
            refine Or.inr ⟨result, by rw [hitems.1, hresult], ?_⟩
            rw [bind_eq_error]
            exact Or.inl (ih.mpr ⟨others, item, after, hitems.2,
              fun earlier hearlier => hbefore earlier (List.mem_cons_of_mem _ hearlier), hitem⟩)

end Sequences

end Json
