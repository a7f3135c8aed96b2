/-
References as RFC 3986 splits them: the path ends at the first `?` or `#`, its components are
separated by `/`, dot components are resolved, and `%XX` stands for a byte.  The sizes below count
bytes, and every step of the reading can only make a text smaller: this decides when the reading
gives back what was put together.
-/
import Mathlib.Algebra.GroupWithZero.Nat
import Mathlib.Data.List.TakeWhile
import Mathlib.Order.Basic
import MuxivoConsole.Text.Splitting
import MuxivoConsole.Text.Utf8

namespace Uri

/-- The characters as UTF-8. -/
def bytes (text : List Char) : List UInt8 :=
  text.flatMap String.utf8EncodeChar

@[simp] theorem bytes_nil : bytes [] = [] := rfl

@[simp] theorem bytes_cons (character : Char) (text : List Char) :
    bytes (character :: text) = String.utf8EncodeChar character ++ bytes text := rfl

@[simp] theorem bytes_append (first second : List Char) :
    bytes (first ++ second) = bytes first ++ bytes second :=
  List.flatMap_append

theorem bytes_injective {first second : List Char} (hbytes : bytes first = bytes second) :
    first = second := by
  have hencoded : Text.encodeUtf8 (String.ofList first) =
      Text.encodeUtf8 (String.ofList second) := by
    rw [Text.encodeUtf8_eq_flatMap, Text.encodeUtf8_eq_flatMap, String.toList_ofList,
      String.toList_ofList]
    exact hbytes
  have hdecoded := congrArg Text.decodeUtf8 hencoded
  rw [Text.decodeUtf8_encodeUtf8, Text.decodeUtf8_encodeUtf8, Option.some.injEq] at hdecoded
  exact String.ofList_injective hdecoded

theorem length_utf8EncodeChar_pos (character : Char) :
    0 < (String.utf8EncodeChar character).length := by
  rw [String.length_utf8EncodeChar]
  exact character.utf8Size_pos

/-- The value of a hexadecimal digit. -/
def hexValue? (character : Char) : Option Nat :=
  let code := character.toNat
  if 48 ≤ code ∧ code ≤ 57 then some (code - 48)
  else if 65 ≤ code ∧ code ≤ 70 then some (code - 55)
  else if 97 ≤ code ∧ code ≤ 102 then some (code - 87)
  else none

/-- The byte of an escape that begins with the character. -/
def escape? (character high low : Char) : Option UInt8 :=
  if character = '%' then
    (hexValue? high).bind fun first =>
      (hexValue? low).map fun second => UInt8.ofNat (16 * first + second)
  else none

/-- Percent-decoding to bytes; a `%` without two hexadecimal digits is left alone. -/
def unquote : List Char → List UInt8
  | character :: high :: low :: rest =>
      match escape? character high low with
      | some byte => byte :: unquote rest
      | none => String.utf8EncodeChar character ++ unquote (high :: low :: rest)
  | text => bytes text

/-- Whether the text contains an escape. -/
def hasEscape : List Char → Bool
  | character :: high :: low :: rest =>
      (escape? character high low).isSome || hasEscape (high :: low :: rest)
  | _ => false

section Escapes

variable {text : List Char}

/-- Without escapes the decoding is the encoding as UTF-8. -/
theorem unquote_eq_bytes (hplain : hasEscape text = false) : unquote text = bytes text := by
  fun_induction hasEscape text with
  | case1 character high low rest ih =>
      rw [Bool.or_eq_false_iff] at hplain
      have hnone : escape? character high low = none := by simpa using hplain.1
      rw [unquote, hnone]
      exact congrArg (String.utf8EncodeChar character ++ ·) (ih hplain.2)
  | case2 text hshort =>
      unfold unquote
      split
      · exact absurd rfl (hshort _ _ _ _)
      · rfl

/-- Decoding makes no text longer, and shortens one that contains an escape. -/
theorem length_unquote_le (text : List Char) :
    (unquote text).length ≤ (bytes text).length ∧
      (hasEscape text = true → (unquote text).length < (bytes text).length) := by
  fun_induction unquote text with
  | case1 character high low rest byte hescape ih =>
      have hlow := length_utf8EncodeChar_pos low
      have hhigh := length_utf8EncodeChar_pos high
      have hfirst := length_utf8EncodeChar_pos character
      have hrest := ih.1
      simp only [List.length_cons, bytes_cons, List.length_append]
      omega
  | case2 character high low rest hescape ih =>
      have hrest := ih.1
      have hshorter := ih.2
      rw [hasEscape, hescape]
      simp only [Option.isSome_none, Bool.false_or, List.length_append, bytes_cons] at *
      refine ⟨by omega, fun hlater => ?_⟩
      have := hshorter hlater
      omega
  | case3 text hshort =>
      refine ⟨le_rfl, fun hescape => ?_⟩
      unfold hasEscape at hescape
      split at hescape
      · exact absurd rfl (hshort _ _ _ _)
      · exact absurd hescape (by decide)

/-- A text is decoded to itself exactly when it contains no escape. -/
theorem unquote_eq_bytes_iff : unquote text = bytes text ↔ hasEscape text = false := by
  refine ⟨fun hequal => ?_, unquote_eq_bytes⟩
  by_contra hescape
  rw [Bool.not_eq_false] at hescape
  have hshorter := (length_unquote_le text).2 hescape
  rw [hequal] at hshorter
  exact lt_irrefl _ hshorter

/-- A text without `%` has no escape. -/
theorem hasEscape_eq_false (hpercent : '%' ∉ text) : hasEscape text = false := by
  fun_induction hasEscape text with
  | case1 character high low rest ih =>
      have hne : character ≠ '%' := by
        rintro rfl
        exact hpercent List.mem_cons_self
      have hnone : escape? character high low = none := by rw [escape?, if_neg hne]
      rw [hnone, ih fun hmem => hpercent (List.mem_cons_of_mem _ hmem)]
      rfl
  | case2 => rfl

end Escapes

/-- One component in the removal of dot components; the output is kept in reverse. -/
def removeDot (output : List (List Char)) (component : List Char) : List (List Char) :=
  if component = ['.'] then output
  else if component = ['.', '.'] then
    if output = [] ∨ output = [[]] then output else output.tail
  else component :: output

/-- The components without `.` and `..` -/
def removeDots (components : List (List Char)) : List (List Char) :=
  (components.foldl removeDot []).reverse

/-- Whether the component stands for a place rather than a name. -/
def isDot (component : List Char) : Bool :=
  component == ['.'] || component == ['.', '.']

/-- The bytes of segments, with one separator for each. -/
def weight (segments : List (List UInt8)) : Nat :=
  (segments.map fun segment => segment.length + 1).sum

/-- The bytes of the components, with one separator for each. -/
def size (components : List (List Char)) : Nat :=
  weight (components.map bytes)

section Components

variable {components output : List (List Char)} {component : List Char}

@[simp] theorem weight_cons (segment : List UInt8) (segments : List (List UInt8)) :
    weight (segment :: segments) = segment.length + 1 + weight segments := by
  simp [weight]

@[simp] theorem size_nil : size [] = 0 := rfl

@[simp] theorem size_cons :
    size (component :: components) = (bytes component).length + 1 + size components := by
  simp [size]

@[simp] theorem size_reverse : size components.reverse = size components := by
  simp [size, weight, List.sum_reverse]

/-- Decoding the components adds nothing, and keeps their size only without escapes. -/
theorem weight_map_unquote (components : List (List Char)) :
    weight (components.map unquote) ≤ size components ∧
      ((∃ component ∈ components, hasEscape component = true) →
        weight (components.map unquote) < size components) := by
  induction components with
  | nil => simp [weight]
  | cons head tail ih =>
      obtain ⟨hle, hlt⟩ := length_unquote_le head
      obtain ⟨hrest, hshorter⟩ := ih
      rw [List.map_cons, weight_cons, size_cons]
      refine ⟨by omega, ?_⟩
      rintro ⟨component, hmem, hescape⟩
      rcases List.mem_cons.mp hmem with rfl | hmem
      · have := hlt hescape
        omega
      · have := hshorter ⟨component, hmem, hescape⟩
        omega

theorem size_tail_le : size output.tail ≤ size output := by
  cases output with
  | nil => exact le_rfl
  | cons head tail => simp

theorem removeDot_eq_cons (hname : isDot component = false) :
    removeDot output component = component :: output := by
  simp only [isDot, Bool.or_eq_false_iff, beq_eq_false_iff_ne] at hname
  rw [removeDot, if_neg hname.1, if_neg hname.2]

/-- A dot component leaves nothing of itself. -/
theorem size_removeDot_of_isDot (hdot : isDot component = true) :
    size (removeDot output component) ≤ size output := by
  simp only [isDot, Bool.or_eq_true, beq_iff_eq] at hdot
  unfold removeDot
  split_ifs with hone htwo hroot
  · exact le_rfl
  · exact le_rfl
  · exact size_tail_le
  · rcases hdot with hdot | hdot
    · exact absurd hdot hone
    · exact absurd hdot htwo

theorem size_foldl_removeDot (components output : List (List Char)) :
    size (components.foldl removeDot output) ≤ size output + size components ∧
      ((∃ component ∈ components, isDot component = true) →
        size (components.foldl removeDot output) < size output + size components) := by
  induction components generalizing output with
  | nil => simp
  | cons head tail ih =>
      obtain ⟨hle, hlt⟩ := ih (removeDot output head)
      rw [List.foldl_cons, size_cons]
      by_cases hdot : isDot head = true
      · have hhead := @size_removeDot_of_isDot output _ hdot
        omega
      · rw [Bool.not_eq_true] at hdot
        rw [removeDot_eq_cons hdot, size_cons] at hle hlt
        rw [removeDot_eq_cons hdot]
        refine ⟨by omega, ?_⟩
        rintro ⟨component, hmem, hcomponent⟩
        rcases List.mem_cons.mp hmem with rfl | hmem
        · exact absurd hcomponent (by simp [hdot])
        · have := hlt ⟨component, hmem, hcomponent⟩
          omega

/-- Removing dot components makes no path longer, and shortens one that has them. -/
theorem size_removeDots (components : List (List Char)) :
    size (removeDots components) ≤ size components ∧
      ((∃ component ∈ components, isDot component = true) →
        size (removeDots components) < size components) := by
  simpa [removeDots] using size_foldl_removeDot components []

theorem foldl_removeDot_eq_reverse (hnames : ∀ component ∈ components, isDot component = false) :
    components.foldl removeDot output = components.reverse ++ output := by
  induction components generalizing output with
  | nil => rfl
  | cons head tail ih =>
      rw [List.foldl_cons, removeDot_eq_cons (hnames head List.mem_cons_self),
        ih fun component hmem => hnames component (List.mem_cons_of_mem _ hmem)]
      simp

theorem removeDots_eq_self (hnames : ∀ component ∈ components, isDot component = false) :
    removeDots components = components := by
  rw [removeDots, foldl_removeDot_eq_reverse hnames]
  simp

/-- The size of components is that of the path they make, and one. -/
theorem size_eq_length_intercalate (hne : components ≠ []) :
    size components = (bytes (['/'].intercalate components)).length + 1 := by
  induction components with
  | nil => exact absurd rfl hne
  | cons head tail ih =>
      cases tail with
      | nil => simp [List.intercalate_singleton]
      | cons next others =>
          rw [size_cons, ih (by simp), List.intercalate_cons_cons]
          have hslash : (bytes ['/']).length = 1 := by decide
          simp only [bytes_append, List.length_append, hslash]
          omega

end Components

/-- The parts of a reference: the components of the path are decoded. -/
structure Target where
  segments : List (List UInt8)
  query : Option (List Char)
  fragment : Option (List Char)
  deriving DecidableEq

/-- Whether a character ends the path. -/
def endsPath (character : Char) : Bool :=
  character == '?' || character == '#'

/-- The path of a reference, up to its query and fragment. -/
def path (reference : List Char) : List Char :=
  reference.takeWhile (!endsPath ·)

def fragment? (reference : List Char) : Option (List Char) :=
  match reference.dropWhile (· != '#') with
  | _ :: rest => some rest
  | [] => none

def query? (reference : List Char) : Option (List Char) :=
  match (reference.takeWhile (· != '#')).dropWhile (· != '?') with
  | _ :: rest => some rest
  | [] => none

/-- The components of an absolute path; `dots` says whether dot components are resolved. -/
def components (dots : Bool) (path : List Char) : List (List Char) :=
  if dots then removeDots (path.splitOn '/') else path.splitOn '/'

/-- What a reference with an absolute path addresses. -/
def target (dots : Bool) (reference : List Char) : Target where
  segments := ((components dots (path reference)).drop 1).map unquote
  query := query? reference
  fragment := fragment? reference

/-- A component that the reading gives back as it is. -/
structure Plain (dots : Bool) (component : List Char) : Prop where
  separator : '/' ∉ component
  inPath : ∀ character ∈ component, endsPath character = false
  escape : hasEscape component = false
  name : dots = true → isDot component = false

/-- The absolute path of names. -/
def absolute (names : List (List Char)) : List Char :=
  ['/'].intercalate ([] :: names)

/-- The target that names no more than a path. -/
def Target.ofNames (names : List (List Char)) : Target :=
  ⟨names.map bytes, none, none⟩

section Reading

variable {dots : Bool} {names : List (List Char)} {reference : List Char}

theorem plain_nil : Plain dots [] :=
  ⟨by simp, by simp, rfl, fun _ => rfl⟩

theorem mem_intercalate {character : Char} {components : List (List Char)}
    (hmem : character ∈ ['/'].intercalate components) :
    character = '/' ∨ ∃ component ∈ components, character ∈ component := by
  induction components with
  | nil => simp [List.intercalate_nil] at hmem
  | cons head tail ih =>
      cases tail with
      | nil =>
          rw [List.intercalate_singleton] at hmem
          exact Or.inr ⟨head, by simp, hmem⟩
      | cons next others =>
          rw [List.intercalate_cons_cons] at hmem
          simp only [List.mem_append, List.mem_singleton] at hmem
          rcases hmem with (hmem | hmem) | hmem
          · exact Or.inr ⟨head, by simp, hmem⟩
          · exact Or.inl hmem
          · rcases ih hmem with hslash | ⟨component, hcomponent, hmem⟩
            · exact Or.inl hslash
            · exact Or.inr ⟨component, List.mem_cons_of_mem _ hcomponent, hmem⟩

theorem path_eq_self (hpath : ∀ character ∈ reference, endsPath character = false) :
    path reference = reference := by
  rw [path, List.takeWhile_eq_self_iff]
  intro character hmem
  simp [hpath character hmem]

theorem query?_eq_none (hpath : ∀ character ∈ reference, endsPath character = false) :
    query? reference = none := by
  have hdrop : (reference.takeWhile (· != '#')).dropWhile (· != '?') = [] := by
    rw [List.dropWhile_eq_nil_iff]
    intro character hmem
    have hends := hpath character ((List.takeWhile_prefix _).subset hmem)
    simp only [endsPath, Bool.or_eq_false_iff, beq_eq_false_iff_ne] at hends
    simpa using hends.1
  rw [query?, hdrop]

theorem fragment?_eq_none (hpath : ∀ character ∈ reference, endsPath character = false) :
    fragment? reference = none := by
  have hdrop : reference.dropWhile (· != '#') = [] := by
    rw [List.dropWhile_eq_nil_iff]
    intro character hmem
    have hends := hpath character hmem
    simp only [endsPath, Bool.or_eq_false_iff, beq_eq_false_iff_ne] at hends
    simpa using hends.2
  rw [fragment?, hdrop]

/-- Plain names are read back. -/
theorem target_absolute (hplain : ∀ name ∈ names, Plain dots name) :
    target dots (absolute names) = Target.ofNames names := by
  have hall : ∀ component ∈ [] :: names, Plain dots component := by
    intro component hmem
    rcases List.mem_cons.mp hmem with rfl | hmem
    · exact plain_nil
    · exact hplain component hmem
  have hpath : ∀ character ∈ absolute names, endsPath character = false := by
    intro character hmem
    rcases mem_intercalate hmem with rfl | ⟨component, hcomponent, hmem⟩
    · rfl
    · exact (hall component hcomponent).inPath character hmem
  have hsplit : (absolute names).splitOn '/' = [] :: names :=
    List.splitOn_intercalate '/' (fun component hmem => (hall component hmem).separator) (by simp)
  have hcomponents : components dots (absolute names) = [] :: names := by
    rw [components, hsplit]
    split_ifs with hdots
    · exact removeDots_eq_self fun component hmem => (hall component hmem).name hdots
    · rfl
  rw [target, path_eq_self hpath, query?_eq_none hpath, fragment?_eq_none hpath, hcomponents,
    Target.ofNames, List.drop_succ_cons, List.drop_zero]
  congr 1
  exact List.map_congr_left fun name hname => unquote_eq_bytes (hplain name hname).escape

theorem not_mem_of_mem_splitOn {text component : List Char}
    (hmem : component ∈ text.splitOn '/') : '/' ∉ component := by
  rw [List.splitOn_eq_splitOnP] at hmem
  intro hslash
  have hother := Text.eq_false_of_mem_splitOnP hmem '/' hslash
  simp at hother

theorem eq_nil_of_bytes_length {text : List Char} (hlength : (bytes text).length = 0) :
    text = [] := by
  cases text with
  | nil => rfl
  | cons head tail =>
      have hpos := length_utf8EncodeChar_pos head
      rw [bytes_cons, List.length_append] at hlength
      omega

theorem mem_absolute {name : List Char} {character : Char} (hname : name ∈ names)
    (hmem : character ∈ name) : character ∈ absolute names := by
  have hsplit : ∀ parts : List (List Char), name ∈ parts →
      character ∈ ['/'].intercalate parts := by
    intro parts
    induction parts with
    | nil => simp
    | cons head tail ih =>
        intro hparts
        cases tail with
        | nil =>
            rw [List.mem_singleton] at hparts
            rwa [List.intercalate_singleton, ← hparts]
        | cons next others =>
            rw [List.intercalate_cons_cons]
            rcases List.mem_cons.mp hparts with rfl | hparts
            · simp [hmem]
            · exact List.mem_append_right _ (ih hparts)
  exact hsplit _ (List.mem_cons_of_mem _ hname)

/-- The components of a path are no larger than the path, and smaller if dots are resolved in
it. -/
theorem size_components (dots : Bool) (path : List Char) :
    size (components dots path) ≤ (bytes path).length + 1 ∧
      (size (components dots path) = (bytes path).length + 1 →
        components dots path = path.splitOn '/' ∧
          (dots = true → ∀ component ∈ path.splitOn '/', isDot component = false)) := by
  have hsize := size_eq_length_intercalate (List.splitOn_ne_nil '/' path)
  rw [List.intercalate_splitOn] at hsize
  cases dots with
  | false => exact ⟨hsize.le, fun _ => ⟨rfl, fun hdots => absurd hdots (by decide)⟩⟩
  | true =>
      obtain ⟨hle, hlt⟩ := size_removeDots (path.splitOn '/')
      rw [← hsize]
      refine ⟨hle, fun hequal => ?_⟩
      have hnames : ∀ component ∈ path.splitOn '/', isDot component = false := by
        intro component hmem
        by_contra hdot
        rw [Bool.not_eq_false] at hdot
        exact absurd hequal (hlt ⟨component, hmem, hdot⟩).ne
      exact ⟨removeDots_eq_self hnames, fun _ => hnames⟩

/-- Names that are read back are plain: every step of the reading would have lost a byte. -/
theorem plain_of_target (htarget : target dots (absolute names) = Target.ofNames names) :
    ∀ name ∈ names, Plain dots name := by
  have hsegments : ((components dots (path (absolute names))).drop 1).map unquote =
      names.map bytes := congrArg Target.segments htarget
  obtain ⟨hcomponents, hsplit⟩ := size_components dots (path (absolute names))
  have hwhole : size ([] :: names) = (bytes (absolute names)).length + 1 :=
    size_eq_length_intercalate (by simp)
  obtain ⟨rest, hrest⟩ : ∃ rest, absolute names = path (absolute names) ++ rest :=
    ⟨_, List.takeWhile_append_dropWhile.symm⟩
  have hlength : (bytes (absolute names)).length =
      (bytes (path (absolute names))).length + (bytes rest).length := by
    conv_lhs => rw [hrest]
    rw [bytes_append, List.length_append]
  cases hparts : components dots (path (absolute names)) with
  | nil =>
      rw [hparts] at hsegments
      intro name hname
      rw [List.drop_nil, List.map_nil, eq_comm, List.map_eq_nil_iff] at hsegments
      simp [hsegments] at hname
  | cons first others =>
      rw [hparts, List.drop_succ_cons, List.drop_zero] at hsegments
      obtain ⟨hunquote, hescapes⟩ := weight_map_unquote (first :: others)
      have hfirst := (length_unquote_le first).1
      rw [List.map_cons, weight_cons, hsegments] at hunquote hescapes
      rw [hparts] at hcomponents hsplit
      have hnames : size ([] :: names) = 1 + weight (names.map bytes) := by
        rw [size_cons, size]
        rfl
      -- the bytes that were put together are all accounted for by the names
      have hnothing : rest = [] := eq_nil_of_bytes_length (by omega)
      have hpath : path (absolute names) = absolute names := by
        conv_rhs => rw [hrest]
        rw [hnothing, List.append_nil]
      obtain ⟨hwithout, hdots⟩ := hsplit (by omega)
      have hplain : ∀ component ∈ first :: others, hasEscape component = false := by
        intro component hmem
        by_contra hescape
        rw [Bool.not_eq_false] at hescape
        have := hescapes ⟨component, hmem, hescape⟩
        omega
      have hothers : others = names := by
        have hmap : others.map bytes = names.map bytes := by
          rw [← hsegments]
          exact List.map_congr_left fun component hmem =>
            (unquote_eq_bytes (hplain component (List.mem_cons_of_mem _ hmem))).symm
        exact List.map_injective_iff.mpr (fun _ _ => bytes_injective) hmap
      intro name hname
      have hmem : name ∈ first :: others := List.mem_cons_of_mem _ (hothers ▸ hname)
      have hmember : name ∈ (path (absolute names)).splitOn '/' := hwithout ▸ hmem
      refine ⟨not_mem_of_mem_splitOn hmember, fun character hcharacter => ?_, hplain name hmem,
        fun hset => hdots hset name hmember⟩
      have hall := List.takeWhile_eq_self_iff.mp hpath
      simpa using hall character (mem_absolute hname hcharacter)

/-- What a path of names addresses is these names, and nothing else, exactly when they are
plain. -/
theorem target_absolute_iff :
    target dots (absolute names) = Target.ofNames names ↔ ∀ name ∈ names, Plain dots name :=
  ⟨plain_of_target, target_absolute⟩

theorem Target.segments_ofNames_injective {first second : List (List Char)}
    (hnames : (Target.ofNames first).segments = (Target.ofNames second).segments) :
    first = second :=
  List.map_injective_iff.mpr (fun _ _ => bytes_injective) hnames

end Reading

end Uri
