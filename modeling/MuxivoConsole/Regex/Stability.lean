/-
Texts that a substitution leaves as they are: every match, wherever it may begin, is replaced by
itself.
-/
import MuxivoConsole.Regex.Backtracking

namespace Regex

variable {α : Type}

/-- What holds at every place of a text, for the character before it and the text from there on. -/
def Everywhere (holds : Option α → List α → Prop) (previous : Option α) (codes : List α) : Prop :=
  ∀ taken left, taken ++ left = codes → holds (lastOr previous taken) left

section Places

variable {holds : Option α → List α → Prop} {previous : Option α} {code : α}
  {first rest codes : List α}

theorem everywhere_nil : Everywhere holds previous [] ↔ holds previous [] := by
  constructor
  · exact fun hholds => hholds [] [] rfl
  · intro hholds taken left htext
    obtain ⟨rfl, rfl⟩ := List.append_eq_nil_iff.mp htext
    exact hholds

theorem everywhere_cons : Everywhere holds previous (code :: rest) ↔
    holds previous (code :: rest) ∧ Everywhere holds (some code) rest := by
  constructor
  · intro hholds
    refine ⟨hholds [] _ rfl, fun taken left htext => ?_⟩
    have hlater := hholds (code :: taken) left (by rw [List.cons_append, htext])
    rwa [lastOr_cons] at hlater
  · rintro ⟨hhere, hlater⟩ taken left htext
    cases taken with
    | nil =>
        rw [List.nil_append] at htext
        rwa [htext]
    | cons head taken =>
        obtain ⟨rfl, hrest⟩ := List.cons.inj htext
        rw [lastOr_cons]
        exact hlater taken left hrest

/-- The places of a first part, with the whole text after them, and those of the second part. -/
theorem everywhere_append : Everywhere holds previous (first ++ rest) ↔
    (∀ taken code left, taken ++ code :: left = first →
      holds (lastOr previous taken) (code :: left ++ rest)) ∧
    Everywhere holds (lastOr previous first) rest := by
  induction first generalizing previous with
  | nil => simp
  | cons head first ih =>
      rw [List.cons_append, everywhere_cons, ih, lastOr_cons]
      constructor
      · rintro ⟨hhere, hfirst, hrest⟩
        refine ⟨fun taken code left htext => ?_, hrest⟩
        cases taken with
        | nil =>
            obtain ⟨rfl, rfl⟩ := List.cons.inj htext
            exact hhere
        | cons other taken =>
            obtain ⟨rfl, hothers⟩ := List.cons.inj htext
            rw [lastOr_cons]
            exact hfirst taken code left hothers
      · rintro ⟨hfirst, hrest⟩
        refine ⟨hfirst [] head first rfl, fun taken code left htext => ?_, hrest⟩
        have hplace := hfirst (head :: taken) code left (by rw [List.cons_append, htext])
        rwa [lastOr_cons] at hplace

end Places

section Stability

variable {groups : List (Pattern α)} {replace : List (List α) → List α} {previous : Option α}
  {codes : List α}

/-- A match at a place is replaced by itself. -/
def SelfReplaced (groups : List (Pattern α)) (replace : List (List α) → List α)
    (previous : Option α) (codes : List α) : Prop :=
  ∀ texts left, match? groups previous codes = some (texts, left) → replace texts = texts.flatten

theorem selfReplaced_of_none (hnone : match? groups previous codes = none) :
    SelfReplaced groups replace previous codes := by
  intro texts left hmatch
  rw [hnone] at hmatch
  cases hmatch

/-- Where every match is replaced by itself, nothing changes. -/
theorem substituteFrom_eq_self
    (htaken : ∀ previous codes texts left, match? groups previous codes = some (texts, left) →
      texts.flatten ≠ [])
    (hstable : Everywhere (SelfReplaced groups replace) previous codes) :
    substituteFrom groups replace 0 previous codes = codes := by
  revert hstable
  refine substituteFrom_induction (motive := fun previous codes result =>
    Everywhere (SelfReplaced groups replace) previous codes → result = codes) htaken ?_ ?_ ?_
      previous codes
  · exact fun _ _ => rfl
  · intro previous code rest _ ih hstable
    rw [ih (everywhere_cons.mp hstable).2]
  · intro previous codes texts left hmatch ih hstable
    have htext := append_of_match? hmatch
    have hself := hstable [] codes rfl texts left hmatch
    rw [← htext] at hstable
    rw [ih (everywhere_append.mp hstable).2, hself, htext]

/-- Where no match begins, the text is kept. -/
theorem substituteFrom_keep {first rest : List α}
    (hnone : ∀ taken code left, taken ++ code :: left = first →
      match? groups (lastOr previous taken) (code :: left ++ rest) = none) :
    substituteFrom groups replace 0 previous (first ++ rest) =
      first ++ substituteFrom groups replace 0 (lastOr previous first) rest := by
  induction first generalizing previous with
  | nil => rfl
  | cons code first ih =>
      have hhere : match? groups previous (code :: (first ++ rest)) = none :=
        hnone [] code first rfl
      rw [List.cons_append, substituteFrom_none hhere, lastOr_cons, ih, List.cons_append]
      intro taken other left htext
      have hlater := hnone (code :: taken) other left (by rw [List.cons_append, htext])
      rwa [lastOr_cons] at hlater

/-- What holds of all characters of a text and of all replacements holds of the result. -/
theorem forall_mem_substituteFrom {holds : α → Prop}
    (htaken : ∀ previous codes texts left, match? groups previous codes = some (texts, left) →
      texts.flatten ≠ [])
    (hreplace : ∀ texts, (∀ code ∈ texts.flatten, holds code) → ∀ code ∈ replace texts, holds code)
    (hcodes : ∀ code ∈ codes, holds code) :
    ∀ code ∈ substituteFrom groups replace 0 previous codes, holds code := by
  revert hcodes
  refine substituteFrom_induction (motive := fun _ codes result =>
    (∀ code ∈ codes, holds code) → ∀ code ∈ result, holds code) htaken ?_ ?_ ?_ previous codes
  · exact fun _ hcodes => hcodes
  · intro previous code rest _ ih hcodes other hother
    rcases List.mem_cons.mp hother with rfl | hother
    · exact hcodes other List.mem_cons_self
    · exact ih (fun item hitem => hcodes item (List.mem_cons_of_mem _ hitem)) other hother
  · intro previous codes texts left hmatch ih hcodes other hother
    rw [← append_of_match? hmatch] at hcodes
    rcases List.mem_append.mp hother with hother | hother
    · exact hreplace texts (fun item hitem => hcodes item (List.mem_append_left _ hitem)) other
        hother
    · exact ih (fun item hitem => hcodes item (List.mem_append_right _ hitem)) other hother

/-- The character before a text matters for a match at its first place only. -/
theorem substituteFrom_congr {previous' : Option α}
    (hmatch : match? groups previous codes = match? groups previous' codes) :
    substituteFrom groups replace 0 previous codes =
      substituteFrom groups replace 0 previous' codes := by
  cases codes with
  | nil => rfl
  | cons code rest => rw [substituteFrom, substituteFrom, hmatch]

end Stability

end Regex
