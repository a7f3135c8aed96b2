/-
Saving a policy that has been loaded and not edited: the two lists that pass through the text fields
are brought into the editor's form, and everything else stays as it is.
-/
import MuxivoConsole.Web.PolicyEditor

namespace MuxivoConsole.Control

open Text

/-- A word that a line of the editor gives back. -/
structure EditableWord (word : Str) : Prop where
  nonempty : word ≠ []
  trimmed : trim isScriptSpace word = word
  unseparated : ∀ code ∈ word, isPolicySeparator code = false

section Lists

variable {words : List Str} {value : Str}

/-- What the editor makes of a text is a list of editable words without repetitions. -/
theorem splitPolicyValues_spec :
    (∀ word ∈ splitPolicyValues value, EditableWord word) ∧ (splitPolicyValues value).Nodup := by
  refine ⟨fun word hword => ?_, nodup_unique _⟩
  obtain ⟨hword, hne⟩ := List.mem_filter.mp (mem_of_mem_unique hword)
  obtain ⟨part, hpart, rfl⟩ := List.mem_map.mp hword
  exact ⟨by simpa using hne, trim_trim part, fun code hcode =>
    eq_false_of_mem_splitOnP hpart code (trim_subset part hcode)⟩

/-- Editable words without repetitions are given back. -/
theorem splitPolicyValues_joinPolicyValues (hwords : ∀ word ∈ words, EditableWord word)
    (hnodup : words.Nodup) : splitPolicyValues (joinPolicyValues words) = words := by
  by_cases hnil : words = []
  · rw [hnil]
    decide
  · have hsplit : (joinPolicyValues words).splitOnP isPolicySeparator = words :=
      splitOnP_intercalate rfl hnil fun word hword => (hwords word hword).unseparated
    have htrim : words.map (trim isScriptSpace) = words := by
      conv_rhs => rw [← List.map_id' words]
      exact List.map_congr_left fun word hword => (hwords word hword).trimmed
    have hfilter : words.filter (· ≠ []) = words := by
      rw [List.filter_eq_self]
      intro word hword
      simpa using (hwords word hword).nonempty
    rw [splitPolicyValues, hsplit, htrim, hfilter, unique_eq_self hnodup]

/-- A list comes back from the editor as it is exactly if its words are editable and none occurs
twice. -/
theorem splitPolicyValues_eq_self_iff :
    splitPolicyValues (joinPolicyValues words) = words ↔
      (∀ word ∈ words, EditableWord word) ∧ words.Nodup := by
  constructor
  · intro hequal
    rw [← hequal]
    exact splitPolicyValues_spec
  · rintro ⟨hwords, hnodup⟩
    exact splitPolicyValues_joinPolicyValues hwords hnodup

end Lists

/-- Loading a policy and saving it without an edit sends the policy with its two lists in the
editor's form; this is the policy itself exactly if the words of both lists are editable and no
list repeats one. -/
theorem unedited_save (editor : PolicyEditor) (state : PolicyStateAnswer)
    (hwrites : editor.selectedPath.isSome = true ∧ editor.canRunSelectedDiscordWrites = true) :
    ∃ body, (editor.load (some state)).saved = some body ∧
      body = { state.policy with
        blacklistWords := splitPolicyValues (joinPolicyValues state.policy.blacklistWords)
        allowedDomains := splitPolicyValues (joinPolicyValues state.policy.allowedDomains) } ∧
      (body = state.policy ↔
        ((∀ word ∈ state.policy.blacklistWords, EditableWord word) ∧
          state.policy.blacklistWords.Nodup) ∧
        (∀ word ∈ state.policy.allowedDomains, EditableWord word) ∧
          state.policy.allowedDomains.Nodup) := by
  obtain ⟨hpath, hwrites⟩ := hwrites
  refine ⟨_, ?_, rfl, ?_⟩
  · have hopen : (editor.selectedPath.isNone || !editor.canRunSelectedDiscordWrites) = false := by
      rw [hwrites, Option.isNone_eq_false_iff.mpr hpath]
      rfl
    simp only [PolicyEditor.load, PolicyEditor.saved, hopen, Bool.false_eq_true, if_false,
      Option.map_some]
  · rw [← splitPolicyValues_eq_self_iff, ← splitPolicyValues_eq_self_iff]
    constructor
    · intro hequal
      exact ⟨congrArg AiModerationPolicyUpdateFields.blacklistWords hequal,
        congrArg AiModerationPolicyUpdateFields.allowedDomains hequal⟩
    · rintro ⟨hwords, hdomains⟩
      rw [hwords, hdomains]

namespace PolicyEditingExample

def editor : PolicyEditor where
  selectedPath := some (codesOf "/api/v1/organizations/1/platform-connections/2")
  canRunSelectedDiscordWrites := true

/-- A policy with a word that holds a comma. -/
def state : PolicyStateAnswer where
  policy := { blacklistWords := [codesOf "a,b"] }
  isDefaultPolicy := false

end PolicyEditingExample

open PolicyEditingExample in
theorem unedited_save_spam :
    (editor.load (some ⟨{ blacklistWords := [codesOf "spam"] }, true⟩)).saved =
      some { blacklistWords := [codesOf "spam"] } := by
  obtain ⟨body, hsaved, _, hsame⟩ :=
    unedited_save editor ⟨{ blacklistWords := [codesOf "spam"] }, true⟩ (by decide)
  have hword : EditableWord (codesOf "spam") := ⟨by decide, by decide, by decide⟩
  rw [hsaved, hsame.mpr ⟨⟨by simpa using hword, by simp⟩, by simp, by simp⟩]

open PolicyEditingExample in
/-- A word that holds a comma is saved as two words. -/
theorem comma_splits_word :
    state.policy.Accepts ⟨false⟩ ∧
      ((editor.load (some state)).saved.map fun body => body.blacklistWords) =
        some [codesOf "a", codesOf "b"] ∧
      state.policy.blacklistWords = [codesOf "a,b"] := by
  refine ⟨by decide +kernel, by decide, rfl⟩

end MuxivoConsole.Control
