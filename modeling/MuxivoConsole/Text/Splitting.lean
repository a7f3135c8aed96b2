/-
Lists that are joined with a separator, split again, trimmed at both ends, and freed of
repetitions.
-/
import Mathlib.Data.List.DropRight
import Mathlib.Data.List.Nodup

namespace Text

variable {α : Type} {isSeparator isBlank : α → Bool}

/-- The parts of a split list hold no separator. -/
theorem eq_false_of_mem_splitOnP {items part : List α} (hpart : part ∈ items.splitOnP isSeparator) :
    ∀ item ∈ part, isSeparator item = false := by
  induction items generalizing part with
  | nil =>
      rw [List.splitOnP_nil, List.mem_singleton] at hpart
      simp [hpart]
  | cons head tail ih =>
      rw [List.splitOnP_cons_eq_if_modifyHead] at hpart
      split_ifs at hpart with hseparator
      · rcases List.mem_cons.mp hpart with rfl | hpart
        · simp
        · exact ih hpart
      · cases hsplit : tail.splitOnP isSeparator with
        | nil => exact absurd hsplit (List.splitOnP_ne_nil _ _)
        | cons first others =>
            rw [hsplit, List.modifyHead_cons] at hpart
            rcases List.mem_cons.mp hpart with rfl | hpart
            · intro item hitem
              rcases List.mem_cons.mp hitem with rfl | hitem
              · simpa using hseparator
              · exact ih (by simp [hsplit]) item hitem
            · exact ih (by simp [hsplit, hpart])

/-- Parts without separators that are joined with one are split again. -/
theorem splitOnP_intercalate {separator : α} {parts : List (List α)}
    (hseparator : isSeparator separator = true) (hne : parts ≠ [])
    (hparts : ∀ part ∈ parts, ∀ item ∈ part, isSeparator item = false) :
    ([separator].intercalate parts).splitOnP isSeparator = parts := by
  induction parts with
  | nil => exact absurd rfl hne
  | cons head tail ih =>
      have hhead := hparts head List.mem_cons_self
      cases tail with
      | nil => rw [List.intercalate_singleton, List.splitOnP_eq_singleton hhead]
      | cons next others =>
          rw [List.intercalate_cons_cons, List.append_assoc, List.singleton_append,
            List.splitOnP_append_cons_of_forall_mem hhead separator hseparator,
            ih (by simp) fun part hpart => hparts part (List.mem_cons_of_mem _ hpart)]

/-- Two texts that end before their first mark are the same if they go on alike. -/
theorem append_mark_inj {marks : α → Prop} {first second rest other : List α} {mark mark' : α}
    (hfirst : ∀ item ∈ first, ¬ marks item) (hsecond : ∀ item ∈ second, ¬ marks item)
    (hmark : marks mark) (hmark' : marks mark')
    (happend : first ++ mark :: rest = second ++ mark' :: other) :
    first = second ∧ mark = mark' ∧ rest = other := by
  induction first generalizing second with
  | nil =>
      cases second with
      | nil =>
          obtain ⟨hsame, hrest⟩ := List.cons.inj happend
          exact ⟨rfl, hsame, hrest⟩
      | cons item second =>
          obtain ⟨rfl, -⟩ := List.cons.inj happend
          exact absurd hmark (hsecond mark List.mem_cons_self)
  | cons item first ih =>
      cases second with
      | nil =>
          obtain ⟨rfl, -⟩ := List.cons.inj happend
          exact absurd hmark' (hfirst item List.mem_cons_self)
      | cons item' second =>
          obtain ⟨rfl, htail⟩ := List.cons.inj happend
          obtain ⟨rfl, hsame, hrest⟩ := ih (fun item hitem => hfirst item (by simp [hitem]))
            (fun item hitem => hsecond item (by simp [hitem])) htail
          exact ⟨rfl, hsame, hrest⟩

theorem intercalate_append_singleton {separator last : List α} {parts : List (List α)}
    (hne : parts ≠ []) : separator.intercalate (parts ++ [last]) =
      separator.intercalate parts ++ separator ++ last := by
  induction parts with
  | nil => exact absurd rfl hne
  | cons head tail ih =>
      cases tail with
      | nil => simp
      | cons next others =>
          rw [List.cons_append, List.intercalate_cons_of_ne_nil (by simp), ih (by simp),
            List.intercalate_cons_cons]
          simp only [List.append_assoc]

/-- Without what is blank at both ends. -/
def trim (isBlank : α → Bool) (items : List α) : List α :=
  (items.dropWhile isBlank).rdropWhile isBlank

theorem trim_subset (items : List α) : trim isBlank items ⊆ items := fun _ hitem =>
  (List.dropWhile_suffix _).subset ((List.rdropWhile_prefix _ _).subset hitem)

/-- A trimmed list stays as it is. -/
theorem trim_trim (items : List α) : trim isBlank (trim isBlank items) = trim isBlank items := by
  have hleft : (trim isBlank items).dropWhile isBlank = trim isBlank items := by
    rw [List.dropWhile_eq_self_iff]
    intro hpositive
    have hprefix : trim isBlank items <+: items.dropWhile isBlank := List.rdropWhile_prefix _ _
    have hlonger : 0 < (items.dropWhile isBlank).length := hpositive.trans_le hprefix.length_le
    have hhead : (trim isBlank items)[0] = (items.dropWhile isBlank)[0] :=
      hprefix.getElem hpositive
    rw [hhead]
    exact List.dropWhile_get_zero_not isBlank items hlonger
  rw [trim, hleft]
  exact List.rdropWhile_idempotent _ _

variable [DecidableEq α]

/-- The first occurrences of what has not been seen. -/
def unseen (seen : List α) : List α → List α
  | [] => []
  | item :: rest => if item ∈ seen then unseen seen rest else item :: unseen (item :: seen) rest

/-- `[...new Set(items)]` -/
def unique (items : List α) : List α :=
  unseen [] items

theorem not_mem_of_mem_unseen {seen items : List α} {item : α} (hitem : item ∈ unseen seen items) :
    item ∉ seen ∧ item ∈ items := by
  induction items generalizing seen with
  | nil => simp [unseen] at hitem
  | cons head tail ih =>
      rw [unseen] at hitem
      split_ifs at hitem with hseen
      · exact ⟨(ih hitem).1, List.mem_cons_of_mem _ (ih hitem).2⟩
      · rcases List.mem_cons.mp hitem with rfl | hitem
        · exact ⟨hseen, List.mem_cons_self⟩
        · obtain ⟨hnew, hmem⟩ := ih hitem
          exact ⟨fun hold => hnew (List.mem_cons_of_mem _ hold), List.mem_cons_of_mem _ hmem⟩

theorem nodup_unseen (seen items : List α) : (unseen seen items).Nodup := by
  induction items generalizing seen with
  | nil => exact List.nodup_nil
  | cons head tail ih =>
      rw [unseen]
      split_ifs with hseen
      · exact ih seen
      · exact List.nodup_cons.mpr
          ⟨fun hmem => (not_mem_of_mem_unseen hmem).1 List.mem_cons_self, ih (head :: seen)⟩

theorem unseen_eq_self {seen items : List α} (hnodup : items.Nodup)
    (hnew : ∀ item ∈ items, item ∉ seen) : unseen seen items = items := by
  induction items generalizing seen with
  | nil => rfl
  | cons head tail ih =>
      obtain ⟨hhead, htail⟩ := List.nodup_cons.mp hnodup
      rw [unseen, if_neg (hnew head List.mem_cons_self), ih htail]
      intro item hitem hseen
      rcases List.mem_cons.mp hseen with rfl | hseen
      · exact hhead hitem
      · exact hnew item (List.mem_cons_of_mem _ hitem) hseen

theorem nodup_unique (items : List α) : (unique items).Nodup := nodup_unseen [] items

theorem mem_of_mem_unique {items : List α} {item : α} (hitem : item ∈ unique items) :
    item ∈ items := (not_mem_of_mem_unseen hitem).2

theorem unique_eq_self {items : List α} (hnodup : items.Nodup) : unique items = items :=
  unseen_eq_self hnodup fun _ _ => List.not_mem_nil

end Text
