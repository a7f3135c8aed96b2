/-
Rows under uniqueness and foreign-key constraints.  A table is the list of its
rows; an update rewrites the rows that its condition selects, and a reference
is a column whose values occur as keys of the parent table.
-/
import Mathlib.Data.List.Nodup
import Mathlib.Data.List.Pairwise

namespace Relational

variable {ρ κ : Type}

/-- No two rows share a key. -/
def UniqueOn (key : ρ → κ) (rows : List ρ) : Prop :=
  (rows.map key).Nodup

instance [DecidableEq κ] (key : ρ → κ) (rows : List ρ) : Decidable (UniqueOn key rows) :=
  inferInstanceAs (Decidable (rows.map key).Nodup)

/-- Every child row names an existing parent. -/
def Refers {χ : Type} (column : χ → κ) (children : List χ) (key : ρ → κ)
    (parents : List ρ) : Prop :=
  ∀ child ∈ children, column child ∈ parents.map key

instance {χ : Type} [DecidableEq κ] (column : χ → κ) (children : List χ) (key : ρ → κ)
    (parents : List ρ) : Decidable (Refers column children key parents) :=
  inferInstanceAs (Decidable (∀ child ∈ children, column child ∈ parents.map key))

/-- Rewrite the rows that satisfy a condition. -/
def update (condition : ρ → Bool) (change : ρ → ρ) (rows : List ρ) : List ρ :=
  rows.map fun row => if condition row then change row else row

/-- The number of rows a statement with this condition touches. -/
def rowcount (condition : ρ → Bool) (rows : List ρ) : Nat :=
  rows.countP condition

section Lemmas

variable {key : ρ → κ} {rows : List ρ} {condition : ρ → Bool} {change : ρ → ρ}

@[simp] theorem uniqueOn_nil : UniqueOn key [] :=
  List.nodup_nil

theorem UniqueOn.eq (hunique : UniqueOn key rows) {first second : ρ}
    (hfirst : first ∈ rows) (hsecond : second ∈ rows) (hkey : key first = key second) :
    first = second :=
  List.inj_on_of_nodup_map hunique hfirst hsecond hkey

/-- A row added to a table under a uniqueness constraint has a new key. -/
theorem UniqueOn.fresh {row : ρ} (hunique : UniqueOn key (rows ++ [row])) {other : ρ}
    (hother : other ∈ rows) : key other ≠ key row := by
  simp only [UniqueOn, List.map_append, List.map_singleton, List.nodup_append] at hunique
  exact hunique.2.2 _ (List.mem_map_of_mem hother) _ List.mem_cons_self

/-- A row with a new key keeps a table unique. -/
theorem uniqueOn_snoc {row : ρ} :
    UniqueOn key (rows ++ [row]) ↔ UniqueOn key rows ∧ ∀ other ∈ rows, key other ≠ key row := by
  simp only [UniqueOn, List.map_append, List.map_singleton, List.nodup_append,
    List.nodup_singleton, true_and, List.mem_singleton, forall_eq, List.mem_map,
    forall_exists_index, and_imp, forall_apply_eq_imp_iff₂]

/-- Deleting rows keeps a table unique. -/
theorem UniqueOn.sublist {kept : List ρ} (hunique : UniqueOn key rows)
    (hkept : kept.Sublist rows) : UniqueOn key kept :=
  List.Nodup.sublist (hkept.map key) hunique

theorem Refers.exists {χ : Type} {column : χ → κ} {children : List χ} {parents : List ρ}
    (hrefers : Refers column children key parents) {child : χ} (hchild : child ∈ children) :
    ∃ parent ∈ parents, key parent = column child :=
  List.mem_map.mp (hrefers child hchild)

theorem mem_update {row : ρ} :
    row ∈ update condition change rows ↔
      (row ∈ rows ∧ condition row = false) ∨
        ∃ old ∈ rows, condition old = true ∧ row = change old := by
  simp only [update, List.mem_map]
  constructor
  · rintro ⟨old, hold, rfl⟩
    by_cases hcondition : condition old = true
    · exact Or.inr ⟨old, hold, hcondition, by simp [hcondition]⟩
    · simp only [Bool.not_eq_true] at hcondition
      exact Or.inl (by simp [hcondition, hold])
  · rintro (⟨hrow, hcondition⟩ | ⟨old, hold, hcondition, rfl⟩)
    · exact ⟨row, hrow, by simp [hcondition]⟩
    · exact ⟨old, hold, by simp [hcondition]⟩

/-- The keys of a table survive an update that leaves the key column alone. -/
theorem map_update {value : ρ → κ} (hchange : ∀ row, value (change row) = value row) :
    (update condition change rows).map value = rows.map value := by
  simp only [update, List.map_map]
  refine List.map_congr_left fun row _ => ?_
  simp only [Function.comp]
  split
  · exact hchange row
  · rfl

theorem exists_of_rowcount_eq_one (hcount : rowcount condition rows = 1) :
    ∃ row ∈ rows, condition row = true := by
  have hpos : 0 < rows.countP condition := by
    rw [rowcount] at hcount
    omega
  exact List.countP_pos_iff.mp hpos

/-- A statement that touches no row leaves the table as it is. -/
theorem update_eq_self (hcount : rowcount condition rows = 0) :
    update condition change rows = rows := by
  have hnone : ∀ row ∈ rows, ¬ condition row = true := List.countP_eq_zero.mp hcount
  have hsame : ∀ row ∈ rows, (if condition row then change row else row) = row :=
    fun row hrow => if_neg (hnone row hrow)
  exact (List.map_congr_left hsame).trans (List.map_id'' (fun _ => rfl) rows)

/-- A statement leaves the rows alone that it neither selects nor makes. -/
theorem filter_update {selected : ρ → Bool}
    (hother : ∀ row ∈ rows, condition row = true →
      selected row = false ∧ selected (change row) = false) :
    (update condition change rows).filter selected = rows.filter selected := by
  induction rows with
  | nil => rfl
  | cons row rows ih =>
      have hrest := ih fun other hmem => hother other (List.mem_cons_of_mem _ hmem)
      rw [update] at hrest
      by_cases hcondition : condition row = true
      · obtain ⟨hbefore, hafter⟩ := hother row List.mem_cons_self hcondition
        simp [update, hcondition, hbefore, hafter, hrest]
      · simp only [Bool.not_eq_true] at hcondition
        simp [update, hcondition, List.filter_cons, hrest]

/-- A new row of another kind does not show. -/
theorem filter_snoc {selected : ρ → Bool} {row : ρ} (hother : selected row = false) :
    (rows ++ [row]).filter selected = rows.filter selected := by
  simp [hother]

/-- A statement that makes rows of a kind into rows of another kind takes them off the
count of the first. -/
theorem rowcount_update_add {selected : ρ → Bool}
    (hselected : ∀ row, condition row = true → selected row = true)
    (hchange : ∀ row, condition row = true → selected (change row) = false) :
    rowcount selected (update condition change rows) + rowcount condition rows =
      rowcount selected rows := by
  induction rows with
  | nil => rfl
  | cons row rows ih =>
      simp only [rowcount, update, List.map_cons, List.countP_cons] at ih ⊢
      by_cases hcondition : condition row = true
      · simp only [hcondition, ↓reduceIte, hselected row hcondition, hchange row hcondition,
          Bool.false_eq_true]
        omega
      · simp only [hcondition, Bool.false_eq_true, ↓reduceIte]
        omega

/-- A statement that makes no new rows of a kind does not raise their count. -/
theorem rowcount_update_le {selected : ρ → Bool}
    (hchange : ∀ row, selected (change row) = true → selected row = true) :
    rowcount selected (update condition change rows) ≤ rowcount selected rows := by
  induction rows with
  | nil => exact Nat.le_refl 0
  | cons row rows ih =>
      simp only [rowcount, update, List.map_cons, List.countP_cons] at ih ⊢
      have hrow : (if selected (if condition row = true then change row else row) = true
          then 1 else 0) ≤ if selected row = true then 1 else 0 := by
        by_cases hcondition : condition row = true
        · have hkept := hchange row
          by_cases hselected : selected (change row) = true
          · simp [hcondition, hselected, hkept hselected]
          · simp [hcondition, hselected]
        · simp [hcondition]
      omega

/-- A condition that implies a value of a unique key selects one row at most. -/
theorem rowcount_le_one (hunique : UniqueOn key rows) {value : κ}
    (hkey : ∀ row, condition row = true → key row = value) : rowcount condition rows ≤ 1 := by
  induction rows with
  | nil => exact Nat.zero_le 1
  | cons row rows ih =>
      obtain ⟨hhead, htail⟩ := List.nodup_cons.mp hunique
      have hrest := ih htail
      by_cases hcondition : condition row = true
      · have hnone : rowcount condition rows = 0 := by
          apply List.countP_eq_zero.mpr
          intro other hother hselected
          apply hhead
          rw [hkey row hcondition, ← hkey other hselected]
          exact List.mem_map_of_mem hother
        simp only [rowcount] at hnone
        simp [rowcount, hcondition, hnone]
      · simpa [rowcount, List.countP_cons, hcondition] using hrest

/-- A condition on a unique key selects the one row it names. -/
theorem filter_eq_singleton (hunique : UniqueOn key rows) {row : ρ} (hrow : row ∈ rows)
    (hcondition : condition row = true)
    (honly : ∀ other ∈ rows, condition other = true → key other = key row) :
    rows.filter condition = [row] := by
  induction rows with
  | nil => cases hrow
  | cons head tail ih =>
      have htail : UniqueOn key tail := (List.nodup_cons.mp hunique).2
      have hhead : key head ∉ tail.map key := (List.nodup_cons.mp hunique).1
      rcases List.mem_cons.mp hrow with rfl | hmem
      · have hnone : tail.filter condition = [] := by
          rw [List.filter_eq_nil_iff]
          intro other hother htrue
          have hkey := honly other (List.mem_cons_of_mem _ hother) htrue
          exact hhead (hkey ▸ List.mem_map_of_mem hother)
        rw [List.filter_cons_of_pos hcondition, hnone]
      · have hfalse : ¬ condition head = true := by
          intro htrue
          have hkey := honly head List.mem_cons_self htrue
          exact hhead (hkey ▸ List.mem_map_of_mem hmem)
        rw [List.filter_cons_of_neg hfalse]
        exact ih htail hmem fun other hother => honly other (List.mem_cons_of_mem _ hother)

/-- Looking a row up by a unique key finds it. -/
theorem find?_eq_some (hunique : UniqueOn key rows) {row : ρ} (hrow : row ∈ rows)
    (hcondition : condition row = true)
    (honly : ∀ other ∈ rows, condition other = true → key other = key row) :
    rows.find? condition = some row := by
  have hsome : (rows.find? condition).isSome := by
    rw [List.find?_isSome]
    exact ⟨row, hrow, hcondition⟩
  obtain ⟨found, hfound⟩ := Option.isSome_iff_exists.mp hsome
  have hkey := honly found (List.mem_of_find?_eq_some hfound) (List.find?_some hfound)
  rw [hfound, hunique.eq (List.mem_of_find?_eq_some hfound) hrow hkey]

end Lemmas

section Semijoin

variable {χ : Type} [DecidableEq κ] {column : χ → κ} {children added : List χ}
variable {key : ρ → κ} {parents : List ρ}

/-- The child rows of these parents. -/
def semijoin (column : χ → κ) (children : List χ) (key : ρ → κ) (parents : List ρ) : List χ :=
  children.filter fun child => column child ∈ parents.map key

/-- New child rows of other parents do not show. -/
theorem semijoin_append (hother : ∀ child ∈ added, column child ∉ parents.map key) :
    semijoin column (children ++ added) key parents = semijoin column children key parents := by
  have hnone : added.filter (fun child => column child ∈ parents.map key) = [] := by
    rw [List.filter_eq_nil_iff]
    intro child hchild
    simpa using hother child hchild
  rw [semijoin, List.filter_append, hnone, List.append_nil, semijoin]

/-- Nor does it when the child rows of another parent are deleted. -/
theorem semijoin_delete {id : κ} (hother : id ∉ parents.map key) :
    semijoin column (children.filter (column · != id)) key parents =
      semijoin column children key parents := by
  rw [semijoin, semijoin, List.filter_filter]
  apply List.filter_congr
  intro child _
  by_cases hchild : column child ∈ parents.map key
  · have hne : column child ≠ id := fun heq => hother (heq ▸ hchild)
    simp [hne]
  · simp [hchild]

end Semijoin

/-- Every child row fits the parent rows that it refers to. -/
def Fitting {χ : Type} (fit : χ → ρ → Prop) (column : χ → κ) (children : List χ)
    (key : ρ → κ) (parents : List ρ) : Prop :=
  ∀ parent ∈ parents, ∀ child ∈ children, column child = key parent → fit child parent

namespace Fitting

variable {χ : Type} {fit : χ → ρ → Prop} {column : χ → κ} {children added : List χ}
variable {key : ρ → κ} {parents : List ρ}

/-- Deleting rows leaves the others fitting. -/
theorem mono (hfitting : Fitting fit column children key parents) {children' : List χ}
    {parents' : List ρ} (hchildren : children' ⊆ children) (hparents : parents' ⊆ parents) :
    Fitting fit column children' key parents' :=
  fun parent hparent child hchild =>
    hfitting parent (hparents hparent) child (hchildren hchild)

/-- A new parent row with its own child rows. -/
theorem append (hfitting : Fitting fit column children key parents)
    (hrefers : Refers column children key parents) {parent : ρ}
    (hfresh : UniqueOn key (parents ++ [parent]))
    (hadded : ∀ child ∈ added, column child = key parent ∧ fit child parent) :
    Fitting fit column (children ++ added) key (parents ++ [parent]) := by
  intro other hother child hchild hcolumn
  rcases List.mem_append.mp hother with hold | hnew
  · rcases List.mem_append.mp hchild with hchild | hchild
    · exact hfitting other hold child hchild hcolumn
    · have hkey := (hadded child hchild).1
      exact absurd (hcolumn.symm.trans hkey) (hfresh.fresh hold)
  · rw [List.mem_singleton.mp hnew] at hcolumn ⊢
    rcases List.mem_append.mp hchild with hchild | hchild
    · obtain ⟨named, hnamed, hkey⟩ := hrefers.exists hchild
      exact absurd (hkey.trans hcolumn) (hfresh.fresh hnamed)
    · exact (hadded child hchild).2

/-- A new parent row that no child row refers to. -/
theorem append_childless (hfitting : Fitting fit column children key parents)
    (hrefers : Refers column children key parents) {parent : ρ}
    (hfresh : UniqueOn key (parents ++ [parent])) :
    Fitting fit column children key (parents ++ [parent]) := by
  have hnone : ∀ child ∈ ([] : List χ), column child = key parent ∧ fit child parent :=
    fun _ hchild => absurd hchild List.not_mem_nil
  have happend := hfitting.append hrefers hfresh hnone
  rwa [List.append_nil] at happend

/-- Changing a parent row and putting new child rows in place of its old ones. -/
theorem replace [DecidableEq κ] (hfitting : Fitting fit column children key parents) {id : κ}
    {change : ρ → ρ} (hkey : ∀ parent, key (change parent) = key parent)
    (hadded : ∀ child ∈ added, column child = id ∧
      ∀ parent ∈ parents, key parent = id → fit child (change parent)) :
    Fitting fit column (children.filter (column · != id) ++ added) key
      (update (key · == id) change parents) := by
  intro parent hparent child hchild hcolumn
  rcases mem_update.mp hparent with ⟨hold, hother⟩ | ⟨old, hold, hid, rfl⟩
  · rcases List.mem_append.mp hchild with hchild | hchild
    · exact hfitting parent hold child (List.mem_of_mem_filter hchild) hcolumn
    · have hnamed := (hadded child hchild).1
      rw [hcolumn] at hnamed
      exact absurd hnamed (by simpa using hother)
  · rw [beq_iff_eq] at hid
    rcases List.mem_append.mp hchild with hchild | hchild
    · have hkept := (List.mem_filter.mp hchild).2
      rw [hcolumn, hkey, hid] at hkept
      simp at hkept
    · exact (hadded child hchild).2 old hold hid

/-- Changing parent rows in columns that play no part. -/
theorem update (hfitting : Fitting fit column children key parents) {condition : ρ → Bool}
    {change : ρ → ρ} (hkey : ∀ parent, key (change parent) = key parent)
    (hfit : ∀ child parent, fit child parent → fit child (change parent)) :
    Fitting fit column children key (Relational.update condition change parents) := by
  intro parent hparent child hchild hcolumn
  rcases mem_update.mp hparent with ⟨hold, _⟩ | ⟨old, hold, _, rfl⟩
  · exact hfitting parent hold child hchild hcolumn
  · exact hfit child old (hfitting old hold child hchild (hcolumn.trans (hkey old)))

end Fitting

end Relational
