/-
Listings in keyset order: rows are ordered by a unique key, a page holds what lies beyond a
cursor, and the key of its last row is the next cursor.  One row more than asked for tells
whether there is a next page.
-/
import MuxivoConsole.Relational.Table
import Mathlib.Data.List.Sort

namespace Paging

open Relational

/-- A page of a listing, and from where the next one is asked for. -/
structure Page (α κ : Type) where
  items : List α
  nextCursor : Option κ
  deriving DecidableEq

section Cut

variable {α κ : Type}

/-- The page of at most `limit` items of what was found. -/
def cut (key : α → κ) (found : List α) (limit : Nat) : Page α κ where
  items := found.take limit
  nextCursor := if limit < found.length then ((found.take limit).getLast?).map key else none

theorem cut_last {key : α → κ} {found : List α} {limit : Nat} (hfew : found.length ≤ limit) :
    cut key found limit = ⟨found, none⟩ := by
  unfold cut
  rw [List.take_of_length_le hfew, if_neg (by omega)]

/-- The last page holds everything that was found. -/
theorem length_le_of_cut_last {key : α → κ} {found : List α} {limit : Nat} (hlimit : 0 < limit)
    (hlast : (cut key found limit).nextCursor = none) : found.length ≤ limit := by
  by_contra hmore
  have hnone : (found.take limit).getLast? = none := by
    simpa [cut, Nat.lt_of_not_le hmore] using hlast
  have hempty := congrArg List.length (List.getLast?_eq_none_iff.mp hnone)
  rw [List.length_take, List.length_nil] at hempty
  omega

/-- The cursor after a page is the key of its last item. -/
theorem cut_nextCursor {key : α → κ} {found : List α} {limit : Nat} {next : κ}
    (hnext : (cut key found limit).nextCursor = some next) :
    limit < found.length ∧ ∃ items last, found.take limit = items ++ [last] ∧
      next = key last := by
  unfold cut at hnext
  dsimp only at hnext
  split at hnext
  · rename_i hmore
    obtain ⟨last, hlast, rfl⟩ := Option.map_eq_some_iff.mp hnext
    obtain ⟨items, hitems⟩ := List.getLast?_eq_some_iff.mp hlast
    exact ⟨hmore, items, last, hitems, rfl⟩
  · cases hnext

end Cut

section Walks

variable {α κ : Type}

/-- Following the cursor: request `number` is asked with this cursor, and so on until a page
names no next one. -/
inductive Walk (ask : Nat → Option κ → Page α κ → Prop) :
    Nat → Option κ → List (Page α κ) → Prop
  | last {number cursor page} (hasked : ask number cursor page)
      (hlast : page.nextCursor = none) : Walk ask number cursor [page]
  | next {number cursor page next pages} (hasked : ask number cursor page)
      (hnext : page.nextCursor = some next) (hrest : Walk ask (number + 1) (some next) pages) :
      Walk ask number cursor (page :: pages)

variable {ask : Nat → Option κ → Page α κ → Prop}

/-- Everything that the pages list. -/
def listed (pages : List (Page α κ)) : List α :=
  pages.flatMap Page.items

@[simp] theorem listed_cons (page : Page α κ) (pages : List (Page α κ)) :
    listed (page :: pages) = page.items ++ listed pages :=
  rfl

@[simp] theorem listed_singleton (page : Page α κ) : listed [page] = page.items := by
  simp [listed]

theorem Walk.mono {ask' : Nat → Option κ → Page α κ → Prop}
    (himp : ∀ number cursor page, ask number cursor page → ask' number cursor page)
    {number : Nat} {cursor : Option κ} {pages : List (Page α κ)}
    (hwalk : Walk ask number cursor pages) : Walk ask' number cursor pages := by
  induction hwalk with
  | last hasked hlast => exact Walk.last (himp _ _ _ hasked) hlast
  | next hasked hnext _ ih => exact Walk.next (himp _ _ _ hasked) hnext ih

/-- Where a request has one answer, a walk is one. -/
theorem Walk.unique (hunique : ∀ number cursor first second, ask number cursor first →
      ask number cursor second → first = second)
    {number : Nat} {cursor : Option κ} {first second : List (Page α κ)}
    (hfirst : Walk ask number cursor first) (hsecond : Walk ask number cursor second) :
    first = second := by
  induction hfirst generalizing second with
  | last hasked hlast =>
      cases hsecond with
      | last hother _ => rw [hunique _ _ _ _ hasked hother]
      | next hother hnext _ =>
          rw [hunique _ _ _ _ hother hasked, hlast] at hnext
          cases hnext
  | next hasked hnext _ ih =>
      cases hsecond with
      | last hother hlast =>
          rw [hunique _ _ _ _ hother hasked, hnext] at hlast
          cases hlast
      | next hother hnext' hrest =>
          have hsame := hunique _ _ _ _ hother hasked
          subst hsame
          rw [hnext] at hnext'
          cases hnext'
          rw [ih hrest]

/-- A walk whose cursors only go forward comes to an end. -/
theorem Walk.exists [LinearOrder κ] [WellFoundedGT κ]
    (htotal : ∀ number cursor, ∃ page, ask number cursor page)
    (hforward : ∀ number cursor page next, ask number cursor page →
      page.nextCursor = some next → ∀ key ∈ cursor, key < next)
    (number : Nat) (cursor : Option κ) : ∃ pages, Walk ask number cursor pages := by
  have hbeyond : ∀ key : κ, ∀ number, ∃ pages, Walk ask number (some key) pages := by
    intro key
    induction key using WellFoundedGT.induction with
    | ind key ih =>
        intro number
        obtain ⟨page, hasked⟩ := htotal number (some key)
        cases hnext : page.nextCursor with
        | none => exact ⟨[page], Walk.last hasked hnext⟩
        | some next =>
            have hlater := hforward _ _ _ _ hasked hnext key rfl
            obtain ⟨pages, hrest⟩ := ih next hlater (number + 1)
            exact ⟨page :: pages, Walk.next hasked hnext hrest⟩
  obtain ⟨page, hasked⟩ := htotal number cursor
  cases hnext : page.nextCursor with
  | none => exact ⟨[page], Walk.last hasked hnext⟩
  | some next =>
      obtain ⟨pages, hrest⟩ := hbeyond next (number + 1)
      exact ⟨page :: pages, Walk.next hasked hnext hrest⟩

/-- Every page but the last one lists something, so there are not many more pages than
items. -/
theorem Walk.length_le (hitems : ∀ number cursor page next, ask number cursor page →
      page.nextCursor = some next → page.items ≠ [])
    {number : Nat} {cursor : Option κ} {pages : List (Page α κ)}
    (hwalk : Walk ask number cursor pages) : pages.length ≤ (listed pages).length + 1 := by
  induction hwalk with
  | last hasked hlast => simp
  | next hasked hnext _ ih =>
      have hsome := List.length_pos_iff.mpr (hitems _ _ _ _ hasked hnext)
      rw [listed_cons, List.length_append, List.length_cons]
      omega

end Walks

section Order

variable {ρ α κ : Type} [LinearOrder κ]

/-- `ORDER BY key` -/
def ordered (key : ρ → κ) (rows : List ρ) : List ρ :=
  rows.insertionSort fun first second => key first ≤ key second

/-- `key > cursor`, where there is a cursor -/
def beyond (key : ρ → κ) (cursor : Option κ) (row : ρ) : Bool :=
  cursor.all fun last => decide (last < key row)

/-- The first `limit` rows beyond the cursor. -/
def window (key : ρ → κ) (rows : List ρ) (cursor : Option κ) (limit : Nat) : List ρ :=
  (ordered key (rows.filter (beyond key cursor))).take limit

variable {key : ρ → κ} {rows : List ρ}

@[simp] theorem mem_ordered {row : ρ} : row ∈ ordered key rows ↔ row ∈ rows :=
  List.mem_insertionSort _

@[simp] theorem length_ordered : (ordered key rows).length = rows.length :=
  List.length_insertionSort _ _

theorem beyond_eq_true {cursor : Option κ} {row : ρ} :
    beyond key cursor row = true ↔ ∀ last ∈ cursor, last < key row := by
  cases cursor <;> simp [beyond]

@[simp] theorem filter_beyond_none (rows : List ρ) : rows.filter (beyond key none) = rows :=
  List.filter_eq_self.mpr fun _ _ => rfl

@[simp] theorem window_none (limit : Nat) :
    window key rows none limit = (ordered key rows).take limit := by
  rw [window, filter_beyond_none]

theorem UniqueOn.ordered (hunique : UniqueOn key rows) : UniqueOn key (ordered key rows) :=
  ((List.perm_insertionSort _ rows).map key).nodup_iff.mpr hunique

/-- Unique keys are in strictly ascending order. -/
theorem ordered_pairwise (hunique : UniqueOn key rows) :
    (ordered key rows).Pairwise fun first second => key first < key second := by
  have hle : (ordered key rows).Pairwise fun first second => key first ≤ key second := by
    have htotal : Std.Total fun first second : ρ => key first ≤ key second :=
      ⟨fun first second => le_total _ _⟩
    have htrans : IsTrans ρ fun first second => key first ≤ key second :=
      ⟨fun _ _ _ => le_trans⟩
    exact List.pairwise_insertionSort _ rows
  have hne : (ordered key rows).Pairwise fun first second => key first ≠ key second :=
    List.pairwise_map.mp (UniqueOn.ordered hunique)
  exact (hle.and hne).imp fun hboth => lt_of_le_of_ne hboth.1 hboth.2

/-- Selecting and ordering may change places. -/
theorem ordered_filter (hunique : UniqueOn key rows) (selected : ρ → Bool) :
    ordered key (rows.filter selected) = (ordered key rows).filter selected := by
  have hkept : UniqueOn key (rows.filter selected) :=
    UniqueOn.sublist hunique List.filter_sublist
  refine List.Perm.eq_of_pairwise ?_ (ordered_pairwise hkept)
    ((ordered_pairwise hunique).filter selected) ?_
  · intro first second _ _ hlt hgt
    exact absurd (lt_trans hlt hgt) (lt_irrefl _)
  · exact (List.perm_insertionSort _ _).trans ((List.perm_insertionSort _ rows).symm.filter _)

theorem window_eq (hunique : UniqueOn key rows) (cursor : Option κ) (limit : Nat) :
    window key rows cursor limit =
      ((ordered key rows).filter (beyond key cursor)).take limit := by
  rw [window, ordered_filter hunique]

/-- Beyond the key of a row lie the rows after it. -/
theorem filter_beyond_getElem (hunique : UniqueOn key rows) {position : Nat} {row : ρ}
    (hrow : (ordered key rows)[position]? = some row) :
    (ordered key rows).filter (beyond key (some (key row))) =
      (ordered key rows).drop (position + 1) := by
  have hsorted := ordered_pairwise hunique
  obtain ⟨hbound, hget⟩ := List.getElem?_eq_some_iff.mp hrow
  have hsplit : ordered key rows = (ordered key rows).take position ++
      row :: (ordered key rows).drop (position + 1) := by
    rw [← hget, List.getElem_cons_drop, List.take_append_drop]
  generalize (ordered key rows).take position = before at hsplit
  generalize (ordered key rows).drop (position + 1) = after at hsplit
  rw [hsplit] at hsorted ⊢
  obtain ⟨_, hlater, hapart⟩ := List.pairwise_append.mp hsorted
  have hnone : before.filter (beyond key (some (key row))) = [] := by
    rw [List.filter_eq_nil_iff]
    intro earlier hearlier
    have hlt := hapart earlier hearlier row List.mem_cons_self
    simp [beyond, not_lt.mpr (le_of_lt hlt)]
  have hall : after.filter (beyond key (some (key row))) = after := by
    rw [List.filter_eq_self]
    intro later hmem
    simpa [beyond] using (List.pairwise_cons.mp hlater).1 later hmem
  rw [List.filter_append, hnone, List.filter_cons_of_neg (by simp [beyond]), hall,
    List.nil_append]

end Order

section Pages

variable {ρ α κ : Type} [LinearOrder κ] {key : ρ → κ} {itemKey : α → κ} {entry : ρ → α}

/-- The page lists the first rows beyond the cursor: all of them if it is the last one, and
otherwise all up to the next cursor. -/
structure Lists (key : ρ → κ) (itemKey : α → κ) (entry : ρ → α) (rows : List ρ)
    (cursor : Option κ) (page : Page α κ) : Prop where
  sorted : page.items.Pairwise fun first second => itemKey first < itemKey second
  sound : ∀ item ∈ page.items, ∃ row ∈ rows, beyond key cursor row = true ∧ entry row = item
  last : page.nextCursor = none → ∀ row ∈ rows, beyond key cursor row = true →
    entry row ∈ page.items
  next : ∀ next, page.nextCursor = some next → page.items ≠ [] ∧
    (∀ item ∈ page.items, itemKey item ≤ next) ∧ (∀ last ∈ cursor, last < next) ∧
      ∀ row ∈ rows, beyond key cursor row = true → key row ≤ next → entry row ∈ page.items

theorem cut_window_lists {rows : List ρ} (hunique : UniqueOn key rows)
    (hkey : ∀ row, itemKey (entry row) = key row) (cursor : Option κ) {limit : Nat}
    (hlimit : 0 < limit) :
    Lists key itemKey entry rows cursor
      (cut itemKey ((window key rows cursor (limit + 1)).map entry) limit) := by
  have hsorted : ((ordered key rows).filter (beyond key cursor)).Pairwise
      fun first second => key first < key second := (ordered_pairwise hunique).filter _
  have hmem : ∀ row, row ∈ (ordered key rows).filter (beyond key cursor) ↔
      row ∈ rows ∧ beyond key cursor row = true := by
    simp
  rw [window_eq hunique]
  generalize (ordered key rows).filter (beyond key cursor) = ahead at hsorted hmem
  have hitems : (cut itemKey ((ahead.take (limit + 1)).map entry) limit).items =
      (ahead.take limit).map entry := by
    simp [cut, ← List.map_take, List.take_take]
  refine ⟨?_, ?_, ?_, ?_⟩
  · rw [hitems, List.pairwise_map]
    exact (hsorted.sublist (List.take_sublist _ _)).imp fun hlt => by rwa [hkey, hkey]
  · rw [hitems]
    intro item hitem
    obtain ⟨row, hrow, rfl⟩ := List.mem_map.mp hitem
    obtain ⟨hstored, hbeyond⟩ := (hmem row).mp (List.mem_of_mem_take hrow)
    exact ⟨row, hstored, hbeyond, rfl⟩
  · intro hlast row hrow hbeyond
    rw [hitems]
    have hfew := length_le_of_cut_last hlimit hlast
    have hshort : ahead.length ≤ limit := by
      rw [List.length_map, List.length_take] at hfew
      omega
    rw [List.take_of_length_le hshort]
    exact List.mem_map_of_mem ((hmem row).mpr ⟨hrow, hbeyond⟩)
  · intro next hnext
    obtain ⟨_, items, last, htake, rfl⟩ := cut_nextCursor hnext
    have hitems' : (ahead.take limit).map entry = items ++ [last] := by
      rw [← htake, ← List.map_take, List.take_take]
      simp
    obtain ⟨earlier, final, hsplit, rfl, hfinal⟩ := List.map_eq_append_iff.mp hitems'
    obtain ⟨row, rfl, hrow⟩ := List.map_eq_singleton_iff.mp hfinal
    rw [hitems, hsplit]
    have htaken := hsorted.sublist (List.take_sublist limit ahead)
    rw [hsplit, List.pairwise_append] at htaken
    have hstored := (hmem row).mp (List.mem_of_mem_take
      (hsplit ▸ List.mem_append_right earlier List.mem_cons_self))
    refine ⟨by simp, ?_, ?_, ?_⟩
    · intro item hitem
      rw [← hrow, hkey]
      obtain ⟨old, hold, rfl⟩ := List.mem_map.mp hitem
      rw [hkey]
      rcases List.mem_append.mp hold with hearlier | hlast
      · exact le_of_lt (htaken.2.2 old hearlier row List.mem_cons_self)
      · rw [List.mem_singleton.mp hlast]
    · intro cursorKey hcursor
      rw [← hrow, hkey]
      exact beyond_eq_true.mp hstored.2 cursorKey hcursor
    · intro other hother hbeyond hle
      rw [← hrow, hkey] at hle
      have hahead : other ∈ ahead := (hmem other).mpr ⟨hother, hbeyond⟩
      rw [← List.take_append_drop limit ahead, hsplit, List.mem_append] at hahead
      rcases hahead with htake | hdrop
      · exact List.mem_map_of_mem htake
      · have hparts := hsorted
        rw [← List.take_append_drop limit ahead, hsplit, List.pairwise_append] at hparts
        have hlt := hparts.2.2 row (List.mem_append_right _ List.mem_cons_self) other hdrop
        exact absurd hle (not_le.mpr hlt)

/-- Run lemma: a walk over rows that only become more lists, in order, every row that lay
beyond its cursor when it began, and nothing but rows. -/
theorem Walk.lists {ask : Nat → Option κ → Page α κ → Prop} {rows : Nat → List ρ}
    (hkey : ∀ row, itemKey (entry row) = key row)
    (hasks : ∀ number cursor page, ask number cursor page →
      Lists key itemKey entry (rows number) cursor page)
    (hgrows : ∀ number, rows number ⊆ rows (number + 1)) {number : Nat} {cursor : Option κ}
    {pages : List (Page α κ)} (hwalk : Walk ask number cursor pages) :
    ((listed pages).Pairwise fun first second => itemKey first < itemKey second) ∧
      (∀ item ∈ listed pages, (∀ last ∈ cursor, last < itemKey item) ∧
        ∃ later, number ≤ later ∧ later < number + pages.length ∧
          ∃ row ∈ rows later, entry row = item) ∧
        ∀ row ∈ rows number, beyond key cursor row = true → entry row ∈ listed pages := by
  have hsound : ∀ {number cursor page}, ask number cursor page → ∀ item ∈ page.items,
      (∀ last ∈ cursor, last < itemKey item) ∧ ∃ row ∈ rows number, entry row = item := by
    intro number cursor page hasked item hitem
    obtain ⟨row, hrow, hbeyond, rfl⟩ := (hasks _ _ _ hasked).sound item hitem
    refine ⟨?_, row, hrow, rfl⟩
    rw [hkey]
    exact beyond_eq_true.mp hbeyond
  induction hwalk with
  | @last number cursor page hasked hlast =>
      rw [listed_singleton]
      refine ⟨(hasks _ _ _ hasked).sorted, ?_, (hasks _ _ _ hasked).last hlast⟩
      intro item hitem
      obtain ⟨hbeyond, hrow⟩ := hsound hasked item hitem
      exact ⟨hbeyond, number, Nat.le_refl _, by simp, hrow⟩
  | @next number cursor page next pages hasked hnext _ ih =>
      obtain ⟨hsorted, hlater, hall⟩ := ih
      obtain ⟨_, hupto, hforward, hcomplete⟩ := (hasks _ _ _ hasked).next next hnext
      rw [listed_cons]
      refine ⟨?_, ?_, ?_⟩
      · refine List.pairwise_append.mpr ⟨(hasks _ _ _ hasked).sorted, hsorted, ?_⟩
        intro first hfirst second hsecond
        exact lt_of_le_of_lt (hupto first hfirst) ((hlater second hsecond).1 next rfl)
      · intro item hitem
        rcases List.mem_append.mp hitem with hnow | hrest
        · obtain ⟨hbeyond, hrow⟩ := hsound hasked item hnow
          exact ⟨hbeyond, number, Nat.le_refl _, by simp, hrow⟩
        · obtain ⟨hbeyond, later, hfrom, hto, hrow⟩ := hlater item hrest
          refine ⟨?_, later, by omega, by rw [List.length_cons]; omega, hrow⟩
          intro last hcursor
          exact lt_trans (hforward last hcursor) (hbeyond next rfl)
      · intro row hrow hbeyond
        by_cases hle : key row ≤ next
        · exact List.mem_append_left _ (hcomplete row hrow hbeyond hle)
        · refine List.mem_append_right _ (hall row (hgrows number hrow) ?_)
          exact beyond_eq_true.mpr fun last hcursor => by
            cases hcursor
            exact not_le.mp hle

end Pages

section Skipping

variable {ρ α κ : Type} [LinearOrder κ] {key : ρ → κ} {itemKey : α → κ} {decode : ρ → Option α}

/-- Where request `number` starts if every page before it was full. -/
def place (limits : Nat → Nat) : Nat → Nat
  | 0 => 0
  | number + 1 => place limits number + limits number

theorem place_le {limits : Nat → Nat} {first second : Nat} (hle : first ≤ second) :
    place limits first ≤ place limits second := by
  induction hle with
  | refl => exact Nat.le_refl _
  | step _ ih => exact Nat.le_trans ih (Nat.le_add_right _ _)

/-- Where a page of at least one row starts, the pages after it start beyond its rows. -/
theorem place_add_le {limits : Nat → Nat} (hlimits : ∀ number, 0 < limits number)
    {first second : Nat} (hle : first ≤ second) :
    place limits first + limits first ≤ place limits second + limits second := by
  rcases Nat.eq_or_lt_of_le hle with rfl | hlt
  · exact Nat.le_refl _
  · have hnext : place limits (first + 1) ≤ place limits second := place_le hlt
    have hpos := hlimits second
    rw [place] at hnext
    omega

/-- Rows that cannot be decoded do not hide rows that can: whenever the window of a request
holds one, nothing that can be decoded lies behind the window. -/
def SkipsNothing (key : ρ → κ) (decode : ρ → Option α) (rows : List ρ)
    (limits : Nat → Nat) : Prop :=
  ∀ number,
    (∃ row ∈ ((ordered key rows).drop (place limits number)).take (limits number + 1),
      decode row = none) →
    ∀ row ∈ (ordered key rows).drop (place limits number + limits number + 1),
      decode row = none

variable {rows : List ρ}

omit [LinearOrder κ] in
/-- A window without gaps gives a full page, and its cursor is the key of the last row of
it. -/
theorem cut_full (hkey : ∀ row item, decode row = some item → itemKey item = key row)
    {found : List ρ} {limit : Nat} (hlimit : 0 < limit) (hlength : found.length = limit + 1)
    (hall : ∀ row ∈ found, (decode row).isSome = true) :
    ∃ row, found[limit - 1]? = some row ∧
      cut itemKey (found.filterMap decode) limit =
        ⟨(found.take limit).filterMap decode, some (key row)⟩ := by
  have hread : ∀ {kept : List ρ}, (∀ row ∈ kept, (decode row).isSome = true) →
      (kept.filterMap decode).length = kept.length := by
    intro kept hkept
    induction kept with
    | nil => rfl
    | cons row kept ih =>
        obtain ⟨item, hitem⟩ := Option.isSome_iff_exists.mp (hkept row List.mem_cons_self)
        rw [List.filterMap_cons_some hitem, List.length_cons, List.length_cons,
          ih fun other hother => hkept other (List.mem_cons_of_mem _ hother)]
  have htaken : ∀ row ∈ found.take limit, (decode row).isSome = true :=
    fun row hrow => hall row (List.mem_of_mem_take hrow)
  have hitems : (found.filterMap decode).take limit = (found.take limit).filterMap decode := by
    conv_lhs => rw [← List.take_append_drop limit found, List.filterMap_append]
    refine List.take_left' ?_
    rw [hread htaken, List.length_take]
    omega
  obtain ⟨row, hrow⟩ : ∃ row, found[limit - 1]? = some row :=
    ⟨_, List.getElem?_eq_getElem (by omega)⟩
  refine ⟨row, hrow, ?_⟩
  obtain ⟨item, hitem⟩ := Option.isSome_iff_exists.mp
    (hall row (List.mem_of_getElem? hrow))
  have hlast : (found.take limit).getLast? = some row := by
    rw [List.getLast?_eq_getElem?, List.length_take, List.getElem?_take]
    have hmin : min limit found.length - 1 = limit - 1 := by omega
    rw [hmin, if_pos (by omega), hrow]
  obtain ⟨before, hbefore⟩ := List.getLast?_eq_some_iff.mp hlast
  unfold cut
  rw [hread hall, if_pos (by omega), hitems, hbefore, List.filterMap_append,
    List.filterMap_cons_some hitem, List.filterMap_nil, List.getLast?_concat, Option.map_some,
    hkey row item hitem]

omit [LinearOrder κ] in
/-- Any other window gives the last page. -/
theorem cut_gap {found : List ρ} {limit : Nat} (hlength : found.length ≤ limit + 1)
    (hgap : found.length = limit + 1 → ∃ row ∈ found, decode row = none) :
    cut itemKey (found.filterMap decode) limit = ⟨found.filterMap decode, none⟩ := by
  refine cut_last ?_
  by_cases hfull : found.length = limit + 1
  · obtain ⟨row, hrow, hnone⟩ := hgap hfull
    have hless : (found.filterMap decode).length ≠ found.length := by
      rw [List.length_filterMap_eq_countP]
      intro hcount
      have hsome := List.countP_eq_length.mp hcount row hrow
      rw [hnone] at hsome
      cases hsome
    have hle := List.length_filterMap_le decode found
    omega
  · exact Nat.le_trans (List.length_filterMap_le _ _) (by omega)

/-- Run lemma: what a walk over unchanged rows lists. -/
theorem Walk.skips {ask : Nat → Option κ → Page α κ → Prop} {limits : Nat → Nat}
    (hunique : UniqueOn key rows)
    (hkey : ∀ row item, decode row = some item → itemKey item = key row)
    (hlimits : ∀ number, 0 < limits number)
    (hasks : ∀ number cursor page, ask number cursor page →
      page = cut itemKey ((window key rows cursor (limits number + 1)).filterMap decode)
        (limits number))
    {number : Nat} {cursor : Option κ} {pages : List (Page α κ)}
    (hwalk : Walk ask number cursor pages)
    (hstands : (ordered key rows).filter (beyond key cursor) =
      (ordered key rows).drop (place limits number)) :
    listed pages = ((ordered key rows).drop (place limits number)).filterMap decode ↔
      ∀ later ≥ number,
        (∃ row ∈ ((ordered key rows).drop (place limits later)).take (limits later + 1),
          decode row = none) →
        ∀ row ∈ (ordered key rows).drop (place limits later + limits later + 1),
          decode row = none := by
  have hwindow : ∀ {number cursor}, (ordered key rows).filter (beyond key cursor) =
      (ordered key rows).drop (place limits number) →
        window key rows cursor (limits number + 1) =
          ((ordered key rows).drop (place limits number)).take (limits number + 1) := by
    intro number cursor hstands
    rw [window_eq hunique, hstands]
  have hbehind : ∀ number, ((ordered key rows).drop (place limits number)).drop
      (limits number + 1) =
        (ordered key rows).drop (place limits number + limits number + 1) := by
    intro number
    rw [List.drop_drop, Nat.add_assoc]
  induction hwalk with
  | @last number cursor page hasked hlast =>
      have hpage := hasks _ _ _ hasked
      rw [hwindow hstands] at hpage
      have hgap : (((ordered key rows).drop (place limits number)).take
            (limits number + 1)).length = limits number + 1 →
        ∃ row ∈ ((ordered key rows).drop (place limits number)).take (limits number + 1),
          decode row = none := by
        intro hlength
        by_contra hnone
        obtain ⟨row, _, hfull⟩ := cut_full hkey (hlimits number) hlength (by
          intro row hrow
          rw [Option.isSome_iff_ne_none]
          exact fun hrownone => hnone ⟨row, hrow, hrownone⟩)
        rw [hpage, hfull] at hlast
        cases hlast
      rw [cut_gap (List.length_take_le _ _) hgap] at hpage
      have hrest : listed [page] =
          ((ordered key rows).drop (place limits number)).filterMap decode ↔
            ∀ row ∈ (ordered key rows).drop (place limits number + limits number + 1),
              decode row = none := by
        rw [listed_singleton, hpage, ← hbehind number, ← List.filterMap_eq_nil_iff]
        conv_lhs =>
          rhs
          rw [← List.take_append_drop (limits number + 1)
            ((ordered key rows).drop (place limits number)), List.filterMap_append]
        exact List.self_eq_append_right
      rw [hrest]
      constructor
      · intro hnone later hlater _ row hrow
        refine hnone row (List.drop_subset_drop_left _ ?_ hrow)
        have hle := place_add_le hlimits hlater
        omega
      · intro hskips row hrow
        by_cases hlength : (((ordered key rows).drop (place limits number)).take
            (limits number + 1)).length = limits number + 1
        · exact hskips number (Nat.le_refl _) (hgap hlength) row hrow
        · rw [← hbehind number] at hrow
          rw [List.length_take] at hlength
          rw [List.drop_of_length_le (by omega)] at hrow
          cases hrow
  | @next number cursor page next pages hasked hnext _ ih =>
      have hpage := hasks _ _ _ hasked
      rw [hwindow hstands] at hpage
      have hfull : (((ordered key rows).drop (place limits number)).take
            (limits number + 1)).length = limits number + 1 ∧
          ∀ row ∈ ((ordered key rows).drop (place limits number)).take (limits number + 1),
            decode row ≠ none := by
        by_contra hnot
        rw [cut_gap (List.length_take_le _ _) (by
          intro hlength
          by_contra hnone
          exact hnot ⟨hlength, fun row hrow hrownone => hnone ⟨row, hrow, hrownone⟩⟩)] at hpage
        rw [hpage] at hnext
        cases hnext
      obtain ⟨last, hlast, hcut⟩ := cut_full hkey (hlimits number) hfull.1
        fun row hrow => Option.isSome_iff_ne_none.mpr (hfull.2 row hrow)
      rw [hcut, List.take_take, Nat.min_eq_left (Nat.le_succ _)] at hpage
      rw [hpage] at hnext
      cases hnext
      have hpos := hlimits number
      rw [List.getElem?_take, if_pos (by omega), List.getElem?_drop] at hlast
      have hnextplace : place limits number + (limits number - 1) + 1 =
          place limits (number + 1) := by
        rw [place]
        omega
      have hrest := ih (by rw [filter_beyond_getElem hunique hlast, hnextplace])
      have hdrop : ((ordered key rows).drop (place limits number)).drop (limits number) =
          (ordered key rows).drop (place limits (number + 1)) := by
        rw [List.drop_drop, place]
      rw [listed_cons, hpage]
      conv_lhs =>
        rhs
        rw [← List.take_append_drop (limits number)
          ((ordered key rows).drop (place limits number)), List.filterMap_append, hdrop]
      rw [List.append_cancel_left_eq]
      refine Iff.trans hrest ?_
      constructor
      · intro hskips later hlater hgap
        rcases Nat.eq_or_lt_of_le hlater with rfl | hlt
        · obtain ⟨row, hrow, hnone⟩ := hgap
          exact absurd hnone (hfull.2 row hrow)
        · exact hskips later hlt hgap
      · intro hskips later hlater
        exact hskips later (Nat.le_of_succ_le hlater)

end Skipping

end Paging
