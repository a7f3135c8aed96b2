/-
Dictionaries that keep the order of insertion: an entry for each key, where a later value takes
the place of an earlier one.
-/
import Mathlib.Data.List.Nodup

namespace Mapping

/-- The entries in the order in which their keys came. -/
structure Dict (κ : Type) (ν : Type) where
  items : List (κ × ν)
  distinct : (items.map Prod.fst).Nodup

namespace Dict

variable {κ ν ω : Type}

@[ext] theorem ext {first second : Dict κ ν} (hitems : first.items = second.items) :
    first = second := by
  cases first
  cases second
  congr

instance [DecidableEq κ] [DecidableEq ν] : DecidableEq (Dict κ ν) := fun first second =>
  decidable_of_iff (first.items = second.items) ⟨ext, congrArg items⟩

/-- `len(dict)` -/
def length (dict : Dict κ ν) : Nat := dict.items.length

/-- `{key: f(value) for key, value in dict.items()}` -/
def mapValues (f : ν → ω) (dict : Dict κ ν) : Dict κ ω where
  items := dict.items.map fun entry => (entry.1, f entry.2)
  distinct := by
    rw [List.map_map]
    exact dict.distinct

theorem items_mapValues (f : ν → ω) (dict : Dict κ ν) :
    (dict.mapValues f).items = dict.items.map fun entry => (entry.1, f entry.2) := rfl

@[simp] theorem length_mapValues (f : ν → ω) (dict : Dict κ ν) :
    (dict.mapValues f).length = dict.length := by
  simp [mapValues, length]

theorem mapM_entries_eq_ok {ε : Type} {f : ν → Except ε ω} {g : ω → ν}
    (hinverse : ∀ value mapped, f value = .ok mapped ↔ g mapped = value)
    {entries : List (κ × ν)} {pairs : List (κ × ω)} :
    entries.mapM (fun entry => (f entry.2).map fun value => (entry.1, value)) = .ok pairs ↔
      pairs.map (fun pair => (pair.1, g pair.2)) = entries := by
  induction entries generalizing pairs with
  | nil =>
      rw [List.mapM_nil, List.map_eq_nil_iff]
      exact ⟨fun hpairs => (Except.ok.inj hpairs).symm, fun hpairs => by rw [hpairs]; rfl⟩
  | cons head tail ih =>
      rw [List.mapM_cons]
      constructor
      · intro hpairs
        cases hhead : f head.2 with
        | error error =>
            rw [hhead] at hpairs
            cases hpairs
        | ok value =>
            rw [hhead] at hpairs
            cases htail : tail.mapM fun entry => (f entry.2).map fun value => (entry.1, value) with
            | error error =>
                rw [htail] at hpairs
                cases hpairs
            | ok rest =>
                rw [htail] at hpairs
                cases hpairs
                rw [List.map_cons, ih.mp htail, (hinverse _ _).mp hhead]
      · intro hpairs
        cases pairs with
        | nil => cases hpairs
        | cons pair rest =>
            rw [List.map_cons, List.cons.injEq] at hpairs
            have hhead : f head.2 = .ok pair.2 := (hinverse _ _).mpr (by rw [← hpairs.1])
            have hkey : head.1 = pair.1 := by rw [← hpairs.1]
            rw [hhead, ih.mpr hpairs.2, hkey]
            rfl

section Insertion

variable [DecidableEq κ]

/-- Of entries with distinct keys, only one has the key of an entry. -/
theorem filter_key_eq {entries : List (κ × ν)} (hdistinct : (entries.map Prod.fst).Nodup)
    {entry : κ × ν} (hentry : entry ∈ entries) :
    (entries.filter fun other => other.1 = entry.1) = [entry] := by
  induction entries with
  | nil => exact absurd hentry List.not_mem_nil
  | cons head tail ih =>
      rw [List.map_cons, List.nodup_cons] at hdistinct
      rcases List.mem_cons.mp hentry with rfl | htail
      · have hnone : (tail.filter fun other => other.1 = entry.1) = [] := by
          rw [List.filter_eq_nil_iff]
          intro other hother hkey
          exact hdistinct.1 (of_decide_eq_true hkey ▸ List.mem_map_of_mem hother)
        rw [List.filter_cons_of_pos (by simp), hnone]
      · have hne : head.1 ≠ entry.1 := fun hkey =>
          hdistinct.1 (hkey ▸ List.mem_map_of_mem htail)
        rw [List.filter_cons_of_neg (by simpa using hne), ih hdistinct.2 htail]

/-- `dict[key] = value`, on the entries. -/
def setItem (key : κ) (value : ν) : List (κ × ν) → List (κ × ν)
  | [] => [(key, value)]
  | entry :: rest =>
      if entry.1 = key then (key, value) :: rest else entry :: setItem key value rest

theorem setItem_of_not_mem {key : κ} {value : ν} {entries : List (κ × ν)}
    (hnew : key ∉ entries.map Prod.fst) : setItem key value entries = entries ++ [(key, value)] := by
  induction entries with
  | nil => rfl
  | cons head tail ih =>
      simp only [List.map_cons, List.mem_cons, not_or] at hnew
      rw [setItem, if_neg fun hkey => hnew.1 hkey.symm, ih hnew.2, List.cons_append]

theorem map_fst_setItem_of_mem {key : κ} {value : ν} {entries : List (κ × ν)}
    (hold : key ∈ entries.map Prod.fst) :
    (setItem key value entries).map Prod.fst = entries.map Prod.fst := by
  induction entries with
  | nil => simp at hold
  | cons head tail ih =>
      rw [setItem]
      split_ifs with hkey
      · simp [hkey]
      · rw [List.map_cons, List.mem_cons] at hold
        rcases hold with hold | hold
        · exact absurd hold.symm hkey
        · simp [ih hold]

theorem nodup_setItem {key : κ} {value : ν} {entries : List (κ × ν)}
    (hdistinct : (entries.map Prod.fst).Nodup) :
    ((setItem key value entries).map Prod.fst).Nodup := by
  by_cases hkey : key ∈ entries.map Prod.fst
  · rwa [map_fst_setItem_of_mem hkey]
  · rw [setItem_of_not_mem hkey, List.map_append, List.map_singleton]
    exact List.Nodup.append hdistinct (List.nodup_singleton key) (by simpa using hkey)

/-- `dict.get(key)` -/
def get? (dict : Dict κ ν) (key : κ) : Option ν :=
  (dict.items.find? fun entry => entry.1 = key).map Prod.snd

/-- `dict[key] = f(dict[key])` of a `defaultdict` -/
def update (default : ν) (f : ν → ν) (key : κ) (dict : Dict κ ν) : Dict κ ν where
  items := setItem key (f ((dict.get? key).getD default)) dict.items
  distinct := nodup_setItem dict.distinct

theorem find?_setItem (key other : κ) (value : ν) (entries : List (κ × ν)) :
    ((setItem key value entries).find? fun entry => entry.1 = other).map Prod.snd =
      if other = key then some value
      else (entries.find? fun entry => entry.1 = other).map Prod.snd := by
  induction entries with
  | nil =>
      rw [setItem]
      split_ifs with hother
      · simp [hother]
      · simp [Ne.symm hother]
  | cons head tail ih =>
      rw [setItem]
      split_ifs with hhead hother hother
      · simp [hother]
      · simp [hhead, Ne.symm hother]
      · have hne : ¬ head.1 = other := fun heq => hhead (heq.trans hother)
        rw [List.find?_cons_of_neg (by simpa using hne), ih, if_pos hother]
      · by_cases hsame : head.1 = other
        · simp [hsame]
        · rw [List.find?_cons_of_neg (by simpa using hsame), ih, if_neg hother,
            List.find?_cons_of_neg (by simpa using hsame)]

/-- An update changes the value of its key only. -/
theorem get?_update {default : ν} {f : ν → ν} {key other : κ} {dict : Dict κ ν} :
    (dict.update default f key).get? other =
      if other = key then some (f ((dict.get? key).getD default)) else dict.get? other := by
  rw [get?, update]
  exact find?_setItem key other _ dict.items

theorem get?_eq_some {dict : Dict κ ν} {key : κ} {value : ν} :
    dict.get? key = some value ↔ (key, value) ∈ dict.items := by
  obtain ⟨items, hdistinct⟩ := dict
  change (items.find? fun entry => entry.1 = key).map Prod.snd = some value ↔ _
  induction items with
  | nil => simp
  | cons head tail ih =>
      rw [List.map_cons, List.nodup_cons] at hdistinct
      by_cases hhead : head.1 = key
      · have habsent : (key, value) ∉ tail := fun hmem =>
          hdistinct.1 (hhead ▸ List.mem_map_of_mem hmem)
        rw [List.find?_cons_of_pos (by simpa using hhead), Option.map_some, Option.some.injEq,
          List.mem_cons]
        constructor
        · rintro rfl
          exact Or.inl (Prod.ext hhead.symm rfl)
        · rintro (heq | hmem)
          · rw [← heq]
          · exact absurd hmem habsent
      · rw [List.find?_cons_of_neg (by simpa using hhead), ih hdistinct.2, List.mem_cons]
        constructor
        · exact Or.inr
        · rintro (heq | hmem)
          · exact absurd (by rw [← heq]) hhead
          · exact hmem

/-- The dictionary of some pairs, one after the other. -/
def ofList (pairs : List (κ × ν)) : Dict κ ν where
  items := pairs.foldl (fun entries pair => setItem pair.1 pair.2 entries) []
  distinct := by
    suffices hkept : ∀ entries : List (κ × ν), (entries.map Prod.fst).Nodup →
        ((pairs.foldl (fun entries pair => setItem pair.1 pair.2 entries) entries).map
          Prod.fst).Nodup from hkept [] List.nodup_nil
    induction pairs with
    | nil => exact fun entries hdistinct => hdistinct
    | cons head tail ih => exact fun entries hdistinct => ih _ (nodup_setItem hdistinct)

/-- Pairs with distinct keys stay as they are. -/
theorem items_ofList {pairs : List (κ × ν)} (hdistinct : (pairs.map Prod.fst).Nodup) :
    (ofList pairs).items = pairs := by
  have hgeneral : ∀ entries : List (κ × ν), ((entries ++ pairs).map Prod.fst).Nodup →
      pairs.foldl (fun entries pair => setItem pair.1 pair.2 entries) entries =
        entries ++ pairs := by
    clear hdistinct
    induction pairs with
    | nil => simp
    | cons head tail ih =>
        intro entries hall
        have hnew : head.1 ∉ entries.map Prod.fst := by
          rw [List.map_append, List.map_cons] at hall
          exact fun hmem => (List.disjoint_of_nodup_append hall hmem) List.mem_cons_self
        rw [List.foldl_cons, setItem_of_not_mem hnew, ih _ (by simpa using hall)]
        simp
  exact hgeneral [] hdistinct

theorem length_foldl_setItem_le (pairs entries : List (κ × ν)) :
    (pairs.foldl (fun entries pair => setItem pair.1 pair.2 entries) entries).length ≤
      entries.length + pairs.length := by
  induction pairs generalizing entries with
  | nil => simp
  | cons head tail ih =>
      have hstep : (setItem head.1 head.2 entries).length ≤ entries.length + 1 := by
        by_cases hkey : head.1 ∈ entries.map Prod.fst
        · have hlength := congrArg List.length (@map_fst_setItem_of_mem _ _ _ _ head.2 _ hkey)
          simp only [List.length_map] at hlength
          omega
        · have hlength := congrArg List.length (@setItem_of_not_mem _ _ _ _ head.2 _ hkey)
          rw [List.length_append, List.length_singleton] at hlength
          omega
      have htail := ih (setItem head.1 head.2 entries)
      simp only [List.foldl_cons, List.length_cons]
      omega

theorem length_ofList_le (pairs : List (κ × ν)) : (ofList pairs).length ≤ pairs.length := by
  simpa [ofList, length] using length_foldl_setItem_le pairs []

/-- Only distinct keys make as many entries as there are pairs. -/
theorem length_ofList_eq {pairs : List (κ × ν)} :
    (ofList pairs).length = pairs.length ↔ (pairs.map Prod.fst).Nodup := by
  have hgeneral : ∀ entries : List (κ × ν), (entries.map Prod.fst).Nodup →
      (pairs.foldl (fun entries pair => setItem pair.1 pair.2 entries) entries).length =
        entries.length + pairs.length → ((entries ++ pairs).map Prod.fst).Nodup := by
    induction pairs with
    | nil => simp
    | cons head tail ih =>
        intro entries hentries hlength
        have hnew : head.1 ∉ entries.map Prod.fst := by
          intro hkey
          have hsame := congrArg List.length (@map_fst_setItem_of_mem _ _ _ _ head.2 _ hkey)
          have htail := length_foldl_setItem_le tail (setItem head.1 head.2 entries)
          simp only [List.length_map] at hsame
          simp only [List.foldl_cons, List.length_cons] at hlength
          omega
        have hnext := @nodup_setItem _ _ _ head.1 head.2 _ hentries
        have hrest := ih (setItem head.1 head.2 entries) hnext (by
          rw [List.foldl_cons] at hlength
          rw [hlength, setItem_of_not_mem hnew]
          simp only [List.length_append, List.length_cons, List.length_nil]
          omega)
        rw [setItem_of_not_mem hnew] at hrest
        simpa using hrest
  constructor
  · intro hlength
    simpa using hgeneral [] List.nodup_nil (by simpa [ofList, length] using hlength)
  · intro hdistinct
    rw [length, items_ofList hdistinct]

@[simp] theorem ofList_items (dict : Dict κ ν) : ofList dict.items = dict :=
  ext (items_ofList dict.distinct)

/-- `{key: f(value) for key, value in dict.items()}` where `f` may raise -/
def traverse {ε : Type} (f : ν → Except ε ω) (dict : Dict κ ν) : Except ε (Dict κ ω) :=
  (dict.items.mapM fun entry => (f entry.2).map fun value => (entry.1, value)).map ofList

/-- What a partial map with an inverse makes of a dictionary. -/
theorem traverse_eq_ok {ε : Type} {f : ν → Except ε ω} {g : ω → ν}
    (hinverse : ∀ value mapped, f value = .ok mapped ↔ g mapped = value)
    {dict : Dict κ ν} {mapped : Dict κ ω} :
    dict.traverse f = .ok mapped ↔ mapped.mapValues g = dict := by
  rw [traverse]
  constructor
  · intro htraverse
    cases hpairs : dict.items.mapM fun entry => (f entry.2).map fun value => (entry.1, value) with
    | error error =>
        rw [hpairs] at htraverse
        cases htraverse
    | ok pairs =>
        rw [hpairs] at htraverse
        have hback := (mapM_entries_eq_ok hinverse).mp hpairs
        have hdistinct : (pairs.map Prod.fst).Nodup := by
          have hkeys := dict.distinct
          rw [← hback, List.map_map] at hkeys
          exact hkeys
        cases htraverse
        ext1
        rw [items_mapValues, items_ofList hdistinct, hback]
  · rintro rfl
    rw [items_mapValues, (mapM_entries_eq_ok hinverse).mpr rfl]
    exact congrArg Except.ok (ofList_items mapped)

end Insertion

/-- If all values are images, the dictionary is one. -/
theorem exists_mapValues {g : ω → ν} {dict : Dict κ ν}
    (hvalues : ∀ entry ∈ dict.items, ∃ value, g value = entry.2) :
    ∃ mapped : Dict κ ω, mapped.mapValues g = dict := by
  have hlist : ∀ entries : List (κ × ν), (∀ entry ∈ entries, ∃ value, g value = entry.2) →
      ∃ pairs : List (κ × ω), pairs.map (fun pair => (pair.1, g pair.2)) = entries := by
    intro entries
    induction entries with
    | nil => exact fun _ => ⟨[], rfl⟩
    | cons head tail ih =>
        intro hall
        obtain ⟨value, hvalue⟩ := hall head List.mem_cons_self
        obtain ⟨pairs, hpairs⟩ := ih fun entry hentry => hall entry (List.mem_cons_of_mem _ hentry)
        exact ⟨(head.1, value) :: pairs, by rw [List.map_cons, hpairs, hvalue]⟩
  obtain ⟨pairs, hpairs⟩ := hlist dict.items hvalues
  have hdistinct : (pairs.map Prod.fst).Nodup := by
    have hkeys := dict.distinct
    rw [← hpairs, List.map_map] at hkeys
    exact hkeys
  exact ⟨⟨pairs, hdistinct⟩, ext hpairs⟩

@[simp] theorem mapValues_mapValues {υ : Type} (f : ν → ω) (g : ω → υ) (dict : Dict κ ν) :
    (dict.mapValues f).mapValues g = dict.mapValues (g ∘ f) := by
  simp [mapValues]

/-- Values that are left alone leave the dictionary alone. -/
theorem mapValues_eq_self {f : ν → ν} {dict : Dict κ ν}
    (hvalues : ∀ entry ∈ dict.items, f entry.2 = entry.2) : dict.mapValues f = dict := by
  ext1
  simp only [mapValues]
  conv_rhs => rw [← List.map_id dict.items]
  refine List.map_congr_left fun entry hentry => ?_
  rw [hvalues entry hentry]
  rfl

end Dict

end Mapping
