/-
Regular expressions as a backtracking engine runs them: the ways to match come in the order in
which the engine tries them, and the first one counts.
-/
import Mathlib.Data.List.TakeWhile

namespace Regex

variable {α β : Type}

/-- The expressions that the engine runs; `boundary` is `\b` for a class of word characters. -/
inductive Pattern (α : Type) where
  | empty
  | one (accepts : α → Bool)
  | many (accepts : α → Bool)
  | boundary (isWord : α → Bool)
  | seq (first second : Pattern α)
  | either (first second : Pattern α)

/-- The character before a place, after some text has been taken. -/
def lastOr (previous : Option α) (taken : List α) : Option α :=
  taken.getLast?.or previous

/-- The ways to take accepted characters, longest first. -/
def splits (accepts : α → Bool) : List α → List (List α × List α)
  | [] => [([], [])]
  | code :: rest =>
      if accepts code then
        (splits accepts rest).map (fun result => (code :: result.1, result.2)) ++
          [([], code :: rest)]
      else [([], code :: rest)]

/-- What is taken and what is left, for every way to match at a place. -/
def Pattern.run : Pattern α → Option α → List α → List (List α × List α)
  | .empty, _, codes => [([], codes)]
  | .one _, _, [] => []
  | .one accepts, _, code :: rest => if accepts code then [([code], rest)] else []
  | .many accepts, _, codes => splits accepts codes
  | .boundary isWord, previous, codes =>
      if previous.any isWord != codes.head?.any isWord then [([], codes)] else []
  | .seq first second, previous, codes =>
      (first.run previous codes).flatMap fun result =>
        (second.run (lastOr previous result.1) result.2).map fun next =>
          (result.1 ++ next.1, next.2)
  | .either first second, previous, codes => first.run previous codes ++ second.run previous codes

/-- At least one accepted character. -/
def Pattern.some' (accepts : α → Bool) : Pattern α :=
  .seq (.one accepts) (.many accepts)

/-- An accepted character, if there is one. -/
def Pattern.optional (accepts : α → Bool) : Pattern α :=
  .either (.one accepts) .empty

/-- One character of each class. -/
def Pattern.word : List (α → Bool) → Pattern α
  | [] => .empty
  | accepts :: rest => .seq (.one accepts) (word rest)

/-- The groups of an expression one after the other, with the texts that they take. -/
def runGroups : List (Pattern α) → Option α → List α → List (List (List α) × List α)
  | [], _, codes => [([], codes)]
  | group :: groups, previous, codes =>
      (group.run previous codes).flatMap fun result =>
        (runGroups groups (lastOr previous result.1) result.2).map fun next =>
          (result.1 :: next.1, next.2)

/-- `re.match` at a place -/
def match? (groups : List (Pattern α)) (previous : Option α) (codes : List α) :
    Option (List (List α) × List α) :=
  (runGroups groups previous codes).head?

/-- `re.sub` from a place on, after `skip` more characters; for expressions that take at least one
character. -/
def substituteFrom (groups : List (Pattern α)) (replace : List (List α) → List α) :
    Nat → Option α → List α → List α
  | _, _, [] => []
  | skip + 1, _, code :: rest => substituteFrom groups replace skip (some code) rest
  | 0, previous, code :: rest =>
      match match? groups previous (code :: rest) with
      | some (texts, left) =>
          replace texts ++
            substituteFrom groups replace (rest.length - left.length) (some code) rest
      | none => code :: substituteFrom groups replace 0 (some code) rest

/-- `re.sub` -/
def substitute (groups : List (Pattern α)) (replace : List (List α) → List α) (codes : List α) :
    List α :=
  substituteFrom groups replace 0 none codes

section Ways

variable {accepts : α → Bool} {previous : Option α} {codes taken left : List α}

@[simp] theorem lastOr_nil : lastOr previous [] = previous := rfl

theorem lastOr_append (first second : List α) :
    lastOr previous (first ++ second) = lastOr (lastOr previous first) second := by
  cases hsecond : second.getLast? with
  | none =>
      rw [List.getLast?_eq_none_iff] at hsecond
      rw [hsecond, List.append_nil, lastOr_nil]
  | some last => simp [lastOr, List.getLast?_append, hsecond]

theorem lastOr_cons (code : α) (rest : List α) :
    lastOr previous (code :: rest) = lastOr (some code) rest :=
  lastOr_append [code] rest

theorem mem_splits :
    (taken, left) ∈ splits accepts codes ↔
      taken ++ left = codes ∧ ∀ code ∈ taken, accepts code := by
  induction codes generalizing taken with
  | nil =>
      simp only [splits, List.mem_singleton, Prod.mk.injEq, List.append_eq_nil_iff]
      constructor
      · rintro ⟨rfl, rfl⟩
        simp
      · exact fun hsplit => hsplit.1
  | cons head tail ih =>
      cases taken with
      | nil =>
          have hrest : ([], left) ∈ splits accepts (head :: tail) ↔ left = head :: tail := by
            unfold splits
            split_ifs <;> simp
          rw [hrest]
          simp only [List.nil_append, List.not_mem_nil, false_implies, implies_true, and_true]
      | cons code others =>
          unfold splits
          split_ifs with hhead
          · simp only [List.mem_append, List.mem_map, Prod.mk.injEq, List.cons.injEq, Prod.exists,
              List.mem_singleton, List.cons_ne_nil, false_and, or_false, List.cons_append,
              List.forall_mem_cons]
            constructor
            · rintro ⟨rest, _, hmem, ⟨rfl, rfl⟩, rfl⟩
              obtain ⟨hrest, haccepts⟩ := ih.mp hmem
              exact ⟨⟨rfl, hrest⟩, hhead, haccepts⟩
            · rintro ⟨⟨rfl, hrest⟩, _, haccepts⟩
              exact ⟨others, left, ih.mpr ⟨hrest, haccepts⟩, ⟨rfl, rfl⟩, rfl⟩
          · simp only [List.mem_singleton, Prod.mk.injEq, List.cons_ne_nil, false_and,
              List.cons_append, List.cons.injEq, List.forall_mem_cons, false_iff]
            rintro ⟨⟨rfl, _⟩, hcode, _⟩
            exact hhead hcode

/-- The first way takes all there is. -/
theorem head?_splits :
    (splits accepts codes).head? = some (codes.takeWhile accepts, codes.dropWhile accepts) := by
  induction codes with
  | nil => rfl
  | cons head tail ih =>
      unfold splits
      split_ifs with hhead
      · rw [List.head?_append, List.head?_map, ih]
        simp [hhead]
      · simp [hhead]

/-- What is taken and what is left make up the text. -/
theorem append_of_mem_run {pattern : Pattern α}
    (hmem : (taken, left) ∈ pattern.run previous codes) : taken ++ left = codes := by
  induction pattern generalizing previous codes taken left with
  | empty =>
      simp only [Pattern.run, List.mem_singleton, Prod.mk.injEq] at hmem
      rw [hmem.1, hmem.2, List.nil_append]
  | one accepts =>
      cases codes with
      | nil => simp [Pattern.run] at hmem
      | cons code rest =>
          unfold Pattern.run at hmem
          split_ifs at hmem
          · simp only [List.mem_singleton, Prod.mk.injEq] at hmem
            rw [hmem.1, hmem.2, List.singleton_append]
          · simp at hmem
  | many accepts => exact (mem_splits.mp hmem).1
  | boundary isWord =>
      unfold Pattern.run at hmem
      split_ifs at hmem
      · simp only [List.mem_singleton, Prod.mk.injEq] at hmem
        rw [hmem.1, hmem.2, List.nil_append]
      · simp at hmem
  | seq first second ihfirst ihsecond =>
      simp only [Pattern.run, List.mem_flatMap, List.mem_map, Prod.exists, Prod.mk.injEq] at hmem
      obtain ⟨one, middle, hone, two, _, htwo, rfl, rfl⟩ := hmem
      rw [List.append_assoc, ihsecond htwo, ihfirst hone]
  | either first second ihfirst ihsecond =>
      rcases List.mem_append.mp hmem with hmem | hmem
      · exact ihfirst hmem
      · exact ihsecond hmem

theorem append_of_mem_runGroups {groups : List (Pattern α)} {texts : List (List α)}
    (hmem : (texts, left) ∈ runGroups groups previous codes) : texts.flatten ++ left = codes := by
  induction groups generalizing previous codes texts with
  | nil =>
      simp only [runGroups, List.mem_singleton, Prod.mk.injEq] at hmem
      rw [hmem.1, hmem.2, List.flatten_nil, List.nil_append]
  | cons group groups ih =>
      simp only [runGroups, List.mem_flatMap, List.mem_map, Prod.exists, Prod.mk.injEq] at hmem
      obtain ⟨one, middle, hone, others, _, hothers, rfl, rfl⟩ := hmem
      rw [List.flatten_cons, List.append_assoc, ih hothers, append_of_mem_run hone]

theorem append_of_match? {groups : List (Pattern α)} {texts : List (List α)}
    (hmatch : match? groups previous codes = some (texts, left)) : texts.flatten ++ left = codes :=
  append_of_mem_runGroups (List.mem_of_head? hmatch)

end Ways

section Order

variable {results : List α} {next : α → List β} {first : α}

/-- The first way of the first result, if it has any. -/
theorem head?_flatMap_of_head (hfirst : results.head? = some first) (hnext : next first ≠ []) :
    (results.flatMap next).head? = (next first).head? := by
  cases results with
  | nil => cases hfirst
  | cons head tail =>
      cases hfirst
      rw [List.flatMap_cons, List.head?_append]
      cases hways : next first with
      | nil => exact absurd hways hnext
      | cons way others => rfl

/-- If one result only can be continued, its first way counts. -/
theorem head?_flatMap_of_unique (hmem : first ∈ results)
    (hunique : ∀ result ∈ results, next result ≠ [] → result = first) :
    (results.flatMap next).head? = (next first).head? := by
  induction results with
  | nil => simp at hmem
  | cons head tail ih =>
      have htail := fun hmem => ih hmem fun result hresult =>
        hunique result (List.mem_cons_of_mem _ hresult)
      rw [List.flatMap_cons, List.head?_append]
      by_cases hhead : next head = []
      · rw [hhead, List.head?_nil, Option.none_or]
        rcases List.mem_cons.mp hmem with rfl | hmem
        · -- nothing can be continued
          have hnone : ∀ result ∈ tail, next result = [] := by
            intro result hresult
            by_contra hway
            have hsame := hunique result (List.mem_cons_of_mem _ hresult) hway
            exact hway (hsame ▸ hhead)
          rw [hhead, List.flatMap_eq_nil_iff.mpr hnone]
        · exact htail hmem
      · rw [hunique head List.mem_cons_self hhead]
        rw [hunique head List.mem_cons_self hhead] at hhead
        cases hways : next first with
        | nil => exact absurd hways hhead
        | cons way others => rfl

end Order

section Runs

variable {accepts : α → Bool} {previous : Option α} {code : α} {rest : List α}

theorem run_some'_cons : (Pattern.some' accepts).run previous (code :: rest) =
    if accepts code then (splits accepts rest).map fun result => (code :: result.1, result.2)
    else [] := by
  rw [Pattern.some', Pattern.run, Pattern.run]
  split_ifs
  · rw [List.flatMap_singleton]
    rfl
  · rfl

/-- A run of accepted characters is taken as a whole. -/
theorem match?_some' : match? [Pattern.some' accepts] previous (code :: rest) =
    if accepts code then some ([code :: rest.takeWhile accepts], rest.dropWhile accepts)
    else none := by
  rw [match?, runGroups, run_some'_cons]
  split_ifs
  · have hfirst : ((splits accepts rest).map fun result => (code :: result.1, result.2)).head? =
        some (code :: rest.takeWhile accepts, rest.dropWhile accepts) := by
      rw [List.head?_map, head?_splits]
      rfl
    rw [head?_flatMap_of_head hfirst (by simp [runGroups])]
    rfl
  · rfl

theorem match?_some'_nil : match? [Pattern.some' accepts] previous [] = none := rfl

end Runs

section Continuations

variable {accepts : α → Bool} {previous : Option α} {codes taken left : List α}
  {next : List α × List α → List β}

/-- The results of a pattern, each with its continuations. -/
def Pattern.ways (pattern : Pattern α) (previous : Option α) (codes : List α)
    (next : List α × List α → List β) : List β :=
  (pattern.run previous codes).flatMap next

theorem runGroups_cons (group : Pattern α) (groups : List (Pattern α)) :
    runGroups (group :: groups) previous codes = group.ways previous codes fun result =>
      (runGroups groups (lastOr previous result.1) result.2).map fun following =>
        (result.1 :: following.1, following.2) := rfl

theorem Pattern.ways_seq (first second : Pattern α) :
    (Pattern.seq first second).ways previous codes next =
      first.ways previous codes fun result =>
        second.ways (lastOr previous result.1) result.2 fun following =>
          next (result.1 ++ following.1, following.2) := by
  simp only [ways, run, List.flatMap_assoc, List.flatMap_map]

theorem Pattern.ways_one_cons (code : α) (rest : List α) :
    (Pattern.one accepts).ways previous (code :: rest) next =
      if accepts code then next ([code], rest) else [] := by
  unfold ways run
  split_ifs
  · exact List.flatMap_singleton _ _
  · rfl

theorem Pattern.ways_one_nil : (Pattern.one accepts).ways previous [] next = [] := rfl

theorem Pattern.ways_boundary (isWord : α → Bool) :
    (Pattern.boundary isWord).ways previous codes next =
      if previous.any isWord != codes.head?.any isWord then next ([], codes) else [] := by
  unfold ways run
  split_ifs
  · exact List.flatMap_singleton _ _
  · rfl

/-- Whether a text begins with one character of each class. -/
def accepted : List (α → Bool) → List α → Bool
  | [], _ => true
  | _ :: _, [] => false
  | accepts :: classes, code :: rest => accepts code && accepted classes rest

theorem Pattern.ways_word (classes : List (α → Bool)) :
    (Pattern.word classes).ways previous codes next =
      if accepted classes codes then next (codes.take classes.length, codes.drop classes.length)
      else [] := by
  induction classes generalizing previous codes next with
  | nil => exact List.flatMap_singleton _ _
  | cons accepts classes ih =>
      rw [word, ways_seq]
      cases codes with
      | nil => rfl
      | cons code rest =>
          rw [ways_one_cons, accepted]
          by_cases hcode : accepts code = true
          · rw [if_pos hcode, ih, hcode, Bool.true_and]
            rfl
          · rw [if_neg hcode, if_neg (by simp [hcode])]

/-- Where nothing goes on before an accepted character, all of them are taken. -/
theorem Pattern.ways_many
    (hstop : ∀ taken code rest, accepts code → next (taken, code :: rest) = []) :
    (Pattern.many accepts).ways previous codes next =
      next (codes.takeWhile accepts, codes.dropWhile accepts) := by
  unfold ways run
  induction codes generalizing next with
  | nil => exact List.flatMap_singleton _ _
  | cons code rest ih =>
      unfold splits
      split_ifs with hcode
      · have hrest := @ih (fun result => next (code :: result.1, result.2))
          fun taken other rest hother => hstop _ other rest hother
        rw [List.flatMap_append, List.flatMap_map, hrest, List.flatMap_singleton,
          hstop [] code rest hcode, List.append_nil, List.takeWhile_cons_of_pos hcode,
          List.dropWhile_cons_of_pos hcode]
      · rw [List.flatMap_singleton, List.takeWhile_cons_of_neg hcode,
          List.dropWhile_cons_of_neg hcode]

theorem Pattern.ways_some'
    (hstop : ∀ taken code rest, accepts code → next (taken, code :: rest) = []) :
    (Pattern.some' accepts).ways previous codes next =
      if codes.takeWhile accepts = [] then []
      else next (codes.takeWhile accepts, codes.dropWhile accepts) := by
  rw [some', ways_seq]
  cases codes with
  | nil => rfl
  | cons code rest =>
      rw [ways_one_cons]
      split_ifs with hcode hnone hnone
      · simp [hcode] at hnone
      · rw [List.takeWhile_cons_of_pos hcode, List.dropWhile_cons_of_pos hcode]
        exact @ways_many _ _ _ (lastOr previous [code]) rest
          (fun following => next (code :: following.1, following.2))
          fun taken other rest hother => hstop _ other rest hother
      · rfl
      · simp [hcode] at hnone

/-- An optional character is taken if there is one, where nothing goes on before it. -/
theorem Pattern.ways_optional
    (hstop : ∀ code rest, accepts code → next ([], code :: rest) = []) :
    (Pattern.optional accepts).ways previous codes next =
      if codes.head?.any accepts then next (codes.take 1, codes.drop 1) else next ([], codes) := by
  cases codes with
  | nil => simp [optional, ways, run]
  | cons code rest =>
      by_cases hcode : accepts code = true
      · simp [optional, ways, run, hcode, hstop code rest hcode]
      · simp [optional, ways, run, hcode]

theorem Pattern.run_some'_of_not_accepted {code : α} {rest : List α} (hcode : ¬ accepts code) :
    (Pattern.some' accepts).run previous (code :: rest) = [] := by
  rw [run_some'_cons, if_neg hcode]

end Continuations

section Groups

variable {accepts : α → Bool} {previous : Option α} {codes : List α} {groups : List (Pattern α)}

/-- A group in front of the others. -/
def withGroup (taken : List α) (result : List (List α) × List α) : List (List α) × List α :=
  (taken :: result.1, result.2)

/-- Two groups as one. -/
def joinGroups : List (List α) × List α → List (List α) × List α
  | (first :: second :: texts, left) => ((first ++ second) :: texts, left)
  | result => result

theorem match?_eq_none : match? groups previous codes = none ↔ runGroups groups previous codes = []
    := List.head?_eq_none_iff

theorem match?_boundary (isWord : α → Bool) : match? (.boundary isWord :: groups) previous codes =
    if previous.any isWord != codes.head?.any isWord then
      (match? groups previous codes).map (withGroup [])
    else none := by
  rw [match?, runGroups_cons, Pattern.ways_boundary]
  split_ifs
  · rw [List.head?_map]
    rfl
  · rfl

theorem match?_word (classes : List (α → Bool)) :
    match? (.word classes :: groups) previous codes =
      if accepted classes codes then
        (match? groups (lastOr previous (codes.take classes.length))
          (codes.drop classes.length)).map (withGroup (codes.take classes.length))
      else none := by
  rw [match?, runGroups_cons, Pattern.ways_word]
  split_ifs
  · rw [List.head?_map]
    rfl
  · rfl

theorem match?_one (code : α) (rest : List α) :
    match? (.one accepts :: groups) previous (code :: rest) =
      if accepts code then (match? groups (some code) rest).map (withGroup [code]) else none := by
  rw [match?, runGroups_cons, Pattern.ways_one_cons]
  split_ifs
  · rw [List.head?_map]
    rfl
  · rfl

theorem match?_one_nil : match? (.one accepts :: groups) previous [] = none := rfl

theorem match?_many
    (hstop : ∀ before code rest, accepts code → match? groups before (code :: rest) = none) :
    match? (.many accepts :: groups) previous codes =
      (match? groups (lastOr previous (codes.takeWhile accepts)) (codes.dropWhile accepts)).map
        (withGroup (codes.takeWhile accepts)) := by
  rw [match?, runGroups_cons, Pattern.ways_many, List.head?_map]
  · rfl
  · intro taken code rest hcode
    rw [List.map_eq_nil_iff]
    exact match?_eq_none.mp (hstop _ code rest hcode)

theorem match?_some'_cons
    (hstop : ∀ before code rest, accepts code → match? groups before (code :: rest) = none) :
    match? (.some' accepts :: groups) previous codes =
      if codes.takeWhile accepts = [] then none
      else (match? groups (lastOr previous (codes.takeWhile accepts))
        (codes.dropWhile accepts)).map (withGroup (codes.takeWhile accepts)) := by
  rw [match?, runGroups_cons, Pattern.ways_some']
  · split_ifs
    · rfl
    · rw [List.head?_map]
      rfl
  · intro taken code rest hcode
    rw [List.map_eq_nil_iff]
    exact match?_eq_none.mp (hstop _ code rest hcode)

/-- The longest run counts if the other groups go on after it. -/
theorem match?_some'_greedy
    (hgo : match? groups (lastOr previous (codes.takeWhile accepts)) (codes.dropWhile accepts) ≠
      none) :
    match? (.some' accepts :: groups) previous codes =
      if codes.takeWhile accepts = [] then none
      else (match? groups (lastOr previous (codes.takeWhile accepts))
        (codes.dropWhile accepts)).map (withGroup (codes.takeWhile accepts)) := by
  cases codes with
  | nil => rfl
  | cons code rest =>
      split_ifs with hnone
      · have hcode : ¬ accepts code := fun hcode => by simp [hcode] at hnone
        rw [match?, runGroups, run_some'_cons, if_neg hcode]
        rfl
      · have hcode : accepts code := by
          by_contra hcode
          exact hnone (List.takeWhile_cons_of_neg hcode)
        have hfirst : ((Pattern.some' accepts).run previous (code :: rest)).head? =
            some ((code :: rest).takeWhile accepts, (code :: rest).dropWhile accepts) := by
          rw [run_some'_cons, if_pos hcode, List.head?_map, head?_splits,
            List.takeWhile_cons_of_pos hcode, List.dropWhile_cons_of_pos hcode]
          rfl
        rw [match?, runGroups, head?_flatMap_of_head hfirst, List.head?_map]
        · rfl
        · rw [ne_eq, List.map_eq_nil_iff]
          exact fun hnil => hgo (match?_eq_none.mpr hnil)

theorem match?_some'_last : match? [.some' accepts] previous codes =
    if codes.takeWhile accepts = [] then none
    else some ([codes.takeWhile accepts], codes.dropWhile accepts) := by
  cases codes with
  | nil => rfl
  | cons code rest =>
      rw [match?_some']
      by_cases hcode : accepts code = true
      · simp [hcode]
      · simp [hcode]

theorem match?_optional
    (hstop : ∀ before code rest, accepts code → match? groups before (code :: rest) = none) :
    match? (.optional accepts :: groups) previous codes =
      if codes.head?.any accepts then
        (match? groups (lastOr previous (codes.take 1)) (codes.drop 1)).map
          (withGroup (codes.take 1))
      else (match? groups previous codes).map (withGroup []) := by
  rw [match?, runGroups_cons, Pattern.ways_optional]
  · split_ifs
    · rw [List.head?_map]
      rfl
    · rw [List.head?_map]
      rfl
  · intro code rest hcode
    rw [List.map_eq_nil_iff]
    exact match?_eq_none.mp (hstop _ code rest hcode)

theorem match?_optional_last : match? [.optional accepts] previous codes =
    if codes.head?.any accepts then some ([codes.take 1], codes.drop 1)
    else some ([[]], codes) := by
  cases codes with
  | nil => rfl
  | cons code rest =>
      by_cases hcode : accepts code = true
      · simp [match?, runGroups, Pattern.optional, Pattern.run, hcode]
      · simp [match?, runGroups, Pattern.optional, Pattern.run, hcode]

/-- A sequence is read as two groups. -/
theorem match?_seq (first second : Pattern α) :
    match? (.seq first second :: groups) previous codes =
      (match? (first :: second :: groups) previous codes).map joinGroups := by
  have hruns : runGroups (.seq first second :: groups) previous codes =
      (runGroups (first :: second :: groups) previous codes).map joinGroups := by
    rw [runGroups_cons, Pattern.ways_seq, runGroups_cons, Pattern.ways, Pattern.ways,
      List.map_flatMap]
    congr 1
    funext result
    rw [runGroups_cons, Pattern.ways, Pattern.ways, List.map_map, List.map_flatMap]
    congr 1
    funext following
    rw [List.map_map, lastOr_append]
    rfl
  rw [match?, hruns, List.head?_map]
  rfl

end Groups

section Maximal

variable {accepts : α → Bool} {codes run rest : List α}

/-- All the accepted characters at the beginning of a text, and what comes after them. -/
structure Maximal (accepts : α → Bool) (codes run rest : List α) : Prop where
  text : run ++ rest = codes
  accepted : ∀ code ∈ run, accepts code
  stop : ∀ code ∈ rest.head?, ¬ accepts code

theorem maximal_iff : Maximal accepts codes run rest ↔
    run = codes.takeWhile accepts ∧ rest = codes.dropWhile accepts := by
  constructor
  · rintro ⟨rfl, haccepted, hstop⟩
    cases rest with
    | nil =>
        rw [List.append_nil, List.takeWhile_eq_self_iff.mpr haccepted,
          List.dropWhile_eq_nil_iff.mpr haccepted]
        exact ⟨rfl, rfl⟩
    | cons code rest =>
        have hcode := hstop code rfl
        rw [List.takeWhile_append_of_pos haccepted, List.dropWhile_append_of_pos haccepted,
          List.takeWhile_cons_of_neg hcode, List.dropWhile_cons_of_neg hcode, List.append_nil]
        exact ⟨rfl, rfl⟩
  · rintro ⟨rfl, rfl⟩
    refine ⟨List.takeWhile_append_dropWhile, fun code hcode => List.mem_takeWhile_imp hcode, ?_⟩
    intro code hcode
    have hfirst := List.head?_dropWhile_not accepts codes
    rw [Option.mem_def.mp hcode] at hfirst
    simpa using hfirst

theorem maximal_takeWhile :
    Maximal accepts codes (codes.takeWhile accepts) (codes.dropWhile accepts) :=
  maximal_iff.mpr ⟨rfl, rfl⟩

end Maximal

section Substitution

variable {groups : List (Pattern α)} {replace : List (List α) → List α} {previous : Option α}
  {codes left : List α} {texts : List (List α)}

theorem substituteFrom_skip (taken left : List α) :
    substituteFrom groups replace taken.length previous (taken ++ left) =
      substituteFrom groups replace 0 (lastOr previous taken) left := by
  induction taken generalizing previous with
  | nil => rfl
  | cons code rest ih =>
      rw [List.length_cons, List.cons_append, substituteFrom, ih, lastOr_cons]

/-- A match is replaced, and the rest of the text goes on after it. -/
theorem substituteFrom_match (hmatch : match? groups previous codes = some (texts, left))
    (htaken : texts.flatten ≠ []) :
    substituteFrom groups replace 0 previous codes =
      replace texts ++ substituteFrom groups replace 0 (lastOr previous texts.flatten) left := by
  have hcodes := append_of_match? hmatch
  cases htexts : texts.flatten with
  | nil => exact absurd htexts htaken
  | cons code taken =>
      rw [htexts] at hcodes
      subst hcodes
      have hskip : (taken ++ left).length - left.length = taken.length := by
        rw [List.length_append, Nat.add_sub_cancel]
      rw [List.cons_append] at hmatch ⊢
      rw [substituteFrom, hmatch]
      simp only
      rw [hskip, substituteFrom_skip, lastOr_cons]

theorem substituteFrom_none {code : α} (hmatch : match? groups previous (code :: codes) = none) :
    substituteFrom groups replace 0 previous (code :: codes) =
      code :: substituteFrom groups replace 0 (some code) codes := by
  rw [substituteFrom, hmatch]

/-- Induction along a substitution: the text ends, a character is kept, or a match is replaced. -/
theorem substituteFrom_induction {motive : Option α → List α → List α → Prop}
    (htaken : ∀ previous codes texts left, match? groups previous codes = some (texts, left) →
      texts.flatten ≠ [])
    (hnil : ∀ previous, motive previous [] [])
    (hkeep : ∀ previous code rest, match? groups previous (code :: rest) = none →
      motive (some code) rest (substituteFrom groups replace 0 (some code) rest) →
      motive previous (code :: rest)
        (code :: substituteFrom groups replace 0 (some code) rest))
    (hreplace : ∀ previous codes texts left, match? groups previous codes = some (texts, left) →
      motive (lastOr previous texts.flatten) left
        (substituteFrom groups replace 0 (lastOr previous texts.flatten) left) →
      motive previous codes (replace texts ++
        substituteFrom groups replace 0 (lastOr previous texts.flatten) left))
    (previous : Option α) (codes : List α) :
    motive previous codes (substituteFrom groups replace 0 previous codes) := by
  induction hlength : codes.length using Nat.strong_induction_on generalizing previous codes with
  | h length ih =>
      cases codes with
      | nil => exact hnil previous
      | cons code rest =>
          cases hmatch : match? groups previous (code :: rest) with
          | none =>
              rw [substituteFrom_none hmatch]
              exact hkeep previous code rest hmatch
                (ih rest.length (by simp [← hlength]) (some code) rest rfl)
          | some result =>
              obtain ⟨texts, left⟩ := result
              have hne := htaken _ _ _ _ hmatch
              have hcodes := congrArg List.length (append_of_match? hmatch)
              have hpositive := List.length_pos_iff.mpr hne
              rw [substituteFrom_match hmatch hne]
              refine hreplace previous _ texts left hmatch (ih left.length ?_ _ left rfl)
              rw [List.length_append] at hcodes
              omega

end Substitution

end Regex
