/-
When the delay that a denied caller is told is enough: the time that is left of the window is
rounded down, so a caller that waits exactly so long may come back too early.
-/
import Mathlib.Data.Rat.Floor
import MuxivoConsole.Infrastructure.RateLimiters

namespace MuxivoConsole

namespace InMemoryFixedWindowRateLimiter

/-- The buckets after some checks. -/
def afterChecks (rules : RateLimitRules) (buckets : RateLimitBuckets)
    (calls : List RateLimitCheck) : RateLimitBuckets :=
  calls.foldl (fun buckets call => (check rules buckets call).1) buckets

section Steps

variable {rules : RateLimitRules} {buckets : RateLimitBuckets} {call : RateLimitCheck}

/-- A denied check has met an open window, leaves it as it is, and tells what is left of it. -/
theorem check_denied (hdenied : (check rules buckets call).2.allowed = false) :
    ∃ rule bucket, rules call.scope = some rule ∧
      buckets (call.scope, call.key) = some bucket ∧ call.now < bucket.resetAt ∧
      rule.limit ≤ bucket.count ∧ (check rules buckets call).1 = buckets ∧
      (check rules buckets call).2.retryAfterSeconds =
        max 1 (bucket.resetAt - call.now).floor := by
  unfold check at hdenied ⊢
  cases hrule : rules call.scope with
  | none =>
      rw [hrule] at hdenied
      cases hdenied
  | some rule =>
      cases hbucket : buckets (call.scope, call.key) with
      | none =>
          simp only [hrule, hbucket] at hdenied
          cases hdenied
      | some bucket =>
          simp only [hrule, hbucket] at hdenied ⊢
          split_ifs at hdenied with hreset hfull
          exact ⟨rule, bucket, rfl, rfl, not_le.mp hreset, hfull, by simp [hreset, hfull],
            by simp [hreset, hfull]⟩

/-- A check of a full bucket is allowed exactly from the end of its window on. -/
theorem check_full {rule : RateLimitRule} {bucket : RateLimitBucket}
    (hrule : rules call.scope = some rule)
    (hbucket : buckets (call.scope, call.key) = some bucket) (hfull : rule.limit ≤ bucket.count) :
    (check rules buckets call).2.allowed = true ↔ bucket.resetAt ≤ call.now := by
  unfold check
  simp only [hrule, hbucket]
  split_ifs with hreset
  · simp [hreset]
  · simp [hreset]

/-- A check leaves the buckets of all other keys alone. -/
theorem check_other {scope key : String} (hother : (call.scope, call.key) ≠ (scope, key)) :
    (check rules buckets call).1 (scope, key) = buckets (scope, key) := by
  unfold check
  cases hrule : rules call.scope with
  | none => rfl
  | some rule =>
      cases hbucket : buckets (call.scope, call.key) with
      | none => simp [hbucket, Function.update_of_ne hother.symm]
      | some bucket =>
          simp only [hbucket]
          split_ifs <;> simp [Function.update_of_ne hother.symm]

theorem afterChecks_other {scope key : String} {calls : List RateLimitCheck}
    (hothers : ∀ other ∈ calls, (other.scope, other.key) ≠ (scope, key)) :
    afterChecks rules buckets calls (scope, key) = buckets (scope, key) := by
  induction calls generalizing buckets with
  | nil => rfl
  | cons head tail ih =>
      have htail := @ih (check rules buckets head).1
        fun other hmem => hothers other (List.mem_cons_of_mem _ hmem)
      rw [afterChecks, List.foldl_cons]
      exact htail.trans (check_other (hothers head List.mem_cons_self))

end Steps

/-- The delay is at least what is left of the window exactly if less than a second or a whole
number of seconds is left. -/
theorem delay_covers_iff {left : ℚ} :
    left ≤ (max 1 left.floor : ℤ) ↔ left < 1 ∨ ∃ seconds : ℕ, left = seconds := by
  have hfloor : (left.floor : ℚ) ≤ left := Int.floor_le left
  constructor
  · intro hcovers
    rcases lt_or_ge left 1 with hsmall | hlarge
    · exact Or.inl hsmall
    · have hone : 1 ≤ left.floor := Int.le_floor.mpr (by exact_mod_cast hlarge)
      rw [max_eq_right hone] at hcovers
      refine Or.inr ⟨left.floor.toNat, ?_⟩
      have hcast : ((left.floor.toNat : ℤ) : ℚ) = left.floor := by
        rw [Int.toNat_of_nonneg (by omega)]
      rw [← Int.cast_natCast, hcast]
      exact le_antisymm hcovers hfloor
  · rintro (hsmall | ⟨seconds, hseconds⟩)
    · have hone : (1 : ℚ) ≤ (max 1 left.floor : ℤ) := by
        exact_mod_cast le_max_left 1 left.floor
      exact hsmall.le.trans hone
    · have hwhole : left.floor = seconds := by
        rw [hseconds]
        change ⌊(seconds : ℚ)⌋ = (seconds : ℤ)
        exact Int.floor_natCast seconds
      rw [hwhole, hseconds]
      exact_mod_cast le_max_right (1 : ℤ) seconds

/-- After a denial, every later check of the same scope and key that waits for the delay, with no
check of them in between, is allowed exactly if the window that was open had less than a second or a
whole number of seconds left. -/
theorem retry_after_sound_iff (rules : RateLimitRules) (history : List RateLimitCheck)
    (call : RateLimitCheck)
    (hdenied : (check rules (afterChecks rules (fun _ => none) history) call).2.allowed = false) :
    (∀ (between : List RateLimitCheck) (later : RateLimitCheck),
      (∀ other ∈ between, (other.scope, other.key) ≠ (call.scope, call.key)) →
      later.scope = call.scope → later.key = call.key →
      call.now + (check rules (afterChecks rules (fun _ => none) history)
        call).2.retryAfterSeconds ≤ later.now →
      (check rules (afterChecks rules (fun _ => none) (history ++ call :: between))
        later).2.allowed = true) ↔
    ∃ bucket, afterChecks rules (fun _ => none) history (call.scope, call.key) = some bucket ∧
      (bucket.resetAt - call.now < 1 ∨ ∃ seconds : ℕ, bucket.resetAt - call.now = seconds) := by
  obtain ⟨rule, bucket, hrule, hbucket, _, hfull, hsame, hdelay⟩ := check_denied hdenied
  rw [hdelay]
  -- the bucket is still the one that was full when the later check comes
  have hkept : ∀ between : List RateLimitCheck,
      (∀ other ∈ between, (other.scope, other.key) ≠ (call.scope, call.key)) →
      afterChecks rules (fun _ => none) (history ++ call :: between) (call.scope, call.key) =
        some bucket := by
    intro between hothers
    have hafter := @afterChecks_other rules
      (check rules (afterChecks rules (fun _ => none) history) call).1 _ _ _ hothers
    rw [hsame, hbucket] at hafter
    rw [afterChecks, List.foldl_append, List.foldl_cons]
    rw [← hafter, afterChecks, ← hsame]
    rfl
  have hallowed : ∀ between later, (∀ other ∈ between, (other.scope, other.key) ≠
      (call.scope, call.key)) → later.scope = call.scope → later.key = call.key →
      ((check rules (afterChecks rules (fun _ => none) (history ++ call :: between))
        later).2.allowed = true ↔ bucket.resetAt ≤ later.now) := by
    intro between later hothers hscope hkey
    refine @check_full _ _ _ rule _ ?_ ?_ hfull
    · rw [hscope, hrule]
    · rw [hscope, hkey, hkept between hothers]
  constructor
  · intro hsound
    refine ⟨bucket, hbucket, delay_covers_iff.mp ?_⟩
    let later : RateLimitCheck :=
      { call with now := call.now + (max 1 (bucket.resetAt - call.now).floor : ℤ) }
    have hwaited := hsound [] later (by simp) rfl rfl le_rfl
    exact sub_le_iff_le_add'.mpr ((hallowed [] later (by simp) rfl rfl).mp hwaited)
  · rintro ⟨found, hfound, hcovers⟩ between later hothers hscope hkey hlater
    rw [hbucket] at hfound
    cases hfound
    have hdelayed := delay_covers_iff.mpr hcovers
    exact (hallowed between later hothers hscope hkey).mpr
      ((sub_le_iff_le_add'.mp hdelayed).trans hlater)

/-- One login in two seconds. -/
def twoSecondRules : RateLimitRules := fun _ => some ⟨1, 2, Nat.one_pos, Nat.two_pos⟩

/-- A whole second is left, and waiting for it is enough. -/
theorem retry_after_sound_whole :
    (check twoSecondRules (afterChecks twoSecondRules (fun _ => none)
      ([⟨"login", "user", 0⟩] ++ [⟨"login", "user", 1⟩])) ⟨"login", "user", 2⟩).2.allowed =
        true := by
  refine (retry_after_sound_iff twoSecondRules [⟨"login", "user", 0⟩] ⟨"login", "user", 1⟩
    (by decide +kernel)).mpr ⟨⟨1, 0 + (2 : ℕ)⟩, rfl, Or.inr ⟨1, by norm_num⟩⟩ [] _ (by simp)
      rfl rfl ?_
  decide +kernel

/-- One and a half seconds are left, the caller is told one, and is denied again after it. -/
theorem retry_after_too_early :
    let history : List RateLimitCheck := [⟨"login", "user", 0⟩]
    let buckets := afterChecks twoSecondRules (fun _ => none) history
    let denied := (check twoSecondRules buckets ⟨"login", "user", 1 / 2⟩).2
    denied.allowed = false ∧ denied.retryAfterSeconds = 1 ∧
      (check twoSecondRules (afterChecks twoSecondRules (fun _ => none)
        (history ++ [⟨"login", "user", 1 / 2⟩])) ⟨"login", "user", 3 / 2⟩).2.allowed = false := by
  decide +kernel

end InMemoryFixedWindowRateLimiter

end MuxivoConsole
