/-
Both rate limiters enforce the fixed-window policy, so they decide alike.
-/
import MuxivoConsole.FixedWindow.Policy
import MuxivoConsole.Infrastructure.RateLimiters

namespace MuxivoConsole

open FixedWindow

/-- What the rules ask for, scope and key being what is limited. -/
def windowRules (rules : RateLimitRules) : String × String → Option (Rule ℚ) :=
  fun pair => (rules pair.1).map fun rule => ⟨rule.limit, rule.windowSeconds⟩

def RateLimitCheck.call (check : RateLimitCheck) : Call (String × String) ℚ where
  key := (check.scope, check.key)
  time := check.now

section InMemory

variable {rules : RateLimitRules}

/-- A bucket stops counting at the limit. -/
def Capped (rules : RateLimitRules) (buckets : RateLimitBuckets)
    (windows : Windows (String × String) ℚ) : Prop :=
  ∀ pair rule, rules pair.1 = some rule →
    buckets pair = (windows pair).map fun window => ⟨min window.calls rule.limit, window.closesAt⟩

/-- What the limiter does with the bucket of a limited scope. -/
theorem check_of_rule {rule : RateLimitRule} {check : RateLimitCheck}
    {buckets : RateLimitBuckets} (hrule : rules check.scope = some rule)
    {window : Option (Window ℚ)}
    (hbucket : buckets (check.scope, check.key) =
      window.map fun window => ⟨min window.calls rule.limit, window.closesAt⟩)
    {entered : Window ℚ}
    (hentered : Window.enter ⟨rule.limit, (rule.windowSeconds : ℚ)⟩ check.now window = entered) :
    (InMemoryFixedWindowRateLimiter.check rules buckets check).1 =
        Function.update buckets (check.scope, check.key)
          (some ⟨min entered.calls rule.limit, entered.closesAt⟩) ∧
      (InMemoryFixedWindowRateLimiter.check rules buckets check).2.allowed =
        decide (entered.calls ≤ rule.limit) := by
  have hlimit := rule.limit_positive
  unfold InMemoryFixedWindowRateLimiter.check
  rw [hrule]
  subst hentered
  cases window with
  | none =>
      rw [Option.map_none] at hbucket
      simp only [hbucket, Window.enter]
      rw [min_eq_left hlimit]
      exact ⟨rfl, by simp [hlimit]⟩
  | some opened =>
      rw [Option.map_some] at hbucket
      simp only [hbucket, Window.enter]
      by_cases hclosed : opened.closesAt ≤ check.now
      · simp only [if_pos hclosed]
        rw [min_eq_left hlimit]
        exact ⟨rfl, by simp [hlimit]⟩
      · simp only [if_neg hclosed]
        by_cases hfull : rule.limit ≤ opened.calls
        · -- A full bucket is left as it is.
          have hsame : buckets = Function.update buckets (check.scope, check.key)
              (some ⟨min opened.calls rule.limit, opened.closesAt⟩) := by
            rw [← hbucket, Function.update_eq_self]
          have hcap : min (opened.calls + 1) rule.limit = min opened.calls rule.limit := by
            omega
          rw [if_pos (by omega), hcap]
          exact ⟨hsame, by simp; omega⟩
        · have hcap : min (opened.calls + 1) rule.limit = min opened.calls rule.limit + 1 := by
            omega
          rw [if_neg (by omega), hcap]
          exact ⟨rfl, by simp; omega⟩

theorem capped_step (check : RateLimitCheck) (buckets : RateLimitBuckets)
    (windows : Windows (String × String) ℚ) (hcapped : Capped rules buckets windows) :
    Capped rules (InMemoryFixedWindowRateLimiter.check rules buckets check).1
        (step (windowRules rules) windows check.call).1 ∧
      (InMemoryFixedWindowRateLimiter.check rules buckets check).2.allowed =
        (step (windowRules rules) windows check.call).2 := by
  cases hrule : rules check.scope with
  | none =>
      have hnone : windowRules rules check.call.key = none := by
        simp [windowRules, RateLimitCheck.call, hrule]
      rw [step_of_none hnone]
      unfold InMemoryFixedWindowRateLimiter.check
      rw [hrule]
      exact ⟨hcapped, rfl⟩
  | some rule =>
      have hsome : windowRules rules check.call.key =
          some ⟨rule.limit, (rule.windowSeconds : ℚ)⟩ := by
        simp [windowRules, RateLimitCheck.call, hrule]
      obtain ⟨hbuckets, hallowed⟩ := check_of_rule hrule
        (hcapped (check.scope, check.key) rule hrule) rfl
      rw [step_of_some hsome rfl, hbuckets]
      refine ⟨?_, hallowed⟩
      intro pair other hother
      by_cases hpair : pair = (check.scope, check.key)
      · rw [hpair, hrule] at hother
        cases hother
        rw [hpair]
        change _ = (Function.update windows (check.scope, check.key) _ _).map _
        rw [Function.update_self, Function.update_self]
        rfl
      · change _ = (Function.update windows (check.scope, check.key) _ _).map _
        rw [Function.update_of_ne hpair, Function.update_of_ne hpair]
        exact hcapped pair other hother

end InMemory

section Shared

variable {limiter : RedisFixedWindowRateLimiter} {checks : List RateLimitCheck}

/-- The limiter keeps the checks apart by the digests of what they are about. -/
structure Digested (limiter : RedisFixedWindowRateLimiter) (checks : List RateLimitCheck) :
    Prop where
  length : ∀ text, (limiter.hexdigest text).length = 64
  injective : ∀ first ∈ checks, ∀ second ∈ checks,
    limiter.hexdigest (RedisFixedWindowRateLimiter.keyText first.scope first.key) =
        limiter.hexdigest (RedisFixedWindowRateLimiter.keyText second.scope second.key) →
      RedisFixedWindowRateLimiter.keyText first.scope first.key =
        RedisFixedWindowRateLimiter.keyText second.scope second.key

/-- The digests have one length, so a key can be taken apart. -/
theorem Digested.redisKey_injective (hdigested : Digested limiter checks)
    {first second : RateLimitCheck} (hfirst : first ∈ checks) (hsecond : second ∈ checks)
    (hkey : limiter.redisKey first.scope first.key = limiter.redisKey second.scope second.key) :
    (first.scope, first.key) = (second.scope, second.key) := by
  have hchars := congrArg String.toList hkey
  simp only [RedisFixedWindowRateLimiter.redisKey, String.toList_append] at hchars
  have hlengths : (limiter.hexdigest (RedisFixedWindowRateLimiter.keyText first.scope
      first.key)).toList.length = (limiter.hexdigest (RedisFixedWindowRateLimiter.keyText
        second.scope second.key)).toList.length := by
    rw [String.length_toList, String.length_toList, hdigested.length, hdigested.length]
  obtain ⟨hfront, hdigest⟩ := List.append_inj' hchars hlengths
  have hscope : first.scope = second.scope := by
    have hparts := List.append_cancel_right hfront
    exact String.toList_inj.mp (List.append_cancel_left hparts)
  have htext := hdigested.injective first hfirst second hsecond (String.toList_inj.mp hdigest)
  have hkeys := congrArg String.toList htext
  simp only [RedisFixedWindowRateLimiter.keyText, String.toList_append, hscope] at hkeys
  rw [hscope, String.toList_inj.mp (List.append_cancel_left hkeys)]

/-- The counters of the checks are the windows, and expire when these close. -/
def CountedBy (limiter : RedisFixedWindowRateLimiter) (checks : List RateLimitCheck)
    (redis : Redis) (windows : Windows (String × String) ℚ) : Prop :=
  ∀ check ∈ checks,
    redis (limiter.redisKey check.scope check.key) =
        (windows (check.scope, check.key)).map (fun window =>
          ⟨window.calls, some window.closesAt⟩) ∧
      ∀ window, windows (check.scope, check.key) = some window → 1 ≤ window.calls

/-- The script counts the call in its window. -/
theorem incrementWindowed_eq {redis : Redis} {now : ℚ} {key : String} {windowSeconds : Nat}
    {window : Option (Window ℚ)}
    (hcounter : redis key = window.map fun window => ⟨window.calls, some window.closesAt⟩)
    (hcalls : ∀ opened, window = some opened → 1 ≤ opened.calls)
    (limit : Nat) :
    (RedisFixedWindowCounter.incrementWindowed redis now key windowSeconds).1 =
        Function.update redis key
          (some ⟨(Window.enter ⟨limit, (windowSeconds : ℚ)⟩ now window).calls,
            some (Window.enter ⟨limit, (windowSeconds : ℚ)⟩ now window).closesAt⟩) ∧
      (RedisFixedWindowCounter.incrementWindowed redis now key windowSeconds).2.1 =
        (Window.enter ⟨limit, (windowSeconds : ℚ)⟩ now window).calls := by
  -- A new counter has no expiry until the script sets it.
  have hfirst : redis.find now key = none →
      (RedisFixedWindowCounter.incrementWindowed redis now key windowSeconds).1 =
          Function.update redis key (some ⟨1, some (now + windowSeconds)⟩) ∧
        (RedisFixedWindowCounter.incrementWindowed redis now key windowSeconds).2.1 = 1 := by
    intro hnone
    have hcounted : Redis.find (Function.update redis key (some ⟨1, none⟩)) now key =
        some ⟨1, none⟩ := by
      simp [Redis.find]
    simp only [RedisFixedWindowCounter.incrementWindowed, Redis.incr, hnone, ↓reduceIte,
      Redis.expire, hcounted, Function.update_idem, and_self]
  cases window with
  | none =>
      exact hfirst (by rw [Redis.find, hcounter]; rfl)
  | some opened =>
      rw [Option.map_some] at hcounter
      by_cases hclosed : opened.closesAt ≤ now
      · have hnone : redis.find now key = none := by
          simp [Redis.find, hcounter, Option.filter, not_lt.mpr hclosed]
        rw [Window.enter, if_pos hclosed]
        exact hfirst hnone
      · have hfound : redis.find now key = some ⟨opened.calls, some opened.closesAt⟩ := by
          simp [Redis.find, hcounter, Option.filter, not_le.mp hclosed]
        have hmore : opened.calls + 1 ≠ 1 := by
          have hpositive := hcalls opened rfl
          omega
        rw [Window.enter, if_neg hclosed]
        simp only [RedisFixedWindowCounter.incrementWindowed, Redis.incr, hfound,
          if_neg hmore, and_self]

theorem countedBy_step (hdigested : Digested limiter checks) (check : RateLimitCheck)
    (hcheck : check ∈ checks) (redis : Redis) (windows : Windows (String × String) ℚ)
    (hcounted : CountedBy limiter checks redis windows) :
    CountedBy limiter checks (limiter.check true redis check).1
        (step (windowRules limiter.rules) windows check.call).1 ∧
      (limiter.check true redis check).2.allowed =
        (step (windowRules limiter.rules) windows check.call).2 := by
  cases hrule : limiter.rules check.scope with
  | none =>
      have hnone : windowRules limiter.rules check.call.key = none := by
        simp [windowRules, RateLimitCheck.call, hrule]
      rw [step_of_none hnone]
      unfold RedisFixedWindowRateLimiter.check
      rw [hrule]
      exact ⟨hcounted, rfl⟩
  | some rule =>
      have hsome : windowRules limiter.rules check.call.key =
          some ⟨rule.limit, (rule.windowSeconds : ℚ)⟩ := by
        simp [windowRules, RateLimitCheck.call, hrule]
      obtain ⟨hcounter, hcalls⟩ := hcounted check hcheck
      obtain ⟨entered, hentered⟩ : ∃ entered, Window.enter
          ⟨rule.limit, (rule.windowSeconds : ℚ)⟩ check.now (windows (check.scope, check.key)) =
            entered := ⟨_, rfl⟩
      have hpositive : 1 ≤ entered.calls := hentered ▸ Window.enter_positive _ _ _
      obtain ⟨hredis, hcount⟩ := @incrementWindowed_eq redis check.now
        (limiter.redisKey check.scope check.key) rule.windowSeconds _ hcounter hcalls rule.limit
      rw [hentered] at hredis hcount
      have hchecked : (limiter.check true redis check).1 =
            Function.update redis (limiter.redisKey check.scope check.key)
              (some ⟨entered.calls, some entered.closesAt⟩) ∧
          (limiter.check true redis check).2.allowed = decide (entered.calls ≤ rule.limit) := by
        unfold RedisFixedWindowRateLimiter.check
        rw [hrule]
        dsimp only
        rw [if_pos rfl, hcount]
        by_cases hdenied : rule.limit < entered.calls
        · rw [if_pos hdenied]
          exact ⟨hredis, by simp [hdenied]⟩
        · rw [if_neg hdenied]
          exact ⟨hredis, by simp [not_lt.mp hdenied]⟩
      rw [step_of_some hsome hentered, hchecked.1]
      refine ⟨?_, hchecked.2⟩
      intro other hother
      change _ = (Function.update windows (check.scope, check.key) _ _).map _ ∧
        ∀ window, Function.update windows (check.scope, check.key) _ _ = some window → _
      by_cases hpair : (other.scope, other.key) = (check.scope, check.key)
      · have hscope : other.scope = check.scope := congrArg Prod.fst hpair
        have hkey : other.key = check.key := congrArg Prod.snd hpair
        rw [hscope, hkey, Function.update_self, Function.update_self]
        refine ⟨rfl, ?_⟩
        intro window hwindow
        cases hwindow
        exact hpositive
      · have hredisKey : limiter.redisKey other.scope other.key ≠
            limiter.redisKey check.scope check.key := fun hsame =>
          hpair (hdigested.redisKey_injective hother hcheck hsame)
        rw [Function.update_of_ne hpair, Function.update_of_ne hredisKey]
        exact hcounted other hother

end Shared

section Agreement

/-- The check finds no bucket that still counts. -/
def OpensBucket (buckets : RateLimitBuckets) (check : RateLimitCheck) : Prop :=
  ∀ bucket, buckets (check.scope, check.key) = some bucket → bucket.resetAt ≤ check.now

/-- How many checks of this scope and key are allowed before the instant. -/
def allowedBefore (check : RateLimitCheck) (closesAt : ℚ) (checks : List RateLimitCheck)
    (decisions : List RateLimitDecision) : Nat :=
  (checks.zip decisions).countP fun entry =>
    decide ((entry.1.scope, entry.1.key) = (check.scope, check.key)) &&
      decide (entry.1.now < closesAt) && entry.2.allowed

theorem allowedBefore_eq (check : RateLimitCheck) (closesAt : ℚ) (checks : List RateLimitCheck)
    (decisions : List RateLimitDecision) :
    allowedBefore check closesAt checks decisions =
      admitted check.call.key closesAt (checks.map RateLimitCheck.call)
        (decisions.map RateLimitDecision.allowed) := by
  rw [admitted, List.zip_map, List.countP_map]
  rfl

variable {limiter : RedisFixedWindowRateLimiter} {checks : List RateLimitCheck}

/-- Both limiters, started empty, follow the policy. -/
theorem inMemory_follows (rules : RateLimitRules) (checks : List RateLimitCheck) :
    Capped rules (after (InMemoryFixedWindowRateLimiter.check rules) (fun _ => none) checks)
        (after (step (windowRules rules)) (fun _ => none) (checks.map RateLimitCheck.call)) ∧
      (answers (InMemoryFixedWindowRateLimiter.check rules) (fun _ => none) checks).map
          RateLimitDecision.allowed =
        answers (step (windowRules rules)) (fun _ => none)
          (checks.map RateLimitCheck.call) := by
  have hstart : Capped rules (fun _ => none) (fun _ => none) := fun _ _ _ => rfl
  obtain ⟨hcapped, hanswers⟩ := @simulation _ _ _ _ _ _ _ (step (windowRules rules)) _
    RateLimitCheck.call RateLimitDecision.allowed id checks
    (fun check _ buckets windows hcapped => capped_step check buckets windows hcapped) _ _ hstart
  rw [List.map_id] at hanswers
  exact ⟨hcapped, hanswers⟩

theorem redis_follows (hdigested : Digested limiter checks) {earlier : List RateLimitCheck}
    (hearlier : earlier ⊆ checks) :
    CountedBy limiter checks (after (limiter.check true) (fun _ => none) earlier)
        (after (step (windowRules limiter.rules)) (fun _ => none)
          (earlier.map RateLimitCheck.call)) ∧
      (answers (limiter.check true) (fun _ => none) earlier).map RateLimitDecision.allowed =
        answers (step (windowRules limiter.rules)) (fun _ => none)
          (earlier.map RateLimitCheck.call) := by
  have hstart : CountedBy limiter checks (fun _ => none) (fun _ => none) := by
    intro check hcheck
    refine ⟨rfl, ?_⟩
    intro window hwindow
    cases hwindow
  obtain ⟨hcounted, hanswers⟩ := @simulation _ _ _ _ _ _ _ (step (windowRules limiter.rules)) _
    RateLimitCheck.call RateLimitDecision.allowed id earlier
    (fun check hcheck redis windows hcounted =>
      countedBy_step hdigested check (hearlier hcheck) redis windows hcounted) _ _ hstart
  rw [List.map_id] at hanswers
  exact ⟨hcounted, hanswers⟩

end Agreement

namespace Scenario

/-- One login attempt a minute, and digests that keep short texts apart. -/
def loginLimiter : RedisFixedWindowRateLimiter where
  rules scope := if scope = "login" then some ⟨1, 60, by decide, by decide⟩ else none
  keyPrefix := "muxivo-console:rate-limit"
  hexdigest text := String.ofList ((text.toList ++ List.replicate 64 '0').take 64)

/-- Two attempts within the minute of the first, and one when it is over. -/
def attempts : List RateLimitCheck :=
  [⟨"login", "a", 0⟩, ⟨"login", "b", 30⟩, ⟨"login", "a", 30⟩, ⟨"login", "a", 60⟩]

theorem attempts_digested : Digested loginLimiter attempts where
  length text := by
    rw [loginLimiter]
    simp
  injective := by
    have hdigests : ∀ first ∈ ["login:a", "login:b"], ∀ second ∈ ["login:a", "login:b"],
        loginLimiter.hexdigest first = loginLimiter.hexdigest second → first = second := by
      decide +kernel
    have htexts : ∀ check ∈ attempts, RedisFixedWindowRateLimiter.keyText check.scope check.key ∈
        ["login:a", "login:b"] := by
      decide +kernel
    intro first hfirst second hsecond hsame
    exact hdigests _ (htexts first hfirst) _ (htexts second hsecond) hsame

end Scenario

end MuxivoConsole
