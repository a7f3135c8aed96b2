/-
The two fixed-window rate limiters: one counts in the memory of its process, the other in a
Redis server that the processes share.
-/
import Mathlib.Algebra.Order.Ring.Rat
import Mathlib.Data.List.DropRight
import Mathlib.Logic.Function.Basic

namespace MuxivoConsole

structure RateLimitRule where
  limit : Nat
  windowSeconds : Nat
  limit_positive : 1 ≤ limit
  window_positive : 1 ≤ windowSeconds

structure RateLimitDecision where
  allowed : Bool
  retryAfterSeconds : Int := 0

/-- The configured rules by scope. -/
abbrev RateLimitRules := String → Option RateLimitRule

/-- One `check` call, and what the clock says then. -/
structure RateLimitCheck where
  scope : String
  key : String
  now : ℚ

structure RateLimitBucket where
  count : Nat
  resetAt : ℚ

/-- `InMemoryFixedWindowRateLimiter._buckets` -/
abbrev RateLimitBuckets := String × String → Option RateLimitBucket

/-- `InMemoryFixedWindowRateLimiter.check` -/
def InMemoryFixedWindowRateLimiter.check (rules : RateLimitRules) (buckets : RateLimitBuckets)
    (call : RateLimitCheck) : RateLimitBuckets × RateLimitDecision :=
  match rules call.scope with
  | none => (buckets, { allowed := true })
  | some rule =>
      let bucketKey := (call.scope, call.key)
      let opened := Function.update buckets bucketKey
        (some { count := 1, resetAt := call.now + rule.windowSeconds })
      match buckets bucketKey with
      | none => (opened, { allowed := true })
      | some bucket =>
          if bucket.resetAt ≤ call.now then (opened, { allowed := true })
          else if rule.limit ≤ bucket.count then
            (buckets,
              { allowed := false
                retryAfterSeconds := max 1 (bucket.resetAt - call.now).floor })
          else
            (Function.update buckets bucketKey (some { bucket with count := bucket.count + 1 }),
              { allowed := true })

/-- An integer in Redis; without an expiry it stays. -/
structure RedisCounter where
  value : Nat
  expiresAt : Option ℚ

abbrev Redis := String → Option RedisCounter

namespace Redis

/-- A key is absent from the instant its time to live has elapsed. -/
def find (redis : Redis) (now : ℚ) (key : String) : Option RedisCounter :=
  (redis key).filter fun counter => counter.expiresAt.all fun expiresAt => decide (now < expiresAt)

/-- `INCR` -/
def incr (redis : Redis) (now : ℚ) (key : String) : Redis × Nat :=
  match redis.find now key with
  | none => (Function.update redis key (some ⟨1, none⟩), 1)
  | some counter =>
      (Function.update redis key (some { counter with value := counter.value + 1 }),
        counter.value + 1)

/-- `EXPIRE` -/
def expire (redis : Redis) (now : ℚ) (key : String) (seconds : Nat) : Redis :=
  match redis.find now key with
  | none => redis
  | some counter =>
      Function.update redis key (some { counter with expiresAt := some (now + seconds) })

/-- `TTL`: the milliseconds that are left, rounded to seconds. -/
def ttl (redis : Redis) (now : ℚ) (key : String) : Int :=
  match redis.find now key with
  | none => -2
  | some counter =>
      match counter.expiresAt with
      | none => -1
      | some expiresAt => (((expiresAt - now) * 1000).floor + 500) / 1000

end Redis

/-- `RedisFixedWindowCounter.increment_windowed`: its script runs as one command. -/
def RedisFixedWindowCounter.incrementWindowed (redis : Redis) (now : ℚ) (key : String)
    (windowSeconds : Nat) : Redis × Nat × Int :=
  let (counted, current) := redis.incr now key
  let expiring := if current = 1 then counted.expire now key windowSeconds else counted
  (expiring, current, max 1 (expiring.ttl now key))

/-- `hexdigest` is what hashlib computes for a text. -/
structure RedisFixedWindowRateLimiter where
  rules : RateLimitRules
  keyPrefix : String
  hexdigest : String → String

namespace RedisFixedWindowRateLimiter

/-- `key_prefix.rstrip(":")` -/
def strippedPrefix (limiter : RedisFixedWindowRateLimiter) : String :=
  String.ofList (limiter.keyPrefix.toList.rdropWhile (· == ':'))

/-- What `_redis_key` hashes. -/
def keyText (scope key : String) : String :=
  scope ++ ":" ++ key

/-- `RedisFixedWindowRateLimiter._redis_key` -/
def redisKey (limiter : RedisFixedWindowRateLimiter) (scope key : String) : String :=
  limiter.strippedPrefix ++ ":" ++ scope ++ ":" ++ limiter.hexdigest (keyText scope key)

/-- `RedisFixedWindowRateLimiter.check`; an unreachable backend counts nothing. -/
def check (limiter : RedisFixedWindowRateLimiter) (reachable : Bool) (redis : Redis)
    (call : RateLimitCheck) : Redis × RateLimitDecision :=
  match limiter.rules call.scope with
  | none => (redis, { allowed := true })
  | some rule =>
      if reachable then
        let (counted, count, ttl) := RedisFixedWindowCounter.incrementWindowed redis call.now
          (limiter.redisKey call.scope call.key) rule.windowSeconds
        if rule.limit < count then (counted, { allowed := false, retryAfterSeconds := ttl })
        else (counted, { allowed := true })
      else (redis, { allowed := false, retryAfterSeconds := rule.windowSeconds })

end RedisFixedWindowRateLimiter

end MuxivoConsole
