/-
The two adapters of the one-time token port.  One sends documented commands to
a Redis server, which keeps its own clock; the other keeps a dictionary of the
process and reads the clock of the process.
-/
import MuxivoConsole.Domain.Organizations
import MuxivoConsole.Expiring.Keyspace

namespace MuxivoConsole

open Expiring

/-- `timedelta(seconds=...)` -/
def seconds (count : Int) : Nat :=
  count.toNat * 1000000

/-- A Redis server: its clock and its keys. -/
structure RedisServer where
  now : Instant
  keys : Keyspace String String

namespace RedisServer

def elapse (server : RedisServer) (duration : Nat) : RedisServer :=
  { server with now := server.now + duration }

/-- `GET` -/
def get (server : RedisServer) (key : String) : Option String :=
  (server.keys.live server.now key).map Lease.value

/-- `SET key value EX lifetime` -/
def setEx (server : RedisServer) (key value : String) (lifetime : Int) :
    RedisServer × Option String :=
  ({ server with keys := server.keys.hold key ⟨value, server.now + seconds lifetime⟩ },
    some "OK")

@[simp] theorem setEx_response (server : RedisServer) (key value : String) (lifetime : Int) :
    (server.setEx key value lifetime).2 = some "OK" :=
  rfl

/-- `SET key value EX lifetime NX`: nil when the key exists. -/
def setExNx (server : RedisServer) (key value : String) (lifetime : Int) :
    RedisServer × Option String :=
  if (server.get key).isSome then (server, none) else server.setEx key value lifetime

/-- `_CONSUME_SCRIPT` -/
def evalConsume (server : RedisServer) (key value : String) : RedisServer × Int :=
  if server.get key = some value then
    ({ server with keys := server.keys.drop key }, 1)
  else (server, 0)

end RedisServer

namespace RedisOneTimeTokenStore

def put (server : RedisServer) (key value : String) (ttlSeconds : Int) : RedisServer × Bool :=
  let (after, response) := server.setExNx key value (max 1 ttlSeconds)
  (after, response == some "OK")

def replace (server : RedisServer) (key value : String) (ttlSeconds : Int) :
    RedisServer × Bool :=
  let (after, response) := server.setEx key value (max 1 ttlSeconds)
  (after, response == some "OK")

def consume (server : RedisServer) (key value : String) : RedisServer × Bool :=
  let (after, response) := server.evalConsume key value
  (after, response == 1)

end RedisOneTimeTokenStore

section Observations

variable {server : RedisServer} {key other value : String}

/-- Waiting brings no value. -/
theorem RedisServer.get_elapse {duration : Nat}
    (hget : (server.elapse duration).get key = some value) : server.get key = some value := by
  simp only [RedisServer.get, RedisServer.elapse, Option.map_eq_some_iff,
    Keyspace.live_eq_some] at hget ⊢
  obtain ⟨lease, ⟨hheld, hlive⟩, hvalue⟩ := hget
  exact ⟨lease, ⟨hheld, Nat.lt_of_le_of_lt (Nat.le_add_right _ _) hlive⟩, hvalue⟩

/-- A replaced value can be read right away. -/
theorem RedisOneTimeTokenStore.get_replace (server : RedisServer) (key value : String)
    (ttlSeconds : Int) :
    (RedisOneTimeTokenStore.replace server key value ttlSeconds).1.get key = some value := by
  have hpositive : 0 < seconds (max 1 ttlSeconds) := by
    simp only [seconds]
    omega
  have hlive : server.now < server.now + seconds (max 1 ttlSeconds) :=
    Nat.lt_add_of_pos_right hpositive
  simp [RedisOneTimeTokenStore.replace, RedisServer.setEx, RedisServer.get,
    @Keyspace.live_hold_self _ _ _ _ _ _ ⟨value, server.now + seconds (max 1 ttlSeconds)⟩ hlive]

theorem RedisOneTimeTokenStore.get_put_of_ne {stored : String} {ttlSeconds : Int}
    (hne : other ≠ key) :
    (RedisOneTimeTokenStore.put server key stored ttlSeconds).1.get other =
      server.get other := by
  simp only [RedisOneTimeTokenStore.put, RedisServer.setExNx]
  split
  · rfl
  · simp [RedisServer.setEx, RedisServer.get, Keyspace.live_hold_of_ne hne]

theorem RedisOneTimeTokenStore.get_replace_of_ne {stored : String} {ttlSeconds : Int}
    (hne : other ≠ key) :
    (RedisOneTimeTokenStore.replace server key stored ttlSeconds).1.get other =
      server.get other := by
  simp [RedisOneTimeTokenStore.replace, RedisServer.setEx, RedisServer.get,
    Keyspace.live_hold_of_ne hne]

/-- A consumption brings no value. -/
theorem RedisOneTimeTokenStore.get_consume {asked : String}
    (hget : (RedisOneTimeTokenStore.consume server key asked).1.get other = some value) :
    server.get other = some value := by
  simp only [RedisOneTimeTokenStore.consume, RedisServer.evalConsume] at hget
  split at hget
  · by_cases hkey : other = key
    · simp [hkey, RedisServer.get] at hget
    · simpa [RedisServer.get, Keyspace.live_drop_of_ne hkey] using hget
  · exact hget

/-- A consumption that succeeds leaves nothing under its key. -/
theorem RedisOneTimeTokenStore.get_consume_self (hget : server.get key = some value) :
    (RedisOneTimeTokenStore.consume server key value).1.get key = none := by
  have hdropped : (RedisOneTimeTokenStore.consume server key value).1 =
      { server with keys := server.keys.drop key } := by
    rw [RedisOneTimeTokenStore.consume, RedisServer.evalConsume, if_pos hget]
  rw [hdropped]
  simp [RedisServer.get]

end Observations

/-- `InMemoryOneTimeTokenStore._values` -/
structure InMemoryOneTimeTokenStore where
  values : Keyspace String String

namespace InMemoryOneTimeTokenStore

/-- `_expires_at` -/
def expiresAt (now : Instant) (ttlSeconds : Int) : Instant :=
  now + seconds (max 1 ttlSeconds)

/-- `_purge_expired` -/
def purgeExpired (store : InMemoryOneTimeTokenStore) (now : Instant) :
    InMemoryOneTimeTokenStore :=
  ⟨store.values.purge now⟩

def put (store : InMemoryOneTimeTokenStore) (now : Instant) (key value : String)
    (ttlSeconds : Int) : InMemoryOneTimeTokenStore × Bool :=
  let store := store.purgeExpired now
  if (store.values key).isSome then (store, false)
  else (⟨store.values.hold key ⟨value, expiresAt now ttlSeconds⟩⟩, true)

def get (store : InMemoryOneTimeTokenStore) (now : Instant) (key : String) :
    InMemoryOneTimeTokenStore × Option String :=
  let store := store.purgeExpired now
  (store, (store.values key).map Lease.value)

def replace (store : InMemoryOneTimeTokenStore) (now : Instant) (key value : String)
    (ttlSeconds : Int) : InMemoryOneTimeTokenStore × Bool :=
  let store := store.purgeExpired now
  if (store.values key).isNone then (store, false)
  else (⟨store.values.hold key ⟨value, expiresAt now ttlSeconds⟩⟩, true)

def consume (store : InMemoryOneTimeTokenStore) (now : Instant) (key value : String) :
    InMemoryOneTimeTokenStore × Bool :=
  let store := store.purgeExpired now
  if (store.values key).map Lease.value ≠ some value then (store, false)
  else (⟨store.values.drop key⟩, true)

end InMemoryOneTimeTokenStore

/-- A call of the one-time token port. -/
inductive TokenCall where
  | put (key value : String) (ttlSeconds : Int)
  | get (key : String)
  | replace (key value : String) (ttlSeconds : Int)
  | consume (key value : String)
  deriving DecidableEq

inductive TokenAnswer where
  | flag (answer : Bool)
  | stored (value : Option String)
  deriving DecidableEq

def RedisOneTimeTokenStore.respond (server : RedisServer) :
    TokenCall → RedisServer × TokenAnswer
  | .put key value ttlSeconds => (put server key value ttlSeconds).map id .flag
  | .get key => (server, .stored (server.get key))
  | .replace key value ttlSeconds => (replace server key value ttlSeconds).map id .flag
  | .consume key value => (consume server key value).map id .flag

def InMemoryOneTimeTokenStore.respond (store : InMemoryOneTimeTokenStore) (now : Instant) :
    TokenCall → InMemoryOneTimeTokenStore × TokenAnswer
  | .put key value ttlSeconds => (store.put now key value ttlSeconds).map id .flag
  | .get key => (store.get now key).map id .stored
  | .replace key value ttlSeconds => (store.replace now key value ttlSeconds).map id .flag
  | .consume key value => (store.consume now key value).map id .flag

/-- Calls with the time that passes before each. -/
abbrev TokenCalls := List (Nat × TokenCall)

/-- What Redis answers to a sequence of calls. -/
def RedisOneTimeTokenStore.answers : RedisServer → TokenCalls → List TokenAnswer
  | _, [] => []
  | server, (elapsed, call) :: rest =>
      let (after, answer) := respond (server.elapse elapsed) call
      answer :: answers after rest

/-- What the dictionary answers to a sequence of calls. -/
def InMemoryOneTimeTokenStore.answers :
    InMemoryOneTimeTokenStore → Instant → TokenCalls → List TokenAnswer
  | _, _, [] => []
  | store, now, (elapsed, call) :: rest =>
      let (after, answer) := store.respond (now + elapsed) call
      answer :: answers after (now + elapsed) rest

end MuxivoConsole
