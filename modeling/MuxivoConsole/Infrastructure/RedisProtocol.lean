/-
The connections to Redis: how commands are written, how replies are read, and what the rate
limiter and the token store make of a reply or of a connection that fails.
-/
import MuxivoConsole.Infrastructure.RateLimiters
import MuxivoConsole.Resp.Format
import MuxivoConsole.Streams.Reader

namespace MuxivoConsole

open Resp Streams Text

/-- Why a connection fails: an `OSError`, a `TimeoutError`, or the `ValueError` of a host name or
certificate. -/
inductive ConnectionFailure where
  | osError
  | timeoutError
  | valueError
  deriving DecidableEq

/-- What an exchange with Redis can raise, by the classes that its handlers name. -/
inductive RedisException where
  /-- `RedisRateLimitUnavailableError` -/
  | rateLimitUnavailable (message : String)
  /-- `RedisOneTimeTokenStoreUnavailableError` -/
  | tokenStoreUnavailable (message : String)
  | connection (failure : ConnectionFailure)
  | valueError
  /-- `asyncio.IncompleteReadError`, which is an `EOFError` -/
  | incompleteReadError
  | recursionError
  deriving DecidableEq

@[simp] theorem RedisException.ok_bind {α β : Type} {value : α}
    {continuation : α → Except RedisException β} :
    (Except.ok value >>= continuation) = continuation value :=
  rfl

@[simp] theorem RedisException.error_bind {α β : Type} {raised : RedisException}
    {continuation : α → Except RedisException β} :
    (Except.error raised >>= continuation) = Except.error raised :=
  rfl

/-- What `_read_redis_value` returns. -/
inductive RedisValue where
  | none
  | text (value : String)
  | integer (value : Int)
  | list (items : List RedisValue)

/-- `_encode_redis_command` -/
def encodeRedisCommand (parts : List String) : List UInt8 :=
  42 :: lengthBytes parts.length ++ crlf ++
    parts.flatMap fun part =>
      36 :: lengthBytes (encodeUtf8 part).length ++ crlf ++ encodeUtf8 part ++ crlf

/-- `rstrip(b"\r\n")` -/
def rstripNewline (line : List UInt8) : List UInt8 :=
  line.rdropWhile fun byte => byte == 13 || byte == 10

/-- `int(line)` -/
def intOfBytes (line : List UInt8) : Option Int :=
  int? (line.map UInt8.toNat)

/-- The limit of the buffer of `asyncio.open_connection`. -/
def streamLimit : Nat := 65536

/-- A read of the connection with the exceptions of asyncio. -/
def raising {α : Type} : Except (ReadError ConnectionFailure) α → Except RedisException α
  | .ok value => .ok value
  | .error .incomplete => .error .incompleteReadError
  | .error .overrun => .error .valueError
  | .error (.lost failure) => .error (.connection failure)

/-- `(await reader.readline()).rstrip(b"\r\n")` -/
def readRedisLine (ending : Ending ConnectionFailure) (bytes : List UInt8) :
    Except RedisException (List UInt8 × List UInt8) := do
  let (line, rest) ← raising (readLine streamLimit ending bytes)
  pure (rstripNewline line, rest)

/-- A decoded text, with the `ValueError` of a text that is not UTF-8. -/
def orValueError {α : Type} : Option α → Except RedisException α
  | some value => .ok value
  | none => .error .valueError

/-- `[await read(reader) for _ in range(length)]` -/
def readRedisValues (read : List UInt8 → Except RedisException (RedisValue × List UInt8)) :
    Nat → List UInt8 → Except RedisException (List RedisValue × List UInt8)
  | 0, bytes => pure ([], bytes)
  | length + 1, bytes => do
      let (value, bytes) ← read bytes
      let (values, bytes) ← readRedisValues read length bytes
      pure (value :: values, bytes)

/-- `_read_redis_value`, of the module whose error class is `unavailable`.  The interpreter has
room for `frames` nested calls. -/
def readRedisValue (unavailable : String → RedisException) (ending : Ending ConnectionFailure) :
    Nat → List UInt8 → Except RedisException (RedisValue × List UInt8)
  | 0, _ => .error .recursionError
  | frames + 1, bytes => do
      let (marker, bytes) ← raising (readExactly ending 1 bytes)
      if marker = [43] then do
        let (line, bytes) ← readRedisLine ending bytes
        let text ← orValueError (decodeUtf8 line)
        pure (.text text, bytes)
      else if marker = [45] then do
        let (line, _) ← readRedisLine ending bytes
        let message ← orValueError (decodeUtf8 line)
        .error (unavailable message)
      else if marker = [58] then do
        let (line, bytes) ← readRedisLine ending bytes
        let value ← orValueError (intOfBytes line)
        pure (.integer value, bytes)
      else if marker = [36] then do
        let (line, bytes) ← readRedisLine ending bytes
        let length ← orValueError (intOfBytes line)
        if length < 0 then pure (.none, bytes)
        else do
          let (payload, bytes) ← raising (readExactly ending length.toNat bytes)
          let (_, bytes) ← raising (readExactly ending 2 bytes)
          let text ← orValueError (decodeUtf8 payload)
          pure (.text text, bytes)
      else if marker = [42] then do
        let (line, bytes) ← readRedisLine ending bytes
        let length ← orValueError (intOfBytes line)
        if length < 0 then pure (.none, bytes)
        else do
          let (items, bytes) ←
            readRedisValues (readRedisValue unavailable ending frames) length.toNat bytes
          pure (.list items, bytes)
      else .error (unavailable "Unsupported Redis response.")

/-- What becomes of a connection: whether it opens, how each `drain` ends, the bytes that arrive,
what follows them, and how `wait_closed` ends. -/
structure RedisConnection where
  opening : Option ConnectionFailure := none
  draining : Nat → Option ConnectionFailure := fun _ => none
  incoming : List UInt8
  ending : Ending ConnectionFailure
  closing : Option ConnectionFailure := none

/-- The part of a Redis URL that the commands depend on. -/
structure RedisAddress where
  db : Int := 0
  username : Option String := none
  password : Option String := none
  deriving DecidableEq

/-- The commands that come before the one that is asked for. -/
def RedisAddress.preamble (address : RedisAddress) : List (List String) :=
  (match address.password, address.username with
    | some password, some username => [["AUTH", username, password]]
    | some password, none => [["AUTH", password]]
    | none, _ => []) ++
  (if address.db ≠ 0 then [["SELECT", String.ofList ((showInt address.db).map Char.ofNat)]]
    else [])

/-- The loop over the commands: each is written and its reply read, the last one is kept. -/
def exchangeCommands
    (read : List UInt8 → Except RedisException (RedisValue × List UInt8))
    (draining : Nat → Option ConnectionFailure) :
    List (List String) → Nat → RedisValue → List UInt8 → Except RedisException RedisValue
  | [], _, response, _ => pure response
  | _ :: commands, sent, _, bytes =>
      match draining sent with
      | some failure => .error (.connection failure)
      | none => do
          let (response, bytes) ← read bytes
          exchangeCommands read draining commands (sent + 1) response bytes

/-- The `try` block of both adapters: what `wait_closed` raises in `finally` replaces what the
exchange raised. -/
def RedisConnection.exchange (connection : RedisConnection)
    (unavailable : String → RedisException) (frames : Nat) (commands : List (List String)) :
    Except RedisException RedisValue :=
  match connection.opening with
  | some failure => .error (.connection failure)
  | none =>
      let exchanged := exchangeCommands (readRedisValue unavailable connection.ending frames)
        connection.draining commands 0 .none connection.incoming
      match connection.closing with
      | some failure => .error (.connection failure)
      | none => exchanged

/-- `isinstance(error, (OSError, TimeoutError, ValueError))`: the error classes of the adapters
derive from `ConnectionError`, and so from `OSError`. -/
def RedisException.isConnectionOrValueError : RedisException → Bool
  | rateLimitUnavailable _ => true
  | tokenStoreUnavailable _ => true
  | connection _ => true
  | valueError => true
  | incompleteReadError => false
  | recursionError => false

namespace RedisFixedWindowCounter

/-- `RedisFixedWindowCounter._SCRIPT` -/
def script : String :=
  "local current = redis.call('INCR', KEYS[1]); " ++
  "if current == 1 then redis.call('EXPIRE', KEYS[1], ARGV[1]); end; " ++
  "local ttl = redis.call('TTL', KEYS[1]); " ++
  "return \x7bcurrent, ttl\x7d;"

/-- `_encode_redis_command` of the counter -/
def encodeRedisCommand (parts : List String) : List UInt8 :=
  MuxivoConsole.encodeRedisCommand parts

/-- `_read_redis_value` of the counter -/
def readRedisValue (ending : Ending ConnectionFailure) (frames : Nat) (bytes : List UInt8) :
    Except RedisException (RedisValue × List UInt8) :=
  MuxivoConsole.readRedisValue .rateLimitUnavailable ending frames bytes

/-- The commands of one `increment_windowed`. -/
def commands (address : RedisAddress) (key : String) (windowSeconds : Nat) :
    List (List String) :=
  address.preamble ++
    [["EVAL", script, "1", key, String.ofList ((showNat windowSeconds).map Char.ofNat)]]

/-- `RedisFixedWindowCounter.increment_windowed` over a connection -/
def incrementOver (address : RedisAddress) (connection : RedisConnection) (frames : Nat)
    (key : String) (windowSeconds : Nat) : Except RedisException (Int × Int) :=
  match connection.exchange .rateLimitUnavailable frames (commands address key windowSeconds) with
  | .error raised =>
      if raised.isConnectionOrValueError then
        .error (.rateLimitUnavailable "Redis rate limit backend unavailable.")
      else .error raised
  | .ok (.list [.integer count, .integer ttl]) => .ok (count, max 1 ttl)
  | .ok _ => .error (.rateLimitUnavailable "Redis rate limit backend returned invalid data.")

end RedisFixedWindowCounter

/-- `RedisFixedWindowRateLimiter.check` over a connection -/
def RedisFixedWindowRateLimiter.checkOver (limiter : RedisFixedWindowRateLimiter)
    (address : RedisAddress) (connection : RedisConnection) (frames : Nat)
    (scope key : String) : Except RedisException RateLimitDecision :=
  match limiter.rules scope with
  | none => .ok { allowed := true }
  | some rule =>
      match RedisFixedWindowCounter.incrementOver address connection frames
          (limiter.redisKey scope key) rule.windowSeconds with
      | .error (.rateLimitUnavailable _) =>
          .ok { allowed := false, retryAfterSeconds := rule.windowSeconds }
      | .error raised => .error raised
      | .ok (count, ttl) =>
          if rule.limit < count then .ok { allowed := false, retryAfterSeconds := ttl }
          else .ok { allowed := true }

namespace RedisOneTimeTokenStore

/-- `_encode_redis_command` of the token store -/
def encodeRedisCommand (parts : List String) : List UInt8 :=
  MuxivoConsole.encodeRedisCommand parts

/-- `_read_redis_value` of the token store -/
def readRedisValue (ending : Ending ConnectionFailure) (frames : Nat) (bytes : List UInt8) :
    Except RedisException (RedisValue × List UInt8) :=
  MuxivoConsole.readRedisValue .tokenStoreUnavailable ending frames bytes

/-- `RedisOneTimeTokenStore._command`: here a closed connection is caught, too. -/
def command (address : RedisAddress) (connection : RedisConnection) (frames : Nat)
    (parts : List String) : Except RedisException RedisValue :=
  match connection.exchange .tokenStoreUnavailable frames (address.preamble ++ [parts]) with
  | .error raised =>
      if raised.isConnectionOrValueError || raised == .incompleteReadError then
        .error (.tokenStoreUnavailable "Redis token store unavailable.")
      else .error raised
  | .ok response => .ok response

end RedisOneTimeTokenStore

end MuxivoConsole
