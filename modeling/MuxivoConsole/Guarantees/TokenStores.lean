/-
The two token stores side by side.  They hold the same live values as long as
no `replace` is asked for a key that holds nothing; there they part.
-/
import MuxivoConsole.Tokens.TokenStores

namespace MuxivoConsole

open Expiring

/-- The call is no `replace` of a key that holds nothing. -/
def TokenCall.FindsItsKey (server : RedisServer) : TokenCall → Prop
  | .replace key _ _ => (server.get key).isSome
  | _ => True

/-- Every `replace` of the sequence finds its key. -/
def ReplacesFindTheirKey : RedisServer → TokenCalls → Prop
  | _, [] => True
  | server, (elapsed, call) :: rest =>
      call.FindsItsKey (server.elapse elapsed) ∧
        ReplacesFindTheirKey (RedisOneTimeTokenStore.respond (server.elapse elapsed) call).1 rest

/-- The two stores hold the same at the instant that both clocks show. -/
structure Mirrored (server : RedisServer) (store : InMemoryOneTimeTokenStore)
    (now : Instant) : Prop where
  clock : server.now = now
  keys : Keyspace.Agree now server.keys store.values

namespace Mirrored

variable {server : RedisServer} {store : InMemoryOneTimeTokenStore} {now : Instant}

theorem elapse (hmirrored : Mirrored server store now) (elapsed : Nat) :
    Mirrored (server.elapse elapsed) store (now + elapsed) where
  clock := congrArg (· + elapsed) hmirrored.clock
  keys := hmirrored.keys.later (Nat.le_add_right now elapsed)

theorem purged (hmirrored : Mirrored server store now) :
    Mirrored server (store.purgeExpired now) now :=
  ⟨hmirrored.clock, hmirrored.keys.purge⟩

theorem lookup (hmirrored : Mirrored server store now) (key : String) :
    ((store.purgeExpired now).values key).map Lease.value = server.get key := by
  rw [RedisServer.get, hmirrored.clock, hmirrored.keys key]
  rfl

theorem hold (hmirrored : Mirrored server store now) (key value : String) (ttl : Int) :
    Mirrored (server.setEx key value (max 1 ttl)).1
      ⟨(store.purgeExpired now).values.hold key
        ⟨value, InMemoryOneTimeTokenStore.expiresAt now ttl⟩⟩ now where
  clock := hmirrored.clock
  keys := by
    have hexpires : server.now + seconds (max 1 ttl) =
        InMemoryOneTimeTokenStore.expiresAt now ttl := by
      rw [hmirrored.clock]
      rfl
    have hheld := hmirrored.purged.keys.hold key
      ⟨value, InMemoryOneTimeTokenStore.expiresAt now ttl⟩
    rw [← hexpires] at hheld ⊢
    exact hheld

theorem drop (hmirrored : Mirrored server store now) (key : String) :
    Mirrored { server with keys := server.keys.drop key }
      ⟨(store.purgeExpired now).values.drop key⟩ now :=
  ⟨hmirrored.clock, hmirrored.purged.keys.drop key⟩

/-- Step lemma: both answer the same and stay mirrored, unless a `replace` finds
nothing. -/
theorem respond (hmirrored : Mirrored server store now) {call : TokenCall}
    (hfinds : call.FindsItsKey server) :
    (RedisOneTimeTokenStore.respond server call).2 = (store.respond now call).2 ∧
      Mirrored (RedisOneTimeTokenStore.respond server call).1 (store.respond now call).1
        now := by
  cases call with
  | put key value ttl =>
      have hlookup := hmirrored.lookup key
      by_cases hkey : (server.get key).isSome
      · have hstored : ((store.purgeExpired now).values key).isSome := by
          rwa [← hlookup, Option.isSome_map] at hkey
        simpa [RedisOneTimeTokenStore.respond, RedisOneTimeTokenStore.put,
          RedisServer.setExNx, hkey, InMemoryOneTimeTokenStore.respond,
          InMemoryOneTimeTokenStore.put, hstored] using hmirrored.purged
      · have hstored : ¬ ((store.purgeExpired now).values key).isSome := by
          rwa [← hlookup, Option.isSome_map] at hkey
        simpa [RedisOneTimeTokenStore.respond, RedisOneTimeTokenStore.put,
          RedisServer.setExNx, hkey, InMemoryOneTimeTokenStore.respond,
          InMemoryOneTimeTokenStore.put, hstored] using hmirrored.hold key value ttl
  | get key => exact ⟨congrArg TokenAnswer.stored (hmirrored.lookup key).symm, hmirrored.purged⟩
  | replace key value ttl =>
      have hstored : ((store.purgeExpired now).values key).isSome := by
        have hkey : (server.get key).isSome := hfinds
        rwa [← hmirrored.lookup key, Option.isSome_map] at hkey
      simpa [RedisOneTimeTokenStore.respond, RedisOneTimeTokenStore.replace,
        InMemoryOneTimeTokenStore.respond, InMemoryOneTimeTokenStore.replace,
        Option.isNone_iff_eq_none, Option.isSome_iff_ne_none.mp hstored]
        using hmirrored.hold key value ttl
  | consume key value =>
      have hlookup := hmirrored.lookup key
      by_cases hkey : server.get key = some value
      · simpa [RedisOneTimeTokenStore.respond, RedisOneTimeTokenStore.consume,
          RedisServer.evalConsume, hkey, InMemoryOneTimeTokenStore.respond,
          InMemoryOneTimeTokenStore.consume, hlookup] using hmirrored.drop key
      · simpa [RedisOneTimeTokenStore.respond, RedisOneTimeTokenStore.consume,
          RedisServer.evalConsume, hkey, InMemoryOneTimeTokenStore.respond,
          InMemoryOneTimeTokenStore.consume, hlookup] using hmirrored.purged

/-- A `replace` that finds nothing is answered differently. -/
theorem replace_parts (hmirrored : Mirrored server store now) {call : TokenCall}
    (hmisses : ¬ call.FindsItsKey server) :
    (RedisOneTimeTokenStore.respond server call).2 ≠ (store.respond now call).2 := by
  cases call with
  | replace key value ttl =>
      have hkey : server.get key = none := Option.not_isSome_iff_eq_none.mp hmisses
      have hstored : (store.purgeExpired now).values key = none := by
        rwa [← hmirrored.lookup key, Option.map_eq_none_iff] at hkey
      simp [RedisOneTimeTokenStore.respond, RedisOneTimeTokenStore.replace, RedisServer.setEx,
        InMemoryOneTimeTokenStore.respond, InMemoryOneTimeTokenStore.replace, hstored]
  | _ => exact absurd trivial hmisses

/-- Run lemma: mirrored stores give the same answers to a sequence of calls exactly
when each `replace` in it finds its key. -/
theorem answers_eq_iff (hmirrored : Mirrored server store now) (calls : TokenCalls) :
    RedisOneTimeTokenStore.answers server calls = store.answers now calls ↔
      ReplacesFindTheirKey server calls := by
  induction calls generalizing server store now with
  | nil => simp [RedisOneTimeTokenStore.answers, InMemoryOneTimeTokenStore.answers,
      ReplacesFindTheirKey]
  | cons first rest ih =>
      obtain ⟨elapsed, call⟩ := first
      have helapsed := hmirrored.elapse elapsed
      simp only [RedisOneTimeTokenStore.answers, InMemoryOneTimeTokenStore.answers,
        ReplacesFindTheirKey, List.cons.injEq]
      by_cases hfinds : call.FindsItsKey (server.elapse elapsed)
      · obtain ⟨hanswer, hafter⟩ := helapsed.respond hfinds
        rw [ih hafter]
        simp [hanswer, hfinds]
      · have hparts := helapsed.replace_parts hfinds
        simp [hparts, hfinds]

end Mirrored

end MuxivoConsole
