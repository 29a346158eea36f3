import UTTG.Core.Expiring
import UTTG.Core.TokenLock
import UTTG.Core.Transition

/-!
# The cache layer

The two keys of one cache entry, the three scripts that touch them, and
`cached`, `_schedule_refresh`, `_compute_and_store` and `invalidate` as calls
that interleave at their awaits.  Each script runs atomically at the time of
the store; every other instant in a script's arguments is what the calling
process read from its own clock.  A call is identified by its token.
-/

namespace UTTG.Cache

open UTTG.Expiring UTTG.Transition

/-- Serialisation as the cache layer uses it: `dumps` may raise, `size` is the
length of the encoded text, `loads` may raise. -/
structure Codec (Value Raw : Type*) where
  dumps : Value → Option Raw
  size : Raw → ℕ
  loads : Raw → Option Value

structure Config where
  cacheWaitTimeoutSeconds : ℚ
  cacheMaxValueBytes : ℕ

/-- The expiry of the lock key in `_READ_LUA`. -/
def lockSeconds : ℚ := 15

/-- The pause between two looks at the data key in `cached`. -/
def pollSeconds : ℚ := 1 / 40

/-- The fields `v` and `t` of the data key. -/
structure Stored (Raw : Type*) where
  value : Raw
  storedAt : ℤ
  deriving DecidableEq

structure Store (Token Raw : Type*) where
  lock : Slot Token ℚ
  data : Slot (Stored Raw) ℚ

/-- The third element of the reply of `_READ_LUA`. -/
inductive ReadState where
  | fresh
  | revalidate
  | stale
  | missLeader
  | missWait
  deriving DecidableEq

structure ReadReply (Raw : Type*) where
  value : Option Raw
  age : ℤ
  state : ReadState

variable {Token Value Raw : Type*} [DecidableEq Token]

omit [DecidableEq Token] in
/-- `SET lock_key token NX EX 15` with the states of the two outcomes. -/
def tryLock (clock : ℚ) (token : Token) (granted refused : ReadState)
    (store : Store Token Raw) : ReadState × Store Token Raw :=
  match store.lock.setNx clock token (clock + lockSeconds) with
  | (true, lock) => (granted, { store with lock := lock })
  | (false, _) => (refused, store)

def readLua (clock : ℚ) (ttl stale now : ℤ) (token : Token)
    (store : Store Token Raw) : ReadReply Raw × Store Token Raw :=
  match store.data.get clock with
  | some stored =>
      if now - stored.storedAt ≤ ttl then
        (⟨some stored.value, now - stored.storedAt, .fresh⟩, store)
      else if now - stored.storedAt ≤ stale then
        let (state, next) := tryLock clock token .revalidate .stale store
        (⟨some stored.value, now - stored.storedAt, state⟩, next)
      else
        let (state, next) := tryLock clock token .missLeader .missWait store
        (⟨none, 0, state⟩, next)
  | none =>
      let (state, next) := tryLock clock token .missLeader .missWait store
      (⟨none, 0, state⟩, next)

/-- `_STORE_LUA`; the Boolean is its return value. -/
def storeLua (clock : ℚ) (token : Token) (value : Raw) (now stale : ℤ)
    (store : Store Token Raw) : Bool × Store Token Raw :=
  if store.lock.get clock = some token then
    (true, ⟨Slot.del, Slot.set ⟨value, now⟩ (clock + stale)⟩)
  else (false, store)

/-- `_UNLOCK_LUA`; the Boolean is its return value. -/
def unlockLua (clock : ℚ) (token : Token) (store : Store Token Raw) :
    Bool × Store Token Raw :=
  if store.lock.get clock = some token then
    (true, { store with lock := Slot.del })
  else (false, store)

/-- The second element of what `cached` returns. -/
inductive Freshness where
  | fresh
  | stale
  deriving DecidableEq

/-- `"fresh" if state == "fresh" else "stale"`. -/
def ReadState.freshness : ReadState → Freshness
  | .fresh => .fresh
  | _ => .stale

/-- The states in which the script took the lock. -/
def ReadState.elects : ReadState → Bool
  | .revalidate => true
  | .missLeader => true
  | _ => false

inductive Failure where
  /-- `Cache stale duration must be greater than or equal to TTL`. -/
  | badDurations
  /-- `Cache fill is still in progress`. -/
  | busy
  /-- The loader raised or ran into the compute timeout. -/
  | loader
  /-- `json.dumps` raised. -/
  | unserialisable
  /-- `Response exceeds the configured cache value limit`. -/
  | tooLarge
  /-- `json.loads` raised on the stored text. -/
  | undecodable
  /-- A command to the store raised. -/
  | unavailable
  deriving DecidableEq

/-- How `cached` ends for its caller. -/
inductive Answer (Value : Type*) where
  | returned (value : Value) (state : Freshness) (age : ℤ)
  | raised (failure : Failure)
  deriving DecidableEq

/-- Where a call stands.  `background` tells a refresh task from a leader
whose caller waits; a refresh has no one to answer. -/
inductive Call (Value Raw : Type*) where
  | idle
  | reading (ttl stale now : ℤ)
  /-- At the top of the waiting loop. -/
  | waiting (deadline : ℚ)
  /-- In the `asyncio.sleep` of the waiting loop. -/
  | asleep (deadline wake : ℚ)
  | computing (stale : ℤ) (since : ℚ) (background : Bool)
  | storing (stale now : ℤ) (value : Value) (raw : Raw) (background : Bool)
  /-- Before `_UNLOCK_LUA`, with the exception to raise after it. -/
  | unlocking (failure : Option Failure)
  | ended
  deriving DecidableEq

/-- Where the data of an answer comes from: the call's own loader, or the data
key as some call wrote it; `none` stands for a writer before the run. -/
inductive Origin (Token : Type*) where
  | loader
  | store (writer : Option Token)
  deriving DecidableEq

/-- The time of the store, its two keys, the calls and their answers.  The
other fields are only observed, no step depends on them: the log of effective
lock operations, what each loader returned, which call wrote the data key last,
and where each answer comes from. -/
structure State (Token Value Raw : Type*) where
  clock : ℚ
  store : Store Token Raw
  call : Token → Call Value Raw
  answer : Token → Option (Answer Value)
  log : List (TokenLock.Event Token)
  loaded : Token → Option Value
  writer : Option Token
  origin : Token → Option (Origin Token)

/-- One await of one call, or something that happens to the two keys. -/
inductive Action (Token Value : Type*) where
  | elapse (duration : ℚ)
  /-- The key is dropped ahead of its expiry. -/
  | dropLock
  | dropData
  | invalidate
  | begin (token : Token) (ttl stale now : ℤ)
  /-- `full` is the test of `_schedule_refresh` for its task limit. -/
  | read (token : Token) (full : Bool) (reply : Reply)
  | check (token : Token)
  | poll (token : Token) (reply : Reply)
  | compute (token : Token) (value : Value) (now : ℤ)
  | fail (token : Token)
  | store (token : Token) (reply : Reply)
  | unlock (token : Token) (reply : Reply)
  | crash (token : Token)

namespace State

variable (state : State Token Value Raw)

def goto (token : Token) (call : Call Value Raw) : State Token Value Raw :=
  { state with call := Function.update state.call token call }

def respond (token : Token) (answer : Answer Value) :
    State Token Value Raw :=
  { state with answer := Function.update state.answer token (some answer) }

def deliver (token : Token) (origin : Origin Token) (value : Value)
    (freshness : Freshness) (age : ℤ) : State Token Value Raw :=
  { state.respond token (.returned value freshness age) with
    origin := Function.update state.origin token (some origin) }

def raise (token : Token) (failure : Failure) : State Token Value Raw :=
  (state.respond token (.raised failure)).goto token .ended

def runRead (ttl stale now : ℤ) (token : Token) :
    ReadReply Raw × State Token Value Raw :=
  let (reply, store) := readLua state.clock ttl stale now token state.store
  (reply, { state with
    store := store
    log := if reply.state.elects then state.log ++ [.elected token]
      else state.log })

def runStore (token : Token) (raw : Raw) (now stale : ℤ) :
    State Token Value Raw :=
  let (stored, store) := storeLua state.clock token raw now stale state.store
  { state with
    store := store
    log := if stored then state.log ++ [.committed token] else state.log
    writer := if stored then some token else state.writer }

def runUnlock (token : Token) : State Token Value Raw :=
  let (removed, store) := unlockLua state.clock token state.store
  { state with
    store := store
    log := if removed then state.log ++ [.released token] else state.log }

def afterRead (config : Config) (codec : Codec Value Raw) (token : Token)
    (stale : ℤ) (full : Bool) (reply : ReadReply Raw) :
    State Token Value Raw :=
  match reply.value with
  | some raw =>
      match codec.loads raw with
      | none => state.raise token .undecodable
      | some value =>
          let answered := state.deliver token (.store state.writer) value
            reply.state.freshness reply.age
          if reply.state = .revalidate then
            if full then answered.goto token (.unlocking none)
            else answered.goto token (.computing stale state.clock true)
          else answered.goto token .ended
  | none =>
      if reply.state = .missWait then
        state.goto token
          (.waiting (state.clock + config.cacheWaitTimeoutSeconds))
      else state.goto token (.computing stale state.clock false)

/-- What `cached` does with the reply of `HGET` in its waiting loop. -/
def afterPoll (codec : Codec Value Raw) (token : Token) (deadline : ℚ) :
    Option (Stored Raw) → State Token Value Raw
  | some stored =>
      match codec.loads stored.value with
      | none => state.raise token .undecodable
      | some value =>
          (state.deliver token (.store state.writer) value .fresh 0).goto token
            .ended
  | none => state.goto token (.waiting deadline)

/-- The `except` branch of `_compute_and_store`: unlock and raise again. -/
def abort (token : Token) (failure : Failure) (background : Bool) :
    State Token Value Raw :=
  state.goto token (.unlocking (if background then none else some failure))

/-- The loader returned `value`: serialise it and check its size. -/
def afterCompute (config : Config) (codec : Codec Value Raw) (token : Token)
    (stale : ℤ) (background : Bool) (value : Value) (now : ℤ) :
    State Token Value Raw :=
  match codec.dumps value with
  | none => state.abort token .unserialisable background
  | some raw =>
      if config.cacheMaxValueBytes < codec.size raw then
        state.abort token .tooLarge background
      else state.goto token (.storing stale now value raw background)

def afterStore (token : Token) (value : Value) (background : Bool) :
    State Token Value Raw :=
  if background then state.goto token .ended
  else (state.deliver token .loader value .fresh 0).goto token .ended

def afterUnlock (token : Token) : Option Failure → State Token Value Raw
  | some failure => state.raise token failure
  | none => state.goto token .ended

end State

def step (config : Config) (codec : Codec Value Raw)
    (state : State Token Value Raw) :
    Action Token Value → Option (State Token Value Raw)
  | .elapse duration =>
      if 0 ≤ duration then some { state with clock := state.clock + duration }
      else none
  | .dropLock =>
      some { state with store := { state.store with lock := Slot.del } }
  | .dropData =>
      some { state with store := { state.store with data := Slot.del } }
  | .invalidate =>
      some { state with
        store := ⟨Slot.del, Slot.del⟩
        log := state.log ++ [.reset] }
  | .begin token ttl stale now =>
      match state.call token with
      | .idle =>
          if ttl ≤ 0 ∨ stale < ttl then
            some (state.raise token .badDurations)
          else some (state.goto token (.reading ttl stale now))
      | _ => none
  | .read token full reply =>
      match state.call token with
      | .reading ttl stale now =>
          let (result, next) := state.runRead ttl stale now token
          match reply with
          | .answered =>
              some (next.afterRead config codec token stale full result)
          | .lost => some (next.raise token .unavailable)
          | .refused => some (state.raise token .unavailable)
      | _ => none
  | .check token =>
      match state.call token with
      | .waiting deadline =>
          if state.clock < deadline then
            some (state.goto token
              (.asleep deadline (state.clock + pollSeconds)))
          else some (state.raise token .busy)
      | _ => none
  | .poll token reply =>
      match state.call token with
      | .asleep deadline wake =>
          if wake ≤ state.clock then
            match reply with
            | .answered =>
                some (state.afterPoll codec token deadline
                  (state.store.data.get state.clock))
            | _ => some (state.raise token .unavailable)
          else none
      | _ => none
  | .compute token value now =>
      match state.call token with
      | .computing stale _ background =>
          let loaded := Function.update state.loaded token (some value)
          some ({ state with loaded := loaded }.afterCompute config codec token
            stale background value now)
      | _ => none
  | .fail token =>
      match state.call token with
      | .computing _ _ background =>
          some (state.abort token .loader background)
      | _ => none
  | .store token reply =>
      match state.call token with
      | .storing stale now value raw background =>
          match reply with
          | .answered =>
              some ((state.runStore token raw now stale).afterStore token value
                background)
          | .lost =>
              some ((state.runStore token raw now stale).abort token
                .unavailable background)
          | .refused => some (state.abort token .unavailable background)
      | _ => none
  | .unlock token reply =>
      match state.call token with
      | .unlocking failure =>
          match reply with
          | .answered =>
              some ((state.runUnlock token).afterUnlock token failure)
          | .lost =>
              some ((state.runUnlock token).afterUnlock token
                (failure.map fun _ => .unavailable))
          | .refused =>
              some (state.afterUnlock token
                (failure.map fun _ => .unavailable))
      | _ => none
  | .crash token => some (state.goto token .ended)

/-- Any number of calls that have not started yet, over a store in which no
call holds the lock; the data key may have been written before. -/
def system (Token : Type*) [DecidableEq Token] {Value Raw : Type*}
    (config : Config) (codec : Codec Value Raw) :
    System (State Token Value Raw) (Action Token Value) where
  Init state := state.store.lock = none ∧ (∀ token, state.call token = .idle)
    ∧ (∀ token, state.answer token = none) ∧ state.log = [] ∧
    (∀ token, state.loaded token = none) ∧ state.writer = none ∧
    ∀ token, state.origin token = none
  step := step config codec

/-- No call has started and neither key is set. -/
def blank : State Token Value Raw where
  clock := 0
  store := ⟨none, none⟩
  call _ := .idle
  answer _ := none
  log := []
  loaded _ := none
  writer := none
  origin _ := none

theorem blank_init (config : Config) (codec : Codec Value Raw) :
    (system Token config codec).Init blank :=
  ⟨rfl, fun _ => rfl, fun _ => rfl, rfl, fun _ => rfl, rfl, fun _ => rfl⟩

end UTTG.Cache
