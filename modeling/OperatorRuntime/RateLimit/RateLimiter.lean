/-
`FixedWindowRateLimiter` of `core/rate-limit.ts`. Its `Map` iterates in insertion
order: a list of entries, a new key last. What `clock()` answers is passed to
the call that reads it.
-/
import Mathlib.Data.Rat.Floor
import OperatorRuntime.Errors
import OperatorRuntime.Json
import OperatorRuntime.Lib.Keyed

namespace OperatorRuntime.RateLimit

open Lib

structure RateLimitDecision where
  allowed : Bool
  remaining : Nat
  retryAfterSeconds : Int
deriving DecidableEq

structure Entry where
  key : String
  count : Nat
  windowStartedAt : ℚ

structure FixedWindowRateLimiter where
  limit : Nat
  windowMs : Nat
  maxKeys : Nat
  limit_pos : 1 ≤ limit
  windowMs_ge : 1000 ≤ windowMs
  maxKeys_pos : 1 ≤ maxKeys

theorem le_toNat {value : ℚ} {least : ℕ} (h : ¬ (value.den ≠ 1 ∨ value < least)) :
    least ≤ value.num.toNat := by
  push Not at h
  have hnum : (least : ℤ) ≤ value.num := by
    have hle := h.2
    rw [← Rat.coe_int_num_of_den_eq_one h.1] at hle
    exact_mod_cast hle
  omega

/-- The constructor; a number is an integer when its denominator is one. -/
def create (limit windowMs : ℚ) (maxKeys : Option ℚ) : Result FixedWindowRateLimiter :=
  if hlimit : limit.den ≠ 1 ∨ limit < (1 : ℕ) then
    fail .error "Rate limit must be a positive integer."
  else if hwindow : windowMs.den ≠ 1 ∨ windowMs < (1000 : ℕ) then
    fail .error "Rate-limit window must be at least 1000ms."
  else if hkeys : (maxKeys.getD 20000).den ≠ 1 ∨ maxKeys.getD 20000 < (1 : ℕ) then
    fail .error "Rate-limit maxKeys is invalid."
  else if maxKeys.getD 20000 > 1000000 then
    fail .error "Rate-limit maxKeys is invalid."
  else
    .ok {
      limit := limit.num.toNat
      windowMs := windowMs.num.toNat
      maxKeys := (maxKeys.getD 20000).num.toNat
      limit_pos := le_toNat hlimit
      windowMs_ge := le_toNat hwindow
      maxKeys_pos := le_toNat hkeys }

def boundedKey (value : String) : Result String := do
  rejectIf (value = "" ∨ 512 < Json.unitLength value
      ∨ value.toList.any (fun c => c = '\x00' ∨ c = '\r' ∨ c = '\n') = true)
    .error "Rate-limit key is invalid."
  return value

def get (entries : List Entry) (key : String) : Option Entry :=
  entries.find? fun entry => entry.key == key

def delete (entries : List Entry) (key : String) : List Entry :=
  entries.filter fun entry => entry.key != key

namespace FixedWindowRateLimiter

variable (limiter : FixedWindowRateLimiter)

/-- The window of the entry has not ended. -/
def running (now : ℚ) (entry : Entry) : Bool :=
  now - entry.windowStartedAt < limiter.windowMs

def expireEntries (now : ℚ) (entries : List Entry) : List Entry :=
  entries.dropWhile fun entry => !limiter.running now entry

def retryAfterSeconds (now : ℚ) (entry : Entry) : Int :=
  max 1 ⌈(entry.windowStartedAt + limiter.windowMs - now) / 1000⌉

def saturatedDecision (now : ℚ) (entries : List Entry) : RateLimitDecision where
  allowed := false
  remaining := 0
  retryAfterSeconds :=
    match entries.head? with
    | some earliest => limiter.retryAfterSeconds now earliest
    | none => 1

def hitDecision (now : ℚ) (entry : Entry) : RateLimitDecision where
  allowed := entry.count ≤ limiter.limit
  remaining := limiter.limit - entry.count
  retryAfterSeconds := limiter.retryAfterSeconds now entry

def hitNew (key : String) (now : ℚ) (entries : List Entry) : RateLimitDecision × List Entry :=
  let entries := limiter.expireEntries now entries
  if limiter.maxKeys ≤ entries.length then (limiter.saturatedDecision now entries, entries)
  else
    let entry : Entry := { key, count := 0 + 1, windowStartedAt := now }
    (limiter.hitDecision now entry, entries ++ [entry])

def hit (keyInput : String) (now : ℚ) (entries : List Entry) :
    Result RateLimitDecision × List Entry :=
  match boundedKey keyInput with
  | .error e => (.error e, entries)
  | .ok key =>
    match get entries key with
    | none => (limiter.hitNew key now entries).map .ok id
    | some entry =>
      if limiter.running now entry = true then
        (.ok (limiter.hitDecision now { entry with count := entry.count + 1 }),
          updateFirst (fun e => e.key == key) (fun e => { e with count := e.count + 1 }) entries)
      else (limiter.hitNew key now (delete entries key)).map .ok id

def isLimitedNew (now : ℚ) (entries : List Entry) : RateLimitDecision × List Entry :=
  let entries := limiter.expireEntries now entries
  if limiter.maxKeys ≤ entries.length then (limiter.saturatedDecision now entries, entries)
  else ({ allowed := true, remaining := limiter.limit, retryAfterSeconds := 1 }, entries)

def isLimited (keyInput : String) (now : ℚ) (entries : List Entry) :
    Result RateLimitDecision × List Entry :=
  match boundedKey keyInput with
  | .error e => (.error e, entries)
  | .ok key =>
    match get entries key with
    | none => (limiter.isLimitedNew now entries).map .ok id
    | some entry =>
      if limiter.running now entry = true then
        (.ok {
          allowed := entry.count < limiter.limit
          remaining := limiter.limit - entry.count
          retryAfterSeconds := limiter.retryAfterSeconds now entry }, entries)
      else (limiter.isLimitedNew now (delete entries key)).map .ok id

end FixedWindowRateLimiter

def clear (keyInput : String) (entries : List Entry) : Result Unit × List Entry :=
  match boundedKey keyInput with
  | .error e => (.error e, entries)
  | .ok key => (.ok (), delete entries key)

end OperatorRuntime.RateLimit
