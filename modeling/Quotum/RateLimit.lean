import Mathlib.Data.Rat.Floor
import Quotum.General.Table

/-! The fixed-window rate limiter. The buckets stand in the order of the limiter's map, least recently checked first. -/

namespace Quotum.RateLimit
open General

structure RateLimitResult where
  allowed : Bool
  remaining : ℚ
  resetAt : Int
  retryAfterSeconds : Option Int
  deriving DecidableEq

structure RateLimitBucket where
  windowStart : ℚ
  count : Nat
  deriving DecidableEq

structure RateLimitOptions where
  windowMs : ℚ
  limit : ℚ
  maxBuckets : Nat
  window_positive : 0 < windowMs
  limit_positive : 0 < limit
  buckets_positive : 0 < maxBuckets

def rateLimitOptions (windowMs limit : ℚ) (maxBuckets : Int) : Except String RateLimitOptions :=
  if window : windowMs ≤ 0 then .error "windowMs must be a positive finite number"
  else if cap : limit ≤ 0 then .error "limit must be a positive finite number"
  else if table : maxBuckets ≤ 0 then .error "maxBuckets must be a positive integer"
  else
    .ok
      { windowMs, limit, maxBuckets := maxBuckets.toNat
        window_positive := not_le.mp window, limit_positive := not_le.mp cap, buckets_positive := by omega }

def dateOf (ms : ℚ) : Int :=
  if 0 ≤ ms then ⌊ms⌋ else ⌈ms⌉

def RateLimitOptions.windowStart (options : RateLimitOptions) (time : ℚ) : ℚ :=
  ⌊time / options.windowMs⌋ * options.windowMs

structure RateLimiter (κ : Type) where
  buckets : List (κ × RateLimitBucket)
  activeWindowStart : Option ℚ
  deriving DecidableEq

structure Check (κ : Type) where
  time : ℚ
  key : κ
  deriving DecidableEq

section Limiter
variable {κ : Type} [DecidableEq κ] (options : RateLimitOptions)

def RateLimiter.empty : RateLimiter κ where
  buckets := []
  activeWindowStart := none

def RateLimiter.size (limiter : RateLimiter κ) : Nat :=
  limiter.buckets.length

def RateLimiter.opened (limiter : RateLimiter κ) (windowStart : ℚ) : List (κ × RateLimitBucket) :=
  if limiter.activeWindowStart ≠ some windowStart then [] else limiter.buckets

/-- The bucket of a key, taken out of the map. A new key's bucket displaces the least recently checked one when the map is full. -/
def takeBucket (windowStart : ℚ) (key : κ) (buckets : List (κ × RateLimitBucket)) : RateLimitBucket × List (κ × RateLimitBucket) :=
  match findAt Prod.fst key buckets with
  | none => ({ windowStart, count := 0 }, if buckets.length ≥ options.maxBuckets then buckets.tail else buckets)
  | some entry => (entry.2, buckets.filter fun other => decide (other.1 ≠ key))

def countCheck (currentTime : ℚ) (bucket : RateLimitBucket) : RateLimitResult × RateLimitBucket :=
  let resetAt := dateOf (options.windowStart currentTime + options.windowMs)
  if options.limit ≤ bucket.count then
    ({ allowed := false, remaining := 0, resetAt, retryAfterSeconds := some (max 1 ⌈(resetAt - currentTime) / 1000⌉) }, bucket)
  else
    ({ allowed := true, remaining := max 0 (options.limit - (bucket.count + 1)), resetAt, retryAfterSeconds := none },
      { bucket with count := bucket.count + 1 })

def RateLimiter.check (limiter : RateLimiter κ) (input : Check κ) : RateLimitResult × RateLimiter κ :=
  let windowStart := options.windowStart input.time
  let taken := takeBucket options windowStart input.key (limiter.opened windowStart)
  let counted := countCheck options input.time taken.1
  (counted.1, { buckets := taken.2 ++ [(input.key, counted.2)], activeWindowStart := some windowStart })

def serve (served : RateLimiter κ × List (Check κ × RateLimitResult)) (input : Check κ) :
    RateLimiter κ × List (Check κ × RateLimitResult) :=
  let checked := served.1.check options input
  (checked.2, served.2 ++ [(input, checked.1)])

/-- A sequence of checks: the limiter after them, and what they were answered. -/
def served (checks : List (Check κ)) : RateLimiter κ × List (Check κ × RateLimitResult) :=
  checks.foldl (serve options) (.empty, [])

/-- What a check is answered after the ones before it. -/
def answer (before : List (Check κ)) (input : Check κ) : RateLimitResult :=
  ((served options before).1.check options input).1

def allowedChecks (checks : List (Check κ)) : List (Check κ) :=
  ((served options checks).2.filter fun entry => entry.2.allowed).map Prod.fst

end Limiter

end Quotum.RateLimit
