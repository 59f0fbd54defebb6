import Mathlib.Algebra.Order.Floor.Semiring
import Mathlib.Data.Finset.Card
import Quotum.General.Lookup
import Quotum.RateLimit

/-! The rate limiter counts each key by itself. A bucket never counts more than its key's allowed checks of the window, and while the map has
room for every key of the window no bucket is displaced, so each one counts all of them. -/

namespace Quotum.RateLimit
open General

variable {κ : Type} [DecidableEq κ] {options : RateLimitOptions}

def inWindow (options : RateLimitOptions) (start : ℚ) (checks : List (Check κ)) : List (Check κ) :=
  checks.filter fun input => decide (options.windowStart input.time = start)

def checksOf (options : RateLimitOptions) (start : ℚ) (key : κ) (checks : List (Check κ)) : Nat :=
  (inWindow options start checks).countP fun input => decide (input.key = key)

def windowKeys (options : RateLimitOptions) (start : ℚ) (checks : List (Check κ)) : Finset κ :=
  ((inWindow options start checks).map Check.key).toFinset

section Append
variable (before : List (Check κ)) (input : Check κ) (start : ℚ) (key : κ)

private theorem served_append : served options (before ++ [input]) = serve options (served options before) input := by
  rw [served, List.foldl_append]
  rfl

private theorem allowedChecks_append : allowedChecks options (before ++ [input]) =
    allowedChecks options before ++ if (answer options before input).allowed then [input] else [] := by
  rw [allowedChecks, served_append, serve, List.filter_append, List.map_append]
  congr 1
  rw [← answer]
  cases decided : (answer options before input).allowed <;> simp [decided]

omit [DecidableEq κ] in
private theorem inWindow_append : inWindow options start (before ++ [input]) =
    inWindow options start before ++ if options.windowStart input.time = start then [input] else [] := by
  rw [inWindow, List.filter_append]
  congr 1
  by_cases here : options.windowStart input.time = start <;> simp [here]

private theorem checksOf_append : checksOf options (options.windowStart input.time) key (before ++ [input]) =
    checksOf options (options.windowStart input.time) key before + if input.key = key then 1 else 0 := by
  rw [checksOf, inWindow_append, if_pos rfl, List.countP_append, checksOf]
  by_cases here : input.key = key <;> simp [here]

private theorem windowKeys_append : windowKeys options (options.windowStart input.time) (before ++ [input]) =
    insert input.key (windowKeys options (options.windowStart input.time) before) := by
  rw [windowKeys, inWindow_append, if_pos rfl, List.map_append, List.toFinset_append, windowKeys, Finset.union_comm]
  rfl

end Append

private theorem checksOf_zero {start : ℚ} {key : κ} {checks : List (Check κ)} (absent : key ∉ windowKeys options start checks) :
    checksOf options start key checks = 0 := by
  rw [checksOf, List.countP_eq_zero]
  intro input inside same
  apply absent
  rw [windowKeys, List.mem_toFinset]
  exact List.mem_map.mpr ⟨input, inside, of_decide_eq_true same⟩

structure Counted (options : RateLimitOptions) (start : ℚ) (checks : List (Check κ)) (buckets : List (κ × RateLimitBucket)) : Prop where
  distinct : (buckets.map Prod.fst).Nodup
  size : buckets.length ≤ options.maxBuckets
  known : ∀ entry ∈ buckets, entry.1 ∈ windowKeys options start checks
  allowed : ∀ entry ∈ buckets, entry.2.count ≤ checksOf options start entry.1 (allowedChecks options checks)
  exact : (windowKeys options start checks).card ≤ options.maxBuckets → ∀ key ∈ windowKeys options start checks,
    ∃ bucket, (key, bucket) ∈ buckets ∧ bucket.count = min (checksOf options start key checks) ⌈options.limit⌉₊

structure Taken (options : RateLimitOptions) (start : ℚ) (key : κ) (checks : List (Check κ)) (bucket : RateLimitBucket)
    (others : List (κ × RateLimitBucket)) : Prop where
  distinct : (others.map Prod.fst).Nodup
  absent : key ∉ others.map Prod.fst
  size : others.length + 1 ≤ options.maxBuckets
  known : ∀ entry ∈ others, entry.1 ∈ windowKeys options start checks
  allowed : bucket.count ≤ checksOf options start key (allowedChecks options checks)
  others_allowed : ∀ entry ∈ others, entry.2.count ≤ checksOf options start entry.1 (allowedChecks options checks)
  exact : (insert key (windowKeys options start checks)).card ≤ options.maxBuckets →
    bucket.count = min (checksOf options start key checks) ⌈options.limit⌉₊ ∧
      ∀ other ∈ windowKeys options start checks, other ≠ key →
        ∃ kept, (other, kept) ∈ others ∧ kept.count = min (checksOf options start other checks) ⌈options.limit⌉₊

section Step
variable {start : ℚ} {checks : List (Check κ)} {buckets : List (κ × RateLimitBucket)}

variable (counted : Counted options start checks buckets)
include counted

theorem Counted.narrow {others : List (κ × RateLimitBucket)}
    (fewer : others.Sublist buckets) : (others.map Prod.fst).Nodup ∧ (∀ entry ∈ others, entry.1 ∈ windowKeys options start checks) ∧
      ∀ entry ∈ others, entry.2.count ≤ checksOf options start entry.1 (allowedChecks options checks) :=
  ⟨counted.distinct.sublist (fewer.map Prod.fst), fun entry member => counted.known entry (fewer.subset member),
    fun entry member => counted.allowed entry (fewer.subset member)⟩

theorem Counted.room {key : κ} (fresh : key ∉ windowKeys options start checks)
    (few : (insert key (windowKeys options start checks)).card ≤ options.maxBuckets) : buckets.length < options.maxBuckets := by
  rw [Finset.card_insert_of_notMem fresh] at few
  have covered : (buckets.map Prod.fst).toFinset ⊆ windowKeys options start checks := by
    intro key inside
    obtain ⟨entry, member, rfl⟩ := List.mem_map.mp (List.mem_toFinset.mp inside)
    exact counted.known entry member
  have bound := Finset.card_le_card covered
  rw [List.toFinset_card_of_nodup counted.distinct, List.length_map] at bound
  omega

private theorem takeBucket_taken (key : κ) :
    Taken options start key checks (takeBucket options start key buckets).1 (takeBucket options start key buckets).2 := by
  unfold takeBucket
  cases found : findAt Prod.fst key buckets with
  | some entry =>
    obtain ⟨member, rfl⟩ := findAt_inv found
    obtain ⟨distinct, known, allowed⟩ := counted.narrow (List.filter_sublist (p := fun other => decide (other.1 ≠ entry.1)))
    refine ⟨distinct, ?_, ?_, known, counted.allowed entry member, allowed, ?_⟩
    · intro inside
      obtain ⟨other, kept, same⟩ := List.mem_map.mp inside
      exact of_decide_eq_true (List.mem_filter.mp kept).2 same
    · have fewer : (buckets.filter fun other => decide (other.1 ≠ entry.1)).length < buckets.length :=
        List.length_filter_lt_length_iff_exists.mpr ⟨entry, member, by simp⟩
      exact fewer.trans_le counted.size
    · intro few
      have inside := counted.known entry member
      rw [Finset.insert_eq_of_mem inside] at few
      obtain ⟨bucket, own, count⟩ := counted.exact few entry.1 inside
      have same : (entry.1, bucket) = entry := List.inj_on_of_nodup_map counted.distinct own member rfl
      refine ⟨same ▸ count, ?_⟩
      intro other present apart
      obtain ⟨kept, there, total⟩ := counted.exact few other present
      exact ⟨kept, List.mem_filter.mpr ⟨there, decide_eq_true apart⟩, total⟩
  | none =>
    dsimp only
    have absent : key ∉ buckets.map Prod.fst := findAt_none.mp found
    have fewer : (if buckets.length ≥ options.maxBuckets then buckets.tail else buckets).Sublist buckets := by
      split
      · exact List.tail_sublist _
      · exact List.Sublist.refl _
    obtain ⟨distinct, known, allowed⟩ := counted.narrow fewer
    refine ⟨distinct, fun inside => absent ((fewer.map Prod.fst).subset inside), ?_, known, Nat.zero_le _, allowed, ?_⟩
    · have some := options.buckets_positive
      have size := counted.size
      split
      · rw [List.length_tail]
        omega
      · omega
    · intro few
      have fresh : key ∉ windowKeys options start checks := by
        intro inside
        obtain ⟨bucket, member, -⟩ := counted.exact ((Finset.card_le_card (Finset.subset_insert _ _)).trans few) key inside
        exact absent (List.mem_map.mpr ⟨_, member, rfl⟩)
      refine ⟨by rw [checksOf_zero fresh, Nat.zero_min], ?_⟩
      intro other present apart
      rw [if_neg (not_le.mpr (counted.room fresh few))]
      exact counted.exact ((Finset.card_le_card (Finset.subset_insert _ _)).trans few) other present

end Step

private theorem countCheck_allowed (time : ℚ) (bucket : RateLimitBucket) :
    (countCheck options time bucket).1.allowed = true ↔ bucket.count < ⌈options.limit⌉₊ := by
  rw [Nat.lt_ceil]
  unfold countCheck
  split
  next full => simpa using full
  next room => simpa using room

private theorem countCheck_count (time : ℚ) (bucket : RateLimitBucket) :
    (countCheck options time bucket).2.count = bucket.count + if (countCheck options time bucket).1.allowed then 1 else 0 := by
  unfold countCheck
  split <;> rfl

section Served
variable {before : List (Check κ)} {input : Check κ}

/-- The buckets that a check finds. -/
abbrev openedFor (options : RateLimitOptions) (before : List (Check κ)) (input : Check κ) :=
  (served options before).1.opened (options.windowStart input.time)

abbrev takenFor (options : RateLimitOptions) (before : List (Check κ)) (input : Check κ) :=
  takeBucket options (options.windowStart input.time) input.key (openedFor options before input)

private theorem served_buckets : (served options (before ++ [input])).1.buckets =
    (takenFor options before input).2 ++ [(input.key, (countCheck options input.time (takenFor options before input).1).2)] := by
  rw [served_append]
  rfl

private theorem answer_allowed : (answer options before input).allowed = true ↔
    (takenFor options before input).1.count < ⌈options.limit⌉₊ :=
  countCheck_allowed input.time _

private theorem checksOf_allowed (key : κ) :
    checksOf options (options.windowStart input.time) key (allowedChecks options (before ++ [input])) =
      checksOf options (options.windowStart input.time) key (allowedChecks options before) +
        if (answer options before input).allowed = true then if input.key = key then 1 else 0 else 0 := by
  rw [allowedChecks_append]
  cases (answer options before input).allowed with
  | true => rw [if_pos rfl, if_pos rfl, checksOf_append]
  | false => rw [if_neg (by simp), if_neg (by simp), List.append_nil, add_zero]

private theorem answer_count : (countCheck options input.time (takenFor options before input).1).2.count =
    (takenFor options before input).1.count + if (answer options before input).allowed = true then 1 else 0 :=
  countCheck_count input.time _

variable (counted : Counted options (options.windowStart input.time) before (openedFor options before input))
include counted

private theorem taken_for :
    Taken options (options.windowStart input.time) input.key before (takenFor options before input).1 (takenFor options before input).2 :=
  takeBucket_taken counted input.key

private theorem answer_rejected (rejected : (answer options before input).allowed = false) :
    options.limit ≤ checksOf options (options.windowStart input.time) input.key (allowedChecks options before) := by
  have taken := taken_for counted
  rw [← Bool.not_eq_true, answer_allowed, not_lt, Nat.ceil_le] at rejected
  exact rejected.trans (Nat.cast_le.mpr taken.allowed)

private theorem answer_exact
    (few : (windowKeys options (options.windowStart input.time) (before ++ [input])).card ≤ options.maxBuckets) :
    (answer options before input).allowed = true ↔
      (checksOf options (options.windowStart input.time) input.key before : ℚ) < options.limit := by
  rw [windowKeys_append] at few
  have total := ((taken_for counted).exact few).1
  rw [answer_allowed, total, ← Nat.lt_ceil]
  omega

private theorem step_counted :
    Counted options (options.windowStart input.time) (before ++ [input]) (served options (before ++ [input])).1.buckets := by
  have taken := taken_for counted
  have decided := @answer_allowed _ _ options before input
  have total := @answer_count _ _ options before input
  rw [served_buckets]
  generalize (countCheck options input.time (takenFor options before input).1).2 = updated at total ⊢
  generalize takenFor options before input = pair at taken decided total ⊢
  obtain ⟨bucket, others⟩ := pair
  have apart : ∀ entry ∈ others, input.key ≠ entry.1 := fun entry member same => taken.absent (same ▸ List.mem_map_of_mem member)
  constructor
  case distinct =>
    rw [List.map_append, List.nodup_append]
    refine ⟨taken.distinct, List.nodup_singleton _, ?_⟩
    intro key inside last here same
    rw [List.mem_singleton.mp here] at same
    exact taken.absent (by rwa [same] at inside)
  case size =>
    rw [List.length_append]
    exact taken.size
  case known =>
    intro entry member
    rw [windowKeys_append]
    rcases List.mem_append.mp member with kept | own
    · exact Finset.mem_insert_of_mem (taken.known entry kept)
    · obtain rfl := List.mem_singleton.mp own
      exact Finset.mem_insert_self _ _
  case allowed =>
    intro entry member
    rw [checksOf_allowed]
    rcases List.mem_append.mp member with kept | own
    · exact (taken.others_allowed entry kept).trans (Nat.le_add_right _ _)
    · obtain rfl := List.mem_singleton.mp own
      have bound := taken.allowed
      dsimp only at bound total ⊢
      rw [total, if_pos rfl]
      omega
  case exact =>
    intro few key present
    rw [windowKeys_append] at few present
    obtain ⟨own, rest⟩ := taken.exact few
    rw [checksOf_append]
    by_cases here : input.key = key
    · subst here
      refine ⟨updated, by simp, ?_⟩
      rw [total, if_pos rfl]
      by_cases allowed : (answer options before input).allowed = true
      · have below := decided.mp allowed
        rw [if_pos allowed]
        omega
      · have full := mt decided.mpr allowed
        rw [if_neg allowed]
        omega
    · obtain ⟨bucket, member, count⟩ := rest key (Finset.mem_of_mem_insert_of_ne present (Ne.symm here)) (Ne.symm here)
      exact ⟨bucket, List.mem_append_left _ member, by rw [if_neg here, count, add_zero]⟩

end Served

section Clock

private theorem windowStart_mono {earlier later : ℚ} (order : earlier ≤ later) : options.windowStart earlier ≤ options.windowStart later := by
  have positive := options.window_positive
  unfold RateLimitOptions.windowStart
  gcongr

private theorem counted_empty {start : ℚ} {checks : List (Check κ)} (empty : inWindow options start checks = []) :
    Counted options start checks [] := by
  constructor
  case exact =>
    intro _ key present
    rw [windowKeys, empty] at present
    cases present
  all_goals simp

omit [DecidableEq κ] in
private theorem inWindow_empty {start : ℚ} {checks : List (Check κ)} (apart : ∀ input ∈ checks, options.windowStart input.time ≠ start) :
    inWindow options start checks = [] := by
  rw [inWindow, List.filter_eq_nil_iff]
  intro input member same
  exact apart input member (of_decide_eq_true same)

/-- Under a clock that does not go back, the buckets that a check finds have counted the checks of its window. -/
private theorem opened_counted {checks : List (Check κ)} {time : ℚ} (clock : checks.Pairwise fun first second => first.time ≤ second.time)
    (latest : ∀ input ∈ checks, input.time ≤ time) :
    Counted options (options.windowStart time) checks ((served options checks).1.opened (options.windowStart time)) := by
  induction checks using List.reverseRecOn generalizing time with
  | nil => exact counted_empty rfl
  | append_singleton before input ih =>
    obtain ⟨earlier, -, ordered⟩ := List.pairwise_append.mp clock
    have upTo : ∀ other ∈ before, other.time ≤ input.time := fun other member => ordered other member input (by simp)
    have step := step_counted (ih earlier upTo)
    have active : (served options (before ++ [input])).1.activeWindowStart = some (options.windowStart input.time) := by
      rw [served_append]
      rfl
    rw [RateLimiter.opened, active]
    by_cases same : options.windowStart input.time = options.windowStart time
    · rw [if_neg (by simp [same]), ← same]
      exact step
    · rw [if_pos (by simpa using same)]
      apply counted_empty
      apply inWindow_empty
      intro other member here
      have last : other.time ≤ input.time := by
        rcases List.mem_append.mp member with old | new
        · exact upTo other old
        · rw [List.mem_singleton.mp new]
      have lower := @windowStart_mono options _ _ last
      have upper := @windowStart_mono options _ _ (latest input (by simp))
      exact same (le_antisymm upper (here ▸ lower))

end Clock

/-- Whatever keys are checked under a clock that does not go back: a check is rejected only after as many allowed checks of its key in the
window as the limit; while the window's keys fit into the map, the first checks of each key up to the limit are the allowed ones; and the map
never outgrows its bound. -/
theorem fixed_window_exact (options : RateLimitOptions) (before : List (Check κ)) (input : Check κ)
    (clock : (before ++ [input]).Pairwise fun first second => first.time ≤ second.time) :
    ((answer options before input).allowed = false →
      options.limit ≤ checksOf options (options.windowStart input.time) input.key (allowedChecks options before)) ∧
    ((windowKeys options (options.windowStart input.time) (before ++ [input])).card ≤ options.maxBuckets →
      ((answer options before input).allowed = true ↔
        (checksOf options (options.windowStart input.time) input.key before : ℚ) < options.limit)) ∧
    (served options (before ++ [input])).1.size ≤ options.maxBuckets := by
  obtain ⟨earlier, -, ordered⟩ := List.pairwise_append.mp clock
  have counted := @opened_counted _ _ options _ _ earlier fun other member => ordered other member input (by simp)
  exact ⟨answer_rejected counted, answer_exact counted, (step_counted counted).size⟩

/-- Two checks a minute of one key at a time: a second key takes the place of the first, whose third check is counted afresh. -/
theorem fixed_window_exact_displaced :
    let options : RateLimitOptions := ⟨60000, 2, 1, by decide, by decide, by decide⟩
    let before : List (Check Nat) := [⟨1, 7⟩, ⟨2, 7⟩, ⟨3, 8⟩]
    (served options (before ++ [⟨4, 7⟩])).1.size ≤ 1 ∧ (answer options [⟨1, 7⟩, ⟨2, 7⟩] ⟨3, 7⟩).allowed = false ∧
      (answer options before ⟨4, 7⟩).allowed = true :=
  ⟨(fixed_window_exact ⟨60000, 2, 1, by decide, by decide, by decide⟩ [⟨1, 7⟩, ⟨2, 7⟩, ⟨3, 8⟩] ⟨4, 7⟩ (by decide)).2.2,
    by decide +kernel, by decide +kernel⟩

end Quotum.RateLimit
