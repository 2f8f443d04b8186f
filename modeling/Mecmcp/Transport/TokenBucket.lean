import Mecmcp.Lib.Json

/-!
# TokenBucket — the request-rate limiter

The bucket and the bounded bucket map of `rate_limit.rs`.  Tokens are counted in units of
10⁻⁹ token, so that one nanosecond at a rate of one token per second is worth one unit; all sums
and products saturate at `u128::MAX`.  Times are nanoseconds since some fixed instant.

A bucket never refills for a time that lies before its last refill, so what it has handed out is
measured against the running maximum of its check times.  `Bucket.run_budget` is the amortised
bound for a whole run, `check_after_retry` the exactness of the two ceiling divisions.
-/

namespace Mecmcp.Transport

open List

/-! ### Source -/

/-- `TOKEN_SCALE`: units in a token, nanoseconds in a second. -/
def tokenScale : ℕ := 1000000000

def u64Max : ℕ := 2 ^ 64 - 1
def u128Max : ℕ := 2 ^ 128 - 1

/-- The result of a saturating `u128` operation. -/
def saturate (n : ℕ) : ℕ := min n u128Max

def divCeil (a b : ℕ) : ℕ := (a + b - 1) / b

inductive RateDecision where
  | allowed
  | limited (retryAfterSecs : ℕ)
  deriving DecidableEq

structure Bucket where
  availableUnits : ℕ
  lastRefill : ℕ
  deriving DecidableEq

def capacityUnits (burst : UInt64) : ℕ := saturate (burst.toNat * tokenScale)

def refillUnits (elapsed : ℕ) (rate : UInt64) : ℕ := saturate (elapsed * rate.toNat)

namespace Bucket

def full (burst : UInt64) (now : ℕ) : Bucket := ⟨capacityUnits burst, now⟩

/-- A time before the last refill adds nothing. -/
def refill (bucket : Bucket) (now : ℕ) (rate burst : UInt64) : Bucket :=
  if bucket.lastRefill ≤ now then
    ⟨min (saturate (bucket.availableUnits + refillUnits (now - bucket.lastRefill) rate))
      (capacityUnits burst), now⟩
  else bucket

/-- The seconds a caller is told to wait for one token. -/
def retryAfter (available : ℕ) (rate : UInt64) : ℕ :=
  let deficitUnits := tokenScale - available
  let waitNs := divCeil deficitUnits rate.toNat
  min (max (divCeil waitNs tokenScale) 1) u64Max

def check (bucket : Bucket) (now : ℕ) (rate burst : UInt64) : RateDecision × Bucket :=
  let bucket := bucket.refill now rate burst
  if tokenScale ≤ bucket.availableUnits then
    (.allowed, { bucket with availableUnits := bucket.availableUnits - tokenScale })
  else (.limited (retryAfter bucket.availableUnits rate), bucket)

/-- A sequence of checks, each with its time and answer. -/
def run (rate burst : UInt64) : Bucket → List ℕ → List (ℕ × RateDecision)
  | _, [] => []
  | bucket, now :: times =>
    (now, (bucket.check now rate burst).1) :: run rate burst (bucket.check now rate burst).2 times

end Bucket

/-- Buckets by key, each with the time of its last access. -/
structure BucketMap where
  buckets : List (String × (Bucket × ℕ))
  maxSize : ℕ

namespace BucketMap

/-- A key that `min_by_key` on the last access can return.  The iteration order of the hash map
decides between keys of one age. -/
def isOldest (map : BucketMap) (key : String) : Bool :=
  match map.buckets.lookup key with
  | some entry => map.buckets.all fun other => entry.2 ≤ other.2.2
  | none => false

def evicts (map : BucketMap) (key : String) : Bool :=
  (map.buckets.lookup key).isNone && map.maxSize ≤ map.buckets.length && !map.buckets.isEmpty

/-- Room for `key`: the bucket of `oldest` is removed where one has to go. -/
def makeRoom (map : BucketMap) (key oldest : String) : Option BucketMap :=
  if map.evicts key then
    if map.isOldest oldest then
      some { map with buckets := map.buckets.filter fun entry => entry.1 ≠ oldest }
    else none
  else some map

/-- One check.  `oldest` is the key evicted if one has to be; `none` is a choice that `min_by_key`
cannot make. -/
def check (map : BucketMap) (key : String) (now : ℕ) (rate burst : UInt64) (oldest : String) :
    Option (RateDecision × BucketMap) :=
  (map.makeRoom key oldest).map fun map =>
    let bucket := ((map.buckets.lookup key).map Prod.fst).getD (Bucket.full burst now)
    let checked := bucket.check now rate burst
    (checked.1, { map with buckets := upsert key (checked.2, now) map.buckets })

end BucketMap

/-- A call of `BucketMap::check`. -/
structure RateCall where
  key : String
  now : ℕ
  oldest : String

/-- The checks of `key` among the calls, with their answers; `none` as soon as the bucket of `key`
is evicted. -/
def BucketMap.keyChecks (key : String) (rate burst : UInt64) :
    BucketMap → List RateCall → Option (List (ℕ × RateDecision))
  | _, [] => some []
  | map, call :: calls => do
    let (decision, next) ← map.check call.key call.now rate burst call.oldest
    if (map.buckets.lookup key).isSome ∧ (next.buckets.lookup key).isNone then none else
    let rest ← keyChecks key rate burst next calls
    return if call.key = key then (call.now, decision) :: rest else rest

/-! ### One check -/

/-- Running maximum of the check times. -/
def runMax (checks : List (ℕ × RateDecision)) : ℕ := (checks.map Prod.fst).foldl max 0

/-- Number of `Allowed` answers. -/
def allowedCount (checks : List (ℕ × RateDecision)) : ℕ :=
  checks.countP fun check => check.2 = .allowed

section
variable {bucket : Bucket} {now : ℕ} {rate burst : UInt64}
variable {times : List ℕ} {xs ys : List (ℕ × RateDecision)} {start : ℕ}

theorem saturate_le (n : ℕ) : saturate n ≤ n := min_le_left n u128Max

theorem capacityUnits_eq (burst : UInt64) : capacityUnits burst = burst.toNat * tokenScale := by
  have hlt : burst.toNat < 2 ^ 64 := burst.toNat_lt
  refine min_eq_left ?_
  simp only [tokenScale, u128Max]
  omega

theorem Bucket.refill_lastRefill :
    (bucket.refill now rate burst).lastRefill = max bucket.lastRefill now := by
  unfold Bucket.refill
  split_ifs with h
  · exact (max_eq_right h).symm
  · exact (max_eq_left (by omega)).symm

theorem Bucket.refill_units_le :
    (bucket.refill now rate burst).availableUnits ≤
      bucket.availableUnits + rate.toNat * (max bucket.lastRefill now - bucket.lastRefill) := by
  unfold Bucket.refill
  split_ifs with h
  · have hadd := saturate_le (bucket.availableUnits + refillUnits (now - bucket.lastRefill) rate)
    have hmul : refillUnits (now - bucket.lastRefill) rate ≤ (now - bucket.lastRefill) * rate.toNat :=
      saturate_le _
    rw [max_eq_right h, Nat.mul_comm rate.toNat]
    exact (min_le_left _ _).trans (by omega)
  · omega

theorem Bucket.refill_le_capacity (h : bucket.availableUnits ≤ capacityUnits burst) :
    (bucket.refill now rate burst).availableUnits ≤ capacityUnits burst := by
  unfold Bucket.refill
  split_ifs
  · exact min_le_right _ _
  · exact h

theorem Bucket.check_cases (bucket : Bucket) (now : ℕ) (rate burst : UInt64) :
    (tokenScale ≤ (bucket.refill now rate burst).availableUnits ∧
      bucket.check now rate burst =
        (.allowed, ⟨(bucket.refill now rate burst).availableUnits - tokenScale,
          (bucket.refill now rate burst).lastRefill⟩)) ∨
    ((bucket.refill now rate burst).availableUnits < tokenScale ∧
      bucket.check now rate burst =
        (.limited (retryAfter (bucket.refill now rate burst).availableUnits rate),
          bucket.refill now rate burst)) := by
  unfold Bucket.check
  dsimp only
  by_cases h : tokenScale ≤ (bucket.refill now rate burst).availableUnits
  · rw [if_pos h]
    exact .inl ⟨h, rfl⟩
  · rw [if_neg h]
    exact .inr ⟨by omega, rfl⟩

theorem Bucket.check_lastRefill :
    (bucket.check now rate burst).2.lastRefill = max bucket.lastRefill now := by
  rcases bucket.check_cases now rate burst with ⟨-, h⟩ | ⟨-, h⟩
  · simp only [h, Bucket.refill_lastRefill]
  · simp only [h, Bucket.refill_lastRefill]

theorem Bucket.check_units :
    allowedCount [(now, (bucket.check now rate burst).1)] * tokenScale +
        (bucket.check now rate burst).2.availableUnits =
      (bucket.refill now rate burst).availableUnits := by
  rcases bucket.check_cases now rate burst with ⟨hunits, h⟩ | ⟨-, h⟩ <;> rw [h]
  · have hone : allowedCount [(now, .allowed)] = 1 := rfl
    rw [hone, one_mul]
    exact Nat.add_sub_of_le hunits
  · simp [allowedCount]

theorem Bucket.check_le_capacity (h : bucket.availableUnits ≤ capacityUnits burst) :
    (bucket.check now rate burst).2.availableUnits ≤ capacityUnits burst := by
  have hcheck := @Bucket.check_units bucket now rate burst
  have hrefill := @Bucket.refill_le_capacity bucket now rate burst h
  omega

/-! ### Runs of one bucket -/

theorem allowedCount_append (xs ys : List (ℕ × RateDecision)) :
    allowedCount (xs ++ ys) = allowedCount xs + allowedCount ys := List.countP_append

theorem runMax_append (xs ys : List (ℕ × RateDecision)) :
    runMax (xs ++ ys) = max (runMax xs) (runMax ys) := by
  have hfold : ∀ (times : List ℕ) (start : ℕ),
      times.foldl max start = max start (times.foldl max 0) := by
    intro times
    induction times with
    | nil => intro start; simp
    | cons time times ih =>
      intro start
      rw [foldl_cons, foldl_cons, ih (max start time), ih (max 0 time)]
      omega
  rw [runMax, map_append, foldl_append, hfold]
  rfl

theorem runMax_cons (check : ℕ × RateDecision) (checks : List (ℕ × RateDecision)) :
    runMax (check :: checks) = max check.1 (runMax checks) := by
  have h := runMax_append [check] checks
  simpa [runMax] using h

def Bucket.after (rate burst : UInt64) (bucket : Bucket) (times : List ℕ) : Bucket :=
  times.foldl (fun bucket now => (bucket.check now rate burst).2) bucket

/-- **The budget of a run**: what was handed out and what is left came from what was there and the
rate for the time that passed. -/
theorem Bucket.run_budget (bucket : Bucket) (times : List ℕ) :
    allowedCount (bucket.run rate burst times) * tokenScale +
        (bucket.after rate burst times).availableUnits ≤
      bucket.availableUnits + rate.toNat *
        (max bucket.lastRefill (runMax (bucket.run rate burst times)) - bucket.lastRefill) := by
  induction times generalizing bucket with
  | nil => simp [Bucket.run, Bucket.after, allowedCount]
  | cons now times ih =>
    have hcheck := @Bucket.check_units bucket now rate burst
    have hrefill := @Bucket.refill_units_le bucket now rate burst
    have hlast := @Bucket.check_lastRefill bucket now rate burst
    have hrest := ih (bucket.check now rate burst).2
    have hcount : allowedCount (bucket.run rate burst (now :: times)) =
        allowedCount [(now, (bucket.check now rate burst).1)] +
          allowedCount ((bucket.check now rate burst).2.run rate burst times) :=
      allowedCount_append [_] _
    rw [hlast] at hrest
    rw [hcount, Nat.add_mul, Bucket.run, runMax_cons]
    simp only [Bucket.after, foldl_cons] at hrest ⊢
    set later := runMax ((bucket.check now rate burst).2.run rate burst times)
    -- the two stretches of time add up
    have htime : rate.toNat * (max bucket.lastRefill now - bucket.lastRefill) +
        rate.toNat * (max (max bucket.lastRefill now) later - max bucket.lastRefill now) =
        rate.toNat * (max bucket.lastRefill (max now later) - bucket.lastRefill) := by
      rw [← Nat.mul_add]
      congr 1
      omega
    omega

theorem Bucket.after_lastRefill (bucket : Bucket) (times : List ℕ) :
    (bucket.after rate burst times).lastRefill =
      max bucket.lastRefill (runMax (bucket.run rate burst times)) := by
  induction times generalizing bucket with
  | nil => simp [Bucket.after, Bucket.run, runMax]
  | cons now times ih =>
    have hrest := ih (bucket.check now rate burst).2
    rw [Bucket.check_lastRefill] at hrest
    rw [Bucket.run, runMax_cons]
    simp only [Bucket.after, foldl_cons] at hrest ⊢
    rw [hrest]
    omega

theorem Bucket.after_le_capacity (h : bucket.availableUnits ≤ capacityUnits burst)
    (times : List ℕ) : (bucket.after rate burst times).availableUnits ≤ capacityUnits burst := by
  induction times generalizing bucket with
  | nil => exact h
  | cons now times ih => exact ih (Bucket.check_le_capacity h)

theorem Bucket.run_split (h : bucket.run rate burst times = xs ++ ys) :
    xs = bucket.run rate burst (xs.map Prod.fst) ∧
      ys = (bucket.after rate burst (xs.map Prod.fst)).run rate burst (ys.map Prod.fst) := by
  induction xs generalizing bucket times with
  | nil =>
    refine ⟨rfl, ?_⟩
    have htimes : ∀ (bucket : Bucket) (times : List ℕ),
        (bucket.run rate burst times).map Prod.fst = times := by
      intro bucket times
      induction times generalizing bucket with
      | nil => rfl
      | cons now times ih => simp [Bucket.run, ih]
    have hys : bucket.run rate burst times = ys := h
    rw [← hys, htimes]
    rfl
  | cons x xs ih =>
    cases times with
    | nil => cases h
    | cons now times =>
      obtain ⟨rfl, hrest⟩ := List.cons.inj h
      obtain ⟨hxs, hys⟩ := ih hrest
      refine ⟨?_, hys⟩
      rw [map_cons, Bucket.run, ← hxs]

theorem Bucket.after_full (hstart : times.head? = some start)
    (h : (Bucket.full burst start).run rate burst times = xs ++ ys) (hne : xs ≠ []) :
    ((Bucket.full burst start).after rate burst (xs.map Prod.fst)).lastRefill = runMax xs := by
  obtain ⟨hxs, -⟩ := Bucket.run_split h
  have hfirst : start ≤ runMax xs := by
    cases xs with
    | nil => exact absurd rfl hne
    | cons x xs =>
      cases times with
      | nil => cases h
      | cons now times =>
        obtain rfl : now = start := Option.some.inj hstart
        rw [runMax_cons, ← (List.cons.inj h).1]
        exact le_max_left _ _
  rw [Bucket.after_lastRefill, ← hxs]
  exact max_eq_right hfirst

/-- **The rate**: a part of a run hands out at most a burst and the rate for its time. -/
theorem Bucket.run_rate {before part after : List (ℕ × RateDecision)}
    {first : ℕ × RateDecision} (hstart : times.head? = some start)
    (h : (Bucket.full burst start).run rate burst times = before ++ (first :: part) ++ after) :
    allowedCount (first :: part) * tokenScale ≤ burst.toNat * tokenScale +
      rate.toNat * (runMax (before ++ first :: part) - runMax (before ++ [first])) := by
  obtain ⟨hpart, -⟩ := Bucket.run_split h
  obtain ⟨hone, hmore⟩ := Bucket.run_split
    (show (Bucket.full burst start).run rate burst ((before ++ first :: part).map Prod.fst) =
      (before ++ [first]) ++ part by rw [← hpart]; simp)
  obtain ⟨hbefore, hfirst⟩ := Bucket.run_split hone.symm
  -- the bucket after the first check of the part has its time, and held at most a burst for it
  set bucket₀ := (Bucket.full burst start).after rate burst (before.map Prod.fst)
  set bucket₁ := (Bucket.full burst start).after rate burst ((before ++ [first]).map Prod.fst)
    with hbucket₁
  have hlast : bucket₁.lastRefill = runMax (before ++ [first]) :=
    Bucket.after_full hstart (show _ = (before ++ [first]) ++ (part ++ after) by simpa using h)
      (by simp)
  have hcap : allowedCount [first] * tokenScale + bucket₁.availableUnits ≤ capacityUnits burst := by
    have hstep : bucket₁ = (bucket₀.check first.1 rate burst).2 := by
      simp [hbucket₁, bucket₀, Bucket.after]
    have hanswer : first = (first.1, (bucket₀.check first.1 rate burst).1) := (List.cons.inj hfirst).1
    rw [hstep, hanswer, Bucket.check_units]
    exact Bucket.refill_le_capacity (Bucket.after_le_capacity le_rfl _)
  have hbudget := @Bucket.run_budget rate burst bucket₁ (part.map Prod.fst)
  rw [← hmore, hlast] at hbudget
  have hcount : allowedCount (first :: part) = allowedCount [first] + allowedCount part :=
    allowedCount_append [first] part
  have hmax : runMax (before ++ first :: part) = max (runMax (before ++ [first])) (runMax part) := by
    rw [← runMax_append, append_assoc]
    rfl
  rw [hcount, Nat.add_mul, hmax, ← capacityUnits_eq]
  omega

/-! ### The wait -/

theorem divCeil_le_iff {a b k : ℕ} (hb : 0 < b) : divCeil a b ≤ k ↔ a ≤ k * b := by
  unfold divCeil
  rw [← Nat.lt_succ_iff, Nat.div_lt_iff_lt_mul hb, Nat.succ_mul]
  omega

/-- A bucket is short of less than one token, and the rate is at least one token per second: the
wait is always one second. -/
theorem Bucket.retryAfter_eq {available : ℕ} (hrate : 1 ≤ rate.toNat) :
    Bucket.retryAfter available rate = 1 := by
  have hscale : 0 < tokenScale := by decide
  have hwait : divCeil (tokenScale - available) rate.toNat ≤ tokenScale := by
    rw [divCeil_le_iff (by omega)]
    exact (Nat.sub_le _ _).trans (Nat.le_mul_of_pos_right _ (by omega))
  have hsecs : divCeil (divCeil (tokenScale - available) rate.toNat) tokenScale ≤ 1 := by
    rw [divCeil_le_iff hscale, one_mul]
    exact hwait
  unfold Bucket.retryAfter
  dsimp only
  rw [max_eq_right hsecs]
  decide

/-- **The wait is exact**: measured from the bucket's time, a check after it is allowed and one a
second earlier is not. -/
theorem Bucket.check_after_retry {r now' : ℕ} {next : Bucket} (hrate : 1 ≤ rate.toNat)
    (hburst : 1 ≤ burst.toNat) (h : bucket.check now rate burst = (.limited r, next)) :
    (now' = next.lastRefill + r * tokenScale → (next.check now' rate burst).1 = .allowed) ∧
      (1 < r → now' = next.lastRefill + (r - 1) * tokenScale →
        (next.check now' rate burst).1 ≠ .allowed) := by
  obtain ⟨-, heq⟩ | ⟨-, heq⟩ := bucket.check_cases now rate burst
  · rw [heq] at h
    cases h
  · rw [heq] at h
    obtain ⟨hr, rfl⟩ := Prod.mk.inj h
    have hone : r = 1 := (RateDecision.limited.inj hr).symm.trans (Bucket.retryAfter_eq hrate)
    subst hone
    refine ⟨?_, fun hlt => absurd hlt (lt_irrefl _)⟩
    rintro rfl
    set held := bucket.refill now rate burst
    -- one second is worth at least one token, and a burst holds one
    have hunits : tokenScale ≤
        (held.refill (held.lastRefill + 1 * tokenScale) rate burst).availableUnits := by
      have hmul : tokenScale ≤ 1 * tokenScale * rate.toNat := by
        rw [one_mul]
        exact Nat.le_mul_of_pos_right _ (by omega)
      have hcap : tokenScale ≤ capacityUnits burst := by
        rw [capacityUnits_eq]
        exact Nat.le_mul_of_pos_left _ (by omega)
      have hmax : tokenScale ≤ u128Max := by decide
      have hrefill : tokenScale ≤ refillUnits (1 * tokenScale) rate := le_min hmul hmax
      unfold Bucket.refill
      rw [if_pos (Nat.le_add_right _ _), Nat.add_sub_cancel_left]
      exact le_min (le_min (hrefill.trans (Nat.le_add_left _ _)) hmax) hcap
    obtain ⟨-, hallowed⟩ | ⟨hlt, -⟩ :=
      held.check_cases (held.lastRefill + 1 * tokenScale) rate burst
    · rw [hallowed]
    · exact absurd hunits (Nat.not_le.mpr hlt)

end

/-! ### The map -/

section
variable {α : Type} {fs : List (String × α)} {k key : String}

theorem lookup_filter_ne : (fs.filter fun entry => entry.1 ≠ k).lookup key =
    if key = k then none else fs.lookup key := by
  induction fs with
  | nil => simp
  | cons f fs ih =>
    obtain ⟨k', v'⟩ := f
    by_cases hk : k' = k
    · subst hk
      rw [filter_cons_of_neg (by simp), ih, lookup_cons]
      by_cases h : key = k'
      · simp [h]
      · have hne : (key == k') = false := by simpa using h
        simp [h, hne]
    · rw [filter_cons_of_pos (by simpa using hk), lookup_cons, lookup_cons, ih]
      by_cases h : key = k'
      · subst h
        simp [hk]
      · have hne : (key == k') = false := by simpa using h
        simp [hne]

end

variable {key : String} {rate burst : UInt64} {map : BucketMap}
variable {calls : List RateCall} {checks : List (ℕ × RateDecision)}

theorem BucketMap.makeRoom_lookup {arriving oldest : String} {room : BucketMap}
    (h : map.makeRoom arriving oldest = some room) :
    room.buckets.lookup key = map.buckets.lookup key ∨
      key ≠ arriving ∧ room.buckets.lookup key = none := by
  unfold BucketMap.makeRoom at h
  split_ifs at h with hevicts holdest
  · cases h
    by_cases hkey : key = oldest
    · subst hkey
      refine .inr ⟨?_, by rw [lookup_filter_ne, if_pos rfl]⟩
      -- the evicted key has a bucket, the arriving one has none
      rintro rfl
      simp only [BucketMap.evicts, Bool.and_eq_true, Option.isNone_iff_eq_none] at hevicts
      simp [BucketMap.isOldest, hevicts.1.1] at holdest
    · exact .inl (by rw [lookup_filter_ne, if_neg hkey])
  · cases h
    exact .inl rfl

variable {call : RateCall}

/-- What a call leaves at `key`: after a check of `key` its own bucket, checked; after a check of
another key the bucket as it was, or none. -/
theorem BucketMap.check_lookup {decision : RateDecision} {next : BucketMap}
    (h : map.check call.key call.now rate burst call.oldest = some (decision, next)) :
    (call.key = key →
      ∀ bucket, bucket = ((map.buckets.lookup key).map Prod.fst).getD (.full burst call.now) →
        decision = (bucket.check call.now rate burst).1 ∧
        next.buckets.lookup key = some ((bucket.check call.now rate burst).2, call.now)) ∧
    (call.key ≠ key → next.buckets.lookup key = map.buckets.lookup key ∨
      next.buckets.lookup key = none) := by
  obtain ⟨room, hroom, heq⟩ := Option.map_eq_some_iff.mp h
  dsimp only at heq
  obtain ⟨hdecision, hnext⟩ := Prod.mk.injEq .. ▸ heq
  have hsame := @BucketMap.makeRoom_lookup key _ _ _ _ hroom
  subst hdecision hnext
  refine ⟨?_, ?_⟩
  · rintro rfl bucket rfl
    have hkept : room.buckets.lookup call.key = map.buckets.lookup call.key := by
      rcases hsame with h | ⟨hne, -⟩
      · exact h
      · exact absurd rfl hne
    rw [hkept]
    exact ⟨rfl, by rw [lookup_upsert, if_pos rfl]⟩
  · intro hne
    rw [lookup_upsert, if_neg (Ne.symm hne)]
    exact hsame.imp_right And.right

theorem BucketMap.keyChecks_cons (h : map.keyChecks key rate burst (call :: calls) = some checks) :
    ∃ decision next rest,
      map.check call.key call.now rate burst call.oldest = some (decision, next) ∧
      (map.buckets.lookup key ≠ none → next.buckets.lookup key ≠ none) ∧
      next.keyChecks key rate burst calls = some rest ∧
      checks = if call.key = key then (call.now, decision) :: rest else rest := by
  obtain ⟨⟨decision, next⟩, hcheck, h⟩ := Option.bind_eq_some_iff.mp h
  dsimp only at h
  by_cases hgone : (map.buckets.lookup key).isSome ∧ (next.buckets.lookup key).isNone
  · rw [if_pos hgone] at h
    cases h
  · rw [if_neg hgone] at h
    obtain ⟨rest, hrest, heq⟩ := Option.bind_eq_some_iff.mp h
    refine ⟨decision, next, rest, hcheck, ?_, hrest, (Option.some.inj heq).symm⟩
    intro hsome hnone
    exact hgone ⟨Option.isSome_iff_ne_none.mpr hsome, Option.isNone_iff_eq_none.mpr hnone⟩

theorem BucketMap.keyChecks_run {bucket : Bucket} {access : ℕ}
    (hkey : map.buckets.lookup key = some (bucket, access))
    (h : map.keyChecks key rate burst calls = some checks) :
    checks = bucket.run rate burst (checks.map Prod.fst) := by
  induction calls generalizing map bucket access checks with
  | nil =>
    cases h
    rfl
  | cons call calls ih =>
    obtain ⟨decision, next, rest, hcheck, hkept, hrest, rfl⟩ := BucketMap.keyChecks_cons h
    obtain ⟨hown, hother⟩ := @BucketMap.check_lookup key _ _ _ _ _ _ hcheck
    by_cases hcall : call.key = key
    · obtain ⟨hdecision, hnext⟩ := hown hcall bucket (by simp [hkey])
      rw [if_pos hcall, map_cons, Bucket.run, ← ih hnext hrest, hdecision]
    · have hnext : next.buckets.lookup key = some (bucket, access) := by
        rcases hother hcall with h | h
        · rw [h, hkey]
        · exact absurd h (hkept (by simp [hkey]))
      rw [if_neg hcall]
      exact ih hnext hrest

theorem BucketMap.keyChecks_full (hkey : map.buckets.lookup key = none)
    (h : map.keyChecks key rate burst calls = some checks) (hne : checks ≠ []) :
    ∃ start, (checks.map Prod.fst).head? = some start ∧
      checks = (Bucket.full burst start).run rate burst (checks.map Prod.fst) := by
  induction calls generalizing map checks with
  | nil =>
    cases h
    exact absurd rfl hne
  | cons call calls ih =>
    obtain ⟨decision, next, rest, hcheck, hkept, hrest, rfl⟩ := BucketMap.keyChecks_cons h
    obtain ⟨hown, hother⟩ := @BucketMap.check_lookup key _ _ _ _ _ _ hcheck
    by_cases hcall : call.key = key
    · obtain ⟨hdecision, hnext⟩ := hown hcall (.full burst call.now) (by simp [hkey])
      rw [if_pos hcall]
      refine ⟨call.now, rfl, ?_⟩
      rw [map_cons, Bucket.run, ← BucketMap.keyChecks_run hnext hrest, hdecision]
    · have hnext : next.buckets.lookup key = none := by
        rcases hother hcall with h | h
        · rw [h, hkey]
        · exact h
      rw [if_neg hcall] at hne ⊢
      exact ih hnext hrest hne

/-- **The token bucket enforces its rate.**  The checks of a key from the one that makes its bucket
on, as long as the bucket is not evicted: in any part of them the allowed ones are bounded by a
burst and the rate for the time by which the running maximum of the check times advanced; and after
a refusal with wait `r` at running maximum `m` the next check is allowed at `m + r` seconds, and not
at `m + (r - 1)` seconds where `r` is above one. -/
theorem token_bucket_enforces_rate (hrate : 1 ≤ rate.toNat) (hburst : 1 ≤ burst.toNat)
    (hkey : map.buckets.lookup key = none) {calls : List RateCall}
    {checks : List (ℕ × RateDecision)} (h : map.keyChecks key rate burst calls = some checks) :
    (∀ before first part after, checks = before ++ (first :: part) ++ after →
      allowedCount (first :: part) * tokenScale ≤ burst.toNat * tokenScale +
        rate.toNat * (runMax (before ++ first :: part) - runMax (before ++ [first]))) ∧
    (∀ before t r t' decision after,
      checks = before ++ (t, .limited r) :: (t', decision) :: after →
      (t' = runMax (before ++ [(t, .limited r)]) + r * tokenScale → decision = .allowed) ∧
      (1 < r → t' = runMax (before ++ [(t, .limited r)]) + (r - 1) * tokenScale →
        decision ≠ .allowed)) := by
  refine ⟨?_, ?_⟩
  · intro before first part after heq
    have hne : checks ≠ [] := by simp [heq]
    obtain ⟨start, hstart, hrun⟩ := BucketMap.keyChecks_full hkey h hne
    exact Bucket.run_rate hstart (hrun.symm.trans heq)
  · intro before t r t' decision after heq
    have hne : checks ≠ [] := by simp [heq]
    obtain ⟨start, hstart, hrun⟩ := BucketMap.keyChecks_full hkey h hne
    -- the bucket before the refusal, the refusal, and the check after it
    have hsplit := hrun.symm.trans heq
    obtain ⟨hbefore, hrest⟩ := Bucket.run_split hsplit
    set bucket := (Bucket.full burst start).after rate burst (before.map Prod.fst)
    obtain ⟨hlimited, hnext⟩ := List.cons.inj hrest
    have hrefused : bucket.check t rate burst = (.limited r, (bucket.check t rate burst).2) :=
      Prod.ext (Prod.mk.inj hlimited).2.symm rfl
    have hdecision : decision = ((bucket.check t rate burst).2.check t' rate burst).1 :=
      (Prod.mk.inj (List.cons.inj hnext).1).2
    have htime : (bucket.check t rate burst).2.lastRefill =
        runMax (before ++ [(t, .limited r)]) := by
      have hafter := Bucket.after_full hstart
        (show _ = (before ++ [(t, .limited r)]) ++ ((t', decision) :: after) by
          rw [hsplit, append_assoc]; rfl) (by simp)
      rw [← hafter]
      simp [bucket, Bucket.after]
    rw [hdecision, ← htime]
    exact Bucket.check_after_retry hrate hburst hrefused

/-- Checks of `alice` at 100, 50 and 101 seconds, with one of `bob` among them. -/
def aliceCalls : List RateCall :=
  [⟨"alice", 100000000000, ""⟩, ⟨"bob", 60000000000, ""⟩, ⟨"alice", 50000000000, ""⟩,
    ⟨"alice", 101000000000, ""⟩]

theorem aliceCalls_checks : BucketMap.keyChecks "alice" 1 1 ⟨[], 2⟩ aliceCalls =
    some [(100000000000, .allowed), (50000000000, .limited 1), (101000000000, .allowed)] := by
  decide +kernel

/-- At one token per second and a burst of one, two checks are allowed within the second by which
the running maximum advances. -/
theorem aliceCalls_keep_rate :
    BucketMap.keyChecks "alice" 1 1 ⟨[], 2⟩ aliceCalls =
      some [(100000000000, .allowed), (50000000000, .limited 1), (101000000000, .allowed)] ∧
    allowedCount [(100000000000, .allowed), (50000000000, .limited 1), (101000000000, .allowed)] *
        tokenScale ≤ 1 * tokenScale + 1 * (101000000000 - 100000000000) :=
  ⟨aliceCalls_checks,
    (token_bucket_enforces_rate (by decide) (by decide) rfl aliceCalls_checks).1 []
      (100000000000, .allowed) [(50000000000, .limited 1), (101000000000, .allowed)] [] rfl⟩

/-- A refusal at a time before the bucket's: the check a second after that time comes before the
bucket's time, too, and is refused again. -/
theorem refused_again_after_wait :
    ∃ checks, BucketMap.keyChecks "alice" 1 1 ⟨[], 2⟩
        [⟨"alice", 100000000000, ""⟩, ⟨"alice", 50000000000, ""⟩, ⟨"alice", 51000000000, ""⟩] =
      some checks ∧
      ∃ before t r t' decision after,
        checks = before ++ (t, .limited r) :: (t', decision) :: after ∧
        t' = t + r * tokenScale ∧ decision ≠ .allowed :=
  ⟨[(100000000000, .allowed), (50000000000, .limited 1), (51000000000, .limited 1)],
    by decide +kernel, [(100000000000, .allowed)], 50000000000, 1, 51000000000, .limited 1, [], rfl,
    by decide +kernel, by decide⟩

end Mecmcp.Transport
