import Mathlib

/-!
# Retry — GET requests with retries

`HttpClient::send_get_with_backoff` checks its budget before each delay, against the time that has
passed and the delay.  The attempt behind the delay takes time of its own, which nothing checks.

An environment says of each attempt how it ends and how long it takes; `startOf` is when an attempt
starts if the ones before it are all retried, and `sendFrom_spec` says which attempts a call makes.
-/

namespace Mecmcp.Http

open List

/-- A `std::time::Duration` has 64 bits of seconds. -/
def durationLimit : ℕ := 2 ^ 64 * 10 ^ 9

/-- Nanoseconds. -/
abbrev Duration : Type := Fin durationLimit

structure RetryPolicy where
  maxAttempts : ℕ
  initialBackoff : Duration
  maxBackoff : Duration
  maxTotalWait : Duration

/-- The result of `HttpClient::send`, as far as the retries look at it. -/
inductive Outcome where
  | response (status : ℕ)
  | timeout
  | failed

def isTransientStatus (status : ℕ) : Bool := status == 429 || (500 ≤ status && status ≤ 599)

def Outcome.isRetryable : Outcome → Bool
  | .response status => isTransientStatus status
  | .timeout => true
  | .failed => false

/-- How one attempt ends and how long it takes. -/
structure Attempt where
  outcome : Outcome
  duration : ℕ

/-- What a call has done when it returns. -/
structure RetryRun where
  attempts : ℕ
  delays : List ℕ
  outcome : Outcome
  ended : ℕ

/-- `checked_mul(2)`, or `max_backoff` on overflow, and at most `max_backoff`. -/
def nextBackoff (policy : RetryPolicy) (backoff : ℕ) : ℕ :=
  min (if backoff * 2 < durationLimit then backoff * 2 else policy.maxBackoff) policy.maxBackoff

/-- The loop at the start of attempt `done + 1`, at time `now`; `left` attempts are allowed after
this one. -/
def sendFrom (policy : RetryPolicy) (env : ℕ → Attempt) (delays : List ℕ) (backoff now : ℕ) :
    (left done : ℕ) → RetryRun
  | 0, done => ⟨done + 1, delays, (env done).outcome, now + (env done).duration⟩
  | left + 1, done =>
    let elapsed := now + (env done).duration
    -- a sum that is no `Duration` ends the call as well
    if (env done).outcome.isRetryable = false ∨ durationLimit ≤ elapsed + backoff ∨
        policy.maxTotalWait < elapsed + backoff then
      ⟨done + 1, delays, (env done).outcome, elapsed⟩
    else sendFrom policy env (delays ++ [backoff]) (nextBackoff policy backoff) (elapsed + backoff)
      left (done + 1)

/-- `send_get_with_backoff` of a request; `none` is `RetryRequiresGet`. -/
def sendGetWithBackoff (policy : RetryPolicy) (isGet : Bool) (env : ℕ → Attempt) :
    Option RetryRun :=
  if isGet then
    some (sendFrom policy env [] (min policy.initialBackoff policy.maxBackoff) 0
      (max policy.maxAttempts 1 - 1) 0)
  else none

/-! ### The schedule -/

variable (policy : RetryPolicy) (env : ℕ → Attempt)

/-- The delay behind attempt `k + 1`. -/
def delayOf (k : ℕ) : ℕ := min (policy.initialBackoff * 2 ^ k) policy.maxBackoff

/-- The first `k` delays together. -/
def delaysBefore (k : ℕ) : ℕ := ((List.range k).map (delayOf policy)).sum

/-- The first `k` attempts together. -/
def sendingBefore (k : ℕ) : ℕ := ((List.range k).map fun i => (env i).duration).sum

/-- When attempt `k + 1` starts, if the ones before it are retried. -/
def startOf (k : ℕ) : ℕ := delaysBefore policy k + sendingBefore env k

theorem nextBackoff_delayOf (k : ℕ) :
    nextBackoff policy (delayOf policy k) = delayOf policy (k + 1) := by
  have hmax : (policy.maxBackoff : ℕ) < durationLimit := policy.maxBackoff.isLt
  rw [nextBackoff, delayOf, delayOf, pow_succ, ← mul_assoc]
  split_ifs <;> omega

theorem delaysBefore_succ (k : ℕ) :
    delaysBefore policy (k + 1) = delaysBefore policy k + delayOf policy k := by
  simp [delaysBefore, range_succ]

theorem sendingBefore_succ (k : ℕ) :
    sendingBefore env (k + 1) = sendingBefore env k + (env k).duration := by
  simp [sendingBefore, range_succ]

/-- Attempt `k + 1` is retried. -/
def Retried (k : ℕ) : Prop :=
  (env k).outcome.isRetryable = true ∧ startOf policy env (k + 1) ≤ policy.maxTotalWait

/-- **The attempts of a call.**  From attempt `done + 1` on, attempts are retried up to the last one,
which is not or is the last one allowed. -/
theorem sendFrom_spec (left done : ℕ) :
    ∃ last, done ≤ last ∧ last ≤ done + left ∧
      sendFrom policy env ((List.range done).map (delayOf policy)) (delayOf policy done)
        (startOf policy env done) left done =
        ⟨last + 1, (List.range last).map (delayOf policy), (env last).outcome,
          startOf policy env last + (env last).duration⟩ ∧
      (∀ k, done ≤ k → k < last → Retried policy env k) ∧
      (last < done + left → ¬Retried policy env last) := by
  induction left generalizing done with
  | zero => exact ⟨done, le_rfl, le_rfl, rfl, by omega, by omega⟩
  | succ left ih =>
    have hwait : (policy.maxTotalWait : ℕ) < durationLimit := policy.maxTotalWait.isLt
    have hstart : startOf policy env done + (env done).duration + delayOf policy done =
        startOf policy env (done + 1) := by
      rw [startOf, startOf, delaysBefore_succ, sendingBefore_succ]
      omega
    by_cases hretried : Retried policy env done
    · obtain ⟨last, hdone, hleft, hrun, hbefore, hlast⟩ := ih (done + 1)
      refine ⟨last, by omega, by omega, ?_, fun k hk hlt => ?_, fun hlt => hlast (by omega)⟩
      · rw [sendFrom, if_neg, hstart, nextBackoff_delayOf, ← map_singleton,
          ← map_append, ← range_succ, hrun]
        obtain ⟨hretry, hbudget⟩ := hretried
        rw [hstart, hretry]
        simp only [Bool.true_eq_false, false_or, not_or, not_le, not_lt]
        omega
      · rcases hk.eq_or_lt with rfl | hk
        exacts [hretried, hbefore k hk hlt]
    · refine ⟨done, le_rfl, by omega, ?_, by omega, fun _ => hretried⟩
      rw [sendFrom, if_pos]
      rw [hstart]
      by_cases hretry : (env done).outcome.isRetryable = true
      · exact .inr (.inr (not_le.mp fun hle => hretried ⟨hretry, hle⟩))
      · exact .inl (by simpa using hretry)

variable {policy env}

theorem sendGetWithBackoff_spec {isGet : Bool} {run : RetryRun}
    (h : sendGetWithBackoff policy isGet env = some run) :
    ∃ last, last < max policy.maxAttempts 1 ∧
      run = ⟨last + 1, (List.range last).map (delayOf policy), (env last).outcome,
        startOf policy env last + (env last).duration⟩ ∧
      (∀ k < last, Retried policy env k) ∧
      (last + 1 < max policy.maxAttempts 1 → ¬Retried policy env last) := by
  obtain ⟨last, -, hleft, hrun, hbefore, hlast⟩ :=
    sendFrom_spec policy env (max policy.maxAttempts 1 - 1) 0
  have hfirst : delayOf policy 0 = min (policy.initialBackoff : ℕ) policy.maxBackoff := by
    rw [delayOf, pow_zero, mul_one]
  rw [hfirst] at hrun
  cases isGet with
  | false => cases h
  | true =>
    refine ⟨last, by omega, ?_, fun k hk => hbefore k (Nat.zero_le k) hk, fun hlt =>
      hlast (by omega)⟩
    exact (Option.some.inj h).symm.trans hrun

theorem sendingBefore_le {bound : ℕ} (h : ∀ k, (env k).duration ≤ bound) (k : ℕ) :
    sendingBefore env k ≤ k * bound := by
  induction k with
  | zero => simp [sendingBefore]
  | succ k ih =>
    have hk := h k
    rw [sendingBefore_succ, Nat.succ_mul]
    omega

theorem delaysBefore_mono {i k : ℕ} (h : i ≤ k) :
    delaysBefore policy i ≤ delaysBefore policy k := by
  induction h with
  | refl => exact le_rfl
  | step _ ih =>
    rw [delaysBefore_succ]
    omega

/-- Attempts that time out until `total` is used up, each with at most `bound`, and from attempt
`k + 1` on fail after `bound`. -/
def spending (total bound k : ℕ) (i : ℕ) : Attempt :=
  if i < k then ⟨.timeout, min total ((i + 1) * bound) - min total (i * bound)⟩ else ⟨.failed, bound⟩

theorem sendingBefore_spending {total bound k i : ℕ} (hi : i ≤ k) :
    sendingBefore (spending total bound k) i = min total (i * bound) := by
  induction i with
  | zero => simp [sendingBefore]
  | succ i ih =>
    rw [sendingBefore_succ, ih (by omega), spending, if_pos (by omega), Nat.succ_mul]
    simp only
    omega

/-- **The attempts, the delays and the budget.**  A call makes no more attempts than the policy
allows, and its delays double up to the ceiling.  It always ends within `max_total_wait`, a single
attempt apart, exactly if every number of delays that fits the budget leaves room for all the
attempts around them. -/
theorem retry_keeps_budget_iff (policy : RetryPolicy) (requestTimeout : ℕ) :
    (∀ isGet env run, sendGetWithBackoff policy isGet env = some run →
      run.attempts ≤ max 1 policy.maxAttempts ∧
        run.delays = (List.range (run.attempts - 1)).map (delayOf policy)) ∧
    ((∀ isGet env run, (∀ k, (env k).duration ≤ requestTimeout) →
      sendGetWithBackoff policy isGet env = some run →
        run.attempts = 1 ∨ run.ended ≤ policy.maxTotalWait) ↔
      ∀ k, 0 < k → k < policy.maxAttempts → delaysBefore policy k ≤ policy.maxTotalWait →
        delaysBefore policy k + (k + 1) * requestTimeout ≤ policy.maxTotalWait) := by
  refine ⟨fun isGet env run h => ?_, fun hbudget k hpos hk hfits => ?_, ?_⟩
  · obtain ⟨last, hlast, rfl, -⟩ := sendGetWithBackoff_spec h
    exact ⟨by simp only; omega, rfl⟩
  · by_contra hover
    have hrt : 0 < requestTimeout :=
      Nat.pos_of_ne_zero fun hzero => hover (by simpa [hzero] using hfits)
    -- the attempts before the last delay take what the budget leaves, the one behind it all it may
    have hsucc : (k + 1) * requestTimeout = k * requestTimeout + requestTimeout := Nat.succ_mul _ _
    obtain ⟨total, htotal⟩ : ∃ total, total =
      min (k * requestTimeout) (policy.maxTotalWait - delaysBefore policy k) := ⟨_, rfl⟩
    have hbounded : ∀ i, (spending total requestTimeout k i).duration ≤ requestTimeout := by
      intro i
      rw [spending]
      split_ifs
      · simp only [Nat.succ_mul]
        omega
      · exact le_rfl
    have hretried : ∀ i < k, Retried policy (spending total requestTimeout k) i := by
      intro i hi
      have hmono := @delaysBefore_mono policy (i + 1) k hi
      refine ⟨by rw [spending, if_pos hi]; rfl, ?_⟩
      rw [startOf, sendingBefore_spending hi]
      omega
    have hrun := hbudget true (spending total requestTimeout k) _ hbounded rfl
    obtain ⟨last, hlast, heq, hbefore, hstop⟩ :=
      @sendGetWithBackoff_spec policy (spending total requestTimeout k) true _ rfl
    obtain rfl : last = k := by
      rcases lt_trichotomy last k with hlt | heq | hgt
      · exact absurd (hretried last hlt) (hstop (by omega))
      · exact heq
      · have hlater := (hbefore k hgt).1
        rw [spending, if_neg (lt_irrefl k)] at hlater
        cases hlater
    rw [heq, startOf, sendingBefore_spending le_rfl, spending, if_neg (lt_irrefl last)] at hrun
    simp only at hrun
    omega
  · intro hroom isGet env run hbounded h
    obtain ⟨last, hlast, rfl, hbefore, -⟩ := sendGetWithBackoff_spec h
    rcases Nat.eq_zero_or_pos last with rfl | hpos
    · exact .inl rfl
    · right
      have hstart := (hbefore (last - 1) (by omega)).2
      rw [Nat.sub_add_cancel hpos, startOf] at hstart
      have hfits := hroom last hpos (by omega) (by omega)
      have hsent := sendingBefore_le hbounded (last + 1)
      rw [sendingBefore_succ] at hsent
      simp only [startOf]
      omega

/-- Two attempts with a budget of one second and no delay: the second one starts within the budget
and ends a second behind it. -/
theorem second_attempt_ends_late :
    ∃ run, sendGetWithBackoff ⟨2, ⟨0, by decide⟩, ⟨0, by decide⟩, ⟨1000000000, by decide⟩⟩ true
      (fun _ => ⟨.timeout, 1000000000⟩) = some run ∧ run.attempts = 2 ∧
        run.ended = 2000000000 := ⟨_, rfl, rfl, rfl⟩

end Mecmcp.Http
