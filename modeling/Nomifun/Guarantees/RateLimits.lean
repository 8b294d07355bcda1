import Nomifun.Library.Runs
import Nomifun.Source.Auth.RateLimit

/-!
# Failed logins of one client

The limit is checked before a handler runs and the failure is recorded after it. The bound on the
failures of one window holds if a request passes only while the failures recorded and the handlers
running are fewer than the limit; requests sent in parallel exceed it.
-/
namespace Nomifun.Guarantees.RateLimits
open Library Library.MachineInt Source.Auth Option List

variable {ip : String} {s next last : Traffic} {start now : Nat}

/-- The failures that are counted for the client in the window from an instant. -/
def recorded (ip : String) (start : Nat) (s : Traffic) : Nat :=
  match s.limiter.entries[ip]? with
  | some entry => if start ≤ entry.windowStart then entry.count else 0
  | none => 0

/-- The condition on a step: a request that passes leaves room for the handlers that are running. -/
def reserves (ip : String) (start : Nat) (s : Traffic) (event : Nat × TrafficEvent) : Bool :=
  event.2 = .request → s.limiter.check ip event.1 →
    recorded ip start s + s.running < s.limiter.maxRequests

/-- The window that was opened since an instant has not expired. -/
def unexpired (ip : String) (start : Nat) (s : Traffic) (now : Nat) : Bool :=
  s.limiter.entries[ip]?.all fun entry =>
    start ≤ entry.windowStart → now - entry.windowStart < s.limiter.window

/-- A step of the window from an instant that meets the condition. -/
def reservedStep (ip : String) (start : Nat) (s : Traffic) (event : Nat × TrafficEvent) :
    Option Traffic :=
  if start ≤ event.1 ∧ unexpired ip start s event.1 ∧ reserves ip start s event then
    authRateLimit ip s event
  else none

/-- An entry that expired before an instant. -/
def Expired (limiter : RateLimiter) (start : Nat) (entry : RateLimitEntry) : Prop :=
  entry.windowStart < start ∧ entry.windowStart + limiter.window ≤ start

/-- The limits are kept, and the failures and handlers fit. -/
structure Fits (limiter : RateLimiter) (ip : String) (start failures : Nat) (s : Traffic) :
    Prop where
  maxRequests : s.limiter.maxRequests = limiter.maxRequests
  current : ∀ entry ∈ s.limiter.entries[ip]?,
    start ≤ entry.windowStart ∨ Expired s.limiter start entry
  counted : recorded ip start s = failures
  room : failures + s.running ≤ limiter.maxRequests

/-- Inside the window a failure is counted. -/
theorem recordAttempt_counts (fits : Fits limiter ip start failures s)
    (inside : unexpired ip start s now) (later : start ≤ now)
    (small : recorded ip start s < u32Max) :
    ∃ entry, (s.limiter.recordAttempt ip now).entries[ip]? = some entry ∧
      start ≤ entry.windowStart ∧ entry.count = recorded ip start s + 1 := by
  refine ⟨_, by rw [RateLimiter.recordAttempt, StringMap.get_insert, if_pos rfl], ?_⟩
  unfold recorded at small ⊢
  unfold unexpired at inside
  cases found : s.limiter.entries[ip]? with
  | none =>
    simp only [getD_none, RateLimitEntry.resetIfExpired, saturatingAdd]
    split <;> exact ⟨later, rfl⟩
  | some entry =>
    simp only [found, all_some, decide_eq_true_eq] at small inside
    simp only [getD_some, RateLimitEntry.resetIfExpired, saturatingAdd]
    rcases fits.current entry found with live | ⟨earlier, expired⟩
    · rw [if_neg (by omega), if_pos live]
      rw [if_pos live] at small
      exact ⟨live, Nat.min_eq_left small⟩
    · rw [if_pos (by omega), if_neg (by omega)]
      exact ⟨later, rfl⟩

theorem reservedStep_fits (small : limiter.maxRequests ≤ u32Max)
    (fits : Fits limiter ip start failures s)
    (stepped : reservedStep ip start s event = some next) :
    Fits limiter ip start (failures + if event.2.isFailure then 1 else 0) next := by
  obtain ⟨⟨later, inside, reserved⟩, stepped⟩ := ite_none_right_eq_some.mp stepped
  obtain ⟨now, request | status⟩ := event
  · simp only [authRateLimit] at stepped
    split at stepped
    next passed =>
      cases stepped
      have room := (of_decide_eq_true reserved) rfl passed
      rw [fits.counted, fits.maxRequests] at room
      exact ⟨fits.maxRequests, fits.current, fits.counted, room⟩
    next =>
      cases stepped
      exact fits
  · simp only [authRateLimit] at stepped
    split at stepped
    next => cases stepped
    next busy =>
      cases stepped
      have room := fits.room
      split
      next =>
        obtain ⟨entry, found, live, count⟩ :=
          recordAttempt_counts fits inside later (by rw [fits.counted]; omega)
        refine ⟨fits.maxRequests, ?_, ?_, by dsimp only; omega⟩
        · rintro _ member
          cases found.symm.trans member
          exact .inl live
        · rw [← fits.counted, ← count]
          simp [recorded, found, if_pos live]
      next =>
        exact ⟨fits.maxRequests, fits.current, fits.counted, by dsimp only; omega⟩

/-- In a run that begins without a live window, in which the window of the first failure does not
expire and whose requests pass only while the failures recorded and the handlers
running are fewer than the limit, at most as many handlers end in 401 or 403. -/
theorem failures_within_limit (limiter : RateLimiter) (ip : String) (start : Nat)
    (events : List (Nat × TrafficEvent)) (small : limiter.maxRequests ≤ u32Max)
    (expired : ∀ entry ∈ limiter.entries[ip]?, Expired limiter start entry)
    (ran : run (reservedStep ip start) ⟨limiter, 0⟩ events = some last) :
    events.countP (·.2.isFailure) ≤ limiter.maxRequests := by
  have uncounted : recorded ip start ⟨limiter, 0⟩ = 0 := by
    unfold recorded
    split
    next entry found => exact if_neg (Nat.not_le.mpr (expired entry found).1)
    next => rfl
  have unfailed : Fits limiter ip start 0 ⟨limiter, 0⟩ :=
    ⟨rfl, fun entry found => .inr (expired entry found), uncounted, Nat.zero_le _⟩
  have fits := @run_history _ _ _ _ _ _
    (fun seen s => Fits limiter ip start (seen.countP (·.2.isFailure)) s)
    (fun seen s event next fits stepped => by
      rw [countP_append, countP_singleton]
      exact reservedStep_fits small fits stepped) unfailed ran
  exact Nat.le_trans (Nat.le_add_right _ _) fits.room

/-- Five failures one after the other pass, and are all there may be. -/
theorem serial_failures_within_limit :
    let events := (List.replicate 5 [(1, TrafficEvent.request), (2, .response 401)]).flatten
    (run (reservedStep "ip" 0) ⟨.auth, 0⟩ events).isSome ∧
      events.countP (·.2.isFailure) = 5 ∧
      events.countP (·.2.isFailure) ≤ RateLimiter.auth.maxRequests := by
  intro events
  have passes : (run (reservedStep "ip" 0) ⟨.auth, 0⟩ events).isSome := by decide
  obtain ⟨last, ran⟩ := isSome_iff_exists.mp passes
  exact ⟨passes, by decide, failures_within_limit .auth "ip" 0 events (by decide) nofun ran⟩

/-- Six requests pass before the first of them fails. -/
theorem parallel_failures_exceed_limit :
    let events := List.replicate 6 (1, TrafficEvent.request) ++ List.replicate 6 (2, .response 401)
    (run (authRateLimit "ip") ⟨.auth, 0⟩ events).isSome ∧
      events.countP (·.2.isFailure) = RateLimiter.auth.maxRequests + 1 := by
  decide

end Nomifun.Guarantees.RateLimits
