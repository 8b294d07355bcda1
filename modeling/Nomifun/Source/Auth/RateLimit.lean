import Nomifun.Library.MachineInt
import Nomifun.Library.StringMap

/-!
# The limit on failed logins

nomifun-auth, rate_limit.rs:14-34, 54-58, 72-111 and 197-213. Instants are readings of one clock.
The middleware is modelled by what it does before the handler runs and by what it does with the
response; between the two, other requests of the client take steps.
-/
namespace Nomifun.Source.Auth
open Library Library.MachineInt

structure RateLimitEntry where
  count : Nat
  windowStart : Nat

def RateLimitEntry.resetIfExpired (entry : RateLimitEntry) (now window : Nat) : RateLimitEntry :=
  if now - entry.windowStart ≥ window then ⟨0, now⟩ else entry

structure RateLimiter where
  entries : StringMap RateLimitEntry
  maxRequests : Nat
  window : Nat

namespace RateLimiter

/-- Five failed attempts in fifteen minutes. -/
def auth : RateLimiter := ⟨∅, 5, 15 * 60⟩

/-- Whether the key is not limited. -/
def check (limiter : RateLimiter) (key : String) (now : Nat) : Bool :=
  limiter.maxRequests ≠ 0 && !limiter.entries[key]?.any fun entry =>
    now - entry.windowStart < limiter.window && entry.count ≥ limiter.maxRequests

def recordAttempt (limiter : RateLimiter) (key : String) (now : Nat) : RateLimiter :=
  let entry := (limiter.entries[key]?.getD ⟨0, now⟩).resetIfExpired now limiter.window
  let counted := { entry with count := saturatingAdd u32Max entry.count 1 }
  { limiter with entries := limiter.entries.insert key counted }

end RateLimiter

/-- The limiter, and how many handlers of a client are running. -/
structure Traffic where
  limiter : RateLimiter
  running : Nat

inductive TrafficEvent where
  | request
  | response (status : Nat)
  deriving DecidableEq

/-- A definitive rejection of credentials. -/
def TrafficEvent.isFailure (event : TrafficEvent) : Bool :=
  event = .response 401 || event = .response 403

/-- A request or a response of `auth_rate_limit_middleware`. -/
def authRateLimit (ip : String) (s : Traffic) : Nat × TrafficEvent → Option Traffic
  | (now, .request) =>
    if s.limiter.check ip now then some { s with running := s.running + 1 } else some s
  | (now, .response status) =>
    if s.running = 0 then none
    else
      some ⟨if TrafficEvent.isFailure (.response status) then s.limiter.recordAttempt ip now
        else s.limiter, s.running - 1⟩

end Nomifun.Source.Auth
