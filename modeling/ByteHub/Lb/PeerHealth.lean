import Mathlib.Data.Nat.Basic

/-!
# The health of one peer

What health tracking is for, in natural numbers and for a single peer: a
healthy peer counts its failures in a row, the failure that makes the count
reach the limit excludes it for the timeout, and only success or a selection
past the deadline makes it healthy again.
-/

namespace ByteHub.Lb

/-- Health of one peer. -/
inductive PeerHealth where
  | healthy (fails : ℕ)
  | excluded (deadline : ℕ)
deriving DecidableEq, Repr

namespace PeerHealth

/-- A failure at a time.  It never moves the deadline of an excluded peer. -/
def failure (maxFails timeout now : ℕ) : PeerHealth → PeerHealth
  | .healthy fails =>
      if fails + 1 = maxFails then .excluded (now + timeout)
      else .healthy (fails + 1)
  | .excluded deadline => .excluded deadline

/-- Success makes the peer healthy from any state. -/
def success (_ : PeerHealth) : PeerHealth :=
  .healthy 0

/-- A selection readmits the peer if its deadline has passed. -/
def selection (now : ℕ) : PeerHealth → PeerHealth
  | .healthy fails => .healthy fails
  | .excluded deadline =>
      if deadline ≤ now then .healthy 0 else .excluded deadline

end PeerHealth

end ByteHub.Lb
