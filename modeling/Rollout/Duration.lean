/-!
# Durations

A duration is a whole number of nanoseconds. The clock of a run counts whole milliseconds; a
point in time between two of them is reached at the later one.
-/

namespace Rollout

structure Duration where
  nanos : Nat
  deriving DecidableEq, Repr, Inhabited

namespace Duration

def ofMillis (ms : Nat) : Duration := ⟨ms * 1000000⟩

def ofSecs (s : Nat) : Duration := ⟨s * 1000000000⟩

def toMillis (d : Duration) : Nat := d.nanos / 1000000

def toSecs (d : Duration) : Nat := d.nanos / 1000000000

/-- The first clock reading at which a duration has passed. -/
def ceilMillis (d : Duration) : Nat := (d.nanos + 999999) / 1000000

def half (d : Duration) : Duration := ⟨d.nanos / 2⟩

def longer (a b : Duration) : Duration := ⟨max a.nanos b.nanos⟩

def times (k : Nat) (d : Duration) : Duration := ⟨k * d.nanos⟩

end Duration

/-- The longest that anybody waits at a time, in milliseconds: thirty years of 365 days. -/
def longestWait : Nat := 30 * 365 * 24 * 60 * 60 * 1000

end Rollout
