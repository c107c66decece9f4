import Rollout.Call

/-!
# Lease renewal

Leases run out soon, so that a rollout that has vanished does not lock machines for long. While
a pass works, a loop in the background acquires the same leases again at every tick.

The ticks come at multiples of the interval from the loop's start, each at the first whole
millisecond. Ticks that pass while a renewal is under way are not lost: they are made up for,
one after another, as soon as it is over. A failed renewal is logged and the loop goes on. The
loop ends when it is told to stop or shutdown is requested, and abandons a renewal under way.
-/

namespace Rollout

inductive RenewalPhase
  /-- Waits for its next tick. -/
  | waiting
  /-- Acquires the leases. The acquisition goes on at `wake`, if ever. -/
  | inFlight (wake : Option Nat) (rest : Reaction Unit)
  | ended
  /-- Was brought down by a panic. -/
  | crashed
  deriving Repr

structure Renewal where
  machines : List MachineId
  ttl : Duration
  interval : Duration
  /-- The time at which the loop started. -/
  start : Nat
  /-- The number of the next tick. -/
  tick : Nat := 1
  /-- How many renewals have failed since the last one that did not. -/
  failures : Nat := 0
  phase : RenewalPhase := .waiting
  deriving Repr

namespace Renewal

/-- The interval that stands in for one of zero: half the time that a lease lasts, but no less
than a second. -/
def fallbackInterval (ttl : Duration) : Duration := ttl.half.longer (.ofSecs 1)

def effectiveInterval (ttl interval : Duration) : Duration :=
  if interval.nanos = 0 then fallbackInterval ttl else interval

/-- A field of 64 bits that holds the milliseconds of a duration. -/
def millisField (d : Duration) : LogValue := .count (d.toMillis % UInt64.size)

def fallbackLog (ttl interval : Duration) : List LogRecord :=
  if interval.nanos = 0 then
    [⟨.warn, "Lease renewal interval is zero, using fallback",
      [("ttl_secs", .count ttl.toSecs), ("fallback_ms", millisField (fallbackInterval ttl))]⟩]
  else []

def begin (now : Nat) (machines : List MachineId) (ttl interval : Duration) :
    Renewal × List LogRecord :=
  let r : Renewal :=
    { machines, ttl, interval := effectiveInterval ttl interval, start := now }
  (r, fallbackLog ttl interval ++
    [⟨.info, "Starting lease renewal loop",
      [("machine_count", .count machines.length), ("ttl_secs", .count ttl.toSecs),
        ("interval_ms", millisField r.interval)]⟩])

@[reducible] def call (r : Renewal) : Call := .acquire r.machines r.ttl

def tickTime (r : Renewal) (k : Nat) : Nat := r.start + (r.interval.times k).ceilMillis

/-- How many ticks come before a time, from the next one on. -/
def ticksBefore (r : Renewal) (limit : Nat) : Nat :=
  (Duration.ofMillis (limit - r.start)).nanos / r.interval.nanos + 1 - r.tick

def isLive (r : Renewal) : Bool :=
  match r.phase with
  | .waiting | .inFlight .. => true
  | .ended | .crashed => false

/-- When the loop does something next, if nothing else happens. -/
def due? (r : Renewal) : Option Nat :=
  match r.phase with
  | .waiting => some (r.tickTime r.tick)
  | .inFlight wake _ => wake
  | .ended | .crashed => none

def nextTick (r : Renewal) : Renewal := { r with tick := r.tick + 1 }

def acquiring (r : Renewal) (wake : Option Nat) (rest : Reaction Unit) : Renewal :=
  { r with phase := .inFlight wake rest }

def endLog : LogRecord := ⟨.info, "Lease renewal loop shutting down", []⟩

def leave (r : Renewal) : Renewal × List LogRecord := ({ r with phase := .ended }, [endLog])

def failureLog (n : Nat) (failure : Failure) : LogRecord :=
  let fields := [("error", .text failure.message), ("consecutive_failures", .count n)]
  if n ≤ 3 then ⟨.warn, "Lease renewal failed", fields⟩
  else ⟨.error, "Lease renewal failed repeatedly", fields⟩

/-- The loop after a renewal, and what it logs. A renewal is cancelled by the end of the
loop. -/
def finish (r : Renewal) : Reply Unit → Renewal × List LogRecord
  | .ok () =>
    ({ r with failures := 0, phase := .waiting },
      [⟨.debug, "Leases renewed", [("machine_count", .count r.machines.length)]⟩])
  | .failed failure =>
    ({ r with failures := r.failures + 1, phase := .waiting },
      [failureLog (r.failures + 1) failure])
  | .panicked _ => ({ r with phase := .crashed }, [])
  | .cancelled =>
    ({ r with phase := .ended }, [⟨.debug, "Abandoning in-flight lease renewal", []⟩, endLog])

/-- What is logged when a loop that was brought down is told to stop. -/
def stopLog (r : Renewal) : List LogRecord :=
  match r.phase with
  | .crashed => [⟨.warn, "Lease renewal task failed", []⟩]
  | _ => []

end Renewal

end Rollout
