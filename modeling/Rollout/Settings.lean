import Rollout.Duration
import Rollout.Failure
import Rollout.Strategy
import Rollout.Text.Decimal

/-!
# Settings

The settings of a rollout come from named variables, each with a default. The variables are
checked in a fixed order and the first offender is reported. Leases must be renewed before
they expire, so the renewal interval is neither zero nor as long as a lease.
-/

namespace Rollout

structure Settings where
  strategy : Strategy := .rolling
  startTimeout : Duration := .ofSecs 300
  healthTimeout : Duration := .ofSecs 300
  leaseTtl : Duration := .ofSecs 13
  leaseRenewInterval : Duration := .ofSecs 5
  skipHealthChecks : Bool := false
  restartOnly : Bool := false
  logLevel : String := "info"
  deriving DecidableEq, Repr, Inhabited

inductive SettingsError
  | strategy (cause : StrategyError)
  | number (key text : String) (cause : Text.NumberError)
  | renewal (interval ttl : Duration)
  deriving DecidableEq, Repr

def SettingsError.failure : SettingsError → Failure
  | .strategy cause => ⟨"invalid FLEET_STRATEGY", [cause.message]⟩
  | .number key text cause => ⟨"invalid " ++ key ++ ": '" ++ text ++ "'", [cause.message]⟩
  | .renewal interval ttl =>
    ⟨"lease renew interval (" ++ toString interval.toSecs ++
      "s) must be non-zero and shorter than the lease TTL (" ++ toString ttl.toSecs ++ "s)", []⟩

namespace Settings

def readStrategy (default : Strategy) : Option String → Except SettingsError Strategy
  | none => .ok default
  | some s =>
    match Strategy.parse s with
    | .ok strategy => .ok strategy
    | .error cause => .error (.strategy cause)

def readSeconds (key : String) (default : Duration) :
    Option String → Except SettingsError Duration
  | none => .ok default
  | some s =>
    match Text.readNumber UInt64.size s with
    | .ok n => .ok (.ofSecs n)
    | .error cause => .error (.number key s cause)

def readFlag : Option String → Bool
  | none => false
  | some s => s = "1" || Text.fold s = "true"

def ofLookup (lookup : String → Option String) : Except SettingsError Settings := do
  let defaults : Settings := {}
  let seconds := fun key default => readSeconds key default (lookup key)
  let strategy ← readStrategy defaults.strategy (lookup "FLEET_STRATEGY")
  let startTimeout ← seconds "FLEET_START_TIMEOUT_SECS" defaults.startTimeout
  let healthTimeout ← seconds "FLEET_HEALTH_TIMEOUT_SECS" defaults.healthTimeout
  let leaseTtl ← seconds "FLEET_LEASE_TTL_SECS" defaults.leaseTtl
  let leaseRenewInterval ← seconds "FLEET_LEASE_RENEW_INTERVAL_SECS" defaults.leaseRenewInterval
  if leaseRenewInterval.nanos = 0 ∨ leaseTtl.nanos ≤ leaseRenewInterval.nanos then
    .error (.renewal leaseRenewInterval leaseTtl)
  else
    .ok
      { strategy, startTimeout, healthTimeout, leaseTtl, leaseRenewInterval
        skipHealthChecks := readFlag (lookup "FLEET_SKIP_HEALTH_CHECKS")
        restartOnly := readFlag (lookup "FLEET_RESTART_ONLY")
        logLevel := (lookup "FLEET_LOG_LEVEL").getD defaults.logLevel }

end Settings

end Rollout
