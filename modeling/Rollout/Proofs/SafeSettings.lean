import Rollout.Proofs.Planning
import Rollout.Proofs.Spelling
import Rollout.Settings

/-!
# The settings that are accepted

Settings are accepted exactly if they are safe to run with: the strategy is one that can be used,
every time is a number of 64 bits, and leases are renewed before they run out. Each variable is
described here on its own, by what it means where it is absent and by the texts it may hold. Every
field of accepted settings comes from its own variable, and refused settings are refused for the
first variable at fault in a fixed order.
-/

namespace Rollout

namespace Settings

def StrategyIs (strategy : Strategy) : Option String → Prop
  | none => strategy = .rolling
  | some text => Text.Spells strategy.word text

def SecondsAre (default : Nat) (d : Duration) : Option String → Prop
  | none => d = .ofSecs default
  | some text => ∃ n, Text.Numeral text n ∧ n < UInt64.size ∧ d = .ofSecs n

def FlagIs (on : Bool) : Option String → Prop
  | none => on = false
  | some text => on = true ↔ text = "1" ∨ Text.EitherCase "true" text.toList

/-- The variables that stand for a number of seconds and the numbers without them, in the order in
which they are looked at. -/
def secondsVariables : List (String × Nat) :=
  [("FLEET_START_TIMEOUT_SECS", 300), ("FLEET_HEALTH_TIMEOUT_SECS", 300),
    ("FLEET_LEASE_TTL_SECS", 13), ("FLEET_LEASE_RENEW_INTERVAL_SECS", 5)]

variable {lookup : String → Option String} {s : Settings} {e : SettingsError}

section Variables

variable {strategy : Strategy} {key text : String} {default : Nat} {d : Duration}
  {value : Option String}

/-- The words that are looked for in a strategy's variable. -/
theorem spells_iff {word : String}
    (listed : word ∈ ["rolling", "immediate", "canary", "bluegreen"]) :
    Text.Spells word text ↔ Text.fold (Text.trim text) = word := by
  have plain : ∀ word ∈ ["rolling", "immediate", "canary", "bluegreen"],
      (word.toList.all fun letter => decide (Text.PlainLetter letter)) = true ∧
        word.toList ≠ [] := by decide
  obtain ⟨all, some⟩ := plain word listed
  exact (Text.fold_trim_eq_iff (Text.plainLetter_of_all all) some).symm

theorem parse_eq_ok_iff :
    Strategy.parse text = .ok strategy ↔ Text.Spells strategy.word text := by
  rw [spells_iff (by cases strategy <;> simp [Strategy.word]), Strategy.parse]
  generalize Text.fold (Text.trim text) = name
  cases strategy <;> dsimp only [Strategy.word] <;> grind

theorem parse_eq_error_iff {cause : StrategyError} : Strategy.parse text = .error cause ↔
    (Text.Spells "canary" text ∨ Text.Spells "bluegreen" text) ∧ cause = .unsupported text ∨
      (∀ word ∈ ["rolling", "immediate", "canary", "bluegreen"], ¬ Text.Spells word text) ∧
        cause = .unknown text := by
  have none_iff : (∀ word ∈ ["rolling", "immediate", "canary", "bluegreen"],
      ¬ Text.Spells word text) ↔ Text.fold (Text.trim text) ∉
        ["rolling", "immediate", "canary", "bluegreen"] := by
    constructor
    · exact fun none listed => none _ listed ((spells_iff listed).mpr rfl)
    · exact fun other word listed spelled => other ((spells_iff listed).mp spelled ▸ listed)
  rw [none_iff, spells_iff (by simp), spells_iff (by simp), Strategy.parse]
  generalize Text.fold (Text.trim text) = name
  grind

theorem readStrategy_eq_ok_iff :
    readStrategy .rolling value = .ok strategy ↔ StrategyIs strategy value := by
  cases value with
  | none => simp [readStrategy, StrategyIs, eq_comm]
  | some text =>
    rw [StrategyIs, ← parse_eq_ok_iff, readStrategy]
    cases Strategy.parse text <;> simp

theorem readStrategy_eq_error_iff : readStrategy .rolling value = .error e ↔
    ∃ text cause, value = some text ∧ Strategy.parse text = .error cause ∧
      e = .strategy cause := by
  cases value with
  | none => simp [readStrategy]
  | some text =>
    simp only [readStrategy, Option.some.injEq, exists_and_left, exists_eq_left']
    cases Strategy.parse text <;> simp [eq_comm]

theorem readSeconds_eq_ok_iff :
    readSeconds key (.ofSecs default) value = .ok d ↔ SecondsAre default d value := by
  cases value with
  | none => simp [readSeconds, SecondsAre, eq_comm]
  | some text =>
    have read : ∀ n, Text.readNumber UInt64.size text = .ok n ↔
        Text.Numeral text n ∧ n < UInt64.size := fun n => Text.readNumber_eq_ok_iff (by decide)
    simp only [SecondsAre, ← and_assoc, ← read, readSeconds]
    cases Text.readNumber UInt64.size text <;> simp [eq_comm]

theorem readSeconds_eq_error_iff {d : Duration} : readSeconds key d value = .error e ↔
    ∃ text cause, value = some text ∧ Text.Defective UInt64.size text cause ∧
      e = .number key text cause := by
  cases value with
  | none => simp [readSeconds]
  | some text =>
    have failed : ∀ text cause, Text.readNumber UInt64.size text = .error cause ↔
        Text.Defective UInt64.size text cause :=
      fun text cause => Text.readNumber_eq_error_iff (by decide)
    simp only [← failed, readSeconds, Option.some.injEq, exists_and_left, exists_eq_left']
    cases Text.readNumber UInt64.size text <;> simp [eq_comm]

theorem flagIs_readFlag (value : Option String) : FlagIs (readFlag value) value := by
  cases value with
  | none => rfl
  | some text =>
    rw [FlagIs, readFlag, Bool.or_eq_true, decide_eq_true_eq, decide_eq_true_eq,
      Text.fold_eq_iff (Text.plainLetter_of_all (by decide))]

theorem StrategyIs.unique {strategy' : Strategy} (is : StrategyIs strategy value)
    (is' : StrategyIs strategy' value) : strategy = strategy' :=
  Except.ok.inj ((readStrategy_eq_ok_iff.mpr is).symm.trans (readStrategy_eq_ok_iff.mpr is'))

theorem SecondsAre.unique {d' : Duration} (are : SecondsAre default d value)
    (are' : SecondsAre default d' value) : d = d' := by
  have read : readSeconds "" (.ofSecs default) value = .ok d := readSeconds_eq_ok_iff.mpr are
  exact Except.ok.inj (read.symm.trans (readSeconds_eq_ok_iff.mpr are'))

theorem FlagIs.unique {on on' : Bool} {value : Option String} (is : FlagIs on value)
    (is' : FlagIs on' value) : on = on' := by
  cases value with
  | none => exact is.trans is'.symm
  | some text => exact Bool.eq_iff_iff.mpr (is.trans is'.symm)

end Variables

structure StandsFor (lookup : String → Option String) (s : Settings) : Prop where
  strategy : StrategyIs s.strategy (lookup "FLEET_STRATEGY")
  startTimeout : SecondsAre 300 s.startTimeout (lookup "FLEET_START_TIMEOUT_SECS")
  healthTimeout : SecondsAre 300 s.healthTimeout (lookup "FLEET_HEALTH_TIMEOUT_SECS")
  leaseTtl : SecondsAre 13 s.leaseTtl (lookup "FLEET_LEASE_TTL_SECS")
  leaseRenewInterval :
    SecondsAre 5 s.leaseRenewInterval (lookup "FLEET_LEASE_RENEW_INTERVAL_SECS")
  skipHealthChecks : FlagIs s.skipHealthChecks (lookup "FLEET_SKIP_HEALTH_CHECKS")
  restartOnly : FlagIs s.restartOnly (lookup "FLEET_RESTART_ONLY")
  logLevel : s.logLevel = (lookup "FLEET_LOG_LEVEL").getD "info"

/-- The variables are safe to run with. Neither the switches nor the log level matter. -/
structure Safe (lookup : String → Option String) : Prop where
  strategy : ∀ text, lookup "FLEET_STRATEGY" = some text →
    Text.Spells "rolling" text ∨ Text.Spells "immediate" text
  seconds : ∀ v ∈ secondsVariables, ∀ text, lookup v.1 = some text →
    ∃ n, Text.Numeral text n ∧ n < UInt64.size
  /-- The interval and the life of a lease are compared with their defaults, where they have no
  variable. -/
  renewal : ∃ interval ttl, SecondsAre 5 interval (lookup "FLEET_LEASE_RENEW_INTERVAL_SECS") ∧
    SecondsAre 13 ttl (lookup "FLEET_LEASE_TTL_SECS") ∧
    0 < interval.nanos ∧ interval.nanos < ttl.nanos

/-- The first variable at fault. -/
inductive Offends (lookup : String → Option String) : SettingsError → Prop
  | unsupported {text : String} (given : lookup "FLEET_STRATEGY" = some text)
      (word : Text.Spells "canary" text ∨ Text.Spells "bluegreen" text) :
      Offends lookup (.strategy (.unsupported text))
  | unknown {text : String} (given : lookup "FLEET_STRATEGY" = some text)
      (other : ∀ word ∈ ["rolling", "immediate", "canary", "bluegreen"],
        ¬ Text.Spells word text) :
      Offends lookup (.strategy (.unknown text))
  | number {strategy : Strategy} {before after : List (String × Nat)} {key text : String}
      {default : Nat} {cause : Text.NumberError}
      (usable : StrategyIs strategy (lookup "FLEET_STRATEGY"))
      (place : secondsVariables = before ++ (key, default) :: after)
      (earlier : ∀ v ∈ before, ∃ d, SecondsAre v.2 d (lookup v.1))
      (given : lookup key = some text) (defective : Text.Defective UInt64.size text cause) :
      Offends lookup (.number key text cause)
  | renewal {strategy : Strategy} {interval ttl : Duration}
      (usable : StrategyIs strategy (lookup "FLEET_STRATEGY"))
      (readable : ∀ v ∈ secondsVariables, ∃ d, SecondsAre v.2 d (lookup v.1))
      (ttl_is : SecondsAre 13 ttl (lookup "FLEET_LEASE_TTL_SECS"))
      (interval_is : SecondsAre 5 interval (lookup "FLEET_LEASE_RENEW_INTERVAL_SECS"))
      (late : interval.nanos = 0 ∨ ttl.nanos ≤ interval.nanos) :
      Offends lookup (.renewal interval ttl)

theorem ofLookup_eq_ok_iff : ofLookup lookup = .ok s ↔
    StandsFor lookup s ∧ 0 < s.leaseRenewInterval.nanos ∧
      s.leaseRenewInterval.nanos < s.leaseTtl.nanos := by
  simp only [ofLookup, bind_eq_ok_iff, readStrategy_eq_ok_iff, readSeconds_eq_ok_iff]
  constructor
  · rintro ⟨strategy, usable, start, start_is, health, health_is, ttl, ttl_is, interval,
      interval_is, read⟩
    split at read
    · cases read
    · rename_i timely
      cases read
      exact ⟨⟨usable, start_is, health_is, ttl_is, interval_is, flagIs_readFlag _,
        flagIs_readFlag _, rfl⟩, by dsimp only; omega⟩
  · rintro ⟨stands, positive, timely⟩
    refine ⟨_, stands.strategy, _, stands.startTimeout, _, stands.healthTimeout, _,
      stands.leaseTtl, _, stands.leaseRenewInterval, ?_⟩
    rw [if_neg (by omega), (flagIs_readFlag _).unique stands.skipHealthChecks,
      (flagIs_readFlag _).unique stands.restartOnly, ← stands.logLevel]

def readAllSeconds (lookup : String → Option String) : Except SettingsError (List Duration) :=
  secondsVariables.mapM fun v => readSeconds v.1 (.ofSecs v.2) (lookup v.1)

theorem readAllSeconds_eq_error_iff : readAllSeconds lookup = .error e ↔
    ∃ before key default after text cause,
      secondsVariables = before ++ (key, default) :: after ∧
      (∀ v ∈ before, ∃ d, SecondsAre v.2 d (lookup v.1)) ∧ lookup key = some text ∧
      Text.Defective UInt64.size text cause ∧ e = .number key text cause := by
  simp only [readAllSeconds, mapM_eq_error_iff, readSeconds_eq_ok_iff, readSeconds_eq_error_iff,
    Prod.exists]
  constructor
  · rintro ⟨before, key, default, after, place, earlier, text, cause, found⟩
    exact ⟨before, key, default, after, text, cause, place, earlier, found⟩
  · rintro ⟨before, key, default, after, text, cause, place, earlier, found⟩
    exact ⟨before, key, default, after, place, earlier, text, cause, found⟩

theorem readAllSeconds_eq_ok_iff {ds : List Duration} : readAllSeconds lookup = .ok ds ↔
    List.Forall₂ (fun v d => SecondsAre v.2 d (lookup v.1)) secondsVariables ds := by
  simp only [readAllSeconds, mapM_eq_ok_iff, readSeconds_eq_ok_iff]

/-- The strategy is read first, then the seconds, and what they say is looked at last. -/
theorem ofLookup_eq_error_cases : ofLookup lookup = .error e ↔
    readStrategy .rolling (lookup "FLEET_STRATEGY") = .error e ∨
    ∃ strategy, StrategyIs strategy (lookup "FLEET_STRATEGY") ∧
      (readAllSeconds lookup = .error e ∨
        ∃ start health ttl interval,
          readAllSeconds lookup = .ok [start, health, ttl, interval] ∧
          (interval.nanos = 0 ∨ ttl.nanos ≤ interval.nanos) ∧ e = .renewal interval ttl) := by
  simp only [ofLookup, bind_eq_error_iff, readStrategy_eq_ok_iff, readAllSeconds,
    secondsVariables, List.mapM_cons, List.mapM_nil]
  refine or_congr_right (exists_congr fun strategy => and_congr_right fun _ => ?_)
  cases readSeconds _ _ (lookup "FLEET_START_TIMEOUT_SECS") with
  | error cause => simp [bind, Except.bind]
  | ok start =>
  cases readSeconds _ _ (lookup "FLEET_HEALTH_TIMEOUT_SECS") with
  | error cause => simp [bind, Except.bind]
  | ok health =>
  cases readSeconds _ _ (lookup "FLEET_LEASE_TTL_SECS") with
  | error cause => simp [bind, Except.bind]
  | ok ttl =>
  cases readSeconds _ _ (lookup "FLEET_LEASE_RENEW_INTERVAL_SECS") with
  | error cause => simp [bind, Except.bind]
  | ok interval =>
    by_cases late : interval.nanos = 0 ∨ ttl.nanos ≤ interval.nanos
    · simp [bind, Except.bind, pure, Except.pure, late, eq_comm]
    · simp [bind, Except.bind, pure, Except.pure, late]

theorem ofLookup_eq_error_iff : ofLookup lookup = .error e ↔ Offends lookup e := by
  rw [ofLookup_eq_error_cases, readStrategy_eq_error_iff]
  constructor
  · rintro (⟨text, cause, given, refused, rfl⟩ | ⟨strategy, usable, failed | late⟩)
    · rcases parse_eq_error_iff.mp refused with ⟨word, rfl⟩ | ⟨other, rfl⟩
      · exact .unsupported given word
      · exact .unknown given other
    · obtain ⟨before, key, default, after, text, cause, place, earlier, given, defective, rfl⟩ :=
        readAllSeconds_eq_error_iff.mp failed
      exact .number usable place earlier given defective
    · obtain ⟨start, health, ttl, interval, read, late, rfl⟩ := late
      have are := readAllSeconds_eq_ok_iff.mp read
      refine .renewal usable (fun v mem => ?_) ?_ ?_ late
      · obtain ⟨d, _, is⟩ := exists_of_mem_left are mem
        exact ⟨d, is⟩
      · exact are.get (i := 2) (by decide) (by simp)
      · exact are.get (i := 3) (by decide) (by simp)
  · intro offends
    cases offends with
    | unsupported given word =>
      exact .inl ⟨_, _, given, parse_eq_error_iff.mpr (.inl ⟨word, rfl⟩), rfl⟩
    | unknown given other =>
      exact .inl ⟨_, _, given, parse_eq_error_iff.mpr (.inr ⟨other, rfl⟩), rfl⟩
    | number usable place earlier given defective =>
      exact .inr ⟨_, usable, .inl (readAllSeconds_eq_error_iff.mpr
        ⟨_, _, _, _, _, _, place, earlier, given, defective, rfl⟩)⟩
    | renewal usable readable ttl_is interval_is late =>
      obtain ⟨start, start_is⟩ := readable ("FLEET_START_TIMEOUT_SECS", 300) (by decide)
      obtain ⟨health, health_is⟩ := readable ("FLEET_HEALTH_TIMEOUT_SECS", 300) (by decide)
      refine .inr ⟨_, usable, .inr ⟨start, health, _, _, ?_, late, rfl⟩⟩
      exact readAllSeconds_eq_ok_iff.mpr
        (.cons start_is (.cons health_is (.cons ttl_is (.cons interval_is .nil))))

/-- The switches and the log level change nothing about what is at fault. -/
theorem Offends.of_same {lookup' : String → Option String}
    (strategy : lookup' "FLEET_STRATEGY" = lookup "FLEET_STRATEGY")
    (seconds : ∀ v ∈ secondsVariables, lookup' v.1 = lookup v.1) (offends : Offends lookup e) :
    Offends lookup' e := by
  cases offends with
  | unsupported given word => exact .unsupported (strategy ▸ given) word
  | unknown given other => exact .unknown (strategy ▸ given) other
  | number usable place earlier given defective =>
    rw [place] at seconds
    refine .number (strategy ▸ usable) place (fun v mem => ?_) ?_ defective
    · rw [seconds v (List.mem_append_left _ mem)]
      exact earlier v mem
    · exact (seconds _ (List.mem_append_right _ List.mem_cons_self)).trans given
  | renewal usable readable ttl_is interval_is late =>
    refine .renewal (strategy ▸ usable) (fun v mem => ?_) ?_ ?_ late
    · rw [seconds v mem]
      exact readable v mem
    · rwa [seconds ("FLEET_LEASE_TTL_SECS", 13) (by decide)]
    · rwa [seconds ("FLEET_LEASE_RENEW_INTERVAL_SECS", 5) (by decide)]

theorem safe_iff : (∃ s, ofLookup lookup = .ok s) ↔ Safe lookup := by
  simp only [ofLookup_eq_ok_iff]
  constructor
  · rintro ⟨s, stands, positive, timely⟩
    refine ⟨fun text given => ?_, ?_, _, _, stands.leaseRenewInterval, stands.leaseTtl, positive,
      timely⟩
    · have spelled : Text.Spells s.strategy.word text := (given ▸ stands.strategy :)
      revert spelled
      cases s.strategy with
      | rolling => exact .inl
      | immediate => exact .inr
    · have readable : ∀ v ∈ secondsVariables, ∃ d, SecondsAre v.2 d (lookup v.1) := by
        simp only [secondsVariables, List.forall_mem_cons]
        exact ⟨⟨_, stands.startTimeout⟩, ⟨_, stands.healthTimeout⟩, ⟨_, stands.leaseTtl⟩,
          ⟨_, stands.leaseRenewInterval⟩, by simp⟩
      intro v mem text given
      obtain ⟨d, are⟩ := readable v mem
      obtain ⟨n, numeral, below, _⟩ := given ▸ are
      exact ⟨n, numeral, below⟩
  · intro safe
    obtain ⟨interval, ttl, interval_is, ttl_is, positive, timely⟩ := safe.renewal
    have usable : ∃ strategy, StrategyIs strategy (lookup "FLEET_STRATEGY") := by
      cases given : lookup "FLEET_STRATEGY" with
      | none => exact ⟨.rolling, rfl⟩
      | some text =>
        rcases safe.strategy text given with rolling | immediate
        · exact ⟨.rolling, rolling⟩
        · exact ⟨.immediate, immediate⟩
    have readable : ∀ v ∈ secondsVariables, ∃ d, SecondsAre v.2 d (lookup v.1) := by
      intro v mem
      cases given : lookup v.1 with
      | none => exact ⟨_, rfl⟩
      | some text =>
        obtain ⟨n, numeral, below⟩ := safe.seconds v mem text given
        exact ⟨_, n, numeral, below, rfl⟩
    obtain ⟨strategy, strategy_is⟩ := usable
    obtain ⟨start, start_is⟩ := readable ("FLEET_START_TIMEOUT_SECS", 300) (by decide)
    obtain ⟨health, health_is⟩ := readable ("FLEET_HEALTH_TIMEOUT_SECS", 300) (by decide)
    exact ⟨⟨strategy, start, health, ttl, interval, _, _, _⟩, ⟨strategy_is, start_is, health_is,
      ttl_is, interval_is, flagIs_readFlag _, flagIs_readFlag _, rfl⟩, positive, timely⟩

/-- Two settings that agree in every field whose variable is the same. -/
structure AgreeByVariable (lookup lookup' : String → Option String) (s s' : Settings) : Prop where
  strategy : lookup "FLEET_STRATEGY" = lookup' "FLEET_STRATEGY" → s.strategy = s'.strategy
  startTimeout : lookup "FLEET_START_TIMEOUT_SECS" = lookup' "FLEET_START_TIMEOUT_SECS" →
    s.startTimeout = s'.startTimeout
  healthTimeout : lookup "FLEET_HEALTH_TIMEOUT_SECS" = lookup' "FLEET_HEALTH_TIMEOUT_SECS" →
    s.healthTimeout = s'.healthTimeout
  leaseTtl : lookup "FLEET_LEASE_TTL_SECS" = lookup' "FLEET_LEASE_TTL_SECS" →
    s.leaseTtl = s'.leaseTtl
  leaseRenewInterval :
    lookup "FLEET_LEASE_RENEW_INTERVAL_SECS" = lookup' "FLEET_LEASE_RENEW_INTERVAL_SECS" →
    s.leaseRenewInterval = s'.leaseRenewInterval
  skipHealthChecks : lookup "FLEET_SKIP_HEALTH_CHECKS" = lookup' "FLEET_SKIP_HEALTH_CHECKS" →
    s.skipHealthChecks = s'.skipHealthChecks
  restartOnly : lookup "FLEET_RESTART_ONLY" = lookup' "FLEET_RESTART_ONLY" →
    s.restartOnly = s'.restartOnly
  logLevel : lookup "FLEET_LOG_LEVEL" = lookup' "FLEET_LOG_LEVEL" → s.logLevel = s'.logLevel

theorem StandsFor.agree {lookup' : String → Option String} {s' : Settings}
    (stands : StandsFor lookup s) (stands' : StandsFor lookup' s') :
    AgreeByVariable lookup lookup' s s' where
  strategy same := stands.strategy.unique (same ▸ stands'.strategy)
  startTimeout same := stands.startTimeout.unique (same ▸ stands'.startTimeout)
  healthTimeout same := stands.healthTimeout.unique (same ▸ stands'.healthTimeout)
  leaseTtl same := stands.leaseTtl.unique (same ▸ stands'.leaseTtl)
  leaseRenewInterval same := stands.leaseRenewInterval.unique (same ▸ stands'.leaseRenewInterval)
  skipHealthChecks same := stands.skipHealthChecks.unique (same ▸ stands'.skipHealthChecks)
  restartOnly same := stands.restartOnly.unique (same ▸ stands'.restartOnly)
  logLevel same := by rw [stands.logLevel, stands'.logLevel, same]

structure LoadsSafely (lookup : String → Option String) : Prop where
  /-- Settings come out exactly of the variables that are safe, -/
  accepted : (∃ s, ofLookup lookup = .ok s) ↔ Safe lookup
  /-- and they are those that the variables stand for. -/
  settings : ∀ s, ofLookup lookup = .ok s ↔ StandsFor lookup s ∧
    0 < s.leaseRenewInterval.nanos ∧ s.leaseRenewInterval.nanos < s.leaseTtl.nanos
  /-- No field depends on the variable of another. -/
  own : ∀ lookup' s s', ofLookup lookup = .ok s → ofLookup lookup' = .ok s' →
    AgreeByVariable lookup lookup' s s'
  /-- What is refused is refused for the first variable at fault. -/
  refused : ∀ e, ofLookup lookup = .error e ↔ Offends lookup e
  /-- The switches and the log level are not at fault, whatever they hold. -/
  free : ∀ lookup', lookup' "FLEET_STRATEGY" = lookup "FLEET_STRATEGY" →
    (∀ v ∈ secondsVariables, lookup' v.1 = lookup v.1) →
    ∀ e, ofLookup lookup' = .error e ↔ ofLookup lookup = .error e

/-- Loading accepts exactly the safe variables, whatever they hold. -/
theorem ofLookup_loadsSafely (lookup : String → Option String) : LoadsSafely lookup where
  accepted := safe_iff
  settings _ := ofLookup_eq_ok_iff
  own _ _ _ read read' :=
    (ofLookup_eq_ok_iff.mp read).1.agree (ofLookup_eq_ok_iff.mp read').1
  refused _ := ofLookup_eq_error_iff
  free lookup' strategy seconds e := by
    rw [ofLookup_eq_error_iff, ofLookup_eq_error_iff]
    exact ⟨.of_same strategy.symm fun v mem => (seconds v mem).symm, .of_same strategy seconds⟩

/-- The life of a lease alone may clash with the interval that is there by default. -/
example : ofLookup (fun key => if key = "FLEET_LEASE_TTL_SECS" then some "+5" else none) =
    .error (.renewal (.ofSecs 5) (.ofSecs 5)) := rfl

end Settings

end Rollout
