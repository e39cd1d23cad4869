import Orchestrator.Xrpl.Types

/-!
# The configuration

`config.validation.ts`: six environment variables, checked together, with every problem reported at
once. `new URL` is a parameter, which gives the protocol of a URL that can be parsed.

* `AppConfig`, `validateConfig`: the checks as the code makes them;
* `Acceptable`, **`validateConfig_ok_iff`**: what is accepted, and as what;
* `ConfigProblem`, **`validateConfig_error_iff`**: what is reported, and that it is all that shows.
-/

namespace Orchestrator

inductive ConfigLogLevel where
  | fatal
  | error
  | warn
  | log
  | debug
  | verbose
  deriving DecidableEq

/-- `CONFIG_LOG_LEVELS`. -/
def configLogLevels : List ConfigLogLevel := [.fatal, .error, .warn, .log, .debug, .verbose]

def ConfigLogLevel.name : ConfigLogLevel → String
  | .fatal => "fatal"
  | .error => "error"
  | .warn => "warn"
  | .log => "log"
  | .debug => "debug"
  | .verbose => "verbose"

structure AppConfig where
  databaseUrl : String
  xrplNetworkId : ℕ
  xrplPrimaryUrl : String
  xrplSecondaryUrl : String
  logLevel : ConfigLogLevel
  port : ℕ
  deriving DecidableEq

/-- The white space and line terminators that `trim()` removes. -/
def isTrimmed (c : Char) : Bool :=
  [0x9, 0xA, 0xB, 0xC, 0xD, 0x20, 0xA0, 0x1680, 0x2028, 0x2029, 0x202F, 0x205F, 0x3000,
    0xFEFF].contains c.toNat || (0x2000 ≤ c.toNat && c.toNat ≤ 0x200A)

/-- `s.trim()`. -/
def trim (s : String) : String :=
  String.ofList ((s.toList.dropWhile isTrimmed).reverse.dropWhile isTrimmed).reverse

def optionalString (env : Record) (name : String) : Option String :=
  match env.get? name with
  | some (.str value) =>
    let trimmed := trim value
    if trimmed = "" then none else some trimmed
  | _ => none

/-- The value, and the problems so far with the one that it is missing. -/
def requiredString (env : Record) (name : String) (problems : List String) :
    Option String × List String :=
  match optionalString env name with
  | none => (none, problems ++ [name ++ " is required"])
  | some value => (some value, problems)

/-- `/^(0|[1-9][0-9]*)$/`. -/
def isCanonicalNatural (s : String) : Bool := s = "0" || (isDigits s && s.toList.head? != some '0')

/-- `integerSetting`; from 2^53 on, what `Number` gives is no safe integer. -/
def integerSetting (env : Record) (name : String) (fallback min max : ℕ) : Option ℕ :=
  match optionalString env name with
  | none => some fallback
  | some raw =>
    if !isCanonicalNatural raw then none
    else
      let value := digitsValue raw
      if (value : ℤ) ≤ maxSafeInteger ∧ min ≤ value ∧ value ≤ max then some value else none

/-- `/^postgres(ql)?:\/\//`. -/
def isPostgresUrl (url : String) : Bool :=
  startsWith url "postgres://" || startsWith url "postgresql://"

section

variable (parseUrl : String → Option String)

/-- `isWebSocketUrl`. -/
def isWebSocketUrl (value : String) : Bool :=
  (parseUrl value).any fun protocol => protocol == "ws:" || protocol == "wss:"

/-- The problem that a URL is of the wrong kind, if it is there. -/
def urlProblem (isRight : String → Bool) (problem : String) (url : Option String)
    (problems : List String) : List String :=
  match url with
  | some value => if isRight value then problems else problems ++ [problem]
  | none => problems

/-- A setting that could not be read. -/
def missing {α : Type} (value : Option α) (problem : String) (problems : List String) :
    List String :=
  match value with
  | some _ => problems
  | none => problems ++ [problem]

/-- Both endpoints are the same. -/
def sameEndpoint (primary secondary : Option String) (problems : List String) : List String :=
  if primary ≠ none ∧ primary = secondary then
    problems ++ ["XRPL_PRIMARY_URL and XRPL_SECONDARY_URL must be different endpoints"]
  else problems

def defaultLogLevel : ConfigLogLevel := .log

def logLevelSetting (env : Record) : Option ConfigLogLevel :=
  let rawLogLevel := (optionalString env "LOG_LEVEL").getD defaultLogLevel.name
  configLogLevels.find? fun level => level.name = rawLogLevel

/-- The problems of `validateConfig`, pushed one after the other. -/
def configProblems (env : Record) : List String :=
  let (databaseUrl, problems) := requiredString env "DATABASE_URL" []
  let problems := urlProblem isPostgresUrl
    "DATABASE_URL must be a postgres:// or postgresql:// URL" databaseUrl problems
  let (xrplPrimaryUrl, problems) := requiredString env "XRPL_PRIMARY_URL" problems
  let (xrplSecondaryUrl, problems) := requiredString env "XRPL_SECONDARY_URL" problems
  let problems := urlProblem (isWebSocketUrl parseUrl)
    "XRPL_PRIMARY_URL must be a ws:// or wss:// URL" xrplPrimaryUrl problems
  let problems := urlProblem (isWebSocketUrl parseUrl)
    "XRPL_SECONDARY_URL must be a ws:// or wss:// URL" xrplSecondaryUrl problems
  let problems := sameEndpoint xrplPrimaryUrl xrplSecondaryUrl problems
  let problems := missing (integerSetting env "XRPL_NETWORK_ID" 1 0 4294967295)
    "XRPL_NETWORK_ID must be an integer between 0 and 4294967295" problems
  let problems := missing (integerSetting env "PORT" 3000 1 65535)
    "PORT must be an integer between 1 and 65535" problems
  missing (logLevelSetting env)
    "LOG_LEVEL must be one of: fatal, error, warn, log, debug, verbose" problems

def validateConfig (env : Record) : Except String AppConfig :=
  match configProblems parseUrl env, optionalString env "DATABASE_URL",
    optionalString env "XRPL_PRIMARY_URL", optionalString env "XRPL_SECONDARY_URL",
    integerSetting env "XRPL_NETWORK_ID" 1 0 4294967295, integerSetting env "PORT" 3000 1 65535,
    logLevelSetting env with
  | [], some databaseUrl, some xrplPrimaryUrl, some xrplSecondaryUrl, some xrplNetworkId, some port,
    some logLevel =>
    .ok ⟨databaseUrl, xrplNetworkId, xrplPrimaryUrl, xrplSecondaryUrl, logLevel, port⟩
  | problems, _, _, _, _, _, _ =>
    .error ("Invalid configuration:\n- " ++ "\n- ".intercalate problems)

/-! ## What is reported -/

/-- What can be wrong. -/
inductive ConfigProblem where
  | databaseMissing
  | databaseUrl
  | primaryMissing
  | secondaryMissing
  | primaryUrl
  | secondaryUrl
  | sameEndpoint
  | networkId
  | port
  | logLevel
  deriving DecidableEq

namespace ConfigProblem

/-- In the order in which they are reported. -/
def all : List ConfigProblem :=
  [databaseMissing, databaseUrl, primaryMissing, secondaryMissing, primaryUrl, secondaryUrl,
    sameEndpoint, networkId, port, logLevel]

def text : ConfigProblem → String
  | databaseMissing => "DATABASE_URL is required"
  | databaseUrl => "DATABASE_URL must be a postgres:// or postgresql:// URL"
  | primaryMissing => "XRPL_PRIMARY_URL is required"
  | secondaryMissing => "XRPL_SECONDARY_URL is required"
  | primaryUrl => "XRPL_PRIMARY_URL must be a ws:// or wss:// URL"
  | secondaryUrl => "XRPL_SECONDARY_URL must be a ws:// or wss:// URL"
  | sameEndpoint => "XRPL_PRIMARY_URL and XRPL_SECONDARY_URL must be different endpoints"
  | networkId => "XRPL_NETWORK_ID must be an integer between 0 and 4294967295"
  | port => "PORT must be an integer between 1 and 65535"
  | logLevel => "LOG_LEVEL must be one of: fatal, error, warn, log, debug, verbose"

/-- Whether it is wrong in an environment. -/
def holds (env : Record) : ConfigProblem → Bool
  | databaseMissing => (optionalString env "DATABASE_URL").isNone
  | databaseUrl => (optionalString env "DATABASE_URL").any fun url => !isPostgresUrl url
  | primaryMissing => (optionalString env "XRPL_PRIMARY_URL").isNone
  | secondaryMissing => (optionalString env "XRPL_SECONDARY_URL").isNone
  | primaryUrl =>
    (optionalString env "XRPL_PRIMARY_URL").any fun url => !isWebSocketUrl parseUrl url
  | secondaryUrl =>
    (optionalString env "XRPL_SECONDARY_URL").any fun url => !isWebSocketUrl parseUrl url
  | sameEndpoint => (optionalString env "XRPL_PRIMARY_URL").isSome &&
      optionalString env "XRPL_PRIMARY_URL" == optionalString env "XRPL_SECONDARY_URL"
  | networkId => (integerSetting env "XRPL_NETWORK_ID" 1 0 4294967295).isNone
  | port => (integerSetting env "PORT" 3000 1 65535).isNone
  | logLevel => (logLevelSetting env).isNone

/-- All that are. -/
def reported (env : Record) : List ConfigProblem := all.filter (holds parseUrl env)

end ConfigProblem

/-- The message of the error. -/
def configError (problems : List ConfigProblem) : String :=
  "Invalid configuration:\n- " ++ "\n- ".intercalate (problems.map (·.text))

variable {env : Record}

theorem requiredString_eq (name : String) (problems : List String) :
    requiredString env name problems = (optionalString env name,
      problems ++ if (optionalString env name).isNone then [name ++ " is required"] else []) := by
  unfold requiredString
  cases optionalString env name <;> simp

theorem urlProblem_eq (isRight : String → Bool) (problem : String) (url : Option String)
    (problems : List String) : urlProblem isRight problem url problems =
      problems ++ if url.any (fun value => !isRight value) then [problem] else [] := by
  cases url with
  | none => simp [urlProblem]
  | some value => cases h : isRight value <;> simp [urlProblem, h]

theorem missing_eq {α : Type} (value : Option α) (problem : String) (problems : List String) :
    missing value problem problems = problems ++ if value.isNone then [problem] else [] := by
  cases value <;> simp [missing]

theorem text_filter (p : ConfigProblem → Bool) (problem : ConfigProblem)
    (rest : List ConfigProblem) : ((problem :: rest).filter p).map (·.text) =
      (if p problem then [problem.text] else []) ++ (rest.filter p).map (·.text) := by
  cases h : p problem <;> simp [h]

theorem sameEndpoint_eq (primary secondary : Option String) (problems : List String) :
    sameEndpoint primary secondary problems = problems ++
      if primary.isSome && primary == secondary then
        ["XRPL_PRIMARY_URL and XRPL_SECONDARY_URL must be different endpoints"] else [] := by
  cases primary with
  | none => simp [sameEndpoint]
  | some url =>
    by_cases h : some url = secondary
    · subst h
      simp [sameEndpoint]
    · simp [sameEndpoint, h]

/-- **The problems that are pushed** are those that hold, in their order. -/
theorem configProblems_eq (env : Record) :
    configProblems parseUrl env = (ConfigProblem.reported parseUrl env).map (·.text) := by
  unfold configProblems ConfigProblem.reported
  simp only [requiredString_eq, urlProblem_eq, missing_eq, sameEndpoint_eq, List.nil_append,
    List.append_assoc]
  simp only [ConfigProblem.all, text_filter, List.filter_nil, List.map_nil, List.append_nil]
  rfl

/-! ## What is accepted -/

/-- The variable is absent, or it is a plain decimal number within the bounds. -/
def IsIntegerSetting (env : Record) (name : String) (fallback min max value : ℕ) : Prop :=
  optionalString env name = none ∧ value = fallback ∨
    ∃ raw, optionalString env name = some raw ∧ isCanonicalNatural raw = true ∧
      digitsValue raw = value ∧ min ≤ value ∧ value ≤ max

theorem integerSetting_eq_some {name : String} {fallback min max value : ℕ}
    (hmax : (max : ℤ) ≤ maxSafeInteger) : integerSetting env name fallback min max = some value ↔
      IsIntegerSetting env name fallback min max value := by
  unfold integerSetting IsIntegerSetting
  cases optionalString env name with
  | none =>
    refine ⟨fun h => .inl ⟨rfl, (Option.some.inj h).symm⟩, ?_⟩
    rintro (⟨-, rfl⟩ | ⟨raw, hraw, -⟩)
    · rfl
    · cases hraw
  | some raw =>
    dsimp only
    constructor
    · intro h
      split at h
      · cases h
      next hraw =>
        obtain ⟨⟨-, hmin, hle⟩, h⟩ := Option.ite_none_right_eq_some.mp h
        obtain rfl := Option.some.inj h
        exact .inr ⟨raw, rfl, by simpa using hraw, rfl, hmin, hle⟩
    · rintro (⟨hnone, -⟩ | ⟨raw', hraw, hc, rfl, hmin, hle⟩)
      · cases hnone
      · obtain rfl := Option.some.inj hraw
        rw [if_neg (by simp [hc]), if_pos ⟨by omega, hmin, hle⟩]

theorem logLevelSetting_eq_some {level : ConfigLogLevel} : logLevelSetting env = some level ↔
    level.name = (optionalString env "LOG_LEVEL").getD defaultLogLevel.name := by
  unfold logLevelSetting
  generalize (optionalString env "LOG_LEVEL").getD defaultLogLevel.name = raw
  constructor
  · intro h
    have hname := List.find?_some h
    exact of_decide_eq_true hname
  · rintro rfl
    cases level <;> rfl

/-- The environment describes the configuration. -/
structure Acceptable (env : Record) (c : AppConfig) : Prop where
  databaseUrl : optionalString env "DATABASE_URL" = some c.databaseUrl
  postgres : isPostgresUrl c.databaseUrl = true
  primary : optionalString env "XRPL_PRIMARY_URL" = some c.xrplPrimaryUrl
  secondary : optionalString env "XRPL_SECONDARY_URL" = some c.xrplSecondaryUrl
  sockets : isWebSocketUrl parseUrl c.xrplPrimaryUrl = true ∧
    isWebSocketUrl parseUrl c.xrplSecondaryUrl = true
  different : c.xrplPrimaryUrl ≠ c.xrplSecondaryUrl
  networkId : IsIntegerSetting env "XRPL_NETWORK_ID" 1 0 4294967295 c.xrplNetworkId
  port : IsIntegerSetting env "PORT" 3000 1 65535 c.port
  logLevel : c.logLevel.name = (optionalString env "LOG_LEVEL").getD defaultLogLevel.name

/-- Nothing is wrong with an environment that describes a configuration. -/
theorem Acceptable.reported {c : AppConfig} (h : Acceptable parseUrl env c) :
    ConfigProblem.reported parseUrl env = [] := by
  have hn := (integerSetting_eq_some (by decide)).mpr h.networkId
  have hp := (integerSetting_eq_some (by decide)).mpr h.port
  have hl := logLevelSetting_eq_some.mpr h.logLevel
  refine List.filter_eq_nil_iff.mpr fun problem _ => ?_
  cases problem <;> simp [ConfigProblem.holds, h.databaseUrl, h.primary, h.secondary, h.postgres,
    h.sockets, h.different, hn, hp, hl]

/-- It describes one only. -/
theorem Acceptable.unique {c c' : AppConfig} (h : Acceptable parseUrl env c)
    (h' : Acceptable parseUrl env c') : c = c' := by
  have hn := ((integerSetting_eq_some (by decide)).mpr h.networkId).symm.trans
    ((integerSetting_eq_some (by decide)).mpr h'.networkId)
  have hp := ((integerSetting_eq_some (by decide)).mpr h.port).symm.trans
    ((integerSetting_eq_some (by decide)).mpr h'.port)
  have hl := (logLevelSetting_eq_some.mpr h.logLevel).symm.trans
    (logLevelSetting_eq_some.mpr h'.logLevel)
  cases c
  cases c'
  simp only [AppConfig.mk.injEq]
  exact ⟨Option.some.inj (h.databaseUrl.symm.trans h'.databaseUrl), Option.some.inj hn,
    Option.some.inj (h.primary.symm.trans h'.primary),
    Option.some.inj (h.secondary.symm.trans h'.secondary), Option.some.inj hl, Option.some.inj hp⟩

/-- An environment with which nothing is wrong describes one. -/
theorem acceptable_of_reported (h : ConfigProblem.reported parseUrl env = []) :
    ∃ c, Acceptable parseUrl env c ∧ validateConfig parseUrl env = .ok c := by
  have right (problem : ConfigProblem) : problem.holds parseUrl env = false :=
    Bool.eq_false_iff.mpr (List.filter_eq_nil_iff.mp h problem (by cases problem <;> decide))
  obtain ⟨databaseUrl, hd⟩ := Option.isSome_iff_exists.mp (by
    simpa [ConfigProblem.holds] using right .databaseMissing)
  obtain ⟨primary, hp⟩ := Option.isSome_iff_exists.mp (by
    simpa [ConfigProblem.holds] using right .primaryMissing)
  obtain ⟨secondary, hs⟩ := Option.isSome_iff_exists.mp (by
    simpa [ConfigProblem.holds] using right .secondaryMissing)
  obtain ⟨networkId, hn⟩ := Option.isSome_iff_exists.mp (by
    simpa [ConfigProblem.holds] using right .networkId)
  obtain ⟨port, hport⟩ := Option.isSome_iff_exists.mp (by
    simpa [ConfigProblem.holds] using right .port)
  obtain ⟨level, hl⟩ := Option.isSome_iff_exists.mp (by
    simpa [ConfigProblem.holds] using right .logLevel)
  refine ⟨⟨databaseUrl, networkId, primary, secondary, level, port⟩, ?_, ?_⟩
  · exact {
      databaseUrl := hd
      postgres := by simpa [ConfigProblem.holds, hd] using right .databaseUrl
      primary := hp
      secondary := hs
      sockets := ⟨by simpa [ConfigProblem.holds, hp] using right .primaryUrl,
        by simpa [ConfigProblem.holds, hs] using right .secondaryUrl⟩
      different := by simpa [ConfigProblem.holds, hp, hs] using right .sameEndpoint
      networkId := (integerSetting_eq_some (by decide)).mp hn
      port := (integerSetting_eq_some (by decide)).mp hport
      logLevel := logLevelSetting_eq_some.mp hl }
  · simp [validateConfig, configProblems_eq, h, hd, hp, hs, hn, hport, hl]

/-- **The configuration is validated as a whole.** An environment is accepted exactly if it
describes a configuration, and as that one: a PostgreSQL URL, two different WebSocket URLs, a
network id and a port that are plain decimal numbers within their bounds or absent, and a known log
level or none. Otherwise the error lists exactly what is wrong, each in a fixed text: it shows
nothing of the values. -/
theorem validateConfig_iff (parseUrl : String → Option String) (env : Record) :
    (∀ c, validateConfig parseUrl env = .ok c ↔ Acceptable parseUrl env c) ∧
    ∀ message, validateConfig parseUrl env = .error message ↔
      ConfigProblem.reported parseUrl env ≠ [] ∧
        message = configError (ConfigProblem.reported parseUrl env) := by
  by_cases h : ConfigProblem.reported parseUrl env = []
  · obtain ⟨c, hc, hok⟩ := acceptable_of_reported parseUrl h
    refine ⟨fun c' => ⟨fun hok' => ?_, fun hc' => ?_⟩, fun message => ?_⟩
    · obtain rfl := Except.ok.inj (hok.symm.trans hok')
      exact hc
    · rw [hok, hc.unique parseUrl hc']
    · simp [hok, h]
  · have herror : validateConfig parseUrl env =
        .error (configError (ConfigProblem.reported parseUrl env)) := by
      unfold validateConfig
      rw [configProblems_eq]
      split
      next hnil _ _ _ _ _ _ => exact absurd (List.map_eq_nil_iff.mp hnil) h
      · rfl
    refine ⟨fun c => ⟨fun hok => ?_, fun hc => absurd (hc.reported parseUrl) h⟩, fun message => ?_⟩
    · cases herror.symm.trans hok
    · rw [herror]
      exact ⟨fun he => ⟨h, (Except.error.inj he).symm⟩, fun he => congrArg _ he.2.symm⟩

end

end Orchestrator
