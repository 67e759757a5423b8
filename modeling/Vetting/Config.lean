import Vetting.Assoc
import Vetting.Text
import Vetting.Time

/-!
Configuration: settings given as names and values. Names count in any case, unknown names are passed
over, and a setting given twice is refused. The first pair that cannot be taken is the error; if
there is none, the first required setting that is missing.
-/
namespace Vetting

/-- What can be set, in the order in which missing settings are told. -/
inductive Setting
  | bindAddr
  | databaseUrl
  | redisUrl
  | queueName
  | workerId
  | jwtSecret
  | cacheTtlSecs
  | cacheTimeoutMs
  | executorTimeoutSecs
  | workerMetricsAddr
  | simulatedLatencyMs
  deriving DecidableEq, Repr

namespace Setting

def all : List Setting :=
  [.bindAddr, .databaseUrl, .redisUrl, .queueName, .workerId, .jwtSecret, .cacheTtlSecs,
    .cacheTimeoutMs, .executorTimeoutSecs, .workerMetricsAddr, .simulatedLatencyMs]

/-- The name of a setting, in lower case. -/
def name : Setting → String
  | .bindAddr => "bind_addr"
  | .databaseUrl => "database_url"
  | .redisUrl => "redis_url"
  | .queueName => "queue_name"
  | .workerId => "worker_id"
  | .jwtSecret => "jwt_secret"
  | .cacheTtlSecs => "cache_ttl_secs"
  | .cacheTimeoutMs => "cache_timeout_ms"
  | .executorTimeoutSecs => "executor_timeout_secs"
  | .workerMetricsAddr => "worker_metrics_addr"
  | .simulatedLatencyMs => "simulated_latency_ms"

/-- Whether the value is a number. -/
def isNumeric : Setting → Bool
  | .cacheTtlSecs | .cacheTimeoutMs | .executorTimeoutSecs | .simulatedLatencyMs => true
  | _ => false

/-- The lower case of a character, as far as names of settings can tell: of the letters beyond
ASCII only the Kelvin sign has an ASCII letter for it. -/
def lower (c : Char) : Char := if c = Char.ofNat 0x212a then 'k' else c.toLower

/-- The setting that a name means, in any case. -/
def ofName? (name : String) : Option Setting :=
  let lowered := String.ofList (name.toList.map lower)
  all.find? fun setting => setting.name = lowered

end Setting

/-- A value as it is kept. -/
inductive SettingValue
  | text (s : String)
  | number (n : UInt64)
  deriving DecidableEq, Repr

/-- Why settings are refused. -/
inductive ConfigError
  | missing (setting : Setting)
  | repeated (setting : Setting)
  | notANumber (setting : Setting) (value : String) (refusal : Decimal.Refusal)
  deriving DecidableEq, Repr

/-- The wording of an error. -/
def ConfigError.message : ConfigError → String
  | .missing setting => "missing value for field " ++ setting.name
  | .repeated setting => "duplicate field `" ++ setting.name ++ "`"
  | .notANumber setting value refusal =>
    refusal.message ++ " while parsing value '" ++ value ++ "' provided by " ++
      String.ofList (setting.name.toList.map Char.toUpper)

/-- The settings of the program. -/
structure Config where
  /-- Where the server listens. -/
  bindAddr : String
  databaseUrl : String
  /-- Where the task queue and the cache are. -/
  redisUrl : String
  /-- What the keys of the task queue start with. -/
  queueName : String
  /-- Who a worker is; no two live workers share it. -/
  workerId : Option String
  /-- The secret that tokens are signed with. -/
  jwtSecret : Option String
  /-- How long a cache entry lives; forever if not set. -/
  cacheTtlSecs : Option UInt64
  /-- How long a submission waits for the cache. -/
  cacheTimeoutMs : UInt64
  /-- How long an operation may run; without limit if not set. -/
  executorTimeoutSecs : Option UInt64
  workerMetricsAddr : Option String
  /-- How long the stand-ins take. -/
  simulatedLatencyMs : UInt64
  deriving DecidableEq, Repr

namespace Config

/-- The value of one setting. -/
def readValue (setting : Setting) (value : String) : Except ConfigError SettingValue :=
  if setting.isNumeric then
    match Decimal.natural? Decimal.maxNat64 value.toList with
    | .ok n => .ok (.number (UInt64.ofNat n))
    | .error refusal => .error (.notANumber setting value refusal)
  else .ok (.text value)

/-- Takes in the pairs after those already found. -/
def collect (found : List (Setting × SettingValue)) :
    List (String × String) → Except ConfigError (List (Setting × SettingValue))
  | [] => .ok found
  | (name, value) :: rest =>
    match Setting.ofName? name with
    | none => collect found rest
    | some setting =>
      if (found.lookup setting).isSome then .error (.repeated setting)
      else
        match readValue setting value with
        | .error e => .error e
        | .ok value => collect (found ++ [(setting, value)]) rest

/-- The text or the number that was found for a setting. -/
def text? (found : List (Setting × SettingValue)) (setting : Setting) : Option String :=
  match found.lookup setting with
  | some (.text s) => some s
  | _ => none

def number? (found : List (Setting × SettingValue)) (setting : Setting) : Option UInt64 :=
  match found.lookup setting with
  | some (.number n) => some n
  | _ => none

/-- The configuration that the found values make, with the defaults of the others. -/
def ofFound (found : List (Setting × SettingValue)) : Except ConfigError Config :=
  match text? found .databaseUrl, text? found .redisUrl with
  | none, _ => .error (.missing .databaseUrl)
  | _, none => .error (.missing .redisUrl)
  | some databaseUrl, some redisUrl =>
    .ok {
      bindAddr := (text? found .bindAddr).getD "0.0.0.0:3000"
      databaseUrl
      redisUrl
      queueName := (text? found .queueName).getD "kyc_jobs"
      workerId := text? found .workerId
      jwtSecret := text? found .jwtSecret
      cacheTtlSecs := number? found .cacheTtlSecs
      cacheTimeoutMs := (number? found .cacheTimeoutMs).getD 250
      executorTimeoutSecs := number? found .executorTimeoutSecs
      workerMetricsAddr := text? found .workerMetricsAddr
      simulatedLatencyMs := (number? found .simulatedLatencyMs).getD 5000 }

/-- The pairs of an environment: each name has the value that it was given last, at the place where it
came first. -/
def environment (given : List (String × String)) : List (String × String) :=
  given.foldl (fun pairs (name, value) => Assoc.put name value pairs) []

/-- The configuration that pairs of name and value give. -/
def read (pairs : List (String × String)) : Except ConfigError Config :=
  match collect [] pairs with
  | .error e => .error e
  | .ok found => ofFound found

/-- The lifetime of cache entries. -/
def cacheTtl (config : Config) : Option Span := config.cacheTtlSecs.map .ofSeconds
/-- The longest wait for the cache. -/
def cacheTimeout (config : Config) : Span := .ofMillis config.cacheTimeoutMs
/-- The longest run of an operation. -/
def executorTimeout (config : Config) : Option Span := config.executorTimeoutSecs.map .ofSeconds
/-- The time that the stand-ins take. -/
def simulatedLatency (config : Config) : Span := .ofMillis config.simulatedLatencyMs

end Config

end Vetting
