import Mathlib.Data.List.Basic

/-!
# Startup checks of the IAM service

What `IamConfig::validate` checks of the API keys and of the audit log, in its
order and with its texts.
-/

namespace Paigasus.Config

inductive ApiKeyCacheBackend where
  | memory
  | redis
deriving DecidableEq

structure ApiKeyCacheConfig where
  backend : ApiKeyCacheBackend
  redisUrl : Option String
  ttlSecs : Nat

structure ApiKeyConfig where
  pepper : String
  keyPrefix : String
  maxTokenBytes : Nat
  defaultExpiryDays : Option UInt32
  introspectCache : ApiKeyCacheConfig

structure RetentionConfig where
  intervalSecs : Nat
  aheadMonths : Nat

structure AuditConfig where
  denialBufferCapacity : Nat
  retention : RetentionConfig
  queryDefaultWindowDays : UInt32
  queryMaxWindowDays : UInt32

structure IamConfig where
  apiKeys : ApiKeyConfig
  audit : AuditConfig

/-- The check fails with the message unless the condition holds. -/
def require (condition : Bool) (message : String) : Except String Unit :=
  if condition then .ok () else .error message

inductive PepperConfigError where
  | invalidEncoding
  | tooShort
deriving DecidableEq

def minPepperBytes : Nat := 32

def PepperConfigError.message : PepperConfigError → String
  | invalidEncoding => "pepper is not valid base64"
  | tooShort => "pepper must decode to at least 32 bytes"

/-- `decodeStandard` reads padded base64, after the blanks around it. -/
def Pepper.fromConfig (decodeStandard : String → Option (List UInt8))
    (raw : String) : Except PepperConfigError (List UInt8) :=
  match decodeStandard raw with
  | none => .error .invalidEncoding
  | some bytes =>
      if bytes.length < minPepperBytes then .error .tooShort else .ok bytes

def checkPepper (decodeStandard : String → Option (List UInt8))
    (pepper : String) : Except String Unit :=
  match Pepper.fromConfig decodeStandard pepper with
  | .error error =>
      .error ("api_keys.pepper is invalid: " ++ error.message)
  | .ok _ => .ok ()

def toAsciiLower (text : String) : List Char := text.toList.map Char.toLower

def eqIgnoreAsciiCase (first second : String) : Bool :=
  toAsciiLower first = toAsciiLower second

/-- The digits of a key id, the separator and the base64 text of a secret. -/
def fixedTokenBytes : Nat := 32 + 1 + 43

def maxMaxTokenBytes : Nat := 8192

def ApiKeyConfig.minMaxTokenBytes (config : ApiKeyConfig) : Nat :=
  config.keyPrefix.utf8ByteSize + fixedTokenBytes

/-- The checks of `api_keys`. -/
def ApiKeyConfig.validate (decodeStandard : String → Option (List UInt8))
    (config : ApiKeyConfig) : Except String Unit := do
  checkPepper decodeStandard config.pepper
  require (config.keyPrefix ≠ "")
    ("api_keys.key_prefix must not be empty (an empty prefix would misroute " ++
      "every JWT to the API-key auth path)")
  require (!eqIgnoreAsciiCase config.keyPrefix "bearer")
    ("api_keys.key_prefix must not collide with the \"Bearer\" scheme (got \"" ++
      config.keyPrefix ++ "\")")
  require (config.introspectCache.backend ≠ .redis ||
      config.introspectCache.redisUrl.isSome)
    ("api_keys.introspect_cache.backend = \"redis\" requires " ++
      "api_keys.introspect_cache.redis_url")
  require (config.introspectCache.ttlSecs ≠ 0)
    ("api_keys.introspect_cache.ttl_secs must be at least 1 (0 breaks the " ++
      "introspection cache)")
  require (config.minMaxTokenBytes ≤ config.maxTokenBytes &&
      config.maxTokenBytes ≤ maxMaxTokenBytes)
    ("api_keys.max_token_bytes (" ++ toString config.maxTokenBytes ++
      ") must be between " ++ toString config.minMaxTokenBytes ++
      " (api_keys.key_prefix.len() [" ++
      toString config.keyPrefix.utf8ByteSize ++ "] + " ++
      toString fixedTokenBytes ++
      ", the shortest token this config can ever emit) and " ++
      toString maxMaxTokenBytes)

def maxQueryWindowDays : UInt32 := 36600

/-- The checks of `audit`. -/
def AuditConfig.validate (config : AuditConfig) : Except String Unit := do
  require (config.denialBufferCapacity ≠ 0)
    ("audit.denial_buffer_capacity must be at least 1 (0 makes the " ++
      "denial-audit buffer evict every entry it enqueues)")
  require (config.retention.intervalSecs ≠ 0)
    ("audit.retention.interval_secs must be at least 1 (0 would busy-loop the " ++
      "maintenance task)")
  require (1 ≤ config.retention.aheadMonths &&
      config.retention.aheadMonths ≤ 24)
    ("audit.retention.ahead_months (" ++
      toString config.retention.aheadMonths ++ ") must be between 1 and 24")
  require (config.queryDefaultWindowDays ≠ 0 && config.queryMaxWindowDays ≠ 0)
    ("audit.query_default_window_days and audit.query_max_window_days must " ++
      "be at least 1")
  require (config.queryDefaultWindowDays ≤ maxQueryWindowDays &&
      config.queryMaxWindowDays ≤ maxQueryWindowDays)
    ("audit.query_default_window_days and audit.query_max_window_days must " ++
      "be at most 36600 (~100 years; larger values overflow the " ++
      "`to - Duration::days(window)` computation on the audit-query hot path)")
  require (config.queryDefaultWindowDays ≤ config.queryMaxWindowDays)
    ("audit.query_default_window_days (" ++
      toString config.queryDefaultWindowDays ++
      ") must be <= audit.query_max_window_days (" ++
      toString config.queryMaxWindowDays ++
      "): a default lookback wider than the max clamp is incoherent")

def IamConfig.validate (decodeStandard : String → Option (List UInt8))
    (config : IamConfig) : Except String Unit := do
  config.apiKeys.validate decodeStandard
  config.audit.validate

theorem require_ok {condition : Bool} {message : String} :
    require condition message = .ok () ↔ condition = true := by
  unfold require
  split
  case isTrue holds => simp [holds]
  case isFalse fails => simp [fails]

theorem andThen_ok {first second : Except String Unit} :
    (first >>= fun _ => second) = .ok () ↔ first = .ok () ∧ second = .ok () := by
  cases first with
  | error message => simp [bind, Except.bind]
  | ok value => simp [bind, Except.bind]

/-- What accepted settings of the API keys are. -/
structure ApiKeyConfig.Accepted (config : ApiKeyConfig) : Prop where
  nonempty : config.keyPrefix ≠ ""
  notBearer : eqIgnoreAsciiCase config.keyPrefix "bearer" = false
  room : config.minMaxTokenBytes ≤ config.maxTokenBytes
  capped : config.maxTokenBytes ≤ maxMaxTokenBytes

/-- What accepted settings of the audit log are. -/
structure AuditConfig.Accepted (config : AuditConfig) : Prop where
  positive : 0 < config.queryDefaultWindowDays.toNat
  ordered : config.queryDefaultWindowDays.toNat ≤
    config.queryMaxWindowDays.toNat
  capped : config.queryMaxWindowDays.toNat ≤ 36600

theorem ApiKeyConfig.accepted_of_validate
    {decodeStandard : String → Option (List UInt8)} {config : ApiKeyConfig}
    (valid : config.validate decodeStandard = .ok ()) : config.Accepted := by
  unfold validate at valid
  simp only [andThen_ok, require_ok] at valid
  obtain ⟨_, nonempty, notBearer, _, _, room⟩ := valid
  simp only [Bool.and_eq_true, decide_eq_true_eq] at room
  exact ⟨by simpa using nonempty, by simpa using notBearer, room.1, room.2⟩

theorem AuditConfig.accepted_of_validate {config : AuditConfig}
    (valid : config.validate = .ok ()) : config.Accepted := by
  unfold validate at valid
  simp only [andThen_ok, require_ok, Bool.and_eq_true,
    decide_eq_true_eq] at valid
  obtain ⟨_, _, _, ⟨nonzero, _⟩, ⟨_, capped⟩, ordered⟩ := valid
  refine ⟨?_, UInt32.le_iff_toNat_le.mp ordered,
    UInt32.le_iff_toNat_le.mp capped⟩
  have positive : config.queryDefaultWindowDays.toNat ≠ 0 := by
    intro zero
    exact nonzero (UInt32.toNat_inj.mp zero)
  omega

theorem IamConfig.accepted_of_validate
    {decodeStandard : String → Option (List UInt8)} {config : IamConfig}
    (valid : config.validate decodeStandard = .ok ()) :
    config.apiKeys.Accepted ∧ config.audit.Accepted := by
  unfold validate at valid
  obtain ⟨apiKeys, audit⟩ := andThen_ok.mp valid
  exact ⟨ApiKeyConfig.accepted_of_validate apiKeys,
    AuditConfig.accepted_of_validate audit⟩

end Paigasus.Config
