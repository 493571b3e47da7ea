import Onboarding.IpAddress
import Onboarding.Log.Format
import Onboarding.Mail.Message
import Onboarding.Schema.Json
import Onboarding.Schema.Toml
import Onboarding.Service.Error
import Onboarding.Settings
import Onboarding.Text.Utf8
/-!
# Configuration — what the daemon is told by a file

Every member has a fallback, so that an empty file is a configuration. A file is refused
if it is no TOML, if a member has a value of the wrong kind, if the address to listen at
is none, or if the service could not work with its settings. `Config.toText?` writes a
configuration back with every member; what is written reads back as the same
configuration.
-/

namespace Onboarding

/-- How transfers are sent. -/
structure BroadcastConfig where
  endpoint : String := "http://127.0.0.1:1317"
  denom : String := "udec"
  timeoutSeconds : UInt64 := 30
deriving DecidableEq, Repr, Inhabited

/-- The stored layout; every member has a fallback. -/
def BroadcastConfig.schema : Schema BroadcastConfig :=
  .via
    (.record (.optional "endpoint" .text ({ } : BroadcastConfig).endpoint
      (.optional "denom" .text ({ } : BroadcastConfig).denom
      (.optional "timeout_secs" .word ({ } : BroadcastConfig).timeoutSeconds .done))))
    (fun (a, b, c, ()) => ⟨a, b, c⟩) (fun c => (c.endpoint, c.denom, c.timeoutSeconds, ()))
    (fun _ => rfl) (fun _ => rfl)

/-- How mails are sent. -/
structure MailConfig where
  endpoint : String := "http://127.0.0.1:8025/api/send"
  apiKey : String := ""
  queueCapacity : Nat := 1024
  templates : MailTemplates := { }
deriving DecidableEq, Repr, Inhabited

/-- The stored layout; every member has a fallback. -/
def MailConfig.schema : Schema MailConfig :=
  .via
    (.record (.optional "endpoint" .text ({ } : MailConfig).endpoint
      (.optional "api_key" .text ({ } : MailConfig).apiKey
      (.optional "queue_capacity" .count ({ } : MailConfig).queueCapacity
      (.optional "templates" MailTemplates.schema ({ } : MailConfig).templates .done)))))
    (fun (a, b, c, d, ()) => ⟨a, b, c, d⟩)
    (fun c => (c.endpoint, c.apiKey, c.queueCapacity, c.templates, ()))
    (fun _ => rfl) (fun _ => rfl)

/-- A configuration whose address to listen at is an `A`. -/
structure ConfigWith (A : Type) where
  /-- The directory of the store. -/
  dataDir : String
  /-- The bytes that the store may grow to. -/
  mapSize : Nat
  listen : A
  logFormat : LogFormat
  logLevel : String
  blockchain : BroadcastConfig
  mail : MailConfig
  service : Settings
  /-- Domains that are put on the fraud list when the daemon starts. -/
  fraudDomains : List String
  /-- Days after which an installed referral counts as stale. -/
  staleDays : UInt64
  /-- Seconds between two reports of stale referrals; none are made if it is zero. -/
  reportSeconds : UInt64
deriving DecidableEq, Repr, Inhabited

namespace ConfigWith

/-- A configuration with another address to listen at. -/
def withListen {A B : Type} (c : ConfigWith A) (listen : B) : ConfigWith B :=
  ⟨c.dataDir, c.mapSize, listen, c.logFormat, c.logLevel, c.blockchain, c.mail, c.service,
    c.fraudDomains, c.staleDays, c.reportSeconds⟩

/-- What stands in for the members that are left out. -/
def fallback : ConfigWith String where
  dataDir := "./vulcan_data"
  mapSize := 0x40000000
  listen := "0.0.0.0:7080"
  logFormat := .human
  logLevel := "info"
  blockchain := { }
  mail := { }
  service := { }
  fraudDomains := []
  staleDays := 30
  reportSeconds := 86400

/-- The stored layout; every member has a fallback. -/
def schema : Schema (ConfigWith String) :=
  .via
    (.record (.optional "data_dir" .text fallback.dataDir
      (.optional "map_size" .count fallback.mapSize
      (.optional "listen_addr" .text fallback.listen
      (.optional "log_format" LogFormat.schema fallback.logFormat
      (.optional "log_level" .text fallback.logLevel
      (.optional "blockchain" BroadcastConfig.schema fallback.blockchain
      (.optional "mail" MailConfig.schema fallback.mail
      (.optional "service" Settings.schema fallback.service
      (.optional "fraud_domains" (.list .text) fallback.fraudDomains
      (.optional "stale_referral_days" .word fallback.staleDays
      (.optional "stale_report_interval_secs" .word fallback.reportSeconds .done))))))))))))
    (fun (a, b, c, d, e, f, g, h, i, j, k, ()) => ⟨a, b, c, d, e, f, g, h, i, j, k⟩)
    (fun c => (c.dataDir, c.mapSize, c.listen, c.logFormat, c.logLevel, c.blockchain, c.mail,
      c.service, c.fraudDomains, c.staleDays, c.reportSeconds, ()))
    (fun _ => rfl) (fun _ => rfl)

end ConfigWith

/-- A configuration. -/
abbrev Config : Type := ConfigWith ListenAddress

/-- Why there is no configuration. -/
inductive ConfigError where
  /-- The file cannot be read. -/
  | unreadable (path reason : String)
  /-- The text is no configuration. -/
  | malformed (reason : String)
  /-- The service cannot work with its settings. -/
  | refused (reason : String)
deriving DecidableEq, Repr

/-- The wording of each reason. -/
def ConfigError.message : ConfigError → String
  | unreadable path reason => "cannot read " ++ path ++ ": " ++ reason
  | malformed reason => "invalid config: " ++ reason
  | refused reason => "invalid service config: " ++ reason

namespace Config

/-- The address that the daemon listens at if it is not told another. -/
def defaultListen : ListenAddress := ⟨"0.0.0.0:7080", by decide +kernel⟩

/-- The configuration of a daemon without a file. -/
def default : Config := ConfigWith.fallback.withListen defaultListen

/-- What a text says of a configuration, its address still a text. -/
def read? (text : String) : Option (ConfigWith String) :=
  match Toml.parse? text with
  | none => none
  | some members => ConfigWith.schema.ofToml? (.table members)

/-- The configuration that a text holds. -/
def ofText (text : String) : Except ConfigError Config :=
  match read? text with
  | none => .error (.malformed "no configuration")
  | some c =>
    match ListenAddress.parse? c.listen with
    | none => .error (.malformed "no address to listen at")
    | some listen =>
      match c.service.check with
      | .error f => .error (.refused (ServiceError.invalidConfig f.message).message)
      | .ok () => .ok (c.withListen listen)

/-- The configuration that the bytes of a file hold. -/
def ofFile (path : String) (bytes : List UInt8) : Except ConfigError Config :=
  match Utf8.text bytes with
  | .error _ => .error (.unreadable path "stream did not contain valid UTF-8")
  | .ok text => ofText text

/-- The members of a configuration by name, for a file. -/
def toToml? (c : Config) : Option (List (String × Toml)) :=
  match ConfigWith.schema.toToml? (c.withListen c.listen.text) with
  | some (.table members) => some members
  | _ => none

/-- The text of a configuration, unless a number in it is too large for a file. -/
def toText? (c : Config) : Option String := c.toToml?.map Toml.render

/-- The configuration as JSON. -/
def toJson (c : Config) : Json := ConfigWith.schema.toJson (c.withListen c.listen.text)

end Config

end Onboarding
