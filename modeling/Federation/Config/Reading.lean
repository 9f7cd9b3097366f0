import Federation.Config.Basic
import Federation.Toml.Document
import Federation.Value

/-!
Reading a configuration from a structured value. What is not said keeps its default, and what has no
meaning here is passed over; what has one must be of the right type.
-/

namespace Federation

def Value.readOr {α : Type} (default : α) (read : Value → Option α) : Option Value → Option α
  | none => some default
  | some v => read v

def Value.address? (v : Value) : Option Net.Address :=
  v.text?.bind Net.Address.parse?

def ListenerConfig.ofValue? (v : Value) : Option ListenerConfig :=
  let default : ListenerConfig := {}
  match v.fields? ["host", "port"] with
  | some [host, port] =>
    (Value.readOr default.host Value.address? host).bind fun host =>
      (Value.readOr default.port (Value.unsigned? 16) port).map fun port => ⟨host, port⟩
  | _ => none

def LoggingConfig.ofValue? (v : Value) : Option LoggingConfig :=
  let default : LoggingConfig := {}
  match v.fields? ["level", "json"] with
  | some [level, json] =>
    (Value.readOr default.level Value.text? level).bind fun level =>
      (Value.readOr default.json Value.bool? json).map fun json => ⟨level, json⟩
  | _ => none

def TrustConfig.ofValue? (v : Value) : Option TrustConfig :=
  let default : TrustConfig := {}
  match v.fields? ["auth_timeout_secs", "dialback_workaround", "skip_tls_hosts"] with
  | some [timeout, workaround, hosts] =>
    (Value.readOr default.authTimeoutSecs (Value.unsigned? 64) timeout).bind fun timeout =>
      (Value.readOr default.dialbackWorkaround Value.bool? workaround).bind fun workaround =>
        (Value.readOr default.skipTlsHosts (Value.listOf? Value.text?) hosts).map fun hosts =>
          ⟨timeout, workaround, hosts⟩
  | _ => none

def DomainConfig.ofValue? (v : Value) : Option DomainConfig :=
  match v.fields? ["name", "secret", "tls_required"] with
  | some [some name, secret, tlsRequired] =>
    name.text?.bind fun name =>
      (Value.readOr none (fun v => v.text?.map some) secret).bind fun secret =>
        (Value.readOr false Value.bool? tlsRequired).map fun tlsRequired =>
          ⟨name, secret, tlsRequired⟩
  | _ => none

namespace Config

def ofValue? (v : Value) : Option Config :=
  match v.fields? ["server", "logging", "s2s", "domains"] with
  | some [server, logging, trust, domains] =>
    (Value.readOr {} ListenerConfig.ofValue? server).bind fun server =>
      (Value.readOr {} LoggingConfig.ofValue? logging).bind fun logging =>
        (Value.readOr {} TrustConfig.ofValue? trust).bind fun trust =>
          (Value.readOr [] (Value.listOf? DomainConfig.ofValue?) domains).map fun domains =>
            ⟨server, logging, trust, domains⟩
  | _ => none

def isSet (flag : String) : Bool :=
  flag == "true" || flag == "1"

/-- Applies what the environment says. A value that cannot be read changes nothing. -/
def withEnvironment (c : Config) (lookup : String → Option String) : Config :=
  let host := (lookup "PARLEY_HOST").bind Net.Address.parse?
  let port := (lookup "PARLEY_PORT").bind (Text.readUnsigned? 16)
  let level := lookup "PARLEY_LOG_LEVEL"
  let json := (lookup "PARLEY_LOG_JSON").map isSet
  let timeout := (lookup "PARLEY_AUTH_TIMEOUT_SECS").bind (Text.readUnsigned? 64)
  let workaround := (lookup "PARLEY_DIALBACK_WORKAROUND").map isSet
  { c with
    server := ⟨host.getD c.server.host, port.getD c.server.port⟩
    logging := ⟨level.getD c.logging.level, json.getD c.logging.json⟩
    trust :=
      { c.trust with
        authTimeoutSecs := timeout.getD c.trust.authTimeoutSecs
        dialbackWorkaround := workaround.getD c.trust.dialbackWorkaround } }

inductive Source where
  | nowhere
  | missing
  | unreadable
  | file (content : ByteArray)

def read : Source → Except ConfigError Config
  | .nowhere => .ok {}
  | .missing => .ok {}
  | .unreadable => .error .fileRead
  | .file content =>
    match String.fromUTF8? content with
    | none => .error .fileRead
    | some text =>
      match (Toml.parse? text).bind ofValue? with
      | none => .error .parse
      | some c => .ok c

def load (source : Source) (lookup : String → Option String) : Except ConfigError Config :=
  match read source with
  | .error e => .error e
  | .ok c =>
    let c := c.withEnvironment lookup
    match c.validate with
    | .error e => .error e
    | .ok _ => .ok c

end Config

end Federation
