import Federation.Net.Address
import Federation.Node.Basic

/-!
The configuration of a server, with the values that hold where nothing is said.
-/

namespace Federation

structure ListenerConfig where
  host : Net.Address := .v4 ⟨127, 0, 0, 1⟩
  port : Nat := 5280

structure LoggingConfig where
  level : String := "info"
  json : Bool := false

structure TrustConfig where
  authTimeoutSecs : Nat := 30
  dialbackWorkaround : Bool := true
  skipTlsHosts : List String := []

/-- A served domain. Without a secret, or with an empty one, it gets a generated one. -/
structure DomainConfig where
  name : String
  secret : Option String := none
  tlsRequired : Bool := false

structure Config where
  server : ListenerConfig := {}
  logging : LoggingConfig := {}
  trust : TrustConfig := {}
  domains : List DomainConfig := []

/-- The settings of a node, in which every host stands once. -/
def TrustConfig.settings (c : TrustConfig) : Settings :=
  { authTimeout := .ofSeconds c.authTimeoutSecs
    workaround := c.dialbackWorkaround
    skipTlsHosts := c.skipTlsHosts.eraseDups }

inductive ConfigFault where
  | zeroTimeout
  | badDomain (error : DomainError)
  | duplicateDomain (name : String)
  | badSkipHost (error : DomainError)
  deriving DecidableEq

def ConfigFault.message : ConfigFault → String
  | .zeroTimeout => "s2s.auth_timeout_secs must be greater than zero"
  | .badDomain error => "domains: " ++ error.message
  | .duplicateDomain name => "domains: duplicate domain " ++ name
  | .badSkipHost error => "s2s.skip_tls_hosts: " ++ error.message

inductive ConfigError where
  | fileRead
  | parse
  | invalid (fault : ConfigFault)
  deriving DecidableEq

def ConfigError.message : ConfigError → String
  | .fileRead => "failed to read config file"
  | .parse => "failed to parse config file"
  | .invalid fault => "invalid configuration: " ++ fault.message

namespace Config

/-- The first fault among the domains, after those whose canonical names are `seen`. -/
def domainFault? (seen : List String) : List DomainConfig → Option ConfigFault
  | [] => none
  | d :: rest =>
    match Domain.normalize d.name with
    | .error e => some (.badDomain e)
    | .ok name =>
      if seen.contains name then some (.duplicateDomain name)
      else domainFault? (name :: seen) rest

def hostFault? : List String → Option ConfigFault
  | [] => none
  | host :: rest =>
    match Domain.normalize host with
    | .error e => some (.badSkipHost e)
    | .ok _ => hostFault? rest

def fault? (c : Config) : Option ConfigFault :=
  if c.trust.authTimeoutSecs = 0 then some .zeroTimeout
  else (domainFault? [] c.domains).orElse fun _ => hostFault? c.trust.skipTlsHosts

def validate (c : Config) : Except ConfigError Unit :=
  match c.fault? with
  | some fault => .error (.invalid fault)
  | none => .ok ()

end Config

end Federation
