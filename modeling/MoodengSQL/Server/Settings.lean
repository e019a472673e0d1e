import MoodengSQL.Core.Engine
import MoodengSQL.Foundation.Effect
import MoodengSQL.Server.Scram

/-!
# The settings a server starts with

Passwords and TLS as the configuration file and the environment give them, and
the checks `run_serve` makes before it listens. Argon2, certificates and the TLS
handshake come from libraries and are parameters.
-/

namespace MoodengSQL

open Foundation Effect

/-- A TLS acceptor: the bytes of the client inside TLS, given the bytes it sends,
if the handshake succeeds. -/
abbrev TlsAcceptor := List UInt8 → Option (List UInt8)

/-- What the server has from its libraries, its environment and chance: the SQL
parser, the cryptographic functions, Argon2 with the salt it draws, the `MOODENG_PASSWORD`
variable, the salt of its SCRAM secret, and the certificates it can load. -/
structure Surroundings where
  parseSql : String → Except Failure (List Statement)
  crypto : Crypto
  hashPassword : String → String
  verifyPassword : String → String → Bool
  moodengPassword : Option String
  scramSalt : List UInt8
  loadTls : String → String → Except String TlsAcceptor

/-- The parts of `Config` that are about passwords and TLS. -/
structure Config where
  tlsCert : Option String
  tlsKey : Option String
  requireTls : Bool
  passwordHash : Option String
  passwordScram : Option String

/-- `TlsSettings`. -/
structure TlsSettings where
  certPath : Option String
  keyPath : Option String
  requireTls : Bool

namespace TlsSettings

/-- `from_server_config`. -/
def fromServerConfig (cfg : Config) : TlsSettings :=
  { certPath := cfg.tlsCert, keyPath := cfg.tlsKey, requireTls := cfg.requireTls }

/-- `tls_available`. -/
def tlsAvailable (tls : TlsSettings) : Bool := tls.certPath.isSome && tls.keyPath.isSome

/-- `load_server_config`. -/
def loadServerConfig (around : Surroundings) (tls : TlsSettings) :
    Except ServerFailure (Option TlsAcceptor) :=
  match tls.certPath, tls.keyPath with
  | some certPath, some keyPath =>
      ((around.loadTls certPath keyPath).mapError .error).map some
  | _, _ =>
      if tls.requireTls then
        .error (.error "require_tls is enabled but tls_cert / tls_key are not configured")
      else .ok none

end TlsSettings

/-- `AuthConfig`. -/
structure AuthConfig where
  passwordHash : Option String
  scramCredentials : Option ScramCredentials
  requireTlsForPassword : Bool

namespace AuthConfig

/-- `from_config_and_env`. -/
def fromConfigAndEnv (around : Surroundings) (hashFromFile scramFromFile : Option String) :
    AuthConfig :=
  let passwordHash := hashFromFile.filter (· ≠ "")
  let scramCredentials := (scramFromFile.filter (· ≠ "")).bind fun secret =>
    (ScramCredentials.parse around.crypto secret).toOption
  if passwordHash.isSome || scramCredentials.isSome then
    { passwordHash, scramCredentials, requireTlsForPassword := false }
  else match around.moodengPassword.filter (· ≠ "") with
    | some password => {
        passwordHash := some (around.hashPassword password)
        scramCredentials := some
          (.fromPasswordWithSalt around.crypto password around.scramSalt DEFAULT_ITERATIONS)
        requireTlsForPassword := false }
    | none => { passwordHash := none, scramCredentials := none, requireTlsForPassword := false }

/-- `required`. -/
def required (auth : AuthConfig) : Bool :=
  auth.passwordHash.isSome || auth.scramCredentials.isSome

/-- `scram_available`. -/
def scramAvailable (auth : AuthConfig) : Bool := auth.scramCredentials.isSome

end AuthConfig

/-- `auth_config`. -/
def authConfig (around : Surroundings) (cfg : Config) (tls : TlsSettings) : AuthConfig :=
  let auth := AuthConfig.fromConfigAndEnv around cfg.passwordHash cfg.passwordScram
  if auth.passwordHash.isSome && tls.tlsAvailable && !auth.scramAvailable then
    { auth with requireTlsForPassword := true }
  else auth

/-- What a server that listens hands to its connections. -/
structure Server where
  tls : TlsSettings
  tlsAcceptor : Option TlsAcceptor
  auth : AuthConfig

/-- The checks of `run_serve`. -/
def runServe (around : Surroundings) (cfg : Config) : Except ServerFailure Server := do
  let tls := TlsSettings.fromServerConfig cfg
  let tlsAcceptor ← tls.loadServerConfig around
  let auth := authConfig around cfg tls
  if tls.requireTls && !tls.tlsAvailable then
    .error (.error "require_tls is enabled but tls_cert / tls_key are not configured")
  .ok { tls, tlsAcceptor, auth }

section Accepted

variable {around : Surroundings} {cfg : Config} {server : Server}

/-- What `run_serve` has made sure of. -/
theorem runServe_eq_ok : runServe around cfg = .ok server ↔
    server.tls = .fromServerConfig cfg ∧
      server.tls.loadServerConfig around = .ok server.tlsAcceptor ∧
      server.auth = authConfig around cfg server.tls ∧
      (server.tls.requireTls = true → server.tls.tlsAvailable = true) := by
  obtain ⟨tls, tlsAcceptor, auth⟩ := server
  dsimp only [runServe]
  rw [except_bind_eq_ok]
  constructor
  · rintro ⟨acceptor, loaded, checked⟩
    cases missing : (TlsSettings.fromServerConfig cfg).requireTls &&
        !(TlsSettings.fromServerConfig cfg).tlsAvailable with
    | true =>
        rw [missing] at checked
        cases checked
    | false =>
        rw [missing] at checked
        cases checked
        refine ⟨rfl, loaded, rfl, fun requires => ?_⟩
        simpa [requires] using missing
  · rintro ⟨rfl, loaded, rfl, available⟩
    refine ⟨tlsAcceptor, loaded, ?_⟩
    cases requires : (TlsSettings.fromServerConfig cfg).requireTls with
    | false => rfl
    | true => simp only [available requires, Bool.not_true, Bool.and_false]; rfl

/-- With certificates configured there is an acceptor. -/
theorem TlsSettings.isSome_of_available {tls : TlsSettings} {acceptor : Option TlsAcceptor}
    (loaded : tls.loadServerConfig around = .ok acceptor) (available : tls.tlsAvailable = true) :
    acceptor.isSome = true := by
  obtain ⟨certPath, keyPath, requireTls⟩ := tls
  cases certPath with
  | none => cases available
  | some certPath =>
      cases keyPath with
      | none => cases available
      | some keyPath =>
          dsimp only [loadServerConfig] at loaded
          cases certificates : around.loadTls certPath keyPath with
          | error message =>
              rw [certificates] at loaded
              cases loaded
          | ok accept =>
              rw [certificates] at loaded
              cases loaded
              rfl

/-- A server that requires TLS has an acceptor. -/
theorem tlsAcceptor_of_requireTls (accepts : runServe around cfg = .ok server)
    (requires : server.tls.requireTls = true) : server.tlsAcceptor.isSome = true := by
  obtain ⟨-, loaded, -, available⟩ := runServe_eq_ok.mp accepts
  exact TlsSettings.isSome_of_available loaded (available requires)

/-- A server with TLS and a password hash, and without SCRAM, asks for the
password inside TLS only. -/
theorem requireTlsForPassword_of_hash (accepts : runServe around cfg = .ok server)
    (hash : server.auth.passwordHash.isSome = true) (available : server.tls.tlsAvailable = true)
    (noScram : server.auth.scramAvailable = false) :
    server.auth.requireTlsForPassword = true := by
  obtain ⟨-, -, sameAuth, -⟩ := runServe_eq_ok.mp accepts
  rw [sameAuth] at hash noScram ⊢
  dsimp only [authConfig] at hash noScram ⊢
  split at hash
  next applies => rw [if_pos applies]
  next refused =>
    rw [if_neg refused] at noScram
    simp [hash, available, noScram] at refused

end Accepted

end MoodengSQL
