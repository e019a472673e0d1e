import MoodengSQL.Server.Gates

/-!
# The start of the server

Where the configuration comes from, and whether a server that starts asks for a
password. A file that cannot be loaded becomes the default configuration, a secret that
cannot be parsed becomes none, and without a secret anyone may connect.
-/

namespace MoodengSQL

open Foundation Effect

/-- The default configuration, in what is kept of it. -/
def Config.default : Config :=
  { tlsCert := none, tlsKey := none, requireTls := false, passwordHash := none,
    passwordScram := none }

/-- The files a configuration may be in, and the parser of TOML. -/
structure ConfigFiles where
  pathExists : String → Bool
  readToString : String → Except String String
  parseToml : String → Except String Config

namespace ConfigFiles

variable (files : ConfigFiles)

/-- `Config::load`. -/
def load (path : String) : Except ServerFailure Config := do
  let content ← (files.readToString path).mapError .error
  (files.parseToml content).mapError .error

/-- The file that `find_and_load` finds. -/
def found : Option String :=
  ["moodeng.toml", "./moodeng.toml", "/etc/moodengsql/moodeng.toml"].find? files.pathExists

/-- `Config::find_and_load`. -/
def findAndLoad : Option Config := files.found.bind fun path => (files.load path).toOption

/-- `load_config`, with the path on the command line. -/
def loadConfig (config : Option String) : Except ServerFailure Config :=
  match config with
  | some path => files.load path
  | none => .ok (files.findAndLoad.getD .default)

end ConfigFiles

/-- `main` for a server, up to where it serves connections. Behind the checks of the
settings, the database is opened and the address is bound. -/
def startServer (around : Surroundings) (files : ConfigFiles)
    (opens : Config → Except ServerFailure Unit) (config : Option String) :
    Except ServerFailure Server := do
  let cfg ← files.loadConfig config
  let server ← runServe around cfg
  opens cfg
  return server

section Secrets

variable {around : Surroundings} {files : ConfigFiles} {opens : Config → Except ServerFailure Unit}
  {cfg : Config}

/-- The configuration has a secret, of whatever form. -/
def Config.HasSecret (cfg : Config) : Prop :=
  (∃ hash, cfg.passwordHash = some hash ∧ hash ≠ "") ∨
    ∃ secret, cfg.passwordScram = some secret ∧ secret ≠ ""

/-- The configuration has a secret that the server keeps: any hash, or a SCRAM secret
that is parsed. -/
def Config.KeepsSecret (around : Surroundings) (cfg : Config) : Prop :=
  (∃ hash, cfg.passwordHash = some hash ∧ hash ≠ "") ∨
    ∃ secret creds, cfg.passwordScram = some secret ∧ secret ≠ "" ∧
      ScramCredentials.parse around.crypto secret = .ok creds

/-- The password in the environment. -/
def Surroundings.HasPassword (around : Surroundings) : Prop :=
  ∃ password, around.moodengPassword = some password ∧ password ≠ ""

/-- The server refuses to start, whatever the secrets: its TLS settings cannot be loaded,
or its database or its address cannot be opened. -/
def Config.Refused (around : Surroundings) (opens : Config → Except ServerFailure Unit)
    (cfg : Config) : Prop :=
  (∀ acceptor, (TlsSettings.fromServerConfig cfg).loadServerConfig around ≠ .ok acceptor) ∨
    opens cfg ≠ .ok ()

theorem filter_isSome {text : Option String} :
    (text.filter (· ≠ "")).isSome = true ↔ ∃ value, text = some value ∧ value ≠ "" := by
  cases text with
  | none => exact iff_of_false Bool.false_ne_true nofun
  | some value =>
      by_cases empty : value = ""
      · subst empty
        exact iff_of_false (by decide) fun ⟨_, same, present⟩ => present (Option.some.inj same).symm
      · rw [Option.filter_some, if_pos (by simpa using empty)]
        exact iff_of_true rfl ⟨value, rfl, empty⟩

/-- The SCRAM secret of a configuration, if it is parsed. -/
theorem parsedSecret_isSome {scram : Option String} :
    ((scram.filter (· ≠ "")).bind fun secret =>
        (ScramCredentials.parse around.crypto secret).toOption).isSome = true ↔
      ∃ secret creds, scram = some secret ∧ secret ≠ "" ∧
        ScramCredentials.parse around.crypto secret = .ok creds := by
  cases kept : scram.filter (· ≠ "") with
  | none =>
      apply iff_of_false Bool.false_ne_true
      rintro ⟨secret, _, present, nonempty, -⟩
      have some := filter_isSome.mpr ⟨secret, present, nonempty⟩
      rw [kept] at some
      cases some
  | some secret =>
      obtain ⟨present, nonempty⟩ := Option.filter_eq_some_iff.mp kept
      rw [Option.bind_some]
      cases parsed : ScramCredentials.parse around.crypto secret with
      | error e =>
          apply iff_of_false Bool.false_ne_true
          rintro ⟨other, creds, same, -, read⟩
          obtain rfl := Option.some.inj (present.symm.trans same)
          cases parsed.symm.trans read
      | ok creds =>
          exact iff_of_true rfl ⟨secret, creds, present, of_decide_eq_true nonempty, parsed⟩

/-- **When a password is asked for**: a secret is kept, or there is one in the
environment. -/
theorem required_authConfig (tls : TlsSettings) :
    (authConfig around cfg tls).required = true ↔
      cfg.KeepsSecret around ∨ around.HasPassword := by
  have same : (authConfig around cfg tls).required =
      (AuthConfig.fromConfigAndEnv around cfg.passwordHash cfg.passwordScram).required := by
    unfold authConfig
    dsimp only
    split
    · rfl
    · rfl
  rw [same]
  unfold AuthConfig.fromConfigAndEnv
  dsimp only
  split
  · rename_i kept
    have keeps : cfg.KeepsSecret around := by
      rcases Bool.or_eq_true_iff.mp kept with hash | secret
      · exact .inl (filter_isSome.mp hash)
      · exact .inr (parsedSecret_isSome.mp secret)
    exact iff_of_true kept (.inl keeps)
  · rename_i lost
    have loses : ¬ cfg.KeepsSecret around := by
      rintro (hash | secret)
      · exact lost (Bool.or_eq_true_iff.mpr (.inl (filter_isSome.mpr hash)))
      · exact lost (Bool.or_eq_true_iff.mpr (.inr (parsedSecret_isSome.mpr secret)))
    cases password : around.moodengPassword.filter (· ≠ "") with
    | none =>
        have absent : ¬ around.HasPassword := fun present => by
          have some := filter_isSome.mpr present
          rw [password] at some
          cases some
        exact iff_of_false Bool.false_ne_true (not_or.mpr ⟨loses, absent⟩)
    | some value =>
        have present : around.HasPassword := filter_isSome.mp (by rw [password]; rfl)
        exact iff_of_true rfl (.inr present)

end Secrets

section Closed

variable {around : Surroundings} {files : ConfigFiles} {opens : Config → Except ServerFailure Unit}
  {cfg : Config}

/-- Where TLS is required and its settings were loaded, they name certificates. -/
theorem TlsSettings.available_of_loaded {tls : TlsSettings} {acceptor : Option TlsAcceptor}
    (loaded : tls.loadServerConfig around = .ok acceptor) (requires : tls.requireTls = true) :
    tls.tlsAvailable = true := by
  obtain ⟨certPath, keyPath, requireTls⟩ := tls
  dsimp only at requires
  subst requires
  cases certPath with
  | none => cases loaded
  | some certPath =>
      cases keyPath with
      | none => cases loaded
      | some keyPath => rfl

/-- A server starts with the configuration that it finds, unless it is refused. -/
theorem startServer_eq_ok {server : Server} : startServer around files opens none = .ok server ↔
    runServe around (files.findAndLoad.getD .default) = .ok server ∧
      opens (files.findAndLoad.getD .default) = .ok () := by
  unfold startServer ConfigFiles.loadConfig
  simp only [except_bind_eq_ok]
  constructor
  · rintro ⟨cfg, found, started, ran, _, opened, same⟩
    cases found
    cases same
    exact ⟨ran, opened⟩
  · rintro ⟨ran, opened⟩
    exact ⟨_, rfl, server, ran, (), opened, rfl⟩

/-- **A configuration fails closed** if one of its secrets is kept, the environment has
one, or the server does not start. -/
theorem closed_iff (found : files.findAndLoad.getD .default = cfg) :
    (∀ server, startServer around files opens none = .ok server → server.auth.required = true) ↔
      cfg.KeepsSecret around ∨ around.HasPassword ∨ cfg.Refused around opens := by
  simp only [startServer_eq_ok, found]
  constructor
  · intro closed
    by_contra open'
    obtain ⟨loses, absent, starts⟩ := (not_or.mp open').imp_right not_or.mp
    obtain ⟨loads, opened⟩ := (not_or.mp starts).imp_right not_not.mp
    push Not at loads
    obtain ⟨acceptor, loaded⟩ := loads
    have ran : runServe around cfg = .ok
        { tls := .fromServerConfig cfg, tlsAcceptor := acceptor,
          auth := authConfig around cfg (.fromServerConfig cfg) } :=
      runServe_eq_ok.mpr ⟨rfl, loaded, rfl, TlsSettings.available_of_loaded loaded⟩
    rcases (required_authConfig _).mp (closed _ ⟨ran, opened⟩) with keeps | present
    · exact loses keeps
    · exact absent present
  · rintro (keeps | present | unloaded | unopened) server ⟨ran, opened⟩
    · rw [(runServe_eq_ok.mp ran).2.2.1]
      exact (required_authConfig _).mpr (.inl keeps)
    · rw [(runServe_eq_ok.mp ran).2.2.1]
      exact (required_authConfig _).mpr (.inr present)
    · obtain ⟨same, loaded, -⟩ := runServe_eq_ok.mp ran
      rw [same] at loaded
      exact absurd loaded (unloaded _)
    · exact absurd opened unopened

/-- The file cannot be loaded, or it has a secret of whatever form. -/
def ConfigFiles.Guarded (files : ConfigFiles) (path : String) : Prop :=
  ∀ cfg, files.load path = .ok cfg → cfg.HasSecret

/-- A guarded file that is found does not let a server run without authentication. -/
def FailsClosed (around : Surroundings) (files : ConfigFiles)
    (opens : Config → Except ServerFailure Unit) : Prop :=
  ∀ path, files.found = some path → files.Guarded path →
    ∀ server, startServer around files opens none = .ok server → server.auth.required = true

/-- **When the settings fail closed.** A guarded file needs a password in the environment,
or it can be loaded and one of its secrets is kept, or the server is refused for its TLS
settings, its database or its address. -/
theorem failsClosed_iff (around : Surroundings) (files : ConfigFiles)
    (opens : Config → Except ServerFailure Unit) :
    FailsClosed around files opens ↔
      ∀ path, files.found = some path → files.Guarded path →
        around.HasPassword ∨
          (∃ cfg, files.load path = .ok cfg ∧
            (cfg.KeepsSecret around ∨ cfg.Refused around opens)) ∨
          (∃ e, files.load path = .error e) ∧ Config.default.Refused around opens := by
  unfold FailsClosed
  refine forall_congr' fun path => forall_congr' fun found => forall_congr' fun _ => ?_
  have loaded : files.findAndLoad = (files.load path).toOption := by
    rw [ConfigFiles.findAndLoad, found, Option.bind_some]
  cases load : files.load path with
  | ok cfg =>
      rw [load] at loaded
      rw [closed_iff (by rw [loaded])]
      constructor
      · rintro (keeps | present | refused)
        · exact .inr (.inl ⟨cfg, rfl, .inl keeps⟩)
        · exact .inl present
        · exact .inr (.inl ⟨cfg, rfl, .inr refused⟩)
      · rintro (present | ⟨_, same, keeps | refused⟩ | ⟨⟨_, failed⟩, -⟩)
        · exact .inr (.inl present)
        · cases same
          exact .inl keeps
        · cases same
          exact .inr (.inr refused)
        · cases failed
  | error e =>
      rw [load] at loaded
      rw [closed_iff (by rw [loaded])]
      have keepsNone : ¬ Config.default.KeepsSecret around := by
        rintro (⟨_, absent, -⟩ | ⟨_, _, absent, -⟩)
        · cases absent
        · cases absent
      constructor
      · rintro (keeps | present | refused)
        · exact absurd keeps keepsNone
        · exact .inl present
        · exact .inr (.inr ⟨⟨e, rfl⟩, refused⟩)
      · rintro (present | ⟨_, failed, -⟩ | ⟨-, refused⟩)
        · exact .inr (.inl present)
        · cases failed
        · exact .inr (.inr refused)

/-- A `moodeng.toml` that is not TOML. -/
def brokenFile : ConfigFiles where
  pathExists path := path == "moodeng.toml"
  readToString _ := .ok "password_hash"
  parseToml _ := .error "expected `=`"

/-- A `moodeng.toml` with a SCRAM secret without its prefix. -/
def malformedSecret : ConfigFiles where
  pathExists path := path == "moodeng.toml"
  readToString _ := .ok "[auth]\npassword_scram = \"4096:c2FsdA==\""
  parseToml _ := .ok { Config.default with passwordScram := some "4096:c2FsdA==" }

/-- Both let the server run without authentication. -/
theorem broken_settings_fail_open :
    ¬ FailsClosed onePassword brokenFile (fun _ => .ok ()) ∧
      ¬ FailsClosed onePassword malformedSecret (fun _ => .ok ()) := by
  constructor
  · intro closed
    have guarded : brokenFile.Guarded "moodeng.toml" := nofun
    exact absurd (closed _ (by decide) guarded ⟨.fromServerConfig .default, none, _⟩ rfl)
      Bool.false_ne_true
  · intro closed
    have guarded : malformedSecret.Guarded "moodeng.toml" := by
      intro cfg loaded
      cases loaded
      exact .inr ⟨_, rfl, by decide⟩
    exact absurd (closed _ (by decide) guarded ⟨.fromServerConfig _, none, _⟩ rfl)
      Bool.false_ne_true

end Closed

end MoodengSQL
