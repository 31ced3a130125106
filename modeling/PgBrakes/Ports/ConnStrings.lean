import Mathlib.Data.List.Infix
import PgBrakes.Verified.KeyValueText
import PgBrakes.Ports.ExplainGate

/-!
# The connection strings of the daemons

A port of the target resolution in `crates/policy/src/config.rs`, of the DSN of
the apply daemon in `crates/applyd/src/main.rs` and of the warden's settings in
`crates/warden/src/run.rs`.  All of them write `keyword=value` pairs side by
side without quoting.  Host, database and role of a resolved target are checked
for the characters that would need it; the passwords are not, and neither are
the roles and the audit database the warden reads from its environment.

The warden marks its own sessions with an application name, unless the text it
has built mentions one.  A password that contains the keyword counts as a
mention.

## Main results

* `connStrings_iff` — when the strings of the daemons carry exactly the fields
  that went into them.
-/

namespace PgBrakes.Ports.ConnStrings

open PgBrakes.Verified.KeyValueText
open PgBrakes.Ports.ExplainGate (isWhitespace digitsValue toNat_of_isDigit
  isWhitespace_of_isDigit)

/-- The quoted forms of the standard library. -/
class Debug where
  debugChar : Char → String
  debugStr : String → String

/-! ## The target of a connection -/

/-- A target of the policy file. -/
structure DsnTarget where
  host : String
  port : UInt16
  database : String
  role : String
deriving DecidableEq

structure ResolvedTarget where
  host : String
  port : UInt16
  database : String
  role : String
deriving DecidableEq

def portText (port : UInt16) : String := String.ofList (Nat.toDigits 10 port.toNat)

/-- The string without a password. -/
def ResolvedTarget.toCredentialLessDsn (t : ResolvedTarget) : String :=
  "host=" ++ t.host ++ " port=" ++ portText t.port ++ " dbname=" ++ t.database ++
    " user=" ++ t.role

/-- `char::is_control`. -/
def isControl (c : Char) : Bool := c.toNat < 0x20 || (0x7F ≤ c.toNat && c.toNat ≤ 0x9F)

/-- The characters no field of a target may have. -/
def isIllegal (c : Char) : Bool :=
  isWhitespace c || isControl c || c = '=' || c = '\'' || c = '"' || c = '\\'

inductive PolicyError where
  | invalid (message : String)
deriving DecidableEq

def PolicyError.display : PolicyError → String
  | .invalid message => "invalid policy: " ++ message

inductive TargetResolutionError where
  | missing (field envKey policyHint : String)
  | injection (field detail : String)
deriving DecidableEq

def TargetResolutionError.display : TargetResolutionError → String
  | .missing field envKey policyHint =>
      "no connection target for `" ++ field ++ "`: set it via the env override `" ++ envKey ++
        "`, or declare the BYO target in policy.yaml (" ++ policyHint ++
        "). There is NO throwaway-cluster default (fail-closed, SPEC §0.5)."
  | .injection field detail =>
      "resolved connection target field `" ++ field ++
        "` is unsafe (would inject a libpq DSN keyword): " ++ detail

/-- `str::parse::<u16>`. -/
def parseU16 (cs : List Char) : Option UInt16 :=
  let digits := if cs.head? = some '+' then cs.tail else cs
  if digits = [] ∨ digits.any (fun c => !c.isDigit) then none
  else if digitsValue digits < UInt16.size then some (UInt16.ofNat (digitsValue digits)) else none

/-- Where the fields of a target come from: the environment, then the policy
file, and for database and role a default. -/
structure TargetResolver where
  policyTarget : Option DsnTarget
  hostOverride : Option String
  portOverride : Option String
  dbOverride : Option String
  roleOverride : Option String
  defaultDatabase : String
  defaultRole : String
  hostEnvKey : String
  portEnvKey : String
  policyHint : String

section

variable [Debug]

def rejectDsnInjection (where_ field value : String) : Except PolicyError Unit :=
  if value = "" then
    .error (.invalid (where_ ++ ": `" ++ field ++
      "` must not be empty (fail-closed, SPEC §0.5)"))
  else
    match value.toList.find? isIllegal with
    | some bad =>
        .error (.invalid (where_ ++ ": `" ++ field ++ "` contains the illegal character " ++
          Debug.debugChar bad ++ " — a host/database/role/secret_ref must not carry whitespace, " ++
          "`=`, a quote, a backslash, or a control char (they would inject extra libpq DSN " ++
          "keywords, e.g. a TLS-disabling `sslmode=disable`; fail-closed, SPEC §0.5/§2). " ++
          "Value: " ++ Debug.debugStr value))
    | none => .ok ()

def rejectResolvedInjection (field value : String) : Except TargetResolutionError Unit :=
  match rejectDsnInjection "resolved target" field value with
  | .ok () => .ok ()
  | .error e => .error (.injection field e.display)

namespace TargetResolver

def resolveHost (r : TargetResolver) : Except TargetResolutionError String :=
  match r.hostOverride <|> r.policyTarget.map DsnTarget.host with
  | some host => .ok host
  | none => .error (.missing "host" r.hostEnvKey r.policyHint)

def resolvePort (r : TargetResolver) : Except TargetResolutionError UInt16 :=
  match r.portOverride with
  | some p =>
      match parseU16 p.toList with
      | some port => .ok port
      | none => .error (.missing "port" r.portEnvKey r.policyHint)
  | none =>
      match r.policyTarget with
      | some t => .ok t.port
      | none => .error (.missing "port" r.portEnvKey r.policyHint)

/-- The fields of the target, each checked where it is text. -/
def resolve (r : TargetResolver) : Except TargetResolutionError ResolvedTarget := do
  let host ← r.resolveHost
  let port ← r.resolvePort
  let database := (r.dbOverride <|> r.policyTarget.map DsnTarget.database).getD r.defaultDatabase
  let role := (r.roleOverride <|> r.policyTarget.map DsnTarget.role).getD r.defaultRole
  rejectResolvedInjection "host" host
  rejectResolvedInjection "database" database
  rejectResolvedInjection "role" role
  pure ⟨host, port, database, role⟩

end TargetResolver

/-! ## The apply daemon -/

/-- `resolve_backend_target`. -/
def resolveBackendTarget (primary : Option DsnTarget) (getenv : String → Option String) :
    Except TargetResolutionError ResolvedTarget :=
  TargetResolver.resolve
    { policyTarget := primary
      hostOverride := getenv "PGB_BACKEND_HOST"
      portOverride := getenv "PGB_BACKEND_PORT"
      dbOverride := getenv "PGB_BACKEND_DB"
      roleOverride := getenv "PGB_BACKEND_ROLE"
      defaultDatabase := "postgres"
      defaultRole := "pgb_applier"
      hostEnvKey := "PGB_BACKEND_HOST"
      portEnvKey := "PGB_BACKEND_PORT"
      policyHint := "policy.yaml `primary:` (the BYO primary target, SPEC §0.5)" }

/-- `env_secret`: set, and not empty. -/
def envSecret (getenv : String → Option String) (key : String) : Except String String :=
  match getenv key with
  | none => .error (key ++ " is required and has no default (fail-closed)")
  | some v => if v = "" then .error (key ++ " is set but empty; refusing to start") else .ok v

def backendDsn (t : ResolvedTarget) (password : String) : String :=
  t.toCredentialLessDsn ++ " password=" ++ password

/-- The target and the password the daemon starts with. -/
def backendFields (primary : Option DsnTarget) (getenv : String → Option String) :
    Except String (ResolvedTarget × String) := do
  let target ← (resolveBackendTarget primary getenv).mapError TargetResolutionError.display
  let password ← envSecret getenv "PGB_BACKEND_PASSWORD"
  pure (target, password)

/-! ## The warden -/

structure WardenSettings where
  host : String
  port : String
  backendDb : String
  auditDb : String
  adminRole : String
  adminPassword : String
  writerRole : String
  writerPassword : String
deriving DecidableEq

def kvDsn (host port db user password : String) : String :=
  "host=" ++ host ++ " port=" ++ port ++ " dbname=" ++ db ++ " user=" ++ user ++
    " password=" ++ password

def wardenAdminAppName : String := "pgb_warden_admin"

def withWardenAdminAppName (dsn : String) : String :=
  if "application_name=".toList <:+: dsn.toList then dsn
  else dsn ++ " application_name=" ++ wardenAdminAppName

/-- A secret of the warden: set, though possibly empty. -/
def required (getenv : String → Option String) (key : String) : Except String String :=
  match getenv key with
  | some v => .ok v
  | none =>
      .error (key ++ " is required and has no default; source it from the secret store / env " ++
        "(the warden ships no credential literals)")

namespace WardenSettings

def resolve (policyPrimary : Option DsnTarget) (getenv : String → Option String) :
    Except String WardenSettings := do
  let target ← (TargetResolver.resolve
    { policyTarget := policyPrimary
      hostOverride := getenv "PGB_BACKEND_HOST"
      portOverride := getenv "PGB_BACKEND_PORT"
      dbOverride := getenv "PGB_BACKEND_DB"
      roleOverride := none
      defaultDatabase := "postgres"
      defaultRole := "postgres"
      hostEnvKey := "PGB_BACKEND_HOST"
      portEnvKey := "PGB_BACKEND_PORT"
      policyHint := "policy.yaml `primary:` (the BYO primary target the warden watches, " ++
        "SPEC §0.5)" }).mapError TargetResolutionError.display
  let adminPassword ← required getenv "PGB_WARDEN_ADMIN_PASSWORD"
  let writerPassword ← required getenv "PGB_AUDIT_WRITER_PASSWORD"
  pure
    { host := target.host
      port := portText target.port
      backendDb := target.database
      auditDb := (getenv "PGB_AUDIT_DB").getD "postgres"
      adminRole := (getenv "PGB_WARDEN_ADMIN_ROLE").getD "postgres"
      adminPassword := adminPassword
      writerRole := (getenv "PGB_AUDIT_WRITER_ROLE").getD "pgb_audit_writer"
      writerPassword := writerPassword }

def observeDsn (s : WardenSettings) : String :=
  kvDsn s.host s.port s.backendDb s.adminRole s.adminPassword

def writerDsn (s : WardenSettings) : String :=
  kvDsn s.host s.port s.auditDb s.writerRole s.writerPassword

end WardenSettings

end

/-! ## What the strings should carry -/

/-- The characters of the pairs. -/
def chars (ps : List (String × String)) : List Pair := ps.map fun p => (p.1.toList, p.2.toList)

/-- Read as a connection string, the text is exactly these pairs. -/
def Carries (text : String) (ps : List (String × String)) : Prop :=
  pairs text.toList = some (chars ps)

instance (text : String) (ps : List (String × String)) : Decidable (Carries text ps) :=
  inferInstanceAs (Decidable (_ = _))

def ResolvedTarget.fields (t : ResolvedTarget) : List (String × String) :=
  [("host", t.host), ("port", portText t.port), ("dbname", t.database), ("user", t.role)]

def WardenSettings.observeFields (s : WardenSettings) : List (String × String) :=
  [("host", s.host), ("port", s.port), ("dbname", s.backendDb), ("user", s.adminRole),
    ("password", s.adminPassword)]

def WardenSettings.writerFields (s : WardenSettings) : List (String × String) :=
  [("host", s.host), ("port", s.port), ("dbname", s.auditDb), ("user", s.writerRole),
    ("password", s.writerPassword)]

/-- A value that needs no quoting: no blank, no backslash, no quote at its
beginning. -/
def Plain (value : String) : Prop := IsPlain value.toList

instance (value : String) : Decidable (Plain value) := inferInstanceAs (Decidable (IsPlain _))

/-- The value mentions the keyword of the application name. -/
def Mentions (value : String) : Prop := "application_name=".toList <:+: value.toList

instance (value : String) : Decidable (Mentions value) :=
  inferInstanceAs (Decidable (_ <:+: _))

/-! ## Checked values -/

/-- A value that passed the check. -/
structure Legal (value : String) : Prop where
  nonempty : value.toList ≠ []
  chars : ∀ c ∈ value.toList, isIllegal c = false

theorem isWhitespace_of_isSpace {c : Char} (h : isSpace c = true) : isWhitespace c = true := by
  simp only [isSpace, Bool.or_eq_true, decide_eq_true_eq] at h
  rcases h with ((((rfl | rfl) | rfl) | rfl) | rfl) | rfl <;> decide

/-- What an unchecked character cannot do: separate, escape, quote or assign. -/
theorem of_isIllegal_eq_false {c : Char} (h : isIllegal c = false) :
    isSpace c = false ∧ c ≠ '\\' ∧ c ≠ '\'' ∧ c ≠ '=' := by
  simp only [isIllegal, Bool.or_eq_false_iff, decide_eq_false_iff_not] at h
  obtain ⟨⟨⟨⟨⟨hspace, -⟩, hequals⟩, hquote⟩, -⟩, hslash⟩ := h
  refine ⟨?_, hslash, hquote, hequals⟩
  by_contra hblank
  rw [Bool.not_eq_false] at hblank
  rw [isWhitespace_of_isSpace hblank] at hspace
  cases hspace

theorem Legal.plain {value : String} (h : Legal value) : Plain value := by
  constructor
  · intro c hc
    obtain ⟨hspace, hslash, -⟩ := of_isIllegal_eq_false (h.chars c hc)
    exact ⟨hspace, hslash⟩
  · intro hhead
    exact (of_isIllegal_eq_false (h.chars _ (List.mem_of_mem_head? hhead))).2.2.1 rfl

/-- A checked value has no equals sign, so it mentions no keyword. -/
theorem Legal.not_mentions {value : String} (h : Legal value) : ¬ Mentions value := by
  intro hmentions
  have hmem : '=' ∈ value.toList := hmentions.subset (by decide)
  exact (of_isIllegal_eq_false (h.chars _ hmem)).2.2.2 rfl

theorem legal_portText (port : UInt16) : Legal (portText port) := by
  rw [portText]
  constructor
  · rw [String.toList_ofList]
    exact Nat.toDigits_ne_nil
  · intro c hc
    rw [String.toList_ofList] at hc
    have hdigit := Nat.isDigit_of_mem_toDigits (by decide) (by decide) hc
    have hbounds := toNat_of_isDigit hdigit
    have hcontrol : isControl c = false := by
      simp only [isControl, Bool.or_eq_false_iff, Bool.and_eq_false_iff, decide_eq_false_iff_not]
      omega
    have hother : ∀ d : Char, d.isDigit = false → decide (c = d) = false := by
      intro d hd
      refine decide_eq_false fun heq => ?_
      rw [heq, hd] at hdigit
      cases hdigit
    simp only [isIllegal, isWhitespace_of_isDigit hdigit, hcontrol, hother '=' rfl,
      hother '\'' rfl, hother '"' rfl, hother '\\' rfl, Bool.or_self]

section

variable [Debug]

theorem legal_of_rejectDsnInjection {where_ field value : String}
    (h : rejectDsnInjection where_ field value = .ok ()) : Legal value := by
  unfold rejectDsnInjection at h
  split at h
  · cases h
  · next hne =>
      split at h
      · cases h
      · next hnone =>
          refine ⟨?_, ?_⟩
          · rw [Ne, String.toList_eq_nil_iff]
            exact hne
          · intro c hc
            simpa using List.find?_eq_none.mp hnone c hc

theorem legal_of_rejectResolvedInjection {field value : String} {u : Unit}
    (h : rejectResolvedInjection field value = .ok u) : Legal value := by
  unfold rejectResolvedInjection at h
  split at h
  · next hok => exact legal_of_rejectDsnInjection hok
  · cases h

omit [Debug] in
theorem bind_ok {ε α β : Type} {x : Except ε α} {f : α → Except ε β} {b : β}
    (h : (x >>= f) = .ok b) : ∃ a, x = .ok a ∧ f a = .ok b := by
  cases x with
  | error e => cases h
  | ok a => exact ⟨a, rfl, h⟩

omit [Debug] in
theorem mapError_ok {ε ε' α : Type} {x : Except ε α} {f : ε → ε'} {a : α}
    (h : x.mapError f = .ok a) : x = .ok a := by
  cases x with
  | error e => cases h
  | ok b =>
      cases h
      rfl

/-- The text fields of a resolved target have passed the check, whichever source
they are from. -/
theorem resolve_legal {r : TargetResolver} {t : ResolvedTarget} (h : r.resolve = .ok t) :
    Legal t.host ∧ Legal t.database ∧ Legal t.role := by
  unfold TargetResolver.resolve at h
  obtain ⟨host, -, h⟩ := bind_ok h
  obtain ⟨port, -, h⟩ := bind_ok h
  obtain ⟨_, hhost, h⟩ := bind_ok h
  obtain ⟨_, hdatabase, h⟩ := bind_ok h
  obtain ⟨_, hrole, h⟩ := bind_ok h
  cases h
  exact ⟨legal_of_rejectResolvedInjection hhost, legal_of_rejectResolvedInjection hdatabase,
    legal_of_rejectResolvedInjection hrole⟩

end

/-! ## Reading the strings back -/

/-- The keywords the builders write. -/
def keywords : List String :=
  ["host", "port", "dbname", "user", "password", "application_name"]

theorem isKeyword_of_mem : ∀ k ∈ keywords, IsKeyword k.toList := by decide

theorem carries_iff {text : String} {ps : List (String × String)}
    (htext : text.toList = render (chars ps)) (hkeys : ∀ p ∈ ps, p.1 ∈ keywords) :
    Carries text ps ↔ Readable (chars ps) := by
  rw [Carries, htext]
  apply scan_render_iff
  intro p hp
  obtain ⟨q, hq, rfl⟩ := List.mem_map.mp hp
  exact isKeyword_of_mem q.1 (hkeys q hq)

theorem toCredentialLessDsn_toList (t : ResolvedTarget) :
    t.toCredentialLessDsn.toList = render (chars t.fields) := by
  simp [ResolvedTarget.toCredentialLessDsn, ResolvedTarget.fields, chars, render]

theorem backendDsn_toList (t : ResolvedTarget) (password : String) :
    (backendDsn t password).toList = render (chars (t.fields ++ [("password", password)])) := by
  simp [backendDsn, ResolvedTarget.toCredentialLessDsn, ResolvedTarget.fields, chars, render]

theorem kvDsn_toList (host port db user password : String) :
    (kvDsn host port db user password).toList = render (chars
      [("host", host), ("port", port), ("dbname", db), ("user", user),
        ("password", password)]) := by
  simp [kvDsn, chars, render]

theorem kvDsn_named_toList (host port db user password : String) :
    (kvDsn host port db user password ++ " application_name=" ++ wardenAdminAppName).toList =
      render (chars [("host", host), ("port", port), ("dbname", db), ("user", user),
        ("password", password), ("application_name", wardenAdminAppName)]) := by
  simp [kvDsn, chars, render]

theorem plain_wardenAdminAppName : Plain wardenAdminAppName := by decide

/-- A target that was resolved is carried by its string. -/
theorem carries_toCredentialLessDsn [Debug] {r : TargetResolver} {t : ResolvedTarget}
    (h : r.resolve = .ok t) : Carries t.toCredentialLessDsn t.fields := by
  obtain ⟨hhost, hdatabase, hrole⟩ := resolve_legal h
  have hport := legal_portText t.port
  rw [carries_iff (toCredentialLessDsn_toList t) (by simp [ResolvedTarget.fields, keywords])]
  exact ⟨hhost.nonempty, hhost.plain, hport.nonempty, hport.plain, hdatabase.nonempty,
    hdatabase.plain, hrole.plain⟩

/-- With a password behind it, the target is carried exactly when the password is
plain. -/
theorem carries_backendDsn_iff [Debug] {r : TargetResolver} {t : ResolvedTarget}
    (h : r.resolve = .ok t) (password : String) :
    Carries (backendDsn t password) (t.fields ++ [("password", password)]) ↔ Plain password := by
  obtain ⟨hhost, hdatabase, hrole⟩ := resolve_legal h
  have hport := legal_portText t.port
  rw [carries_iff (backendDsn_toList t password) (by simp [ResolvedTarget.fields, keywords])]
  constructor
  · rintro ⟨-, -, -, -, -, -, -, -, hplain⟩
    exact hplain
  · intro hplain
    exact ⟨hhost.nonempty, hhost.plain, hport.nonempty, hport.plain, hdatabase.nonempty,
      hdatabase.plain, hrole.nonempty, hrole.plain, hplain⟩

private theorem toList_ne_nil {s : String} : s.toList ≠ [] ↔ s ≠ "" :=
  not_congr String.toList_eq_nil_iff

/-- Five pairs, of which host and port have been checked. -/
theorem carries_kvDsn_iff {host port : String} (hhost : Legal host) (hport : Legal port)
    (db user password : String) :
    Carries (kvDsn host port db user password)
        [("host", host), ("port", port), ("dbname", db), ("user", user),
          ("password", password)] ↔
      (db ≠ "" ∧ Plain db) ∧ (user ≠ "" ∧ Plain user) ∧ Plain password := by
  rw [carries_iff (kvDsn_toList host port db user password) (by simp [keywords])]
  constructor
  · rintro ⟨-, -, -, -, hdb, hdbPlain, huser, huserPlain, hplain⟩
    exact ⟨⟨toList_ne_nil.mp hdb, hdbPlain⟩, ⟨toList_ne_nil.mp huser, huserPlain⟩, hplain⟩
  · rintro ⟨⟨hdb, hdbPlain⟩, ⟨huser, huserPlain⟩, hplain⟩
    exact ⟨hhost.nonempty, hhost.plain, hport.nonempty, hport.plain, toList_ne_nil.mpr hdb,
      hdbPlain, toList_ne_nil.mpr huser, huserPlain, hplain⟩

/-- The application name is left out exactly when role or password mention it. -/
theorem mentions_kvDsn_iff {host port db : String} (hhost : Legal host) (hport : Legal port)
    (hdb : Legal db) (user password : String) :
    Mentions (kvDsn host port db user password) ↔ Mentions user ∨ Mentions password := by
  have hname : "application_name=".toList = "application_name".toList ++ ['='] := by decide
  have hmentions : ∀ value : String, Mentions value ↔
      "application_name".toList ++ ['='] <:+: value.toList := by
    intro value
    rw [Mentions, hname]
  rw [hmentions, kvDsn_toList, infix_render_iff (by decide) (by decide) (by simp [chars])]
  simp only [chars, List.map_cons, List.map_nil, List.mem_cons, List.not_mem_nil, or_false,
    exists_eq_or_imp, exists_eq_left, ← hmentions]
  simp only [hhost.not_mentions, hport.not_mentions, hdb.not_mentions, false_or]

/-- The warden's own string, with the application name behind it. -/
theorem carries_withWardenAdminAppName_iff {host port db : String} (hhost : Legal host)
    (hport : Legal port) (hdb : Legal db) (user password : String) :
    Carries (withWardenAdminAppName (kvDsn host port db user password))
        [("host", host), ("port", port), ("dbname", db), ("user", user), ("password", password),
          ("application_name", wardenAdminAppName)] ↔
      (user ≠ "" ∧ Plain user ∧ ¬ Mentions user) ∧
        password ≠ "" ∧ Plain password ∧ ¬ Mentions password := by
  have hwhere := mentions_kvDsn_iff hhost hport hdb user password
  unfold withWardenAdminAppName
  split
  · next hmentioned =>
      -- The name is not appended, and what is there is too short to hold it.
      refine iff_of_false ?_ ?_
      · rw [Carries, kvDsn_toList]
        apply pairs_render_ne
        · simp [chars]
        · simp [chars, weight]
      · rintro ⟨⟨-, -, huser⟩, -, -, hpassword⟩
        rcases hwhere.mp hmentioned with h | h
        · exact huser h
        · exact hpassword h
  · next hunmentioned =>
      rw [carries_iff (kvDsn_named_toList host port db user password) (by simp [keywords])]
      have hnot : ¬ Mentions user ∧ ¬ Mentions password := not_or.mp fun h =>
        hunmentioned (hwhere.mpr h)
      constructor
      · rintro ⟨-, -, -, -, -, -, huser, huserPlain, hpassword, hplain, -⟩
        exact ⟨⟨toList_ne_nil.mp huser, huserPlain, hnot.1⟩, toList_ne_nil.mp hpassword, hplain,
          hnot.2⟩
      · rintro ⟨⟨huser, huserPlain, -⟩, hpassword, hplain, -⟩
        exact ⟨hhost.nonempty, hhost.plain, hport.nonempty, hport.plain, hdb.nonempty, hdb.plain,
          toList_ne_nil.mpr huser, huserPlain, toList_ne_nil.mpr hpassword, hplain,
          plain_wardenAdminAppName⟩

section

variable [Debug]

/-- The settings of a warden that starts have host, port and database from a
resolved target. -/
theorem legal_of_wardenSettings {primary : Option DsnTarget} {getenv : String → Option String}
    {s : WardenSettings} (h : WardenSettings.resolve primary getenv = .ok s) :
    Legal s.host ∧ Legal s.port ∧ Legal s.backendDb := by
  unfold WardenSettings.resolve at h
  obtain ⟨target, htarget, h⟩ := bind_ok h
  obtain ⟨_, -, h⟩ := bind_ok h
  obtain ⟨_, -, h⟩ := bind_ok h
  cases h
  obtain ⟨hhost, hdatabase, -⟩ := resolve_legal (mapError_ok htarget)
  exact ⟨hhost, legal_portText _, hdatabase⟩

/-- A target without a password is always carried; the other strings exactly when
the values nobody checked are plain, not empty where another pair follows, and do
not mention the application name where it is to be appended. -/
theorem connStrings_iff (r : TargetResolver) (primary : Option DsnTarget)
    (getenv : String → Option String) :
    (∀ t, r.resolve = .ok t → Carries t.toCredentialLessDsn t.fields) ∧
      (∀ t password, backendFields primary getenv = .ok (t, password) →
        (Carries (backendDsn t password) (t.fields ++ [("password", password)]) ↔
          Plain password)) ∧
      ∀ s, WardenSettings.resolve primary getenv = .ok s →
        (Carries (withWardenAdminAppName s.observeDsn)
            (s.observeFields ++ [("application_name", wardenAdminAppName)]) ↔
          (s.adminRole ≠ "" ∧ Plain s.adminRole ∧ ¬ Mentions s.adminRole) ∧
            s.adminPassword ≠ "" ∧ Plain s.adminPassword ∧ ¬ Mentions s.adminPassword) ∧
        (Carries s.writerDsn s.writerFields ↔
          (s.auditDb ≠ "" ∧ Plain s.auditDb) ∧ (s.writerRole ≠ "" ∧ Plain s.writerRole) ∧
            Plain s.writerPassword) := by
  refine ⟨fun t ht => carries_toCredentialLessDsn ht, ?_, ?_⟩
  · intro t password h
    obtain ⟨target, htarget, h⟩ := bind_ok h
    obtain ⟨_, -, h⟩ := bind_ok h
    cases h
    exact carries_backendDsn_iff (mapError_ok htarget) password
  · intro s h
    obtain ⟨hhost, hport, hdb⟩ := legal_of_wardenSettings h
    exact ⟨carries_withWardenAdminAppName_iff hhost hport hdb s.adminRole s.adminPassword,
      carries_kvDsn_iff hhost hport s.auditDb s.writerRole s.writerPassword⟩

end

/-! ## Two environments -/

/-- The quoted forms of texts without a character to escape. -/
@[reducible] def Debug.simple : Debug where
  debugChar c := "'" ++ c.toString ++ "'"
  debugStr s := "\"" ++ s ++ "\""

/-- An environment with this password for the apply daemon, and this database for
the warden's audit. -/
def environment (backendPassword auditDb : String) (key : String) : Option String :=
  [("PGB_BACKEND_HOST", "db"), ("PGB_BACKEND_PORT", "5499"),
    ("PGB_BACKEND_PASSWORD", backendPassword), ("PGB_WARDEN_ADMIN_PASSWORD", "adm=in"),
    ("PGB_AUDIT_WRITER_PASSWORD", "writer"), ("PGB_AUDIT_DB", auditDb)].lookup key

def applyTarget : ResolvedTarget := ⟨"db", 5499, "postgres", "pgb_applier"⟩

def settings (auditDb : String) : WardenSettings where
  host := "db"
  port := "5499"
  backendDb := "postgres"
  auditDb := auditDb
  adminRole := "postgres"
  adminPassword := "adm=in"
  writerRole := "pgb_audit_writer"
  writerPassword := "writer"

/-- Passwords without blanks, one of them with an equals sign. -/
theorem connStrings_iff_plain :
    letI := Debug.simple
    backendFields none (environment "s3cret" "meta") = .ok (applyTarget, "s3cret") ∧
      Carries (backendDsn applyTarget "s3cret") (applyTarget.fields ++ [("password", "s3cret")]) ∧
      WardenSettings.resolve none (environment "s3cret" "meta") = .ok (settings "meta") ∧
      Carries (withWardenAdminAppName (settings "meta").observeDsn)
        ((settings "meta").observeFields ++ [("application_name", wardenAdminAppName)]) ∧
      Carries (settings "meta").writerDsn (settings "meta").writerFields := by
  let _ := Debug.simple
  have hbackend : backendFields none (environment "s3cret" "meta") =
      .ok (applyTarget, "s3cret") := by decide
  have hwarden : WardenSettings.resolve none (environment "s3cret" "meta") =
      .ok (settings "meta") := by decide
  obtain ⟨-, hdsn, hsettings⟩ := connStrings_iff
    ⟨none, none, none, none, none, "", "", "", "", ""⟩ none (environment "s3cret" "meta")
  obtain ⟨hobserve, hwriter⟩ := hsettings _ hwarden
  have hplain : ∀ v ∈ ["s3cret", "meta", "postgres", "adm=in", "pgb_audit_writer", "writer"],
      Plain v := by decide
  refine ⟨hbackend, (hdsn _ _ hbackend).mpr (hplain _ (by decide)), hwarden, hobserve.mpr ?_,
    hwriter.mpr ?_⟩
  · exact ⟨⟨by decide, hplain _ (by decide), by decide⟩, by decide,
      hplain _ (by decide), by decide⟩
  · exact ⟨⟨by decide, hplain _ (by decide)⟩, ⟨by decide, hplain _ (by decide)⟩,
      hplain _ (by decide)⟩

/-- A password and a database that bring a keyword of their own. -/
theorem injected_keyword_is_read :
    letI := Debug.simple
    backendFields none (environment "s3cret sslmode=disable" "meta sslmode=disable") =
        .ok (applyTarget, "s3cret sslmode=disable") ∧
      Carries (backendDsn applyTarget "s3cret sslmode=disable")
        (applyTarget.fields ++ [("password", "s3cret"), ("sslmode", "disable")]) ∧
      ¬ Carries (backendDsn applyTarget "s3cret sslmode=disable")
        (applyTarget.fields ++ [("password", "s3cret sslmode=disable")]) ∧
      WardenSettings.resolve none
          (environment "s3cret sslmode=disable" "meta sslmode=disable") =
        .ok (settings "meta sslmode=disable") ∧
      Carries (settings "meta sslmode=disable").writerDsn
        [("host", "db"), ("port", "5499"), ("dbname", "meta"), ("sslmode", "disable"),
          ("user", "pgb_audit_writer"), ("password", "writer")] ∧
      ¬ Carries (settings "meta sslmode=disable").writerDsn
        (settings "meta sslmode=disable").writerFields := by
  refine ⟨by decide, by decide, by decide, by decide, by decide, by decide⟩

end PgBrakes.Ports.ConnStrings
