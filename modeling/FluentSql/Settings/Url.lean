import FluentSql.Settings.Basic
import FluentSql.Text.Literal
import FluentSql.Value.Number

/-!
# Database URLs

A URL names a driver and where its database is.  What a caller leaves out is
taken from the settings.

* `quotePart` writes the user and the password of a URL.
* `DatabaseUrl` holds the parts, and `DatabaseUrl.render` writes them.
* `UrlRequest` is what a caller gives, and `UrlRequest.resolve` fills in the
  rest.
-/

namespace FluentSql

open Number Text

/-! ## Writing a URL -/

/-- Whether a byte stands for itself in the user or the password: letters, digits, `_`, `.`, `-`,
`~`, the space and the plus sign do. -/
def isPlainByte (b : UInt8) : Bool :=
  let c := Char.ofNat b.toNat
  c.isAlphanum || c == '_' || c == '.' || c == '-' || c == '~' || c == ' ' || c == '+'

/-- A byte as a percent sign and two digits. -/
def percentByte (b : UInt8) : List Char :=
  '%' :: (hexPadded 2 b.toNat).map Char.toUpper

/-- The user or the password of a URL. -/
def quotePart (s : String) : String :=
  String.ofList (s.toUTF8.toList.flatMap fun b =>
    if isPlainByte b then [Char.ofNat b.toNat] else percentByte b)

/-- The parts of a URL. -/
structure DatabaseUrl where
  /-- The dialect and the driver. -/
  driverName : String
  /-- The user. -/
  user : Option String := none
  /-- The password. -/
  password : Option String := none
  /-- The host. -/
  host : Option String := none
  /-- The port. -/
  port : Option Int := none
  /-- The database. -/
  database : Option String := none
deriving DecidableEq

namespace DatabaseUrl

/-- The user with the password, before the host. -/
def credentials (url : DatabaseUrl) (hidden : Bool) : String :=
  match url.user with
  | none => ""
  | some user =>
    let password := match url.password with
      | none => ""
      | some password => ":" ++ if hidden then "***" else quotePart password
    quotePart user ++ password ++ "@"

/-- The host; one that holds a colon is put in brackets. -/
def authority (url : DatabaseUrl) : String :=
  match url.host with
  | none => ""
  | some host => if ':' ∈ host.toList then "[" ++ host ++ "]" else host

/-- Writes a URL, perhaps with stars for the password. -/
def render (url : DatabaseUrl) (hidden : Bool) : String :=
  url.driverName ++ "://" ++ url.credentials hidden ++ url.authority ++
    url.port.elim "" (fun port => ":" ++ intText port) ++
    url.database.elim "" (fun database => "/" ++ database)

end DatabaseUrl

/-! ## Filling in what is left out -/

/-- The driver names of URLs, by driver. -/
def driverNames : List (String × String) :=
  [("mysql", "mysql+pymysql"), ("pgsql", "postgresql+psycopg2"),
    ("postgresql", "postgresql+psycopg2"), ("sqlite", "sqlite")]

/-- The parts of a URL that a caller gives; an absent value stands for one that is left out. -/
structure UrlRequest where
  /-- The driver. -/
  driver : Value := .null
  /-- The host. -/
  host : Value := .null
  /-- The port. -/
  port : Value := .null
  /-- The user. -/
  user : Value := .null
  /-- The password. -/
  password : Value := .null
  /-- The database. -/
  database : Value := .null

/-- A value, or a text in its place if it reads as false. -/
def Value.orText (v : Value) (fallback : String) : Value :=
  if v.truthy then v else .text fallback

/-- A value, or a text in its place if it is absent. -/
def Value.orTextIfNull (v : Value) (fallback : String) : Value :=
  if v.isNull then .text fallback else v

/-- A value that reads as false counts as absent. -/
def Value.orNull (v : Value) : Value :=
  if v.truthy then v else .null

/-- A text that may be absent. -/
def Value.optionalText : Value → Except Failure (Option String)
  | null => .ok none
  | text s => .ok (some s)
  | _ => .error .wrongType

/-- A port that may be absent: anything that reads as an integer. -/
def Value.optionalPort (v : Value) : Except Failure (Option Int) :=
  if v.isNull then .ok none else v.toInt.map some

/-- A byte in lower case, if it is an ASCII letter. -/
def lowerByte (b : UInt8) : UInt8 :=
  if 65 ≤ b ∧ b ≤ 90 then b + 32 else b

namespace UrlRequest

/-- The driver in lower case.  Bytes are no name of a driver. -/
def driverWord (request : UrlRequest) (settings : Settings) : Except Failure String :=
  match request.driver.orText settings.database.driver with
  | .text driver => .ok (lower driver)
  | .bytes driver => .error (.argument (.driver (Value.bytes (driver.map lowerByte)).display))
  | _ => .error .missingAttribute

/-- The URL of a file database. -/
def resolveFile (request : UrlRequest) (settings : Settings) : Except Failure DatabaseUrl := do
  let fallback := if settings.database.database.isEmpty then ":memory:"
    else settings.database.database
  return { driverName := "sqlite"
           database := ← (request.database.orText fallback).optionalText }

/-- The port of a server: the one given, else that of the settings if they are for the same driver,
else the usual one of the driver. -/
def resolvePort (request : UrlRequest) (settings : Settings) (driver : String) :
    Except Failure (Option Int) :=
  if request.port.truthy then request.port.optionalPort
  else if driver = settings.database.driver then .ok settings.database.port
  else .ok (defaultPort driver)

/-- The URL of a server. -/
def resolveServer (request : UrlRequest) (settings : Settings) (driver driverName : String) :
    Except Failure DatabaseUrl := do
  let user ← (request.user.orTextIfNull settings.database.user).orNull.optionalText
  let password := (request.password.orTextIfNull settings.database.password).orNull
  let host ← (request.host.orText settings.database.host).optionalText
  let port ← request.resolvePort settings driver
  let database ← (request.database.orTextIfNull settings.database.database).optionalText
  return {
    driverName, user, host, port, database
    password := if password.isNull then none else some password.display }

/-- The URL of a request under some settings. -/
def resolve (request : UrlRequest) (settings : Settings) : Except Failure DatabaseUrl := do
  let driver ← request.driverWord settings
  match driverNames.lookup driver with
  | none => .error (.argument (.driver driver))
  | some driverName =>
    if driver = "sqlite" then request.resolveFile settings
    else request.resolveServer settings driver driverName

end UrlRequest

/-- A request for the database of some settings. -/
def DatabaseSettings.request (database : DatabaseSettings) : UrlRequest where
  driver := .text database.driver
  host := .text database.host
  port := database.port.elim .null .int
  user := .text database.user
  password := .text database.password
  database := .text database.database

/-- The URL of the database of some settings, with its password. -/
def DatabaseSettings.url (database : DatabaseSettings) (globals : Settings) :
    Except Failure String :=
  (database.request.resolve globals).map (·.render false)

end FluentSql
