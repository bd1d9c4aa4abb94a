import RecordMapping.Error

/-!
# Connections

Where a database is found and who asks for it, read from a URL.
-/

namespace RecordMapping

/-- Where a database is found, and who asks for it. The names and the password are as the URL has
them, percent-encoded; the parameters are decoded. -/
structure ConnectionSettings where
  host : String
  port : Nat
  database : String
  username? : Option String
  password? : Option String
  parameters : Fields String

namespace ConnectionSettings

/-- The schemes of URLs that lead to a database, with the two slashes. -/
def schemes : List String := ["mysql://", "mariadb://"]

/-- The port that is used when a URL names none. -/
def defaultPort : Nat := 3306

/-- What follows the scheme of a URL that leads to a database. -/
def afterScheme (url : String) : Result (List Char) :=
  match schemes.find? fun scheme => scheme.toList.isPrefixOf url.toList with
  | some scheme => .ok (url.toList.drop scheme.toList.length)
  | none => .error (.connection .invalidScheme)

/-- Refuses a URL whose scheme is not one of `schemes`. -/
def checkScheme (url : String) : Result Unit := (afterScheme url).map fun _ => ()

/-- Reads a URL. The database is its path without the slashes in front. -/
def ofUrl (url : String) : Result ConnectionSettings := do
  let rest ← afterScheme url
  let url ← (Url.read rest).mapError fun fault => .connection (.invalidUrl fault)
  if url.host == "" then throw (.connection .missingHost)
  let database := String.ofList (url.path.toList.dropWhile (· == '/'))
  if database == "" then throw (.connection .missingDatabase)
  return {
    host := url.host
    port := url.port?.getD defaultPort
    database
    username? := if url.username == "" then none else some url.username
    password? := url.password?
    parameters := url.parameters }

end ConnectionSettings

end RecordMapping
