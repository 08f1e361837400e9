import SqlService.Json.Document
import SqlService.Error
import SqlService.Text.Split

/-!
# Connection settings

How a logical connection is reached: the URL, the dialect, and the database, which is taken from
the URL where none is given.
-/

namespace SqlService

/-- How a logical connection is reached. -/
structure Settings where
  url : String
  dialect : String
  database : String := ""
  deriving DecidableEq, Repr

namespace Settings

/-- The last step of the URL's path, without the query. -/
def databaseOfUrl (url : String) : String :=
  let base := url.toList.takeWhile (· != '?')
  let afterScheme :=
    match Text.cut? "://".toList base with
    | some (_, rest) => rest
    | none => base
  -- Without a slash after the host there is no path and no database.
  match Text.cut? ['/'] afterScheme with
  | some (_, path) => String.ofList (path.reverse.takeWhile (· != '/')).reverse
  | none => ""

/-- The name of the database. -/
def databaseName (s : Settings) : String :=
  if s.database = "" then databaseOfUrl s.url else s.database

/-- The URL schemes that a driver handles. -/
def schemes : List String := ["mysql:", "postgres:", "postgresql:", "sqlite:"]

/-- Whether some driver handles the URL. -/
def supported (s : Settings) : Bool :=
  schemes.any fun scheme => scheme.toList.isPrefixOf s.url.toList

/-- The JSON form of the settings. -/
def toJson (s : Settings) : Json :=
  .object [("url", .string s.url), ("dialect", .string s.dialect),
    ("database", .string s.database)]

/-- Reads settings; the database may be missing. -/
def read? (d : Document) : Option Settings :=
  match d.parts? ["url", "dialect", "database"] with
  | some [url, dialect, database] => do
    let url ← Document.required? Document.text? url
    let dialect ← Document.required? Document.text? dialect
    let database ← Document.defaulted? "" Document.text? database
    return { url, dialect, database }
  | _ => none

end Settings

end SqlService
