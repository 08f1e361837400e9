import SqlService.Connection.Settings
import SqlService.Provider.Registry

/-!
# Admission of connection settings

Before a connection is opened its dialect must be registered and some driver must handle its URL;
the dialect is looked at first.
-/

namespace SqlService

/-- The provider that settings ask for, if a connection can be opened with them. -/
def Registry.providerFor (r : Registry) (s : Settings) : Except DataError Provider :=
  match r.get s.dialect with
  | .error e => .error e
  | .ok p => if s.supported then .ok p else .error (.unsupportedUrl s.url)

end SqlService
