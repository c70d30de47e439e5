import LogSieve.FileFault
import LogSieve.Json.Fault
import LogSieve.Policy
/-!
# Errors

What can keep a policy from being loaded, a record from being processed or a log from
being opened.
-/
namespace LogSieve

/-- The environment variable that names the configuration file. -/
def configVariable : String := "UNDEFINED_CONFIG"

/-- The environment variable that names the log file. -/
def logVariable : String := "LOGGING_FILE_PATH"

/-- Why a policy, a record or a log is not there. -/
inductive Error where
  | configFile (path : String) (fault : FileFault)
  | configSyntax (error : Json.Error)
  | inconsistent (cause : Inconsistency)
  | noConfigPath
  | unwritable (fault : Json.WriteFault)
  | logFile (path : String) (fault : FileFault)
  | recordSyntax (error : Json.Error)
  | notARecord
deriving DecidableEq, Repr

def Error.message : Error → String
  | .configFile path fault => "Failed to read config " ++ path ++ ": " ++ fault.message
  | .configSyntax error => "Failed to parse config JSON: " ++ error.message
  | .inconsistent cause => "Invalid config: " ++ cause.message
  | .noConfigPath => "Config path variable " ++ configVariable ++ " is not set"
  | .unwritable fault => "Failed to encode undefined fields: " ++ fault.message
  | .logFile path fault => "Failed to open log file " ++ path ++ ": " ++ fault.message
  | .recordSyntax error => "Failed to parse record JSON: " ++ error.message
  | .notARecord => "Record is not a JSON object"

end LogSieve
