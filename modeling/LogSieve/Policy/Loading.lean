import LogSieve.Error
import LogSieve.Files
import LogSieve.Settings.Reader
/-!
# Loading a policy

A policy is loaded from the text of a configuration document, from the file that a
path leads to, or from the file that the environment names.
-/
namespace LogSieve.Policy

/-- The policy that a configuration document describes. -/
def ofText (text : String) : Except Error Policy :=
  match Settings.parse text with
  | .error error => .error (.configSyntax error)
  | .ok settings => settings.toPolicy.mapError .inconsistent

def ofFile (files : Files) (path : String) : Except Error Policy :=
  match files.readText path with
  | .error fault => .error (.configFile path fault)
  | .ok text => ofText text

/-- The policy in the file that a variable of the environment names, if it is set. -/
def ofVariable (files : Files) (named : Option String) : Except Error Policy :=
  match named with
  | none => .error .noConfigPath
  | some path => ofFile files path

end LogSieve.Policy
