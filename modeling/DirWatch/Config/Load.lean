import DirWatch.Config.Json
import DirWatch.Path.FileTree

/-!
# Loading a configuration

A configuration file must exist, be readable text, hold a configuration, and name options that can
be used; the first of these that fails is reported.
-/

namespace DirWatch

/-- Why no configuration is available. -/
inductive ConfigError where
  | missingFile (path : String)
  | invalidOption (fault : InvalidOption)
  | io (error : IoError)
  | parse (error : Json.ReadError)
  deriving DecidableEq

def ConfigError.message : ConfigError → String
  | missingFile path => "configuration file not found: " ++ path
  | invalidOption fault => fault.message
  | io error => "failed to read configuration: " ++ error.message
  | parse _ => "failed to parse configuration"

namespace Config

/-- The configuration itself, if all of its options can be used. -/
def validated (c : Config) : Except ConfigError Config :=
  match c.firstInvalid? with
  | some fault => .error (.invalidOption fault)
  | none => .ok c

/-- The configuration that a file's bytes hold. -/
def ofBytes (content : List UInt8) : Except ConfigError Config :=
  match Text.ofBytes? content with
  | none => .error (.io (.raised .invalidData "stream did not contain valid UTF-8"))
  | some text =>
    match read (String.ofList text) with
    | .error e => .error (.parse e)
    | .ok c => c.validated

def load (tree : FileTree) (path : String) : Except ConfigError Config :=
  let p := RawPath.ofString path
  if tree.pathExists p then
    match tree.read p with
    | .error e => .error (.io e)
    | .ok content => ofBytes content
  else .error (.missingFile path)

end Config

end DirWatch
