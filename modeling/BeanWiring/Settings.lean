/-!
The settings that bean definitions and containers start from.
-/
namespace BeanWiring

/-- `lenient` resolution picks the closest match and tolerates ties. `maxDepth` limits how many
beans may be in creation at once, one inside the other. -/
structure Settings where
  lenient : Bool
  nonPublicAllowed : Bool
  maxDepth : UInt64
  deriving DecidableEq, Repr

/-- Why settings could not be had. What is wrong with a file or a document is not told. -/
inductive SettingsError
  | unreadableFile
  | malformed
  | invalid (reason : String)
  | environment (reason : String)
  | unsupportedFormat
  deriving DecidableEq, Repr

def SettingsError.message? : SettingsError → Option String
  | .unreadableFile | .malformed => none
  | .invalid reason => some ("Validation error: " ++ reason)
  | .environment reason => some ("Environment error: " ++ reason)
  | .unsupportedFormat => some "Unsupported format: Supported formats: .toml, .json"

namespace Settings

def initial : Settings := ⟨true, true, 100⟩

/-- Requires arguments to fit and refuses ties. -/
def strict (s : Settings) : Settings := { s with lenient := false }

def publicOnly (s : Settings) : Settings := { s with nonPublicAllowed := false }

def withMaxDepth (s : Settings) (depth : UInt64) : Settings := { s with maxDepth := depth }

def validate (s : Settings) : Except SettingsError Settings :=
  if s.maxDepth = 0 then .error (.invalid "max_resolution_depth must be at least 1") else .ok s

end Settings

end BeanWiring
