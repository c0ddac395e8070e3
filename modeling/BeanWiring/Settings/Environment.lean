import BeanWiring.Decimal.Integer
import BeanWiring.Settings
import BeanWiring.Text.Lowercase

/-!
Settings from environment variables. A variable that is not set leaves its setting as it is at
first; the first variable that cannot be read decides the error. Variables are read apart from the
values of beans, which are converted, with words for true and false of their own.
-/
namespace BeanWiring

abbrev Environment := String → Option String

namespace Settings

def variablePrefix : String := "TRELLIS_"

def lenientVariable : String := variablePrefix ++ "LENIENT_RESOLUTION"
def nonPublicVariable : String := variablePrefix ++ "NON_PUBLIC_ACCESS"
def depthVariable : String := variablePrefix ++ "MAX_RESOLUTION_DEPTH"

def greatestDepth : Nat := 0xffffffffffffffff

def truthWord? : String → Option Bool
  | "true" | "1" | "yes" | "on" => some true
  | "false" | "0" | "no" | "off" => some false
  | _ => none

def truthVariable (env : Environment) (name : String) (unset : Bool) :
    Except SettingsError Bool :=
  match env name with
  | none => .ok unset
  | some text =>
    match truthWord? (Text.lowercase (Text.trim text)) with
    | some b => .ok b
    | none =>
      .error (.environment
        (name ++ " is not a boolean: " ++ Text.lowercase (Text.trim text)))

def numberVariable (env : Environment) (name : String) (unset : UInt64) :
    Except SettingsError UInt64 :=
  match env name with
  | none => .ok unset
  | some text =>
    match Decimal.readNatural greatestDepth (Text.trim text).toList with
    | .ok n => .ok (UInt64.ofNat n)
    | .error _ => .error (.environment (name ++ " is not a positive integer: " ++ text))

def ofEnvironment (env : Environment) : Except SettingsError Settings :=
  match truthVariable env lenientVariable initial.lenient with
  | .error e => .error e
  | .ok lenient =>
    match truthVariable env nonPublicVariable initial.nonPublicAllowed with
    | .error e => .error e
    | .ok nonPublicAllowed =>
      match numberVariable env depthVariable initial.maxDepth with
      | .error e => .error e
      | .ok maxDepth => validate ⟨lenient, nonPublicAllowed, maxDepth⟩

end Settings

end BeanWiring
