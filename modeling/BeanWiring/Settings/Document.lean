import BeanWiring.Document.Json
import BeanWiring.Document.Toml.Reader
import BeanWiring.Settings.Environment

/-!
Settings from JSON and TOML documents. A setting that is not mentioned keeps its first value, keys
that name no setting are passed over, and a setting of the wrong type or given twice makes the
document malformed. A JSON document can also be an array of the settings in their order.
-/
namespace BeanWiring.Settings

def lenientKey : String := "lenient_constructor_resolution"
def nonPublicKey : String := "non_public_access_allowed"
def depthKey : String := "max_resolution_depth"

def keys : List String := [lenientKey, nonPublicKey, depthKey]

inductive Given
  | truth (b : Bool)
  | natural (n : Nat)
  | other

def given? (key : String) (entries : List (String × Given)) :
    Except SettingsError (Option Given) :=
  match entries.filter fun entry => entry.1 == key with
  | [] => .ok none
  | [(_, given)] => .ok (some given)
  | _ => .error .malformed

def truthEntry (entries : List (String × Given)) (key : String) (unset : Bool) :
    Except SettingsError Bool :=
  match given? key entries with
  | .error e => .error e
  | .ok none => .ok unset
  | .ok (some (.truth b)) => .ok b
  | .ok (some _) => .error .malformed

def numberEntry (entries : List (String × Given)) (key : String) (unset : UInt64) :
    Except SettingsError UInt64 :=
  match given? key entries with
  | .error e => .error e
  | .ok none => .ok unset
  | .ok (some (.natural n)) =>
    if n ≤ greatestDepth then .ok (UInt64.ofNat n) else .error .malformed
  | .ok (some _) => .error .malformed

def ofEntries (entries : List (String × Given)) : Except SettingsError Settings :=
  match truthEntry entries lenientKey initial.lenient,
    truthEntry entries nonPublicKey initial.nonPublicAllowed,
    numberEntry entries depthKey initial.maxDepth with
  | .ok lenient, .ok nonPublicAllowed, .ok maxDepth =>
    validate ⟨lenient, nonPublicAllowed, maxDepth⟩
  | _, _, _ => .error .malformed

def Given.ofJson : Json → Given
  | .bool b => .truth b
  | .number literal =>
    match Json.natural? literal with
    | some n => .natural n
    | none => .other
  | _ => .other

/-- The members of an object with their names, unless a name is no text. -/
def jsonEntries : List (Option String × Json) → Option (List (String × Given))
  | [] => some []
  | (none, _) :: _ => none
  | (some name, value) :: rest => (jsonEntries rest).map ((name, Given.ofJson value) :: ·)

def ofJson (text : String) : Except SettingsError Settings :=
  match Json.read text with
  | some (.object members) =>
    match jsonEntries members with
    | some entries => ofEntries entries
    | none => .error .malformed
  | some (.array items) =>
    if items.length ≤ keys.length then ofEntries (keys.zip (items.map Given.ofJson))
    else .error .malformed
  | _ => .error .malformed

def Given.ofToml : Toml → Given
  | .truth b => .truth b
  | .integer (.ofNat n) => .natural n
  | _ => .other

/-- Settings from a TOML document. Only its outermost table counts. -/
def ofToml (text : String) : Except SettingsError Settings :=
  match Toml.read text with
  | some entries => ofEntries (entries.map fun (key, value) => (key, Given.ofToml value))
  | none => .error .malformed

end BeanWiring.Settings
