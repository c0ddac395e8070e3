import BeanWiring.Settings.Document

/-!
Settings from files. The ending of a file's name decides how it is read, in the case it has; a
file that cannot be read as a text fails before its name is looked at.
-/
namespace BeanWiring.Settings

/-- The ending of a file's name after its last dot. A dot at the start of the name is none. -/
def fileEnding? (path : String) : Option String :=
  let fileName := (path.toList.reverse.takeWhile (· != '/')).reverse
  let ending := (fileName.reverse.takeWhile (· != '.')).reverse
  if ending.length + 1 < fileName.length && fileName != ['.', '.'] then
    some (String.ofList ending)
  else none

def ofFile (path : String) (contents : Option ByteArray) : Except SettingsError Settings :=
  match contents.bind String.fromUTF8? with
  | none => .error .unreadableFile
  | some text =>
    match fileEnding? path with
    | some "toml" => ofToml text
    | some "json" => ofJson text
    | _ => .error .unsupportedFormat

end BeanWiring.Settings
