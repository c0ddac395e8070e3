import BeanWiring.Text.Lowercase

/-!
The words for true and false, in any case and with white space around them.
-/
namespace BeanWiring.Text

def truthWord? : String → Option Bool
  | "true" | "yes" | "on" | "1" => some true
  | "false" | "no" | "off" | "0" => some false
  | _ => none

def readTruth (text : String) : Option Bool := truthWord? (lowercase (trim text))

end BeanWiring.Text
