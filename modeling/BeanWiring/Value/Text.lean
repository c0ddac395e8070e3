import BeanWiring.Decimal.Shortest
import BeanWiring.Value

/-!
How values are written. Strings stand in quotes and are not escaped; lists, sets and arrays look
alike.
-/
namespace BeanWiring

def Identity.text : Identity → String
  | .named id => id
  | .made n => "#" ++ toString n

namespace Value

mutual

def text : Value → String
  | null => "null"
  | bool true => "true"
  | bool false => "false"
  | int n => toString n.toInt
  | long n => toString n.toInt
  | double x => Decimal.floatText x
  | str s => "\"" ++ s ++ "\""
  | list items | set items | array _ items => "[" ++ itemsText items ++ "]"
  | map entries => "\x7b" ++ entriesText entries ++ "\x7d"
  | object type identity => type.name ++ "@" ++ identity.text
  | point here => BeanType.injectionPoint.name ++ "@" ++ here.text

def itemsText : List Value → String
  | [] => ""
  | [value] => value.text
  | value :: rest => value.text ++ ", " ++ itemsText rest

def entriesText : List (Value × Value) → String
  | [] => ""
  | [(key, value)] => key.text ++ "=" ++ value.text
  | (key, value) :: rest => key.text ++ "=" ++ value.text ++ ", " ++ entriesText rest

end

end Value

end BeanWiring
