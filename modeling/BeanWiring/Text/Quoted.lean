import BeanWiring.Text.Blank
import BeanWiring.Text.Hidden

/-!
Texts in quotes on one line: quotes, backslashes and the common controls are escaped by name, and
every other character that would not show by its code point.
-/
namespace BeanWiring.Text

def escapeCode (c : Char) : List Char :=
  ['\\', 'u', '\x7b'] ++ Nat.toDigits 16 c.toNat ++ ['\x7d']

def quoteChar (c : Char) : List Char :=
  match c with
  | '\x00' => ['\\', '0']
  | '\t' => ['\\', 't']
  | '\n' => ['\\', 'n']
  | '\r' => ['\\', 'r']
  | '"' => ['\\', '"']
  | '\\' => ['\\', '\\']
  | c => if inRanges hiddenRanges c then escapeCode c else [c]

def quote (text : String) : String :=
  "\"" ++ String.ofList (text.toList.flatMap quoteChar) ++ "\""

end BeanWiring.Text
