import BeanWiring.Document.Hexadecimal

/-!
Documents in JSON. Only the structure is read: numbers stay as they are written, objects keep all
their members in order, and a string that holds half a surrogate pair has no text.
-/
namespace BeanWiring

inductive Json
  | null
  | bool (b : Bool)
  | number (literal : List Char)
  | string (text : Option String)
  | array (items : List Json)
  | object (members : List (Option String × Json))

namespace Json

def isBlank (c : Char) : Bool := c == ' ' || c == '\t' || c == '\n' || c == '\r'

def skipBlank (text : List Char) : List Char := text.dropWhile isBlank

def afterDigits? : List Char → Option (List Char)
  | c :: rest => if c.isDigit then some (rest.dropWhile Char.isDigit) else none
  | [] => none

def afterWhole? : List Char → Option (List Char)
  | '0' :: rest => some rest
  | text => afterDigits? text

def afterFraction? : List Char → Option (List Char)
  | '.' :: rest => afterDigits? rest
  | text => some text

def afterExponent? : List Char → Option (List Char)
  | 'e' :: '+' :: rest | 'e' :: '-' :: rest | 'E' :: '+' :: rest | 'E' :: '-' :: rest
  | 'e' :: rest | 'E' :: rest => afterDigits? rest
  | text => some text

def isNumber (text : List Char) : Bool :=
  let unsigned :=
    match text with
    | '-' :: rest => rest
    | _ => text
  ((afterWhole? unsigned).bind afterFraction?).bind afterExponent? == some []

def isNumeric (c : Char) : Bool :=
  c.isDigit || c == '-' || c == '+' || c == '.' || c == 'e' || c == 'E'

def natural? (literal : List Char) : Option Nat := Hexadecimal.value? 10 literal

def unescape? : Char → Option Char
  | '"' => some '"'
  | '\\' => some '\\'
  | '/' => some '/'
  | 'b' => some '\x08'
  | 'f' => some '\x0c'
  | 'n' => some '\n'
  | 'r' => some '\r'
  | 't' => some '\t'
  | _ => none

def codePoints : List Char → Option (List Nat × List Char)
  | [] => none
  | '"' :: rest => some ([], rest)
  | '\\' :: 'u' :: a :: b :: c :: d :: rest =>
    match Hexadecimal.value? 16 [a, b, c, d], codePoints rest with
    | some n, some (ns, after) => some (n :: ns, after)
    | _, _ => none
  | '\\' :: c :: rest =>
    match unescape? c, codePoints rest with
    | some e, some (ns, after) => some (e.toNat :: ns, after)
    | _, _ => none
  | c :: rest =>
    if c < ' ' then none else (codePoints rest).map fun (ns, after) => (c.toNat :: ns, after)

def isLead (n : Nat) : Bool := 0xd800 ≤ n && n < 0xdc00

def isTrail (n : Nat) : Bool := 0xdc00 ≤ n && n < 0xe000

/-- The characters of code points, where two surrogates make one character. -/
def characters? : List Nat → Option (List Char)
  | [] => some []
  | n :: ns =>
    if isLead n then
      match ns with
      | m :: rest =>
        if isTrail m then
          (characters? rest).map
            (Char.ofNat (0x10000 + (n - 0xd800) * 0x400 + (m - 0xdc00)) :: ·)
        else none
      | [] => none
    else if isTrail n then none
    else (characters? ns).map (Char.ofNat n :: ·)

def readString (text : List Char) : Option (Option String × List Char) :=
  (codePoints text).map fun (ns, rest) => ((characters? ns).map String.ofList, rest)

def after? (word : String) (text : List Char) : Option (List Char) :=
  if word.toList.isPrefixOf text then some (text.drop word.length) else none

mutual

/-- Reads a value; `steps` bounds the values and their parts that are still to come. -/
def readValue : (steps : Nat) → List Char → Option (Json × List Char)
  | 0, _ => none
  | steps + 1, text =>
    match skipBlank text with
    | '"' :: rest => (readString rest).map fun (s, rest) => (string s, rest)
    | '[' :: rest =>
      match skipBlank rest with
      | ']' :: rest => some (array [], rest)
      | rest => (readItems steps rest).map fun (items, rest) => (array items, rest)
    | '\x7b' :: rest =>
      match skipBlank rest with
      | '\x7d' :: rest => some (object [], rest)
      | rest => (readMembers steps rest).map fun (members, rest) => (object members, rest)
    | text =>
      if let some rest := after? "null" text then some (null, rest)
      else if let some rest := after? "true" text then some (bool true, rest)
      else if let some rest := after? "false" text then some (bool false, rest)
      else
        let literal := text.takeWhile isNumeric
        if isNumber literal then some (number literal, text.dropWhile isNumeric) else none

def readItems : (steps : Nat) → List Char → Option (List Json × List Char)
  | 0, _ => none
  | steps + 1, text =>
    match readValue steps text with
    | none => none
    | some (item, rest) =>
      match skipBlank rest with
      | ']' :: rest => some ([item], rest)
      | ',' :: rest => (readItems steps rest).map fun (items, rest) => (item :: items, rest)
      | _ => none

def readMembers : (steps : Nat) → List Char → Option (List (Option String × Json) × List Char)
  | 0, _ => none
  | steps + 1, text =>
    match skipBlank text with
    | '"' :: rest =>
      match readString rest with
      | none => none
      | some (name, rest) =>
        match skipBlank rest with
        | ':' :: rest =>
          match readValue steps rest with
          | none => none
          | some (value, rest) =>
            match skipBlank rest with
            | '\x7d' :: rest => some ([(name, value)], rest)
            | ',' :: rest =>
              (readMembers steps rest).map fun (members, rest) => ((name, value) :: members, rest)
            | _ => none
        | _ => none
    | _ => none

end

/-- Reads a document of one value. No value has more than two steps for each of its characters. -/
def read (text : String) : Option Json :=
  match readValue (2 * text.length + 2) text.toList with
  | some (value, rest) => if (skipBlank rest).isEmpty then some value else none
  | none => none

end Json

end BeanWiring
