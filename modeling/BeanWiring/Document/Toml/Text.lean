import BeanWiring.Document.Hexadecimal
import BeanWiring.Document.Toml

/-!
Texts in TOML documents: comments and the four kinds of strings. A basic string has escapes, a
literal one does not; both can be written over several lines between three quotes.
-/
namespace BeanWiring.Toml

def isPlain (c : Char) : Bool := c == '\t' || (' ' ≤ c && c != '\x7f')

def afterBreak? : List Char → Option (List Char)
  | '\n' :: rest => some rest
  | '\r' :: '\n' :: rest => some rest
  | _ => none

def isSpace (c : Char) : Bool := c == ' ' || c == '\t'

def skipSpace (text : List Char) : List Char := text.dropWhile isSpace

def skipBreaks : List Char → List Char
  | ' ' :: rest | '\t' :: rest | '\n' :: rest | '\r' :: '\n' :: rest => skipBreaks rest
  | text => text

def skipComment : List Char → List Char
  | '#' :: rest => rest.dropWhile isPlain
  | text => text

def character? (code : Nat) : Option Char :=
  if code < 0xd800 || (0xdfff < code && code < 0x110000) then some (Char.ofNat code) else none

def readEscape : List Char → Option (Char × List Char)
  | 'b' :: rest => some ('\x08', rest)
  | 't' :: rest => some ('\t', rest)
  | 'n' :: rest => some ('\n', rest)
  | 'f' :: rest => some ('\x0c', rest)
  | 'r' :: rest => some ('\r', rest)
  | 'e' :: rest => some ('\x1b', rest)
  | '"' :: rest => some ('"', rest)
  | '\\' :: rest => some ('\\', rest)
  | 'x' :: rest => ofCode 2 rest
  | 'u' :: rest => ofCode 4 rest
  | 'U' :: rest => ofCode 8 rest
  | _ => none
where
  ofCode (digits : Nat) (text : List Char) : Option (Char × List Char) :=
    if text.length < digits then none
    else
      ((Hexadecimal.value? 16 (text.take digits)).bind character?).map (·, text.drop digits)

def readBasic : (steps : Nat) → List Char → Option (List Char × List Char)
  | 0, _ | _, [] => none
  | _ + 1, '"' :: rest => some ([], rest)
  | steps + 1, '\\' :: rest =>
    match readEscape rest with
    | some (c, rest) => (readBasic steps rest).map fun (cs, after) => (c :: cs, after)
    | none => none
  | steps + 1, c :: rest =>
    if isPlain c then (readBasic steps rest).map fun (cs, after) => (c :: cs, after) else none

def readLiteral : List Char → Option (List Char × List Char)
  | [] => none
  | '\'' :: rest => some ([], rest)
  | c :: rest =>
    if isPlain c then (readLiteral rest).map fun (cs, after) => (c :: cs, after) else none

/-- What follows a backslash at the end of a line: the next text that is not blank. -/
def afterContinuation? (text : List Char) : Option (List Char) :=
  (afterBreak? (skipSpace text)).map skipBreaks

/-- Reads the closing quotes of a string over several lines. Up to two quotes before them belong
to the text. -/
def readClosing (quote : Char) (text : List Char) : Option (List Char × List Char) :=
  let quotes := (text.takeWhile (· == quote)).length
  if quotes < 3 then none
  else
    let inside := min (quotes - 3) 2
    some (List.replicate inside quote, text.drop (inside + 3))

def readLongBasic : (steps : Nat) → List Char → Option (List Char × List Char)
  | 0, _ => none
  | steps + 1, text =>
    match readClosing '"' text with
    | some found => some found
    | none =>
      match text with
      | [] => none
      | '\\' :: rest =>
        match readEscape rest, afterContinuation? rest with
        | some (c, rest), _ => (readLongBasic steps rest).map fun (cs, after) => (c :: cs, after)
        | none, some rest => readLongBasic steps rest
        | none, none => none
      | c :: rest =>
        match afterBreak? text with
        | some rest => (readLongBasic steps rest).map fun (cs, after) => ('\n' :: cs, after)
        | none =>
          if isPlain c then
            (readLongBasic steps rest).map fun (cs, after) => (c :: cs, after)
          else none

def readLongLiteral : (steps : Nat) → List Char → Option (List Char × List Char)
  | 0, _ => none
  | steps + 1, text =>
    match readClosing '\'' text with
    | some found => some found
    | none =>
      match afterBreak? text, text with
      | some rest, _ => (readLongLiteral steps rest).map fun (cs, after) => ('\n' :: cs, after)
      | none, c :: rest =>
        if isPlain c then (readLongLiteral steps rest).map fun (cs, after) => (c :: cs, after)
        else none
      | none, [] => none

def dropBreak (text : List Char) : List Char := (afterBreak? text).getD text

def readText : List Char → Option (List Char × List Char)
  | '"' :: '"' :: '"' :: rest => readLongBasic (rest.length + 1) (dropBreak rest)
  | '\'' :: '\'' :: '\'' :: rest => readLongLiteral (rest.length + 1) (dropBreak rest)
  | '"' :: rest => readBasic (rest.length + 1) rest
  | '\'' :: rest => readLiteral rest
  | _ => none

end BeanWiring.Toml
