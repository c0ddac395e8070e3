import BeanWiring.Document.Toml.Scalar
import BeanWiring.Document.Toml.Text

/-!
Reading TOML documents line by line. Arrays and inline tables may go over several lines and may
have a comma at their end. They are nested only so deep, and keys have only so many parts.
-/
namespace BeanWiring.Toml

def isBareKeyPart (c : Char) : Bool := c.isAlphanum || c == '_' || c == '-'

def readKeyPart (text : List Char) : Option (String × List Char) :=
  match text with
  | '"' :: rest =>
    (readBasic (rest.length + 1) rest).map fun (cs, after) => (String.ofList cs, after)
  | '\'' :: rest => (readLiteral rest).map fun (cs, after) => (String.ofList cs, after)
  | _ =>
    match text.takeWhile isBareKeyPart with
    | [] => none
    | key => some (String.ofList key, text.dropWhile isBareKeyPart)

def readParts : (count : Nat) → List Char → Option ((List String × String) × List Char)
  | 0, _ => none
  | count + 1, text =>
    match readKeyPart (skipSpace text) with
    | none => none
    | some (part, rest) =>
      match skipSpace rest with
      | '.' :: rest =>
        (readParts count rest).map fun ((path, key), after) => ((part :: path, key), after)
      | rest => some (([], part), rest)

def maxParts : Nat := 80

def readKey (text : List Char) : Option ((List String × String) × List Char) :=
  readParts maxParts text

mutual

def skipLines : List Char → List Char
  | '#' :: rest => skipCommentLines rest
  | ' ' :: rest | '\t' :: rest | '\n' :: rest | '\r' :: '\n' :: rest => skipLines rest
  | text => text

def skipCommentLines : List Char → List Char
  | '\n' :: rest | '\r' :: '\n' :: rest => skipLines rest
  | c :: rest => if isPlain c then skipCommentLines rest else c :: rest
  | [] => []

end

def maxDepth : Nat := 80

mutual

/-- Reads a value; `steps` bounds the values and their parts that are still to come, and `depth` the
arrays and inline tables around one another in it. -/
def readValue : (steps depth : Nat) → List Char → Option (Toml × List Char)
  | 0, _, _ => none
  | steps + 1, depth, text =>
    match text, depth with
    | '"' :: _, _ | '\'' :: _, _ =>
      (readText text).map fun (cs, rest) => (string (String.ofList cs), rest)
    | '[' :: _, 0 | '\x7b' :: _, 0 => none
    | '[' :: rest, depth + 1 =>
      (readItems steps depth rest).map fun (items, rest) => (array items, rest)
    | '\x7b' :: rest, depth + 1 =>
      (readEntries steps depth [] rest).map fun (entries, rest) => (table .inline entries, rest)
    | _, _ => (readScalar (takeScalar text).1).map (·, (takeScalar text).2)

def readItems : (steps depth : Nat) → List Char → Option (List Toml × List Char)
  | 0, _, _ => none
  | steps + 1, depth, text =>
    match skipLines text with
    | ']' :: rest => some ([], rest)
    | text =>
      match readValue steps depth text with
      | none => none
      | some (item, rest) =>
        match skipLines rest with
        | ']' :: rest => some ([item], rest)
        | ',' :: rest =>
          (readItems steps depth rest).map fun (items, rest) => (item :: items, rest)
        | _ => none

/-- Reads the entries of an inline table up to its end, after those read before. A line can also
end around an equals sign, but not within a key. -/
def readEntries : (steps depth : Nat) → Entries → List Char → Option (Entries × List Char)
  | 0, _, _, _ => none
  | steps + 1, depth, entries, text =>
    match skipLines text with
    | '\x7d' :: rest => some (entries, rest)
    | text =>
      match (readKey text).map fun (key, rest) => (key, skipLines rest) with
      | some ((path, key), '=' :: rest) =>
        match readValue steps depth (skipLines rest) with
        | none => none
        | some (value, rest) =>
          match set path key value .header entries, skipLines rest with
          | some entries, '\x7d' :: rest => some (entries, rest)
          | some entries, ',' :: rest => readEntries steps depth entries rest
          | _, _ => none
      | _ => none

end

def afterLine? (text : List Char) : Option (List Char) :=
  match skipComment (skipSpace text) with
  | [] => some []
  | text => afterBreak? text

/-- Reads one line up to its end; `none` within the result stands for a line with no more than a
comment. -/
def readLine (text : List Char) : Option (Option Line × List Char) :=
  match skipSpace text with
  | '[' :: '[' :: rest =>
    match readKey rest with
    | some ((path, key), ']' :: ']' :: rest) => some (some (.element path key), rest)
    | _ => none
  | '[' :: rest =>
    match readKey rest with
    | some ((path, key), ']' :: rest) => some (some (.header path key), rest)
    | _ => none
  | [] => some (none, [])
  | c :: rest =>
    if c == '#' || (afterBreak? (c :: rest)).isSome then some (none, c :: rest)
    else
      match readKey (c :: rest) with
      | some ((path, key), '=' :: rest) =>
        (readValue (2 * rest.length + 2) maxDepth (skipSpace rest)).map fun (value, rest) =>
          (some (.entry path key value), rest)
      | _ => none

def readLines : (steps : Nat) → Progress → List Char → Option Entries
  | 0, _, _ => none
  | steps + 1, p, text =>
    match readLine text with
    | none => none
    | some (line, rest) =>
      match line.elim (some p) p.add, afterLine? rest with
      | some p, some [] => some p.root
      | some p, some rest => readLines steps p rest
      | _, _ => none

/-- Reads a document, which may begin with a byte order mark. Every line has a character or is the
last. -/
def read (text : String) : Option Entries :=
  let cs :=
    match text.toList with
    | '\ufeff' :: rest => rest
    | cs => cs
  readLines (cs.length + 1) ⟨[], []⟩ cs

end BeanWiring.Toml
