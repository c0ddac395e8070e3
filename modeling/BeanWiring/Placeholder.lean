import BeanWiring.Registry

/-!
Texts with placeholders `${key}` and `${key:default}`. A text is cut into literal pieces and
placeholders from left to right, each placeholder reaching to the next closing brace, and what is
put in for a placeholder is not searched again.
-/
namespace BeanWiring.Placeholder

inductive Piece
  | literal (text : List Char)
  | placeholder (key : List Char) (default? : Option (List Char))
  deriving DecidableEq, Repr

def splitOpening : List Char → Option (List Char × List Char)
  | [] => none
  | '$' :: '\x7b' :: rest => some ([], rest)
  | c :: rest => (splitOpening rest).map fun (before, after) => (c :: before, after)

def splitAt (mark : Char) : List Char → Option (List Char × List Char)
  | [] => none
  | c :: rest =>
    if c = mark then some ([], rest)
    else (splitAt mark rest).map fun (before, after) => (c :: before, after)

def ofContent (content : List Char) : Piece :=
  match splitAt ':' content with
  | some (key, value) => .placeholder key (some value)
  | none => .placeholder content none

def piecesWithin : (count : Nat) → List Char → List Piece
  | 0, text => [.literal text]
  | count + 1, text =>
    match splitOpening text with
    | none => [.literal text]
    | some (before, after) =>
      match splitAt '\x7d' after with
      | none => [.literal text]
      | some (content, rest) => .literal before :: ofContent content :: piecesWithin count rest

def pieces (text : List Char) : List Piece := piecesWithin text.length text

/-- The text with the properties put in, or the first key that has neither a property nor a
default. -/
def substitute (properties : Registry String String) : List Piece → Except (List Char) (List Char)
  | [] => .ok []
  | .literal text :: rest => (substitute properties rest).map (text ++ ·)
  | .placeholder key default? :: rest =>
    match properties.get? (String.ofList key), default? with
    | some value, _ => (substitute properties rest).map (value.toList ++ ·)
    | none, some value => (substitute properties rest).map (value ++ ·)
    | none, none => .error key

end BeanWiring.Placeholder
