/-!
Documents in TOML, as trees of tables. How a table came about decides what can be added to it
later: every key is set once, a table has at most one header, and a table written inline is
complete.
-/
namespace BeanWiring

/-- How a table came about: by a header of its own, by the header of a table inside it, by a
dotted key, or inline. -/
inductive Toml.Origin
  | header | implied | dotted | inline
  deriving DecidableEq, Repr

/-- Dates and times are kept as they are written. `tables` is an array of tables with headers. -/
inductive Toml
  | truth (b : Bool)
  | integer (n : Int)
  | float (x : Float)
  | moment (text : String)
  | string (text : String)
  | array (items : List Toml)
  | table (origin : Toml.Origin) (entries : List (String × Toml))
  | tables (elements : List (List (String × Toml)))

namespace Toml

abbrev Entries := List (String × Toml)

def Entries.alter (key : String) (f : Option Toml → Option Toml) : Entries → Option Entries
  | [] => (f none).map fun value => [(key, value)]
  | (k, value) :: rest =>
    if k = key then (f (some value)).map fun value => (k, value) :: rest
    else (alter key f rest).map ((k, value) :: ·)

/-- Sets a key in a table. A key at the end of a dotted key belongs into a table made by dotted
keys, any other into one that was not. -/
def assign (underDots : Bool) (key : String) (value : Toml) (origin : Origin)
    (entries : Entries) : Option Entries :=
  if underDots == (origin == .dotted) then
    entries.alter key fun
      | none => some value
      | some _ => none
  else none

/-- Changes the table at the end of a path. Tables on the way that are not there yet are made as
`made`; dotted keys do not lead into tables with a header. -/
def within (made : Origin) (act : Origin → Entries → Option Entries) :
    (path : List String) → Origin → Entries → Option Entries
  | [], origin, entries => act origin entries
  | key :: rest, _, entries =>
    entries.alter key fun
      | none => (within made act rest made []).map (table made)
      | some (table .inline _) => none
      | some (table .header inner) =>
        if made = .dotted then none else (within made act rest .header inner).map (table .header)
      | some (table origin inner) => (within made act rest origin inner).map (table origin)
      | some (tables elements) =>
        match elements.getLast? with
        | some last =>
          (within made act rest .header last).map fun last =>
            tables (elements.dropLast ++ [last])
        | none => none
      | some _ => none

def set (path : List String) (key : String) (value : Toml) (origin : Origin)
    (entries : Entries) : Option Entries :=
  within .dotted (assign (!path.isEmpty) key value) path origin entries

def openTable (key : String) (_ : Origin) (entries : Entries) : Option Entries :=
  entries.alter key fun
    | none => some (table .header [])
    | some (table .implied inner) => some (table .header inner)
    | some _ => none

def openElement (key : String) (_ : Origin) (entries : Entries) : Option Entries :=
  entries.alter key fun
    | none => some (tables [[]])
    | some (tables elements) => some (tables (elements ++ [[]]))
    | some _ => none

/-- A line of a document: a dotted key with its value, or a header; the last part of the key
stands apart. -/
inductive Line
  | entry (path : List String) (key : String) (value : Toml)
  | header (path : List String) (key : String)
  | element (path : List String) (key : String)

/-- The entries of a document up to some line, and the path of the table that lines add to. -/
structure Progress where
  current : List String
  root : Entries

def Progress.add (p : Progress) : Line → Option Progress
  | .entry path key value =>
    (within .implied (set path key value) p.current .header p.root).map fun root =>
      { p with root := root }
  | .header path key =>
    (within .implied (openTable key) path .header p.root).map (Progress.mk (path ++ [key]))
  | .element path key =>
    (within .implied (openElement key) path .header p.root).map (Progress.mk (path ++ [key]))

def ofLines (lines : List Line) : Option Entries :=
  (lines.foldlM Progress.add ⟨[], []⟩).map (·.root)

end Toml

end BeanWiring
