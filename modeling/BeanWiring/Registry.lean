/-!
Tables in the order in which their keys were first entered. Replacing an entry keeps its place;
removing one and entering it again puts it last.
-/
namespace BeanWiring

structure Registry (κ α : Type) where
  entries : List (κ × α)

namespace Registry
variable {κ α : Type} [DecidableEq κ]

def empty : Registry κ α := ⟨[]⟩

def keys (r : Registry κ α) : List κ := r.entries.map (·.1)

def lookup (key : κ) : List (κ × α) → Option α
  | [] => none
  | (k, a) :: rest => if k = key then some a else lookup key rest

def get? (r : Registry κ α) (key : κ) : Option α := lookup key r.entries

def contains (r : Registry κ α) (key : κ) : Bool := (r.get? key).isSome

def put (key : κ) (value : α) : List (κ × α) → List (κ × α)
  | [] => [(key, value)]
  | (k, a) :: rest => if k = key then (k, value) :: rest else (k, a) :: put key value rest

def insert (r : Registry κ α) (key : κ) (value : α) : Registry κ α := ⟨put key value r.entries⟩

def erase (r : Registry κ α) (key : κ) : Registry κ α := ⟨r.entries.filter fun e => e.1 ≠ key⟩

end Registry

end BeanWiring
