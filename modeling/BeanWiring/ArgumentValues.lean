import BeanWiring.Value

/-!
Argument values in holders: some for the parameter with a given index, the others for any
parameter. A holder may ask for a parameter type or name; one that asks for neither is taken for
every parameter its value fits.
-/
namespace BeanWiring

/-- A value with the parameter type and name it asks for. A holder with a `converted` value is
bound to that value and never converted again. -/
structure Holder (V : Type) where
  value : V
  typeName : Option String
  name : Option String
  converted : Option Value

class HolderValue (V : Type) where
  fits : BeanType → V → Bool

namespace Holder
variable {V : Type}

def isConverted (h : Holder V) : Bool := h.converted.isSome

def allowsType (h : Holder V) (required : Option BeanType) : Bool :=
  match h.typeName with
  | none => true
  | some typeName => required.any (·.matchesName typeName)

/-- Whether the required name, if any, is the one the holder asks for. The empty name stands for
one that is not known. -/
def allowsName (h : Holder V) (required : Option String) : Bool :=
  match h.name with
  | none => true
  | some name => required.any fun r => r.isEmpty || r == name

def isPlain (h : Holder V) : Bool := h.typeName.isNone && h.name.isNone

def withValue {W : Type} (h : Holder V) (value : W) : Holder W :=
  ⟨value, h.typeName, h.name, h.converted⟩

end Holder

inductive HolderSlot
  | indexed (index : UInt64)
  | generic (position : Nat)
  deriving DecidableEq, Repr

/-- Values for given parameters, in the order of their indexes, and values for any parameter. -/
structure ArgumentValues (V : Type) where
  indexed : List (UInt64 × Holder V)
  generic : List (Holder V)

namespace ArgumentValues
variable {V : Type}

def empty : ArgumentValues V := ⟨[], []⟩

def insertIndexed (index : UInt64) (h : Holder V) :
    List (UInt64 × Holder V) → List (UInt64 × Holder V)
  | [] => [(index, h)]
  | (i, g) :: rest =>
    if index < i then (index, h) :: (i, g) :: rest
    else if index = i then (index, h) :: rest
    else (i, g) :: insertIndexed index h rest

def addIndexed (values : ArgumentValues V) (index : UInt64) (h : Holder V) : ArgumentValues V :=
  { values with indexed := insertIndexed index h values.indexed }

def addGeneric (values : ArgumentValues V) (h : Holder V) : ArgumentValues V :=
  { values with generic := values.generic ++ [h] }

def count (values : ArgumentValues V) : Nat := values.indexed.length + values.generic.length

def isEmpty (values : ArgumentValues V) : Bool := values.count == 0

/-- The fewest parameters that have room for the values: one for each, and enough for the highest
index. Indexes are 64-bit words: there is no number of parameters with room for the greatest. -/
def minCount? (values : ArgumentValues V) : Option Nat :=
  match values.indexed.getLast? with
  | none => some values.count
  | some (highest, _) =>
    if highest.toNat + 1 < UInt64.size then some (max values.count (highest.toNat + 1)) else none

def indexed? (values : ArgumentValues V) (index : Nat) (type : Option BeanType)
    (name : Option String) : Option (HolderSlot × Holder V) :=
  match values.indexed.find? fun (i, _) => i.toNat == index with
  | none => none
  | some (i, h) => if h.allowsType type && h.allowsName name then some (.indexed i, h) else none

variable [HolderValue V]

def accepted (h : Holder V) (type : Option BeanType) (name : Option String) : Bool :=
  h.allowsName name && h.allowsType type &&
    match type with
    | some type => !h.isPlain || HolderValue.fits type h.value
    | none => true

/-- The first unused holder that can be bound, the first of them standing at `position`. -/
def genericFrom? (type : Option BeanType) (name : Option String) (used : List HolderSlot) :
    (position : Nat) → List (Holder V) → Option (HolderSlot × Holder V)
  | _, [] => none
  | position, h :: rest =>
    if !used.contains (.generic position) && accepted h type name then
      some (.generic position, h)
    else genericFrom? type name used (position + 1) rest

def generic? (values : ArgumentValues V) (type : Option BeanType) (name : Option String)
    (used : List HolderSlot) : Option (HolderSlot × Holder V) :=
  genericFrom? type name used 0 values.generic

def find? (values : ArgumentValues V) (index : Nat) (type : BeanType) (name : Option String)
    (used : List HolderSlot) : Option (HolderSlot × Holder V) :=
  match values.indexed? index (some type) name with
  | some found => some found
  | none => values.generic? (some type) name used

end ArgumentValues

end BeanWiring
