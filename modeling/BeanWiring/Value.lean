import BeanWiring.BeanType.Assignability
import BeanWiring.InjectionPoint

/-!
Dynamically typed values. Scalars and containers are what they hold; an object is a type and an
identity, and two objects are equal when their identities are.
-/
namespace BeanWiring

/-- Who an object is: one a caller knows by name, or the `n`-th made while beans were created. -/
inductive Identity
  | named (id : String)
  | made (n : Nat)
  deriving DecidableEq, Repr

inductive Value
  | null
  | bool (b : Bool)
  | int (n : Int32)
  | long (n : Int64)
  | double (x : Float)
  | str (s : String)
  | list (items : List Value)
  | set (items : List Value)
  | map (entries : List (Value × Value))
  | array (element : BeanType) (items : List Value)
  | object (type : BeanType) (identity : Identity)
  | point (here : InjectionPoint)

namespace Value

/-- The type of a value; `null` has none. The items of lists, sets and maps do not count. -/
def runtimeType : Value → Option BeanType
  | null => none
  | bool _ => some .boolean
  | int _ => some .int
  | long _ => some .long
  | double _ => some .double
  | str _ => some .string
  | list _ => some (.collection .list .object)
  | set _ => some (.collection .set .object)
  | map _ => some (.map .object .object)
  | array element _ => some (.array element)
  | object type _ => some type
  | point _ => some .injectionPoint

def typeDescription (value : Value) : String :=
  match value.runtimeType with
  | some type => type.simpleName
  | none => "null"

def isNull : Value → Bool
  | null => true
  | _ => false

def isObject : Value → Bool
  | object .. | point _ => true
  | _ => false

def string? : Value → Option String
  | str s => some s
  | _ => none

def items? : Value → Option (List Value)
  | list items | set items | array _ items => some items
  | _ => none

mutual

/-- Equality as a program sees it: not a number differs from itself, lists differ from sets, and
arrays need the same element type. -/
def same : Value → Value → Bool
  | null, null => true
  | bool a, bool b => a == b
  | int a, int b => a == b
  | long a, long b => a == b
  | double a, double b => a == b
  | str a, str b => a == b
  | list as, list bs | set as, set bs => sameItems as bs
  | map as, map bs => sameEntries as bs
  | array a as, array b bs => a == b && sameItems as bs
  | object _ a, object _ b => a == b
  | point a, point b => a == b
  | _, _ => false

def sameItems : List Value → List Value → Bool
  | [], [] => true
  | a :: as, b :: bs => a.same b && sameItems as bs
  | _, _ => false

def sameEntries : List (Value × Value) → List (Value × Value) → Bool
  | [], [] => true
  | (k, v) :: as, (l, w) :: bs => k.same l && v.same w && sameEntries as bs
  | _, _ => false

end

instance : BEq Value := ⟨same⟩

end Value

/-- Whether a value can be passed where the type is expected. `null` fits everything but
primitives and `void`. -/
def BeanType.fits (type : BeanType) (value : Value) : Bool :=
  match value.runtimeType with
  | some valueType => type.accepts valueType
  | none => !type.isPrimitive && !type.isVoid

def BeanType.emptyValue? : BeanType → Option Value
  | .array element => some (.array element [])
  | .collection .set _ => some (.set [])
  | .collection .. => some (.list [])
  | .map .. => some (.map [])
  | _ => none

end BeanWiring
