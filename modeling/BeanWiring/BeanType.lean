/-!
Run-time types of beans, parameters and values: classes and interfaces with what they declare
above themselves, primitives, arrays, collections, maps and `void`. Two types are the same when
they have the same form and the same erased name: element types of collections and maps are
informational, those of arrays are not.
-/
namespace BeanWiring

inductive PrimitiveKind
  | int | long | double | boolean
  deriving DecidableEq, Repr

def PrimitiveKind.name : PrimitiveKind → String
  | .int => "int"
  | .long => "long"
  | .double => "double"
  | .boolean => "boolean"

inductive CollectionKind
  | collection | list | set
  deriving DecidableEq, Repr

namespace CollectionKind

def name : CollectionKind → String
  | .collection => "Collection"
  | .list => "List"
  | .set => "Set"

/-- A collection of unspecified kind takes every kind, the others only their own. -/
def accepts (self other : CollectionKind) : Bool :=
  self == .collection || self == other

end CollectionKind

/-- A type. `object` is the class every other class descends from; every declared class has a
superclass, an interface only parents. -/
inductive BeanType
  | object
  | declaredClass (name : String) (superclass : BeanType) (interfaces : List BeanType)
  | declaredInterface (name : String) (parents : List BeanType)
  | primitive (kind : PrimitiveKind)
  | array (element : BeanType)
  | collection (kind : CollectionKind) (element : BeanType)
  | map (key value : BeanType)
  | void
  deriving Repr

namespace BeanType

inductive Form
  | ofClass | ofInterface | ofPrimitive | ofArray | ofCollection | ofMap | ofVoid
  deriving DecidableEq, Repr

def form : BeanType → Form
  | .object | .declaredClass .. => .ofClass
  | .declaredInterface .. => .ofInterface
  | .primitive _ => .ofPrimitive
  | .array _ => .ofArray
  | .collection .. => .ofCollection
  | .map .. => .ofMap
  | .void => .ofVoid

def name : BeanType → String
  | .object => "Object"
  | .declaredClass name _ _ | .declaredInterface name _ => name
  | .primitive kind => kind.name
  | .array element => element.name ++ "[]"
  | .collection kind element => kind.name ++ "<" ++ element.name ++ ">"
  | .map key value => "Map<" ++ key.name ++ ", " ++ value.name ++ ">"
  | .void => "void"

/-- The name without the element types of collections and maps. -/
def erasure : BeanType → String
  | .array element => element.erasure ++ "[]"
  | .collection kind _ => kind.name
  | .map .. => "Map"
  | type => type.name

instance : BEq BeanType := ⟨fun a b => a.form == b.form && a.erasure == b.erasure⟩

def afterLastDot (text : String) : String :=
  String.ofList (text.toList.reverse.takeWhile (· != '.')).reverse

def simpleName (type : BeanType) : String :=
  match type.form with
  | .ofClass | .ofInterface => afterLastDot type.name
  | _ => type.name

def plainClass (name : String) : BeanType := .declaredClass name .object []

def number : BeanType := plainClass "Number"
def string : BeanType := plainClass "String"
def injectionPoint : BeanType := plainClass "InjectionPoint"
def int : BeanType := .primitive .int
def long : BeanType := .primitive .long
def double : BeanType := .primitive .double
def boolean : BeanType := .primitive .boolean

/-- The type directly above: numeric primitives stand below `number`, `boolean` and all
containers below `object`. -/
def superclass? : BeanType → Option BeanType
  | .object | .void | .declaredInterface .. => none
  | .declaredClass _ superclass _ => some superclass
  | .primitive .boolean => some .object
  | .primitive _ => some number
  | .array _ | .collection .. | .map .. => some .object

def interfaces : BeanType → List BeanType
  | .declaredClass _ _ interfaces => interfaces
  | .declaredInterface _ parents => parents
  | _ => []

def lineage : BeanType → List BeanType
  | .object | .void | .declaredInterface .. => []
  | .declaredClass _ superclass _ => superclass :: superclass.lineage
  | .primitive .boolean => [.object]
  | .primitive _ => [number, .object]
  | .array _ | .collection .. | .map .. => [.object]

mutual

/-- Every type above, through superclasses and interfaces, in the order they are declared. -/
def ancestors : BeanType → List BeanType
  | .declaredClass _ superclass interfaces =>
      superclass :: (superclass.ancestors ++ ancestorsOfAll interfaces)
  | .declaredInterface _ parents => ancestorsOfAll parents
  | .primitive .boolean => [.object]
  | .primitive _ => [number, .object]
  | .array _ | .collection .. | .map .. => [.object]
  | .object | .void => []

def ancestorsOfAll : List BeanType → List BeanType
  | [] => []
  | type :: rest => type :: (type.ancestors ++ ancestorsOfAll rest)

end

/-- Whether the type is abstract: an interface, a collection or a map. -/
def isInterface (type : BeanType) : Bool :=
  match type.form with
  | .ofInterface | .ofCollection | .ofMap => true
  | _ => false

def isPrimitive (type : BeanType) : Bool := type.form == .ofPrimitive

def isVoid (type : BeanType) : Bool := type.form == .ofVoid

def isObject : BeanType → Bool
  | .object => true
  | _ => false

def isContainer (type : BeanType) : Bool :=
  match type.form with
  | .ofArray | .ofCollection | .ofMap => true
  | _ => false

def element? : BeanType → Option BeanType
  | .array element | .collection _ element => some element
  | .map _ value => some value
  | _ => none

/-- Whether a type hint names this type: in full, without package or without element types. -/
def matchesName (type : BeanType) (hint : String) : Bool :=
  hint == type.name || hint == type.simpleName || hint == type.erasure

end BeanType

end BeanWiring
