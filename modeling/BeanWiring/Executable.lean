import BeanWiring.Text.Quoted
import BeanWiring.Value

/-!
Constructors and factory methods, and the classes that list them. What an executable does when it
is invoked is data: it fails, gives a value it was built with or one of its arguments, or makes a
new object.
-/
namespace BeanWiring

structure Parameter where
  type : BeanType
  name : Option String
  deriving Repr

inductive Effect
  | fails (text : String)
  | gives (value : Value)
  | givesArgument (position : Nat)
  | makes (type : BeanType)

inductive Executable.Kind
  | constructor
  | method (name : String) (isStatic : Bool) (returns : BeanType)
  deriving BEq, Repr

/-- `label` is a caller's own mark, carried along into the records of invocations. -/
structure Executable where
  declaring : BeanType
  kind : Executable.Kind
  isPublic : Bool
  parameters : List Parameter
  effect : Effect
  label : Option String

namespace Executable

def isConstructor (e : Executable) : Bool :=
  match e.kind with
  | .constructor => true
  | .method .. => false

def isStatic (e : Executable) : Bool :=
  match e.kind with
  | .constructor => false
  | .method _ isStatic _ => isStatic

def methodName? (e : Executable) : Option String :=
  match e.kind with
  | .constructor => none
  | .method name _ _ => some name

def returnType (e : Executable) : BeanType :=
  match e.kind with
  | .constructor => e.declaring
  | .method _ _ returns => returns

def arity (e : Executable) : Nat := e.parameters.length

def parameterTypes (e : Executable) : List BeanType := e.parameters.map (·.type)

def sameParameterTypes (e f : Executable) : Bool := e.parameterTypes == f.parameterTypes

/-- The simple names of the declaring type and the parameter types, with the method's name. -/
def signature (e : Executable) : String :=
  let method :=
    match e.kind with
    | .constructor => ""
    | .method name _ _ => "." ++ name
  e.declaring.simpleName ++ method ++ "(" ++
    String.intercalate ", " (e.parameterTypes.map BeanType.simpleName) ++ ")"

def noun (e : Executable) : String :=
  if e.isConstructor then "constructor" else "factory method"

def injectionPoint (e : Executable) (bean : String) (index : Nat) (parameter : Parameter) :
    InjectionPoint :=
  ⟨bean, e.signature, index, parameter.type, parameter.name⟩

def visibilityText (e : Executable) : String := if e.isPublic then "Public" else "NonPublic"

def Kind.describe : Kind → String
  | .constructor => "Constructor"
  | .method name isStatic returns =>
    "FactoryMethod \x7b name: " ++ Text.quote name ++ ", is_static: " ++
      (if isStatic then "true" else "false") ++ ", return_type: BeanType(" ++ returns.name ++
      ") \x7d"

def describe (e : Executable) : String :=
  "Executable \x7b signature: " ++ Text.quote e.signature ++ ", visibility: " ++ e.visibilityText ++
    ", kind: " ++ e.kind.describe ++ ", .. \x7d"

end Executable

structure BeanClass where
  type : BeanType
  constructors : List Executable
  methods : List Executable

namespace BeanClass

def name (c : BeanClass) : String := c.type.name

def defaultConstructor? (c : BeanClass) : Option Executable :=
  c.constructors.find? fun e => e.arity == 0

/-- The one constructor of a class that declares no other, if it takes parameters. -/
def soleConstructor? (c : BeanClass) : Option Executable :=
  match c.constructors with
  | [only] => if 0 < only.arity then some only else none
  | _ => none

end BeanClass

end BeanWiring
