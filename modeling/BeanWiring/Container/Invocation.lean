import BeanWiring.Container

/-!
Invoking executables. An invocation is recorded with what it came to, even if its result is then
refused.
-/
namespace BeanWiring.Work

def perform (e : Executable) (arguments : List Value) : Work (Except String Value) :=
  match e.effect with
  | .fails text => pure (.error text)
  | .gives value => pure (.ok value)
  | .givesArgument position =>
    match arguments[position]? with
    | some value => pure (.ok value)
    | none => pure (.error "no such argument")
  | .makes type => Except.ok <$> makeObject type

def invoke (bean : String) (e : Executable) (target : Option Value) (arguments : List Value) :
    Work (Except String Value) := do
  let result ← perform e arguments
  modify fun c =>
    { c with invocations := c.invocations ++ [⟨bean, e, target, arguments, result⟩] }
  pure result

/-- Creates a bean by an executable. The arguments must be as many as its parameters, a method of
an instance needs a factory bean, and a method must not give `null`. -/
def instantiate (bean : String) (e : Executable) (factoryBean : Option Value)
    (arguments : List Value) : Work (Except String Value) :=
  if arguments.length ≠ e.arity then
    pure (.error (e.signature ++ " expects " ++ toString e.arity ++ " arguments but " ++
      toString arguments.length ++ " were supplied"))
  else if !e.isConstructor && !e.isStatic && factoryBean.isNone then
    pure (.error (e.signature ++ " needs a factory bean instance to be invoked on"))
  else do
    match ← invoke bean e factoryBean arguments with
    | .error text => pure (.error text)
    | .ok value =>
      if !e.isConstructor && value.isNull then
        pure (.error
          ("factory method " ++ e.signature ++ " returned null for bean '" ++ bean ++ "'"))
      else pure (.ok value)

end BeanWiring.Work
