import BeanWiring.Conversion

/-!
What can go wrong when beans are created. Each error carries its causes; its text, and what a
chain of errors goes back to, are computed from them.
-/
namespace BeanWiring

mutual

inductive BeanError
  | unsatisfied (failure : Unsatisfied)
  | noMatchingExecutable (bean message : String)
  | ambiguousMatch (bean noun className : String) (candidates : List String)
  | invalidFactoryMethod (bean method className : String)
  | invalidDefinition (bean message : String)
  | introspection (bean noun className message : String)
  | instantiation (bean message : String) (source : Fault)
  | noSuchBean (requiredType reason : String)
  | noSuchBeanNamed (name : String)
  | noUniqueBean (requiredType : String) (candidates : List String)
  | typeMismatch (mismatch : TypeMismatch)
  | circular (bean path : String)
  | tooDeep (limit : Nat)
  | illegalState (text : String)
  | overflow

/-- A dependency of a bean that could not be satisfied at an injection point: for a reason given
in words, or because a lookup failed. -/
inductive Unsatisfied
  | because (bean : String) (point : InjectionPoint) (message : String)
  | causedBy (bean : String) (point : InjectionPoint) (cause : BeanError)

inductive Fault
  | plain (text : String)
  | nested (error : BeanError)

end

def BeanError.opening (bean : String) : String := "Error creating bean with name '" ++ bean ++ "': "

def Unsatisfied.opening (bean : String) (point : InjectionPoint) : String :=
  BeanError.opening bean ++ "Unsatisfied dependency expressed through " ++ point.text ++ ": "

mutual

def BeanError.message : BeanError → String
  | .unsatisfied failure => failure.message
  | .noMatchingExecutable bean message => BeanError.opening bean ++ message
  | .ambiguousMatch bean noun className candidates =>
    BeanError.opening bean ++ "Ambiguous " ++ noun ++ " matches found on bean class [" ++
      className ++ "] (hint: specify index/type/name arguments for simple parameters to avoid type " ++
      "ambiguities): " ++ String.intercalate ", " candidates
  | .invalidFactoryMethod bean method className =>
    BeanError.opening bean ++ "Invalid factory method '" ++ method ++ "' on class [" ++ className ++
      "]: needs to have a non-void return type!"
  | .invalidDefinition bean message =>
    "Invalid bean definition with name '" ++ bean ++ "': " ++ message
  | .introspection bean noun className message =>
    BeanError.opening bean ++ "Resolution of declared " ++ noun ++ "s on bean class [" ++
      className ++ "] failed: " ++ message
  | .instantiation bean message _ => BeanError.opening bean ++ message
  | .noSuchBean requiredType reason =>
    "No qualifying bean of type '" ++ requiredType ++ "' available: " ++ reason
  | .noSuchBeanNamed name => "No bean named '" ++ name ++ "' available"
  | .noUniqueBean requiredType candidates =>
    "No qualifying bean of type '" ++ requiredType ++
      "' available: expected single matching bean but found " ++ toString candidates.length ++
      ": " ++ String.intercalate "," candidates
  | .typeMismatch mismatch => mismatch.text
  | .circular bean path =>
    BeanError.opening bean ++ "Requested bean is currently in creation: " ++ path
  | .tooDeep limit => "Maximum resolution depth " ++ toString limit ++ " exceeded"
  | .illegalState text => text
  | .overflow => "attempt to add with overflow"

def Unsatisfied.message : Unsatisfied → String
  | .because bean point message => Unsatisfied.opening bean point ++ message
  | .causedBy bean point cause => Unsatisfied.opening bean point ++ cause.message

end

def Fault.message : Fault → String
  | .plain text => text
  | .nested error => error.message

namespace Unsatisfied

def bean : Unsatisfied → String
  | because bean _ _ | causedBy bean _ _ => bean

def point : Unsatisfied → InjectionPoint
  | because _ point _ | causedBy _ point _ => point

def cause? : Unsatisfied → Option BeanError
  | because .. => none
  | causedBy _ _ cause => some cause

end Unsatisfied

mutual

/-- Whether the chain of unsatisfied dependencies ends in several beans to choose from. -/
def BeanError.endsInChoice : BeanError → Bool
  | .noUniqueBean .. => true
  | .unsatisfied failure => failure.endsInChoice
  | _ => false

def Unsatisfied.endsInChoice : Unsatisfied → Bool
  | .because .. => false
  | .causedBy _ _ cause => cause.endsInChoice

end

mutual

/-- The text of the innermost source, of the error itself if it has none. -/
def BeanError.rootText : BeanError → String
  | .unsatisfied failure => failure.rootText
  | .instantiation _ _ source => source.rootText
  | error => error.message

def Unsatisfied.rootText : Unsatisfied → String
  | .because bean point message => (Unsatisfied.because bean point message).message
  | .causedBy _ _ cause => cause.rootText

def Fault.rootText : Fault → String
  | .plain text => text
  | .nested error => error.rootText

end

def BeanError.isNoSuchBean : BeanError → Bool
  | .noSuchBean .. => true
  | _ => false

def BeanError.isNoUniqueBean : BeanError → Bool
  | .noUniqueBean .. => true
  | _ => false

end BeanWiring
