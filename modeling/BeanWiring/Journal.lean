import BeanWiring.Resolution
import BeanWiring.BeanError

/-!
What a container tells about its work: events for a reader of its log, and every invocation of an
executable.
-/
namespace BeanWiring

/-- An executable invoked for a bean, on a factory bean if it is a method of an instance, with the
value it gave or the text it failed with. -/
structure Invocation where
  bean : String
  executable : Executable
  target : Option Value
  arguments : List Value
  result : Except String Value

/-- After an `overflow` the program is at its end; what is told later is of no account. -/
inductive Event
  | overriding (bean : String)
  | cachedSingleton (bean : String)
  | creating (bean : String)
  | resolvingReference (bean reference argumentName : String)
  | reusingArguments (bean : String) (executable : Executable)
  | replayingArguments (bean : String) (executable : Executable)
  | ignoringCandidate (bean noun : String) (candidate : Executable) (failure : Unsatisfied)
  | autowiring (bean dependency noun : String)
  | selected (bean noun : String) (executable : Executable) (weight : Int)
      (provenances : List Provenance)
  | suppressingCandidate (failure : Unsatisfied)
  | suppressed (error : BeanError)
  | overflow (bean : String)

namespace Event

inductive Level
  | debug | trace
  deriving DecidableEq, Repr

def Level.name : Level → String
  | .debug => "DEBUG"
  | .trace => "TRACE"

/-- Routine steps are traced, decisions and changes are for debugging. -/
def level : Event → Level
  | cachedSingleton _ | resolvingReference .. | reusingArguments .. | replayingArguments ..
  | ignoringCandidate .. => .trace
  | overriding _ | creating _ | autowiring .. | selected .. | suppressingCandidate _
  | suppressed _ | overflow _ => .debug

def message : Event → String
  | overriding _ => "Overriding bean definition"
  | cachedSingleton _ => "Returning cached instance of singleton bean"
  | creating _ => "Creating instance of bean"
  | resolvingReference _ _ argumentName => "Resolving reference for " ++ argumentName
  | reusingArguments .. => "Reusing resolved arguments"
  | replayingArguments .. => "Replaying prepared arguments"
  | ignoringCandidate _ noun candidate _ =>
    "Ignoring " ++ noun ++ " [" ++ candidate.signature ++ "]"
  | autowiring bean dependency noun =>
    "Autowiring by type from bean name '" ++ bean ++ "' via " ++ noun ++ " to bean named '" ++
      dependency ++ "'"
  | selected _ noun _ _ _ => "Selected " ++ noun
  | suppressingCandidate _ => "Suppressing candidate failure"
  | suppressed _ => "Suppressed bean creation error"
  | overflow _ => "Overflow of argument count"

def fields : Event → List (String × String)
  | overriding bean | cachedSingleton bean | creating bean | overflow bean => [("bean", bean)]
  | resolvingReference bean reference _ => [("bean", bean), ("reference", reference)]
  | reusingArguments bean executable | replayingArguments bean executable =>
    [("bean", bean), ("executable", executable.signature)]
  | ignoringCandidate bean _ candidate failure =>
    [("bean", bean), ("candidate", candidate.signature), ("error", failure.message)]
  | autowiring bean dependency _ => [("bean", bean), ("dependency", dependency)]
  | selected bean _ executable weight provenances =>
    [("bean", bean), ("executable", executable.signature), ("weight", toString weight),
      ("bindings", "[" ++ String.intercalate ", " (provenances.map Provenance.describe) ++ "]")]
  | suppressingCandidate failure => [("error", failure.message)]
  | suppressed error => [("error", error.message)]

end Event

end BeanWiring
