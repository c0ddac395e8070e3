import BeanWiring.Container.Requests

/-!
Runs of a container: one request after the other, each answered whether it succeeds or not.
-/
namespace BeanWiring

/-- What a container can be asked to do. A definition with the serial number of one that is built
is that one: it can be registered again, under several names, and inside other definitions. -/
inductive Request
  | build (d : Definition)
  | define (name : String) (d : Definition)
  | registerClass (beanClass : BeanClass)
  | registerSingleton (name : String) (value : Value)
  | setProperty (key value : String)
  | registerDependent (dependency dependent : String)
  | bean (name : String) (explicit : Option (List Value))
  | beanOfType (type : BeanType)
  | lookup (start : Outset) (name : String) (point : InjectionPoint) (required : Bool)
  | isTypeMatch (name : String) (type : BeanType)
  | introspect (name : String)
  | clearResolution (name : String)

inductive Answer
  | done
  | bean (result : Except BeanError Value)
  | lookup (result : Except BeanError Lookup)
  | truth (holds : Bool)
  | method (found : Option Executable)

namespace Request

def withDefinition (name : String) (work : Definition → Work Answer) : Work Answer := do
  match (← get).definitions.get? name with
  | some d => work d
  | none => pure .done

def perform : Request → Work Answer
  | .build d => do let _ ← Work.enroll d; return .done
  | .define name d => do Work.define name d; return .done
  | .registerClass beanClass => do Work.registerClass beanClass; return .done
  | .registerSingleton name value => do Work.registerSingleton name value; return .done
  | .setProperty key value => do Work.setProperty key value; return .done
  | .registerDependent dependency dependent => do
    Work.registerDependent dependency dependent
    return .done
  | .bean name explicit => return .bean (← (Attempt.bean name explicit).run)
  | .beanOfType type => return .bean (← (Attempt.beanOfType type).run)
  | .lookup start name point required =>
    return .lookup (← (Attempt.dependency start name point required).run)
  | .isTypeMatch name type => return .truth (← Work.isTypeMatch name type)
  | .introspect name => withDefinition name fun d => return .method (← Work.introspect d)
  | .clearResolution name => withDefinition name fun d => do Work.clearResolution d; return .done

def performAll : List Request → Work (List Answer)
  | [] => pure []
  | request :: rest => return (← request.perform) :: (← performAll rest)

end Request

end BeanWiring
