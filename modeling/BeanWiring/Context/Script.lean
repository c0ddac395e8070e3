import BeanWiring.Context.Ledger

/-!
Scripts that enter and leave contexts: creations and injection points around further steps, with
failures that are passed on or caught. A run keeps one ledger, writes it on the way in and strikes out
on the way out, and tells what was seen.
-/
namespace BeanWiring

namespace Context

/-- `attempt` goes on by whether its body failed, `consult` by what the ledger says. -/
inductive Step
  | create (bean : String) (body : List Step) (caught : Bool)
  | inject (point : InjectionPoint) (body : List Step)
  | attempt (body : List Step) (next : Option BeanError → List Step)
  | consult (next : Ledger → List Step)
  | fail (text : String)
  | query (bean : String)

structure Standing where
  depth : Nat
  inCreation : Bool
  point : Option InjectionPoint

inductive Observation
  | asked (standing : Standing)
  | entered (bean : String) (standing : Standing)
  | left (bean : String) (standing : Standing) (failure : Option BeanError)
  | ended (standing : Standing) (failure : Option BeanError)

structure Run where
  ledger : Ledger
  seen : List Observation
  failure : Option BeanError

end Context

def Ledger.standing (l : Ledger) (bean : String) : Context.Standing :=
  ⟨l.depth, l.isInCreation bean, l.currentPoint?⟩

namespace Context

mutual

def Step.run : Step → Ledger → Run
  | .create bean body caught, l =>
    match l.begin bean with
    | .error e => ⟨l, [.left bean (l.standing bean) (some e)], if caught then none else some e⟩
    | .ok inside =>
      let run := runSteps body inside
      let after := run.ledger.finish bean
      { ledger := after
        seen := .entered bean (inside.standing bean) ::
          (run.seen ++ [.left bean (after.standing bean) run.failure])
        failure := if caught then none else run.failure }
  | .inject point body, l =>
    let run := runSteps body (l.push point)
    { run with ledger := run.ledger.pop }
  | .attempt body next, l =>
    let run := runSteps body l
    let others := runSteps (next run.failure) run.ledger
    { others with seen := run.seen ++ others.seen }
  | .consult next, l => runSteps (next l) l
  | .fail text, l => ⟨l, [], some (.illegalState text)⟩
  | .query bean, l => ⟨l, [.asked (l.standing bean)], none⟩

def runSteps : List Step → Ledger → Run
  | [], l => ⟨l, [], none⟩
  | step :: rest, l =>
    let first := step.run l
    match first.failure with
    | some e => { first with failure := some e }
    | none =>
      let others := runSteps rest first.ledger
      { others with seen := first.seen ++ others.seen }

end

def observe (maxDepth : Nat) (script : List Step) : List Observation :=
  let run := runSteps script (Ledger.new maxDepth)
  run.seen ++ [.ended (run.ledger.standing "") run.failure]

end Context

end BeanWiring
