import BeanWiring.Proofs.Literal
import BeanWiring.Proofs.Settled.Arguments

/-!
Binding parameters of the one bean that need not be there. A binding is the same in all containers
alike, and what is kept of one leads to the same arguments when it is replayed.
-/
namespace BeanWiring

variable {c₀ c c' : Container} {bean : String} {create : Creator} {ctx : Context}
  {autowiring fallback : Bool} {e : Executable} {values : ArgumentValues ResolvedValue}

def Executable.TakesNoPoint (e : Executable) : Prop :=
  ∀ p ∈ e.parameters, BeanType.injectionPoint.accepts p.type = false

def Progress.wired (p : Progress) (bean : String) (point : InjectionPoint) :
    Except BeanError Autowired → Except Unsatisfied Progress
  | .ok found => .ok { p with
      bound := p.bound ++ [⟨found.value, found.value, .autowired, found.provenance⟩]
      names := Graph.distinct (p.names ++ found.names) }
  | .error e => .error (.causedBy bean point e)

namespace Work

/-- Wherever the request stands and whatever creates beans, binding comes to the same in all
containers like `c₀`. To allow empty containers can only turn a failure into a match. -/
def IsSteady {α : Type} (c₀ : Container) (bean : String) (autowiring : Bool)
    (bind : Setting → ExceptT Unsatisfied Work α) : Prop :=
  ∃ r : Bool → Except Unsatisfied α, (∀ fallback a, r fallback = .ok a → r true = .ok a) ∧
    ∀ create ctx fallback, Attempt.Gives c₀
      (bind ⟨Attempt.fetcher create, ctx, bean, autowiring, fallback⟩) (r fallback)

namespace IsSteady

variable {α β : Type}

theorem of_gives {x : Setting → ExceptT Unsatisfied Work α} {r : Except Unsatisfied α}
    (gives : ∀ create ctx fallback, Attempt.Gives c₀
      (x ⟨Attempt.fetcher create, ctx, bean, autowiring, fallback⟩) r) :
    IsSteady c₀ bean autowiring x :=
  ⟨fun _ => r, fun _ _ same => same, gives⟩

theorem bind {x : Setting → ExceptT Unsatisfied Work α}
    {f : Setting → α → ExceptT Unsatisfied Work β} (first : IsSteady c₀ bean autowiring x)
    (rest : ∀ a, IsSteady c₀ bean autowiring fun s => f s a) :
    IsSteady c₀ bean autowiring fun s => x s >>= f s := by
  obtain ⟨r, opens, gives⟩ := first
  choose later opens' gives' using rest
  refine ⟨fun fallback => (r fallback).bind fun a => later a fallback, ?_, ?_⟩
  · intro fallback b same
    cases start : r fallback with
    | error failure => simp [start, Except.bind] at same
    | ok a =>
      simp only [start, Except.bind] at same
      simp only [opens fallback a start, Except.bind, opens' a fallback b same]
  · intro create ctx fallback
    have started := gives create ctx fallback
    dsimp only
    cases start : r fallback with
    | error failure =>
      rw [start] at started
      exact started.bind_error
    | ok a =>
      rw [start] at started
      exact started.bind (gives' a create ctx fallback)

end IsSteady

theorem bindParameter_isSteady (settled : c₀.Settled bean) {parameter : Parameter}
    (ordinary : BeanType.injectionPoint.accepts parameter.type = false) (autowiring : Bool)
    (e : Executable) (values : ArgumentValues ResolvedValue) (index : Nat) (p : Progress) :
    IsSteady c₀ bean autowiring fun s => bindParameter s e values index parameter p := by
  let point := e.injectionPoint bean index parameter
  unfold bindParameter
  cases taken : values.forParameter? autowiring e.arity index parameter p.used with
  | some chosen =>
    obtain ⟨slot, h⟩ := chosen
    have held : IsSteady c₀ bean autowiring fun _ => (liftM (Binding.ofHolder slot h bean point) :
        ExceptT Unsatisfied Work BoundArgument) := .of_gives fun _ _ _ => .liftM _
    have bound (b : BoundArgument) : IsSteady c₀ bean autowiring fun _ => (pure { p with
        used := slot :: p.used, bound := p.bound ++ [b] } : ExceptT Unsatisfied Work Progress) :=
      .of_gives fun _ _ _ => .pure _
    obtain ⟨r, opens, gives⟩ := held.bind bound
    refine ⟨r, opens, fun create ctx fallback => ?_⟩
    simp only [taken]
    exact gives create ctx fallback
  | none =>
    cases autowiring with
    | false =>
      simp only [IsSteady, taken]
      exact ⟨fun _ => .error _, nofun, fun _ _ _ => .throw _⟩
    | true =>
      -- The lookup gives the same with and without fallback; only what is made of a failure
      -- differs.
      obtain ⟨lookup, -, found⟩ := autowire_gives settled point ordinary
      refine ⟨fun fallback => p.wired bean point (lookup.autowired point.type fallback),
        fun fallback q same => ?_, fun create ctx fallback => ?_⟩
      · dsimp only at same ⊢
        cases wired : lookup.autowired point.type fallback with
        | error e =>
          rw [wired] at same
          cases same
        | ok found =>
          rw [wired] at same
          rw [Lookup.autowired_true_of_ok wired]
          exact same
      · simp only [taken]
        refine .bind (.lift (found create ctx fallback)) ?_
        cases wired : lookup.autowired point.type fallback with
        | error e => exact .throw _
        | ok found => exact .pure _

theorem bindFrom_isSteady (settled : c₀.Settled bean) {parameters : List Parameter}
    (ordinary : ∀ p ∈ parameters, BeanType.injectionPoint.accepts p.type = false)
    (autowiring : Bool) (e : Executable) (values : ArgumentValues ResolvedValue) (index : Nat)
    (p : Progress) :
    IsSteady c₀ bean autowiring fun s => bindFrom s e values index parameters p := by
  induction parameters generalizing index p with
  | nil => exact .of_gives fun _ _ _ => .pure p
  | cons parameter rest ih =>
    have first := ordinary parameter List.mem_cons_self
    refine (bindParameter_isSteady settled first autowiring e values index p).bind fun q => ?_
    exact ih (fun q member => ordinary q (List.mem_cons_of_mem _ member)) (index + 1) q

theorem registerAutowired_gives (bean noun : String) (names : List String) :
    Gives c₀ (registerAutowired bean noun names) () := by
  induction names with
  | nil => exact .pure ()
  | cons name rest ih => exact (Gives.registerDependent _ _).bind ((Gives.emit _).bind ih)

theorem bindDeclared_isSteady (settled : c₀.Settled bean) (ordinary : e.TakesNoPoint)
    (autowiring : Bool) (values : ArgumentValues ResolvedValue) :
    IsSteady c₀ bean autowiring fun s => bindDeclared s e values := by
  refine (bindFrom_isSteady settled ordinary autowiring e values 0 _).bind fun p => ?_
  exact .of_gives fun _ _ _ => (Attempt.Gives.lift (registerAutowired_gives _ _ _)).bind (.pure _)

end Work

end BeanWiring
