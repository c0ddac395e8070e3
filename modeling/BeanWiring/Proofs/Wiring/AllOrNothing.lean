import BeanWiring.Container.Runs
import BeanWiring.Proofs.Wiring.Creation

/-!
What matching does to the dependencies of the bean in creation. The beans that parameters are autowired
with are fetched while the parameters are bound, and may be created for it; none of that wires the bean
in creation. Only when every parameter is bound is it wired, with the beans that were returned.
-/
namespace BeanWiring

/-- What a parameter of a type is autowired with: it comes from the beans named, and from none where it
is an empty container in their place or an injection point. -/
structure Autowired.Returned (found : Autowired) (c : Container) (type : BeanType) : Prop where
  supplies : c.Supplies type found.names found.value
  fallback : found.provenance = .autowiredEmpty → found.names = []
  point : BeanType.injectionPoint.accepts type = true → found.names = []

/-- How the parameters from `index` on are bound to holders and to what is found in the container, with
the beans returned for those that are autowired. -/
inductive Work.Draws (s : Setting) (e : Executable) :
    (index : Nat) → List Parameter → List (Option (HolderSlot × Holder ResolvedValue)) →
      Container → Binding → List String → Container → Prop
  | nil {index : Nat} {c : Container} : Draws s e index [] [] c [] [] c
  | declared {index : Nat} {parameter : Parameter} {rest : List Parameter} {slot : HolderSlot}
      {h : Holder ResolvedValue} {taken : List (Option (HolderSlot × Holder ResolvedValue))}
      {c c' : Container} {a : BoundArgument} {b : Binding} {names : List String} :
      Binding.ofHolder slot h s.bean (e.injectionPoint s.bean index parameter) = .ok a →
      Draws s e (index + 1) rest taken c b names c' →
      Draws s e index (parameter :: rest) (some (slot, h) :: taken) c (a :: b) names c'
  | autowired {index : Nat} {parameter : Parameter} {rest : List Parameter}
      {taken : List (Option (HolderSlot × Holder ResolvedValue))} {c m c' : Container}
      {found : Autowired} {b : Binding} {names : List String} :
      (autowire s.fetch s.context s.bean (e.injectionPoint s.bean index parameter)
        s.fallback).run.run c = (.ok found, m) →
      found.Returned m parameter.type →
      Draws s e (index + 1) rest taken m b names c' →
      Draws s e index (parameter :: rest) (none :: taken) c
        (⟨found.value, found.value, .autowired, found.provenance⟩ :: b) (found.names ++ names) c'

theorem Lookup.names_of_autowired {lookup : Lookup} {type : BeanType} {fallback : Bool}
    {found : Autowired} (made : lookup.autowired type fallback = .ok found)
    (empty : found.provenance = .autowiredEmpty) : found.names = [] := by
  unfold Lookup.autowired at made
  split at made
  · cases made
    cases empty
  · split at made
    · cases made
      rfl
    · cases made

namespace Work

variable {create : Creator} {ctx : Context} {bean : String} {c c' : Container}

theorem autowire_returned (creates : create.Wires) {point : InjectionPoint} {fallback : Bool}
    {found : Autowired}
    (run : (autowire (Attempt.fetcher create) ctx bean point fallback).run.run c = (.ok found, c')) :
    found.Returned c' point.type := by
  obtain ⟨-, returned⟩ : Attempt.Spares ctx.path bean c
      (autowire (Attempt.fetcher create) ctx bean point fallback) _ :=
    autowire_spares creates bean point fallback
  rw [run] at returned
  obtain ⟨-, supplies⟩ := returned found rfl
  unfold autowire at run
  split at run
  · split at run
    · cases run
      exact ⟨supplies, fun _ => rfl, fun _ => rfl⟩
    · cases run
  · rename_i others
    obtain ⟨lookup, m, -, rest⟩ := Attempt.run_bind_eq_ok.mp run
    rw [Attempt.run_liftExcept] at rest
    have made := congrArg Prod.fst rest
    exact ⟨supplies, Lookup.names_of_autowired made, fun accepts => absurd accepts others⟩

section

variable {s : Setting} {e : Executable} {values : ArgumentValues ResolvedValue}

theorem bindFrom_draws (creates : create.Wires) (fetches : s.fetch = Attempt.fetcher create)
    {index : Nat} {parameters : List Parameter} {p p' : Progress}
    (bound : (bindFrom s e values index parameters p).run.run c = (.ok p', c')) :
    ∃ b names, p'.bound = p.bound ++ b ∧
      (∀ name, name ∈ p'.names ↔ name ∈ p.names ∨ name ∈ names) ∧
      Draws s e index parameters (values.takenFrom s.autowiring e.arity index parameters p.used)
        c b names c' := by
  induction parameters generalizing index p c with
  | nil =>
    obtain ⟨rfl, rfl⟩ := Attempt.run_pure_eq_ok.mp bound
    exact ⟨[], [], by simp, by simp, .nil⟩
  | cons parameter rest ih =>
    obtain ⟨q, m, first, later⟩ := Attempt.run_bind_eq_ok.mp bound
    obtain ⟨b, names, same, named, draws⟩ := ih later
    unfold ArgumentValues.takenFrom
    rcases bindParameter_ok first with
      ⟨slot, h, a, chosen, made, rfl, rfl⟩ | ⟨found, chosen, run, rfl⟩
    · simp only [chosen]
      exact ⟨a :: b, names, by simp [same], named, .declared made draws⟩
    · simp only [chosen]
      have returned := autowire_returned creates (fetches ▸ run)
      refine ⟨_ :: b, found.names ++ names, by rw [same, List.append_assoc]; rfl, fun name => ?_,
        .autowired run returned draws⟩
      rw [named, Graph.mem_distinct, List.mem_append, List.mem_append, or_assoc]

/-- Matching wires the bean in creation all or nothing, whatever is created on the way: if a parameter
cannot be bound the bean depends on what it depended on before, and if all are bound on the beans that
were returned for its autowired parameters besides. -/
theorem bindDeclared_all_or_nothing {room : Nat}
    (fetches : s.fetch = Attempt.fetcher (createWithin .full room))
    (inside : s.bean ∈ s.context.path) (e : Executable) (values : ArgumentValues ResolvedValue)
    (c : Container) :
    (∀ failure c', (bindDeclared s e values).run.run c = (.error failure, c') →
      ∀ name, name ∈ c'.graph.dependencies s.bean ↔ name ∈ c.graph.dependencies s.bean) ∧
    ∀ b c', (bindDeclared s e values).run.run c = (.ok b, c') →
      ∃ names m, Draws s e 0 e.parameters (values.taken s.autowiring e) c b names m ∧
        ∀ name, name ∈ c'.graph.dependencies s.bean ↔
          name ∈ c.graph.dependencies s.bean ∨ name ∈ names := by
  have creates := createWithin_wires room
  obtain ⟨fetch, ctx, bean, autowiring, fallback⟩ := s
  subst fetches
  constructor
  · intro failure c' failed name
    obtain ⟨names, wires, nothing, -⟩ : Wires ctx.path bean c (bindDeclared
        ⟨Attempt.fetcher (createWithin .full room), ctx, bean, autowiring, fallback⟩ e values).run _ :=
      bindDeclared_wires creates autowiring fallback e values
    rw [failed] at wires nothing
    rw [wires.mem_dependencies_iff inside, nothing failure rfl]
    simp
  · intro b c' bound
    obtain ⟨p, m, first, rest⟩ := Attempt.run_bind_eq_ok.mp bound
    obtain ⟨b', names, same, named, draws⟩ := bindFrom_draws creates rfl first
    obtain ⟨spares, supplied⟩ : Attempt.Spares ctx.path bean c (bindFrom
        ⟨Attempt.fetcher (createWithin .full room), ctx, bean, autowiring, fallback⟩ e values 0
        e.parameters ⟨[], [], []⟩) _ :=
      bindFrom_spares creates autowiring fallback e values 0 e.parameters ⟨[], [], []⟩ c
    rw [first] at spares supplied
    obtain ⟨-, used, -, uses, knows, -⟩ := supplied p rfl
    -- Edges are added at the end only, so a binding that fails before has added none.
    have known : ∀ name ∈ p.names, m.Knows name :=
      fun name member => knows name (((uses name).mp member).resolve_left List.not_mem_nil)
    obtain ⟨_, registers, rfl⟩ :
        Wires ctx.path bean m (registerAutowired bean e.noun p.names) _ :=
      registerAutowired_wires e.noun p.names known
    rw [Attempt.run_bind_lift] at rest
    obtain ⟨rfl, rfl⟩ := Attempt.run_pure_eq_ok.mp rest
    refine ⟨names, m, same ▸ draws, fun name => ?_⟩
    rw [(spares.trans registers).mem_dependencies_iff inside, List.nil_append, named]
    simp

end

end Work

/-! A rig in creation: there is a definition of a gear for it, which was not created yet, and no knob. -/
namespace Rig

def assemble (type : String) (parts : List String) : Executable where
  declaring := .plainClass type
  kind := .constructor
  isPublic := true
  parameters := parts.map (⟨.plainClass ·, none⟩)
  effect := .makes (.plainClass type)
  label := none

def gear : Definition :=
  { Definition.initial .initial with beanClass := some ⟨.plainClass "Gear", [assemble "Gear" []], []⟩ }

def stocked : Container := ((Request.define "gear" gear).perform.run (.new .initial)).2

def setting : Work.Setting where
  fetch := Attempt.fetcher (createWithin .full 1)
  context := { Context.new 2 with path := ["rig"] }
  bean := "rig"
  autowiring := true
  fallback := false

def matched (parts : List String) : Except Unsatisfied Binding × Container :=
  (Work.bindDeclared setting (assemble "Rig" parts) ⟨[], []⟩).run.run stocked

theorem all_or_nothing_of_rig :
    ((matched ["Gear", "Knob"]).2.singletons.get? "gear").isSome = true ∧
    (matched ["Gear", "Knob"]).2.graph.dependencies "rig" = [] ∧
    ∃ b names m, Work.Draws setting (assemble "Rig" ["Gear"]) 0 (assemble "Rig" ["Gear"]).parameters
        (ArgumentValues.taken ⟨[], []⟩ true (assemble "Rig" ["Gear"])) stocked b names m ∧
      "gear" ∈ names := by
  have unwired : stocked.graph.dependencies "rig" = [] := rfl
  have inside : setting.bean ∈ setting.context.path := List.mem_singleton_self "rig"
  refine ⟨by decide +kernel, ?_, ?_⟩
  · cases failed : matched ["Gear", "Knob"] with
    | mk r c' =>
      cases r with
      | ok b =>
        have fails : (matched ["Gear", "Knob"]).1.isOk = false := by decide +kernel
        rw [failed] at fails
        cases fails
      | error failure =>
        have same : ∀ name, name ∈ c'.graph.dependencies "rig" ↔
            name ∈ stocked.graph.dependencies "rig" :=
          (Work.bindDeclared_all_or_nothing rfl inside (assemble "Rig" ["Gear", "Knob"]) ⟨[], []⟩
            stocked).1 failure c' failed
        apply List.eq_nil_iff_forall_not_mem.mpr
        intro name depends
        have before := (same name).mp depends
        rw [unwired] at before
        exact List.not_mem_nil before
  · cases bound : matched ["Gear"] with
    | mk r c' =>
      cases r with
      | error failure =>
        have succeeds : (matched ["Gear"]).1.isOk = true := by decide +kernel
        rw [bound] at succeeds
        cases succeeds
      | ok b =>
        obtain ⟨names, m, draws, depends⟩ :=
          (Work.bindDeclared_all_or_nothing rfl inside (assemble "Rig" ["Gear"]) ⟨[], []⟩
            stocked).2 b c' bound
        have wired : "gear" ∈ (matched ["Gear"]).2.graph.dependencies "rig" := by decide +kernel
        rw [bound] at wired
        have gained := (depends "gear").mp wired
        rw [show stocked.graph.dependencies setting.bean = [] from unwired] at gained
        exact ⟨b, names, m, draws, gained.resolve_left List.not_mem_nil⟩

end Rig

end BeanWiring
