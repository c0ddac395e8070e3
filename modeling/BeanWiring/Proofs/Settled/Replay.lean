import BeanWiring.Proofs.Settled.Binding

/-!
Replaying what is kept of a binding. In all containers alike the recipes lead to the arguments they
were kept for: what is looked up is found again, what was declared comes to the same value, and a
value kept has nothing to put properties into and is not changed by another conversion.
-/
namespace BeanWiring

variable {c₀ c c' : Container} {bean : String} {values : ArgumentValues ResolvedValue}

theorem Holder.IsSettled.value_eq {g : Holder ResolvedValue} (settled : g.IsSettled c₀ bean)
    {v : Value} (source : g.value.source = .value v)
    (plain : (DeclaredValue.value v).isReresolved = false) : g.value.value = v := by
  have given := settled.source (createWithin .full 0) (.new 0)
  rw [source] at given
  cases v with
  | str text => cases plain
  | _ => exact Except.ok.inj (given.run_eq (.refl c₀) rfl).1.symm

namespace Attempt

theorem evaluate_gives {text : String} (literal : (Value.str text).IsLiteral c₀.properties) :
    Gives c₀ (evaluate text) (.ok (.str text)) := by
  refine .get_bind fun c alike => ?_
  have put : Placeholder.substitute c.properties (Placeholder.pieces text.toList) =
      .ok text.toList := alike.properties ▸ literal
  simp only [put, String.ofList_toList]
  exact .pure _

theorem replayRecipe_ofHolder {slot : HolderSlot} {g : Holder ResolvedValue} {point : InjectionPoint}
    {a : BoundArgument} (settled : g.IsSettled c₀ bean)
    (made : Binding.ofHolder slot g bean point = .ok a) (create : Creator) (ctx : Context) :
    ∃ value, Gives c₀ (replayRecipe .full create ctx bean point a.recipe) (.ok value) ∧
      value.convert point.type = .ok a.argument := by
  rcases Binding.ofHolder_eq_ok.mp made with ⟨v, converted, -⟩ | ⟨-, argument, converted, rfl⟩
  · cases settled.unconverted.symm.trans converted
  · dsimp only
    cases renewed : g.value.source.isReresolved with
    | true => exact ⟨g.value.value, settled.source create ctx, converted⟩
    | false =>
      obtain ⟨v, source⟩ : ∃ v, g.value.source = .value v := by
        cases source : g.value.source with
        | value v => exact ⟨v, rfl⟩
        | _ => rw [source] at renewed; cases renewed
      have plain : (DeclaredValue.value v).isReresolved = false := source ▸ renewed
      have literal : argument.IsLiteral c₀.properties := by
        rw [settled.value_eq source plain] at converted
        exact Value.isLiteral_of_convert plain converted c₀.properties
      refine ⟨argument, ?_, Value.convert_of_convert converted⟩
      cases argument with
      | str text => exact evaluate_gives literal
      | _ => exact .pure _

theorem replayFrom_gives_cons {create : Creator} {ctx : Context} {e : Executable} {index : Nat}
    {parameter : Parameter} {parameters : List Parameter} {recipe : Recipe} {recipes : List Recipe}
    {value argument : Value} {arguments : List Value}
    (first : Gives c₀ (replayRecipe .full create ctx bean (e.injectionPoint bean index parameter)
      recipe) (.ok value)) (converted : value.convert parameter.type = .ok argument)
    (later : Gives c₀ (replayFrom .full create ctx bean e (index + 1) parameters recipes)
      (.ok arguments)) :
    Gives c₀ (replayFrom .full create ctx bean e index (parameter :: parameters) (recipe :: recipes))
      (.ok (argument :: arguments)) := by
  unfold replayFrom
  refine first.bind ?_
  rw [Value.convertArgument_eq_ok.mpr converted]
  exact later.bind (.pure _)

theorem replayFrom_of_bindFrom {create : Creator} {ctx : Context} {autowiring fallback : Bool}
    {e : Executable} {index : Nat} {parameters : List Parameter} {p p' : Progress}
    (settled : c₀.Settled bean) (resolved : ∀ g ∈ values.holders, g.IsSettled c₀ bean)
    (ordinary : ∀ p ∈ parameters, BeanType.injectionPoint.accepts p.type = false)
    (alike : c.Alike c₀)
    (run : (Work.bindFrom ⟨fetcher create, ctx, bean, autowiring, fallback⟩ e values index parameters
      p).run.run c = (.ok p', c')) :
    ∃ b : Binding, p'.bound = p.bound ++ b ∧ ∀ create ctx,
      Gives c₀ (replayFrom .full create ctx bean e index parameters (b.map (·.recipe)))
        (.ok b.arguments) := by
  induction parameters generalizing index p c with
  | nil =>
    cases (run_pure_eq_ok.mp run).1
    exact ⟨[], (List.append_nil _).symm, fun _ _ => .pure []⟩
  | cons parameter rest ih =>
    have ordinary' := fun q member => ordinary q (List.mem_cons_of_mem _ member)
    obtain ⟨q, m, first, later⟩ := run_bind_eq_ok.mp run
    rcases Work.bindParameter_ok first with
      ⟨slot, g, a, taken, made, rfl, rfl⟩ | ⟨found, -, wired, rfl⟩
    · obtain ⟨b, same, replayed⟩ := ih ordinary' alike later
      have held : g ∈ values.holders := by
        rw [← ArgumentValues.map_snd_slotted]
        exact List.mem_map_of_mem (ArgumentValues.forParameter?_some taken).1
      refine ⟨a :: b, by rw [same, List.append_assoc]; rfl, fun create ctx => ?_⟩
      obtain ⟨value, given, converted⟩ := replayRecipe_ofHolder (resolved g held) made create ctx
      exact replayFrom_gives_cons given converted (replayed create ctx)
    · obtain ⟨lookup, fits, finds⟩ := Work.autowire_gives settled
        (e.injectionPoint bean index parameter) (ordinary parameter List.mem_cons_self)
      obtain ⟨same, quiet⟩ := (finds create ctx fallback).run_eq alike wired
      obtain ⟨b, bound, replayed⟩ := ih ordinary' (quiet.alike.trans alike) later
      refine ⟨_ :: b, by rw [bound, List.append_assoc]; rfl, fun create ctx => ?_⟩
      -- A replay always falls back on an empty container. What was found without fallback is found
      -- still.
      have again := finds create ctx true
      rw [Lookup.autowired_true_of_ok same.symm] at again
      have kept := Value.convert_of_fits (Lookup.autowired_fits fits same.symm)
      exact replayFrom_gives_cons (again.bind (.pure _)) kept (replayed create ctx)

theorem recollect_of_bindDeclared {create : Creator} {ctx : Context} {autowiring fallback : Bool}
    {e : Executable} {b : Binding} (settled : c₀.Settled bean)
    (resolved : ∀ g ∈ values.holders, g.IsSettled c₀ bean) (ordinary : e.TakesNoPoint)
    (alike : c.Alike c₀)
    (run : (Work.bindDeclared ⟨fetcher create, ctx, bean, autowiring, fallback⟩ e values).run.run c =
      (.ok b, c')) (create' : Creator) (ctx' : Context) :
    Gives c₀ (recollect .full create' ctx' bean ⟨e, b.kept⟩) (.ok b.arguments) := by
  obtain ⟨p, m, first, rest⟩ := run_bind_eq_ok.mp run
  obtain ⟨_, _, _, last⟩ := run_bind_eq_ok.mp rest
  obtain ⟨b', same, replayed⟩ := replayFrom_of_bindFrom settled resolved ordinary alike first
  have bound : b' = b := by rw [← (run_pure_eq_ok.mp last).1, same, List.nil_append]
  subst bound
  unfold Binding.kept
  split
  · exact (Gives.lift (.emit _)).bind (.pure _)
  · exact (Gives.lift (.emit _)).bind (replayed create' ctx')

section Repetition

variable {create : Creator} {ctx : Context}

theorem replayRecipe_repeats (settled : c₀.Settled bean) (blocked : create.Blocks ctx bean)
    (point : InjectionPoint) (ordinary : BeanType.injectionPoint.accepts point.type = false)
    (recipe : Recipe) (childless : ∀ source, recipe = .declared source → source.family = []) :
    Repeats c₀ (replayRecipe .full create ctx bean point recipe)
      fun create ctx => replayRecipe .full create ctx bean point recipe := by
  cases recipe with
  | autowired =>
    obtain ⟨lookup, -, finds⟩ := Work.autowire_gives settled point ordinary
    refine .bind (.of_gives (finds create ctx true) fun create ctx => finds create ctx true) ?_
    exact fun _ => .of_gives (.pure _) fun _ _ => .pure _
  | declared source =>
    exact resolveDeclared_repeats settled blocked argumentNoun source (childless source rfl)
  | value v =>
    cases v with
    | str text => exact evaluate_repeats text
    | _ => exact .of_gives (.pure _) fun _ _ => .pure _

theorem replayFrom_repeats (settled : c₀.Settled bean) (blocked : create.Blocks ctx bean)
    {e : Executable} {parameters : List Parameter} {recipes : List Recipe}
    (ordinary : ∀ p ∈ parameters, BeanType.injectionPoint.accepts p.type = false) (index : Nat)
    (childless : ∀ source, .declared source ∈ recipes → source.family = []) :
    Repeats c₀ (replayFrom .full create ctx bean e index parameters recipes)
      fun create ctx => replayFrom .full create ctx bean e index parameters recipes := by
  induction parameters generalizing index recipes with
  | nil => exact .of_gives (.pure _) fun _ _ => .pure _
  | cons parameter rest ih =>
    cases recipes with
    | nil => exact .of_gives (.pure _) fun _ _ => .pure _
    | cons recipe recipes =>
      have first := replayRecipe_repeats settled blocked (e.injectionPoint bean index parameter)
        (ordinary parameter List.mem_cons_self) recipe
        fun source same => childless source (same ▸ List.mem_cons_self)
      have later := ih (fun p member => ordinary p (List.mem_cons_of_mem _ member)) (index + 1)
        fun source member => childless source (List.mem_cons_of_mem _ member)
      refine first.bind fun value => ?_
      cases value.convertArgument bean (e.injectionPoint bean index parameter) with
      | error failure => exact .of_gives (.throw _) fun _ _ => .throw _
      | ok argument => exact later.bind fun _ => .of_gives (.pure _) fun _ _ => .pure _

theorem recollect_repeats (settled : c₀.Settled bean) (blocked : create.Blocks ctx bean)
    {r : Resolution} (ordinary : r.executable.TakesNoPoint)
    (childless : ∀ recipes, r.arguments = .prepared recipes →
      ∀ source, .declared source ∈ recipes → source.family = []) :
    Repeats c₀ (recollect .full create ctx bean r) fun create ctx => recollect .full create ctx bean r := by
  obtain ⟨e, arguments | recipes⟩ := r
  · exact .bind (.lift (.emit _)) fun _ => .of_gives (.pure _) fun _ _ => .pure _
  · exact .bind (.lift (.emit _)) fun _ =>
      replayFrom_repeats settled blocked ordinary 0 (childless recipes rfl)

end Repetition

end Attempt

end BeanWiring
