import BeanWiring.Container.Creation

/-!
Where the creation of a bean asks for other beans: where it stands itself, and in the satisfaction
of a parameter. Ways of creating beans that are the same there are the same to it, in every
container.
-/
namespace BeanWiring

inductive Context.Asks (ctx : Context) (bean : String) : Context → Prop
  | itself : ctx.Asks bean ctx
  | satisfying (e : Executable) {index : Nat} {parameter : Parameter} :
      e.parameters[index]? = some parameter →
      ctx.Asks bean (ctx.push (e.injectionPoint bean index parameter))

variable {create create' : Creator} {ctx : Context} {bean : String}

def Creator.SameFor (ctx : Context) (bean : String) (create create' : Creator) : Prop :=
  ∀ ctx', ctx.Asks bean ctx' → create ctx' = create' ctx'

namespace Attempt

theorem fetch_congr (same : create ctx = create' ctx) : fetch create ctx = fetch create' ctx := by
  funext name explicit
  unfold fetch
  rw [same]

mutual

theorem resolveDeclared_congr (same : create ctx = create' ctx) (bean argumentName : String) :
    (declared : DeclaredValue) → resolveDeclared create ctx bean argumentName declared =
      resolveDeclared create' ctx bean argumentName declared
  | .value v => by cases v <;> rfl
  | .reference name => by rw [resolveDeclared, resolveDeclared, fetch_congr same]
  | .inner d => by rw [resolveDeclared, resolveDeclared, same]
  | .list items => by
    rw [resolveDeclared, resolveDeclared, resolveDeclaredAll_congr same bean argumentName items]

theorem resolveDeclaredAll_congr (same : create ctx = create' ctx) (bean argumentName : String) :
    (items : List DeclaredValue) → resolveDeclaredAll create ctx bean argumentName items =
      resolveDeclaredAll create' ctx bean argumentName items
  | [] => rfl
  | item :: rest => by
    rw [resolveDeclaredAll, resolveDeclaredAll, resolveDeclared_congr same bean argumentName item,
      resolveDeclaredAll_congr same bean argumentName rest]

end

theorem resolveHolder_congr (same : create ctx = create' ctx) (bean : String) :
    resolveHolder create ctx bean = resolveHolder create' ctx bean := by
  funext h
  unfold resolveHolder
  rw [resolveDeclared_congr same]

theorem resolveArguments_congr (same : create ctx = create' ctx) (bean : String) (d : Definition) :
    resolveArguments create ctx bean d = resolveArguments create' ctx bean d := by
  unfold resolveArguments
  rw [resolveHolder_congr same]

end Attempt

namespace Work

variable {e : Executable} {index : Nat} {parameter : Parameter}

theorem autowire_congr (same : Creator.SameFor ctx bean create create')
    (listed : e.parameters[index]? = some parameter) (fallback : Bool) :
    autowire (Attempt.fetcher create) ctx bean (e.injectionPoint bean index parameter) fallback =
      autowire (Attempt.fetcher create') ctx bean (e.injectionPoint bean index parameter)
        fallback := by
  unfold autowire Attempt.fetcher
  rw [Attempt.fetch_congr (same _ (.satisfying e listed))]

variable {autowiring fallback : Bool} {values : ArgumentValues ResolvedValue}

theorem bindParameter_congr (same : Creator.SameFor ctx bean create create')
    (listed : e.parameters[index]? = some parameter) :
    bindParameter ⟨Attempt.fetcher create, ctx, bean, autowiring, fallback⟩ e values index
        parameter =
      bindParameter ⟨Attempt.fetcher create', ctx, bean, autowiring, fallback⟩ e values index
        parameter := by
  funext p
  unfold bindParameter
  dsimp only
  rw [autowire_congr same listed]

theorem bindFrom_congr (same : Creator.SameFor ctx bean create create')
    {parameters : List Parameter}
    (listed : ∀ i, parameters[i]? = e.parameters[index + i]?) :
    bindFrom ⟨Attempt.fetcher create, ctx, bean, autowiring, fallback⟩ e values index parameters =
      bindFrom ⟨Attempt.fetcher create', ctx, bean, autowiring, fallback⟩ e values index
        parameters := by
  funext p
  induction parameters generalizing index p with
  | nil => rfl
  | cons parameter rest ih =>
    have later (i : Nat) : rest[i]? = e.parameters[index + 1 + i]? := by
      rw [Nat.add_assoc, Nat.add_comm 1, ← listed (i + 1), List.getElem?_cons_succ]
    have first : e.parameters[index]? = some parameter := (listed 0).symm
    rw [bindFrom, bindFrom, bindParameter_congr same first]
    exact bind_congr fun p => ih later p

theorem bind_congr_create (same : Creator.SameFor ctx bean create create')
    (source : ArgumentSource) :
    bind ⟨Attempt.fetcher create, ctx, bean, autowiring, fallback⟩ e source =
      bind ⟨Attempt.fetcher create', ctx, bean, autowiring, fallback⟩ e source := by
  cases source with
  | explicit arguments => rfl
  | declared values =>
    dsimp only [bind, bindDeclared]
    rw [bindFrom_congr same fun i => by rw [Nat.zero_add]]

end Work

namespace Attempt

variable {host : Host} {e : Executable}

theorem replayRecipe_congr (same : Creator.SameFor ctx bean create create') {index : Nat}
    {parameter : Parameter} (listed : e.parameters[index]? = some parameter) (recipe : Recipe) :
    replayRecipe host create ctx bean (e.injectionPoint bean index parameter) recipe =
      replayRecipe host create' ctx bean (e.injectionPoint bean index parameter) recipe := by
  cases recipe with
  | value v => cases v <;> rfl
  | autowired => rw [replayRecipe, replayRecipe, Work.autowire_congr same listed]
  | declared source =>
    rw [replayRecipe, replayRecipe, resolveDeclared_congr (same _ .itself)]

theorem replayFrom_congr (same : Creator.SameFor ctx bean create create') {index : Nat}
    {parameters : List Parameter} (listed : ∀ i, parameters[i]? = e.parameters[index + i]?)
    (recipes : List Recipe) :
    replayFrom host create ctx bean e index parameters recipes =
      replayFrom host create' ctx bean e index parameters recipes := by
  induction parameters generalizing index recipes with
  | nil => cases recipes <;> rfl
  | cons parameter rest ih =>
    have later (i : Nat) : rest[i]? = e.parameters[index + 1 + i]? := by
      rw [Nat.add_assoc, Nat.add_comm 1, ← listed (i + 1), List.getElem?_cons_succ]
    cases recipes with
    | nil => rfl
    | cons recipe recipes =>
      have first : e.parameters[index]? = some parameter := (listed 0).symm
      rw [replayFrom, replayFrom, replayRecipe_congr same first]
      simp only [ih later]

theorem recollect_congr (same : Creator.SameFor ctx bean create create') (r : Resolution) :
    recollect host create ctx bean r = recollect host create' ctx bean r := by
  obtain ⟨e, arguments | recipes⟩ := r
  · rfl
  · dsimp only [recollect, replay]
    rw [replayFrom_congr same fun i => by rw [Nat.zero_add]]

theorem remembered_congr (same : Creator.SameFor ctx bean create create') (d : Definition)
    (explicit : Option (List Value)) :
    remembered host create ctx bean d explicit = remembered host create' ctx bean d explicit := by
  unfold remembered
  simp only [recollect_congr same]

end Attempt

namespace Creation

theorem exhausted_congr (n : Creation) (create' : Creator) :
    n.exhausted = { n with create := create' }.exhausted := by
  have suppresses : n.suppressAll = { n with create := create' }.suppressAll := by
    funext failures
    induction failures with
    | nil => rfl
    | cons failure rest ih => rw [suppressAll, suppressAll, ih]
  funext failures noMatch
  unfold exhausted
  rw [suppresses]

variable {n : Creation}

section

variable (same : Creator.SameFor n.context n.bean n.create create')
include same

theorem source_congr : n.source = { n with create := create' }.source := by
  unfold source
  rw [Attempt.resolveArguments_congr (same _ .itself)]

theorem search_congr (kind : SearchKind) (source : ArgumentSource) (minCount : Nat)
    (autowiring : Bool) (candidates : List Executable) :
    n.search kind source minCount autowiring candidates =
      { n with create := create' }.search kind source minCount autowiring candidates := by
  have binds (fallback : Bool) : n.bindCandidate kind source autowiring fallback =
      { n with create := create' }.bindCandidate kind source autowiring fallback := by
    funext candidate
    unfold bindCandidate
    dsimp only
    rw [Work.bind_congr_create same]
  unfold search
  rw [binds]

theorem byClosestConstructor_congr (beanClass : BeanClass) (autowiring : Bool)
    (candidates : List Executable) :
    n.byClosestConstructor beanClass autowiring candidates =
      { n with create := create' }.byClosestConstructor beanClass autowiring candidates := by
  unfold byClosestConstructor
  simp only [source_congr same, search_congr same, exhausted_congr n create']
  rfl

theorem byConstructor_congr (given : Option (List Executable)) :
    n.byConstructor given = { n with create := create' }.byConstructor given := by
  have among (beanClass : BeanClass) (autowiring : Bool) (candidates : List Executable) :
      n.constructorAmong beanClass autowiring candidates =
        { n with create := create' }.constructorAmong beanClass autowiring candidates := by
    unfold constructorAmong
    rw [byClosestConstructor_congr same]
    rfl
  unfold byConstructor remembered
  simp only [Attempt.remembered_congr same, among]
  rfl

theorem factoryTarget_congr : n.factoryTarget = { n with create := create' }.factoryTarget := by
  unfold factoryTarget
  dsimp only
  rw [Attempt.fetch_congr (same _ .itself)]

theorem byClosestMethod_congr (factoryBean : Option Value) (beanClass : BeanClass)
    (candidates : List Executable) :
    n.byClosestMethod factoryBean beanClass candidates =
      { n with create := create' }.byClosestMethod factoryBean beanClass candidates := by
  unfold byClosestMethod
  simp only [source_congr same, search_congr same, exhausted_congr n create']
  rfl

theorem byFactoryMethod_congr :
    n.byFactoryMethod = { n with create := create' }.byFactoryMethod := by
  have among (factoryBean : Option Value) (beanClass : BeanClass) (candidates : List Executable) :
      n.methodAmong factoryBean beanClass candidates =
        { n with create := create' }.methodAmong factoryBean beanClass candidates := by
    unfold methodAmong
    rw [byClosestMethod_congr same]
    rfl
  unfold byFactoryMethod remembered
  simp only [factoryTarget_congr same, Attempt.remembered_congr same, among]
  rfl

theorem perform_congr : n.perform = { n with create := create' }.perform := by
  have calls : n.call = { n with create := create' }.call := by
    unfold call
    simp only [byFactoryMethod_congr same, byConstructor_congr same]
    rfl
  unfold perform
  rw [calls]
  rfl

end

end Creation

end BeanWiring
