import BeanWiring.Proofs.Settled.Candidates

/-!
The call of the one bean that need not be there. It is decided on again in all containers alike: by
what is kept of the first decision, and by another search where nothing is kept.
-/
namespace BeanWiring

/-- Where `m` keeps `r` for a definition, or nothing as `c` did. Then the factory method remembered
for a unique one is the one that `c'` remembers. -/
def Container.Prompts (m c c' : Container) (d : Definition) (r : Resolution) : Prop :=
  m.resolution? d = some r ∨ c.resolution? d = none ∧ m.resolution? d = none ∧
    (d.unique = true → m.factoryMethod? d = c'.factoryMethod? d)

namespace Creation

variable {n : Creation} {call : Call} {c c' : Container}

def Replays (n : Creation) (c : Container) (call : Call) (r : Resolution) : Prop :=
  ∀ create ctx m, m.Alike c → m.resolution? n.definition = some r →
    ∃ m', (n.again create ctx).call.run.run m = (.ok call, m') ∧ m.Decided m' n.definition r

def Repeats (n : Creation) (c c' : Container) (call : Call) (r : Resolution) : Prop :=
  r.executable = call.executable ∧ c.Decided c' n.definition r ∧
    ∀ create ctx m, m.Alike c → m.Prompts c c' n.definition r →
      ∃ m', (n.again create ctx).call.run.run m = (.ok call, m') ∧ m.Decided m' n.definition r

theorem Replays.repeats {r : Resolution} (replays : n.Replays c call r)
    (kept : c.resolution? n.definition = some r) (decided : c.Decided c' n.definition r)
    (same : r.executable = call.executable) : n.Repeats c c' call r := by
  refine ⟨same, decided, fun create ctx m alike prompts => ?_⟩
  rcases prompts with kept' | ⟨nothing, -⟩
  · exact replays create ctx m alike kept'
  · cases nothing.symm.trans kept

theorem remembered_again (lone : n.IsLone c) {target : Option Value} {r : Resolution}
    {arguments : List Value}
    (recalls : n.Recalls c ⟨r.executable, target, arguments⟩ r.arguments) (create : Creator)
    (ctx : Context) {m : Container} (alike : m.Alike c) (kept : m.resolution? n.definition = some r) :
    ∃ m', m.Quiet m' ∧
      (n.again create ctx).remembered.run.run m = (.ok (some (r.executable, arguments)), m') := by
  obtain ⟨events, graph, recalled⟩ := recalls create ctx m alike
  refine ⟨_, ⟨events, graph, rfl⟩, (remembered_some_iff (n := n.again create ctx) lone.ungiven).mpr
    ⟨r, kept, rfl, ?_⟩⟩
  rw [← lone.full] at recalled
  exact recalled

theorem recalls_of_kept (lone : n.IsLone c)
    (ordinary : ∀ e, c.MayUse n.definition e → e.TakesNoPoint)
    (owned : ∀ r, c.resolution? n.definition = some r → r.KeptFor n.definition) {r : Resolution}
    (kept : c.resolution? n.definition = some r) {arguments : List Value} {m : Container}
    (alike : m.Alike c) (recalled : (Attempt.recollect n.host n.create n.context n.bean r).run.run m =
      (.ok arguments, c')) (target : Option Value) :
    n.Recalls c ⟨r.executable, target, arguments⟩ r.arguments ∧ m.Quiet c' := by
  obtain ⟨values, s, b, keeps⟩ := owned r kept
  have childless : ∀ recipes, r.arguments = .prepared recipes →
      ∀ source, .declared source ∈ recipes → source.family = [] := by
    intro recipes prepared source member
    obtain ⟨h, held, rfl⟩ := keeps.exists_holder prepared member
    exact (lone.plain h held).2
  rw [lone.full] at recalled
  have repeats := Attempt.recollect_repeats lone.settled lone.blocked (ordinary _ (.kept kept)) childless
  have gives := (repeats m alike).2.2 arguments (congrArg Prod.fst recalled)
  exact ⟨gives, ((gives n.create n.context).run_eq alike recalled).2⟩

theorem replays_method (lone : n.IsLone c) (named : n.definition.factoryMethod.isSome = true)
    {factoryBean : Option Value} {beanClass : BeanClass}
    (gives : ∀ create ctx,
      Attempt.Gives c (n.again create ctx).factoryTarget (.ok (factoryBean, beanClass)))
    {r : Resolution} {arguments : List Value}
    (recalls : n.Recalls c ⟨r.executable, factoryBean, arguments⟩ r.arguments) :
    n.Replays c ⟨r.executable, factoryBean, arguments⟩ r := by
  intro create ctx m alike kept
  obtain ⟨events, graph, targeted⟩ := gives create ctx m alike
  have quiet : m.Quiet { m with events := events, graph := graph } := ⟨events, graph, rfl⟩
  obtain ⟨m', quiet', remembers⟩ :=
    remembered_again lone recalls create ctx (quiet.alike.trans alike) kept
  refine ⟨m', call_ok_iff.mpr (.inl ⟨named, ?_⟩), (quiet.trans quiet').decided kept⟩
  exact byFactoryMethod_ok_iff.mpr ⟨_, _, _, targeted, .inl ⟨_, _, remembers, rfl⟩⟩

theorem replays_constructor (lone : n.IsLone c) (own : n.definition.factoryMethod.isSome = false)
    {beanClass : BeanClass} (owner : n.definition.beanClass = some beanClass) {r : Resolution}
    {arguments : List Value} (recalls : n.Recalls c ⟨r.executable, none, arguments⟩ r.arguments) :
    n.Replays c ⟨r.executable, none, arguments⟩ r := by
  intro create ctx m alike kept
  obtain ⟨m', quiet, remembers⟩ := remembered_again lone recalls create ctx alike kept
  refine ⟨m', call_ok_iff.mpr (.inr ⟨own, beanClass, none, owner, ?_, ?_⟩), quiet.decided kept⟩
  · change (n.again create ctx).favoured (m.resolution? n.definition).isSome beanClass = _
    rw [kept]
    exact favoured_of_kept lone.ungiven beanClass
  · exact byConstructor_ok_iff.mpr (.inl ⟨_, _, remembers, rfl⟩)

theorem byFactoryMethod_repeats (lone : n.IsLone c)
    (ordinary : ∀ e, c.MayUse n.definition e → e.TakesNoPoint)
    (owned : ∀ r, c.resolution? n.definition = some r → r.KeptFor n.definition)
    (named : n.definition.factoryMethod.isSome = true)
    (run : n.byFactoryMethod.run.run c = (.ok call, c')) : ∃ r, n.Repeats c c' call r := by
  obtain ⟨factoryBean, beanClass, m, targeted, decides⟩ := byFactoryMethod_ok_iff.mp run
  have gives := (factoryTarget_repeats lone c (.refl c)).2.2 _ (congrArg Prod.fst targeted)
  have owner := factoryTarget_owner lone (.refl c) targeted
  have quiet := ((gives n.create n.context).run_eq (.refl c) targeted).2
  rcases decides with
    ⟨e, arguments, remembers, rfl⟩ | ⟨m', candidates, m'', nothing, tried, last⟩
  · obtain ⟨r, kept, rfl, recalled⟩ := (remembered_some_iff lone.ungiven).mp remembers
    rw [quiet.resolution?_eq] at kept
    obtain ⟨recalls, quiet'⟩ :=
      recalls_of_kept lone ordinary owned kept quiet.alike recalled factoryBean
    exact ⟨r, (replays_method lone named gives recalls).repeats kept
      ((quiet.trans quiet').decided kept) rfl⟩
  · obtain ⟨nothing, rfl⟩ := (remembered_none_iff lone.ungiven).mp nothing
    obtain rfl := (factoryMethods_ok_iff.mp tried).1
    have takes : ∀ e ∈ candidates, e.TakesNoPoint := fun e member => ordinary e
      (factoryMethods_mayUse owner (quiet.factoryMethod?_eq _) tried e member)
    obtain ⟨among, target, kept, recalls, decided, decides⟩ :=
      methodAmong_again lone named takes quiet.alike nothing last
    obtain ⟨e, bean, arguments⟩ := call
    subst target
    refine ⟨⟨e, kept⟩, rfl, quiet.then_decided decided, fun create ctx m alike prompts => ?_⟩
    rcases prompts with kept' | ⟨-, nothing', remembered⟩
    · exact replays_method lone named gives recalls create ctx m alike kept'
    · obtain ⟨events, graph, targeted'⟩ := gives create ctx m alike
      have quiet' : m.Quiet { m with events := events, graph := graph } := ⟨events, graph, rfl⟩
      have method : c'.factoryMethod? n.definition = some e := by
        rw [decided.method, named, nothing]
        rfl
      -- A unique method is not looked for again, so the list searched may be shorter this time.
      obtain ⟨L, same, tried'⟩ := factoryMethods_again tried among create ctx
        (m := { m with events := events, graph := graph })
        fun unique => (remembered unique).trans method
      obtain ⟨m', decides', decided'⟩ :=
        decides L same create ctx _ (quiet'.alike.trans alike) nothing'
      refine ⟨m', call_ok_iff.mpr (.inl ⟨named, byFactoryMethod_ok_iff.mpr ⟨_, _, _, targeted',
        .inr ⟨_, L, _, ?_, tried', decides'⟩⟩⟩), quiet'.then_decided decided'⟩
      exact (remembered_none_iff (n := n.again create ctx) lone.ungiven).mpr ⟨nothing', rfl⟩

theorem byConstructor_repeats (lone : n.IsLone c)
    (ordinary : ∀ e, c.MayUse n.definition e → e.TakesNoPoint)
    (owned : ∀ r, c.resolution? n.definition = some r → r.KeptFor n.definition)
    (own : n.definition.factoryMethod.isSome = false) {beanClass : BeanClass}
    {given : Option (List Executable)} (owner : n.definition.beanClass = some beanClass)
    (favours : n.favoured (c.resolution? n.definition).isSome beanClass = .ok given)
    (run : (n.byConstructor given).run.run c = (.ok call, c')) : ∃ r, n.Repeats c c' call r := by
  rcases byConstructor_ok_iff.mp run with
    ⟨e, arguments, remembers, rfl⟩ | ⟨m, bc, candidates, m', nothing, owner', tried, last⟩
  · obtain ⟨r, kept, rfl, recalled⟩ := (remembered_some_iff lone.ungiven).mp remembers
    obtain ⟨recalls, quiet⟩ := recalls_of_kept lone ordinary owned kept (.refl c) recalled none
    exact ⟨r, (replays_constructor lone own owner recalls).repeats kept (quiet.decided kept) rfl⟩
  · obtain ⟨nothing, rfl⟩ := (remembered_none_iff lone.ungiven).mp nothing
    obtain rfl := Option.some.inj (owner.symm.trans owner')
    obtain ⟨rfl, among, tried'⟩ := constructors_ok (favoured_subset favours) tried
    have takes : ∀ e ∈ candidates, e.TakesNoPoint := fun e member =>
      ordinary e (.constructor own owner (among member))
    obtain ⟨target, kept, recalls, decided, decides⟩ :=
      constructorAmong_again lone own takes (.refl _) last
    obtain ⟨e, bean, arguments⟩ := call
    subst target
    refine ⟨⟨e, kept⟩, rfl, decided, fun create ctx m alike prompts => ?_⟩
    rcases prompts with kept' | ⟨-, nothing', -⟩
    · exact replays_constructor lone own owner recalls create ctx m alike kept'
    · obtain ⟨m', decides', decided'⟩ := decides create ctx m alike nothing'
      refine ⟨m', call_ok_iff.mpr (.inr ⟨own, beanClass, given, owner, ?_, ?_⟩), decided'⟩
      · change n.favoured (m.resolution? n.definition).isSome beanClass = .ok given
        rw [nothing', ← nothing]
        exact favours
      · exact byConstructor_ok_iff.mpr (.inr ⟨m, beanClass, candidates, m,
          (remembered_none_iff (n := n.again create ctx) lone.ungiven).mpr ⟨nothing', rfl⟩, owner,
          tried' create ctx m, decides'⟩)

/-- What a creation decides on it decides on again, by replaying what is kept then, or by another
search where nothing is kept and nothing was kept before. -/
theorem call_repeats (lone : n.IsLone c)
    (ordinary : ∀ e, c.MayUse n.definition e → e.TakesNoPoint)
    (owned : ∀ r, c.resolution? n.definition = some r → r.KeptFor n.definition)
    (run : n.call.run.run c = (.ok call, c')) : ∃ r, n.Repeats c c' call r := by
  rcases call_ok_iff.mp run with ⟨named, run⟩ | ⟨own, beanClass, given, owner, favours, run⟩
  · exact byFactoryMethod_repeats lone ordinary owned named run
  · exact byConstructor_repeats lone ordinary owned own owner favours run

end Creation

end BeanWiring
