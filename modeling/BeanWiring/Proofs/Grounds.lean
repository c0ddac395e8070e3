import BeanWiring.Proofs.OneAttempt
import BeanWiring.Proofs.Repetition
import BeanWiring.Proofs.Ways

/-!
The grounds of what is followed without a look at a class. Where the classes registered stay, a factory
method kept for a definition was invoked on a factory bean whose class offers it, and one that is
remembered is offered by some class.
-/
namespace BeanWiring

variable {known : List Definition} {c c' m origin : Container} {d : Definition} {k : BeanClass}
  {e : Executable} {n : Creation} {call : Call}

namespace Container

def Lists (c : Container) (d : Definition) (e : Executable) : Prop :=
  ∃ type k, c.classOfType? type = some k ∧ e ∈ k.overloads d false

/-- What may be invoked for the definition on a factory bean of the class: a method that the class
offers, or if the definition is declared unique, one of its own that any class offers. -/
def Proposes (c : Container) (d : Definition) (k : BeanClass) (e : Executable) : Prop :=
  e ∈ k.overloads d false ∨ (d.unique = true ∧ (e.declaring == k.type) = true ∧ c.Lists d e)

def MadeOn (c : Container) (i : Invocation) (k : BeanClass) : Prop :=
  ∃ target, i.target = some target ∧ target.runtimeType.bind c.classOfType? = some k

/-- Since `origin` no class was registered anew. The method kept for the definition has been invoked, on
a factory bean for which it was proposed, and the one remembered is listed. -/
structure Grounded (origin : Container) (d : Definition) (c : Container) : Prop where
  classes : ∀ name, c.classes.get? name = origin.classes.get? name
  journal : origin.invocations <+: c.invocations
  kept : ∀ r, c.resolution? d = some r →
    ∃ i ∈ c.invocations.drop origin.invocations.length, i.executable = r.executable ∧
      ∃ k, origin.MadeOn i k ∧ origin.Proposes d k r.executable
  remembered : ∀ e, c.factoryMethod? d = some e → origin.Lists d e

theorem classOfType?_congr (same : ∀ name, c'.classes.get? name = c.classes.get? name)
    (type : BeanType) : c'.classOfType? type = c.classOfType? type := by
  unfold classOfType?
  simp only [same]

theorem Proposes.lists {type : BeanType} (proposes : c.Proposes d k e)
    (own : c.classOfType? type = some k) : c.Lists d e := by
  rcases proposes with offered | ⟨-, -, lists⟩
  · exact ⟨type, k, own, offered⟩
  · exact lists

namespace Grounded

theorem refl (unresolved : c.resolution? d = none) (unremembered : c.factoryMethod? d = none) :
    c.Grounded d c where
  classes _ := rfl
  journal := List.prefix_rfl
  kept _ kept := nomatch unresolved.symm.trans kept
  remembered _ remembered := nomatch unremembered.symm.trans remembered

theorem grows (grounded : origin.Grounded d c) (classes : c'.classes = c.classes)
    (journal : c.invocations <+: c'.invocations) (resolution : c'.resolution? d = c.resolution? d)
    (method : c'.factoryMethod? d = c.factoryMethod? d) : origin.Grounded d c' where
  classes name := (congrArg (·.get? name) classes).trans (grounded.classes name)
  journal := grounded.journal.trans journal
  kept r kept := by
    obtain ⟨i, member, same, made⟩ := grounded.kept r (resolution ▸ kept)
    obtain ⟨later, append⟩ := journal
    refine ⟨i, ?_, same, made⟩
    rw [← append, List.drop_append]
    exact List.mem_append_left _ member
  remembered e remembered := grounded.remembered e (method ▸ remembered)

theorem frame (grounded : origin.Grounded d c) (classes : c'.classes = c.classes)
    (invocations : c'.invocations = c.invocations) (resolutions : c'.resolutions = c.resolutions)
    (methods : c'.factoryMethods = c.factoryMethods) : origin.Grounded d c' :=
  grounded.grows classes (invocations ▸ List.prefix_rfl)
    (congrArg (·.get? d.serial) resolutions) (congrArg (·.get? d.serial) methods)

theorem rememberMethod (grounded : origin.Grounded d c) {d' : Definition}
    (lists : d'.serial = d.serial → origin.Lists d e) :
    origin.Grounded d { c with factoryMethods := c.factoryMethods.insert d'.serial e } where
  classes := grounded.classes
  journal := grounded.journal
  kept := grounded.kept
  remembered e' remembered := by
    change (c.factoryMethods.insert d'.serial e).get? d.serial = some e' at remembered
    rw [Registry.get?_insert] at remembered
    split at remembered
    · rename_i same
      cases remembered
      exact lists same
    · exact grounded.remembered e' remembered

theorem called (grounded : origin.Grounded d c) {bean : String} (called : c.Called c' bean call) :
    origin.Grounded d c' := by
  obtain ⟨result, invoked⟩ := called.invokes
  exact grounded.grows called.alike.classes (invoked ▸ List.prefix_append _ _)
    (congrArg (·.get? d.serial) called.resolutions)
    (congrArg (·.get? d.serial) called.factoryMethods)

/-- What a creation decides on for its factory bean has grounds once it has been invoked. -/
theorem found (grounded : origin.Grounded d c) (named : d.factoryMethod.isSome = true) {bean : String}
    {r : Resolution} {value : Value} (called : (c.keeping d r).Called c' bean call)
    (same : r.executable = call.executable) (target : call.target = some value)
    (made : value.runtimeType.bind origin.classOfType? = some k)
    (proposes : origin.Proposes d k call.executable) : origin.Grounded d c' := by
  obtain ⟨result, invoked⟩ := called.invokes
  change c'.invocations = c.invocations ++ _ at invoked
  have resolution : c'.resolution? d = some r :=
    (congrArg (·.get? d.serial) called.resolutions).trans (Registry.get?_insert_self _ _ _)
  have method : c'.factoryMethod? d = some r.executable :=
    (congrArg (·.get? d.serial) called.factoryMethods).trans (c.factoryMethod?_keeping r named)
  refine ⟨fun name => ?_, grounded.journal.trans (invoked ▸ List.prefix_append _ _), ?_, ?_⟩
  · exact (congrArg (·.get? name) called.alike.classes).trans (grounded.classes name)
  · intro r' kept
    cases resolution.symm.trans kept
    refine ⟨⟨bean, call.executable, call.target, call.arguments, result⟩, ?_, same.symm, k,
      ⟨value, target, made⟩, same ▸ proposes⟩
    rw [invoked, List.drop_append_of_le_length grounded.journal.length_le]
    exact List.mem_append_right _ List.mem_cons_self
  · intro e remembered
    cases method.symm.trans remembered
    obtain ⟨type, -, own⟩ := Option.bind_eq_some_iff.mp made
    exact same ▸ proposes.lists own

end Grounded

theorem grounded_works (origin : Container) (catalogued : Catalogued known) (member : d ∈ known)
    (behind : d.factoryBean.isSome = true) :
    (Realm.everywhere (· ∈ known)).Works fun c => c.Lawful known ∧ origin.Grounded d c where
  registered _ name d' inv found := inv.1.registered name d' found
  rememberMethod c d' e inv member' opens listed := by
    refine ⟨inv.1.rememberMethod member' opens, inv.2.rememberMethod fun same => ?_⟩
    cases inv.1.eq_of_serial_eq member' member same
    obtain ⟨m, type, k, held, own, offered⟩ := listed behind
    exact ⟨type, k, (classOfType?_congr held.2.classes type).symm.trans own, offered⟩
  push _ _ _ := trivial
  asks _ name d' inv found _ := inv.1.registered name d' found
  inside _ _ d' _ _ member h held inner within := catalogued d' member h held inner within
  emit _ _ inv := ⟨inv.1.frame rfl rfl rfl rfl, inv.2.frame rfl rfl rfl rfl⟩
  nextInnerName _ inv := ⟨inv.1.frame rfl rfl rfl rfl, inv.2.frame rfl rfl rfl rfl⟩
  registerDependent _ _ _ inv := ⟨inv.1.frame rfl rfl rfl rfl, inv.2.frame rfl rfl rfl rfl⟩
  registerSingleton _ _ _ _ _ _ _ _ _ inv :=
    ⟨inv.1.frame rfl rfl rfl rfl, inv.2.frame rfl rfl rfl rfl⟩
  begins _ _ _ _ _ _ _ member _ := ⟨trivial, member⟩
  concerns _ _ member := member
  kept _ _ _ inv member := inv.1.keptFor member
  suppress _ _ inv := ⟨inv.1.frame rfl rfl rfl rfl, inv.2.frame rfl rfl rfl rfl⟩
  makeObject _ inv := ⟨inv.1.frame rfl rfl rfl rfl, inv.2.frame rfl rfl rfl rfl⟩
  invoke _ _ inv :=
    ⟨inv.1.frame rfl rfl rfl rfl, inv.2.grows rfl (List.prefix_append _ _) rfl rfl⟩

end Container

theorem Work.instantiate_called (bean : String) (complete : call.IsComplete)
    (bound : call.target = none → call.executable.isStatic = true) (c : Container) :
    c.Called ((Work.instantiate bean call.executable call.target call.arguments).run c).2 bean
      call := by
  obtain ⟨r, m, performed⟩ : ∃ r m, (Work.perform call.executable call.arguments).run c = (r, m) :=
    ⟨_, _, rfl⟩
  have made : ∃ made, m = { c with objectsMade := made } := by
    unfold Work.perform at performed
    split at performed
    · exact ⟨_, (Prod.ext_iff.mp performed).2.symm⟩
    · exact ⟨_, (Prod.ext_iff.mp performed).2.symm⟩
    · split at performed <;> exact ⟨_, (Prod.ext_iff.mp performed).2.symm⟩
    · exact ⟨_, (Prod.ext_iff.mp performed).2.symm⟩
  obtain ⟨made, rfl⟩ := made
  have enough : ¬call.arguments.length ≠ call.executable.arity := not_not_intro complete
  have unbound : ¬(!call.executable.isConstructor && !call.executable.isStatic &&
      call.target.isNone) = true := by
    intro refused
    simp only [Bool.and_eq_true, Bool.not_eq_true', Option.isNone_iff_eq_none] at refused
    cases (bound refused.2).symm.trans refused.1.2
  unfold Work.instantiate
  rw [if_neg enough, if_neg unbound, run_bind, run_invoke performed]
  split
  · exact ⟨⟨rfl, rfl, rfl, rfl⟩, rfl, rfl, _, rfl⟩
  · split <;> exact ⟨⟨rfl, rfl, rfl, rfl⟩, rfl, rfl, _, rfl⟩

namespace Creation

theorem target_of_factoryTarget (behind : n.definition.factoryBean.isSome = true)
    {target : Option Value} (targeted : n.factoryTarget.run.run c = (.ok (target, k), m)) :
    ∃ value, target = some value ∧ value.runtimeType.bind m.classOfType? = some k := by
  unfold factoryTarget at targeted
  split at targeted
  · split at targeted
    · cases targeted
    · obtain ⟨value, m₁, -, rest⟩ := Attempt.run_bind_eq_ok.mp targeted
      obtain ⟨_, m₂, -, rest⟩ := Attempt.run_bind_eq_ok.mp rest
      rw [Attempt.run_get_bind] at rest
      split at rest
      · rename_i beanClass own
        cases rest
        exact ⟨value, rfl, own⟩
      · cases rest
  · rename_i static
    rw [static] at behind
    cases behind

theorem mem_of_search {kind : SearchKind} {source : ArgumentSource} {minCount : Nat}
    {autowiring : Bool} {candidates : List Executable} {found : Search} {best : Selected}
    (run : (n.search kind source minCount autowiring candidates).run c = (found, c'))
    (chosen : found.best = some best) : best.executable ∈ candidates :=
  of_search (P := (· ∈ candidates)) (fun _ member _ => member) run chosen

theorem mem_of_methodAmong {target : Option Value} {candidates : List Executable}
    (run : (n.methodAmong target k candidates).run.run c = (.ok call, c')) :
    call.executable ∈ candidates ∧ call.target = target := by
  unfold methodAmong at run
  split at run
  · rename_i only lone
    obtain ⟨rfl, rfl⟩ := Attempt.run_pure_eq_ok.mp run
    exact ⟨bareCandidate?_mem (Option.filter_eq_some_iff.mp lone).1, rfl⟩
  · obtain ⟨_, _, _, _, _, best, -, searched, chosen, -, -, rfl, -⟩ :=
      byClosestMethod_ok_iff.mp run
    exact ⟨mem_of_search searched chosen, rfl⟩

theorem proposes_of_factoryMethods {candidates : List Executable}
    (grounded : origin.Grounded n.definition c) (behind : n.definition.factoryBean.isSome = true)
    (listed : (n.factoryMethods k).run.run c = (.ok candidates, c')) (member : e ∈ candidates) :
    origin.Proposes n.definition k e := by
  obtain ⟨rfl, ⟨unique, method, remembered, belongs, rfl⟩ | ⟨-, all⟩⟩ :=
    factoryMethods_ok_iff.mp listed
  · cases List.mem_singleton.mp member
    exact .inr ⟨unique, belongs, grounded.remembered e remembered⟩
  · have offered := BeanClass.mem_methodCandidates all member
    rw [Option.isNone_eq_false_iff.mpr behind] at offered
    exact .inl offered

theorem found_of_call {w : Realm} {I : Container → Prop} (works : w.Works I) (full : n.host = .full)
    (creates : w.Agree I n.create n.create) (place : w.place n.context)
    (known : w.known n.definition) (named : n.definition.factoryMethod.isSome = true)
    (behind : n.definition.factoryBean.isSome = true)
    (grounded : ∀ m, I m → origin.Grounded n.definition m) (inv : I c)
    (run : n.call.run.run c = (.ok call, c')) :
    I c' ∨ ∃ m r value k, I m ∧ c' = m.keeping n.definition r ∧ r.executable = call.executable ∧
      call.target = some value ∧ value.runtimeType.bind origin.classOfType? = some k ∧
      origin.Proposes n.definition k call.executable := by
  have hosts : Host.Alike I n.host n.host := by
    rw [full]
    exact works.full_self.alike
  rw [run_call_of_factoryMethod named] at run
  obtain ⟨target, k, m, targeted, ways⟩ := byFactoryMethod_ok_iff.mp run
  have targets : Attempt.Agree I n.factoryTarget (n.elsewhere n.host n.create).factoryTarget _ :=
    works.factoryTarget creates place
  obtain ⟨own, held⟩ := (targets.ends inv).2.2 _ _ targeted
  have remembers := (works.remembered hosts creates place n.bean known n.explicit held).2.2
  rcases ways with ⟨e, arguments, remembered, rfl⟩ | ⟨m', candidates, m'', nothing, listed, last⟩
  · exact .inl (remembers _ _ remembered).1
  · obtain ⟨held', rfl, absent⟩ := remembers _ _ nothing
    have lists : Attempt.Agree I (n.factoryMethods k) ((n.elsewhere n.host n.create).factoryMethods k)
        _ := Realm.Works.factoryMethods own
    obtain ⟨tried, kept⟩ := (lists.ends held').2.2 _ _ listed
    have amongst : Attempt.Ends I m'' (n.methodAmong target k candidates)
        ((n.elsewhere n.host n.create).methodAmong target k candidates) _ :=
      works.methodAmong hosts creates place known named (fun ungiven => ⟨_, held', absent ungiven⟩)
        target k tried kept
    have decides := (amongst.2.2 call c' last).2
    obtain ⟨value, rfl, class_⟩ := target_of_factoryTarget behind targeted
    obtain ⟨member, target⟩ := mem_of_methodAmong last
    cases decides with
    | replayed _ _ _ _ inv => exact .inl inv
    | given _ _ inv => exact .inl inv
    | found _ _ _ same _ _ inv =>
      refine .inr ⟨_, _, value, k, inv, rfl, same, target, ?_, ?_⟩
      · have listed := funext (Container.classOfType?_congr (grounded _ held').classes)
        rwa [listed] at class_
      · exact proposes_of_factoryMethods (grounded _ held') behind listed member

end Creation

namespace Container

theorem grounded_conducts (origin : Container) (catalogued : Catalogued known) (member : d ∈ known)
    (named : d.factoryMethod.isSome = true) (behind : d.factoryBean.isSome = true) :
    (Realm.everywhere (· ∈ known)).Conducts fun c => c.Lawful known ∧ origin.Grounded d c where
  toWorks := grounded_works origin catalogued member behind
  settle n room c call m full within creates inside place begun inv run complete decides := by
    have works := grounded_works origin catalogued member behind
    have hosts := full.symm ▸ works.full_self
    have makes {I : Container → Prop} (works : (Realm.everywhere (· ∈ known)).Works I) {m : Container}
        (inv : I m) : I ((n.instantiate call).run.run m).2 := by
      have made : Attempt.Agree I (n.instantiate call) ((n.elsewhere .full n.create).instantiate call)
        _ := Realm.Works.instantiate (full.symm ▸ works.full_self) complete
      exact (made m inv).2.1
    have lawful : m.Lawful known := (inv.1.upholds.decided begun
      (decides.mono fun _ held => ⟨held.1, trivial⟩)).1
    by_cases own : n.definition = d
    · subst own
      rcases Creation.found_of_call works full creates place begun named behind (fun _ held => held.2)
        inv run with inv | ⟨m', r, value, k, inv, rfl, same, target, made, proposes⟩
      · exact makes works inv
      · refine ⟨(makes lawful.upholds.toWorks ⟨lawful, trivial⟩).1, ?_⟩
        have called := Work.instantiate_called n.bean complete
          (fun none => nomatch target.symm.trans none) (m'.keeping n.definition r)
        rw [Creation.run_instantiate, full]
        exact inv.2.found named called same target made proposes
    · refine makes works ⟨lawful, ?_⟩
      cases decides with
      | replayed _ _ _ _ inv => exact inv.2
      | given _ _ inv => exact inv.2
      | @found _ m' r _ _ _ _ _ _ inv =>
        have apart : n.definition.serial ≠ d.serial :=
          fun same => own (inv.1.eq_of_serial_eq begun member same)
        refine inv.2.grows rfl List.prefix_rfl (resolution?_withResolution_of_ne m' apart r) ?_
        exact (m'.factoryMethods_keeping n.definition r d.serial).resolve_right fun same =>
          apart same.2

end Container

end BeanWiring
