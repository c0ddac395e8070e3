import BeanWiring.Proofs.Greedy
import BeanWiring.Proofs.Settled.Candidates

/-!
The ways a creation goes to its call. It follows what is kept for its definition, or it searches among
the candidates where nothing is kept; the rest of the decision is then a run of that alone. A search is
a sequence of trials.
-/
namespace BeanWiring

theorem Attempt.replayFrom_append {host : Host} {create : Creator} {ctx : Context} {bean : String}
    {e : Executable} {index : Nat} {before parameters : List Parameter}
    {earlier recipes : List Recipe} (length : earlier.length = before.length) :
    replayFrom host create ctx bean e index (before ++ parameters) (earlier ++ recipes) = (do
      let first ← replayFrom host create ctx bean e index before earlier
      return first ++
        (← replayFrom host create ctx bean e (index + before.length) parameters recipes)) := by
  induction before generalizing index earlier with
  | nil =>
    obtain rfl := List.eq_nil_of_length_eq_zero length
    unfold replayFrom
    simp
  | cons parameter before ih =>
    obtain ⟨recipe, earlier, rfl⟩ := List.exists_cons_of_length_eq_add_one length
    simp only [List.cons_append, replayFrom, bind_assoc]
    refine congrArg _ (funext fun value => ?_)
    cases value.convertArgument bean (e.injectionPoint bean index parameter) with
    | error failure => rfl
    | ok argument =>
      rw [List.length_cons, ← Nat.add_assoc, Nat.add_right_comm]
      simp only [ih (Nat.succ.inj length), bind_assoc, pure_bind, List.cons_append]

namespace Creation

variable {n : Creation} {c m : Container}

inductive Closest (n : Creation) : SearchKind → Bool → List Executable → Attempt Call → Prop
  | constructor (beanClass : BeanClass) (autowiring : Bool) (candidates : List Executable) :
      n.Closest .constructor autowiring candidates
        (n.byClosestConstructor beanClass autowiring candidates)
  | factoryMethod (factoryBean : Option Value) (beanClass : BeanClass)
      (candidates : List Executable) :
      n.Closest .factoryMethod n.definition.autowire candidates
        (n.byClosestMethod factoryBean beanClass candidates)

inductive ComesToSearch (n : Creation) (c : Container) :
    SearchKind → Bool → List Executable → Attempt Call → Container → Prop
  | constructor {beanClass : BeanClass} {given : Option (List Executable)}
      {candidates : List Executable} :
      n.definition.factoryMethod.isSome = false → n.definition.beanClass = some beanClass →
      (n.explicit = none → c.resolution? n.definition = none) →
      n.favoured (c.resolution? n.definition).isSome beanClass = .ok given →
      (n.constructors beanClass given).run.run c = (.ok candidates, c) →
      n.bareCandidate? candidates = none →
      n.ComesToSearch c .constructor (given.isSome || n.definition.autowire) candidates
        (n.byClosestConstructor beanClass (given.isSome || n.definition.autowire) candidates) c
  | factoryMethod {factoryBean : Option Value} {beanClass : BeanClass}
      {candidates : List Executable} {m : Container} :
      n.definition.factoryMethod.isSome = true →
      n.factoryTarget.run.run c = (.ok (factoryBean, beanClass), m) →
      (n.explicit = none → m.resolution? n.definition = none) →
      (n.factoryMethods beanClass).run.run m = (.ok candidates, m) →
      (n.bareCandidate? candidates).filter (!·.returnType.isVoid) = none →
      n.ComesToSearch c .factoryMethod n.definition.autowire candidates
        (n.byClosestMethod factoryBean beanClass candidates) m

inductive FollowsKept (n : Creation) (c : Container) (r : Resolution) :
    (target : Option Value) → Container → Prop
  | constructor {beanClass : BeanClass} :
      n.explicit = none → n.definition.factoryMethod.isSome = false →
      n.definition.beanClass = some beanClass → c.resolution? n.definition = some r →
      n.FollowsKept c r none c
  | factoryMethod {factoryBean : Option Value} {beanClass : BeanClass} {m : Container} :
      n.explicit = none → n.definition.factoryMethod.isSome = true →
      n.factoryTarget.run.run c = (.ok (factoryBean, beanClass), m) →
      m.resolution? n.definition = some r → n.FollowsKept c r factoryBean m

section Lone

variable {kind : SearchKind} {source : ArgumentSource} {minCount : Nat} {autowiring fallback : Bool}
  {e : Executable}

theorem run_bindCandidate_of_ok {b : Binding}
    (binds : (Work.bind (n.setting autowiring fallback) e source).run.run c = (.ok b, m)) :
    (n.bindCandidate kind source autowiring fallback e).run c = (.ok b, m) := by
  unfold setting at binds
  unfold bindCandidate
  rw [Work.run_bind, binds]
  rfl

theorem run_bindCandidate_of_error {failure : Unsatisfied}
    (fails : (Work.bind (n.setting autowiring fallback) e source).run.run c = (.error failure, m)) :
    (n.bindCandidate kind source autowiring fallback e).run c = (.error failure,
      ((Work.emit (.ignoringCandidate n.bean kind.noun e failure)).run m).2) := by
  unfold setting at fails
  unfold bindCandidate
  rw [Work.run_bind, fails]
  rfl

theorem search_of_lone (suits : source.suits minCount e = true) {r : Except Unsatisfied Binding}
    (tried : (n.bindCandidate kind source autowiring true e).run c = (r, m)) :
    ∃ k, (n.search kind source minCount autowiring [e]).run c =
      (Search.start.step kind n.definition.lenient e r, k) := by
  have goesOn : Search.start.stopsAt kind e = false := by cases kind <;> rfl
  have ran := Search.run_cons_of_eligible n.definition.lenient
    (n.bindCandidate kind source autowiring true) c goesOn suits []
  rw [tried] at ran
  exact ⟨_, run_search ran⟩

end Lone

/-- The trials of a search: of the candidates it looks at in their order, those that have room for the
arguments are bound one after another. It ends with all candidates, or before the first one it stops
at. -/
structure LooksThrough (n : Creation) (kind : SearchKind) (source : ArgumentSource) (minCount : Nat)
    (autowiring : Bool) (candidates : List Executable) (trials : List Trial) (found : Search)
    (c c' : Container) : Prop where
  looks : ∃ seen unseen, candidates = seen ++ unseen ∧
    Search.start.LooksAt kind n.definition.lenient (source.suits minCount)
      (n.bindCandidate kind source autowiring (candidates.length == 1)) c seen ∧
    seen.filter (source.suits minCount) = trials.map (·.candidate) ∧
    ∀ stop rest, unseen = stop :: rest → found.stopsAt kind stop = true
  bound : ((trials.map (·.candidate)).mapM
    (n.bindCandidate kind source autowiring (candidates.length == 1))).run c =
      (trials.map (·.outcome), c')
  tallies : found.Tallies kind n.definition.lenient trials
  found : (n.search kind source minCount autowiring candidates).run c =
    (found, found.best.elim c' fun best => ((Work.emit (.selected n.bean kind.noun
      best.executable found.weight (best.binding.map (·.provenance)))).run c').2)

theorem exists_looksThrough (n : Creation) (kind : SearchKind) (source : ArgumentSource)
    (minCount : Nat) (autowiring : Bool) (candidates : List Executable) (c : Container) :
    ∃ trials found c', n.LooksThrough kind source minCount autowiring candidates trials found c c' := by
  obtain ⟨found, trials, seen, unseen, c', ran, split, looks, listed, bound, tallies, ends⟩ :=
    Search.run_invariant (source.suits minCount)
      (n.bindCandidate kind source autowiring (candidates.length == 1))
      (fun s trials _ => s.Tallies kind n.definition.lenient trials)
      (fun {_ _ e _ r _ _} tallies _ _ => tallies.step e r) id candidates Search.tallies_start c
  exact ⟨trials, found, c', ⟨seen, unseen, split, looks, listed, ends⟩, bound, tallies,
    run_search ran⟩

theorem Closest.exhausted {kind : SearchKind} {autowiring : Bool} {candidates : List Executable}
    {decide : Attempt Call} {source : ArgumentSource} {minCount : Nat}
    (closest : n.Closest kind autowiring candidates decide)
    (sourced : n.source.run.run c = (.ok (source, minCount), m)) {found : Search} {m' : Container}
    (searched : (n.search kind source minCount autowiring candidates).run m = (found, m'))
    (unchosen : found.best = none) :
    ∃ noMatch, decide.run.run c = (n.exhausted found.failures noMatch).run.run m' := by
  cases closest with
  | constructor beanClass =>
    unfold byClosestConstructor
    rw [Attempt.run_bind_of_ok sourced, Attempt.run_bind_lift, searched]
    simp only [unchosen]
    exact ⟨_, rfl⟩
  | factoryMethod factoryBean beanClass =>
    unfold byClosestMethod
    rw [Attempt.run_bind_of_ok sourced, Attempt.run_bind_lift, searched]
    simp only [unchosen]
    exact ⟨_, rfl⟩

theorem run_call_of_favoured (plain : n.definition.factoryMethod.isSome = false)
    {beanClass : BeanClass} (owner : n.definition.beanClass = some beanClass)
    {given : Option (List Executable)}
    (favours : n.favoured (c.resolution? n.definition).isSome beanClass = .ok given) :
    n.call.run.run c = (n.byConstructor given).run.run c := by
  have picked : (liftExcept (n.favoured (c.resolution? n.definition).isSome beanClass) :
      Attempt _).run.run c = (.ok given, c) := by
    rw [Attempt.run_liftExcept, favours]
  unfold call
  rw [plain, owner]
  exact Attempt.run_bind_of_ok picked

theorem run_call_of_factoryMethod (named : n.definition.factoryMethod.isSome = true) :
    n.call = n.byFactoryMethod := by
  unfold call
  rw [if_pos named]

theorem run_call_of_constructors (plain : n.definition.factoryMethod.isSome = false)
    {beanClass : BeanClass} (owner : n.definition.beanClass = some beanClass)
    {given : Option (List Executable)}
    (unresolved : n.explicit = none → c.resolution? n.definition = none)
    (favours : n.favoured (c.resolution? n.definition).isSome beanClass = .ok given) :
    n.call.run.run c = (n.constructors beanClass given >>=
      n.constructorAmong beanClass (given.isSome || n.definition.autowire)).run.run c := by
  rw [run_call_of_favoured plain owner favours]
  unfold byConstructor
  rw [Attempt.run_bind_of_ok (remembered_of_unresolved unresolved), owner]

theorem run_call_of_methods (named : n.definition.factoryMethod.isSome = true)
    {factoryBean : Option Value} {beanClass : BeanClass}
    (targeted : n.factoryTarget.run.run c = (.ok (factoryBean, beanClass), m))
    (unresolved : n.explicit = none → m.resolution? n.definition = none) :
    n.call.run.run c =
      (n.factoryMethods beanClass >>= n.methodAmong factoryBean beanClass).run.run m := by
  rw [run_call_of_factoryMethod named]
  unfold byFactoryMethod
  rw [Attempt.run_bind_of_ok targeted,
    Attempt.run_bind_of_ok (remembered_of_unresolved unresolved)]

theorem ComesToSearch.run_call {kind : SearchKind} {autowiring : Bool} {candidates : List Executable}
    {decide : Attempt Call} (comes : n.ComesToSearch c kind autowiring candidates decide m) :
    n.call.run.run c = decide.run.run m := by
  cases comes with
  | constructor plain owner unresolved favours listed lone =>
    rw [run_call_of_constructors plain owner unresolved favours, Attempt.run_bind_of_ok listed]
    unfold constructorAmong
    rw [lone]
  | factoryMethod named targeted unresolved listed lone =>
    rw [run_call_of_methods named targeted unresolved, Attempt.run_bind_of_ok listed]
    unfold methodAmong
    rw [lone]

theorem ComesToSearch.closest {kind : SearchKind} {autowiring : Bool} {candidates : List Executable}
    {decide : Attempt Call} (comes : n.ComesToSearch c kind autowiring candidates decide m) :
    n.Closest kind autowiring candidates decide := by
  cases comes with
  | constructor => exact .constructor ..
  | factoryMethod => exact .factoryMethod ..

theorem FollowsKept.run_call {r : Resolution} {target : Option Value}
    (follows : n.FollowsKept c r target m) :
    n.call.run.run c =
      (do return ⟨r.executable, target, ← Attempt.recollect n.host n.create n.context n.bean r⟩ :
        Attempt Call).run.run m := by
  cases follows with
  | @constructor beanClass ungiven plain owner kept =>
    have favours : n.favoured (c.resolution? n.definition).isSome beanClass = .ok none := by
      rw [kept]
      exact favoured_of_kept ungiven beanClass
    rw [run_call_of_favoured plain owner favours]
    unfold byConstructor
    rw [Attempt.run_bind_congr (run_remembered ungiven c), kept]
    simp only [bind_assoc, pure_bind]
  | factoryMethod ungiven named targeted kept =>
    rw [run_call_of_factoryMethod named]
    unfold byFactoryMethod
    rw [Attempt.run_bind_of_ok targeted]
    dsimp only
    rw [Attempt.run_bind_congr (run_remembered ungiven m), kept]
    simp only [bind_assoc, pure_bind]

end Creation

end BeanWiring
