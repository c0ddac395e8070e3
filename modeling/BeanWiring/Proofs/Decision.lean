import BeanWiring.Container.Creation
import BeanWiring.Proofs.Conversion
import BeanWiring.Proofs.Kept
import BeanWiring.Proofs.Registry

/-!
What a creation decides on. Without given arguments it replays what is kept for its definition, or
searches where nothing is kept; a search that succeeds keeps the match it decided on.
-/
namespace BeanWiring

def ArgumentSource.Binds (source : ArgumentSource) (e : Executable) (b : Binding) : Prop :=
  b.length = e.arity ∧ ∀ values, source = .declared values →
    ∃ s c c', (Work.bindDeclared s e values).run.run c = (.ok b, c')

namespace Binding

variable {e : Executable} {bean : String} {given index : Nat} {parameters : List Parameter}
  {arguments : List Value} {b : Binding}

theorem ofExplicitFrom_cons_ok {parameter : Parameter}
    (made : ofExplicitFrom e bean given index (parameter :: parameters) arguments = .ok b) :
    ∃ raw rest argument bound, arguments = raw :: rest ∧
      raw.convert parameter.type = .ok argument ∧
      ofExplicitFrom e bean given (index + 1) parameters rest = .ok bound ∧
      b = ⟨raw, argument, .value argument, .explicitPositional⟩ :: bound := by
  cases arguments with
  | nil => cases made
  | cons raw rest =>
    simp only [ofExplicitFrom] at made
    split at made
    · cases made
    · rename_i argument converted
      cases later : ofExplicitFrom e bean given (index + 1) parameters rest with
      | error failure =>
        rw [later] at made
        cases made
      | ok bound =>
        rw [later] at made
        cases made
        exact ⟨raw, rest, argument, bound, rfl, Value.convertArgument_eq_ok.mp converted, later, rfl⟩

theorem fit_ofExplicitFrom
    (made : ofExplicitFrom e bean given index parameters arguments = .ok b) :
    Parameter.Fit parameters b.arguments := by
  induction parameters generalizing index arguments b with
  | nil =>
    cases made
    exact .nil
  | cons parameter parameters ih =>
    obtain ⟨raw, rest, argument, bound, rfl, converted, later, rfl⟩ := ofExplicitFrom_cons_ok made
    exact .cons (Value.fits_of_convert converted) (ih later)

theorem length_ofExplicit (made : ofExplicit e bean arguments = .ok b) : b.length = e.arity :=
  (List.length_map _).symm.trans (fit_ofExplicitFrom made).length_eq.symm

end Binding

theorem Work.bind_ok {s : Setting} {e : Executable} {source : ArgumentSource} {b : Binding}
    {c c' : Container} (bound : (bind s e source).run.run c = (.ok b, c')) : source.Binds e b := by
  cases source with
  | explicit arguments =>
    exact ⟨Binding.length_ofExplicit (Attempt.run_liftM_eq_ok.mp bound).1, nofun⟩
  | declared values =>
    refine ⟨(bindDeclared_ok bound).length_eq.2, fun values' same => ?_⟩
    cases same
    exact ⟨s, c, c', bound⟩

namespace Attempt

variable {I : Container → Prop} {host : Host} {create : Creator} {ctx : Context} {bean : String}

theorem replayFrom_ok {e : Executable} {index : Nat} {parameters : List Parameter}
    {recipes : List Recipe} {arguments : List Value} {c c' : Container}
    (keeps : ∀ point, ∀ recipe ∈ recipes, Agree I (replayRecipe host create ctx bean point recipe)
      (replayRecipe host create ctx bean point recipe) fun _ => True)
    (inv : I c)
    (run : (replayFrom host create ctx bean e index parameters recipes).run.run c =
      (.ok arguments, c')) {i : Nat} {parameter : Parameter} {recipe : Recipe}
    (there : parameters[i]? = some parameter) (followed : recipes[i]? = some recipe) :
    ∃ m m' value argument, I m ∧
      (replayRecipe host create ctx bean (e.injectionPoint bean (index + i) parameter) recipe).run.run
        m = (.ok value, m') ∧
      value.convert parameter.type = .ok argument ∧ arguments[i]? = some argument := by
  induction parameters generalizing index recipes arguments c c' i with
  | nil => cases there
  | cons first parameters ih =>
    cases recipes with
    | nil => cases followed
    | cons recipe' recipes =>
      obtain ⟨value, m, given, rest⟩ := run_bind_eq_ok.mp run
      split at rest
      · cases rest
      · rename_i argument converted
        obtain ⟨later, m', others, last⟩ := run_bind_eq_ok.mp rest
        rw [← (run_pure_eq_ok.mp last).1]
        cases i with
        | zero =>
          cases there
          cases followed
          exact ⟨c, m, value, argument, inv, given, Value.convertArgument_eq_ok.mp converted, rfl⟩
        | succ i =>
          have kept : I m := (keeps _ recipe' List.mem_cons_self).kept inv given
          have found := ih
            (fun point recipe member => keeps point recipe (List.mem_cons_of_mem _ member))
            kept others there followed
          rwa [Nat.add_right_comm] at found

end Attempt

namespace Search

variable {I : Container → Prop} {P : Selected → Prop} {kind : SearchKind} {lenient : Bool}

theorem step_best {s : Search} {candidate : Executable} {r : Except Unsatisfied Binding}
    (bounded : s.weight ≤ Weight.greatest) (sofar : ∀ best, s.best = some best → P best)
    (found : ∀ b, r = .ok b → b.weight lenient candidate.parameterTypes < Weight.greatest →
      P ⟨candidate, b⟩) :
    (s.step kind lenient candidate r).weight ≤ Weight.greatest ∧
      ∀ best, (s.step kind lenient candidate r).best = some best → P best := by
  cases r with
  | error failure => exact ⟨bounded, sofar⟩
  | ok b =>
    simp only [step, consider]
    split
    · rename_i less
      have below := Int.lt_of_lt_of_le less bounded
      refine ⟨Int.le_of_lt below, fun best chosen => ?_⟩
      cases chosen
      exact found b rfl below
    · split
      · exact ⟨bounded, sofar⟩
      · split <;> exact ⟨bounded, sofar⟩

theorem run_agree {eligible : Executable → Bool}
    {bind bind' : Executable → Work (Except Unsatisfied Binding)} {candidates : List Executable}
    (each : ∀ e ∈ candidates, eligible e = true →
      Work.Agree I (bind e) (bind' e) fun r => ∀ b, r = .ok b →
        b.weight lenient e.parameterTypes < Weight.greatest → P ⟨e, b⟩)
    {s : Search} (bounded : s.weight ≤ Weight.greatest)
    (sofar : ∀ best, s.best = some best → P best) :
    Work.Agree I (run kind lenient eligible bind s candidates)
      (run kind lenient eligible bind' s candidates)
      fun found => ∀ best, found.best = some best → P best := by
  induction candidates generalizing s with
  | nil => exact .pure sofar
  | cons candidate rest ih =>
    have later := fun e member => each e (List.mem_cons_of_mem candidate member)
    unfold run
    split
    · exact .pure sofar
    · split
      · rename_i suits
        refine .bind (each candidate List.mem_cons_self suits) fun r bound => ?_
        obtain ⟨bounded, sofar⟩ := step_best bounded sofar bound
        exact ih later bounded sofar
      · exact ih later bounded sofar

end Search

namespace Creation

variable {n : Creation} {call : Call} {c c' : Container}

theorem bindCandidate_ok {kind : SearchKind} {source : ArgumentSource} {autowiring fallback : Bool}
    {e : Executable} {b : Binding}
    (bound : (n.bindCandidate kind source autowiring fallback e).run c = (.ok b, c')) :
    (Work.bind ⟨Attempt.fetcher n.create, n.context, n.bean, autowiring, fallback⟩ e source).run.run c =
      (.ok b, c') := by
  obtain ⟨r, m, run⟩ : ∃ r m, (Work.bind ⟨Attempt.fetcher n.create, n.context, n.bean, autowiring,
    fallback⟩ e source).run.run c = (r, m) := ⟨_, _, rfl⟩
  unfold bindCandidate at bound
  rw [Work.run_bind] at bound
  rw [run] at bound ⊢
  cases r with
  | ok b' => exact bound
  | error failure => cases bound

theorem search_agree {I : Container → Prop} {P : Selected → Prop} {m : Creation}
    (kind : SearchKind) (source : ArgumentSource) (minCount : Nat) (autowiring : Bool)
    (candidates : List Executable) (lenient : m.definition.lenient = n.definition.lenient)
    (bean : m.bean = n.bean)
    (emit : ∀ event, Work.Agree I (Work.emit event) (Work.emit event) fun _ => True)
    (each : ∀ e ∈ candidates, source.suits minCount e = true →
      Work.Agree I (n.bindCandidate kind source autowiring (candidates.length == 1) e)
        (m.bindCandidate kind source autowiring (candidates.length == 1) e)
        fun r => ∀ b, r = .ok b →
          b.weight n.definition.lenient e.parameterTypes < Weight.greatest → P ⟨e, b⟩) :
    Work.Agree I (n.search kind source minCount autowiring candidates)
      (m.search kind source minCount autowiring candidates)
      fun found => ∀ best, found.best = some best → P best := by
  unfold search
  rw [lenient, bean]
  refine .bind (Search.run_agree each (Int.le_refl _) nofun) fun found chosen => ?_
  split
  · exact .pure chosen
  · exact .bind (emit _) fun _ _ => .pure chosen

def setting (n : Creation) (autowiring fallback : Bool) : Work.Setting :=
  ⟨Attempt.fetcher n.create, n.context, n.bean, autowiring, fallback⟩

/-- What a search chooses is a candidate as it was bound, and not of the greatest weight. -/
theorem search_ok {kind : SearchKind} {source : ArgumentSource} {minCount : Nat} {autowiring : Bool}
    {candidates : List Executable} {found : Search} {best : Selected}
    (run : (n.search kind source minCount autowiring candidates).run c = (found, c'))
    (chosen : found.best = some best) :
    (∃ m m', (Work.bind (n.setting autowiring (candidates.length == 1)) best.executable
      source).run.run m = (.ok best.binding, m')) ∧
    best.binding.weight n.definition.lenient best.executable.parameterTypes < Weight.greatest := by
  -- A run cannot be looked into, but what holds of every candidate that is bound holds of the one
  -- chosen.
  have each : ∀ e ∈ candidates, source.suits minCount e = true →
      Work.Agree (fun _ => True)
        (n.bindCandidate kind source autowiring (candidates.length == 1) e)
        (n.bindCandidate kind source autowiring (candidates.length == 1) e)
        fun r => ∀ b, r = .ok b →
          b.weight n.definition.lenient e.parameterTypes < Weight.greatest →
          (∃ m m', (Work.bind (n.setting autowiring (candidates.length == 1)) e source).run.run m =
            (.ok b, m')) ∧
          b.weight n.definition.lenient e.parameterTypes < Weight.greatest := by
    intro e _ _
    refine (Work.Agree.self _).mono fun r found b same less => ⟨?_, less⟩
    obtain ⟨m, m', bound⟩ := found
    exact ⟨m, m', bindCandidate_ok (same ▸ bound)⟩
  have searches := search_agree
    (P := fun best => (∃ m m', (Work.bind (n.setting autowiring (candidates.length == 1))
      best.executable source).run.run m = (.ok best.binding, m')) ∧
      best.binding.weight n.definition.lenient best.executable.parameterTypes < Weight.greatest)
    kind source minCount autowiring candidates rfl rfl
    (fun event => (Work.Agree.self _).mono fun _ _ => trivial) each
  have found := (searches c trivial).2.2
  rw [run] at found
  exact found best chosen

theorem of_search {kind : SearchKind} {source : ArgumentSource} {minCount : Nat} {autowiring : Bool}
    {candidates : List Executable} {found : Search} {best : Selected} {P : Executable → Prop}
    (each : ∀ e ∈ candidates, source.suits minCount e = true → P e)
    (run : (n.search kind source minCount autowiring candidates).run c = (found, c'))
    (chosen : found.best = some best) : P best.executable := by
  have bindings : ∀ e ∈ candidates, source.suits minCount e = true →
      Work.Agree (fun _ => True)
        (n.bindCandidate kind source autowiring (candidates.length == 1) e)
        (n.bindCandidate kind source autowiring (candidates.length == 1) e)
        fun r => ∀ b, r = .ok b → b.weight n.definition.lenient e.parameterTypes < Weight.greatest →
          P e :=
    fun e member suits => (Work.Agree.self _).mono fun _ _ _ _ _ => each e member suits
  have searches := search_agree (P := fun best => P best.executable) kind source minCount
    autowiring candidates rfl rfl (fun event => (Work.Agree.self _).mono fun _ _ => trivial) bindings
  have found := (searches c trivial).2.2
  rw [run] at found
  exact found best chosen

theorem source_ok_iff (ungiven : n.explicit = none) {source : ArgumentSource} {minCount : Nat} :
    n.source.run.run c = (.ok (source, minCount), c') ↔
      ∃ values, source = .declared values ∧ n.definition.arguments.minCount? = some minCount ∧
        (Attempt.resolveArguments n.create n.context n.bean n.definition).run.run c =
          (.ok values, c') := by
  unfold Creation.source
  rw [ungiven]
  constructor
  · intro run
    obtain ⟨values, m, resolved, last⟩ := Attempt.run_bind_eq_ok.mp run
    cases counted : n.definition.arguments.minCount? with
    | none =>
      rw [counted] at last
      cases last
    | some minCount =>
      rw [counted] at last
      cases last
      exact ⟨values, rfl, rfl, resolved⟩
  · rintro ⟨values, rfl, counted, resolved⟩
    rw [Attempt.run_bind_of_ok resolved, counted]
    rfl

theorem chosenFor_of_binds {n : Creation} {source : ArgumentSource} {e : Executable}
    {b : Binding} (binds : source.Binds e b)
    (less : b.weight n.definition.lenient e.parameterTypes < Weight.greatest)
    (declared : ∃ values, source = .declared values ∧ n.definition.arguments.ResolveTo values)
    (notVoid : n.definition.factoryMethod.isSome → e.returnType.isVoid = false) :
    Resolution.ChosenFor ⟨e, b.kept⟩ n.definition := by
  obtain ⟨values, rfl, resolves⟩ := declared
  obtain ⟨s, c, c', run⟩ := binds.2 values rfl
  exact ⟨values, s, b, ⟨resolves, ⟨c, c', run⟩, rfl, notVoid⟩, less⟩

theorem bareCandidate?_some {n : Creation} {candidates : List Executable} {e : Executable}
    (lone : n.bareCandidate? candidates = some e) : n.isBare = true ∧ e.arity = 0 := by
  unfold bareCandidate? at lone
  split at lone
  · split at lone
    · rename_i bare
      cases lone
      simpa using bare
    · cases lone
  · cases lone

theorem bareCandidate?_mem {n : Creation} {candidates : List Executable} {e : Executable}
    (lone : n.bareCandidate? candidates = some e) : e ∈ candidates := by
  unfold bareCandidate? at lone
  split at lone
  · split at lone
    · cases lone
      exact List.mem_singleton_self e
    · cases lone
  · cases lone

theorem bound_of_bareCandidate {n : Creation} {candidates : List Executable} {e : Executable}
    (lone : n.bareCandidate? candidates = some e) :
    n.definition.arguments.holders = [] ∧ e.parameters = [] ∧
      n.definition.arguments.ResolveTo ⟨[], []⟩ ∧
      ∀ c, (Work.bindDeclared (n.setting false false) e ⟨[], []⟩).run.run c = (.ok [], c) := by
  obtain ⟨bare, arity⟩ := bareCandidate?_some lone
  obtain ⟨noIndexed, noGeneric⟩ : n.definition.arguments.indexed = [] ∧
      n.definition.arguments.generic = [] := by
    simpa [Blueprint.hasArguments, ArgumentValues.isEmpty, ArgumentValues.count] using
      (Bool.and_eq_true_iff.mp bare).2
  have parameters : e.parameters = [] := List.eq_nil_of_length_eq_zero arity
  refine ⟨?_, parameters, ?_, fun c => ?_⟩
  · unfold ArgumentValues.holders
    rw [noIndexed, noGeneric]
    rfl
  · unfold ArgumentValues.ResolveTo
    rw [noIndexed, noGeneric]
    exact ⟨.nil, .nil⟩
  · unfold Work.bindDeclared
    rw [parameters]
    rfl

theorem keeps_of_bareCandidate {n : Creation} {candidates : List Executable}
    {e : Executable} (lone : n.bareCandidate? candidates = some e)
    (notVoid : n.definition.factoryMethod.isSome → e.returnType.isVoid = false) :
    (∃ values, Resolution.Keeps ⟨e, .resolved []⟩ n.definition values (n.setting false false) []) ∧
      Binding.weight [] n.definition.lenient e.parameterTypes < Weight.greatest := by
  obtain ⟨-, parameters, resolves, bound⟩ := bound_of_bareCandidate lone
  refine ⟨⟨⟨[], []⟩, resolves, ⟨.new .initial, _, bound _⟩, rfl, notVoid⟩, ?_⟩
  unfold Executable.parameterTypes
  rw [parameters]
  cases n.definition.lenient <;> decide

theorem chosenFor_of_bareCandidate {n : Creation} {candidates : List Executable}
    {e : Executable} (lone : n.bareCandidate? candidates = some e)
    (notVoid : n.definition.factoryMethod.isSome → e.returnType.isVoid = false) :
    Resolution.ChosenFor ⟨e, .resolved []⟩ n.definition := by
  obtain ⟨⟨values, keeps⟩, light⟩ := keeps_of_bareCandidate lone notVoid
  exact ⟨values, _, [], keeps, light⟩

theorem exhausted_ne_ok {failures : List Unsatisfied} {noMatch : String} :
    (n.exhausted failures noMatch).run.run c ≠ (.ok call, c') := by
  unfold exhausted
  split <;> nofun

theorem byClosestConstructor_ok_iff {beanClass : BeanClass} {autowiring : Bool}
    {candidates : List Executable} :
    (n.byClosestConstructor beanClass autowiring candidates).run.run c = (.ok call, c') ↔
      ∃ source minCount m found m' best,
        n.source.run.run c = (.ok (source, minCount), m) ∧
        (n.search .constructor source minCount autowiring candidates).run m = (found, m') ∧
        found.best = some best ∧ (!found.ambiguous.isEmpty && !n.definition.lenient) = false ∧
        call = ⟨best.executable, none, best.binding.arguments⟩ ∧
        c' = ((n.keep best.executable best.binding.kept).run m').2 := by
  constructor
  · intro run
    obtain ⟨⟨source, minCount⟩, m, first, rest⟩ := Attempt.run_bind_eq_ok.mp run
    obtain ⟨found, m', searched⟩ : ∃ found m',
      (n.search .constructor source minCount autowiring candidates).run m = (found, m') := ⟨_, _, rfl⟩
    rw [Attempt.run_bind_lift, searched] at rest
    split at rest
    · exact absurd rest exhausted_ne_ok
    · rename_i best chosen
      split at rest
      · cases rest
      · rename_i untied
        rw [Attempt.run_bind_lift] at rest
        obtain ⟨rfl, rfl⟩ := Attempt.run_pure_eq_ok.mp rest
        exact ⟨source, minCount, m, found, m', best, first, searched, chosen,
          Bool.eq_false_iff.mpr untied, rfl, rfl⟩
  · rintro ⟨source, minCount, m, found, m', best, first, searched, chosen, untied, rfl, rfl⟩
    unfold byClosestConstructor
    rw [Attempt.run_bind_of_ok first, Attempt.run_bind_lift, searched]
    simp only [chosen, untied]
    rfl

theorem byClosestMethod_ok_iff {factoryBean : Option Value} {beanClass : BeanClass}
    {candidates : List Executable} :
    (n.byClosestMethod factoryBean beanClass candidates).run.run c = (.ok call, c') ↔
      ∃ source minCount m found m' best,
        n.source.run.run c = (.ok (source, minCount), m) ∧
        (n.search .factoryMethod source minCount n.definition.autowire candidates).run m =
          (found, m') ∧
        found.best = some best ∧ best.executable.returnType.isVoid = false ∧
        found.ambiguous.isEmpty = true ∧
        call = ⟨best.executable, factoryBean, best.binding.arguments⟩ ∧
        c' = ((n.keepMethod best.executable best.binding.kept).run m').2 := by
  constructor
  · intro run
    obtain ⟨⟨source, minCount⟩, m, first, rest⟩ := Attempt.run_bind_eq_ok.mp run
    obtain ⟨found, m', searched⟩ : ∃ found m',
      (n.search .factoryMethod source minCount n.definition.autowire candidates).run m =
        (found, m') := ⟨_, _, rfl⟩
    rw [Attempt.run_bind_lift, searched] at rest
    split at rest
    · exact absurd rest exhausted_ne_ok
    · rename_i best chosen
      dsimp only at rest
      split at rest
      · cases rest
      · rename_i notVoid
        split at rest
        · cases rest
        · rename_i untied
          rw [Attempt.run_bind_lift] at rest
          obtain ⟨rfl, rfl⟩ := Attempt.run_pure_eq_ok.mp rest
          exact ⟨source, minCount, m, found, m', best, first, searched, chosen,
            Bool.eq_false_iff.mpr notVoid, by simpa using untied, rfl, rfl⟩
  · rintro ⟨source, minCount, m, found, m', best, first, searched, chosen, notVoid, untied,
      rfl, rfl⟩
    unfold byClosestMethod
    rw [Attempt.run_bind_of_ok first, Attempt.run_bind_lift, searched]
    simp only [chosen, notVoid, untied]
    rfl

theorem run_factoryTarget_of_class {beanClass : BeanClass}
    (own : n.definition.factoryBean = none) (owner : n.definition.beanClass = some beanClass) :
    n.factoryTarget.run.run c = (.ok (none, beanClass), c) := by
  unfold factoryTarget
  rw [own, owner]
  rfl

theorem run_remembered (ungiven : n.explicit = none) (c : Container) :
    n.remembered.run.run c = (match c.resolution? n.definition with
      | none => pure none
      | some r => return some (r.executable,
          ← Attempt.recollect n.host n.create n.context n.bean r) : Attempt _).run.run c := by
  unfold remembered
  rw [ungiven]
  rfl

theorem remembered_none_iff (ungiven : n.explicit = none) :
    n.remembered.run.run c = (.ok none, c') ↔ c.resolution? n.definition = none ∧ c' = c := by
  rw [run_remembered ungiven]
  constructor
  · intro run
    split at run
    · rename_i nothing
      exact ⟨nothing, (Attempt.run_pure_eq_ok.mp run).2.symm⟩
    · obtain ⟨_, _, _, last⟩ := Attempt.run_bind_eq_ok.mp run
      cases (Attempt.run_pure_eq_ok.mp last).1
  · rintro ⟨nothing, rfl⟩
    rw [nothing]
    rfl

theorem remembered_of_unresolved (unresolved : n.explicit = none → c.resolution? n.definition = none) :
    n.remembered.run.run c = (.ok none, c) := by
  cases given : n.explicit with
  | none => exact (remembered_none_iff given).mpr ⟨unresolved given, rfl⟩
  | some arguments =>
    unfold remembered Attempt.remembered
    rw [given]
    rfl

theorem remembered_some_iff (ungiven : n.explicit = none) {e : Executable}
    {arguments : List Value} :
    n.remembered.run.run c = (.ok (some (e, arguments)), c') ↔
      ∃ r, c.resolution? n.definition = some r ∧ r.executable = e ∧
        (Attempt.recollect n.host n.create n.context n.bean r).run.run c = (.ok arguments, c') := by
  rw [run_remembered ungiven]
  constructor
  · intro run
    split at run
    · cases (Attempt.run_pure_eq_ok.mp run).1
    · rename_i r kept
      obtain ⟨arguments', m, recalled, last⟩ := Attempt.run_bind_eq_ok.mp run
      obtain ⟨same, rfl⟩ := Attempt.run_pure_eq_ok.mp last
      cases same
      exact ⟨r, kept, rfl, recalled⟩
  · rintro ⟨r, kept, rfl, recalled⟩
    rw [kept]
    exact Attempt.run_bind_of_ok recalled

theorem byConstructor_ok_iff {given : Option (List Executable)} :
    (n.byConstructor given).run.run c = (.ok call, c') ↔
      (∃ e arguments, n.remembered.run.run c = (.ok (some (e, arguments)), c') ∧
        call = ⟨e, none, arguments⟩) ∨
      ∃ m beanClass candidates m', n.remembered.run.run c = (.ok none, m) ∧
        n.definition.beanClass = some beanClass ∧
        (n.constructors beanClass given).run.run m = (.ok candidates, m') ∧
        (n.constructorAmong beanClass (given.isSome || n.definition.autowire) candidates).run.run
          m' = (.ok call, c') := by
  constructor
  · intro run
    obtain ⟨found, m, first, rest⟩ := Attempt.run_bind_eq_ok.mp run
    split at rest
    · rename_i e arguments
      obtain ⟨rfl, rfl⟩ := Attempt.run_pure_eq_ok.mp rest
      exact .inl ⟨e, arguments, first, rfl⟩
    · split at rest
      · cases rest
      · rename_i beanClass owner
        obtain ⟨candidates, m', second, last⟩ := Attempt.run_bind_eq_ok.mp rest
        exact .inr ⟨m, beanClass, candidates, m', first, owner, second, last⟩
  · rintro (⟨e, arguments, first, rfl⟩ | ⟨m, beanClass, candidates, m', first, owner, second, last⟩)
    · exact Attempt.run_bind_of_ok first
    · unfold byConstructor
      rw [Attempt.run_bind_of_ok first, owner]
      exact (Attempt.run_bind_of_ok second).trans last

theorem byFactoryMethod_ok_iff :
    n.byFactoryMethod.run.run c = (.ok call, c') ↔
      ∃ factoryBean beanClass m, n.factoryTarget.run.run c = (.ok (factoryBean, beanClass), m) ∧
        ((∃ e arguments, n.remembered.run.run m = (.ok (some (e, arguments)), c') ∧
          call = ⟨e, factoryBean, arguments⟩) ∨
        ∃ m' candidates m'', n.remembered.run.run m = (.ok none, m') ∧
          (n.factoryMethods beanClass).run.run m' = (.ok candidates, m'') ∧
          (n.methodAmong factoryBean beanClass candidates).run.run m'' = (.ok call, c')) := by
  constructor
  · intro run
    obtain ⟨⟨factoryBean, beanClass⟩, m, first, rest⟩ := Attempt.run_bind_eq_ok.mp run
    obtain ⟨found, m', second, rest⟩ := Attempt.run_bind_eq_ok.mp rest
    refine ⟨factoryBean, beanClass, m, first, ?_⟩
    split at rest
    · rename_i e arguments
      obtain ⟨rfl, rfl⟩ := Attempt.run_pure_eq_ok.mp rest
      exact .inl ⟨e, arguments, second, rfl⟩
    · obtain ⟨candidates, m'', third, last⟩ := Attempt.run_bind_eq_ok.mp rest
      exact .inr ⟨m', candidates, m'', second, third, last⟩
  · rintro ⟨factoryBean, beanClass, m, first,
      ⟨e, arguments, second, rfl⟩ | ⟨m', candidates, m'', second, third, last⟩⟩
    · unfold byFactoryMethod
      rw [Attempt.run_bind_of_ok first]
      exact Attempt.run_bind_of_ok second
    · unfold byFactoryMethod
      rw [Attempt.run_bind_of_ok first, Attempt.run_bind_of_ok second]
      exact (Attempt.run_bind_of_ok third).trans last

theorem call_ok_iff :
    n.call.run.run c = (.ok call, c') ↔
      (n.definition.factoryMethod.isSome = true ∧ n.byFactoryMethod.run.run c = (.ok call, c')) ∨
      (n.definition.factoryMethod.isSome = false ∧ ∃ beanClass given,
        n.definition.beanClass = some beanClass ∧
        n.favoured (c.resolution? n.definition).isSome beanClass = .ok given ∧
        (n.byConstructor given).run.run c = (.ok call, c')) := by
  unfold Creation.call
  constructor
  · intro run
    split at run
    · rename_i named
      exact .inl ⟨named, run⟩
    · rename_i plain
      split at run
      · cases run
      · rename_i beanClass owner
        obtain ⟨m, c₀, got, run⟩ := Attempt.run_bind_eq_ok.mp run
        cases got
        obtain ⟨given, c₁, picked, last⟩ := Attempt.run_bind_eq_ok.mp run
        rw [Attempt.run_liftExcept] at picked
        have chosen := congrArg Prod.fst picked
        have same := congrArg Prod.snd picked
        dsimp only at chosen same
        subst same
        exact .inr ⟨Bool.eq_false_iff.mpr plain, beanClass, given, owner, chosen, last⟩
  · rintro (⟨named, run⟩ | ⟨plain, beanClass, given, owner, chosen, run⟩)
    · rw [if_pos named]
      exact run
    · rw [plain, owner]
      have picked : (liftExcept (n.favoured (c.resolution? n.definition).isSome beanClass) :
          Attempt _).run.run c = (.ok given, c) := by
        rw [Attempt.run_liftExcept, chosen]
      exact (Attempt.run_bind_of_ok picked).trans run

structure Found (n : Creation) (call : Call) (values : ArgumentValues ResolvedValue)
    (s : Work.Setting) (b : Binding) (c' : Container) : Prop where
  keeps : Resolution.Keeps ⟨call.executable, b.kept⟩ n.definition values s b
  arguments : call.arguments = b.arguments
  kept : c'.resolution? n.definition = some ⟨call.executable, b.kept⟩

structure Matches (n : Creation) (call : Call) (values : ArgumentValues ResolvedValue)
    (s : Work.Setting) (b : Binding) (c' : Container) : Prop
    extends n.Found call values s b c' where
  setting : s = n.setting s.autowiring s.fallback
  light : b.weight n.definition.lenient call.executable.parameterTypes < Weight.greatest

theorem resolution?_keep (ungiven : n.explicit = none) (e : Executable)
    (arguments : KeptArguments) :
    ((n.keep e arguments).run c).2.resolution? n.definition = some ⟨e, arguments⟩ := by
  unfold keep
  rw [ungiven]
  exact Registry.get?_insert_self _ _ _

theorem resolution?_keepMethod (ungiven : n.explicit = none) (e : Executable)
    (arguments : KeptArguments) :
    ((n.keepMethod e arguments).run c).2.resolution? n.definition = some ⟨e, arguments⟩ := by
  unfold keepMethod
  rw [ungiven]
  exact Registry.get?_insert_self _ _ _

theorem constructorAmong_ok (ungiven : n.explicit = none)
    (plain : n.definition.factoryMethod.isSome = false) {beanClass : BeanClass} {autowiring : Bool}
    {candidates : List Executable}
    (run : (n.constructorAmong beanClass autowiring candidates).run.run c = (.ok call, c')) :
    ∃ values s b, n.Matches call values s b c' := by
  have notVoid (e : Executable) (named : n.definition.factoryMethod.isSome = true) :
      e.returnType.isVoid = false := by
    rw [plain] at named
    cases named
  unfold constructorAmong at run
  cases lone : n.bareCandidate? candidates with
  | some only =>
    rw [lone] at run
    obtain ⟨⟨values, keeps⟩, light⟩ := keeps_of_bareCandidate lone (notVoid only)
    obtain ⟨rfl, rfl⟩ := Attempt.run_pure_eq_ok.mp run
    exact ⟨values, _, [], ⟨keeps, rfl, resolution?_keep ungiven _ _⟩, rfl, light⟩
  | none =>
    rw [lone] at run
    obtain ⟨source, minCount, m, found, m', best, first, searched, chosen, -, rfl, rfl⟩ :=
      byClosestConstructor_ok_iff.mp run
    obtain ⟨values, rfl, -, resolved⟩ := (source_ok_iff ungiven).mp first
    obtain ⟨bound, light⟩ := search_ok searched chosen
    exact ⟨values, _, best.binding, ⟨⟨Attempt.resolveArguments_ok resolved, bound, rfl, notVoid _⟩,
      rfl, resolution?_keep ungiven _ _⟩, rfl, light⟩

theorem methodAmong_ok (ungiven : n.explicit = none) {factoryBean : Option Value}
    {beanClass : BeanClass} {candidates : List Executable}
    (run : (n.methodAmong factoryBean beanClass candidates).run.run c = (.ok call, c')) :
    ∃ values s b, n.Matches call values s b c' := by
  unfold methodAmong at run
  cases lone : (n.bareCandidate? candidates).filter (!·.returnType.isVoid) with
  | some only =>
    rw [lone] at run
    obtain ⟨bare, notVoid⟩ := Option.filter_eq_some_iff.mp lone
    obtain ⟨⟨values, keeps⟩, light⟩ :=
      keeps_of_bareCandidate bare fun _ => by simpa using notVoid
    obtain ⟨rfl, rfl⟩ := Attempt.run_pure_eq_ok.mp run
    exact ⟨values, _, [], ⟨keeps, rfl, resolution?_keepMethod ungiven _ _⟩, rfl, light⟩
  | none =>
    rw [lone] at run
    obtain ⟨source, minCount, m, found, m', best, first, searched, chosen, notVoid, -, rfl, rfl⟩ :=
      byClosestMethod_ok_iff.mp run
    obtain ⟨values, rfl, -, resolved⟩ := (source_ok_iff ungiven).mp first
    obtain ⟨bound, light⟩ := search_ok searched chosen
    exact ⟨values, _, best.binding, ⟨⟨Attempt.resolveArguments_ok resolved, bound, rfl,
      fun _ => notVoid⟩, rfl, resolution?_keepMethod ungiven _ _⟩, rfl, light⟩

theorem call_matches (ungiven : n.explicit = none) (run : n.call.run.run c = (.ok call, c')) :
    ∃ m, (m = c ∨ ∃ target, n.factoryTarget.run.run c = (.ok target, m)) ∧
      ((∃ r, m.resolution? n.definition = some r ∧ call.executable = r.executable ∧
        (Attempt.recollect n.host n.create n.context n.bean r).run.run m =
          (.ok call.arguments, c')) ∨
      m.resolution? n.definition = none ∧ ∃ values s b, n.Matches call values s b c') := by
  rcases call_ok_iff.mp run with ⟨named, run⟩ | ⟨plain, beanClass, given, -, -, run⟩
  · obtain ⟨factoryBean, beanClass, m, targeted, decided⟩ := byFactoryMethod_ok_iff.mp run
    refine ⟨m, .inr ⟨_, targeted⟩, ?_⟩
    rcases decided with ⟨e, arguments, remembers, rfl⟩ | ⟨m', candidates, m'', nothing, -, last⟩
    · obtain ⟨r, kept, same, recalled⟩ := (remembered_some_iff ungiven).mp remembers
      exact .inl ⟨r, kept, same.symm, recalled⟩
    · exact .inr ⟨((remembered_none_iff ungiven).mp nothing).1, methodAmong_ok ungiven last⟩
  · refine ⟨c, .inl rfl, ?_⟩
    rcases byConstructor_ok_iff.mp run with
      ⟨e, arguments, remembers, rfl⟩ | ⟨m, beanClass, candidates, m', nothing, -, -, last⟩
    · obtain ⟨r, kept, same, recalled⟩ := (remembered_some_iff ungiven).mp remembers
      exact .inl ⟨r, kept, same.symm, recalled⟩
    · exact .inr ⟨((remembered_none_iff ungiven).mp nothing).1,
        constructorAmong_ok ungiven plain last⟩

theorem call_ok (ungiven : n.explicit = none) (run : n.call.run.run c = (.ok call, c')) :
    ∃ m, (m = c ∨ ∃ target, n.factoryTarget.run.run c = (.ok target, m)) ∧
      ((∃ r, m.resolution? n.definition = some r ∧ call.executable = r.executable ∧
        (Attempt.recollect n.host n.create n.context n.bean r).run.run m =
          (.ok call.arguments, c')) ∨
      m.resolution? n.definition = none ∧ ∃ values s b, n.Found call values s b c') := by
  obtain ⟨m, reached, decided⟩ := call_matches ungiven run
  refine ⟨m, reached, decided.imp_right ?_⟩
  rintro ⟨nothing, values, s, b, found⟩
  exact ⟨nothing, values, s, b, found.toFound⟩

end Creation

end BeanWiring
