import BeanWiring.Proofs.Ways
import BeanWiring.Proofs.Wiring.Binding

/-!
What a creation wires its bean with: its factory bean, then either what the recipes it follows refer
to, or what its declared values refer to and what supplies the candidates whose parameters could all be
bound. Whatever it creates on the way is wired for itself.
-/
namespace BeanWiring

def Recipe.references : Recipe → List String
  | .declared source => source.references
  | _ => []

def Resolution.references (r : Resolution) : List String :=
  match r.arguments with
  | .resolved _ => []
  | .prepared recipes => (recipes.take r.executable.arity).flatMap Recipe.references

namespace Creation

variable {n : Creation} {c c' m : Container} {path : List String} {bean : String}

def factoryBeans (n : Creation) : List String :=
  if n.definition.factoryMethod.isSome then n.definition.factoryBean.toList else []

/-- The state in which a creation looks for what is kept for its definition: the one it starts in, or
that in which its factory bean is there. -/
def LooksIn (n : Creation) (c m : Container) : Prop :=
  m = c ∨ ∃ target, n.factoryTarget.run.run c = (.ok target, m)

/-- The creation, which starts in `c`, binds all parameters of the executable on its way to the call: in
a trial of its search, those that it autowires to what the beans of the given names supply, or without
a search, as there are no parameters. -/
inductive Supplied (n : Creation) (c : Container) (e : Executable) :
    Binding → List String → Container → Prop
  | bare {candidates : List Executable} {c' : Container} :
      n.bareCandidate? candidates = some e → n.Supplied c e [] [] c'
  | tried {kind : SearchKind} {autowiring : Bool} {candidates : List Executable}
      {decide : Attempt Call} {begun m k c' : Container} {values : ArgumentValues ResolvedValue}
      {minCount : Nat} {trials : List Trial} {found : Search} {b : Binding} {used : List String} :
      n.ComesToSearch c kind autowiring candidates decide begun →
      n.source.run.run begun = (.ok (.declared values, minCount), m) →
      n.LooksThrough kind (.declared values) minCount autowiring candidates trials found m k →
      ⟨e, .ok b⟩ ∈ trials → b.SuppliedBy c' e.parameters used → n.Supplied c e b used c'

structure Matched (n : Creation) (c : Container) (call : Call) (names : List String)
    (c' : Container) : Prop where
  references : ∀ name ∈ n.definition.references, name ∈ names
  chosen : ∃ b used, call.arguments = b.arguments ∧ n.Supplied c call.executable b used c' ∧
    ∀ name ∈ used, name ∈ names
  only : ∀ name ∈ names, name ∈ n.definition.references ∨
    ∃ e b used, n.Supplied c e b used c' ∧ name ∈ used

/-- How a creation that starts in `c` comes to a call in `c'`, with the beans of the given names wired
into its bean on the way. -/
inductive Wired (n : Creation) (c : Container) (call : Call) (c' : Container) : List String → Prop
  | given : n.explicit.isSome = true → n.Wired c call c' n.factoryBeans
  | replayed {m : Container} {r : Resolution} : n.explicit = none → n.LooksIn c m →
      m.resolution? n.definition = some r → call.executable = r.executable →
      n.Wired c call c' (n.factoryBeans ++ r.references)
  | searched {m : Container} {names : List String} : n.explicit = none → n.LooksIn c m →
      m.resolution? n.definition = none → n.Matched c call names c' →
      n.Wired c call c' (n.factoryBeans ++ names)

end Creation

namespace Container.Wires

variable {c c₀ c' : Container} {path : List String} {bean : String} {names : List String} {n : Creation}
  {e : Executable} {b : Binding} {used : List String}

theorem keepsSupplied (later : c.Wires path bean names c') (supplied : n.Supplied c₀ e b used c) :
    n.Supplied c₀ e b used c' := by
  cases supplied with
  | bare lone => exact .bare lone
  | tried comes sourced looks listed supplied =>
    exact .tried comes sourced looks listed (later.suppliedBy supplied)

end Container.Wires

namespace Attempt

variable {c : Container} {create : Creator} {ctx : Context} {bean : String}

theorem replayRecipe_wires (creates : create.Wires) (point : InjectionPoint) (recipe : Recipe) :
    Wires ctx.path bean c (replayRecipe .full create ctx bean point recipe)
      fun _ names _ => names = recipe.references := by
  cases recipe with
  | autowired =>
    refine .bind_spares (Work.autowire_spares creates bean point true) fun _ _ _ _ => ?_
    exact .pure rfl
  | declared source => exact resolveDeclared_wires creates _ source
  | value v =>
    cases v with
    | str text =>
      exact (Wires.of_spares (evaluate_spares text)).mono fun _ _ _ _ nothing => nothing.1
    | _ => exact .pure rfl

theorem replayFrom_wires (creates : create.Wires) (e : Executable) (index : Nat)
    (parameters : List Parameter) (recipes : List Recipe) (c : Container) :
    Wires ctx.path bean c (replayFrom .full create ctx bean e index parameters recipes)
      fun _ names _ => names = (recipes.take parameters.length).flatMap Recipe.references := by
  induction parameters generalizing index recipes c with
  | nil => exact .pure (by rw [List.length_nil, List.take_zero]; rfl)
  | cons parameter parameters ih =>
    cases recipes with
    | nil => exact .pure rfl
    | cons recipe recipes =>
      refine .bind (replayRecipe_wires creates _ recipe) fun value _ m _ first => ?_
      split
      · exact .throw _
      · refine .bind (ih (index + 1) recipes m) fun arguments _ _ _ others => .pure ?_
        rw [first, others, List.length_cons, List.take_succ_cons, List.flatMap_cons, List.append_nil]

theorem recollect_wires (creates : create.Wires) (r : Resolution) :
    Wires ctx.path bean c (recollect .full create ctx bean r)
      fun _ names _ => names = r.references := by
  obtain ⟨e, arguments | recipes⟩ := r
  · refine .bind_spares (.lift (Work.emit_spares _)) fun _ _ _ _ => ?_
    exact .pure rfl
  · refine .bind_spares (.lift (Work.emit_spares _)) fun _ m _ _ => ?_
    exact replayFrom_wires creates e 0 e.parameters recipes m

end Attempt

def ArgumentSource.Supplied (source : ArgumentSource) (c : Container) (e : Executable) (b : Binding)
    (used : List String) : Prop :=
  match source with
  | .explicit _ => used = []
  | .declared _ => b.SuppliedBy c e.parameters used

theorem Container.Wires.supplied_source {c c' : Container} {path : List String} {bean : String}
    {names used : List String} {e : Executable} {b : Binding} (later : c.Wires path bean names c')
    (source : ArgumentSource) (supplied : source.Supplied c e b used) :
    source.Supplied c' e b used := by
  cases source with
  | explicit arguments => exact supplied
  | declared values => exact later.suppliedBy supplied

structure ArgumentSource.Accounts (source : ArgumentSource) (trials : List Trial)
    (names : List String) (c : Container) : Prop where
  only : ∀ name ∈ names, ∃ e b used, ⟨e, .ok b⟩ ∈ trials ∧ source.Supplied c e b used ∧ name ∈ used
  every : ∀ e b, ⟨e, .ok b⟩ ∈ trials → ∃ used, source.Supplied c e b used ∧ used ⊆ names

namespace ArgumentSource.Accounts

variable {c c' : Container} {path : List String} {bean : String} {names more : List String}
  {source : ArgumentSource} {trials : List Trial}

theorem later (accounts : source.Accounts trials names c) (later : c.Wires path bean more c') :
    source.Accounts trials names c' where
  only name member := by
    obtain ⟨e, b, used, tried, supplied, uses⟩ := accounts.only name member
    exact ⟨e, b, used, tried, later.supplied_source source supplied, uses⟩
  every e b tried := by
    obtain ⟨used, supplied, within⟩ := accounts.every e b tried
    exact ⟨used, later.supplied_source source supplied, within⟩

theorem cons (accounts : source.Accounts trials more c) (t : Trial)
    (failed : ∀ failure, t.outcome = .error failure → names = [])
    (bound : ∀ b, t.outcome = .ok b → source.Supplied c t.candidate b names) :
    source.Accounts (t :: trials) (names ++ more) c where
  only name member := by
    rcases List.mem_append.mp member with first | rest
    · obtain ⟨e, r⟩ := t
      cases r with
      | error failure =>
        rw [failed failure rfl] at first
        cases first
      | ok b => exact ⟨e, b, names, List.mem_cons_self, bound b rfl, first⟩
    · obtain ⟨e, b, used, tried, found⟩ := accounts.only name rest
      exact ⟨e, b, used, List.mem_cons_of_mem t tried, found⟩
  every e b tried := by
    rcases List.mem_cons.mp tried with rfl | rest
    · exact ⟨names, bound b rfl, List.subset_append_left names more⟩
    · obtain ⟨used, supplied, within⟩ := accounts.every e b rest
      exact ⟨used, supplied, List.subset_append_of_subset_right names within⟩

end ArgumentSource.Accounts

namespace Creation

variable {n : Creation} {c c₀ : Container}

def Searches (n : Creation) (c : Container) (call : Call) (names : List String) (c' : Container) :
    Prop :=
  (n.explicit.isSome = true → names = []) ∧ (n.explicit = none → n.Matched c call names c')

theorem bindCandidate_wires (creates : n.create.Wires) (kind : SearchKind) (source : ArgumentSource)
    (autowiring fallback : Bool) (candidate : Executable) :
    Work.Wires n.context.path n.bean c (n.bindCandidate kind source autowiring fallback candidate)
      fun r names c' => (∀ failure, r = .error failure → names = []) ∧
        ∀ b, r = .ok b → source.Supplied c' candidate b names := by
  have binds : Work.Wires n.context.path n.bean c
      (Work.bind ⟨Attempt.fetcher n.create, n.context, n.bean, autowiring, fallback⟩ candidate
        source).run
      fun r names c' => (∀ failure, r = .error failure → names = []) ∧
        ∀ b, r = .ok b → source.Supplied c' candidate b names := by
    cases source with
    | explicit arguments =>
      have spares : Attempt.Spares n.context.path n.bean c
          (liftM (Binding.ofExplicit candidate n.bean arguments) : ExceptT Unsatisfied Work Binding)
          _ := .liftM
      exact ⟨[], spares.1, fun _ _ => rfl, fun _ _ => rfl⟩
    | declared values => exact Work.bindDeclared_wires creates autowiring fallback candidate values
  refine .bind binds fun r names m _ ⟨failed, supplied⟩ => ?_
  cases r with
  | ok b =>
    refine .pure ⟨nofun, fun b' same => ?_⟩
    cases same
    rw [List.append_nil]
    exact supplied b rfl
  | error failure =>
    refine .bind (.of_spares (Work.emit_spares _)) ?_
    rintro _ _ m' _ ⟨rfl, -⟩
    exact .pure ⟨fun _ _ => by rw [failed failure rfl]; rfl, nofun⟩

theorem trials_wires (creates : n.create.Wires) (kind : SearchKind) (source : ArgumentSource)
    (autowiring fallback : Bool) (trials : List Trial) {c k : Container}
    (bound : ((trials.map (·.candidate)).mapM
      (n.bindCandidate kind source autowiring fallback)).run c = (trials.map (·.outcome), k)) :
    ∃ names, c.Wires n.context.path n.bean names k ∧ source.Accounts trials names k := by
  induction trials generalizing c with
  | nil =>
    cases bound
    exact ⟨[], .refl _ _ _, nofun, nofun⟩
  | cons t rest ih =>
    obtain ⟨names, wires, failed, supplied⟩ :=
      bindCandidate_wires (c := c) creates kind source autowiring fallback t.candidate
    rw [List.map_cons, List.mapM_cons, Work.run_bind, Work.run_bind, List.map_cons] at bound
    obtain ⟨outcomes, last⟩ := Prod.ext_iff.mp bound
    obtain ⟨first, others⟩ := List.cons_eq_cons.mp outcomes
    obtain ⟨more, later, accounts⟩ := ih (Prod.ext others last)
    refine ⟨names ++ more, wires.trans later, accounts.cons t ?_ ?_⟩
    · exact fun failure same => failed failure (first.trans same)
    · exact fun b same => later.supplied_source source (supplied b (first.trans same))

theorem search_wires (creates : n.create.Wires) (kind : SearchKind) (source : ArgumentSource)
    (minCount : Nat) (autowiring : Bool) (candidates : List Executable) :
    Work.Wires n.context.path n.bean c (n.search kind source minCount autowiring candidates)
      fun found names c' => ∃ trials k,
        n.LooksThrough kind source minCount autowiring candidates trials found c k ∧
          source.Accounts trials names c' := by
  obtain ⟨trials, found, k, looks⟩ :=
    n.exists_looksThrough kind source minCount autowiring candidates c
  obtain ⟨names, wires, accounts⟩ := trials_wires creates kind source autowiring _ trials looks.bound
  unfold Work.Wires
  rw [looks.found]
  cases chosen : found.best with
  | none => exact ⟨names, wires, trials, k, looks, accounts⟩
  | some best =>
    have told : k.Wires n.context.path n.bean [] _ := (Work.emit_spares (.selected n.bean kind.noun
      best.executable found.weight (best.binding.map (·.provenance)))).1
    exact ⟨names, wires.after told, trials, k, looks, accounts.later told⟩

structure Sourced (n : Creation) (source : ArgumentSource) (names : List String) : Prop where
  given : n.explicit.isSome = true → names = [] ∧ ∃ arguments, source = .explicit arguments
  declared : n.explicit = none → names = n.definition.references ∧ ∃ values, source = .declared values

theorem source_wires (creates : n.create.Wires) :
    Attempt.Wires n.context.path n.bean c n.source fun (source, _) names _ =>
      n.Sourced source names := by
  unfold Creation.source
  cases explicit : n.explicit with
  | some arguments =>
    exact .pure ⟨fun _ => ⟨rfl, arguments, rfl⟩, fun ungiven => nomatch explicit.symm.trans ungiven⟩
  | none =>
    refine .bind (Attempt.resolveArguments_wires creates n.definition).result ?_
    intro values names m _ ⟨same, run⟩
    split
    · refine .pure ⟨fun given => ?_, fun _ => ⟨by rw [same, List.append_nil], values, rfl⟩⟩
      rw [explicit] at given
      cases given
    · exact .bind_spares (.lift (Work.emit_spares _)) fun _ _ _ _ => .throw _

theorem searches_of_best {kind : SearchKind} {autowiring : Bool} {candidates : List Executable}
    {decide : Attempt Call} {source : ArgumentSource} {minCount : Nat} {declared names : List String}
    {begun m k : Container} {trials : List Trial} {found : Search} {best : Selected} {call : Call}
    (comes : n.ComesToSearch c₀ kind autowiring candidates decide begun)
    (sourced : n.Sourced source declared) (run : n.source.run.run begun = (.ok (source, minCount), m))
    (looks : n.LooksThrough kind source minCount autowiring candidates trials found m k)
    (accounts : source.Accounts trials names c) (chosen : found.best = some best)
    (executable : call.executable = best.executable)
    (arguments : call.arguments = best.binding.arguments) :
    n.Searches c₀ call (declared ++ names) c := by
  refine ⟨fun given => ?_, fun ungiven => ?_⟩
  · obtain ⟨rfl, values, rfl⟩ := sourced.given given
    refine List.eq_nil_iff_forall_not_mem.mpr fun name member => ?_
    obtain ⟨e, b, used, -, nothing, within⟩ := accounts.only name member
    rw [show used = [] from nothing] at within
    cases within
  · obtain ⟨rfl, values, rfl⟩ := sourced.declared ungiven
    have tried : ⟨best.executable, .ok best.binding⟩ ∈ trials := (looks.tallies.best_matched chosen).1
    obtain ⟨used, supplied, within⟩ := accounts.every _ _ tried
    refine ⟨fun name member => List.mem_append_left _ member, ?_, fun name member => ?_⟩
    · refine ⟨best.binding, used, arguments, executable ▸ .tried comes run looks tried supplied, ?_⟩
      exact fun name member => List.mem_append_right _ (within member)
    · refine (List.mem_append.mp member).imp_right fun late => ?_
      obtain ⟨e, b, used, tried, supplied, inside⟩ := accounts.only name late
      exact ⟨e, b, used, .tried comes run looks tried supplied, inside⟩

theorem searches_of_bareCandidate {candidates : List Executable} {e : Executable} {call : Call}
    (lone : n.bareCandidate? candidates = some e) (executable : call.executable = e)
    (arguments : call.arguments = []) : n.Searches c₀ call [] c := by
  obtain ⟨holders, -⟩ := bound_of_bareCandidate lone
  have nothing : n.definition.references = [] := by
    unfold Blueprint.references
    rw [holders]
    rfl
  refine ⟨fun _ => rfl, fun _ => ⟨by rw [nothing]; nofun, ?_, nofun⟩⟩
  exact ⟨[], [], arguments, executable ▸ .bare lone, nofun⟩

theorem suppressAll_spares (full : n.host = .full) (failures : List Unsatisfied) (c : Container) :
    Work.Spares n.context.path n.bean c (n.suppressAll failures) fun _ _ => True := by
  induction failures generalizing c with
  | nil => exact .pure trivial
  | cons failure rest ih =>
    refine .bind (Work.emit_spares _) fun _ m _ _ => ?_
    have suppresses : Work.Spares n.context.path n.bean m (n.host.suppress (.unsatisfied failure))
        fun _ _ => True := by
      rw [full]
      exact ⟨(Container.Wires.refl m n.context.path n.bean).frame rfl rfl List.prefix_rfl rfl, trivial⟩
    exact .bind suppresses fun _ m' _ _ => ih m'

theorem exhausted_wires (full : n.host = .full) (failures : List Unsatisfied) (noMatch : String)
    {Q : Call → List String → Container → Prop} :
    Attempt.Wires n.context.path n.bean c (n.exhausted failures noMatch) Q := by
  unfold exhausted
  split
  · exact .throw _
  · exact .bind_spares (.lift (suppressAll_spares full _ c)) fun _ _ _ _ => .throw _

theorem keep_spares (e : Executable) (arguments : KeptArguments) :
    Work.Spares n.context.path n.bean c (n.keep e arguments) fun _ _ => True := by
  unfold keep
  split
  · exact ⟨(Container.Wires.refl c n.context.path n.bean).frame rfl rfl List.prefix_rfl rfl, trivial⟩
  · exact .pure trivial

theorem keepMethod_spares (e : Executable) (arguments : KeptArguments) :
    Work.Spares n.context.path n.bean c (n.keepMethod e arguments) fun _ _ => True := by
  unfold keepMethod
  split
  · exact ⟨(Container.Wires.refl c n.context.path n.bean).frame rfl rfl List.prefix_rfl rfl, trivial⟩
  · exact .pure trivial

theorem decide_wires (full : n.host = .full) (creates : n.create.Wires) {kind : SearchKind}
    {autowiring : Bool} {candidates : List Executable} {decide : Attempt Call}
    (comes : n.ComesToSearch c₀ kind autowiring candidates decide c) :
    Attempt.Wires n.context.path n.bean c decide (n.Searches c₀) := by
  cases comes.closest with
  | constructor beanClass =>
    refine .bind (source_wires creates).result ?_
    intro (source, minCount) declared m _ ⟨sourced, run⟩
    refine .bind (.lift (search_wires creates .constructor source minCount autowiring candidates)) ?_
    intro found names m' _ ⟨trials, k, looks, accounts⟩
    split
    · exact exhausted_wires full _ _
    · rename_i best chosen
      split
      · exact .throw _
      · refine .bind_spares (.lift (keep_spares _ _)) fun _ m'' later _ => .pure ?_
        rw [List.append_nil]
        exact searches_of_best comes sourced run looks (accounts.later later) chosen rfl rfl
  | factoryMethod factoryBean beanClass =>
    refine .bind (source_wires creates).result ?_
    intro (source, minCount) declared m _ ⟨sourced, run⟩
    refine .bind (.lift (search_wires creates .factoryMethod source minCount _ candidates)) ?_
    intro found names m' _ ⟨trials, k, looks, accounts⟩
    split
    · exact exhausted_wires full _ _
    · rename_i best chosen
      dsimp only
      split
      · exact .throw _
      · split
        · exact .throw _
        · refine .bind_spares (.lift (keepMethod_spares _ _)) fun _ m'' later _ => .pure ?_
          rw [List.append_nil]
          exact searches_of_best comes sourced run looks (accounts.later later) chosen rfl rfl

theorem constructorAmong_wires (full : n.host = .full) (creates : n.create.Wires)
    (beanClass : BeanClass) (autowiring : Bool) {candidates : List Executable}
    (comes : n.bareCandidate? candidates = none → n.ComesToSearch c₀ .constructor autowiring candidates
      (n.byClosestConstructor beanClass autowiring candidates) c) :
    Attempt.Wires n.context.path n.bean c (n.constructorAmong beanClass autowiring candidates)
      (n.Searches c₀) := by
  unfold constructorAmong
  split
  · rename_i only lone
    refine .bind_spares (.lift (keep_spares _ _)) fun _ _ _ _ => .pure ?_
    exact searches_of_bareCandidate lone rfl rfl
  · rename_i several
    exact decide_wires full creates (comes several)

theorem methodAmong_wires (full : n.host = .full) (creates : n.create.Wires)
    (factoryBean : Option Value) (beanClass : BeanClass) {candidates : List Executable}
    (comes : (n.bareCandidate? candidates).filter (!·.returnType.isVoid) = none →
      n.ComesToSearch c₀ .factoryMethod n.definition.autowire candidates
        (n.byClosestMethod factoryBean beanClass candidates) c) :
    Attempt.Wires n.context.path n.bean c (n.methodAmong factoryBean beanClass candidates)
      (n.Searches c₀) := by
  unfold methodAmong
  split
  · rename_i only lone
    refine .bind_spares (.lift (keepMethod_spares _ _)) fun _ _ _ _ => .pure ?_
    exact searches_of_bareCandidate (Option.filter_eq_some_iff.mp lone).1 rfl rfl
  · rename_i several
    exact decide_wires full creates (comes several)

theorem remembered_wires (full : n.host = .full) (creates : n.create.Wires) :
    Attempt.Wires n.context.path n.bean c n.remembered fun found names c' =>
      match found with
      | none => names = [] ∧ c' = c ∧ (n.explicit = none → c.resolution? n.definition = none)
      | some (e, _) => n.explicit = none ∧ ∃ r, c.resolution? n.definition = some r ∧
        e = r.executable ∧ names = r.references := by
  unfold remembered
  cases given : n.explicit with
  | some arguments => exact .pure ⟨rfl, rfl, nofun⟩
  | none =>
    refine .get_bind ?_
    dsimp only [Option.isNone_none, if_true]
    cases entry : c.resolution? n.definition with
    | none => exact .pure ⟨rfl, rfl, fun _ => rfl⟩
    | some r =>
      rw [full]
      refine .bind (Attempt.recollect_wires creates r) fun arguments names m _ same => .pure ?_
      exact ⟨rfl, r, rfl, rfl, by rw [same, List.append_nil]⟩

theorem factoryTarget_wires (creates : n.create.Wires) :
    Attempt.Wires n.context.path n.bean c n.factoryTarget
      fun _ names _ => names = n.definition.factoryBean.toList := by
  unfold factoryTarget
  cases n.definition.factoryBean with
  | some name =>
    dsimp only
    split
    · exact .throw _
    · refine .bind_spares (Attempt.fetch_spares creates name none) fun factoryBean m _ found => ?_
      refine .bind (.lift (Work.registerDependent_wires found.1)) fun _ _ m' _ only => .get_bind ?_
      split
      · exact .pure (by rw [only]; rfl)
      · exact .throw _
  | none =>
    dsimp only
    split
    · exact .pure rfl
    · exact .throw _

theorem factoryMethods_spares (beanClass : BeanClass) :
    Attempt.Spares n.context.path n.bean c (n.factoryMethods beanClass) fun _ c' => c' = c := by
  have all : Attempt.Spares n.context.path n.bean c (factoryMethods.all n beanClass) fun _ c' => c' = c :=
    Attempt.Spares.except.mono fun _ _ _ found => found.2
  refine .get_bind ?_
  split
  · split
    · exact .pure rfl
    · exact all
  · exact all

theorem constructors_spares (beanClass : BeanClass) (given : Option (List Executable)) :
    Attempt.Spares n.context.path n.bean c (n.constructors beanClass given) fun _ c' => c' = c := by
  cases given with
  | some constructors => exact .pure rfl
  | none => exact Attempt.Spares.except.mono fun _ _ _ found => found.2

theorem byConstructor_wires (full : n.host = .full) (creates : n.create.Wires)
    (plain : n.definition.factoryMethod.isSome = false) {given : Option (List Executable)}
    {owner : BeanClass} (owned : n.definition.beanClass = some owner)
    (favours : n.favoured (c.resolution? n.definition).isSome owner = .ok given) :
    Attempt.Wires n.context.path n.bean c (n.byConstructor given)
      fun call names c' => n.Wired c call c' names := by
  have nothing : n.factoryBeans = [] := by
    unfold factoryBeans
    rw [plain]
    rfl
  refine .bind (remembered_wires full creates) fun found names m _ outcome => ?_
  cases found with
  | some found =>
    obtain ⟨ungiven, r, kept, same, rfl⟩ := outcome
    refine .pure ?_
    have wired : n.Wired c ⟨found.1, none, found.2⟩ m _ := .replayed ungiven (.inl rfl) kept same
    rwa [nothing, List.nil_append, ← List.append_nil r.references] at wired
  | none =>
    obtain ⟨rfl, rfl, absent⟩ := outcome
    dsimp only
    rw [owned]
    refine .bind_spares (constructors_spares owner given).result fun candidates m _ ⟨same, run⟩ => ?_
    subst same
    have comes := ComesToSearch.constructor plain owned absent favours run
    refine (constructorAmong_wires full creates owner _ comes).mono fun call names c' _ searches => ?_
    cases given' : n.explicit with
    | some arguments =>
      have none := searches.1 (by rw [given']; rfl)
      subst none
      have wired : n.Wired m call c' _ := .given (by rw [given']; rfl)
      rwa [nothing] at wired
    | none =>
      have wired := Wired.searched given' (.inl rfl) (absent given') (searches.2 given')
      rwa [nothing] at wired

theorem byFactoryMethod_wires (full : n.host = .full) (creates : n.create.Wires)
    (named : n.definition.factoryMethod.isSome = true) :
    Attempt.Wires n.context.path n.bean c n.byFactoryMethod
      fun call names c' => n.Wired c call c' names := by
  have target : n.factoryBeans = n.definition.factoryBean.toList := by
    unfold factoryBeans
    rw [named]
    rfl
  refine .bind (factoryTarget_wires creates).result ?_
  rintro ⟨factoryBean, beanClass⟩ _ m _ ⟨rfl, targeted⟩
  refine .bind (remembered_wires full creates) fun found names m' _ outcome => ?_
  cases found with
  | some found =>
    obtain ⟨ungiven, r, kept, same, rfl⟩ := outcome
    refine .pure ?_
    rw [List.append_nil, ← target]
    exact .replayed ungiven (.inr ⟨_, targeted⟩) kept same
  | none =>
    obtain ⟨rfl, rfl, absent⟩ := outcome
    refine .bind_spares (factoryMethods_spares beanClass).result fun candidates m _ ⟨same, run⟩ => ?_
    subst same
    have comes := ComesToSearch.factoryMethod named targeted absent run
    refine (methodAmong_wires full creates factoryBean beanClass comes).mono ?_
    intro call names c' _ searches
    rw [← target]
    cases given : n.explicit with
    | some arguments =>
      rw [searches.1 (by rw [given]; rfl), List.append_nil, List.append_nil]
      exact .given (by rw [given]; rfl)
    | none =>
      exact .searched given (.inr ⟨_, targeted⟩) (absent given) (searches.2 given)

theorem call_wires (full : n.host = .full) (creates : n.create.Wires) :
    Attempt.Wires n.context.path n.bean c n.call
      fun call names c' => n.Wired c call c' names := by
  unfold call
  by_cases named : n.definition.factoryMethod.isSome = true
  · rw [if_pos named]
    exact byFactoryMethod_wires full creates named
  · rw [if_neg named]
    split
    · exact .throw _
    · rename_i owner owned
      refine .get_bind (.bind_spares .except fun given m _ ⟨favours, same⟩ => ?_)
      subst same
      exact byConstructor_wires full creates (Bool.eq_false_iff.mpr named) owned favours

end Creation

namespace Work

variable {c : Container} {path : List String} {bean : String}

theorem invoke_spares (name : String) (e : Executable) (target : Option Value)
    (arguments : List Value) :
    Spares path bean c (invoke name e target arguments)
      fun r c' => ∀ value, r = .ok value → c'.Gave name value := by
  have performs : Spares path bean c (perform e arguments) fun _ _ => True := by
    unfold perform
    split
    · exact .pure trivial
    · exact .pure trivial
    · split <;> exact .pure trivial
    · exact ⟨(Container.Wires.refl c path bean).frame rfl rfl List.prefix_rfl rfl, trivial⟩
  refine .bind performs fun r m _ _ => ?_
  have records : m.Wires path bean []
      { m with invocations := m.invocations ++ [⟨name, e, target, arguments, r⟩] } :=
    (Container.Wires.refl m path bean).frame rfl rfl (List.prefix_append _ _) rfl
  refine ⟨records, fun value same => ⟨_, List.mem_append_right _ List.mem_cons_self, rfl, same⟩⟩

theorem instantiate_spares (name : String) (e : Executable) (target : Option Value)
    (arguments : List Value) :
    Spares path bean c (instantiate name e target arguments)
      fun r c' => ∀ value, r = .ok value → c'.Gave name value := by
  unfold instantiate
  split
  · exact .pure nofun
  · split
    · exact .pure nofun
    · refine .bind (invoke_spares name e target arguments) fun r m _ gave => ?_
      cases r with
      | error text => exact .pure nofun
      | ok value =>
        dsimp only
        split
        · exact .pure nofun
        · exact .pure gave

end Work

namespace Creation

variable {n : Creation} {c : Container}

theorem instantiate_spares (full : n.host = .full) (call : Call) :
    Attempt.Spares n.context.path n.bean c (n.instantiate call) fun value c' => c'.Gave n.bean value := by
  unfold instantiate
  rw [full]
  refine .bind (.lift (Work.instantiate_spares n.bean _ _ _)) fun r m _ gave => ?_
  cases r with
  | ok value => exact .pure (gave value rfl)
  | error text => exact .throw _

theorem perform_wires (full : n.host = .full) (creates : n.create.Wires) :
    Attempt.Wires n.context.path n.bean c n.perform fun value _ c' => c'.Gave n.bean value := by
  refine .bind (call_wires full creates) fun call _ m _ _ => ?_
  exact (Attempt.Wires.of_spares (instantiate_spares full call)).mono fun _ _ _ _ gave => gave.2

end Creation

theorem createWithin_wires (room : Nat) : Creator.Wires (createWithin .full room) := by
  induction room with
  | zero => exact fun _ _ _ _ _ _ => .throw _
  | succ room ih =>
    intro ctx name d explicit c bean
    cases begins : ctx.begin name with
    | error e =>
      unfold Attempt.Spares Work.Spares
      rw [createWithin_refused begins]
      exact ⟨.refl c _ _, nofun⟩
    | ok inside =>
      obtain ⟨path, apart⟩ := Context.begin_ok begins
      have told : c.Wires inside.path name [] { c with events := c.events ++ [.creating name] } :=
        (Container.Wires.refl c inside.path name).frame rfl rfl List.prefix_rfl rfl
      obtain ⟨names, performs, gave⟩ := Creation.perform_wires
        (n := ⟨.full, createWithin .full room, inside, name, d, explicit⟩)
        (c := { c with events := c.events ++ [.creating name] }) rfl ih
      have inner := told.trans performs
      unfold Attempt.Spares Work.Spares
      rw [createWithin_begun begins]
      rw [path] at inner
      refine ⟨inner.outside apart, fun value given => ⟨apart, gave value given, fun nothing => ?_⟩⟩
      exact inner.absent name List.mem_cons_self nothing

end BeanWiring
