import BeanWiring.Proofs.Candidates
import BeanWiring.Proofs.Decision
import BeanWiring.Proofs.Standing
import BeanWiring.Proofs.Uniform

/-!
Creation with given arguments. It looks at nothing but the arguments and the constructors of the
class, so a family of creations that agree on these decide on the same call, whatever else they find
in a container. The call is then made in the same way wherever as many objects have been made.
-/
namespace BeanWiring

variable {ι : Type}

/-- Nothing but serial number, declared values and autowiring tells the definitions apart. -/
structure Blueprint.SameButValues (d' d : Definition) : Prop where
  beanClass : d'.beanClass = d.beanClass
  factoryBean : d'.factoryBean = d.factoryBean
  factoryMethod : d'.factoryMethod = d.factoryMethod
  unique : d'.unique = d.unique
  lenient : d'.lenient = d.lenient
  nonPublicAllowed : d'.nonPublicAllowed = d.nonPublicAllowed
  scope : d'.scope = d.scope
  primary : d'.primary = d.primary

theorem Blueprint.SameButValues.refl (d : Definition) : d.SameButValues d :=
  ⟨rfl, rfl, rfl, rfl, rfl, rfl, rfl, rfl⟩

theorem Blueprint.SameButValues.admits {d d' : Definition} (same : d'.SameButValues d) :
    d'.admits = d.admits := by
  funext e
  unfold Blueprint.admits
  rw [same.nonPublicAllowed]

/-- The executable is a constructor of the definition's class with as many parameters as arguments
were given, and is passed these, each converted to the type of its parameter. -/
structure Executable.Takes (e : Executable) (d : Definition) (given passed : List Value) :
    Prop where
  listed : ∃ beanClass, d.beanClass = some beanClass ∧ e ∈ beanClass.constructors
  arity : e.arity = given.length
  converted : List.zipWith Value.convert given e.parameterTypes = passed.map Except.ok

theorem Binding.zipWith_convert_ofExplicitFrom {e : Executable} {bean : String} {given index : Nat}
    {parameters : List Parameter} {arguments : List Value} {b : Binding}
    (made : ofExplicitFrom e bean given index parameters arguments = .ok b) :
    List.zipWith Value.convert arguments (parameters.map (·.type)) = b.arguments.map Except.ok := by
  induction parameters generalizing index arguments b with
  | nil =>
    cases made
    simp [Binding.arguments]
  | cons parameter parameters ih =>
    obtain ⟨raw, rest, argument, bound, rfl, converted, later, rfl⟩ :=
      ofExplicitFrom_cons_ok made
    simp only [List.map_cons, List.zipWith_cons_cons, converted, ih later, Binding.arguments]

theorem BeanClass.mem_of_soleConstructor? {c : BeanClass} {e : Executable}
    (sole : c.soleConstructor? = some e) : e ∈ c.constructors := by
  unfold soleConstructor? at sole
  split at sole
  · rename_i only listed
    split at sole
    · cases sole
      exact listed ▸ List.mem_cons_self
    · cases sole
  · cases sole

structure Selected.Suits (s : Selected) (bean : String) (candidates : List Executable)
    (arguments : List Value) : Prop where
  member : s.executable ∈ candidates
  arity : s.executable.arity = arguments.length
  made : Binding.ofExplicit s.executable bean arguments = .ok s.binding

structure Call.Passes (call : Call) (d : Definition) (given : List Value) : Prop where
  target : call.target = none
  takes : call.executable.Takes d given call.arguments

namespace Creation

structure Given (n : Creation) (bean : String) (d : Definition) (arguments : List Value) :
    Prop where
  host : n.host = .full
  bean : n.bean = bean
  definition : n.definition.SameButValues d
  explicit : n.explicit = some arguments

variable {n : ι → Creation} {bean : String} {d : Definition} {arguments : List Value}

namespace Given

variable {n : Creation} (given : n.Given bean d arguments)
include given

theorem source_eq : n.source = pure (.explicit arguments, arguments.length) := by
  unfold Creation.source
  rw [given.explicit]

theorem bareCandidate?_eq (candidates : List Executable) : n.bareCandidate? candidates = none := by
  cases lone : n.bareCandidate? candidates with
  | none => rfl
  | some e =>
    have bare := (bareCandidate?_some lone).1
    simp [isBare, given.explicit] at bare

theorem keep_eq (e : Executable) (kept : KeptArguments) : n.keep e kept = pure () := by
  unfold Creation.keep
  rw [given.explicit]
  rfl

theorem favoured_eq (isKept : Bool) (beanClass : BeanClass) :
    n.favoured isKept beanClass = .ok (beanClass.soleConstructor?.map ([·])) := by
  unfold favoured isBare
  rw [given.explicit]
  cases beanClass.soleConstructor? <;> simp

theorem bindCandidate_eq (kind : SearchKind) (autowiring fallback : Bool) (e : Executable) :
    n.bindCandidate kind (.explicit arguments) autowiring fallback e =
      (match Binding.ofExplicit e bean arguments with
      | .ok b => pure (.ok b)
      | .error failure => do
        Work.emit (.ignoringCandidate bean kind.noun e failure)
        pure (.error failure)) := by
  rw [← given.bean]
  unfold bindCandidate Work.bind
  dsimp only
  cases Binding.ofExplicit e n.bean arguments <;> rfl

end Given

theorem bindCandidate_uniform (given : ∀ i, (n i).Given bean d arguments) (kind : SearchKind)
    (autowiring : ι → Bool) (fallback : Bool) (e : Executable) :
    Work.Uniform
      (fun i => (n i).bindCandidate kind (.explicit arguments) (autowiring i) fallback e)
      fun r => ∀ b, r = .ok b → Binding.ofExplicit e bean arguments = .ok b := by
  simp only [(given _).bindCandidate_eq]
  cases made : Binding.ofExplicit e bean arguments with
  | ok b => exact .pure fun b' same => same
  | error failure => exact .bind (.emit rfl) fun _ _ => .pure nofun

theorem run_uniform {kind : SearchKind} {lenient : Bool} {eligible : Executable → Bool}
    {candidates : List Executable} {bind : ι → Executable → Work (Except Unsatisfied Binding)}
    {P : Selected → Prop}
    (each : ∀ e ∈ candidates, eligible e = true →
      Work.Uniform (bind · e) fun r => ∀ b, r = .ok b → P ⟨e, b⟩)
    {s : Search} (bounded : s.weight ≤ Weight.greatest)
    (sofar : ∀ best, s.best = some best → P best) :
    Work.Uniform (fun i => Search.run kind lenient eligible (bind i) s candidates)
      fun found => ∀ best, found.best = some best → P best := by
  induction candidates generalizing s with
  | nil => exact .pure sofar
  | cons candidate rest ih =>
    have later := fun e member => each e (List.mem_cons_of_mem candidate member)
    unfold Search.run
    split
    · exact .pure sofar
    · split
      · rename_i suits
        refine .bind (each candidate List.mem_cons_self suits) fun r bound => ?_
        obtain ⟨bounded, sofar⟩ := Search.step_best bounded sofar fun b same _ => bound b same
        exact ih later bounded sofar
      · exact ih later bounded sofar

theorem search_uniform (given : ∀ i, (n i).Given bean d arguments) (autowiring : ι → Bool)
    (candidates : List Executable) :
    Work.Uniform (fun i => (n i).search .constructor (.explicit arguments) arguments.length
        (autowiring i) candidates)
      fun found => ∀ best, found.best = some best → best.Suits bean candidates arguments := by
  unfold Creation.search
  simp only [(given _).definition.lenient, (given _).bean]
  refine .bind (run_uniform (P := (·.Suits bean candidates arguments)) (fun e member suits => ?_)
    (Int.le_refl _) fun _ none => nomatch none) fun found chosen => ?_
  · refine (bindCandidate_uniform given _ autowiring _ e).mono fun r bound b same => ?_
    have arity : e.arity = arguments.length := eq_of_beq (Bool.and_eq_true_iff.mp suits).2
    exact ⟨member, arity, bound b same⟩
  · cases best : found.best with
    | none => exact .pure chosen
    | some best => exact .bind (.emit rfl) fun _ _ => .pure chosen

theorem suppressAll_uniform (given : ∀ i, (n i).Given bean d arguments)
    (failures : List Unsatisfied) :
    Work.Uniform (fun i => (n i).suppressAll failures) fun _ => True := by
  induction failures with
  | nil => exact .pure trivial
  | cons failure rest ih =>
    simp only [suppressAll, (given _).host]
    exact .bind (.emit rfl) fun _ _ => .bind (.suppress _) fun _ _ => ih

theorem exhausted_uniform (given : ∀ i, (n i).Given bean d arguments) (failures : List Unsatisfied)
    (noMatch : String) {Q : Call → Prop} :
    Attempt.Uniform (fun i => (n i).exhausted failures noMatch) Q := by
  unfold exhausted
  simp only [(given _).bean]
  split
  · exact .throw _
  · exact .bind (.lift (suppressAll_uniform given _)) fun _ _ => .throw _

theorem byClosestConstructor_uniform (given : ∀ i, (n i).Given bean d arguments)
    {beanClass : BeanClass} (owner : d.beanClass = some beanClass) (autowiring : ι → Bool)
    {candidates : List Executable} (listed : ∀ e ∈ candidates, e ∈ beanClass.constructors) :
    Attempt.Uniform (fun i => (n i).byClosestConstructor beanClass (autowiring i) candidates)
      fun call => call.Passes d arguments := by
  unfold byClosestConstructor
  simp only [(given _).source_eq, (given _).definition.lenient, (given _).bean]
  refine .bind (P := fun s => s = (.explicit arguments, arguments.length)) (.pure rfl) ?_
  rintro _ rfl
  refine .bind (.lift (search_uniform given autowiring candidates)) fun found chosen => ?_
  cases picked : found.best with
  | none => exact exhausted_uniform given _ _
  | some best =>
    have suits := chosen best picked
    have passes : Call.Passes ⟨best.executable, none, best.binding.arguments⟩ d arguments :=
      ⟨rfl, ⟨beanClass, owner, listed _ suits.member⟩, suits.arity,
        Binding.zipWith_convert_ofExplicitFrom suits.made⟩
    dsimp only
    split
    · exact .throw _
    · simp only [(given _).keep_eq]
      exact .bind (P := fun _ => True) (.lift (.pure trivial)) fun _ _ => .pure passes

theorem constructors_uniform (given : ∀ i, (n i).Given bean d arguments) (beanClass : BeanClass)
    {only : Option (List Executable)} (favours : only = beanClass.soleConstructor?.map ([·])) :
    Attempt.Uniform (fun i => (n i).constructors beanClass only)
      fun candidates => ∀ e ∈ candidates, e ∈ beanClass.constructors := by
  subst favours
  cases sole : beanClass.soleConstructor? with
  | some e =>
    refine .pure fun e' member => ?_
    cases List.mem_singleton.mp (Executable.mem_ranked.mp member)
    exact BeanClass.mem_of_soleConstructor? sole
  | none =>
    have same (i : ι) : beanClass.constructorCandidates (n i).bean (n i).definition =
        beanClass.constructorCandidates bean d := by
      unfold BeanClass.constructorCandidates
      rw [(given i).bean, (given i).definition.admits]
    simp only [Option.map_none, constructors, same]
    exact .except fun candidates listed e member =>
      (BeanClass.mem_constructorCandidates listed member).1

theorem byConstructor_uniform (given : ∀ i, (n i).Given bean d arguments) {beanClass : BeanClass}
    (owner : d.beanClass = some beanClass) {only : Option (List Executable)}
    (favours : only = beanClass.soleConstructor?.map ([·])) :
    Attempt.Uniform (fun i => (n i).byConstructor only) fun call => call.Passes d arguments := by
  have goes (i : ι) (c : Container) : ((n i).byConstructor only).run.run c =
      (do (n i).constructorAmong beanClass (only.isSome || (n i).definition.autowire)
            (← (n i).constructors beanClass only) : Attempt Call).run.run c := by
    have forgets : (n i).remembered.run.run c = (.ok none, c) := by
      unfold remembered Attempt.remembered
      rw [(given i).explicit]
      rfl
    unfold byConstructor
    rw [Attempt.run_bind_of_ok forgets, (given i).definition.beanClass, owner]
  refine .congr ?_ goes
  refine .bind (constructors_uniform given beanClass favours) fun candidates listed => ?_
  unfold constructorAmong
  simp only [(given _).bareCandidate?_eq]
  exact byClosestConstructor_uniform given owner _ listed

theorem call_uniform (given : ∀ i, (n i).Given bean d arguments) (plain : d.factoryMethod = none) :
    Attempt.Uniform (fun i => (n i).call) fun call => call.Passes d arguments := by
  unfold Creation.call
  simp only [(given _).definition.factoryMethod, plain, (given _).definition.beanClass,
    (given _).bean]
  cases owner : d.beanClass with
  | none => exact .throw _
  | some beanClass =>
    refine .congr (byConstructor_uniform given owner rfl) fun i c => ?_
    simp only [(given i).favoured_eq]
    rfl

end Creation

/-- What making a bean adds to a container. -/
structure Deed extends Note where
  made : Nat
  invocations : List Invocation

def Deed.nothing : Deed := ⟨.nothing, 0, []⟩

def Deed.following (deed : Deed) (note : Note) : Deed :=
  { deed with toNote := note.append deed.toNote }

namespace Container

def after (c : Container) (deed : Deed) : Container :=
  { c.noting deed.toNote with
    objectsMade := c.objectsMade + deed.made
    invocations := c.invocations ++ deed.invocations }

theorem after_nothing (c : Container) : c.after .nothing = c := by
  simp [after, Deed.nothing, noting_nothing]

theorem noting_after (c : Container) (note : Note) (deed : Deed) :
    (c.noting note).after deed = c.after (deed.following note) := by
  unfold after Deed.following
  rw [noting_append]
  rfl

end Container

structure Invocation.Passes (i : Invocation) (bean : String) (d : Definition) (given : List Value) :
    Prop where
  bean : i.bean = bean
  target : i.target = none
  takes : i.executable.Takes d given i.arguments

/-- A deed that looks up no bean and invokes one constructor at most, which takes the given arguments;
the bean there is at the end is what that constructor gave. -/
structure Deed.Creates (deed : Deed) (bean : String) (d : Definition) (given : List Value)
    (result : Except BeanError Value) : Prop where
  plain : deed.IsPlain
  once : deed.invocations.length ≤ 1
  passes : ∀ i ∈ deed.invocations, i.Passes bean d given
  created : ∀ v, result = .ok v → ∃ i ∈ deed.invocations, i.result = .ok v

theorem Deed.Creates.following {deed : Deed} {bean : String} {d : Definition} {given : List Value}
    {result : Except BeanError Value} (creates : deed.Creates bean d given result) {note : Note}
    (plain : note.IsPlain) : (deed.following note).Creates bean d given result :=
  ⟨plain.append creates.plain, creates.once, creates.passes, creates.created⟩

theorem Deed.nothing_creates (bean : String) (d : Definition) (given : List Value) (e : BeanError) :
    Deed.nothing.Creates bean d given (.error e) :=
  ⟨Note.nothing_isPlain, Nat.zero_le 1, fun _ member => (List.not_mem_nil member).elim,
    fun _ same => by cases same⟩

structure Deed.Invokes (deed : Deed) (bean : String) (e : Executable) (arguments : List Value)
    (result : Except String Value) : Prop where
  quiet : deed.toNote = .nothing
  once : deed.invocations.length ≤ 1
  each : ∀ i ∈ deed.invocations, i = ⟨bean, e, none, arguments, i.result⟩
  given : ∀ v, result = .ok v → ∃ i ∈ deed.invocations, i.result = .ok v

namespace Work

/-- Objects are numbered as they are made, so this is the only difference that a container makes. -/
theorem perform_at (e : Executable) (arguments : List Value) (made : Nat) :
    ∃ r more, ∀ c : Container, c.objectsMade = made →
      (Work.perform e arguments).run c = (r, { c with objectsMade := c.objectsMade + more }) := by
  unfold Work.perform
  cases e.effect with
  | fails text => exact ⟨_, 0, fun _ _ => rfl⟩
  | gives value => exact ⟨_, 0, fun _ _ => rfl⟩
  | givesArgument position =>
    cases there : arguments[position]? with
    | none => exact ⟨.error "no such argument", 0, fun _ _ => by simp only [there]; rfl⟩
    | some value => exact ⟨.ok value, 0, fun _ _ => by simp only [there]; rfl⟩
  | makes type =>
    exact ⟨.ok (.object type (.made (made + 1))), 1, fun c same => by rw [← same]; rfl⟩

theorem instantiate_at (bean : String) (e : Executable) (arguments : List Value) (made : Nat) :
    ∃ r deed, deed.Invokes bean e arguments r ∧ ∀ c : Container, c.objectsMade = made →
      (Work.instantiate bean e none arguments).run c = (r, c.after deed) := by
  have refuses (text : String) : ∃ r deed, deed.Invokes bean e arguments r ∧
      ∀ c : Container, c.objectsMade = made →
        (pure (.error text) : Work (Except String Value)).run c = (r, c.after deed) := by
    refine ⟨.error text, .nothing, ⟨rfl, Nat.zero_le 1, by simp [Deed.nothing], by simp⟩,
      fun c _ => ?_⟩
    rw [Container.after_nothing]
    rfl
  -- What is refused leaves no trace. Any other call is made once and noted, whatever becomes of it.
  unfold Work.instantiate
  split
  · exact refuses _
  · split
    · exact refuses _
    · obtain ⟨r, more, performed⟩ := perform_at e arguments made
      have invokes (c : Container) (same : c.objectsMade = made) :
          (Work.invoke bean e none arguments).run c =
            (r, c.after ⟨.nothing, more, [⟨bean, e, none, arguments, r⟩]⟩) := by
        unfold Work.invoke Container.after
        rw [run_bind, performed c same, Container.noting_nothing]
        rfl
      have alone {result : Except String Value} (gave : ∀ v, result = .ok v → r = .ok v) :
          Deed.Invokes ⟨.nothing, more, [⟨bean, e, none, arguments, r⟩]⟩ bean e arguments result :=
        ⟨rfl, Nat.le_refl 1, by simp, fun v same => ⟨_, List.mem_cons_self, gave v same⟩⟩
      cases r with
      | error text =>
        refine ⟨.error text, _, alone nofun, fun c same => ?_⟩
        rw [run_bind, invokes c same]
        rfl
      | ok value =>
        cases refused : !e.isConstructor && value.isNull with
        | true =>
          refine ⟨.error ("factory method " ++ e.signature ++ " returned null for bean '" ++ bean ++
            "'"), _, alone nofun, fun c same => ?_⟩
          rw [run_bind, invokes c same]
          simp only [refused]
          rfl
        | false =>
          refine ⟨.ok value, _, alone fun v same => same, fun c same => ?_⟩
          rw [run_bind, invokes c same]
          simp only [refused]
          rfl

end Work

namespace Creation

theorem perform_given (bean : String) {d : Definition} (plain : d.factoryMethod = none)
    (arguments : List Value) (made : Nat) :
    ∃ result deed, deed.Creates bean d arguments result ∧
      ∀ n : Creation, n.Given bean d arguments → ∀ c : Container, c.objectsMade = made →
        n.perform.run.run c = (result, c.after deed) := by
  obtain ⟨r, note, passes, unlooked, decides⟩ :=
    call_uniform (fun n : { n : Creation // n.Given bean d arguments } => n.2) plain
  have decides (n : Creation) (given : n.Given bean d arguments) (c : Container) :
      n.call.run.run c = (r, c.noting note) := decides ⟨n, given⟩ c
  -- By `call_uniform` the call is decided on alike everywhere, and only then are objects made.
  cases r with
  | error e =>
    refine ⟨.error e, _, (Deed.nothing_creates bean d arguments e).following unlooked,
      fun n given c _ => ?_⟩
    unfold Creation.perform
    rw [Attempt.run_bind_of_error (decides n given c), ← Container.noting_after,
      Container.after_nothing]
  | ok call =>
    obtain ⟨target, takes⟩ := passes call rfl
    obtain ⟨r, deed, invokes, instantiates⟩ :=
      Work.instantiate_at bean call.executable call.arguments made
    have makes (n : Creation) (given : n.Given bean d arguments) (c : Container)
        (same : c.objectsMade = made) : n.perform.run.run c =
          (r.mapError fun text => .instantiation bean
            ("Bean instantiation via " ++ call.executable.noun ++ " failed: " ++
              call.executable.signature) (.plain text), (c.noting note).after deed) := by
      have there : (c.noting note).objectsMade = made := same
      have host : n.host.instantiate = Work.instantiate := by rw [given.host]; rfl
      unfold Creation.perform Creation.instantiate
      rw [Attempt.run_bind_of_ok (decides n given c), host, target, given.bean,
        Attempt.run_bind_lift, instantiates _ there]
      cases r <;> rfl
    have creates : deed.Creates bean d arguments (r.mapError fun text => .instantiation bean
        ("Bean instantiation via " ++ call.executable.noun ++ " failed: " ++
          call.executable.signature) (.plain text)) := by
      refine ⟨invokes.quiet ▸ Note.nothing_isPlain, invokes.once, fun i member => ?_,
        fun v same => ?_⟩
      · rw [invokes.each i member]
        exact ⟨rfl, rfl, takes⟩
      · cases r with
        | error text => cases same
        | ok value => exact invokes.given v (by simpa [Except.mapError] using same)
    refine ⟨_, _, creates.following unlooked, fun n given c same => ?_⟩
    rw [makes n given c same, Container.noting_after]

end Creation

def Conduct.IsProperFor (conduct : Conduct) (bean : String) (d : Definition) (given : List Value) :
    Prop :=
  ∀ n m, n.host = .full → n.bean = bean → n.definition = d → n.explicit = some given →
    (conduct n).run.run m = n.perform.run.run m

theorem createBy_given (bean : String) {d : Definition} (plain : d.factoryMethod = none)
    (arguments : List Value) (maxDepth made : Nat) :
    ∃ result deed, deed.Creates bean d arguments result ∧
      ∀ conduct d', Conduct.IsProperFor conduct bean d' arguments → d'.SameButValues d →
        ∀ c : Container, c.objectsMade = made →
          (createBy conduct maxDepth (.new maxDepth) bean d' (some arguments)).run.run c =
            (result, c.after deed) := by
  cases maxDepth with
  | zero =>
    refine ⟨.error (.tooDeep 0), _, Deed.nothing_creates bean d arguments _, fun _ _ _ _ c _ => ?_⟩
    rw [Container.after_nothing]
    rfl
  | succ room =>
    obtain ⟨result, deed, creates, performs⟩ := Creation.perform_given bean plain arguments made
    have unlooked : Note.IsPlain ⟨[], [.creating bean]⟩ := by simp [Note.IsPlain, Event.isLookup]
    refine ⟨result, _, creates.following unlooked, fun conduct d' proper same c made => ?_⟩
    have begun := performs
      ⟨.full, createBy conduct room, ⟨[], [bean], room + 1⟩, bean, d', arguments⟩
      ⟨rfl, rfl, same, rfl⟩ (c.noting ⟨[], [.creating bean]⟩) made
    rw [← proper _ _ rfl rfl rfl rfl, Container.noting_after] at begun
    have begins : (liftExcept ((Context.new (room + 1)).begin bean) : Attempt Context).run.run c =
        (.ok ⟨[], [bean], room + 1⟩, c) := rfl
    have noted : c.noting ⟨[], [.creating bean]⟩ =
        { c with events := c.events ++ [.creating bean] } := by
      simp [Container.noting]
    rw [noted] at begun
    unfold createBy
    rw [Attempt.run_bind_of_ok begins, Attempt.run_bind_lift]
    exact begun

namespace Container

/-- For a request of the named bean with given arguments the containers are alike. In all the rest,
such as other beans, they may differ. -/
structure Resembles (c' : Container) (name : String) (d : Definition) (c : Container) : Prop where
  defined : ∃ d', c'.definitions.get? name = some d' ∧ d'.SameButValues d
  maxDepth : c'.settings.maxDepth = c.settings.maxDepth
  held : c'.singletons.get? name = c.singletons.get? name
  made : c'.objectsMade = c.objectsMade

theorem Resembles.refl {c : Container} {name : String} {d : Definition}
    (registered : c.definitions.get? name = some d) : c.Resembles name d c :=
  ⟨⟨d, registered, .refl d⟩, rfl, rfl, rfl⟩

def holding (c : Container) (name : String) : Option Value → Container
  | none => c
  | some bean => { c with singletons := c.singletons.insert name bean }

/-- What a request of the named bean with given arguments comes to: a singleton there is, else what
its creation gives, which is registered if it is a singleton. -/
inductive ComesTo (c : Container) (name : String) (d : Definition) (given : List Value) :
    Except BeanError Value → Deed → Option Value → Prop
  | found {bean : Value} : d.scope = .singleton → c.singletons.get? name = some bean →
      ComesTo c name d given (.ok bean) .nothing none
  | created {result : Except BeanError Value} {deed : Deed} :
      (d.scope = .singleton → c.singletons.get? name = none) → deed.Creates name d given result →
      ComesTo c name d given result deed (if d.scope = .singleton then result.toOption else none)

end Container

theorem Attempt.run_fetch_given {create : Creator} {ctx : Context} {c : Container} {name : String}
    {d : Definition} (registered : c.definitions.get? name = some d) (arguments : List Value) :
    (Attempt.fetch create ctx name (some arguments)).run.run c =
      (match d.scope, c.singletons.get? name with
      | .singleton, some bean => pure bean
      | .singleton, none => do
        let bean ← create ctx name d (some arguments)
        Work.registerSingleton name bean
        pure bean
      | .prototype, _ => create ctx name d (some arguments) : Attempt Value).run.run c := by
  unfold Attempt.fetch
  rw [Attempt.run_get_bind, registered]
  rfl

theorem Attempt.beanBy_given (c : Container) (name : String) {d : Definition}
    (plain : d.factoryMethod = none) (arguments : List Value) :
    ∃ result deed kept, c.ComesTo name d arguments result deed kept ∧
      ∀ c' : Container, c'.Resembles name d c → ∀ conduct : Conduct,
        (∀ d', c'.definitions.get? name = some d' → conduct.IsProperFor name d' arguments) →
        (Attempt.beanBy conduct name (some arguments)).run.run c' =
          (result, (c'.after deed).holding name kept) := by
  have goes (conduct : Conduct) (c' : Container) :
      (Attempt.beanBy conduct name (some arguments)).run.run c' =
        (Attempt.fetch (createBy conduct c'.settings.maxDepth.toNat)
          (.new c'.settings.maxDepth.toNat) name (some arguments)).run.run c' :=
    Attempt.run_bind_of_ok (Attempt.run_context ⟨none, []⟩ c')
  -- A singleton that is there is handed out and the arguments are ignored. Else the bean is
  -- created.
  by_cases there : d.scope = .singleton ∧ ∃ bean, c.singletons.get? name = some bean
  · obtain ⟨single, bean, held⟩ := there
    refine ⟨.ok bean, _, none, .found single held, fun c' like conduct _ => ?_⟩
    obtain ⟨d', registered, same⟩ := like.defined
    rw [goes, Attempt.run_fetch_given registered, same.scope, single, like.held, held,
      Container.after_nothing]
    rfl
  · obtain ⟨result, deed, creates, makes⟩ :=
      createBy_given name plain arguments c.settings.maxDepth.toNat c.objectsMade
    have absent (single : d.scope = .singleton) : c.singletons.get? name = none :=
      Option.eq_none_iff_forall_ne_some.mpr fun bean held => there ⟨single, bean, held⟩
    refine ⟨result, deed, _, .created absent creates, fun c' like conduct proper => ?_⟩
    obtain ⟨d', registered, same⟩ := like.defined
    have made := makes conduct d' (proper d' registered) same c' like.made
    rw [goes, Attempt.run_fetch_given registered, same.scope, like.held, like.maxDepth]
    cases scope : d.scope with
    | prototype => exact made
    | singleton =>
      rw [absent scope]
      cases result with
      | error e => exact Attempt.run_bind_of_error made
      | ok bean => exact Attempt.run_bind_of_ok made

/-- Given arguments suffice: a request with them comes to the same in all containers that resemble
this one, adds no more to them than the deed, and begins no creation but that of the bean. -/
theorem Request.given_arguments_suffice {c : Container} {name : String} {d : Definition}
    (registered : c.definitions.get? name = some d) (plain : d.factoryMethod = none)
    (arguments : List Value) :
    (∃ result deed kept, c.ComesTo name d arguments result deed kept ∧
      ∀ c' : Container, c'.Resembles name d c →
        (Request.bean name (some arguments)).perform.run c' =
          (.bean result, (c'.after deed).holding name kept)) ∧
    Request.EachCreation
      (fun n _ => n.bean = name ∧ n.definition = d ∧ n.explicit = some arguments)
      [.bean name (some arguments)] c := by
  obtain ⟨result, deed, kept, comes, answers⟩ :=
    Attempt.beanBy_given c name plain arguments
  have performs {c' : Container} (like : c'.Resembles name d c) {conduct : Conduct}
      (proper : ∀ d', c'.definitions.get? name = some d' → conduct.IsProperFor name d' arguments) :
      ((Request.bean name (some arguments)).performBy conduct).run c' =
        (.bean result, (c'.after deed).holding name kept) := by
    change ((Attempt.beanBy conduct name (some arguments)).run >>= fun r => pure (.bean r) :
      Work Answer).run c' = _
    rw [Work.run_bind]
    change (Answer.bean ((Attempt.beanBy conduct name (some arguments)).run.run c').1, _) = _
    rw [answers c' like conduct proper]
  have itself {c' : Container} (like : c'.Resembles name d c) :
      (Request.bean name (some arguments)).perform.run c' =
        (.bean result, (c'.after deed).holding name kept) := by
    rw [← Request.performBy_perform]
    exact performs like fun _ _ _ _ _ _ _ _ => rfl
  refine ⟨⟨result, deed, kept, comes, fun c' like => itself like⟩, fun conduct proper => ?_⟩
  have like := Container.Resembles.refl registered
  have answered := performs like fun d' found n m _ bean definition explicit =>
    proper n m ⟨bean, definition.trans (Option.some.inj (found.symm.trans registered)), explicit⟩
  unfold performAllBy performAll
  rw [Work.run_bind, Work.run_bind, Work.run_bind, Work.run_bind, answered, itself like]
  rfl

/-! A meter that shows the number it is made with. One that was made from a declared number, which is
kept for the next, is compared with one that has no number declared. -/
namespace Meter

def constructor (parameters : List BeanType) : Executable where
  declaring := .plainClass "Meter"
  kind := .constructor
  isPublic := true
  parameters := parameters.map (⟨·, none⟩)
  effect := .givesArgument 0
  label := none

def definition (arguments : ArgumentValues DeclaredValue) (autowire : Bool) : Definition :=
  { Definition.initial .initial with
    serial := 1
    beanClass := some ⟨.plainClass "Meter", [constructor [.int], constructor [.int, .string]], []⟩
    arguments := arguments
    autowire := autowire
    scope := .prototype }

def declared : Definition :=
  definition (ArgumentValues.empty.addGeneric ⟨.value (.int 3), none, none, none⟩) true

def undeclared : Definition := definition .empty false

def define (d : Definition) : Container :=
  ((Request.define "meter" d).perform.run (.new .initial)).2

def used : Container := ((Request.bean "meter" none).perform.run (define declared)).2

def number : Value → Option Int32
  | .int n => some n
  | _ => none

def numbers (c : Container) : List (List (Option Int32)) :=
  ((Request.bean "meter" (some [.str "7"])).perform.run c).2.invocations.map
    (·.arguments.map number)

theorem unused_resembles_used : (define undeclared).Resembles "meter" declared used where
  defined := ⟨undeclared, rfl, rfl, rfl, rfl, rfl, rfl, rfl, rfl, rfl⟩
  maxDepth := by decide +kernel
  held := rfl
  made := by decide +kernel

theorem given_arguments_suffice_of_meter :
    used.definitions.get? "meter" = some declared ∧ declared.factoryMethod = none ∧
    (used.resolution? declared).isSome ∧ numbers used = [[some 3], [some 7]] ∧
    numbers (define undeclared) = [[some 7]] ∧
    ∃ result deed kept, used.ComesTo "meter" declared [.str "7"] result deed kept ∧
      (Request.bean "meter" (some [.str "7"])).perform.run used =
        (.bean result, (used.after deed).holding "meter" kept) ∧
      (Request.bean "meter" (some [.str "7"])).perform.run (define undeclared) =
        (.bean result, ((define undeclared).after deed).holding "meter" kept) := by
  have registered : used.definitions.get? "meter" = some declared := rfl
  have plain : declared.factoryMethod = none := rfl
  obtain ⟨⟨result, deed, kept, comes, answers⟩, -⟩ :=
    Request.given_arguments_suffice registered plain [.str "7"]
  refine ⟨registered, plain, by decide +kernel, by decide +kernel, by decide +kernel,
    result, deed, kept, comes, ?_, ?_⟩
  · exact answers used (.refl registered)
  · exact answers (define undeclared) unused_resembles_used

end Meter

end BeanWiring
