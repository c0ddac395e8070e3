import BeanWiring.Proofs.Candidates
import BeanWiring.Proofs.Catalogue
import BeanWiring.Proofs.Kept

/-!
What creation does to a container. A realm tells where beans are created and from which definitions.
A property of containers that the single effects of creation in a realm uphold is upheld by all that
creation is made of, and no part of it tells two ways of creating beans apart that agree wherever the
property holds.
-/
namespace BeanWiring

def IsInnerName (name : String) : Prop := ∃ serial : Nat, name = "(inner bean)#" ++ toString serial

def Blueprint.Tried (d : Definition) (I : Container → Prop) (e : Executable) : Prop :=
  d.Allows e ∨ ∃ m, I m ∧ m.factoryMethod? d = some e

/-- A class that is registered where `I` holds offers the definition the executable as a method of its
factory bean, if it has one. -/
def Blueprint.Listed (d : Definition) (I : Container → Prop) (e : Executable) : Prop :=
  d.factoryBean.isSome = true →
    ∃ m type k, I m ∧ m.classOfType? type = some k ∧ e ∈ k.overloads d false

namespace Container

def keeping (c : Container) (d : Definition) (r : Resolution) : Container :=
  { c.withResolution d r with
    factoryMethods :=
      if d.factoryMethod.isSome then c.factoryMethods.insert d.serial r.executable
      else c.factoryMethods }

end Container

/-- Where beans are created: `place` holds of the contexts creation goes on in, `known` of the
definitions it has to do with. A creation may be `asked` of a container, and has `begun` once the
context has room for it. -/
structure Realm where
  place : Context → Prop
  known : Definition → Prop
  asked : Container → String → Definition → Prop
  begun : String → Definition → Prop

namespace Realm

structure Remembers (known : Definition → Prop) (I : Container → Prop) : Prop where
  registered : ∀ c name d, I c → c.definitions.get? name = some d → known d
  rememberMethod : ∀ c d e, I c → known d → d.Opens e → d.Listed I e →
    I { c with factoryMethods := c.factoryMethods.insert d.serial e }

/-- Finding arguments in the realm upholds `I`: fetching beans, resolving what is declared and binding
parameters. A definition inside another is created under a generated name, and a singleton registered
only under the name of a definition, where there was none when its creation began. -/
structure Serves (w : Realm) (I : Container → Prop) : Prop extends Remembers w.known I where
  push : ∀ ctx point, w.place ctx → w.place (ctx.push point)
  asks : ∀ c name d, I c → c.definitions.get? name = some d →
    (d.scope = .singleton → c.singletons.get? name = none) → w.asked c name d
  inside : ∀ c name d, I c → IsInnerName name → w.known d → ∀ h ∈ d.arguments.holders,
    ∀ inner ∈ h.value.family, w.asked c name inner
  emit : ∀ c event, I c → I { c with events := c.events ++ [event] }
  nextInnerName : ∀ c, I c → I { c with nextInnerBean := c.nextInnerBean + 1 }
  registerDependent : ∀ c dependency dependent, I c →
    I { c with graph := c.graph.register dependency dependent }
  registerSingleton : ∀ m c name d bean, I m → m.definitions.get? name = some d →
    m.singletons.get? name = none → w.begun name d → I c →
    I { c with singletons := c.singletons.insert name bean }

structure Works (w : Realm) (I : Container → Prop) : Prop extends Serves w I where
  begins : ∀ c ctx name d inside, I c → w.place ctx → w.asked c name d →
    ctx.begin name = .ok inside → w.place inside ∧ w.begun name d
  concerns : ∀ name d, w.begun name d → w.known d
  kept : ∀ c d r, I c → w.known d → c.resolution? d = some r → r.KeptFor d
  suppress : ∀ c text, I c → I { c with suppressed := c.suppressed ++ [text] }
  makeObject : ∀ c, I c → I { c with objectsMade := c.objectsMade + 1 }
  invoke : ∀ c invocation, I c → I { c with invocations := c.invocations ++ [invocation] }

/-- Every effect of creation in the realm upholds `I`. A resolution is kept only where none was when
it was looked for. -/
structure Upholds (w : Realm) (I : Container → Prop) : Prop extends Works w I where
  keep : ∀ m c name d r, I m → m.resolution? d = none → w.begun name d → I c → r.ChosenFor d →
    d.Tried I r.executable → I (c.keeping d r)

def Agree (w : Realm) (I : Container → Prop) (create create' : Creator) : Prop :=
  ∀ ctx name d explicit c, w.place ctx → I c → w.asked c name d →
    Attempt.Ends I c (create ctx name d explicit) (create' ctx name d explicit)
      fun _ c' => w.begun name d ∧ I c'

end Realm

structure Host.Alike (I : Container → Prop) (host host' : Host) : Prop where
  evaluate : ∀ text, Attempt.Agree I (host.evaluate text) (host'.evaluate text) fun _ => True
  suppress : ∀ error, Work.Agree I (host.suppress error) (host'.suppress error) fun _ => True

/-- Two surroundings agree wherever `I` holds; what they do with a wrong number of arguments is
left open. -/
structure Host.Agree (I : Container → Prop) (host host' : Host) : Prop where
  evaluate : ∀ text, Attempt.Agree I (host.evaluate text) (host'.evaluate text) fun _ => True
  suppress : ∀ error, Work.Agree I (host.suppress error) (host'.suppress error) fun _ => True
  instantiate : ∀ bean e target arguments, arguments.length = e.arity →
    Work.Agree I (host.instantiate bean e target arguments)
      (host'.instantiate bean e target arguments) fun _ => True

theorem Host.Agree.alike {I : Container → Prop} {host host' : Host}
    (agree : Host.Agree I host host') : Host.Alike I host host' where
  evaluate := agree.evaluate
  suppress := agree.suppress

namespace Realm

def Offers (w : Realm) (I : Container → Prop) (family : List Definition) : Prop :=
  ∀ inner ∈ family, ∀ c name, I c → IsInnerName name → w.asked c name inner

namespace Remembers

variable {known : Definition → Prop} {I : Container → Prop}

def Registered (I : Container → Prop) (found : Option BeanClass) : Prop :=
  ∀ k, found = some k → ∃ m type, I m ∧ m.classOfType? type = some k

theorem findMethod (remembers : Remembers known I) {classOf : String → Work (Option BeanClass)}
    (classes : ∀ name, Work.Agree I (classOf name) (classOf name) (Registered I)) {d : Definition}
    (member : known d) :
    Work.Agree I (Work.findMethod classOf d) (Work.findMethod classOf d) fun _ => True := by
  have owner : Work.Agree I (Work.methodOwner classOf d) (Work.methodOwner classOf d)
      fun found => (d.factoryBean = none → found = (d.beanClass, true)) ∧
        (d.factoryBean.isSome = true → Registered I found.1 ∧ found.2 = false) := by
    unfold Work.methodOwner
    split
    · rename_i behind
      refine .bind (classes _) fun _ registered => .pure ⟨fun static => ?_, fun _ => ⟨registered, rfl⟩⟩
      cases behind.symm.trans static
    · rename_i static
      exact .pure ⟨fun _ => rfl, fun behind => absurd (static ▸ behind) nofun⟩
  refine .bind owner fun (beanClass, isStatic) ⟨own, behind⟩ => ?_
  dsimp only
  split
  · rename_i method found
    obtain ⟨owner, listing, unique⟩ := Option.bind_eq_some_iff.mp found
    have opens : d.Opens method := by
      refine BeanClass.opens_of_mem_overloads (BeanClass.mem_of_uniqueMethod? unique) fun static => ?_
      obtain ⟨rfl, rfl⟩ := Prod.mk.inj (own static)
      exact ⟨listing, rfl⟩
    have listed : d.Listed I method := fun named => by
      obtain ⟨registered, rfl⟩ := behind named
      obtain ⟨m, type, held, own⟩ := registered owner listing
      exact ⟨m, type, owner, held, own, BeanClass.mem_of_uniqueMethod? unique⟩
    refine .bind (.modify fun c inv => ?_) fun _ _ => .pure trivial
    exact remembers.rememberMethod c d method inv member opens listed
  · exact .pure trivial

theorem classOfPredicted {predict : String → Work (Option BeanType)}
    (predicts : ∀ name, Work.Agree I (predict name) (predict name) fun _ => True) (name : String) :
    Work.Agree I (Work.classOfPredicted predict name) (Work.classOfPredicted predict name)
      (Registered I) := by
  unfold Work.classOfPredicted
  refine .bind (predicts name) fun type _ => ?_
  split
  · exact .bind .get fun c inv => .pure fun k own => ⟨c, _, inv, own⟩
  · exact .pure nofun

theorem predictBy (remembers : Remembers known I) (name : String)
    {search : Definition → Work (Option BeanType)}
    (searches : ∀ d, known d → Work.Agree I (search d) (search d) fun _ => True) :
    Work.Agree I (Work.predictBy search name) (Work.predictBy search name) fun _ => True := by
  refine .bind .get fun c inv => ?_
  split
  · exact .pure trivial
  · exact .pure trivial
  · rename_i d _ found
    split
    · exact searches d (remembers.registered c name d inv found)
    · exact .pure trivial

theorem predictWithin (remembers : Remembers known I) (steps : Nat) (busy : List String)
    (name : String) :
    Work.Agree I (Work.predictWithin steps busy name) (Work.predictWithin steps busy name)
      fun _ => True := by
  induction steps generalizing busy name with
  | zero => exact remembers.predictBy name fun _ _ => .pure trivial
  | succ steps ih =>
    refine remembers.predictBy name fun d member => ?_
    split
    · exact .pure trivial
    -- The factory bean is predicted in one step less, and only then is a method looked for.
    · have finds := remembers.findMethod (classOfPredicted (ih (name :: busy))) member
      refine .bind finds fun _ _ => ?_
      exact .bind .get fun _ _ => .pure trivial

theorem predict (remembers : Remembers known I) (name : String) :
    Work.Agree I (Work.predict name) (Work.predict name) fun _ => True :=
  .bind .get fun _ _ => remembers.predictWithin _ _ _

theorem introspect (remembers : Remembers known I) {d : Definition} (member : known d) :
    Work.Agree I (Work.introspect d) (Work.introspect d) fun _ => True :=
  remembers.findMethod (classOfPredicted remembers.predict) member

theorem isTypeMatch (remembers : Remembers known I) (name : String) (type : BeanType) :
    Work.Agree I (Work.isTypeMatch name type) (Work.isTypeMatch name type) fun _ => True :=
  .bind (remembers.predict name) fun _ _ => .pure trivial

theorem matching (remembers : Remembers known I) (type : BeanType) (names : List String) :
    Work.Agree I (Work.matching type names) (Work.matching type names) fun _ => True := by
  induction names with
  | nil => exact .pure trivial
  | cons name rest ih =>
    unfold Work.matching
    refine .bind (remembers.isTypeMatch name type) fun fits _ => ?_
    split
    · exact .bind ih fun _ _ => .pure trivial
    · exact ih

theorem candidatesFor (remembers : Remembers known I) (requester : String) (type : BeanType) :
    Work.Agree I (Work.candidatesFor requester type) (Work.candidatesFor requester type)
      fun _ => True :=
  .bind .get fun _ _ => remembers.matching _ _

theorem choose (remembers : Remembers known I) (point : InjectionPoint) (requester : String)
    (required : Bool) :
    Work.Agree I (Work.choose point requester required) (Work.choose point requester required)
      fun _ => True :=
  .bind (remembers.candidatesFor _ _) fun _ _ => .bind .get fun _ _ => .pure trivial

theorem chooseByType (remembers : Remembers known I) (type : BeanType) :
    Work.Agree I (Work.chooseByType type) (Work.chooseByType type) fun _ => True := by
  refine .bind (remembers.candidatesFor _ _) fun names _ => ?_
  split
  · exact .pure trivial
  · exact .pure trivial
  · exact .bind .get fun _ _ => .pure trivial

end Remembers

namespace Serves

variable {w : Realm} {I : Container → Prop}

section Fetching

variable {create create' : Creator} {ctx : Context}

theorem emits (serves : w.Serves I) (event : Event) :
    Work.Agree I (Work.emit event) (Work.emit event) fun _ => True :=
  .modify fun c inv => serves.emit c event inv

theorem connects (serves : w.Serves I) (dependency dependent : String) :
    Work.Agree I (Work.registerDependent dependency dependent)
      (Work.registerDependent dependency dependent) fun _ => True :=
  .modify fun c inv => serves.registerDependent c dependency dependent inv

theorem innerName (serves : w.Serves I) :
    Work.Agree I Work.nextInnerName Work.nextInnerName IsInnerName :=
  fun c inv => ⟨rfl, serves.nextInnerName c inv, c.nextInnerBean, rfl⟩

theorem fetch (serves : w.Serves I) (creates : w.Agree I create create') (place : w.place ctx)
    (name : String) (explicit : Option (List Value)) :
    Attempt.Agree I (Attempt.fetch create ctx name explicit)
      (Attempt.fetch create' ctx name explicit) fun _ => True := by
  refine .of_ends fun c inv => .get_bind ?_
  have here {v : Value} : Attempt.Ends I c (pure v : Attempt Value) (pure v)
      fun _ c' => True ∧ I c' := .pure ⟨trivial, inv⟩
  split
  -- What is there already, or is refused, changes nothing; a singleton is registered once it is
  -- made.
  · exact .bind ((Attempt.Agree.lift (serves.emits _)).ends inv) fun _ _ done => .pure ⟨trivial, done.2⟩
  · split
    · exact here
    · exact .throw _ inv
    · rename_i d found
      split
      · exact here
      · rename_i absent
        have asked := serves.asks c name d inv found fun _ => absent
        refine .bind (creates ctx name d explicit c place inv asked) fun bean m made => ?_
        have held := serves.registerSingleton c m name d bean inv found absent made.1 made.2
        exact .bind (.lift (Q := fun _ => I) rfl held) fun _ _ kept => .pure ⟨trivial, kept⟩
      · rename_i prototype
        have asked := serves.asks c name d inv found fun singleton => by
          cases prototype.symm.trans singleton
        exact (creates ctx name d explicit c place inv asked).mono fun _ _ made => ⟨trivial, made.2⟩

theorem evaluate (text : String) :
    Attempt.Agree I (Attempt.evaluate text) (Attempt.evaluate text) fun _ => True := by
  refine .bind .get fun c inv => ?_
  split
  · exact .pure trivial
  · exact .throw _

mutual

theorem resolveDeclared (serves : w.Serves I) (creates : w.Agree I create create')
    (place : w.place ctx) (bean argumentName : String) :
    (declared : DeclaredValue) → w.Offers I declared.family →
      Attempt.Agree I (Attempt.resolveDeclared create ctx bean argumentName declared)
        (Attempt.resolveDeclared create' ctx bean argumentName declared) fun _ => True
  | .value v, _ => by
    cases v with
    | str text => exact evaluate text
    | _ => exact .pure trivial
  | .reference name, _ => by
    refine .bind (.lift (serves.emits _)) fun _ _ => ?_
    refine .bind (serves.fetch creates place name none) fun value _ => ?_
    exact .bind (.lift (serves.connects _ _)) fun _ _ => .pure trivial
  | .inner d, offers => by
    have own : d ∈ (DeclaredValue.inner d).family := by
      rw [DeclaredValue.family, DeclaredValue.familyOfDefinition_eq]
      exact List.mem_cons_self
    refine .bind (.lift serves.innerName) fun name generated => ?_
    refine .of_ends fun c inv => ?_
    have made := creates ctx name d none c place inv (offers d own c name inv generated)
    exact made.mono fun _ _ made => ⟨trivial, made.2⟩
  | .list items, offers =>
    .bind (serves.resolveDeclaredAll creates place bean argumentName items offers)
      fun _ _ => .pure trivial

theorem resolveDeclaredAll (serves : w.Serves I) (creates : w.Agree I create create')
    (place : w.place ctx) (bean argumentName : String) :
    (items : List DeclaredValue) → w.Offers I (DeclaredValue.familyOfItems items) →
      Attempt.Agree I (Attempt.resolveDeclaredAll create ctx bean argumentName items)
        (Attempt.resolveDeclaredAll create' ctx bean argumentName items) fun _ => True
  | [], _ => .pure trivial
  | item :: rest, offers => by
    have first : w.Offers I item.family := fun inner member =>
      offers inner (List.mem_append_left _ member)
    have later : w.Offers I (DeclaredValue.familyOfItems rest) := fun inner member =>
      offers inner (List.mem_append_right _ member)
    refine .bind (serves.resolveDeclared creates place bean argumentName item first) fun _ _ => ?_
    refine .bind (serves.resolveDeclaredAll creates place bean argumentName rest later) fun _ _ => ?_
    exact .pure trivial

end

theorem resolveHolder (serves : w.Serves I) (creates : w.Agree I create create')
    (place : w.place ctx) (bean : String) (h : Holder DeclaredValue)
    (offers : w.Offers I h.value.family) :
    Attempt.Agree I (Attempt.resolveHolder create ctx bean h)
      (Attempt.resolveHolder create' ctx bean h) fun _ => True := by
  unfold Attempt.resolveHolder
  split
  · exact .pure trivial
  · exact .bind (serves.resolveDeclared creates place bean _ h.value offers) fun _ _ => .pure trivial

theorem offers_holder (serves : w.Serves I) {d : Definition} (known : w.known d)
    {h : Holder DeclaredValue} (held : h ∈ d.arguments.holders) : w.Offers I h.value.family :=
  fun inner member c name inv generated =>
    serves.inside c name d inv generated known h held inner member

theorem resolveArguments (serves : w.Serves I) (creates : w.Agree I create create')
    (place : w.place ctx) (bean : String) {d : Definition} (known : w.known d) :
    Attempt.Agree I (Attempt.resolveArguments create ctx bean d)
      (Attempt.resolveArguments create' ctx bean d) d.arguments.ResolveTo := by
  have indexed : ∀ p ∈ d.arguments.indexed, p.2 ∈ d.arguments.holders := fun p member =>
    List.mem_append_left _ (List.mem_map_of_mem member)
  have generic : ∀ h ∈ d.arguments.generic, h ∈ d.arguments.holders := fun h member =>
    List.mem_append_right _ member
  have resolves : Attempt.Agree I (Attempt.resolveArguments create ctx bean d)
      (Attempt.resolveArguments create' ctx bean d) fun _ => True := by
    refine .bind (.mapM (Q := fun _ _ => True) fun (index, h) member => ?_) fun _ _ => ?_
    · have offers := serves.offers_holder known (indexed _ member)
      exact .bind (serves.resolveHolder creates place bean h offers) fun _ _ => .pure trivial
    refine .bind (.mapM (Q := fun _ _ => True) fun h member => ?_) fun _ _ => .pure trivial
    exact serves.resolveHolder creates place bean h (serves.offers_holder known (generic h member))
  refine resolves.result.mono fun values found => ?_
  obtain ⟨-, c, c', run⟩ := found
  exact Attempt.resolveArguments_ok run

end Fetching

section Binding

variable {create create' : Creator} {ctx : Context}

theorem gather {fetch fetch' : String → Attempt Value}
    (fetches : ∀ name, Attempt.Agree I (fetch name) (fetch' name) fun _ => True) (type : BeanType)
    (choice : Choice) :
    Work.Agree I (Work.gather fetch type choice) (Work.gather fetch' type choice)
      fun _ => True := by
  cases choice with
  | nothing => exact .pure trivial
  | one name => exact .bind (fetches name) fun _ _ => .pure trivial
  | all names =>
    have every : Attempt.Agree I (names.mapM fetch) (names.mapM fetch') fun _ => True :=
      (Attempt.Agree.mapM (Q := fun _ _ => True) fun name _ => fetches name).mono fun _ _ => trivial
    refine .bind every fun beans _ => ?_
    split <;> exact .pure trivial

theorem resolveDependency (serves : w.Serves I) {fetch fetch' : String → Attempt Value}
    (fetches : ∀ name, Attempt.Agree I (fetch name) (fetch' name) fun _ => True)
    (point : InjectionPoint) (requester : String) (required : Bool) :
    Work.Agree I (Work.resolveDependency fetch point requester required)
      (Work.resolveDependency fetch' point requester required) fun _ => True := by
  refine .bind (serves.choose point requester required) fun chosen _ => ?_
  split
  · exact gather fetches _ _
  · exact .pure trivial

theorem autowire (serves : w.Serves I) (creates : w.Agree I create create') (place : w.place ctx)
    (bean : String) (point : InjectionPoint) (fallback : Bool) :
    Attempt.Agree I (Work.autowire (Attempt.fetcher create) ctx bean point fallback)
      (Work.autowire (Attempt.fetcher create') ctx bean point fallback) fun _ => True := by
  have fetches := fun name => serves.fetch creates (serves.push ctx point place) name none
  unfold Work.autowire
  split
  · split
    · exact .pure trivial
    · exact .throw _
  · refine .bind (.lift (serves.resolveDependency fetches point bean true)) fun lookup _ => ?_
    exact .except fun _ _ => trivial

theorem bindParameter (serves : w.Serves I) (creates : w.Agree I create create')
    (place : w.place ctx) (bean : String) (autowiring fallback : Bool) (e : Executable)
    (values : ArgumentValues ResolvedValue) (index : Nat) (parameter : Parameter) (p : Progress) :
    Attempt.Agree I
      (Work.bindParameter ⟨Attempt.fetcher create, ctx, bean, autowiring, fallback⟩ e values index
        parameter p)
      (Work.bindParameter ⟨Attempt.fetcher create', ctx, bean, autowiring, fallback⟩ e values index
        parameter p) fun _ => True := by
  unfold Work.bindParameter
  dsimp only
  split
  · exact .bind (.liftM fun _ _ => trivial) fun _ _ => .pure trivial
  · split
    · refine .bind (.lift (serves.autowire creates place bean _ fallback)) fun found _ => ?_
      split
      · exact .pure trivial
      · exact .throw _
    · exact .throw _

theorem bindFrom (serves : w.Serves I) (creates : w.Agree I create create') (place : w.place ctx)
    (bean : String) (autowiring fallback : Bool) (e : Executable)
    (values : ArgumentValues ResolvedValue) (index : Nat) (parameters : List Parameter)
    (p : Progress) :
    Attempt.Agree I
      (Work.bindFrom ⟨Attempt.fetcher create, ctx, bean, autowiring, fallback⟩ e values index
        parameters p)
      (Work.bindFrom ⟨Attempt.fetcher create', ctx, bean, autowiring, fallback⟩ e values index
        parameters p) fun _ => True := by
  induction parameters generalizing index p with
  | nil => exact .pure trivial
  | cons parameter rest ih =>
    have first :=
      serves.bindParameter creates place bean autowiring fallback e values index parameter p
    exact .bind first fun q _ => ih (index + 1) q

theorem registerAutowired (serves : w.Serves I) (bean noun : String) (names : List String) :
    Work.Agree I (Work.registerAutowired bean noun names) (Work.registerAutowired bean noun names)
      fun _ => True := by
  induction names with
  | nil => exact .pure trivial
  | cons name rest ih =>
    refine .bind (serves.connects name bean) fun _ _ => ?_
    exact .bind (serves.emits _) fun _ _ => ih

theorem bindDeclared (serves : w.Serves I) (creates : w.Agree I create create')
    (place : w.place ctx) (bean : String) (autowiring fallback : Bool) (e : Executable)
    (values : ArgumentValues ResolvedValue) :
    Attempt.Agree I
      (Work.bindDeclared ⟨Attempt.fetcher create, ctx, bean, autowiring, fallback⟩ e values)
      (Work.bindDeclared ⟨Attempt.fetcher create', ctx, bean, autowiring, fallback⟩ e values)
      fun _ => True := by
  refine .bind (serves.bindFrom creates place bean autowiring fallback e values 0 _ _) fun p _ => ?_
  exact .bind (.lift (serves.registerAutowired _ _ _)) fun _ _ => .pure trivial

end Binding

section Replay

variable {create create' : Creator} {host host' : Host} {ctx : Context}

theorem replayRecipe (serves : w.Serves I) (hosts : Host.Alike I host host')
    (creates : w.Agree I create create') (place : w.place ctx) (bean : String)
    (point : InjectionPoint) (recipe : Recipe)
    (offers : ∀ source, recipe = .declared source → w.Offers I source.family) :
    Attempt.Agree I (Attempt.replayRecipe host create ctx bean point recipe)
      (Attempt.replayRecipe host' create' ctx bean point recipe) fun _ => True := by
  cases recipe with
  | autowired => exact .bind (serves.autowire creates place bean point true) fun _ _ => .pure trivial
  | declared source => exact serves.resolveDeclared creates place bean _ source (offers source rfl)
  | value v =>
    cases v with
    | str text => exact hosts.evaluate text
    | _ => exact .pure trivial

theorem replayFrom (serves : w.Serves I) (hosts : Host.Alike I host host')
    (creates : w.Agree I create create') (place : w.place ctx) (bean : String) (e : Executable)
    (index : Nat) (parameters : List Parameter) (recipes : List Recipe)
    (offers : ∀ source, .declared source ∈ recipes → w.Offers I source.family)
    (length : recipes.length = parameters.length) :
    Attempt.Agree I (Attempt.replayFrom host create ctx bean e index parameters recipes)
      (Attempt.replayFrom host' create' ctx bean e index parameters recipes)
      fun arguments => arguments.length = parameters.length := by
  induction parameters generalizing index recipes with
  | nil =>
    cases recipes with
    | nil => exact .pure rfl
    | cons => cases length
  | cons parameter parameters ih =>
    cases recipes with
    | nil => cases length
    | cons recipe recipes =>
      have first : ∀ source, recipe = .declared source → w.Offers I source.family :=
        fun source same => offers source (same ▸ List.mem_cons_self)
      have later := fun source member => offers source (List.mem_cons_of_mem recipe member)
      refine .bind (serves.replayRecipe hosts creates place bean _ recipe first) fun value _ => ?_
      split
      · exact .throw _
      · refine .bind (ih (index + 1) recipes later (Nat.succ.inj length)) fun arguments same => ?_
        exact .pure (congrArg Nat.succ same)

end Replay

end Serves

end Realm

end BeanWiring
