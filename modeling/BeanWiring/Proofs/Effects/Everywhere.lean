import BeanWiring.Proofs.Effects.Creation

/-!
Creation wherever it takes place, as long as its definitions are among given ones.
-/
namespace BeanWiring

structure Upheld (D : Definition → Prop) (I : Container → Prop) : Prop where
  registered : ∀ c name d, I c → c.definitions.get? name = some d → D d
  inside : ∀ d, D d → ∀ h ∈ d.arguments.holders, ∀ inner ∈ h.value.family, D inner
  kept : ∀ c d r, I c → D d → c.resolution? d = some r → r.KeptFor d
  emit : ∀ c event, I c → I { c with events := c.events ++ [event] }
  suppress : ∀ c text, I c → I { c with suppressed := c.suppressed ++ [text] }
  makeObject : ∀ c, I c → I { c with objectsMade := c.objectsMade + 1 }
  nextInnerName : ∀ c, I c → I { c with nextInnerBean := c.nextInnerBean + 1 }
  invoke : ∀ c invocation, I c → I { c with invocations := c.invocations ++ [invocation] }
  registerDependent : ∀ c dependency dependent, I c →
    I { c with graph := c.graph.register dependency dependent }
  registerSingleton : ∀ c name bean, I c → I { c with singletons := c.singletons.insert name bean }
  rememberMethod : ∀ c d method, I c → D d →
    I { c with factoryMethods := c.factoryMethods.insert d.serial method }
  keepResolution : ∀ c d r, I c → D d → r.ChosenFor d → I (c.withResolution d r)

def Creator.Agree (D : Definition → Prop) (I : Container → Prop) (create create' : Creator) :
    Prop :=
  ∀ ctx bean d explicit, D d →
    Attempt.Agree I (create ctx bean d explicit) (create' ctx bean d explicit) fun _ => True

def Realm.everywhere (D : Definition → Prop) : Realm where
  place _ := True
  known := D
  asked _ _ := D
  begun _ := D

theorem Creator.agree_iff {D : Definition → Prop} {I : Container → Prop}
    {create create' : Creator} :
    Creator.Agree D I create create' ↔ (Realm.everywhere D).Agree I create create' := by
  constructor
  · intro agree ctx bean d explicit c _ inv known
    exact ((agree ctx bean d explicit known).ends inv).mono fun _ _ done => ⟨known, done.2⟩
  · intro agree ctx bean d explicit known
    refine .of_ends fun c inv => ?_
    exact (agree ctx bean d explicit c trivial inv known).mono fun _ _ done => ⟨trivial, done.2⟩

namespace Upheld

variable {D : Definition → Prop} {I : Container → Prop} {create create' : Creator}
  {host host' : Host}

theorem upholds (upheld : Upheld D I) : (Realm.everywhere D).Upholds I where
  push _ _ _ := trivial
  registered := upheld.registered
  asks c name d inv found _ := upheld.registered c name d inv found
  inside _ _ d _ _ := upheld.inside d
  begins _ _ _ _ _ _ _ known _ := ⟨trivial, known⟩
  concerns _ _ known := known
  kept := upheld.kept
  emit := upheld.emit
  suppress := upheld.suppress
  makeObject := upheld.makeObject
  nextInnerName := upheld.nextInnerName
  invoke := upheld.invoke
  registerDependent := upheld.registerDependent
  registerSingleton _ c name _ bean _ _ _ _ inv := upheld.registerSingleton c name bean inv
  rememberMethod c d e inv known _ _ := upheld.rememberMethod c d e inv known
  keep _ c _ d r _ _ known inv chosen _ := by
    have kept := upheld.keepResolution c d r inv known chosen
    unfold Container.keeping
    split
    · exact upheld.rememberMethod _ d _ kept known
    · exact kept

theorem and {J : Container → Prop} (upheld : Upheld D I)
    (told : ∀ c c', c'.settings = c.settings → c'.properties = c.properties →
      c.events <+: c'.events → J c → J c') :
    Upheld D fun c => I c ∧ J c :=
  have same (c c' : Container) (settings : c'.settings = c.settings)
      (properties : c'.properties = c.properties) (events : c'.events = c.events) (holds : J c) :
      J c' :=
    told c c' settings properties (events ▸ List.prefix_rfl) holds
  { registered := fun c name d inv => upheld.registered c name d inv.1
    inside := upheld.inside
    kept := fun c d r inv => upheld.kept c d r inv.1
    emit := fun c event inv =>
      ⟨upheld.emit c event inv.1, told c _ rfl rfl (List.prefix_append _ _) inv.2⟩
    suppress := fun c text inv => ⟨upheld.suppress c text inv.1, same c _ rfl rfl rfl inv.2⟩
    makeObject := fun c inv => ⟨upheld.makeObject c inv.1, same c _ rfl rfl rfl inv.2⟩
    nextInnerName := fun c inv => ⟨upheld.nextInnerName c inv.1, same c _ rfl rfl rfl inv.2⟩
    invoke := fun c invocation inv => ⟨upheld.invoke c invocation inv.1, same c _ rfl rfl rfl inv.2⟩
    registerDependent := fun c name dependent inv =>
      ⟨upheld.registerDependent c name dependent inv.1, same c _ rfl rfl rfl inv.2⟩
    registerSingleton := fun c name bean inv =>
      ⟨upheld.registerSingleton c name bean inv.1, same c _ rfl rfl rfl inv.2⟩
    rememberMethod := fun c d method inv known =>
      ⟨upheld.rememberMethod c d method inv.1 known, same c _ rfl rfl rfl inv.2⟩
    keepResolution := fun c d r inv known chosen =>
      ⟨upheld.keepResolution c d r inv.1 known chosen, same c _ rfl rfl rfl inv.2⟩ }

theorem fetch (upheld : Upheld D I) (creates : Creator.Agree D I create create') (ctx : Context)
    (name : String) (explicit : Option (List Value)) :
    Attempt.Agree I (Attempt.fetch create ctx name explicit)
      (Attempt.fetch create' ctx name explicit) fun _ => True :=
  upheld.upholds.fetch (Creator.agree_iff.mp creates) trivial name explicit

theorem replayRecipe (upheld : Upheld D I) (hosts : Host.Agree I host host')
    (creates : Creator.Agree D I create create') (ctx : Context) (bean : String)
    (point : InjectionPoint) (recipe : Recipe)
    (known : ∀ source, recipe = .declared source → ∀ inner ∈ source.family, D inner) :
    Attempt.Agree I (Attempt.replayRecipe host create ctx bean point recipe)
      (Attempt.replayRecipe host' create' ctx bean point recipe) fun _ => True :=
  upheld.upholds.replayRecipe hosts.alike (Creator.agree_iff.mp creates) trivial bean point recipe
    fun source same inner member _ _ _ _ => known source same inner member

variable {n : Creation}

theorem factoryTarget (upheld : Upheld D I) (creates : Creator.Agree D I n.create create') :
    Attempt.Agree I n.factoryTarget (n.elsewhere host' create').factoryTarget
      fun target => n.definition.factoryBean = none → n.definition.beanClass = some target.2 :=
  upheld.upholds.factoryTarget (Creator.agree_iff.mp creates) trivial

theorem createWithin (upheld : Upheld D I) (hosts : Host.Agree I host host') (room : Nat) :
    Creator.Agree D I (createWithin host room) (createWithin host' room) :=
  Creator.agree_iff.mpr (upheld.upholds.createWithin hosts room)

theorem full_agree (upheld : Upheld D I)
    (strategy : String → Executable → Option Value → List Value → Work (Except String Value))
    (same : ∀ bean e target arguments, arguments.length = e.arity →
      strategy bean e target arguments = Work.instantiate bean e target arguments) :
    Host.Agree I { Host.full with instantiate := strategy } .full :=
  upheld.upholds.full_agree strategy same

theorem full_self (upheld : Upheld D I) : Host.Agree I .full .full :=
  upheld.upholds.full_self

end Upheld

end BeanWiring
