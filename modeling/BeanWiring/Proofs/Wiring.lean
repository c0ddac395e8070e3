import BeanWiring.Proofs.Conduct
import BeanWiring.Proofs.Graph
import BeanWiring.Proofs.Registry

/-!
Which beans a bean is wired with. Work inside creations adds edges to the bean whose creation it is
part of, one for each bean it was wired with, and to no other bean in creation; these lead from beans
that can be fetched, and what was fetched is a singleton or came of an invocation.
-/
namespace BeanWiring

namespace DeclaredValue

mutual

/-- The beans a declared value refers to, but for those that inner beans in it refer to. -/
def references : DeclaredValue → List String
  | .value _ | .inner _ => []
  | .reference name => [name]
  | .list items => referencesOfItems items

def referencesOfItems : List DeclaredValue → List String
  | [] => []
  | item :: rest => item.references ++ referencesOfItems rest

end

end DeclaredValue

def Holder.references (h : Holder DeclaredValue) : List String :=
  match h.converted with
  | some _ => []
  | none => h.value.references

def Blueprint.references (d : Definition) : List String :=
  d.arguments.holders.flatMap Holder.references

namespace Container

def Knows (c : Container) (name : String) : Prop :=
  (c.definitions.get? name).isSome = true ∨ (c.singletons.get? name).isSome = true

def Gave (c : Container) (name : String) (value : Value) : Prop :=
  ∃ invocation ∈ c.invocations, invocation.bean = name ∧ invocation.result = .ok value

/-- The value is a bean of that name: the singleton, or what an invocation for it gave. -/
def Provides (c : Container) (name : String) (value : Value) : Prop :=
  c.singletons.get? name = some value ∨ c.Gave name value

/-- What work inside the creations of the beans in `path` makes of a container, if it wires `bean` with
the beans of the given names. -/
structure Wires (c : Container) (path : List String) (bean : String) (names : List String)
    (c' : Container) : Prop where
  definitions : c'.definitions = c.definitions
  held : ∀ name value, c.singletons.get? name = some value → c'.singletons.get? name = some value
  absent : ∀ name ∈ path, c.singletons.get? name = none → c'.singletons.get? name = none
  known : ∀ name, c'.Knows name → c.Knows name
  invocations : c.invocations <+: c'.invocations
  edges : c.graph.edges ⊆ c'.graph.edges
  wired : ∀ name ∈ names, c'.graph.Leads name bean
  only : ∀ edge ∈ c'.graph.edges, edge ∈ c.graph.edges ∨ c.Knows edge.dependency ∧
    (edge.dependent ∈ path → edge.dependent = bean ∧ edge.dependency ∈ names)

namespace Wires

variable {c m c' : Container} {path : List String} {bean : String} {names names' : List String}
  {name : String} {value : Value}

theorem refl (c : Container) (path : List String) (bean : String) : c.Wires path bean [] c where
  definitions := rfl
  held _ _ found := found
  absent _ _ nothing := nothing
  known _ knows := knows
  invocations := List.prefix_rfl
  edges := List.Subset.refl _
  wired _ member := absurd member List.not_mem_nil
  only _ member := .inl member

theorem trans (first : c.Wires path bean names m) (second : m.Wires path bean names' c') :
    c.Wires path bean (names ++ names') c' where
  definitions := second.definitions.trans first.definitions
  held name value found := second.held name value (first.held name value found)
  absent name member nothing := second.absent name member (first.absent name member nothing)
  known name knows := first.known name (second.known name knows)
  invocations := first.invocations.trans second.invocations
  edges := List.Subset.trans first.edges second.edges
  wired name member := by
    rcases List.mem_append.mp member with early | late
    · exact second.edges (first.wired name early)
    · exact second.wired name late
  only edge member := by
    rcases second.only edge member with old | ⟨knows, new⟩
    · rcases first.only edge old with older | ⟨knows, new⟩
      · exact .inl older
      · refine .inr ⟨knows, fun inside => ?_⟩
        obtain ⟨same, early⟩ := new inside
        exact ⟨same, List.mem_append_left _ early⟩
    · refine .inr ⟨first.known _ knows, fun inside => ?_⟩
      obtain ⟨same, late⟩ := new inside
      exact ⟨same, List.mem_append_right _ late⟩

theorem after (first : c.Wires path bean names m) (second : m.Wires path bean [] c') :
    c.Wires path bean names c' := by
  have both := first.trans second
  rwa [List.append_nil] at both

theorem frame (sofar : c.Wires path bean names m) (definitions : c'.definitions = m.definitions)
    (singletons : c'.singletons = m.singletons) (invocations : m.invocations <+: c'.invocations)
    (graph : c'.graph = m.graph) : c.Wires path bean names c' := by
  have same : ∀ name, c'.Knows name → m.Knows name := by
    intro name knows
    unfold Knows at knows
    rwa [definitions, singletons] at knows
  exact {
    definitions := definitions.trans sofar.definitions
    held := fun name value found => singletons ▸ sofar.held name value found
    absent := fun name member nothing => singletons ▸ sofar.absent name member nothing
    known := fun name knows => sofar.known name (same name knows)
    invocations := sofar.invocations.trans invocations
    edges := graph ▸ sofar.edges
    wired := graph ▸ sofar.wired
    only := graph ▸ sofar.only }

theorem connect (sofar : c.Wires path bean names m) (knows : c.Knows name) :
    c.Wires path bean (names ++ [name])
      { m with graph := m.graph.register name bean } where
  definitions := sofar.definitions
  held := sofar.held
  absent := sofar.absent
  known := sofar.known
  invocations := sofar.invocations
  edges _ member := Graph.mem_register.mpr (.inl (sofar.edges member))
  wired other member := by
    rcases List.mem_append.mp member with early | now
    · exact Graph.mem_register.mpr (.inl (sofar.wired other early))
    · exact Graph.mem_register.mpr (.inr (List.mem_singleton.mp now ▸ rfl))
  only edge member := by
    rcases Graph.mem_register.mp member with old | rfl
    · refine (sofar.only edge old).imp_right fun ⟨knows, inside⟩ => ⟨knows, fun within => ?_⟩
      exact ⟨(inside within).1, List.mem_append_left _ (inside within).2⟩
    · exact .inr ⟨knows, fun _ => ⟨rfl, List.mem_append_right _ List.mem_cons_self⟩⟩

theorem register (sofar : c.Wires path bean names m) (apart : name ∉ path)
    (defined : (c.definitions.get? name).isSome = true) (nothing : m.singletons.get? name = none)
    (value : Value) :
    c.Wires path bean names { m with singletons := m.singletons.insert name value } where
  definitions := sofar.definitions
  held other value' found := by
    have old := sofar.held other value' found
    dsimp only
    rw [Registry.get?_insert, if_neg]
    · exact old
    · rintro rfl
      cases nothing.symm.trans old
  absent other member unset := by
    dsimp only
    rw [Registry.get?_insert, if_neg]
    · exact sofar.absent other member unset
    · rintro rfl
      exact apart member
  known other knows := by
    rcases knows with defines | holds
    · exact sofar.known other (.inl defines)
    · dsimp only at holds
      rw [Registry.get?_insert] at holds
      split at holds
      · rename_i same
        exact .inl (same ▸ defined)
      · exact sofar.known other (.inr holds)
  invocations := sofar.invocations
  edges := sofar.edges
  wired := sofar.wired
  only := sofar.only

theorem outside {inner : String} (inside : c.Wires (inner :: path) inner names c')
    (apart : inner ∉ path) : c.Wires path bean [] c' where
  definitions := inside.definitions
  held := inside.held
  absent name member := inside.absent name (List.mem_cons_of_mem _ member)
  known := inside.known
  invocations := inside.invocations
  edges := inside.edges
  wired _ member := absurd member List.not_mem_nil
  only edge member := by
    refine (inside.only edge member).imp_right fun ⟨knows, new⟩ => ⟨knows, fun within => ?_⟩
    obtain ⟨same, -⟩ := new (List.mem_cons_of_mem _ within)
    exact absurd (same ▸ within) apart

theorem outermost (wires : c.Wires path bean names c') : c.Wires [] bean names c' :=
  { wires with
    absent := fun _ member => absurd member List.not_mem_nil
    only := fun edge member => (wires.only edge member).imp_right fun ⟨knows, _⟩ =>
      ⟨knows, fun inside => absurd inside List.not_mem_nil⟩ }

theorem congr_names (wires : c.Wires path bean names c') (same : ∀ name, name ∈ names ↔ name ∈ names') :
    c.Wires path bean names' c' :=
  { wires with
    wired := fun name member => wires.wired name ((same name).mpr member)
    only := fun edge member => (wires.only edge member).imp_right fun ⟨knows, new⟩ =>
      ⟨knows, fun inside => ⟨(new inside).1, (same _).mp (new inside).2⟩⟩ }

theorem mem_dependencies_iff (wires : c.Wires path bean names c') (inside : bean ∈ path)
    (name : String) :
    name ∈ c'.graph.dependencies bean ↔ name ∈ c.graph.dependencies bean ∨ name ∈ names := by
  rw [Graph.mem_dependencies, Graph.mem_dependencies]
  constructor
  · intro leads
    exact (wires.only _ leads).imp_right fun ⟨_, new⟩ => (new inside).2
  · rintro (old | new)
    · exact wires.edges old
    · exact wires.wired name new

theorem gave (later : c.Wires path bean names c') (gave : c.Gave name value) :
    c'.Gave name value := by
  obtain ⟨invocation, member, about⟩ := gave
  exact ⟨invocation, later.invocations.subset member, about⟩

theorem provides (later : c.Wires path bean names c') (provides : c.Provides name value) :
    c'.Provides name value :=
  provides.imp (later.held name value) later.gave

end Wires

end Container

section Judgements

variable {α β ε : Type} {path : List String} {bean : String} {c : Container}

namespace Work

/-- From this state the work wires `bean` with beans of some names, so that `Q` holds of what it gives,
of the names and of the state it ends in. -/
def Wires (path : List String) (bean : String) (c : Container) (x : Work α)
    (Q : α → List String → Container → Prop) : Prop :=
  ∃ names, c.Wires path bean names (x.run c).2 ∧ Q (x.run c).1 names (x.run c).2

def Spares (path : List String) (bean : String) (c : Container) (x : Work α)
    (Q : α → Container → Prop) : Prop :=
  c.Wires path bean [] (x.run c).2 ∧ Q (x.run c).1 (x.run c).2

theorem Spares.pure {Q : α → Container → Prop} {a : α} (holds : Q a c) :
    Spares path bean c (Pure.pure a) Q :=
  ⟨.refl c path bean, holds⟩

theorem Spares.bind {x : Work α} {f : α → Work β} {P : α → Container → Prop}
    {Q : β → Container → Prop} (first : Spares path bean c x P)
    (rest : ∀ a m, c.Wires path bean [] m → P a m → Spares path bean m (f a) Q) :
    Spares path bean c (x >>= f) Q := by
  have later := rest _ _ first.1 first.2
  exact ⟨first.1.trans later.1, later.2⟩

theorem Spares.of_agree {x : Work α} {P : α → Prop} (agree : Agree (c.Wires path bean []) x x P) :
    Spares path bean c x fun a _ => P a :=
  (agree c (.refl c path bean)).2

namespace Wires

theorem of_spares {x : Work α} {Q : α → Container → Prop} (spares : Spares path bean c x Q) :
    Wires path bean c x fun a names c' => names = [] ∧ Q a c' :=
  ⟨[], spares.1, rfl, spares.2⟩

theorem pure {Q : α → List String → Container → Prop} {a : α} (holds : Q a [] c) :
    Wires path bean c (Pure.pure a) Q :=
  ⟨[], .refl c path bean, holds⟩

theorem bind {x : Work α} {f : α → Work β} {P : α → List String → Container → Prop}
    {Q : β → List String → Container → Prop} (first : Wires path bean c x P)
    (rest : ∀ a names m, c.Wires path bean names m → P a names m →
      Wires path bean m (f a) fun b more => Q b (names ++ more)) :
    Wires path bean c (x >>= f) Q := by
  obtain ⟨names, wires, holds⟩ := first
  obtain ⟨more, later, ends⟩ := rest _ names _ wires holds
  exact ⟨names ++ more, wires.trans later, ends⟩

theorem mono {x : Work α} {P Q : α → List String → Container → Prop} (wires : Wires path bean c x P)
    (weaker : ∀ a names c', c.Wires path bean names c' → P a names c' → Q a names c') :
    Wires path bean c x Q := by
  obtain ⟨names, wires, holds⟩ := wires
  exact ⟨names, wires, weaker _ names _ wires holds⟩

end Wires

end Work

namespace Attempt

def Wires (path : List String) (bean : String) (c : Container) (x : ExceptT ε Work α)
    (Q : α → List String → Container → Prop) : Prop :=
  Work.Wires path bean c x.run fun r names c' => ∀ a, r = .ok a → Q a names c'

def Spares (path : List String) (bean : String) (c : Container) (x : ExceptT ε Work α)
    (Q : α → Container → Prop) : Prop :=
  Work.Spares path bean c x.run fun r c' => ∀ a, r = .ok a → Q a c'

namespace Spares

theorem pure {Q : α → Container → Prop} {a : α} (holds : Q a c) :
    Spares path bean c (Pure.pure a : ExceptT ε Work α) Q :=
  Work.Spares.pure fun _ same => Except.ok.inj same ▸ holds

theorem throw {Q : α → Container → Prop} (e : ε) :
    Spares path bean c (throw e : ExceptT ε Work α) Q :=
  Work.Spares.pure fun _ same => nomatch same

theorem bind {x : ExceptT ε Work α} {f : α → ExceptT ε Work β} {P : α → Container → Prop}
    {Q : β → Container → Prop} (first : Spares path bean c x P)
    (rest : ∀ a m, c.Wires path bean [] m → P a m → Spares path bean m (f a) Q) :
    Spares path bean c (x >>= f) Q := by
  obtain ⟨wires, holds⟩ := first
  obtain ⟨r, m, run⟩ : ∃ r m, x.run.run c = (r, m) := ⟨_, _, rfl⟩
  rw [run] at wires holds
  unfold Spares Work.Spares
  cases r with
  | error e =>
    rw [run_bind_of_error run]
    exact ⟨wires, nofun⟩
  | ok a =>
    rw [run_bind_of_ok run]
    have later := rest a m wires (holds a rfl)
    exact ⟨wires.trans later.1, later.2⟩

theorem mono {x : ExceptT ε Work α} {P Q : α → Container → Prop} (spares : Spares path bean c x P)
    (weaker : ∀ a c', c.Wires path bean [] c' → P a c' → Q a c') : Spares path bean c x Q :=
  ⟨spares.1, fun a same => weaker a _ spares.1 (spares.2 a same)⟩

theorem result {x : ExceptT ε Work α} {Q : α → Container → Prop} (spares : Spares path bean c x Q) :
    Spares path bean c x fun a c' => Q a c' ∧ x.run.run c = (.ok a, c') :=
  ⟨spares.1, fun a same => ⟨spares.2 a same, Prod.ext same rfl⟩⟩

theorem lift {x : Work α} {Q : α → Container → Prop} (spares : Work.Spares path bean c x Q) :
    Spares path bean c (liftM x : ExceptT ε Work α) Q :=
  ⟨spares.1, fun _ same => Except.ok.inj same ▸ spares.2⟩

theorem except {x : Except ε α} :
    Spares path bean c (liftExcept x : ExceptT ε Work α) fun a c' => x = .ok a ∧ c' = c := by
  unfold Spares Work.Spares
  rw [run_liftExcept]
  exact ⟨.refl c path bean, fun _ same => ⟨same, rfl⟩⟩

theorem liftM {x : Except ε α} :
    Spares path bean c (MonadLiftT.monadLift x : ExceptT ε Work α)
      fun a c' => x = .ok a ∧ c' = c := by
  cases x with
  | error e => exact .throw e
  | ok a => exact .pure ⟨rfl, rfl⟩

theorem outermost {x : ExceptT ε Work α} {Q : α → Container → Prop}
    (spares : Spares path bean c x Q) : Spares [] bean c x Q :=
  ⟨spares.1.outermost, spares.2⟩

theorem get_bind {f : Container → Attempt β} {Q : β → Container → Prop}
    (rest : Spares path bean c (f c) Q) : Spares path bean c (get >>= f) Q := rest

end Spares

namespace Wires

theorem of_spares {x : ExceptT ε Work α} {Q : α → Container → Prop}
    (spares : Spares path bean c x Q) :
    Wires path bean c x fun a names c' => names = [] ∧ Q a c' :=
  ⟨[], spares.1, fun a same => ⟨rfl, spares.2 a same⟩⟩

theorem pure {Q : α → List String → Container → Prop} {a : α} (holds : Q a [] c) :
    Wires path bean c (Pure.pure a : ExceptT ε Work α) Q :=
  Work.Wires.pure fun _ same => Except.ok.inj same ▸ holds

theorem throw {Q : α → List String → Container → Prop} (e : ε) :
    Wires path bean c (throw e : ExceptT ε Work α) Q :=
  Work.Wires.pure fun _ same => nomatch same

theorem bind {x : ExceptT ε Work α} {f : α → ExceptT ε Work β}
    {P : α → List String → Container → Prop} {Q : β → List String → Container → Prop}
    (first : Wires path bean c x P)
    (rest : ∀ a names m, c.Wires path bean names m → P a names m →
      Wires path bean m (f a) fun b more => Q b (names ++ more)) :
    Wires path bean c (x >>= f) Q := by
  obtain ⟨names, wires, holds⟩ := first
  obtain ⟨r, m, run⟩ : ∃ r m, x.run.run c = (r, m) := ⟨_, _, rfl⟩
  rw [run] at wires holds
  unfold Wires Work.Wires
  cases r with
  | error e =>
    rw [run_bind_of_error run]
    exact ⟨names, wires, nofun⟩
  | ok a =>
    rw [run_bind_of_ok run]
    obtain ⟨more, later, ends⟩ := rest a names m wires (holds a rfl)
    exact ⟨names ++ more, wires.trans later, ends⟩

theorem bind_spares {x : ExceptT ε Work α} {f : α → ExceptT ε Work β} {P : α → Container → Prop}
    {Q : β → List String → Container → Prop} (first : Spares path bean c x P)
    (rest : ∀ a m, c.Wires path bean [] m → P a m → Wires path bean m (f a) Q) :
    Wires path bean c (x >>= f) Q := by
  refine .bind (of_spares first) ?_
  rintro a _ m wires ⟨rfl, holds⟩
  exact rest a m wires holds

theorem mono {x : ExceptT ε Work α} {P Q : α → List String → Container → Prop}
    (wires : Wires path bean c x P)
    (weaker : ∀ a names c', c.Wires path bean names c' → P a names c' → Q a names c') :
    Wires path bean c x Q :=
  Work.Wires.mono wires fun _ names c' wires holds a same =>
    weaker a names c' wires (holds a same)

theorem result {x : ExceptT ε Work α} {Q : α → List String → Container → Prop}
    (wires : Wires path bean c x Q) :
    Wires path bean c x fun a names c' => Q a names c' ∧ x.run.run c = (.ok a, c') := by
  obtain ⟨names, wires, holds⟩ := wires
  exact ⟨names, wires, fun a same => ⟨holds a same, Prod.ext same rfl⟩⟩

theorem lift {x : Work α} {Q : α → List String → Container → Prop}
    (wires : Work.Wires path bean c x Q) : Wires path bean c (liftM x : ExceptT ε Work α) Q := by
  obtain ⟨names, wires, holds⟩ := wires
  exact ⟨names, wires, fun a same => Except.ok.inj same ▸ holds⟩

theorem get_bind {f : Container → Attempt β} {Q : β → List String → Container → Prop}
    (rest : Wires path bean c (f c) Q) : Wires path bean c (get >>= f) Q := rest

end Wires

end Attempt

end Judgements

/-- Each bean is created by work inside the creations around it that wires none of them, and registers
it nowhere; a creation that succeeds is of a bean not yet in creation, and an invocation gave it. -/
def Creator.Wires (create : Creator) : Prop :=
  ∀ ctx name d explicit c bean, Attempt.Spares ctx.path bean c (create ctx name d explicit)
    fun value c' => name ∉ ctx.path ∧ c'.Gave name value ∧
      (c.singletons.get? name = none → c'.singletons.get? name = none)

end BeanWiring
