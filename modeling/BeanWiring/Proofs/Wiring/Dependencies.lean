import BeanWiring.Proofs.Lawful
import BeanWiring.Proofs.Wiring.Creation

/-!
The dependencies of a bean after its creation. Each is accounted for: it is the factory bean, declared,
or supplies a candidate that could be bound. None that the call uses is missing after a search; following
what is kept adds the factory bean and what the recipes refer to, and no more.
-/
namespace BeanWiring

theorem Resolution.KeptFor.references_subset {r : Resolution} {d : Definition} (kept : r.KeptFor d) :
    r.references ⊆ d.references := by
  obtain ⟨values, s, b, keeps⟩ := kept
  intro name member
  unfold references at member
  split at member
  · cases member
  · rename_i recipes prepared
    obtain ⟨recipe, among, refers⟩ := List.mem_flatMap.mp member
    cases recipe with
    | value | autowired => cases refers
    | declared source =>
      obtain ⟨h, held, unconverted, rfl⟩ :=
        keeps.exists_unconverted prepared (List.mem_of_mem_take among)
      refine List.mem_flatMap.mpr ⟨h, held, ?_⟩
      unfold Holder.references
      rw [unconverted]
      exact refers

variable {known : List Definition} {c : Container} {n : Creation} {room : Nat}

theorem Container.Lawful.looksIn (lawful : c.Lawful known) (within : n.create = createWithin .full room)
    {m : Container} (looks : n.LooksIn c m) : m.Lawful known := by
  rcases looks with rfl | ⟨target, run⟩
  · exact lawful
  · have upholds := lawful.upholds
    have creates := within.symm ▸ upholds.createWithin upholds.full_self room
    have targets : Attempt.Agree _ n.factoryTarget (n.elsewhere n.host n.create).factoryTarget _ :=
      upholds.factoryTarget creates trivial
    exact (targets.kept ⟨lawful, trivial⟩ run).1

namespace Creation

/-- A bean that had no dependencies before its creation depends on its factory bean, on the beans its
declared values refer to and on those that supply a candidate all of whose parameters were bound in a
trial of its search, whether it is the one that was called or not, and on no other bean. -/
def Accounts (n : Creation) (c : Container) : Prop :=
  c.graph.dependencies n.bean = [] → ∀ value c', n.perform.run.run c = (.ok value, c') →
    ∀ name ∈ c'.graph.dependencies n.bean, name ∈ n.factoryBeans ∨ name ∈ n.definition.references ∨
      ∃ e b used, n.Supplied c e b used c' ∧ name ∈ used

/-- After its creation a bean depends on what it depended on before and on its factory bean. If the
creation searched, it depends on the beans its declared values refer to, and on all that supply the
arguments of the call. If it followed what was kept, it depends on what the recipes refer to, and on no
other bean: one that only supplies an argument is wired anew for a search and not for a replay. -/
def Registers (n : Creation) (c : Container) : Prop :=
  ∀ call m value c', n.call.run.run c = (.ok call, m) →
    (n.instantiate call).run.run m = (.ok value, c') →
    (∀ name, name ∈ c.graph.dependencies n.bean ∨ name ∈ n.factoryBeans →
      name ∈ c'.graph.dependencies n.bean) ∧
    (n.explicit = none → ∃ m₁, n.LooksIn c m₁ ∧
      ((m₁.resolution? n.definition = none ∧
        (∀ name ∈ n.definition.references, name ∈ c'.graph.dependencies n.bean) ∧
        ∃ b used, call.arguments = b.arguments ∧ n.Supplied c call.executable b used c' ∧
          ∀ name ∈ used, name ∈ c'.graph.dependencies n.bean) ∨
      ∃ r, m₁.resolution? n.definition = some r ∧ call.executable = r.executable ∧
        ∀ name, name ∈ c'.graph.dependencies n.bean ↔
          name ∈ c.graph.dependencies n.bean ∨ name ∈ n.factoryBeans ∨ name ∈ r.references))

theorem wired_of_ok (full : n.host = .full) (within : n.create = createWithin .full room) {call : Call}
    {m c' : Container} {value : Value} (decided : n.call.run.run c = (.ok call, m))
    (made : (n.instantiate call).run.run m = (.ok value, c')) :
    ∃ names, c.Wires n.context.path n.bean names c' ∧ n.Wired c call m names ∧
      m.Wires n.context.path n.bean [] c' := by
  have creates : n.create.Wires := within ▸ createWithin_wires room
  obtain ⟨names, wires, wired⟩ := call_wires (c := c) full creates
  have invokes := (instantiate_spares (c := m) full call).1
  rw [decided] at wires wired
  rw [made] at invokes
  exact ⟨names, wires.after invokes, wired call rfl, invokes⟩

theorem accounts (full : n.host = .full) (within : n.create = createWithin .full room)
    (inside : n.bean ∈ n.context.path) (member : n.definition ∈ known) (lawful : c.Lawful known) :
    n.Accounts c := by
  intro untouched value c' performed name depends
  obtain ⟨call, m, decided, made⟩ := Attempt.run_bind_eq_ok.mp performed
  obtain ⟨names, wires, wired, invokes⟩ := wired_of_ok full within decided made
  have gained : name ∈ names := by
    rcases (wires.mem_dependencies_iff inside name).mp depends with old | new
    · rw [untouched] at old
      cases old
    · exact new
  cases wired with
  | given => exact .inl gained
  | replayed ungiven looks kept same =>
    refine (List.mem_append.mp gained).imp_right fun refers => .inl ?_
    exact ((lawful.looksIn within looks).keptFor member kept).references_subset refers
  | searched ungiven looks nothing matched =>
    refine (List.mem_append.mp gained).imp_right fun found => (matched.only name found).imp_right ?_
    rintro ⟨e, b, used, supplied, uses⟩
    exact ⟨e, b, used, invokes.keepsSupplied supplied, uses⟩

theorem registers (full : n.host = .full) (within : n.create = createWithin .full room)
    (inside : n.bean ∈ n.context.path) : n.Registers c := by
  intro call m value c' decided made
  obtain ⟨names, wires, wired, invokes⟩ := wired_of_ok full within decided made
  have depends := wires.mem_dependencies_iff inside
  cases wired with
  | given given =>
    refine ⟨fun name => (depends name).mpr, fun ungiven => ?_⟩
    rw [ungiven] at given
    cases given
  | replayed ungiven looks kept same =>
    refine ⟨fun name found => (depends name).mpr (found.imp_right (List.mem_append_left _)), ?_⟩
    refine fun _ => ⟨_, looks, .inr ⟨_, kept, same, fun name => ?_⟩⟩
    rw [depends, List.mem_append]
  | searched ungiven looks nothing matched =>
    refine ⟨fun name found => (depends name).mpr (found.imp_right (List.mem_append_left _)), ?_⟩
    have gained : ∀ {name}, name ∈ _ → name ∈ c'.graph.dependencies n.bean := fun found =>
      (depends _).mpr (.inr (List.mem_append_right _ found))
    obtain ⟨b, used, same, supplied, uses⟩ := matched.chosen
    refine fun _ => ⟨_, looks, .inl ⟨nothing, fun name refers => ?_, b, used, same, ?_, ?_⟩⟩
    · exact gained (matched.references name refers)
    · exact invokes.keepsSupplied supplied
    · exact fun name used => gained (uses name used)

end Creation

namespace Container

theorem Reachable.dependencies_accounted (reachable : Reachable known c) (requests : List Request) :
    Request.EachCreation Creation.Accounts requests c := by
  refine Request.eachCreation_of_lawful reachable.lawful ?_ requests
  intro known room n m full within inside member lawful
  exact Creation.accounts full within inside member lawful

theorem Reachable.dependencies_registered (reachable : Reachable known c) (requests : List Request) :
    Request.EachCreation Creation.Registers requests c := by
  refine Request.eachCreation_of_lawful reachable.lawful ?_ requests
  intro known room n m full within inside _ _
  exact Creation.registers full within inside

end Container

/-! A drill that is made with a gear, or with a knob. -/
namespace Drill

def constructor (part : String) : Executable where
  declaring := .plainClass "Drill"
  kind := .constructor
  isPublic := true
  parameters := [⟨.plainClass part, none⟩]
  effect := .makes (.plainClass "Drill")
  label := none

def definition (parts : List String) : Definition :=
  { Definition.initial .initial with
    serial := 1
    beanClass := some ⟨.plainClass "Drill", parts.map constructor, []⟩
    autowire := true
    scope := .prototype }

def part (type name : String) : Value := .object (.plainClass type) (.named name)

def told : Value → Option String
  | .object _ (.named name) => some name
  | _ => none

def calls (c : Container) : List (String × List (Option String)) :=
  c.invocations.map fun i => (i.bean, i.arguments.map told)

def fresh : Container := .new .initial

def give (name : String) (bean : Value) (c : Container) : Container :=
  ((Request.registerSingleton name bean).perform.run c).2

def define (parts : List String) (c : Container) : Container :=
  ((Request.define "drill" (definition parts)).perform.run c).2

def make (c : Container) : Container := ((Request.bean "drill" none).perform.run c).2

def geared : Container := give "gear" (part "Gear" "gear") fresh

def stocked : Container := define ["Gear", "Knob"] (give "knob" (part "Knob" "knob") geared)

theorem geared_reachable : Container.Reachable [] geared :=
  .step (.registerSingleton "gear" (part "Gear" "gear"))
    Container.Reachable.initially

theorem stocked_reachable : ∃ known, Container.Reachable known stocked :=
  ⟨_, (geared_reachable.step (.registerSingleton "knob" (part "Knob" "knob"))).step
    (.define "drill" (definition ["Gear", "Knob"]))⟩

/-- The drill is made with the gear, and depends on the knob too. -/
theorem knob_is_dependency :
    stocked.invocations = [] ∧ stocked.graph.dependencies "drill" = [] ∧
    stocked.definitions.get? "drill" = some (definition ["Gear", "Knob"]) ∧
    (definition ["Gear", "Knob"]).factoryBean = none ∧
    (definition ["Gear", "Knob"]).references = [] ∧
    calls (make stocked) = [("drill", [some "gear"])] ∧
    ((make stocked).singletons.get? "knob").map told = some (some "knob") ∧
    "knob" ∈ (make stocked).graph.dependencies "drill" := by
  refine ⟨rfl, rfl, rfl, rfl, rfl, ?_, ?_, ?_⟩
  all_goals decide +kernel

theorem dependencies_accounted_of_drill :
    Request.EachCreation Creation.Accounts [.bean "drill" none] stocked ∧
    stocked.graph.dependencies "drill" = [] ∧
    (make stocked).graph.dependencies "drill" = ["gear", "knob"] := by
  obtain ⟨known, reachable⟩ := stocked_reachable
  exact ⟨reachable.dependencies_accounted [.bean "drill" none], rfl, by decide +kernel⟩

/-- A drill was made with the only gear, and then another took the place of that gear. -/
def restocked : Container :=
  give "spare" (part "Gear" "spare") (give "gear" (part "Knob" "knob") (make (define ["Gear"] geared)))

theorem restocked_reachable : ∃ known, Container.Reachable known restocked := by
  have made := (geared_reachable.step (.define "drill" (definition ["Gear"]))).step (.bean "drill" none)
  exact ⟨_, (made.step (.registerSingleton "gear" (part "Knob" "knob"))).step
    (.registerSingleton "spare" (part "Gear" "spare"))⟩

/-- The second drill is made with the spare gear as the first one was, and does not depend on it. -/
theorem dependencies_registered_of_restocked :
    Request.EachCreation Creation.Registers [.bean "drill" none] restocked ∧
    calls (make restocked) = [("drill", [some "gear"]), ("drill", [some "spare"])] ∧
    (make restocked).graph.dependencies "drill" = ["gear"] := by
  obtain ⟨known, reachable⟩ := restocked_reachable
  refine ⟨reachable.dependencies_registered [.bean "drill" none], ?_, ?_⟩
  all_goals decide +kernel

end Drill

end BeanWiring
