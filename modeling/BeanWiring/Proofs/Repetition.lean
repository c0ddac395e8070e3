import BeanWiring.Proofs.Reachable
import BeanWiring.Proofs.Settled.Call

/-!
Creating a bean again, where every other bean is there. All creations after a first one that
succeeded make the same call with the same arguments, whether they replay what was kept of it or
search again.
-/
namespace BeanWiring

namespace Container

def Invokes (c c' : Container) (bean : String) (call : Call) : Prop :=
  ∃ result, c'.invocations =
    c.invocations ++ [⟨bean, call.executable, call.target, call.arguments, result⟩]

structure Called (c c' : Container) (bean : String) (call : Call) : Prop where
  alike : c'.Alike c
  resolutions : c'.resolutions = c.resolutions
  factoryMethods : c'.factoryMethods = c.factoryMethods
  invokes : c.Invokes c' bean call

end Container

theorem Work.perform_ok {e : Executable} {arguments : List Value} {v : Value} {c c' : Container}
    (run : (Work.perform e arguments).run c = (.ok v, c')) (m : Container) :
    ∃ w m', (Work.perform e arguments).run m = (.ok w, m') ∧ w.isNull = v.isNull ∧
      ∃ made, m' = { m with objectsMade := made } := by
  unfold Work.perform at run ⊢
  cases effect : e.effect with
  | fails text =>
    rw [effect] at run
    cases run
  | gives value =>
    rw [effect] at run
    cases run
    exact ⟨v, m, rfl, rfl, m.objectsMade, rfl⟩
  | givesArgument position =>
    rw [effect] at run
    cases given : arguments[position]? with
    | none =>
      simp only [given] at run
      cases run
    | some value =>
      simp only [given] at run ⊢
      cases run
      exact ⟨v, m, rfl, rfl, m.objectsMade, rfl⟩
  | makes type =>
    rw [effect] at run
    cases run
    exact ⟨_, _, rfl, rfl, _, rfl⟩

theorem Work.run_invoke {bean : String} {e : Executable} {target : Option Value}
    {arguments : List Value} {r : Except String Value} {c m : Container}
    (performed : (Work.perform e arguments).run c = (r, m)) :
    (Work.invoke bean e target arguments).run c = (r, { m with
      invocations := m.invocations ++ [⟨bean, e, target, arguments, r⟩] }) := by
  unfold Work.invoke
  rw [run_bind, performed]
  rfl

theorem Work.instantiate_ok {bean : String} {call : Call} {v : Value} {c c' : Container}
    (run : (Work.instantiate bean call.executable call.target call.arguments).run c = (.ok v, c'))
    (m : Container) : ∃ w m',
      (Work.instantiate bean call.executable call.target call.arguments).run m = (.ok w, m') ∧
        m.Called m' bean call := by
  unfold Work.instantiate at run ⊢
  split at run
  · cases run
  · split at run
    · cases run
    · rename_i complete bound
      rw [if_neg complete, if_neg bound]
      obtain ⟨r, m₁, performed⟩ : ∃ r m₁,
        (Work.perform call.executable call.arguments).run c = (r, m₁) := ⟨_, _, rfl⟩
      rw [run_bind, run_invoke performed] at run
      cases r with
      | error text => cases run
      | ok value =>
        obtain ⟨w, m', performed', null, made, rfl⟩ := perform_ok performed m
        rw [run_bind, run_invoke performed']
        dsimp only at run ⊢
        rw [null]
        split at run
        · cases run
        · rename_i present
          rw [if_neg present]
          exact ⟨w, _, rfl, ⟨rfl, rfl, rfl, rfl⟩, rfl, rfl, .ok w, rfl⟩

namespace Creation

variable {n : Creation} {call : Call} {v : Value} {c c' : Container}

theorem instantiate_ok_iff (full : n.host = .full) :
    (n.instantiate call).run.run c = (.ok v, c') ↔
      (Work.instantiate n.bean call.executable call.target call.arguments).run c = (.ok v, c') := by
  obtain ⟨r, m, made⟩ : ∃ r m, (Work.instantiate n.bean call.executable call.target
    call.arguments).run c = (r, m) := ⟨_, _, rfl⟩
  unfold Creation.instantiate
  rw [full, show Host.full.instantiate = Work.instantiate from rfl, Attempt.run_bind_lift, made]
  cases r with
  | error text => exact ⟨nofun, nofun⟩
  | ok w =>
    constructor
    · intro run
      obtain ⟨rfl, rfl⟩ := Attempt.run_pure_eq_ok.mp run
      rfl
    · intro run
      cases run
      rfl

end Creation

theorem createWithin_ok_iff {room : Nat} {ctx : Context} {bean : String} {d : Definition} {v : Value}
    {c c' : Container} :
    (createWithin .full (room + 1) ctx bean d none).run.run c = (.ok v, c') ↔
      ∃ inside call m, ctx.begin bean = .ok inside ∧
        (Creation.mk .full (createWithin .full room) inside bean d none).call.run.run
          { c with events := c.events ++ [.creating bean] } = (.ok call, m) ∧
        (Work.instantiate bean call.executable call.target call.arguments).run m = (.ok v, c') := by
  cases begins : ctx.begin bean with
  | error e =>
    rw [createWithin_refused begins]
    constructor
    · intro run
      cases run
    · rintro ⟨inside, call, m, same, -⟩
      cases same
  | ok inside =>
    rw [createWithin_begun begins]
    unfold Creation.perform
    rw [Attempt.run_bind_eq_ok]
    constructor
    · rintro ⟨call, m, decided, made⟩
      rw [Creation.instantiate_ok_iff rfl] at made
      exact ⟨inside, call, m, rfl, decided, made⟩
    · rintro ⟨inside', call, m, same, decided, made⟩
      cases same
      refine ⟨call, m, decided, ?_⟩
      rw [Creation.instantiate_ok_iff rfl]
      exact made

namespace Container

variable {c c₁ c₂ m : Container} {bean : String} {d : Definition} {r : Resolution} {call : Call}

theorem Quiet.mayUse (quiet : c.Quiet m) {e : Executable} (may : m.MayUse d e) : c.MayUse d e := by
  obtain ⟨events, graph, rfl⟩ := quiet
  cases may with
  | constructor own owner member => exact .constructor own owner member
  | method owned member named => exact .method owned member named
  | remembered unique found => exact .remembered unique found
  | kept found => exact .kept found

def Creates (c c' : Container) (bean : String) (d : Definition) (r : Resolution) (call : Call) :
    Prop :=
  ∃ m, c.Decided m d r ∧ m.Called c' bean call

namespace Creates

theorem alike (creates : c.Creates c₁ bean d r call) : c₁.Alike c := by
  obtain ⟨m, decided, called⟩ := creates
  exact called.alike.trans decided.alike

theorem resolution (creates : c.Creates c₁ bean d r call) : c₁.resolution? d = some r := by
  obtain ⟨m, decided, called⟩ := creates
  rw [resolution?, called.resolutions]
  exact decided.resolution

theorem method (creates : c.Creates c₁ bean d r call) : c₁.factoryMethod? d =
    if d.factoryMethod.isSome && (c.resolution? d).isNone then some r.executable
    else c.factoryMethod? d := by
  obtain ⟨m, decided, called⟩ := creates
  rw [factoryMethod?, called.factoryMethods]
  exact decided.method

theorem invokes (creates : c.Creates c₁ bean d r call) : c.Invokes c₁ bean call := by
  obtain ⟨m, decided, called⟩ := creates
  obtain ⟨result, made⟩ := called.invokes
  exact ⟨result, by rw [made, decided.invocations]⟩

end Creates

def Recreates (c : Container) (bean : String) (d : Definition) (r : Resolution) (call : Call) :
    Prop :=
  ∀ room ctx inside, ctx.begin bean = .ok inside → ∃ v c',
    (createWithin .full (room + 1) ctx bean d none).run.run c = (.ok v, c') ∧
      c.Creates c' bean d r call

/-- What a creation of the one bean that need not be there comes to, a later one comes to in a
container alike: one that keeps the same for the definition, or nothing if nothing was kept before
the first creation either. -/
theorem creates_again {room : Nat} {ctx : Context} {v : Value} (settled : c.Settled bean)
    (plain : d.IsPlain) (ordinary : ∀ e, c.MayUse d e → e.TakesNoPoint)
    (owned : ∀ r, c.resolution? d = some r → r.KeptFor d)
    (created : (createWithin .full room ctx bean d none).run.run c = (.ok v, c₁)) :
    ∃ r call, c.Creates c₁ bean d r call ∧ ∀ c₂ : Container, c₂.Alike c → c₂.Prompts c c₁ d r →
      c₂.Recreates bean d r call := by
  cases room with
  | zero => cases created
  | succ room =>
    obtain ⟨inside, call, m, begins, decides, made⟩ := createWithin_ok_iff.mp created
    have noted (c : Container) : c.Quiet { c with events := c.events ++ [.creating bean] } :=
      ⟨_, c.graph, rfl⟩
    have lone : (Creation.mk .full (createWithin .full room) inside bean d none).IsLone
        { c with events := c.events ++ [.creating bean] } :=
      ⟨rfl, rfl, settled, createWithin_blocks (Context.begin_path begins) _ _, plain⟩
    obtain ⟨r, -, decided, again⟩ := Creation.call_repeats lone
      (fun e may => ordinary e ((noted c).mayUse may)) owned decides
    -- What the call comes to does not hang on the container it is made in.
    have complete (m' : Container) := Work.instantiate_ok made m'
    have called : m.Called c₁ bean call := by
      obtain ⟨w, m', again, called⟩ := complete m
      cases made.symm.trans again
      exact called
    refine ⟨r, call, ⟨m, (noted c).then_decided decided, called⟩, ?_⟩
    intro c₂ alike prompts room ctx inside' begins'
    have method : c₁.factoryMethod? d = m.factoryMethod? d := by
      rw [factoryMethod?, called.factoryMethods]
      rfl
    obtain ⟨m₂, decides', decided'⟩ := again (createWithin .full room) inside'
      { c₂ with events := c₂.events ++ [.creating bean] }
      ⟨alike.definitions, alike.singletons, alike.classes, alike.properties⟩
      (prompts.imp_right fun ⟨nothing, nothing', remembered⟩ =>
        ⟨nothing, nothing', fun unique => (remembered unique).trans method⟩)
    obtain ⟨w, c₃, made', called'⟩ := complete m₂
    exact ⟨w, c₃, createWithin_ok_iff.mpr ⟨inside', call, m₂, begins', decides', made'⟩, m₂,
      (noted c₂).then_decided decided', called'⟩

/-- What may happen after a creation: more creations of the bean, wherever they are requested, that
what is kept is cleared, and all that changes neither definitions, singletons, classes and properties
nor what was found out about the definition. -/
inductive Later (bean : String) (d : Definition) (c : Container) : Container → Prop
  | now : Later bean d c c
  | create {m : Container} (room : Nat) (ctx : Context) : Later bean d c m →
      Later bean d c ((createWithin .full room ctx bean d none).run.run m).2
  | clear {m : Container} : Later bean d c m → Later bean d c ((Work.clearResolution d).run m).2
  | other {m m' : Container} : Later bean d c m → m'.Alike m → m'.resolution? d = m.resolution? d →
      (d.unique = true → m'.factoryMethod? d = m.factoryMethod? d) → Later bean d c m'

theorem Later.kept (searched : c.resolution? d = none) (first : c.Creates c₁ bean d r call)
    (again : ∀ m : Container, m.Alike c → m.Prompts c c₁ d r → m.Recreates bean d r call)
    (later : c₁.Later bean d c₂) :
    c₂.Alike c ∧ (c₂.resolution? d = some r ∨ c₂.resolution? d = none) ∧
      (d.unique = true → c₂.factoryMethod? d = c₁.factoryMethod? d) := by
  induction later with
  | now => exact ⟨first.alike, .inl first.resolution, fun _ => rfl⟩
  | create room ctx _ ih =>
    rename_i m _
    obtain ⟨alike, entry, method⟩ := ih
    cases room with
    | zero => exact ⟨alike, entry, method⟩
    | succ room =>
      cases begins : ctx.begin bean with
      | error e =>
        rw [createWithin_refused begins]
        exact ⟨alike, entry, method⟩
      | ok inside =>
        -- What is kept at this time is the first decision, or nothing: either leads to the same
        -- call.
        have prompts : m.Prompts c c₁ d r :=
          entry.imp_right fun nothing => ⟨searched, nothing, method⟩
        obtain ⟨w, m', run, creates⟩ := again m alike prompts room ctx inside begins
        rw [run]
        refine ⟨creates.alike.trans alike, .inl creates.resolution, fun unique => ?_⟩
        rw [creates.method]
        split
        · rename_i named
          rw [first.method, searched, (Bool.and_eq_true_iff.mp named).1]
          rfl
        · exact method unique
  | clear _ ih =>
    obtain ⟨alike, -, method⟩ := ih
    refine ⟨⟨alike.definitions, alike.singletons, alike.classes, alike.properties⟩, .inr ?_, method⟩
    change (Registry.erase _ d.serial).get? d.serial = none
    rw [Registry.get?_erase, if_pos rfl]
  | other _ same entry method ih =>
    obtain ⟨alike, entry', method'⟩ := ih
    exact ⟨same.trans alike, entry ▸ entry', fun unique => (method unique).trans (method' unique)⟩

/-- Where every other bean is there, all creations after a first one that searched make the same
call with the same arguments, and those after one that replayed as long as the same is kept. -/
theorem Reachable.creation_repeats {known : List Definition} (reachable : Reachable known c)
    (registered : c.definitions.get? bean = some d) (settled : c.Settled bean) (plain : d.IsPlain)
    (ordinary : ∀ e, c.MayUse d e → e.TakesNoPoint) {room : Nat} {ctx : Context} {v : Value}
    (created : (createWithin .full room ctx bean d none).run.run c = (.ok v, c₁)) :
    ∃ call, c.Invokes c₁ bean call ∧ ∀ c₂,
      (c.resolution? d = none ∧ c₁.Later bean d c₂ ∨
        c₂.Alike c₁ ∧ c₂.resolution? d = c₁.resolution? d) →
      ∀ room ctx inside, ctx.begin bean = .ok inside → ∃ w c₃,
        (createWithin .full (room + 1) ctx bean d none).run.run c₂ = (.ok w, c₃) ∧
          c₂.Invokes c₃ bean call := by
  have member := reachable.sound.registered bean d registered
  obtain ⟨r, call, first, again⟩ := creates_again settled plain ordinary
    (fun r kept => reachable.sound.keptFor member kept) created
  refine ⟨call, first.invokes, fun c₂ holds room ctx inside begins => ?_⟩
  have prompted : c₂.Alike c ∧ c₂.Prompts c c₁ d r := by
    rcases holds with ⟨searched, later⟩ | ⟨alike, entry⟩
    · obtain ⟨alike, entry, method⟩ := later.kept searched first again
      exact ⟨alike, entry.imp_right fun nothing => ⟨searched, nothing, method⟩⟩
    · exact ⟨alike.trans first.alike, .inl (entry.trans first.resolution)⟩
  obtain ⟨w, c₃, run, creates⟩ := again c₂ prompted.1 prompted.2 room ctx inside begins
  exact ⟨w, c₃, run, creates.invokes⟩

end Container

/-! A lamp that can be made with a bulb or without one. -/
namespace Lamp

def bare : Executable where
  declaring := .plainClass "Lamp"
  kind := .constructor
  isPublic := true
  parameters := []
  effect := .makes (.plainClass "Lamp")
  label := some "bare"

def wired : Executable :=
  { bare with parameters := [⟨.plainClass "Bulb", none⟩], label := some "wired" }

def shown : Executable :=
  { bare with kind := .method "make" true (.plainClass "Lamp"), label := some "shown" }

def hidden : Executable := { shown with isPublic := false, label := some "hidden" }

def constructed : Definition :=
  { Definition.initial .initial with
    serial := 1
    beanClass := some ⟨.plainClass "Lamp", [bare, wired], []⟩
    autowire := true
    scope := .prototype }

def manufactured : Definition :=
  { Definition.initial .initial with
    serial := 1
    beanClass := some ⟨.plainClass "Lamp", [], [hidden, shown]⟩
    factoryMethod := some "make"
    unique := true
    scope := .prototype }

def bulb : Value := .object (.plainClass "Bulb") (.named "bulb")

def outset : Context := .new 100

def defined : Container := ((Request.define "lamp" constructed).perform.run (.new .initial)).2

def stocked : Container := ((Request.registerSingleton "bulb" bulb).perform.run defined).2

def lit (c : Container) (d : Definition) : Container :=
  ((createWithin .full 100 outset "lamp" d none).run.run c).2

def told (c : Container) : List (Option String × List Value) :=
  c.invocations.map fun i => (i.executable.label, i.arguments)

theorem created : ((createWithin .full 100 outset "lamp" constructed none).run.run stocked).1 =
    .ok (.object (.plainClass "Lamp") (.made 1)) := rfl

theorem told_lit : told (lit stocked constructed) = [(some "wired", [bulb])] := rfl

theorem settled : stocked.Settled "lamp" := by
  intro name d found other
  have defined : stocked.definitions = ⟨[("lamp", constructed)]⟩ := rfl
  rw [defined] at found
  simp [Registry.get?, Registry.lookup, other.symm] at found

theorem takesNoPoint {e : Executable} (may : stocked.MayUse constructed e) : e.TakesNoPoint := by
  cases may with
  | constructor own owner member =>
    cases owner
    rcases List.mem_pair.mp member with rfl | rfl
    · nofun
    · intro p among
      cases List.mem_singleton.mp among
      rfl
  | method owned member named =>
    cases owned
    cases member
  | remembered unique found => cases unique
  | kept found => cases found

theorem creation_repeats_of_stocked : ∃ w c₃,
    (createWithin .full 100 outset "lamp" constructed none).run.run
      ((Work.clearResolution constructed).run (lit stocked constructed)).2 = (.ok w, c₃) ∧
    told c₃ = [(some "wired", [bulb]), (some "wired", [bulb])] := by
  have fresh := Container.Reachable.initially
  have defined : Container.Reachable _ defined := fresh.step (.define "lamp" constructed)
  have reachable : Container.Reachable _ stocked := defined.step (.registerSingleton "bulb" bulb)
  obtain ⟨call, ⟨result, first⟩, again⟩ := reachable.creation_repeats
    (show stocked.definitions.get? "lamp" = some constructed from rfl) settled nofun
    (fun e => takesNoPoint) (show _ = (_, lit stocked constructed) from Prod.ext created rfl)
  obtain ⟨w, c₃, run, result', later⟩ := again _ (.inl ⟨rfl, .clear .now⟩) 99 outset _ rfl
  have once : [(call.executable.label, call.arguments)] = [(some "wired", [bulb])] := by
    rw [← told_lit, told, first]
    rfl
  refine ⟨w, c₃, run, ?_⟩
  have kept : ((Work.clearResolution constructed).run (lit stocked constructed)).2.invocations =
      (lit stocked constructed).invocations := rfl
  calc told c₃
    _ = told (lit stocked constructed) ++ [(call.executable.label, call.arguments)] := by
      rw [told, later, kept, List.map_append]
      rfl
    _ = [(some "wired", [bulb]), (some "wired", [bulb])] := by
      rw [told_lit, once]
      rfl

/-- The container where the lamp was made before there was a bulb. -/
def aged : Container :=
  ((Request.registerSingleton "bulb" bulb).perform.run (lit defined constructed)).2

def cleared (d : Definition) (c : Container) : Container := ((Work.clearResolution d).run c).2

def factory : Container := ((Request.define "lamp" manufactured).perform.run (.new .initial)).2

def introspected (c : Container) : Container := ((Work.introspect manufactured).run c).2

/-- Neither restriction can go. A creation that replays what was kept before the bulb was there is
not repeated by a search, and where the one factory method is looked for by itself between two
searches, the second finds another. -/
theorem creation_changes :
    (told (lit aged constructed) = [(some "bare", []), (some "bare", [])] ∧
      (cleared constructed (lit aged constructed)).Alike (lit aged constructed) ∧
      told (lit (cleared constructed (lit aged constructed)) constructed) =
        [(some "bare", []), (some "bare", []), (some "wired", [bulb])]) ∧
    told (lit factory manufactured) = [(some "shown", [])] ∧
      (cleared manufactured (introspected (lit factory manufactured))).Alike
        (lit factory manufactured) ∧
      told (lit (cleared manufactured (introspected (lit factory manufactured))) manufactured) =
        [(some "shown", []), (some "hidden", [])] := by
  exact ⟨⟨rfl, ⟨rfl, rfl, rfl, rfl⟩, rfl⟩, rfl, ⟨rfl, rfl, rfl, rfl⟩, rfl⟩

end Lamp

end BeanWiring
