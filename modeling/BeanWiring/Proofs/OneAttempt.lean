import BeanWiring.Proofs.Reentry

/-!
One attempt. A creation decides on a call with all its arguments before anything is invoked for it,
and stands or falls with that call. Until then nothing is kept for its definition.
-/
namespace BeanWiring

namespace Creation

def handing (n : Creation)
    (strategy : Executable → Option Value → List Value → Work (Except String Value)) : Creation :=
  { n with host := { n.host with instantiate := fun _ => strategy } }

def report (n : Creation) (call : Call) : Except String Value → Except BeanError Value
  | .ok value => .ok value
  | .error text =>
    .error (.instantiation n.bean
      ("Bean instantiation via " ++ call.executable.noun ++ " failed: " ++
        call.executable.signature) (.plain text))

/-- However the call is made, the creation fails before it or makes exactly one, with all arguments,
and ends as the call does. If it fails before, what is kept for its definition is what was kept, as
long as the definition is registered under the one name and inside no other. -/
def AttemptsOnce (n : Creation) (c : Container) : Prop :=
  ∃ decision m, n.call.run.run c = (decision, m) ∧
    (∀ call, decision = .ok call → call.IsComplete) ∧
    (∀ e, decision = .error e →
      (∀ name, c.definitions.get? name = some n.definition ↔ name = n.bean) →
      n.definition.Outermost c.built →
      m.resolution? n.definition = c.resolution? n.definition) ∧
    ∀ strategy, (n.handing strategy).perform.run.run c =
      match decision with
      | .error e => (.error e, m)
      | .ok call =>
        let outcome := (strategy call.executable call.target call.arguments).run m
        (n.report call outcome.1, outcome.2)

theorem run_instantiate (n : Creation) (call : Call) (c : Container) :
    (n.instantiate call).run.run c =
      (n.report call
        ((n.host.instantiate n.bean call.executable call.target call.arguments).run c).1,
      ((n.host.instantiate n.bean call.executable call.target call.arguments).run c).2) := by
  obtain ⟨r, m, made⟩ : ∃ r m, (n.host.instantiate n.bean call.executable call.target
    call.arguments).run c = (r, m) := ⟨_, _, rfl⟩
  unfold instantiate
  rw [Attempt.run_bind_lift, made]
  cases r <;> rfl

end Creation

variable {known : List Definition} {c : Container} {n : Creation} {room : Nat}

theorem Container.Lawful.call_handing (lawful : c.Lawful known) (full : n.host = .full)
    (within : n.create = createWithin .full room) (member : n.definition ∈ known)
    (strategy : Executable → Option Value → List Value → Work (Except String Value)) :
    (n.handing strategy).call.run.run c = n.call.run.run c := by
  have upholds := lawful.upholds
  have creates := within.symm ▸ upholds.createWithin upholds.full_self room
  have hosts : Host.Alike (fun c => c.Lawful known ∧ True) n.host (n.handing strategy).host := by
    have self := upholds.full_self.alike
    rw [← full] at self
    exact ⟨self.evaluate, self.suppress⟩
  exact (upholds.call hosts creates trivial member ⟨lawful, trivial⟩).1.symm

theorem Container.Lawful.resolution?_of_error (lawful : c.Lawful known) (full : n.host = .full)
    (within : n.create = createWithin .full room) (inside : n.bean ∈ n.context.path)
    (single : ∀ name, c.definitions.get? name = some n.definition ↔ name = n.bean)
    (outermost : n.definition.Outermost known) {e : BeanError}
    {m : Container} (fails : n.call.run.run c = (.error e, m)) :
    m.resolution? n.definition = c.resolution? n.definition := by
  have member := lawful.registered n.bean n.definition ((single n.bean).mpr rfl)
  have respects := Realm.within_respects_resolution n.bean member outermost
    (c.resolution? n.definition) (c.decided n.definition)
  have conducts := (respects.upholds lawful.catalogued).conducts
  have failed := (conducts.decides full within inside member ⟨lawful, single, rfl, rfl⟩).1
  exact (failed e m fails).2.2.1

theorem Container.Lawful.attemptsOnce (lawful : c.Lawful known) (full : n.host = .full)
    (within : n.create = createWithin .full room) (inside : n.bean ∈ n.context.path)
    (member : n.definition ∈ known) : n.AttemptsOnce c := by
  have upholds := lawful.upholds
  have decides := (upholds.conducts.decides full within trivial member ⟨lawful, trivial⟩).2
  obtain ⟨decision, m, run⟩ : ∃ decision m, n.call.run.run c = (decision, m) := ⟨_, _, rfl⟩
  refine ⟨decision, m, run, fun call decided => ?_, fun e failed single outermost => ?_, fun strategy => ?_⟩
  · exact (decides call m (decided ▸ run)).1
  · exact lawful.resolution?_of_error full within inside single (lawful.built ▸ outermost)
      (failed ▸ run)
  · -- The strategy is asked for the last step only: until then the two creations go the same way.
    have same := lawful.call_handing full within member strategy
    rw [run] at same
    unfold Creation.perform
    cases decision with
    | error e => exact Attempt.run_bind_of_error same
    | ok call =>
      rw [Attempt.run_bind_of_ok same, Creation.run_instantiate]
      rfl

theorem createWithin_unbegun {host : Host} {ctx : Context} {bean : String} {d : Definition}
    {explicit : Option (List Value)} (refused : room = 0 ∨ ∃ e, ctx.begin bean = .error e)
    (c : Container) :
    ∃ e, (createWithin host room ctx bean d explicit).run.run c = (.error e, c) := by
  cases room with
  | zero => exact ⟨_, rfl⟩
  | succ room =>
    obtain ⟨e, refuses⟩ := refused.resolve_left (Nat.succ_ne_zero room)
    exact ⟨e, createWithin_refused refuses d explicit c⟩

/-- Every creation that begins while requests are answered makes one attempt at most and keeps
nothing for its definition before it, and one that does not begin leaves the container alone. -/
theorem Container.Reachable.creations_attempt_once (reachable : Reachable known c)
    (requests : List Request) :
    Request.EachCreation Creation.AttemptsOnce requests c ∧
    ∀ host room ctx bean d explicit m, (room = 0 ∨ ∃ e, ctx.begin bean = .error e) →
      ∃ e, (createWithin host room ctx bean d explicit).run.run m = (.error e, m) := by
  refine ⟨?_, fun _ _ _ _ _ _ m refused => createWithin_unbegun refused m⟩
  refine Request.eachCreation_of_lawful reachable.lawful ?_ requests
  intro known room n m full within inside member lawful
  exact lawful.attemptsOnce full within inside member

/-! A kettle whose first choice of a constructor fails, and another constructor that would not. -/
namespace Kettle

def filled : Executable where
  declaring := .plainClass "Kettle"
  kind := .constructor
  isPublic := true
  parameters := [⟨.string, none⟩]
  effect := .fails "leaks"
  label := none

def empty : Executable := { filled with parameters := [], effect := .makes (.plainClass "Kettle") }

def definition : Definition :=
  { Definition.initial .initial with
    beanClass := some ⟨.plainClass "Kettle", [empty, filled], []⟩
    arguments := ⟨[], [⟨.value (.str "water"), none, none, none⟩]⟩
    autowire := true }

def defined : Container := ((Request.define "kettle" definition).perform.run (.new .initial)).2

def asked : Container := ((Request.bean "kettle" none).perform.run defined).2

def outset : Context := .new 100

def inside : Context := { outset with path := ["kettle"] }

def creation : Creation := ⟨.full, createWithin .full 99, inside, "kettle", definition, none⟩

theorem creations_attempt_once_of_kettle :
    Request.EachCreation Creation.AttemptsOnce [.bean "kettle" none] defined ∧
    (creation.call.run.run defined).1 = .ok ⟨filled, none, [.str "water"]⟩ ∧
    asked.invocations.map (fun i => (i.bean, i.arguments)) = [("kettle", [.str "water"])] ∧
    ((createWithin .full 100 outset "kettle" definition none).run.run defined).1 =
      .error (.instantiation "kettle"
        "Bean instantiation via constructor failed: Kettle(String)" (.plain "leaks")) ∧
    ∃ e, (createWithin .full 100 inside "kettle" definition none).run.run defined =
      (.error e, defined) := by
  have fresh := Container.Reachable.initially
  have reachable : Container.Reachable _ defined := fresh.step (.define "kettle" definition)
  obtain ⟨each, refused⟩ := reachable.creations_attempt_once [.bean "kettle" none]
  refine ⟨each, ?_, ?_, ?_, ?_⟩
  · rfl
  · rfl
  · rfl
  · exact refused .full 100 inside "kettle" definition none defined (.inr ⟨_, rfl⟩)

end Kettle

/-! A box that takes a lid or a ribbon. The definition of the lid has that of the box inside it. -/
namespace Giftbox

def constructor (type : String) (parameter : String) : Executable where
  declaring := .plainClass type
  kind := .constructor
  isPublic := true
  parameters := [⟨.plainClass parameter, none⟩]
  effect := .makes (.plainClass type)
  label := none

def lidded : Executable := constructor "Box" "Lid"

def tied : Executable := constructor "Box" "Ribbon"

def box (lenient : Bool) : Definition :=
  { Definition.initial .initial with
    serial := 1
    beanClass := some ⟨.plainClass "Box", [lidded, tied], []⟩
    autowire := true
    lenient := lenient }

def lid (lenient : Bool) : Definition :=
  { Definition.initial .initial with
    serial := 2
    beanClass := some ⟨.plainClass "Lid", [constructor "Lid" "Box"], []⟩
    arguments := ⟨[], [⟨.inner (box lenient), none, none, none⟩]⟩ }

def ribbon : Value := .object (.plainClass "Ribbon") (.named "ribbon")

def stocked (lenient : Bool) : Container :=
  ((Request.performAll [.define "box" (box lenient), .define "lid" (lid lenient),
    .registerSingleton "ribbon" ribbon]).run (.new .initial)).2

def asked (lenient : Bool) : Except BeanError Value × Container :=
  (Attempt.bean "box" none).run.run (stocked lenient)

def wrapped (lenient : Bool) : Except BeanError Value × Container :=
  (Attempt.construct ⟨none, []⟩ .full "box" (box lenient) none none).run.run
    ((Request.performAll [.define "box" (box lenient),
      .define "lid" { lid lenient with arguments := ⟨[], []⟩, autowire := true },
      .registerSingleton "ribbon" ribbon]).run (.new .initial)).2

def ambiguous? : Except BeanError Value → Option (String × List String)
  | .error (.ambiguousMatch bean _ _ candidates) => some (bean, candidates)
  | _ => none

theorem reachable_stocked (lenient : Bool) :
    Container.Reachable [box lenient, lid lenient] (stocked lenient) := by
  have fresh := Container.Reachable.initially
  exact ((fresh.step (.define "box" (box lenient))).step (.define "lid" (lid lenient))).step
    (.registerSingleton "ribbon" ribbon)

theorem registered_iff (lenient : Bool) (name : String) :
    (stocked lenient).definitions.get? name = some (box lenient) ↔ name = "box" := by
  change Registry.lookup name [("box", box lenient), ("lid", lid lenient)] = _ ↔ _
  constructor
  · intro found
    by_contra other
    rw [Registry.lookup, if_neg (Ne.symm other), Registry.lookup] at found
    split at found
    · exact absurd (congrArg (Option.map Blueprint.serial) found) (by simp [box, lid])
    · cases found
  · rintro rfl
    rfl

/-- The lid is tried for the box, and the box inside the lid has to make do with the ribbon. With both
a lid and a ribbon to choose from the creation then fails and invokes nothing, but what was decided for
the other box is kept. So it is with a lid that takes the registered box, if the first box is made by its
constructor alone. -/
theorem tied_box_kept :
    Container.Reachable [box false, lid false] (stocked false) ∧
    (∀ name, (stocked false).definitions.get? name = some (box false) ↔ name = "box") ∧
    (stocked false).resolution? (box false) = none ∧
    ambiguous? (asked false).1 = some ("box", ["Box(Lid)", "Box(Ribbon)"]) ∧
    (asked false).2.invocations.map (·.bean) = ["(inner bean)#0", "lid"] ∧
    ((asked false).2.resolution? (box false)).map (·.executable.signature) =
      some "Box(Ribbon)" ∧
    ambiguous? (wrapped false).1 = some ("box", ["Box(Lid)", "Box(Ribbon)"]) ∧
    (wrapped false).2.invocations.map (·.bean) = ["box", "lid"] ∧
    ((wrapped false).2.resolution? (box false)).map (·.executable.signature) =
      some "Box(Ribbon)" := by
  refine ⟨reachable_stocked false, registered_iff false, rfl, ?_, ?_, ?_, ?_, ?_, ?_⟩
  all_goals decide +kernel

end Giftbox

end BeanWiring
