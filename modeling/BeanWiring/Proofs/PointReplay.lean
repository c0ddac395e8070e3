import BeanWiring.Proofs.InjectionPoints
import BeanWiring.Proofs.Lawful
import BeanWiring.Proofs.Ways

/-!
Parameters for an injection point, when recipes are followed. A search passes the current point on as it
is, whatever type below the type of points the parameter has. A replay converts what it passes: the
parameter is given the current point if its type takes points, and else no replay gets past it.
-/
namespace BeanWiring

def InjectionPoint.replayed (point : InjectionPoint) (bean : String) :
    Option InjectionPoint → Except BeanError Value
  | none => .error (.illegalState ("No current InjectionPoint available for " ++ point.text))
  | some current =>
    if point.type.accepts .injectionPoint then .ok (.point current)
    else
      let mismatch : TypeMismatch :=
        ⟨"InjectionPoint", point.type.name, ConversionFault.unsupported.message⟩
      .error (.unsatisfied (.because bean point
        ("Could not convert argument value of type [" ++ mismatch.valueType ++
          "] to required type [" ++ mismatch.requiredType ++ "]: " ++ mismatch.text)))

theorem InjectionPoint.takes_of_replayed {point : InjectionPoint} {bean : String}
    {current : Option InjectionPoint} {argument : Value}
    (given : point.replayed bean current = .ok argument) :
    point.type.accepts .injectionPoint = true := by
  unfold replayed at given
  split at given
  · cases given
  · split at given
    · assumption
    · cases given

theorem Value.convert_point {type : BeanType}
    (passed : BeanType.injectionPoint.accepts type = true)
    (refuses : type.accepts .injectionPoint = false) (current : InjectionPoint) :
    (Value.point current).convert type =
      .error ⟨"InjectionPoint", type.name, ConversionFault.unsupported.message⟩ := by
  have unfit : ¬type.fits (.point current) = true := fun fits => nomatch refuses.symm.trans fits
  have scalar : convert.scalar (.point current) type =
      .error ⟨"InjectionPoint", type.name, ConversionFault.unsupported.message⟩ := by
    unfold convert.scalar convertScalar
    simp only [isScalar, Bool.false_and]
    rfl
  unfold convert
  rw [if_neg unfit]
  cases type with
  | array => cases passed
  | _ => exact scalar

theorem Value.convertArgument_point {point : InjectionPoint}
    (passed : BeanType.injectionPoint.accepts point.type = true) (current : InjectionPoint)
    (bean : String) :
    ((Value.point current).convertArgument bean point).mapError .unsatisfied =
      point.replayed bean (some current) := by
  unfold convertArgument InjectionPoint.replayed
  cases takes : point.type.accepts .injectionPoint with
  | true =>
    have fits : point.type.fits (.point current) = true := takes
    rw [convert_of_fits fits]
    rfl
  | false =>
    rw [convert_point passed takes current]
    rfl

theorem Attempt.replayFrom_point {host : Host} {create : Creator} {ctx : Context} {bean : String}
    {e : Executable} {index : Nat} {parameter : Parameter}
    (passed : BeanType.injectionPoint.accepts parameter.type = true) (parameters : List Parameter)
    (recipes : List Recipe) :
    replayFrom host create ctx bean e index (parameter :: parameters) (.autowired :: recipes) = (do
      let argument ←
        liftExcept ((e.injectionPoint bean index parameter).replayed bean ctx.currentPoint?)
      return argument :: (← replayFrom host create ctx bean e (index + 1) parameters recipes)) := by
  have accepts : BeanType.injectionPoint.accepts (e.injectionPoint bean index parameter).type = true :=
    passed
  conv =>
    lhs
    unfold replayFrom
  simp only [replayRecipe, Work.autowire, if_pos accepts]
  cases ctx.currentPoint? with
  | none => rfl
  | some current =>
    rw [← Value.convertArgument_point accepts current bean]
    simp only [pure_bind]
    cases (Value.point current).convertArgument bean (e.injectionPoint bean index parameter) <;> rfl

theorem Binding.Follows.recipe_of_left {bean : String} {e : Executable} {start : Nat}
    {parameters : List Parameter} {taken : List (Option (HolderSlot × Holder ResolvedValue))}
    {b : Binding} (follows : Follows bean e start parameters taken b) {index : Nat}
    (left : taken[index]? = some none) : (b.map (·.recipe))[index]? = some .autowired := by
  induction follows generalizing index with
  | nil => cases left
  | declared _ _ ih =>
    cases index with
    | zero => cases left
    | succ index => exact ih left
  | autowired _ _ ih =>
    cases index with
    | zero => rfl
    | succ index => exact ih left

theorem Resolution.Keeps.exists_autowired {r : Resolution} {d : Definition}
    {values : ArgumentValues ResolvedValue} {s : Work.Setting} {b : Binding} {index : Nat}
    (keeps : r.Keeps d values s b)
    (left : (values.taken s.autowiring r.executable)[index]? = some none) :
    ∃ recipes, r.arguments = .prepared recipes ∧ recipes[index]? = some .autowired := by
  have anew := keeps.follows.recipe_of_left left
  refine ⟨b.map (·.recipe), ?_, anew⟩
  have among : .autowired ∈ b.map (·.recipe) := List.mem_of_getElem? anew
  obtain ⟨a, member, same⟩ := List.mem_map.mp among
  have unsettled : ¬(b.all (·.recipe.isValue)) = true := by
    intro all
    have value := List.all_eq_true.mp all a member
    rw [same] at value
    cases value
  rw [keeps.kept]
  exact if_neg unsettled

namespace Creation

variable {n : Creation} {c m : Container} {e : Executable} {target : Option Value}

/-- The call that recipes lead to where one of the slots comes to what is given. -/
def replayAround (n : Creation) (e : Executable) (target : Option Value) (recipes : List Recipe)
    (index : Nat) (slot : Except BeanError Value) : Attempt Call := do
  let before ← Attempt.replayFrom n.host n.create n.context n.bean e 0 (e.parameters.take index)
    (recipes.take index)
  let argument ← liftExcept slot
  let after ← Attempt.replayFrom n.host n.create n.context n.bean e (index + 1)
    (e.parameters.drop (index + 1)) (recipes.drop (index + 1))
  return ⟨e, target, before ++ argument :: after⟩

theorem replay_point {index : Nat} {parameter : Parameter} {recipes : List Recipe}
    (there : e.parameters[index]? = some parameter) (followed : recipes[index]? = some .autowired)
    (passed : BeanType.injectionPoint.accepts parameter.type = true) :
    (do return ⟨e, target, ← Attempt.replay n.host n.create n.context n.bean e recipes⟩ :
        Attempt Call) =
      n.replayAround e target recipes index
        ((e.injectionPoint n.bean index parameter).replayed n.bean n.context.currentPoint?) := by
  obtain ⟨inside, rfl⟩ := List.getElem?_eq_some_iff.mp there
  obtain ⟨kept, autowired⟩ := List.getElem?_eq_some_iff.mp followed
  -- The recipes are split where that of the parameter stands, so that what comes before it is run
  -- first.
  have parameters : e.parameters =
      e.parameters.take index ++ e.parameters[index] :: e.parameters.drop (index + 1) := by
    rw [← List.drop_eq_getElem_cons inside, List.take_append_drop]
  have split : recipes = recipes.take index ++ .autowired :: recipes.drop (index + 1) := by
    rw [← autowired, ← List.drop_eq_getElem_cons kept, List.take_append_drop]
  have whole : Attempt.replay n.host n.create n.context n.bean e recipes =
      Attempt.replayFrom n.host n.create n.context n.bean e 0
        (e.parameters.take index ++ e.parameters[index] :: e.parameters.drop (index + 1))
        (recipes.take index ++ .autowired :: recipes.drop (index + 1)) := by
    rw [← parameters, ← split]
    rfl
  have length : (e.parameters.take index).length = index := List.length_take_of_le inside.le
  have length' : (recipes.take index).length = index := List.length_take_of_le kept.le
  rw [whole, Attempt.replayFrom_append (length'.trans length.symm), length, Nat.zero_add,
    Attempt.replayFrom_point passed]
  unfold replayAround
  simp only [bind_assoc, pure_bind]

/-- Where the creation follows what is kept for it, that comes from a search, and each parameter for an
injection point that the search left to the container it passed the point that was current then. The
replay goes on past such a parameter with the point that is current now, or it ends there. -/
def ReplaysPoints (n : Creation) (c : Container) : Prop :=
  ∀ r target m, n.FollowsKept c r target m → r.KeptFor n.definition ∧
    ∀ values s b, r.Keeps n.definition values s b → ∀ (index : Nat) (parameter : Parameter),
      (values.taken s.autowiring r.executable)[index]? = some none →
      r.executable.parameters[index]? = some parameter →
      BeanType.injectionPoint.accepts parameter.type = true →
      (∃ past, s.context.currentPoint? = some past ∧ b.arguments[index]? = some (.point past)) ∧
      (∃ recipes, r.arguments = .prepared recipes ∧ n.call.run.run c =
        (n.replayAround r.executable target recipes index
          ((r.executable.injectionPoint n.bean index parameter).replayed n.bean
            n.context.currentPoint?)).run.run
          ((Work.emit (.replayingArguments n.bean r.executable)).run m).2) ∧
      ∀ call c', n.call.run.run c = (.ok call, c') →
        parameter.type.accepts .injectionPoint = true ∧
        call.ReceivesAt index n.context.currentPoint?

theorem replaysPoints (kept : ∀ r target m, n.FollowsKept c r target m → r.KeptFor n.definition) :
    n.ReplaysPoints c := by
  intro r target m follows
  refine ⟨kept r target m follows, fun values s b keeps index parameter left there passed => ?_⟩
  obtain ⟨e, arguments⟩ := r
  obtain ⟨recipes, prepared, anew⟩ := keeps.exists_autowired left
  dsimp only at prepared there
  subst prepared
  have ran : n.call.run.run c = (n.replayAround e target recipes index
      ((e.injectionPoint n.bean index parameter).replayed n.bean n.context.currentPoint?)).run.run
      ((Work.emit (.replayingArguments n.bean e)).run m).2 := by
    rw [follows.run_call, ← replay_point there anew passed]
    rfl
  refine ⟨keeps.passes_point left there passed, ⟨recipes, rfl, ran⟩, fun call c' run => ?_⟩
  constructor
  · rw [ran] at run
    obtain ⟨before, k, -, rest⟩ := Attempt.run_bind_eq_ok.mp run
    obtain ⟨argument, k', slot, -⟩ := Attempt.run_bind_eq_ok.mp rest
    rw [Attempt.run_liftExcept] at slot
    exact InjectionPoint.takes_of_replayed (congrArg Prod.fst slot)
  · rw [follows.run_call] at run
    obtain ⟨arguments, k, recalled, last⟩ := Attempt.run_bind_eq_ok.mp run
    obtain ⟨rfl, rfl⟩ := Attempt.run_pure_eq_ok.mp last
    exact Attempt.recollect_receivesAt recalled anew

end Creation

variable {known : List Definition} {c : Container}

/-- Whatever is asked of a container, a replay passes the current point where the type of the parameter
takes points. Where it does not, though the search once passed a point there, no replay succeeds. -/
theorem Container.Reachable.points_replayed (reachable : Reachable known c)
    (requests : List Request) : Request.EachCreation Creation.ReplaysPoints requests c := by
  refine Request.eachCreation_of_lawful reachable.lawful ?_ requests
  intro known room n m full within _ member lawful
  have creates := within.symm ▸ lawful.upholds.createWithin lawful.upholds.full_self room
  have targets : Attempt.Agree _ n.factoryTarget (n.elsewhere n.host n.create).factoryTarget _ :=
    lawful.upholds.factoryTarget creates trivial
  refine n.replaysPoints fun r target k follows => ?_
  cases follows with
  | constructor _ _ _ kept => exact lawful.keptFor member kept
  | factoryMethod _ _ targeted kept =>
    exact (targets.kept ⟨lawful, trivial⟩ targeted).1.keptFor member kept

/-! A door with a chime, which asks for the point it is injected into by a type of its own below that of
points. -/
namespace Chime

def constructor (name : String) (parameter : BeanType) : Executable :=
  ⟨.plainClass name, .constructor, true, [⟨parameter, none⟩], .makes (.plainClass name), none⟩

def definition (e : Executable) : Definition :=
  { Definition.initial .initial with
    beanClass := some ⟨e.declaring, [e], []⟩
    autowire := true
    scope := .prototype }

def chime : Executable := constructor "Chime" (.declaredClass "Visit" .injectionPoint [])

def door : Executable := constructor "Door" (.plainClass "Chime")

def defined : Container :=
  ((Request.performAll [.define "chime" (definition chime), .define "door" (definition door)]).run
    (.new .initial)).2

def opened : Container := ((Request.bean "door" none).perform.run defined).2

def told : Value → Option (String × String)
  | .point here => some (here.bean, here.text)
  | _ => none

def refused : Answer → Option String
  | .bean (.error (.unsatisfied failure)) => some failure.message
  | _ => none

/-- The door is made once, and the chime is given the point. It is never made again. -/
theorem points_replayed_of_chime :
    (opened.invocations.map fun i => (i.bean, i.arguments.map told)) =
      [("chime", [some ("door", "parameter 0 of Door(Chime)")]), ("door", [none])] ∧
    refused ((Request.bean "door" none).perform.run opened).1 = some
      ("Error creating bean with name 'chime': Unsatisfied dependency expressed through parameter 0 " ++
        "of Chime(Visit): Could not convert argument value of type [InjectionPoint] to required " ++
        "type [Visit]: Failed to convert value of type 'InjectionPoint' to required type 'Visit': " ++
        "no matching conversion found") ∧
    Request.EachCreation Creation.ReplaysPoints [.bean "door" none] opened := by
  have fresh := Container.Reachable.initially
  have reachable := ((fresh.step (.define "chime" (definition chime))).step
    (.define "door" (definition door))).step (.bean "door" none)
  exact ⟨by decide +kernel, by decide +kernel, reachable.points_replayed [.bean "door" none]⟩

end Chime

end BeanWiring
