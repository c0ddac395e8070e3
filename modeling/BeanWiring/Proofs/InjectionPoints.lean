import BeanWiring.Proofs.Standing

/-!
Which injection point a bean is given. A bean that is looked up for a parameter is asked for with
that parameter as a point above the ones before. A bean that is asked for by its name, for a
declared value or as a factory bean, adds no point: what is created for it is given the one that was
there before.
-/
namespace BeanWiring

/-- A bean in creation, and the parameter it is created for if it was asked for to satisfy one. -/
structure Frame where
  bean : String
  wanted : Option InjectionPoint

/-- Where the innermost of the beans in creation asks for another, and for which of its parameters.
Its creation stands in `ctx`. -/
inductive Context.Wants (ctx : Context) : List Frame → Context → Option InjectionPoint → Prop
  | itself {frames : List Frame} : ctx.Wants frames ctx none
  | satisfying {requester : Frame} {below : List Frame} (e : Executable) {index : Nat}
      {parameter : Parameter} :
      e.parameters[index]? = some parameter →
      ctx.Wants (requester :: below) (ctx.push (e.injectionPoint requester.bean index parameter))
        (some (e.injectionPoint requester.bean index parameter))

/-- How the beans in creation since the outset led to a context: each was asked for by the one below
it. The innermost comes first. -/
inductive Context.Trail (outset : Context) : List Frame → Context → Prop
  | start : outset.Trail [] outset
  | step {frames : List Frame} {ctx asked inside : Context} {wanted : Option InjectionPoint}
      {bean : String} :
      outset.Trail frames ctx → ctx.Wants frames asked wanted → asked.begin bean = .ok inside →
      outset.Trail (⟨bean, wanted⟩ :: frames) inside

def Frame.IsPointOf (below : List Frame) (point : InjectionPoint) : Prop :=
  ∃ requester rest, ∃ e : Executable, ∃ index parameter, below = requester :: rest ∧
    e.parameters[index]? = some parameter ∧ point = e.injectionPoint requester.bean index parameter

namespace Context

variable {outset ctx asked inside : Context} {frames : List Frame} {wanted : Option InjectionPoint}
  {bean : String}

theorem Wants.eq (wants : ctx.Wants frames asked wanted) :
    asked = { ctx with points := wanted.toList ++ ctx.points } := by
  cases wants <;> rfl

theorem Wants.isPointOf (wants : ctx.Wants frames asked wanted) {point : InjectionPoint}
    (is : wanted = some point) : Frame.IsPointOf frames point := by
  cases wants with
  | itself => cases is
  | satisfying e listed =>
    cases is
    exact ⟨_, _, e, _, _, rfl, listed, rfl⟩

theorem Wants.begin_eq (wants : ctx.Wants frames asked wanted)
    (begins : asked.begin bean = .ok inside) :
    inside = ⟨wanted.toList ++ ctx.points, bean :: ctx.path, ctx.maxDepth⟩ := by
  rw [Context.begin_eq begins, wants.eq]

namespace Trail

theorem path_eq (trail : outset.Trail frames ctx) :
    ctx.path = frames.map (·.bean) ++ outset.path := by
  induction trail with
  | start => rfl
  | step _ wants begins ih =>
    rw [wants.begin_eq begins, List.map_cons, List.cons_append, ih]

theorem points_eq (trail : outset.Trail frames ctx) :
    ctx.points = frames.filterMap (·.wanted) ++ outset.points := by
  induction trail with
  | start => rfl
  | step _ wants begins ih =>
    rename_i wanted _ _
    rw [wants.begin_eq begins, ih]
    cases wanted <;> rfl

theorem currentPoint?_eq (trail : outset.Trail frames ctx) :
    ctx.currentPoint? = (frames.findSome? (·.wanted)).or outset.currentPoint? := by
  unfold currentPoint?
  rw [trail.points_eq, List.head?_append, List.head?_filterMap]

theorem nodup (trail : outset.Trail frames ctx) : (frames.map (·.bean)).Nodup := by
  induction trail with
  | start => exact .nil
  | step earlier wants begins ih =>
    refine List.nodup_cons.mpr ⟨fun member => (begin_ok begins).2 ?_, ih⟩
    rw [wants.eq]
    exact earlier.path_eq ▸ List.mem_append_left _ member

theorem bean_mem_tail (trail : outset.Trail frames ctx) {point : InjectionPoint}
    (member : point ∈ frames.filterMap (·.wanted)) :
    point.bean ∈ (frames.map (·.bean)).tail := by
  induction trail with
  | start => cases member
  | step earlier wants _ ih =>
    obtain ⟨frame, among, is⟩ := List.mem_filterMap.mp member
    rcases List.mem_cons.mp among with rfl | later
    · obtain ⟨requester, rest, e, index, parameter, rfl, -, rfl⟩ := wants.isPointOf is
      exact List.mem_cons_self
    · exact List.mem_of_mem_tail (ih (List.mem_filterMap.mpr ⟨frame, later, is⟩))

/-- On the same path, no trail has a point more than another one that comes from the bean in front:
the points on a trail come from beans further down. -/
theorem not_pushed {ctx' : Context} {frames' : List Frame} (trail : outset.Trail frames ctx)
    (trail' : outset.Trail frames' ctx') (path : ctx.path = ctx'.path) {point : InjectionPoint}
    (is : Frame.IsPointOf frames' point) : ctx.points ≠ point :: ctx'.points := by
  intro points
  have beans : frames.map (·.bean) = frames'.map (·.bean) := by
    rw [trail.path_eq, trail'.path_eq] at path
    exact List.append_cancel_right path
  have more : frames.filterMap (·.wanted) = point :: frames'.filterMap (·.wanted) := by
    rw [trail.points_eq, trail'.points_eq, ← List.cons_append] at points
    exact List.append_cancel_right points
  have below : point.bean ∈ (frames.map (·.bean)).tail :=
    trail.bean_mem_tail (more ▸ List.mem_cons_self)
  have distinct := trail'.nodup
  obtain ⟨requester, rest, e, index, parameter, rfl, -, rfl⟩ := is
  rw [beans] at below
  exact (List.nodup_cons.mp distinct).1 below

theorem unique {frames' : List Frame} (trail : outset.Trail frames ctx)
    (trail' : outset.Trail frames' ctx) : frames = frames' := by
  induction trail generalizing frames' with
  | start =>
    cases trail' with
    | start => rfl
    | step earlier wants begins =>
      have path := (Trail.step earlier wants begins).path_eq
      exact absurd (List.self_eq_append_left.mp path) nofun
  -- The bean in front tells the last step on both trails, and the rest is told by induction.
  | step earlier wants begins ih =>
    rename_i frames ctx asked inside wanted bean
    have same := wants.begin_eq begins
    cases trail' with
    | start =>
      have path := (Trail.step earlier wants begins).path_eq
      exact absurd (List.self_eq_append_left.mp path) nofun
    | step earlier' wants' begins' =>
      rename_i frames' ctx' asked' wanted' bean'
      rw [wants'.begin_eq begins'] at same
      obtain ⟨points, beans, depth⟩ := Context.mk.inj same
      obtain ⟨named, path⟩ := List.cons.inj beans
      have asked : wanted = wanted' ∧ ctx.points = ctx'.points := by
        cases wanted with
        | none =>
          cases wanted' with
          | none => exact ⟨rfl, points.symm⟩
          | some point =>
            exact absurd points.symm (earlier.not_pushed earlier' path.symm (wants'.isPointOf rfl))
        | some point =>
          cases wanted' with
          | none => exact absurd points (earlier'.not_pushed earlier path (wants.isPointOf rfl))
          | some point' =>
            obtain ⟨first, others⟩ := List.cons.inj points
            exact ⟨congrArg some first.symm, others.symm⟩
      have there : ctx = ctx' := by
        obtain ⟨_, _, _⟩ := ctx
        obtain ⟨_, _, _⟩ := ctx'
        cases path
        cases depth
        cases asked.2
        rfl
      subst there
      rw [asked.1, named, ih earlier']

end Trail

end Context

theorem Value.eq_point_of_convert {type : BeanType} {point : InjectionPoint} {argument : Value}
    (accepts : BeanType.injectionPoint.accepts type = true)
    (converted : (Value.point point).convert type = .ok argument) : argument = .point point := by
  rcases convert_cases converted with
    ⟨-, rfl⟩ | single | ⟨element, items, rfl, -⟩ | ⟨kind, element, items, rfl, -⟩
  · rfl
  · simp [convertScalar, isScalar] at single
  · cases accepts
  · cases accepts

namespace Work

theorem autowire_point {fetch : Fetch} {ctx : Context} {bean : String} {point : InjectionPoint}
    {fallback : Bool} {found : Autowired} {c c' : Container}
    (accepts : BeanType.injectionPoint.accepts point.type = true)
    (run : (autowire fetch ctx bean point fallback).run.run c = (.ok found, c')) :
    ∃ current, ctx.currentPoint? = some current ∧ found.value = .point current := by
  unfold autowire at run
  rw [if_pos accepts] at run
  split at run
  · rename_i current at_hand
    exact ⟨current, at_hand, by rw [← (Attempt.run_pure_eq_ok.mp run).1]⟩
  · cases run

theorem bindFrom_point {s : Setting} {e : Executable} {values : ArgumentValues ResolvedValue}
    {index : Nat} {parameters : List Parameter} {p p' : Progress} {c c' : Container}
    (bound : (bindFrom s e values index parameters p).run.run c = (.ok p', c')) :
    ∃ b, p'.bound = p.bound ++ b ∧ ∀ (i : Nat) (parameter : Parameter),
      (values.takenFrom s.autowiring e.arity index parameters p.used)[i]? = some none →
      parameters[i]? = some parameter →
      BeanType.injectionPoint.accepts parameter.type = true →
      ∃ current, s.context.currentPoint? = some current ∧
        (b.map (·.argument))[i]? = some (.point current) := by
  induction parameters generalizing index p c with
  | nil =>
    cases (Attempt.run_pure_eq_ok.mp bound).1
    exact ⟨[], (List.append_nil _).symm, nofun⟩
  | cons parameter rest ih =>
    obtain ⟨q, m, first, later⟩ := Attempt.run_bind_eq_ok.mp bound
    obtain ⟨b, same, points⟩ := ih later
    -- A parameter that takes a holder gets its argument from there; only one left over gets a
    -- point.
    rcases bindParameter_ok first with ⟨slot, h, a, chosen, -, rfl, -⟩ | ⟨found, chosen, run, rfl⟩
    · simp only [ArgumentValues.takenFrom, chosen]
      refine ⟨a :: b, by rw [same, List.append_assoc]; rfl, fun i other left there accepts => ?_⟩
      cases i with
      | zero => cases left
      | succ i => exact points i other left there accepts
    · simp only [ArgumentValues.takenFrom, chosen]
      refine ⟨_ :: b, by rw [same, List.append_assoc]; rfl, fun i other left there accepts => ?_⟩
      cases i with
      | zero =>
        cases there
        obtain ⟨current, at_hand, value⟩ := autowire_point accepts run
        exact ⟨current, at_hand, congrArg some value⟩
      | succ i => exact points i other left there accepts

end Work

def Call.ReceivesAt (call : Call) (index : Nat) (point : Option InjectionPoint) : Prop :=
  ∀ parameter, call.executable.parameters[index]? = some parameter →
    BeanType.injectionPoint.accepts parameter.type = true →
    ∃ current, point = some current ∧ call.arguments[index]? = some (.point current)

theorem Resolution.Keeps.passes_point {r : Resolution} {d : Definition}
    {values : ArgumentValues ResolvedValue} {s : Work.Setting} {b : Binding} {index : Nat}
    {parameter : Parameter} (keeps : r.Keeps d values s b)
    (left : (values.taken s.autowiring r.executable)[index]? = some none)
    (there : r.executable.parameters[index]? = some parameter)
    (accepts : BeanType.injectionPoint.accepts parameter.type = true) :
    ∃ current, s.context.currentPoint? = some current ∧
      b.arguments[index]? = some (.point current) := by
  obtain ⟨m, m', bound⟩ := keeps.bound
  obtain ⟨p, _, first, rest⟩ := Attempt.run_bind_eq_ok.mp bound
  obtain ⟨_, _, _, last⟩ := Attempt.run_bind_eq_ok.mp rest
  obtain ⟨b', same, points⟩ := Work.bindFrom_point first
  have whole : b = b' := (Attempt.run_pure_eq_ok.mp last).1.symm.trans same
  rw [whole]
  exact points index parameter left there accepts

theorem Creation.Matches.receivesAt {n : Creation} {call : Call} {c : Container} {index : Nat}
    {values : ArgumentValues ResolvedValue} {s : Work.Setting} {b : Binding}
    (found : n.Matches call values s b c)
    (left : (values.taken s.autowiring call.executable)[index]? = some none) :
    call.ReceivesAt index n.context.currentPoint? := by
  intro parameter there accepts
  obtain ⟨current, at_hand, passed⟩ := found.keeps.passes_point left there accepts
  refine ⟨current, ?_, ?_⟩
  · rw [← at_hand, found.setting]
    rfl
  · rw [found.arguments]
    exact passed

theorem Attempt.recollect_receivesAt {host : Host} {create : Creator} {ctx : Context}
    {bean : String} {call : Call} {recipes : List Recipe} {c c' : Container} {index : Nat}
    (recalled : (recollect host create ctx bean ⟨call.executable, .prepared recipes⟩).run.run c =
      (.ok call.arguments, c')) (followed : recipes[index]? = some .autowired) :
    call.ReceivesAt index ctx.currentPoint? := by
  intro parameter there accepts
  obtain ⟨m, m', value, argument, -, given, converted, passed⟩ := replayFrom_ok (I := fun _ => True)
    (fun _ _ _ _ _ => ⟨rfl, trivial, fun _ _ => trivial⟩) trivial recalled there followed
  obtain ⟨found, _, run, last⟩ := run_bind_eq_ok.mp given
  obtain ⟨current, at_hand, point⟩ := Work.autowire_point accepts run
  rw [← (run_pure_eq_ok.mp last).1, point] at converted
  exact ⟨current, at_hand, Value.eq_point_of_convert accepts converted ▸ passed⟩

/-- Where the creation stands, and the injection points it passes on. Its context tells how it and
the creations around it were asked for, and for which parameter of the bean below if for any; it
asks for others just where it stands itself, and in the satisfaction of its parameters. An argument
for an injection point that is found in the container, by a search or to follow a recipe, is the
innermost point on the way from the outset: that of the parameter the bean was asked for, or if it
was not asked for a parameter the next one further out. -/
def Creation.PassesPoints (outset : Context) (n : Creation) (c : Container) : Prop :=
  ∃ wanted below,
    (∀ frames, outset.Trail frames n.context ↔ frames = ⟨n.bean, wanted⟩ :: below) ∧
    n.context.path = n.bean :: (below.map (·.bean) ++ outset.path) ∧
    (∀ point, wanted = some point → Frame.IsPointOf below point) ∧
    (∀ create', Creator.SameFor n.context n.bean n.create create' →
      n.perform = { n with create := create' }.perform) ∧
    ∀ call c', n.explicit = none → n.call.run.run c = (.ok call, c') →
      let point := wanted.or ((below.findSome? (·.wanted)).or outset.currentPoint?)
      ∃ m, (m = c ∨ ∃ target, n.factoryTarget.run.run c = (.ok target, m)) ∧
        ((m.resolution? n.definition = none ∧ (∃ values s b, n.Matches call values s b c') ∧
          ∀ values s b, n.Matches call values s b c' → ∀ index,
            (values.taken s.autowiring call.executable)[index]? = some none →
            call.ReceivesAt index point) ∨
        ∃ arguments, m.resolution? n.definition = some ⟨call.executable, arguments⟩ ∧
          ∀ recipes, arguments = .prepared recipes → ∀ index : Nat,
            recipes[index]? = some .autowired → call.ReceivesAt index point)

theorem Creation.passesPoints {outset ctx asked : Context} {frames : List Frame}
    {wanted : Option InjectionPoint} {n : Creation} (trail : outset.Trail frames ctx)
    (wants : ctx.Wants frames asked wanted) (begins : asked.begin n.bean = .ok n.context)
    (c : Container) : n.PassesPoints outset c := by
  have here := trail.step wants begins
  refine ⟨wanted, frames, fun other => ⟨(·.unique here), fun same => same ▸ here⟩, here.path_eq,
    fun point => wants.isPointOf, fun create' same => perform_congr same, ?_⟩
  intro call c' ungiven run
  have innermost : n.context.currentPoint? =
      wanted.or ((frames.findSome? (·.wanted)).or outset.currentPoint?) := by
    rw [here.currentPoint?_eq]
    cases wanted <;> rfl
  simp only [← innermost]
  obtain ⟨m, reached, decided⟩ := call_matches ungiven run
  refine ⟨m, reached, ?_⟩
  rcases decided with ⟨⟨e, arguments⟩, kept, same, recalled⟩ | ⟨nothing, values, s, b, found⟩
  · dsimp only at same
    subst same
    refine .inr ⟨arguments, kept, fun recipes prepared index followed => ?_⟩
    subst prepared
    exact Attempt.recollect_receivesAt recalled followed
  · exact .inl ⟨nothing, ⟨values, s, b, found⟩, fun _ _ _ found _ left => found.receivesAt left⟩

theorem Request.points_passed (request : Request) (c : Container) :
    EachCreation (Creation.PassesPoints (request.start.context c.settings.maxDepth.toNat))
      [request] c := by
  let outset := request.start.context c.settings.maxDepth.toNat
  refine eachCreation_of_inherits (G := fun asked => ∃ frames ctx wanted,
    outset.Trail frames ctx ∧ ctx.Wants frames asked wanted) ?_ ?_ ?_
  · rintro asked bean inside ctx' ⟨frames, ctx, wanted, trail, wants⟩ begins asks
    refine ⟨⟨bean, wanted⟩ :: frames, inside, ?_⟩
    cases asks with
    | itself => exact ⟨none, trail.step wants begins, .itself⟩
    | satisfying e listed => exact ⟨_, trail.step wants begins, .satisfying e listed⟩
  · intro ctx m settings begun
    obtain ⟨-, same⟩ := Attempt.context_ok begun
    have standing : ctx = outset := same.trans (settings ▸ rfl)
    exact ⟨[], outset, none, .start, standing ▸ .itself⟩
  · rintro asked n m ⟨frames, ctx, wanted, trail, wants⟩ begins
    exact Creation.passesPoints trail wants begins m

/-! A widget with an autowired gear, which names its motor itself. The motor asks for the point it
is injected into. -/
namespace Motor

def constructor (name : String) (parameter : BeanType) : Executable :=
  ⟨.plainClass name, .constructor, true, [⟨parameter, none⟩], .makes (.plainClass name), none⟩

def definition (e : Executable) (arguments : ArgumentValues DeclaredValue) : Definition :=
  { Definition.initial .initial with
    beanClass := some ⟨e.declaring, [e], []⟩
    arguments := arguments
    autowire := arguments.isEmpty }

def widget : Executable := constructor "Widget" (.plainClass "Gear")

def gear : Definition := definition (constructor "Gear" (.plainClass "Motor"))
  ⟨[], [⟨.reference "motor", none, none, none⟩]⟩

def defined : Container :=
  ((Request.performAll [.define "widget" (definition widget ⟨[], []⟩),
    .define "motor" (definition (constructor "Motor" .injectionPoint) ⟨[], []⟩),
    .define "gear" gear]).run (.new .initial)).2

def asked : Container := ((Request.bean "widget" none).perform.run defined).2

def outset : Context := .new 100

def outer : InjectionPoint := widget.injectionPoint "widget" 0 ⟨.plainClass "Gear", none⟩

def inside : Context := ⟨[outer], ["motor", "gear", "widget"], 100⟩

def trail : List Frame := [⟨"motor", none⟩, ⟨"gear", some outer⟩, ⟨"widget", none⟩]

def told : Value → Option (String × String)
  | .point here => some (here.bean, here.text)
  | _ => none

theorem led : outset.Trail trail inside := by
  have below : outset.Trail [⟨"widget", none⟩] ⟨[], ["widget"], 100⟩ := .step .start .itself rfl
  have listed : widget.parameters[0]? = some ⟨.plainClass "Gear", none⟩ := rfl
  have between : outset.Trail [⟨"gear", some outer⟩, ⟨"widget", none⟩]
      ⟨[outer], ["gear", "widget"], 100⟩ := .step below (.satisfying widget listed) rfl
  exact .step between .itself rfl

/-- The motor is asked for no parameter, and is given the point that the gear was asked for. -/
theorem points_passed_of_motor :
    Request.EachCreation (Creation.PassesPoints outset) [.bean "widget" none] defined ∧
    (∀ frames, outset.Trail frames inside → frames = trail) ∧
    (asked.invocations.map fun i => (i.bean, i.arguments.map told)) =
      [("motor", [some ("widget", "parameter 0 of Widget(Gear)")]), ("gear", [none]),
        ("widget", [none])] :=
  ⟨Request.points_passed (.bean "widget" none) defined, fun _ other => other.unique led, by
    decide +kernel⟩

end Motor

end BeanWiring
