import BeanWiring.Proofs.Conduct
import BeanWiring.Proofs.Locality

/-!
Where creations stand. What holds of the context of a request, and goes on to hold wherever a bean
in creation asks for others, holds wherever any creation of the request begins, whatever the state.
-/
namespace BeanWiring

def Request.start : Request → Outset
  | .lookup start _ _ _ => start
  | _ => ⟨none, []⟩

def Outset.context (start : Outset) (maxDepth : Nat) : Context :=
  ⟨start.point.toList, start.creating.reverse, maxDepth⟩

theorem Context.begin_eq {ctx inside : Context} {bean : String}
    (begins : ctx.begin bean = .ok inside) : inside = { ctx with path := bean :: ctx.path } := by
  unfold begin at begins
  split at begins
  · cases begins
  · split at begins
    · cases begins
    · exact (Except.ok.inj begins).symm

theorem Context.beginAll_eq {ctx inside : Context} {beans : List String}
    (begins : ctx.beginAll beans = .ok inside) :
    inside = { ctx with path := beans.reverse ++ ctx.path } := by
  induction beans generalizing ctx with
  | nil => exact (Except.ok.inj begins).symm
  | cons bean rest ih =>
    unfold beginAll at begins
    split at begins
    · cases begins
    · rename_i first began
      rw [ih begins, begin_eq began, List.reverse_cons, List.append_assoc]
      rfl

theorem Attempt.run_context (start : Outset) (c : Container) :
    (Attempt.context start).run.run c =
      (({ (Context.new c.settings.maxDepth.toNat) with points := start.point.toList } :
        Context).beginAll start.creating, c) := by
  unfold Attempt.context
  rw [Attempt.run_get_bind]
  cases start.point <;> exact Attempt.run_liftExcept _ c

theorem Attempt.context_ok {start : Outset} {c m : Container} {ctx : Context}
    (run : (Attempt.context start).run.run c = (.ok ctx, m)) :
    m = c ∧ ctx = start.context c.settings.maxDepth.toNat := by
  rw [run_context] at run
  obtain ⟨begun, rfl⟩ := Prod.ext_iff.mp run
  refine ⟨rfl, (Context.beginAll_eq begun).trans ?_⟩
  exact congrArg (Context.mk _ · _) (List.append_nil _)

theorem Attempt.begin_congr {ctx : Context} {bean : String} {go go' : Context → Attempt Value}
    (goes : ∀ inside, ctx.begin bean = .ok inside → go inside = go' inside) :
    (do let inside ← liftExcept (ctx.begin bean); Work.emit (.creating bean); go inside :
        Attempt Value) =
      (do let inside ← liftExcept (ctx.begin bean); Work.emit (.creating bean); go' inside) := by
  cases begins : ctx.begin bean with
  | error e => rfl
  | ok inside =>
    change (do Work.emit (.creating bean); go inside : Attempt Value) = _
    rw [goes inside begins]
    rfl

/-- What holds where a bean is asked for holds where its creation asks for others. -/
def Context.Inherits (G : Context → Prop) : Prop :=
  ∀ ctx bean inside ctx', G ctx → ctx.begin bean = .ok inside → inside.Asks bean ctx' → G ctx'

section

variable {G : Context → Prop} {conduct : Conduct} (inherits : Context.Inherits G)
  (proper : ∀ ctx n m, G ctx → ctx.begin n.bean = .ok n.context →
    (conduct n).run.run m = n.perform.run.run m)
include inherits proper

theorem createBy_eq {ctx : Context} (holds : G ctx) (room : Nat) :
    createBy conduct room ctx = createWithin .full room ctx := by
  induction room generalizing ctx with
  | zero => rfl
  | succ room ih =>
    funext bean d explicit
    unfold createBy createWithin
    refine Attempt.begin_congr fun inside begins => ?_
    have performs : conduct ⟨.full, createBy conduct room, inside, bean, d, explicit⟩ =
        Creation.perform ⟨.full, createBy conduct room, inside, bean, d, explicit⟩ := by
      refine ExceptT.ext (StateT.ext fun m => ?_)
      exact proper ctx _ m holds begins
    rw [performs]
    refine Creation.perform_congr
      (n := ⟨.full, createBy conduct room, inside, bean, d, explicit⟩) fun ctx' asks => ?_
    exact ih (inherits ctx bean inside ctx' holds begins asks)

variable {c : Container}

theorem Attempt.context_bind {α : Type} {start : Outset}
    (outset : ∀ ctx, (context start).run.run c = (.ok ctx, c) → G ctx)
    (go : Creator → Context → Attempt α)
    (goes : ∀ ctx create create', create ctx = create' ctx → go create ctx = go create' ctx) :
    (do let ctx ← context start; go (createBy conduct ctx.room) ctx : Attempt α).run.run c =
      (do let ctx ← context start; go ctx.creator ctx : Attempt α).run.run c := by
  obtain ⟨r, m, run⟩ : ∃ r m, (context start).run.run c = (r, m) := ⟨_, _, rfl⟩
  cases r with
  | error e => rw [run_bind_of_error run, run_bind_of_error run]
  | ok ctx =>
    obtain ⟨rfl, -⟩ := context_ok run
    have creates := createBy_eq inherits proper (outset ctx run) ctx.room
    rw [run_bind_of_ok run, run_bind_of_ok run, goes ctx _ _ creates]
    rfl

theorem Attempt.beanBy_eq (outset : ∀ ctx, (context ⟨none, []⟩).run.run c = (.ok ctx, c) → G ctx)
    (name : String) (explicit : Option (List Value)) :
    (Attempt.beanBy conduct name explicit).run.run c = (Attempt.bean name explicit).run.run c :=
  context_bind inherits proper outset (fun create ctx => fetch create ctx name explicit)
    fun _ _ _ same => by rw [fetch_congr same]

theorem Attempt.dependencyBy_eq {start : Outset}
    (outset : ∀ ctx, (context start).run.run c = (.ok ctx, c) → G ctx) (name : String)
    (point : InjectionPoint) (required : Bool) :
    (Attempt.dependencyBy conduct start name point required).run.run c =
      (Attempt.dependency start name point required).run.run c :=
  context_bind inherits proper outset
    (fun create ctx => Work.resolveDependency (fetcher create ctx) point name required)
    fun _ _ _ same => by unfold fetcher; rw [fetch_congr same]

theorem Attempt.beanOfTypeBy_eq (outset : ∀ ctx m, m.settings = c.settings →
      (context ⟨none, []⟩).run.run m = (.ok ctx, m) → G ctx) (type : BeanType) :
    (Attempt.beanOfTypeBy conduct type).run.run c = (Attempt.beanOfType type).run.run c := by
  have remembers : Realm.Remembers (fun _ => True) fun m => m.settings = c.settings :=
    ⟨fun _ _ _ _ _ => trivial, fun _ _ _ same _ _ _ => same⟩
  obtain ⟨r, m, run⟩ : ∃ r m, (Work.chooseByType type).run c = (r, m) := ⟨_, _, rfl⟩
  have chosen : (ExceptT.mk (Work.chooseByType type) : Attempt String).run.run c = (r, m) := run
  have settings := (remembers.chooseByType type).kept rfl run
  unfold beanOfTypeBy beanOfType
  cases r with
  | error e => rw [run_bind_of_error chosen, run_bind_of_error chosen]
  | ok name =>
    rw [run_bind_of_ok chosen, run_bind_of_ok chosen]
    exact beanBy_eq inherits proper (outset · m settings) name none

end

theorem Request.eachCreation_of_inherits {G : Context → Prop} {P : Creation → Container → Prop}
    {request : Request} {c : Container} (inherits : Context.Inherits G)
    (outset : ∀ ctx m, m.settings = c.settings →
      (Attempt.context request.start).run.run m = (.ok ctx, m) → G ctx)
    (each : ∀ ctx n m, G ctx → ctx.begin n.bean = .ok n.context → P n m) :
    EachCreation P [request] c := by
  intro conduct proper
  have goes (ctx : Context) (n : Creation) (m : Container) (holds : G ctx)
      (begins : ctx.begin n.bean = .ok n.context) :
      (conduct n).run.run m = n.perform.run.run m :=
    proper n m (each ctx n.itself m holds begins)
  have answers : (request.performBy conduct).run c = request.perform.run c := by
    cases request with
    | bean name explicit =>
      exact congrArg (fun r => (Answer.bean r.1, r.2))
        (Attempt.beanBy_eq inherits goes (outset · c rfl) name explicit)
    | beanOfType type =>
      exact congrArg (fun r => (Answer.bean r.1, r.2))
        (Attempt.beanOfTypeBy_eq inherits goes outset type)
    | lookup start name point required =>
      exact congrArg (fun r => (Answer.lookup r.1, r.2))
        (Attempt.dependencyBy_eq inherits goes (outset · c rfl) name point required)
    | _ => rfl
  unfold performAllBy performAll
  rw [Work.run_bind, Work.run_bind, answers]
  rfl

end BeanWiring
