import BeanWiring.Container.Runs
import BeanWiring.Proofs.Effects.Creation

/-!
Every creation of a run. A run can be handed all creations it begins to somebody else; a property
holds of each of them if nobody can make a difference who goes by the creation itself wherever the
property holds of it.
-/
namespace BeanWiring

theorem createWithin_refused {host : Host} {room : Nat} {ctx : Context} {bean : String} {e : BeanError}
    (refused : ctx.begin bean = .error e) (d : Definition) (explicit : Option (List Value))
    (c : Container) :
    (createWithin host (room + 1) ctx bean d explicit).run.run c = (.error e, c) := by
  unfold createWithin
  rw [refused]
  rfl

theorem createWithin_begun {host : Host} {room : Nat} {ctx inside : Context} {bean : String}
    (begins : ctx.begin bean = .ok inside) (d : Definition) (explicit : Option (List Value))
    (c : Container) :
    (createWithin host (room + 1) ctx bean d explicit).run.run c =
      (Creation.mk host (createWithin host room) inside bean d explicit).perform.run.run
        { c with events := c.events ++ [.creating bean] } := by
  have begun := Attempt.run_liftExcept (.ok inside : Except BeanError Context) c
  unfold createWithin
  rw [begins, Attempt.run_bind_of_ok begun, Attempt.run_bind_lift]
  rfl

/-- What becomes of a creation once it has begun. -/
abbrev Conduct := Creation → Attempt Value

def createBy (conduct : Conduct) : (room : Nat) → Creator
  | 0, ctx, _, _, _ => throw (.tooDeep ctx.maxDepth)
  | room + 1, ctx, bean, d, explicit => do
    let inside ← liftExcept (ctx.begin bean)
    Work.emit (.creating bean)
    conduct ⟨.full, createBy conduct room, inside, bean, d, explicit⟩

theorem createBy_perform (room : Nat) : createBy Creation.perform room = createWithin .full room := by
  induction room with
  | zero => rfl
  | succ room ih =>
    funext ctx bean d explicit
    unfold createBy createWithin
    rw [ih]

namespace Attempt

def beanBy (conduct : Conduct) (name : String) (explicit : Option (List Value)) : Attempt Value := do
  let ctx ← context ⟨none, []⟩
  fetch (createBy conduct ctx.room) ctx name explicit

def beanOfTypeBy (conduct : Conduct) (type : BeanType) : Attempt Value := do
  let name ← ExceptT.mk (Work.chooseByType type)
  beanBy conduct name none

def dependencyBy (conduct : Conduct) (start : Outset) (name : String) (point : InjectionPoint)
    (required : Bool) : Attempt Lookup := do
  let ctx ← context start
  Work.resolveDependency (fetcher (createBy conduct ctx.room) ctx) point name required

end Attempt

namespace Request

/-- Answers a request, where `conduct` has all creations that begin. -/
def performBy (conduct : Conduct) : Request → Work Answer
  | .bean name explicit => return .bean (← (Attempt.beanBy conduct name explicit).run)
  | .beanOfType type => return .bean (← (Attempt.beanOfTypeBy conduct type).run)
  | .lookup start name point required =>
    return .lookup (← (Attempt.dependencyBy conduct start name point required).run)
  | request => request.perform

def performAllBy (conduct : Conduct) : List Request → Work (List Answer)
  | [] => pure []
  | request :: rest => return (← request.performBy conduct) :: (← performAllBy conduct rest)

theorem performBy_perform (request : Request) :
    request.performBy Creation.perform = request.perform := by
  cases request <;> simp only [performBy, Attempt.beanBy, Attempt.beanOfTypeBy, Attempt.dependencyBy,
    createBy_perform] <;> rfl

def isAsking : Request → Bool
  | .bean .. | .beanOfType _ | .lookup .. | .isTypeMatch .. | .introspect _ => true
  | _ => false

theorem performBy_of_telling {request : Request} (telling : request.isAsking = false)
    (conduct : Conduct) : request.performBy conduct = request.perform := by
  cases request with
  | bean | beanOfType | lookup => cases telling
  | _ => rfl

def Along (P : Request → Container → Prop) : List Request → Container → Prop
  | [], _ => True
  | request :: rest, c => P request c ∧ Along P rest (request.perform.run c).2

theorem along_of_forall {P : Request → Container → Prop} {requests : List Request}
    (all : ∀ request ∈ requests, ∀ c, P request c) (c : Container) : Along P requests c := by
  induction requests generalizing c with
  | nil => trivial
  | cons request rest ih =>
    refine ⟨all request List.mem_cons_self c, ih (fun other member => ?_) _⟩
    exact all other (List.mem_cons_of_mem request member)

end Request

def Creation.itself (n : Creation) : Creation :=
  { n with host := .full, create := n.context.creator }

/-- `P` holds of every creation that begins while the requests are answered, and of the state in
which it begins: whatever becomes of other creations makes no difference, for there are none. -/
def Request.EachCreation (P : Creation → Container → Prop) (requests : List Request)
    (c : Container) : Prop :=
  ∀ conduct : Conduct,
    (∀ n m, P n.itself m → (conduct n).run.run m = n.perform.run.run m) →
    (Request.performAllBy conduct requests).run c = (Request.performAll requests).run c

namespace Realm

variable {w : Realm} {I : Container → Prop} {P : Creation → Container → Prop} {conduct : Conduct}

def Grants (w : Realm) (I : Container → Prop) (P : Creation → Container → Prop) : Prop :=
  ∀ ctx inside bean d explicit c, w.place ctx → I c → w.asked c bean d →
    ctx.begin bean = .ok inside →
    P ⟨.full, inside.creator, inside, bean, d, explicit⟩
      { c with events := c.events ++ [.creating bean] }

namespace Conducts

theorem createBy (conducts : w.Conducts I) (grants : w.Grants I P)
    (proper : ∀ n m, P n.itself m → (conduct n).run.run m = n.perform.run.run m) (room : Nat) :
    w.Agree I (createBy conduct room) (BeanWiring.createWithin .full room) := by
  induction room with
  | zero => exact fun _ _ _ _ _ _ inv _ => .throw _ inv
  | succ room ih =>
    intro ctx bean d explicit c place inv asked
    refine conducts.beginning place inv asked fun inside began within begun => ?_
    -- The creations begun inside it have this conduct too, and agree by the induction hypothesis.
    have performs := conducts.perform (n := ⟨.full, _, inside, bean, d, explicit⟩) rfl ih
      (Context.begin_path began) within begun (conducts.emit c (.creating bean) inv)
    have same := proper ⟨.full, BeanWiring.createBy conduct room, inside, bean, d, explicit⟩ _
      (grants ctx inside bean d explicit c place inv asked began)
    unfold Attempt.Ends
    rw [same]
    exact performs

theorem decides (conducts : w.Conducts I) {n : Creation} {room : Nat} (full : n.host = .full)
    (within : n.create = BeanWiring.createWithin .full room) (place : w.place n.context)
    (known : w.known n.definition) {c : Container} (inv : I c) :
    (∀ e m, n.call.run.run c = (.error e, m) → I m) ∧
      ∀ call m, n.call.run.run c = (.ok call, m) → call.IsComplete ∧ n.Decides I call m := by
  have hosts := full.symm ▸ conducts.full_self
  have creates := within.symm ▸ conducts.createWithin room
  have calls : Attempt.Ends I c n.call (n.elsewhere n.host n.create).call _ :=
    conducts.call hosts.alike creates place known inv
  exact calls.2

theorem context (start : Outset) :
    Attempt.Agree I (Attempt.context start) (Attempt.context start) fun _ => True := by
  refine .bind .get fun c _ => ?_
  split <;> exact .except fun _ _ => trivial

theorem beanBy (conducts : w.Conducts I) (anywhere : ∀ ctx, w.place ctx) (grants : w.Grants I P)
    (proper : ∀ n m, P n.itself m → (conduct n).run.run m = n.perform.run.run m) (name : String)
    (explicit : Option (List Value)) :
    Attempt.Agree I (Attempt.beanBy conduct name explicit) (Attempt.bean name explicit)
      fun _ => True :=
  .bind (context _) fun ctx _ =>
    conducts.fetch (conducts.createBy grants proper ctx.room) (anywhere ctx) name explicit

theorem withDefinition (conducts : w.Conducts I) (name : String) {work : Definition → Work Answer}
    (each : ∀ d, w.known d → Work.Agree I (work d) (work d) fun _ => True) :
    Work.Agree I (Request.withDefinition name work) (Request.withDefinition name work)
      fun _ => True := by
  refine .bind .get fun c inv => ?_
  split
  · rename_i d found
    exact each d (conducts.registered c name d inv found)
  · exact .pure trivial

/-- Where creation may go on anywhere, a question is answered alike by all who go by the creations
with `P`, and upholds `I`. -/
theorem asking (conducts : w.Conducts I) (anywhere : ∀ ctx, w.place ctx) (grants : w.Grants I P)
    (proper : ∀ n m, P n.itself m → (conduct n).run.run m = n.perform.run.run m) {request : Request}
    (asks : request.isAsking = true) :
    Work.Agree I (request.performBy conduct) request.perform fun _ => True := by
  cases request with
  | bean name explicit =>
    exact .bind (conducts.beanBy anywhere grants proper name explicit) fun _ _ => .pure trivial
  | beanOfType type =>
    have chooses : Attempt.Agree I (ExceptT.mk (Work.chooseByType type) : Attempt String)
        (ExceptT.mk (Work.chooseByType type)) fun _ => True :=
      (conducts.chooseByType type).mono fun _ _ _ _ => trivial
    have answers : Attempt.Agree I (Attempt.beanOfTypeBy conduct type) (Attempt.beanOfType type)
        fun _ => True := .bind chooses fun name _ => conducts.beanBy anywhere grants proper name none
    exact .bind answers fun _ _ => .pure trivial
  | lookup start name point required =>
    have answers : Attempt.Agree I (Attempt.dependencyBy conduct start name point required)
        (Attempt.dependency start name point required) fun _ => True := by
      refine .bind (context start) fun ctx _ => .lift ?_
      have fetches := fun other =>
        conducts.fetch (conducts.createBy grants proper ctx.room) (anywhere ctx) other none
      exact conducts.resolveDependency fetches point name required
    exact .bind answers fun _ _ => .pure trivial
  | isTypeMatch name type => exact .bind (conducts.isTypeMatch name type) fun _ _ => .pure trivial
  | introspect name =>
    refine conducts.withDefinition name fun d known => ?_
    exact .bind (conducts.introspect known) fun _ _ => .pure trivial
  | _ => cases asks

theorem asked (conducts : w.Conducts I) (anywhere : ∀ ctx, w.place ctx) {request : Request}
    (asks : request.isAsking = true) :
    Work.Agree I request.perform request.perform fun _ => True := by
  have grants : w.Grants I fun _ _ => True := fun _ _ _ _ _ _ _ _ _ _ => trivial
  have answers : Work.Agree I (request.performBy Creation.perform) request.perform fun _ => True :=
    conducts.asking anywhere grants (fun _ _ _ => rfl) asks
  rwa [Request.performBy_perform] at answers

end Conducts

end Realm

namespace Request

theorem eachCreation {P : Creation → Container → Prop} {J : Container → Prop}
    {allowed : Request → Container → Prop}
    -- The realm depends on the state: after each request there may be another one, upheld until the
    -- next.
    (realms : ∀ request c, J c → allowed request c → ∃ w I, Realm.Conducts w I ∧
      (∀ ctx, w.place ctx) ∧ w.Grants I P ∧ I c ∧ ∀ m, I m → J m)
    (telling : ∀ request c, J c → allowed request c → request.isAsking = false →
      J (request.perform.run c).2)
    {requests : List Request} {c : Container} (holds : J c) (run : Along allowed requests c) :
    EachCreation P requests c ∧ J ((performAll requests).run c).2 := by
  induction requests generalizing c with
  | nil => exact ⟨fun _ _ => rfl, holds⟩
  | cons request rest ih =>
    have step : J (request.perform.run c).2 ∧ ∀ conduct : Conduct,
        (∀ n m, P n.itself m → (conduct n).run.run m = n.perform.run.run m) →
        (request.performBy conduct).run c = request.perform.run c := by
      cases asks : request.isAsking with
      | false =>
        exact ⟨telling request c holds run.1 asks, fun conduct _ => by
          rw [performBy_of_telling asks]⟩
      | true =>
        obtain ⟨w, I, conducts, anywhere, grants, inv, back⟩ := realms request c holds run.1
        have kept := (conducts.asked anywhere asks c inv).2.1
        exact ⟨back _ kept, fun conduct proper =>
          (conducts.asking anywhere grants proper asks c inv).1⟩
    obtain ⟨later, final⟩ := ih step.1 run.2
    refine ⟨fun conduct proper => ?_, final⟩
    have first := step.2 conduct proper
    have others := later conduct proper
    unfold performAllBy performAll
    rw [Work.run_bind, Work.run_bind, Work.run_bind, Work.run_bind, first, others]

end Request

end BeanWiring
