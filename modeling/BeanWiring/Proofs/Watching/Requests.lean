import BeanWiring.Proofs.Lawful
import BeanWiring.Proofs.Watching.Creation

/-!
Requests made in two containers that differ in the factory methods they remember. What is told is noted
alike in both; what is asked is answered alike, as long as what is invoked is honest.
-/
namespace BeanWiring

variable {w : Watch} {given : Prop} {c c' : Container} {known : List Definition}

theorem Attempt.context_same (start : Outset) :
    Same w given (context start) (w.Still fun _ => True) := by
  refine .get_bind (fun _ _ => rfl) fun c => ?_
  split <;> exact Same.except.mono fun _ _ _ _ still => ⟨still.1, trivial⟩

section Asking

variable (opens : w.Opens)
include opens

theorem Attempt.bean_same (name : String) (explicit : Option (List Value)) :
    Same w given (bean name explicit) (w.Still fun _ => True) := by
  refine .bind (context_same _) fun ctx => ?_
  have fetches : Same w (given ∧ True) (fetch (createWithin .full ctx.room) ctx name explicit) _ :=
    fetch_same opens (createWithin_same opens ctx.room) ctx name explicit
  exact fetches.mono fun _ _ _ _ still => ⟨still.1, trivial⟩

theorem Request.perform_same {request : Request} (asks : request.isAsking = true)
    (predicts : ∀ name, request ≠ .introspect name) :
    Work.Same w given request.perform (w.Still fun _ => True) := by
  cases request with
  | bean name explicit =>
    exact .bind (Attempt.bean_same opens name explicit).run fun _ => .pure fun _ => trivial
  | beanOfType type =>
    have chooses : Attempt.Same w given (ExceptT.mk (Work.chooseByType type) : Attempt String)
        (w.Still fun _ => True) := by
      refine (Work.chooseByType_same opens type).mono fun _ r c c' still => ?_
      cases r with
      | error e => exact still.1
      | ok name => exact still
    have answers : Attempt.Same w given (Attempt.beanOfType type) (w.Still fun _ => True) :=
      .bind chooses fun name => Attempt.bean_same opens name none
    exact .bind answers.run fun _ => .pure fun _ => trivial
  | lookup start name point required =>
    have answers : Attempt.Same w given (Attempt.dependency start name point required)
        (w.Still fun _ => True) := by
      refine .bind (Attempt.context_same start) fun ctx => ?_
      refine .lift (Work.resolveDependency_same opens (fun other => ?_) point name required)
      exact Attempt.fetcher_same opens (createWithin_same opens ctx.room) ctx other
    exact .bind answers.run fun _ => .pure fun _ => trivial
  | isTypeMatch name type =>
    exact .bind (Work.isTypeMatch_same opens name type) fun _ => .pure fun _ => trivial
  | introspect name => exact absurd rfl (predicts name)
  | _ => cases asks

end Asking

namespace Request

theorem register_blind (name : String) (d : Definition) : Work.Blind (Work.register name d) := by
  have replaces : Work.Blind (do
      let replaced := (← get).definitions.contains name
      modify fun c => { c with definitions := c.definitions.insert name d }
      if replaced then
        Work.emit (.overriding name)
        modify fun c => { c with singletons := c.singletons.erase name }) := by
    refine .get_bind (fun _ _ => rfl) fun c => .bind (fun _ _ => rfl) fun _ => ?_
    split
    · exact .bind (fun _ _ => rfl) fun _ _ _ => rfl
    · exact .pure ()
  unfold Work.register
  split
  · exact .bind (fun _ _ => rfl) fun _ => replaces
  · exact replaces

theorem withDefinition_blind (name : String) {work : Definition → Work Answer}
    (each : ∀ d, Work.Blind (work d)) : Work.Blind (withDefinition name work) := by
  refine .get_bind (fun _ _ => rfl) fun c => ?_
  split
  · exact each _
  · exact .pure _

theorem telling_blind {request : Request} (telling : request.isAsking = false) :
    Work.Blind request.perform := by
  cases request with
  | build d => exact .bind (fun _ _ => rfl) fun _ => .pure _
  | define name d =>
    have defines : Work.Blind (Work.define name d) :=
      .bind (fun _ _ => rfl) fun numbered => register_blind name numbered
    exact .bind defines fun _ => .pure _
  | clearResolution name =>
    exact withDefinition_blind name fun d => .bind (fun _ _ => rfl) fun _ => .pure _
  | bean | beanOfType | lookup | isTypeMatch | introspect => cases telling
  | registerClass | registerSingleton | setProperty | registerDependent =>
    exact .bind (fun _ _ => rfl) fun _ => .pure _

theorem factoryMethods_of_telling {request : Request} (telling : request.isAsking = false)
    (c : Container) : (request.perform.run c).2.factoryMethods = c.factoryMethods :=
  congrArg (·.2.factoryMethods) (telling_blind telling c c.factoryMethods)

theorem enrolls_of_asking {request : Request} (asks : request.isAsking = true) (c : Container) :
    request.enrolls c = [] := by
  cases request with
  | build | define => cases asks
  | _ => rfl

end Request

namespace Container

theorem Directed.later (directed : c.Directed known) (lawful : c.Lawful known) {new : List Definition}
    (sound : c'.Sound (known ++ new)) (same : c'.factoryMethods = c.factoryMethods) :
    c'.Directed (known ++ new) := by
  intro d member e remembered
  unfold factoryMethod? at remembered
  rw [same] at remembered
  obtain ⟨d', member', serial, -⟩ := lawful.remembers d.serial e remembered
  cases sound.eq_of_serial_eq (List.mem_append_left _ member') member serial
  exact directed d member' e remembered

theorem Directed.perform (directed : c.Directed known) (lawful : c.Lawful known) (request : Request) :
    (request.perform.run c).2.Directed (known ++ request.enrolls c) := by
  by_cases asks : request.isAsking = true
  · rw [Request.enrolls_of_asking asks, List.append_nil]
    by_cases predicts : ∀ name, request ≠ .introspect name
    · -- A watch of one container, in which nothing is of concern.
      let w : Watch := ⟨known, fun _ => False, c, c⟩
      have keeps : w.Keeps c c :=
        ⟨lawful, rfl, rfl, fun _ none => none, fun _ none => none, directed,
          fun _ _ means => means.concerned.elim⟩
      have opens : w.Opens :=
        ⟨⟨rfl, .refl c, keeps, keeps, fun _ => .refl _ _⟩,
          fun _ _ _ _ means => means.concerned.elim⟩
      have calm : w.Calm (request.perform.run c).2 :=
        ⟨fun _ _ _ _ _ _ means => means.concerned.elim, fun _ _ _ _ _ _ means => means.concerned.elim⟩
      have same : Work.Same w True request.perform _ := Request.perform_same opens asks predicts
      exact (same.alike trivial c c opens.pair calm).2.1.plain.directed
    · simp only [ne_eq, not_forall, not_not] at predicts
      obtain ⟨name, rfl⟩ := predicts
      refine Request.introspect_leaves directed fun d found => ?_
      obtain ⟨-, finds, m, fills, state⟩ := Work.introspect_finds lawful.toSound d
      have filled := directed.fills lawful.toSound fills
      rw [state]
      cases answer : ((Work.introspect d).run c).1 with
      | none => exact filled
      | some e =>
        intro d' member e' remembered
        change (m.factoryMethods.insert d.serial e).get? d'.serial = some e' at remembered
        rw [Registry.get?_insert] at remembered
        split at remembered
        · rename_i same
          cases lawful.eq_of_serial_eq (lawful.registered name d found) member same
          cases remembered
          obtain ⟨k, -, listed⟩ := (finds e).mp answer
          exact BeanClass.isStatic_of_uniqueMethod? listed
        · exact filled d' member e' remembered
  · have telling := Bool.eq_false_iff.mpr asks
    exact directed.later lawful (lawful.perform request).toSound
      (Request.factoryMethods_of_telling telling c)

theorem Reachable.directed (reachable : Reachable known c) : c.Directed known := by
  induction reachable with
  | fresh => exact fun _ member => absurd member List.not_mem_nil
  | step request reachable ih => exact ih.perform reachable.lawful request

end Container

end BeanWiring
