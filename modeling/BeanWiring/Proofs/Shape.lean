import BeanWiring.Proofs.Conversion
import BeanWiring.Proofs.Reachable

/-!
The shape of what is kept. Every resolution in a container that can be reached keeps a match of the
declared values of its definition with all parameters of its executable, so replaying it leaves no
parameter out and no call is ever made with a wrong number of arguments.
-/
namespace BeanWiring

namespace Attempt

variable {host : Host} {create : Creator} {ctx : Context} {bean : String} {e : Executable}
  {index : Nat} {parameters : List Parameter} {recipes : List Recipe} {arguments : List Value}
  {c c' : Container}

theorem fit_of_replayFrom (length : recipes.length = parameters.length)
    (replayed : (replayFrom host create ctx bean e index parameters recipes).run.run c =
      (.ok arguments, c')) : Parameter.Fit parameters arguments := by
  induction parameters generalizing index recipes arguments c c' with
  | nil =>
    have none : recipes = [] := List.eq_nil_of_length_eq_zero length
    subst none
    rw [← (run_pure_eq_ok.mp replayed).1]
    exact .nil
  | cons parameter parameters ih =>
    cases recipes with
    | nil => cases length
    | cons recipe recipes =>
      obtain ⟨value, m, -, rest⟩ := run_bind_eq_ok.mp replayed
      split at rest
      · cases rest
      · rename_i argument converted
        obtain ⟨later, m', others, last⟩ := run_bind_eq_ok.mp rest
        rw [← (run_pure_eq_ok.mp last).1]
        have fits := Value.fits_of_convert (Value.convertArgument_eq_ok.mp converted)
        exact .cons fits (ih (Nat.succ.inj length) others)

theorem length_of_replayFrom (length : recipes.length = parameters.length)
    (replayed : (replayFrom host create ctx bean e index parameters recipes).run.run c =
      (.ok arguments, c')) : arguments.length = parameters.length :=
  (fit_of_replayFrom length replayed).length_eq.symm

end Attempt

namespace Container.Reachable

/-- Whatever was asked of a container: its definitions and those inside them are known, each
resolution belongs to a known definition, and one for a known definition keeps one argument or
recipe for each parameter of its executable, which is no void method if the definition names a
factory method. It keeps recipes just if a parameter was satisfied from the container or takes a
holder whose value is found anew, and what they resolve is what holders declare. So a replay has an
argument for each parameter, and no surroundings are asked for a call with too few or too many
arguments: what they would do then makes no difference. -/
theorem resolution_shape {known : List Definition} {c : Container} (reachable : Reachable known c) :
    (∀ name d, c.definitions.get? name = some d → d ∈ known) ∧ Catalogued known ∧
    (∀ serial r, c.resolutions.get? serial = some r → ∃ d ∈ known, d.serial = serial) ∧
    (∀ d ∈ known, ∀ r, c.resolution? d = some r → ∃ values s b, r.Keeps d values s b ∧
      r.arguments.length = r.executable.arity ∧
      (d.factoryMethod.isSome → r.executable.returnType.isVoid = false) ∧
      (r.arguments.isPrepared = true ↔ (∃ a ∈ b, a.provenance.isAutowired = true) ∨
        ∃ slot h, some (slot, h) ∈ values.taken s.autowiring r.executable ∧
          h.declared.isRenewed = true) ∧
      ∀ recipes, r.arguments = .prepared recipes →
        (∀ source, .declared source ∈ recipes → ∃ h ∈ d.arguments.holders, h.value = source) ∧
        ∀ host create ctx bean m m' arguments,
          (Attempt.replay host create ctx bean r.executable recipes).run.run m =
            (.ok arguments, m') → arguments.length = r.executable.arity) ∧
    ∀ strategy : String → Executable → Option Value → List Value → Work (Except String Value),
      (∀ bean e target arguments, arguments.length = e.arity →
        strategy bean e target arguments = Work.instantiate bean e target arguments) →
      ∀ room ctx,
        (∀ name explicit,
          (Attempt.fetch (createWithin { Host.full with instantiate := strategy } room) ctx name
            explicit).run.run c =
          (Attempt.fetch (createWithin .full room) ctx name explicit).run.run c) ∧
        ∀ bean, ∀ d ∈ known, ∀ explicit,
          (createWithin { Host.full with instantiate := strategy } room ctx bean d explicit).run.run
            c =
          (createWithin .full room ctx bean d explicit).run.run c := by
  have sound := reachable.sound
  refine ⟨sound.registered, sound.catalogued, ?_, ?_, ?_⟩
  · intro serial r kept
    obtain ⟨d, member, same, -⟩ := sound.owned serial r kept
    exact ⟨d, member, same⟩
  · intro d member r kept
    obtain ⟨values, s, b, keeps⟩ := sound.keptFor member kept
    refine ⟨values, s, b, keeps, keeps.length_eq, keeps.notVoid, keeps.isPrepared_iff, ?_⟩
    intro recipes prepared
    refine ⟨fun source => keeps.exists_holder prepared, ?_⟩
    intro host create ctx bean m m' arguments replayed
    have length := keeps.length_eq
    rw [prepared] at length
    exact Attempt.length_of_replayFrom length replayed
  · intro strategy same room ctx
    have upheld := Sound.upheld sound.catalogued
    have creates := upheld.createWithin (upheld.full_agree strategy same) room
    constructor
    · intro name explicit
      exact (upheld.fetch creates ctx name explicit c sound).1
    · intro bean d member explicit
      exact (creates ctx bean d explicit member c sound).1

theorem resolution_shape_of_label :
    let e : Executable := ⟨.plainClass "Label", .constructor, true, [⟨.string, none⟩],
      .makes (.plainClass "Label"), none⟩
    let d : Definition := { Definition.initial .initial with
      serial := 1
      beanClass := some ⟨.plainClass "Label", [e], []⟩
      arguments := ⟨[], [⟨.value (.str "a"), none, none, none⟩]⟩ }
    let defined := ((Request.define "label" d).perform.run (.new .initial)).2
    let c := ((Request.bean "label" none).perform.run defined).2
    ∃ r, c.resolution? d = some r ∧ r.arguments.isPrepared = true ∧ r.arguments.length = 1 := by
  intro e d defined c
  have fresh := Reachable.initially
  have reachable := (fresh.step (.define "label" d)).step (.bean "label" none)
  have kept : c.resolution? d = some ⟨e, .prepared [.declared (.value (.str "a"))]⟩ := rfl
  obtain ⟨-, -, -, shape, -⟩ := resolution_shape reachable
  obtain ⟨values, s, b, -, length, -⟩ := shape d (List.mem_singleton_self d) _ kept
  exact ⟨_, kept, rfl, length⟩

end Container.Reachable

end BeanWiring
