import BeanWiring.Proofs.Conduct
import BeanWiring.Proofs.Effects.Everywhere
import BeanWiring.Proofs.Registry

/-!
The states a container can get into, from a new one, by requests. Each is told with the definitions
that were built on the way, whether they are still registered or not.
-/
namespace BeanWiring

def Request.enrolls : Request → Container → List Definition
  | .build d, c | .define _ d, c =>
    ((DeclaredValue.numberedDefinition d).run c.built).2.drop c.built.length
  | _, _ => []

theorem Work.run_register (name : String) (d : Definition) (c : Container) :
    ((Work.register name d).run c).2.definitions = c.definitions.insert name d ∧
    (c.definitions.contains name = true →
      ((Work.register name d).run c).2.singletons = c.singletons.erase name) ∧
    (c.definitions.contains name = false →
      ((Work.register name d).run c).2.singletons = c.singletons) ∧
    ((Work.register name d).run c).2.resolutions = c.resolutions ∧
    ((Work.register name d).run c).2.factoryMethods = c.factoryMethods ∧
    ((Work.register name d).run c).2.built = c.built ∧
    ((Work.register name d).run c).2.decisions = c.decisions ∧
    ((Work.register name d).run c).2.invocations = c.invocations := by
  unfold Work.register
  cases d.beanClass <;> simp only [Work.run_bind] <;> split
  all_goals
    rename_i replaced
    refine ⟨rfl, fun same => ?_, fun same => ?_, rfl, rfl, rfl, rfl, rfl⟩
    · first | rfl | exact absurd same replaced
    · first | rfl | exact absurd (same.symm.trans replaced) nofun

theorem Request.withDefinition_cases (name : String) (work : Definition → Work Answer)
    (c : Container) :
    (c.definitions.get? name = none ∧ (withDefinition name work).run c = (.done, c)) ∨
    ∃ d, c.definitions.get? name = some d ∧
      (withDefinition name work).run c = (work d).run c := by
  unfold withDefinition
  rw [Work.run_bind, show (get : Work Container).run c = (c, c) from rfl]
  cases found : c.definitions.get? name with
  | none => exact .inl ⟨rfl, rfl⟩
  | some d => exact .inr ⟨d, rfl, rfl⟩

section leaves

variable {P : Container → Prop} {name : String} {c : Container}

theorem Request.withDefinition_leaves {work : Definition → Work Answer} (unchanged : P c)
    (each : ∀ d, c.definitions.get? name = some d → P ((work d).run c).2) :
    P ((withDefinition name work).run c).2 := by
  rcases withDefinition_cases name work c with ⟨-, run⟩ | ⟨d, found, run⟩
  · rw [run]
    exact unchanged
  · rw [run]
    exact each d found

theorem Request.introspect_leaves (unchanged : P c)
    (each : ∀ d, c.definitions.get? name = some d → P ((Work.introspect d).run c).2) :
    P ((introspect name).perform.run c).2 :=
  withDefinition_leaves unchanged each

theorem Request.clearResolution_leaves (unchanged : P c)
    (each : ∀ d, c.definitions.get? name = some d →
      P { c with resolutions := c.resolutions.erase d.serial }) :
    P ((clearResolution name).perform.run c).2 :=
  withDefinition_leaves unchanged each

end leaves

namespace Container

theorem ofSettings_ok {settings : Settings} {c : Container} (made : ofSettings settings = .ok c) :
    ∃ valid, c = .new valid := by
  unfold ofSettings at made
  cases valid : settings.validate with
  | error e =>
    rw [valid] at made
    cases made
  | ok settings =>
    rw [valid] at made
    cases made
    exact ⟨settings, rfl⟩

inductive Reachable : (known : List Definition) → Container → Prop
  | fresh {settings : Settings} {c : Container} : ofSettings settings = .ok c → Reachable [] c
  | step {known : List Definition} {c : Container} (request : Request) :
      Reachable known c → Reachable (known ++ request.enrolls c) (request.perform.run c).2

theorem Reachable.initially : Reachable [] (.new .initial) :=
  .fresh (show ofSettings .initial = _ from rfl)

/-- What holds of the definitions a container was given and of what it keeps for them. -/
structure Sound (known : List Definition) (c : Container) : Prop where
  built : c.built = known
  numbered : Numbered known
  registered : ∀ name d, c.definitions.get? name = some d → d ∈ known
  owned : ∀ serial r, c.resolutions.get? serial = some r →
    ∃ d ∈ known, d.serial = serial ∧ r.ChosenFor d

namespace Sound

variable {known : List Definition} {c c' : Container}

theorem new (settings : Settings) : Sound [] (.new settings) where
  built := rfl
  numbered := .nil
  registered _ d found := absurd (show (none : Option Definition) = some d from found) nofun
  owned _ r found := absurd (show (none : Option Resolution) = some r from found) nofun

theorem frame (sound : Sound known c) (definitions : c'.definitions = c.definitions)
    (resolutions : c'.resolutions = c.resolutions) (built : c'.built = c.built) :
    Sound known c' where
  built := built.trans sound.built
  numbered := sound.numbered
  registered := definitions ▸ sound.registered
  owned := resolutions ▸ sound.owned

theorem catalogued (sound : Sound known c) : Catalogued known := sound.numbered.catalogued

theorem eq_of_serial_eq (sound : Sound known c) {d d' : Definition} (member : d ∈ known)
    (member' : d' ∈ known) (same : d.serial = d'.serial) : d = d' :=
  sound.numbered.eq_of_serial_eq member member' same

theorem chosenFor (sound : Sound known c) {d : Definition} {r : Resolution} (member : d ∈ known)
    (kept : c.resolution? d = some r) : r.ChosenFor d := by
  obtain ⟨d', member', same, chosen⟩ := sound.owned d.serial r kept
  exact sound.eq_of_serial_eq member' member same ▸ chosen

theorem keptFor (sound : Sound known c) {d : Definition} {r : Resolution} (member : d ∈ known)
    (kept : c.resolution? d = some r) : r.KeptFor d :=
  (sound.chosenFor member kept).keptFor

theorem keepResolution (sound : Sound known c) {d : Definition} {r : Resolution}
    (member : d ∈ known) (chosen : r.ChosenFor d) :
    Sound known (c.withResolution d r) := by
  refine { sound with owned := ?_ }
  intro serial r' found
  change (c.resolutions.insert d.serial r).get? serial = some r' at found
  rw [Registry.get?_insert] at found
  split at found
  · rename_i same
    cases found
    exact ⟨d, member, same, chosen⟩
  · exact sound.owned serial r' found

theorem upheld (catalogued : Catalogued known) : Upheld (· ∈ known) (Sound known) where
  registered := fun _ name d sound => sound.registered name d
  inside := catalogued
  kept := fun _ _ _ sound => sound.keptFor
  emit := fun _ _ sound => sound.frame rfl rfl rfl
  suppress := fun _ _ sound => sound.frame rfl rfl rfl
  makeObject := fun _ sound => sound.frame rfl rfl rfl
  nextInnerName := fun _ sound => sound.frame rfl rfl rfl
  invoke := fun _ _ sound => sound.frame rfl rfl rfl
  registerDependent := fun _ _ _ sound => sound.frame rfl rfl rfl
  registerSingleton := fun _ _ _ sound => sound.frame rfl rfl rfl
  rememberMethod := fun _ _ _ sound _ => sound.frame rfl rfl rfl
  keepResolution := fun _ _ _ sound => sound.keepResolution

theorem enroll (sound : Sound known c) (d : Definition) :
    Sound (known ++ (Request.build d).enrolls c) ((Work.enroll d).run c).2 ∧
      ((Work.enroll d).run c).1 ∈ known ++ (Request.build d).enrolls c := by
  obtain ⟨rfl, numbered, registered, owned⟩ := sound
  obtain ⟨grows, numbered, inside⟩ := DeclaredValue.numberedDefinition_builds d c.built numbered
  have all : c.built ++ (Request.build d).enrolls c = ((Work.enroll d).run c).2.built :=
    List.prefix_iff_eq_append.mp grows
  rw [all]
  refine ⟨⟨rfl, numbered, fun name d' found => grows.subset (registered name d' found), ?_⟩, ?_⟩
  · intro serial r found
    obtain ⟨d', member, keeps⟩ := owned serial r found
    exact ⟨d', grows.subset member, keeps⟩
  · exact inside _ (by rw [DeclaredValue.familyOfDefinition_eq]; exact List.mem_cons_self)

theorem register (sound : Sound known c) (name : String) {d : Definition} (member : d ∈ known) :
    Sound known ((Work.register name d).run c).2 := by
  obtain ⟨definitions, -, -, resolutions, -, built, -⟩ := Work.run_register name d c
  refine ⟨built.trans sound.built, sound.numbered, ?_, resolutions ▸ sound.owned⟩
  intro other d' found
  rw [definitions, Registry.get?_insert] at found
  split at found
  · cases found
    exact member
  · exact sound.registered other d' found

theorem perform (sound : Sound known c) (request : Request) :
    Sound (known ++ request.enrolls c) (request.perform.run c).2 := by
  have other {c' : Container} (kept : Sound known c') : Sound (known ++ []) c' := by
    rwa [List.append_nil]
  have asked (asks : request.isAsking = true) : Sound known (request.perform.run c).2 :=
    ((upheld sound.catalogued).upholds.conducts.asked (fun _ => trivial) asks c sound).2.1
  cases request with
  | build d => exact (sound.enroll d).1
  | define name d => exact (sound.enroll d).1.register name (sound.enroll d).2
  | registerClass beanClass =>
    exact other (sound.frame rfl rfl rfl)
  | registerSingleton name value =>
    exact other (sound.frame rfl rfl rfl)
  | setProperty key value =>
    exact other (sound.frame rfl rfl rfl)
  | registerDependent dependency dependent =>
    exact other (sound.frame rfl rfl rfl)
  | bean | beanOfType | lookup | isTypeMatch | introspect => exact other (asked rfl)
  | clearResolution name =>
    refine other (Request.clearResolution_leaves sound fun d _ => { sound with owned := ?_ })
    intro serial r held
    rw [Registry.get?_erase] at held
    split at held
    · cases held
    · exact sound.owned serial r held

end Sound

theorem Reachable.sound {known : List Definition} {c : Container} (reachable : Reachable known c) :
    Sound known c := by
  induction reachable with
  | fresh made =>
    obtain ⟨settings, rfl⟩ := ofSettings_ok made
    exact .new settings
  | step request _ ih => exact ih.perform request

end Container

end BeanWiring
