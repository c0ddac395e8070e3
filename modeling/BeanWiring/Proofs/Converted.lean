import BeanWiring.Proofs.Conversion
import BeanWiring.Proofs.Literal
import BeanWiring.Proofs.Reachable

/-!
Converted values in holders. A search passes them on as they are, and so does the replay of arguments
kept as values. A replay of recipes treats them like any kept value: it puts properties into a text
and converts what comes of it once more.
-/
namespace BeanWiring

def ArgumentValues.TakesConverted (values : ArgumentValues ResolvedValue) (autowiring : Bool)
    (e : Executable) (index : Nat) (v : Value) : Prop :=
  ∃ slot h, (values.taken autowiring e)[index]? = some (some (slot, h)) ∧ h.converted = some v

theorem Binding.Follows.getElem?_of_converted {bean : String} {e : Executable} {index : Nat}
    {parameters : List Parameter} {taken : List (Option (HolderSlot × Holder ResolvedValue))}
    {b : Binding} (follows : Follows bean e index parameters taken b) {i : Nat} {slot : HolderSlot}
    {h : Holder ResolvedValue} {v : Value} (takes : taken[i]? = some (some (slot, h)))
    (converted : h.converted = some v) :
    ∃ a, b[i]? = some a ∧ a.argument = v ∧ a.recipe = .value v := by
  induction follows generalizing i with
  | nil => cases takes
  | declared made _ ih =>
    cases i with
    | zero =>
      cases takes
      rcases ofHolder_eq_ok.mp made with ⟨w, same, rfl⟩ | ⟨none, -⟩
      · cases same.symm.trans converted
        exact ⟨_, rfl, rfl, rfl⟩
      · cases none.symm.trans converted
    | succ i => exact ih takes
  | autowired _ _ ih =>
    cases i with
    | zero => cases takes
    | succ i => exact ih takes

theorem Attempt.evaluate_ok {text : String} {value : Value} {c c' : Container}
    (run : (evaluate text).run.run c = (.ok value, c')) :
    ∃ put, Placeholder.substitute c.properties (Placeholder.pieces text.toList) = .ok put ∧
      value = .str (String.ofList put) := by
  obtain ⟨_, _, got, rest⟩ := run_bind_eq_ok.mp run
  cases got
  split at rest
  · rename_i put done
    exact ⟨put, done, (run_pure_eq_ok.mp rest).1.symm⟩
  · cases rest

theorem Value.replayed_eq_iff {host : Host} {create : Creator} {ctx : Context} {bean : String}
    {point : InjectionPoint} {v value argument : Value} {type : BeanType} {c c' : Container}
    (full : host.evaluate = Attempt.evaluate)
    (given :
      (Attempt.replayRecipe host create ctx bean point (.value v)).run.run c = (.ok value, c'))
    (converted : value.convert type = .ok argument) :
    argument = v ↔ type.fits v = true ∧ v.IsLiteral c.properties := by
  have other (same : value = v) : argument = v ↔ type.fits v = true := by
    subst same
    constructor
    · rintro rfl
      exact fits_of_convert converted
    · intro fits
      exact Except.ok.inj (converted.symm.trans (convert_of_fits fits))
  cases v with
  | str text =>
    have evaluated : (Attempt.evaluate text).run.run c = (.ok value, c') := by
      rw [← full]
      exact given
    obtain ⟨put, done, rfl⟩ := Attempt.evaluate_ok evaluated
    simp only [IsLiteral, done]
    constructor
    · rintro rfl
      have fits := fits_of_convert converted
      have again := convert_of_fits
        (BeanType.fits_of_runtimeType (w := .str (String.ofList put)) fits rfl)
      have same := Value.str.inj (Except.ok.inj (converted.symm.trans again))
      exact ⟨fits, by rw [same, String.toList_ofList]⟩
    · rintro ⟨fits, literal⟩
      have same : Value.str (String.ofList put) = .str text := by
        rw [Except.ok.inj literal, String.ofList_toList]
      exact (other same).mpr fits
  | _ =>
    have same := (Attempt.run_pure_eq_ok.mp given).1.symm
    exact (other same).trans (and_iff_left trivial).symm

theorem Upheld.and_properties {D : Definition → Prop} {I : Container → Prop} (upheld : Upheld D I)
    (properties : Registry String String) : Upheld D fun c => I c ∧ c.properties = properties :=
  upheld.and fun _ _ _ same _ held => same.trans held

namespace Resolution.Keeps

variable {d : Definition} {values : ArgumentValues ResolvedValue} {s : Work.Setting} {b : Binding}

theorem argument_of_converted {r : Resolution} (keeps : r.Keeps d values s b) {index : Nat}
    {v : Value}
    (takes : values.TakesConverted s.autowiring r.executable index v) :
    b.arguments[index]? = some v ∧ (b.map (·.recipe))[index]? = some (.value v) := by
  obtain ⟨slot, h, taken, converted⟩ := takes
  obtain ⟨a, bound, argument, recipe⟩ := keeps.follows.getElem?_of_converted taken converted
  simp [Binding.arguments, bound, argument, recipe]

end Resolution.Keeps

namespace Container.Reachable

/-- A creation that searches passes a converted value on as it is. A replay of kept arguments does
so too, but a replay of recipes only if the value fits the parameter and its text has nothing to put
properties into. -/
theorem converted_argument {known : List Definition} {c c' : Container} {n : Creation} {call : Call}
    {room : Nat} (reachable : Reachable known c) (full : n.host = .full)
    (within : n.create = createWithin .full room) (member : n.definition ∈ known)
    (ungiven : n.explicit = none) (run : n.call.run.run c = (.ok call, c')) :
    ∃ m, (m = c ∨ ∃ target, n.factoryTarget.run.run c = (.ok target, m)) ∧
      ((m.resolution? n.definition = none ∧ ∃ values s b, n.Found call values s b c' ∧
        ∀ index v, values.TakesConverted s.autowiring call.executable index v →
          call.arguments[index]? = some v) ∨
      ∃ r, m.resolution? n.definition = some r ∧ call.executable = r.executable ∧
        r.KeptFor n.definition ∧ ∀ values s b, r.Keeps n.definition values s b →
          ∀ index v parameter, values.TakesConverted s.autowiring r.executable index v →
            r.executable.parameters[index]? = some parameter →
            (r.arguments.isPrepared = false → call.arguments[index]? = some v) ∧
            (r.arguments.isPrepared = true → (call.arguments[index]? = some v ↔
              parameter.type.fits v = true ∧ v.IsLiteral c.properties))) := by
  have sound := reachable.sound
  have upheld := (Sound.upheld sound.catalogued).and_properties c.properties
  have hosts := full.symm ▸ upheld.full_self
  have creates := within.symm ▸ upheld.createWithin upheld.full_self room
  have targets : Attempt.Agree _ n.factoryTarget (n.elsewhere n.host n.create).factoryTarget _ :=
    upheld.factoryTarget creates
  obtain ⟨m, reached, decided⟩ := Creation.call_ok ungiven run
  have inv : Sound known m ∧ m.properties = c.properties := by
    rcases reached with rfl | ⟨target, targeted⟩
    · exact ⟨sound, rfl⟩
    · exact targets.kept ⟨sound, rfl⟩ targeted
  refine ⟨m, reached, ?_⟩
  rcases decided with ⟨r, kept, same, recalled⟩ | ⟨nothing, values, s, b, found⟩
  · refine .inr ⟨r, kept, same, inv.1.keptFor member kept, ?_⟩
    intro values s b keeps index v parameter takes there
    obtain ⟨argument, recipe⟩ := keeps.argument_of_converted takes
    obtain ⟨e, arguments | recipes⟩ := r
    · refine ⟨fun _ => ?_, nofun⟩
      rw [← (Attempt.run_pure_eq_ok.mp recalled).1, keeps.resolved_eq]
      exact argument
    · refine ⟨nofun, fun _ => ?_⟩
      have sources : ∀ source, .declared source ∈ recipes →
          ∀ inner ∈ source.family, inner ∈ known := by
        intro source declared inner inside
        obtain ⟨h, held, rfl⟩ := keeps.exists_holder rfl declared
        exact sound.catalogued _ member h held inner inside
      obtain ⟨m₁, m₂, value, w, inv₁, given, converted, passed⟩ := Attempt.replayFrom_ok
        (fun point recipe followed => upheld.replayRecipe hosts creates n.context n.bean point recipe
          fun source same => sources source (same ▸ followed))
        (upheld.emit m _ inv) recalled there (keeps.prepared_eq ▸ recipe)
      rw [passed, Option.some_inj, ← inv₁.2]
      exact Value.replayed_eq_iff (by rw [full]; rfl) given converted
  · refine .inl ⟨nothing, values, s, b, found, fun index v takes => ?_⟩
    rw [found.arguments]
    exact (found.keeps.argument_of_converted takes).1

end Container.Reachable

/-! A wheel with a converted text beside its autowired hub, asked for a first time. -/
namespace Wheel

def constructor : Executable where
  declaring := .plainClass "Wheel"
  kind := .constructor
  isPublic := true
  parameters := [⟨.string, none⟩, ⟨.plainClass "Hub", none⟩]
  effect := .makes (.plainClass "Wheel")
  label := none

def size : Value := .str "$\x7bsize\x7d"

def hub : Value := .object (.plainClass "Hub") (.named "hub")

def definition : Definition :=
  { Definition.initial .initial with
    serial := 1
    beanClass := some ⟨.plainClass "Wheel", [constructor], []⟩
    arguments := ⟨[], [⟨.value (.str "wide"), none, none, some size⟩]⟩
    autowire := true
    scope := .prototype }

def stocked : Container := ((Request.registerSingleton "hub" hub).perform.run (.new .initial)).2

def sized : Container := ((Request.setProperty "size" "28").perform.run stocked).2

def defined : Container := ((Request.define "wheel" definition).perform.run sized).2

def container : Container := ((Request.bean "wheel" none).perform.run defined).2

def again : Creation :=
  ⟨.full, createWithin .full 99, ⟨[], ["wheel"], 100⟩, "wheel", definition, none⟩

theorem reachable : ∃ known, definition ∈ known ∧ Container.Reachable known container := by
  have fresh := Container.Reachable.initially
  have stocked : Container.Reachable _ stocked := fresh.step (.registerSingleton "hub" hub)
  have sized : Container.Reachable _ sized := stocked.step (.setProperty "size" "28")
  have defined : Container.Reachable _ defined := sized.step (.define "wheel" definition)
  have container : Container.Reachable _ container := defined.step (.bean "wheel" none)
  exact ⟨_, List.mem_singleton_self definition, container⟩

theorem kept : container.resolution? definition =
    some ⟨constructor, .prepared [.value size, .autowired]⟩ := rfl

theorem invoked : container.invocations.map (·.arguments) = [[size, hub]] := rfl

theorem decided : (again.call.run.run container).1 = .ok ⟨constructor, none, [.str "28", hub]⟩ := by
  rfl

/-- The first creation passes the text on, the second puts a property into it. -/
theorem converted_argument_of_again :
    ∃ r c', container.resolution? definition = some r ∧ r.KeptFor definition ∧
      container.invocations.map (·.arguments) = [[size, hub]] ∧
      again.call.run.run container = (.ok ⟨constructor, none, [.str "28", hub]⟩, c') := by
  have run : again.call.run.run container = (.ok ⟨constructor, none, [.str "28", hub]⟩, _) :=
    Prod.ext decided rfl
  obtain ⟨known, member, reachable⟩ := reachable
  obtain ⟨m, reached, found⟩ :=
    Container.Reachable.converted_argument reachable rfl rfl member rfl run
  have same : m = container := by
    rcases reached with same | ⟨target, targeted⟩
    · exact same
    · rw [Creation.run_factoryTarget_of_class rfl rfl] at targeted
      exact (congrArg Prod.snd targeted).symm
  rw [same, show again.definition = definition from rfl, kept] at found
  rcases found with ⟨nothing, -⟩ | ⟨r, held, -, keeps, -⟩
  · cases nothing
  · exact ⟨r, _, kept.trans held, keeps, invoked, run⟩

end Wheel

end BeanWiring
