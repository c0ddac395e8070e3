import BeanWiring.Proofs.Lawful
import BeanWiring.Proofs.Shape

/-!
Whether arguments fit the parameters they are passed for. Given arguments and those a replay finds
anew are converted. Arguments that a search passes or keeps are weighed: without leniency ones that
do not fit have the greatest weight there is, and a match of that weight is never chosen. With
leniency an argument is known to fit if it was converted on the way, as all values of holders are
that the definition does not name the converted value of.
-/
namespace BeanWiring

namespace Call

def Fits (call : Call) : Prop := Parameter.Fit call.executable.parameters call.arguments

def FitsAt (call : Call) (index : Nat) : Prop :=
  ∃ parameter argument, call.executable.parameters[index]? = some parameter ∧
    call.arguments[index]? = some argument ∧ parameter.type.fits argument = true

/-- Among the holders that the parameters take, all that name no converted value have their
parameter passed a fitting argument. -/
def FitsTaken (call : Call) (taken : List (Option (HolderSlot × Holder ResolvedValue))) : Prop :=
  ∀ index slot h, taken[index]? = some (some (slot, h)) → h.converted = none → call.FitsAt index

variable {call : Call}

theorem Fits.fitsAt (fits : call.Fits) {index : Nat} (within : index < call.executable.arity) :
    call.FitsAt index := by
  obtain ⟨length, each⟩ := List.forall₂_iff_get.mp fits
  have passed : index < call.arguments.length := length ▸ within
  exact ⟨_, _, List.getElem?_eq_getElem within, List.getElem?_eq_getElem passed,
    each index within passed⟩

theorem Fits.fitsTaken (fits : call.Fits)
    {taken : List (Option (HolderSlot × Holder ResolvedValue))}
    (length : taken.length = call.executable.arity) : call.FitsTaken taken := by
  intro index slot h takes _
  obtain ⟨within, -⟩ := List.getElem?_eq_some_iff.mp takes
  exact fits.fitsAt (length ▸ within)

end Call

theorem Weight.fit_of_allFit {parameters : List Parameter} {arguments : List Value}
    (length : arguments.length = parameters.length)
    (all : allFit (parameters.map (·.type)) arguments = true) :
    Parameter.Fit parameters arguments := by
  refine (List.forall₂_map_left_iff (R := fun type argument => type.fits argument = true)
    (f := Parameter.type)).mp ?_
  refine List.forall₂_iff_zip.mpr ⟨(List.length_map _).trans length.symm, fun member => ?_⟩
  exact List.all_eq_true.mp all _ member

theorem Weight.allFit_of_strict_lt {parameters : List BeanType} {raw converted : List Value}
    (less : strict parameters raw converted < greatest) : allFit parameters converted = true := by
  unfold strict at less
  split at less
  · exact absurd less (Int.lt_irrefl _)
  · rename_i fits
    simpa using fits

namespace Binding

theorem fit_of_weight_lt {e : Executable} {b : Binding} (complete : b.length = e.arity)
    (light : b.weight false e.parameterTypes < Weight.greatest) :
    Parameter.Fit e.parameters b.arguments :=
  Weight.fit_of_allFit ((List.length_map _).trans complete) (Weight.allFit_of_strict_lt light)

theorem Follows.fits_of_unconverted {bean : String} {e : Executable} {index : Nat}
    {parameters : List Parameter} {taken : List (Option (HolderSlot × Holder ResolvedValue))}
    {b : Binding} (follows : Follows bean e index parameters taken b) {i : Nat} {slot : HolderSlot}
    {h : Holder ResolvedValue} (takes : taken[i]? = some (some (slot, h)))
    (unconverted : h.converted = none) :
    ∃ parameter argument, parameters[i]? = some parameter ∧ b.arguments[i]? = some argument ∧
      parameter.type.fits argument = true := by
  induction follows generalizing i with
  | nil => cases takes
  | declared made _ ih =>
    cases i with
    | zero =>
      cases takes
      rcases ofHolder_eq_ok.mp made with ⟨v, converted, -⟩ | ⟨-, argument, converted, rfl⟩
      · cases unconverted.symm.trans converted
      · exact ⟨_, argument, rfl, rfl, Value.fits_of_convert converted⟩
    | succ i => exact ih takes
  | autowired _ _ ih =>
    cases i with
    | zero => cases takes
    | succ i => exact ih takes

end Binding

namespace Resolution.Keeps

variable {r : Resolution} {d : Definition} {values : ArgumentValues ResolvedValue}
  {s : Work.Setting} {b : Binding} {call : Call}

theorem fitsTaken (keeps : r.Keeps d values s b) (same : call.executable = r.executable)
    (passes : call.arguments = b.arguments) :
    call.FitsTaken (values.taken s.autowiring r.executable) := by
  intro index slot h takes unconverted
  unfold Call.FitsAt
  rw [same, passes]
  exact keeps.follows.fits_of_unconverted takes unconverted

theorem fits_of_light (keeps : r.Keeps d values s b) (same : call.executable = r.executable)
    (passes : call.arguments = b.arguments)
    (light : b.weight false r.executable.parameterTypes < Weight.greatest) : call.Fits := by
  unfold Call.Fits
  rw [same, passes]
  exact Binding.fit_of_weight_lt keeps.follows.length_eq.2 light

end Resolution.Keeps

namespace Creation

variable {n : Creation} {call : Call} {c c' : Container}

theorem call_given {arguments : List Value} (given : n.explicit = some arguments)
    (run : n.call.run.run c = (.ok call, c')) :
    ∃ b, Binding.ofExplicit call.executable n.bean arguments = .ok b ∧
      call.arguments = b.arguments := by
  -- Nothing is remembered for given arguments, and no shortcut is taken past the search.
  have forgets {c c' : Container} {e : Executable} {kept : List Value}
      (remembers : n.remembered.run.run c = (.ok (some (e, kept)), c')) : False := by
    unfold remembered Attempt.remembered at remembers
    rw [given] at remembers
    cases remembers
  have full {candidates : List Executable} : n.bareCandidate? candidates = none := by
    cases lone : n.bareCandidate? candidates with
    | none => rfl
    | some e =>
      have bare := (bareCandidate?_some lone).1
      unfold isBare at bare
      rw [given] at bare
      cases bare
  have binds {kind : SearchKind} {autowiring : Bool} {candidates : List Executable}
      {source : ArgumentSource} {minCount : Nat} {c m m' : Container} {found : Search}
      {best : Selected} (first : n.source.run.run c = (.ok (source, minCount), m))
      (searched : (n.search kind source minCount autowiring candidates).run m = (found, m'))
      (chosen : found.best = some best) :
      Binding.ofExplicit best.executable n.bean arguments = .ok best.binding := by
    unfold Creation.source at first
    rw [given] at first
    cases first
    obtain ⟨⟨_, _, bound⟩, -⟩ := search_ok searched chosen
    exact (Attempt.run_liftM_eq_ok.mp bound).1
  rcases call_ok_iff.mp run with ⟨-, run⟩ | ⟨-, beanClass, favoured, -, -, run⟩
  · obtain ⟨factoryBean, beanClass, m, -, decided⟩ := byFactoryMethod_ok_iff.mp run
    rcases decided with ⟨e, kept, remembers, -⟩ | ⟨m', candidates, m'', -, -, last⟩
    · exact (forgets remembers).elim
    · unfold methodAmong at last
      rw [full] at last
      obtain ⟨_, _, _, _, _, best, first, searched, chosen, -, -, rfl, -⟩ :=
        byClosestMethod_ok_iff.mp last
      exact ⟨best.binding, binds first searched chosen, rfl⟩
  · rcases byConstructor_ok_iff.mp run with
      ⟨e, kept, remembers, -⟩ | ⟨m, beanClass, candidates, m', -, -, -, last⟩
    · exact (forgets remembers).elim
    · unfold constructorAmong at last
      rw [full] at last
      obtain ⟨_, _, _, _, _, best, first, searched, chosen, -, rfl, -⟩ :=
        byClosestConstructor_ok_iff.mp last
      exact ⟨best.binding, binds first searched chosen, rfl⟩

theorem fits_of_given (given : n.explicit.isSome = true)
    (run : n.call.run.run c = (.ok call, c')) : call.Fits := by
  obtain ⟨arguments, given⟩ := Option.isSome_iff_exists.mp given
  obtain ⟨b, made, passes⟩ := call_given given run
  unfold Call.Fits
  rw [passes]
  exact Binding.fit_ofExplicitFrom made

theorem Matches.fitsTaken {values : ArgumentValues ResolvedValue} {s : Work.Setting} {b : Binding}
    (found : n.Matches call values s b c') :
    call.FitsTaken (values.taken s.autowiring call.executable) :=
  found.keeps.fitsTaken rfl found.arguments

theorem Matches.fits {values : ArgumentValues ResolvedValue} {s : Work.Setting} {b : Binding}
    (found : n.Matches call values s b c') (strict : n.definition.lenient = false) : call.Fits :=
  found.keeps.fits_of_light rfl found.arguments (strict ▸ found.light)

end Creation

namespace Resolution

variable {r : Resolution} {d : Definition} {host : Host} {create : Creator} {ctx : Context}
  {bean : String} {call : Call} {c c' : Container}

theorem KeptFor.fits_of_prepared (keptFor : r.KeptFor d) (same : call.executable = r.executable)
    (prepared : r.arguments.isPrepared = true)
    (recalled : (Attempt.recollect host create ctx bean r).run.run c = (.ok call.arguments, c')) :
    call.Fits := by
  obtain ⟨values, s, b, keeps⟩ := keptFor
  have length := keeps.length_eq
  obtain ⟨e, arguments | recipes⟩ := r
  · cases prepared
  · unfold Call.Fits
    rw [same]
    exact Attempt.fit_of_replayFrom length recalled

theorem KeptFor.fitsTaken (keptFor : r.KeptFor d) (same : call.executable = r.executable)
    (recalled : (Attempt.recollect host create ctx bean r).run.run c = (.ok call.arguments, c'))
    {values : ArgumentValues ResolvedValue} {s : Work.Setting} {b : Binding}
    (keeps : r.Keeps d values s b) : call.FitsTaken (values.taken s.autowiring r.executable) := by
  cases prepared : r.arguments.isPrepared with
  | true =>
    have fits := keptFor.fits_of_prepared same prepared recalled
    exact fits.fitsTaken (keeps.follows.length_eq.1.trans (same ▸ rfl))
  | false =>
    obtain ⟨e, arguments | recipes⟩ := r
    · have passes := (Attempt.run_pure_eq_ok.mp recalled).1.symm.trans keeps.resolved_eq
      exact keeps.fitsTaken same passes
    · cases prepared

/-- Without leniency a replay passes fitting arguments, for it was such a match that was kept. -/
theorem ChosenFor.fits (chosen : r.ChosenFor d) (strict : d.lenient = false)
    (same : call.executable = r.executable)
    (recalled : (Attempt.recollect host create ctx bean r).run.run c = (.ok call.arguments, c')) :
    call.Fits := by
  cases prepared : r.arguments.isPrepared with
  | true => exact chosen.keptFor.fits_of_prepared same prepared recalled
  | false =>
    obtain ⟨values, s, b, keeps, light⟩ := chosen
    obtain ⟨e, arguments | recipes⟩ := r
    · have passes := (Attempt.run_pure_eq_ok.mp recalled).1.symm.trans keeps.resolved_eq
      exact keeps.fits_of_light same passes (strict ▸ light)
    · cases prepared

end Resolution

/-- Whatever a creation comes to invoke gets fitting arguments: all of them without leniency or if
they were given. Else, beside the factory bean, the creation found nothing kept and passes a match,
or follows what is kept: values of holders without a converted one fit then, and with recipes all
do. -/
def Creation.PassesFitting (n : Creation) (c : Container) : Prop :=
  ∀ call c', n.call.run.run c = (.ok call, c') → call.IsComplete ∧
    (n.definition.lenient = false ∨ n.explicit.isSome = true → call.Fits) ∧
    (n.explicit = none → ∃ m, (m = c ∨ ∃ target, n.factoryTarget.run.run c = (.ok target, m)) ∧
      ((m.resolution? n.definition = none ∧ (∃ values s b, n.Matches call values s b c') ∧
        ∀ values s b, n.Matches call values s b c' →
          call.FitsTaken (values.taken s.autowiring call.executable)) ∨
      ∃ r, m.resolution? n.definition = some r ∧ call.executable = r.executable ∧
        r.KeptFor n.definition ∧ (r.arguments.isPrepared = true → call.Fits) ∧
        ∀ values s b, r.Keeps n.definition values s b →
          call.FitsTaken (values.taken s.autowiring r.executable)))

namespace Container

variable {known : List Definition} {c : Container} {n : Creation} {room : Nat}

theorem Lawful.passesFitting (lawful : c.Lawful known) (full : n.host = .full)
    (within : n.create = createWithin .full room) (member : n.definition ∈ known) :
    n.PassesFitting c := by
  intro call c' run
  have upholds := lawful.upholds
  have creates := within.symm ▸ upholds.createWithin upholds.full_self room
  have targets : Attempt.Agree _ n.factoryTarget (n.elsewhere n.host n.create).factoryTarget _ :=
    upholds.factoryTarget creates trivial
  have complete := (upholds.conducts.decides full within trivial member ⟨lawful, trivial⟩).2 call c' run
  -- Given arguments are converted as they are bound. Without them a call goes back to what is kept or
  -- to a search, and only the first of these can pass on what does not fit any longer.
  cases given : n.explicit with
  | some arguments =>
    have fits := Creation.fits_of_given (given ▸ rfl) run
    exact ⟨complete.1, fun _ => fits, nofun⟩
  | none =>
    obtain ⟨m, reached, decided⟩ := Creation.call_matches given run
    have sound : m.Sound known := by
      rcases reached with rfl | ⟨target, targeted⟩
      · exact lawful.toSound
      · exact (targets.kept ⟨lawful, trivial⟩ targeted).1.toSound
    rcases decided with ⟨r, kept, same, recalled⟩ | ⟨nothing, values, s, b, found⟩
    · have chosen := sound.chosenFor member kept
      have keptFor := chosen.keptFor
      refine ⟨complete.1, fun strict => ?_, fun _ =>
        ⟨m, reached, .inr ⟨r, kept, same, keptFor, ?_⟩⟩⟩
      · exact chosen.fits (strict.resolve_right nofun) same recalled
      · exact ⟨fun prepared => keptFor.fits_of_prepared same prepared recalled,
          fun values s b keeps => keptFor.fitsTaken same recalled keeps⟩
    · refine ⟨complete.1, fun strict => ?_, fun _ => ⟨m, reached, .inl ⟨nothing, ?_⟩⟩⟩
      · exact found.fits (strict.resolve_right nofun)
      · exact ⟨⟨values, s, b, found⟩, fun values s b found => found.fitsTaken⟩

/-- Whatever is asked of a container: no creation that begins comes to invoke an executable with an
argument that does not fit, unless its definition is lenient and nothing converted the argument. -/
theorem Reachable.arguments_fit (reachable : Reachable known c) (requests : List Request) :
    Request.EachCreation Creation.PassesFitting requests c := by
  refine Request.eachCreation_of_lawful reachable.lawful ?_ requests
  intro known room n m full within _ member lawful
  exact lawful.passesFitting full within member

end Container

/-! A dial with a text for its number of marks, made a second time as the first one was. -/
namespace Dial

def constructor : Executable where
  declaring := .plainClass "Dial"
  kind := .constructor
  isPublic := true
  parameters := [⟨.primitive .int, none⟩]
  effect := .makes (.plainClass "Dial")
  label := none

def definition : Definition :=
  { Definition.initial .initial with
    beanClass := some ⟨.plainClass "Dial", [constructor], []⟩
    arguments := ⟨[], [⟨.value (.str "12"), none, none, none⟩]⟩
    lenient := false
    scope := .prototype }

def defined : Container := ((Request.define "dial" definition).perform.run (.new .initial)).2

def asked : Container := ((Request.bean "dial" none).perform.run defined).2

def again : Container := ((Request.bean "dial" none).perform.run asked).2

theorem arguments_fit_of_dial :
    Request.EachCreation Creation.PassesFitting [.bean "dial" none] asked ∧
    again.invocations.map (fun i => (i.bean, i.arguments)) =
      [("dial", [.int 12]), ("dial", [.int 12])] := by
  have fresh := Container.Reachable.initially
  have defined : Container.Reachable _ defined := fresh.step (.define "dial" definition)
  have asked : Container.Reachable _ asked := defined.step (.bean "dial" none)
  exact ⟨asked.arguments_fit [.bean "dial" none], by rfl⟩

end Dial

end BeanWiring
