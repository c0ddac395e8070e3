import BeanWiring.Proofs.Greedy
import BeanWiring.Proofs.Specificity

/-!
Arguments that fit as they are given win over those that have to be converted. The bonus makes their
lenient weight negative as long as their plain weight is below it, and no other weight is. So where a
search compares candidates of one arity, all of which it tries, such a match is only left for another.
-/
namespace BeanWiring

namespace Weight

def FitsAsGiven (parameters : List BeanType) (raw : List Value) : Prop :=
  allFit parameters raw = true ∧ typeDifference parameters raw < rawBonus

variable {parameters : List BeanType} {raw : List Value} {weight : Int}

theorem le_addArgument (bounded : weight ≤ greatest) (parameter : BeanType) (argument : Value) :
    weight ≤ addArgument weight parameter argument := by
  rw [addArgument_eq bounded]
  omega

theorem addArgument_le_greatest (bounded : weight ≤ greatest) (parameter : BeanType)
    (argument : Value) : addArgument weight parameter argument ≤ greatest := by
  rw [addArgument_eq bounded]
  exact Int.min_le_left ..

theorem le_typeDifferenceFrom (bounded : weight ≤ greatest) (pairs : List (BeanType × Value)) :
    weight ≤ typeDifferenceFrom weight pairs := by
  induction pairs generalizing weight with
  | nil => exact Int.le_refl weight
  | cons pair rest ih =>
    obtain ⟨parameter, argument⟩ := pair
    unfold typeDifferenceFrom
    split
    · have more := ih (addArgument_le_greatest bounded parameter argument)
      exact Int.le_trans (le_addArgument bounded parameter argument) more
    · exact bounded

theorem typeDifference_nonneg (parameters : List BeanType) (arguments : List Value) :
    0 ≤ typeDifference parameters arguments :=
  le_typeDifferenceFrom (by decide) _

theorem typeDifferenceFrom_of_misfit {pairs : List (BeanType × Value)}
    (misfit : (pairs.all fun (parameter, argument) => parameter.fits argument) = false)
    (weight : Int) : typeDifferenceFrom weight pairs = greatest := by
  induction pairs generalizing weight with
  | nil => cases misfit
  | cons pair rest ih =>
    obtain ⟨parameter, argument⟩ := pair
    unfold typeDifferenceFrom
    split
    · rename_i fits
      simp only [List.all_cons, fits, Bool.true_and] at misfit
      exact ih misfit _
    · rfl

theorem typeDifference_of_misfit (misfit : allFit parameters raw = false) :
    typeDifference parameters raw = greatest :=
  typeDifferenceFrom_of_misfit misfit 0

theorem fitsAsGiven_iff :
    FitsAsGiven parameters raw ↔ typeDifference parameters raw < rawBonus := by
  constructor
  · exact And.right
  · intro close
    cases fits : allFit parameters raw with
    | true => exact ⟨fits, close⟩
    | false =>
      rw [typeDifference_of_misfit fits] at close
      exact absurd close (by decide)

theorem lenient_neg_iff (converted : List Value) :
    lenient parameters raw converted < 0 ↔ FitsAsGiven parameters raw := by
  have least := typeDifference_nonneg parameters converted
  rw [fitsAsGiven_iff]
  unfold lenient
  omega

end Weight

namespace Trial

variable {t : Trial} {b : Binding} {w : Int}

theorem weight?_of_fitsAsGiven (bound : t.outcome = .ok b)
    (fits : Weight.FitsAsGiven t.candidate.parameterTypes b.raw) :
    ∃ w, t.weight? true = some w ∧ w < 0 := by
  have negative := (Weight.lenient_neg_iff b.arguments).mpr fits
  have light : b.weight true t.candidate.parameterTypes < Weight.greatest :=
    Int.lt_trans negative (by decide)
  refine ⟨b.weight true t.candidate.parameterTypes, ?_, negative⟩
  unfold weight?
  rw [bound]
  exact if_pos light

theorem weight?_of_ok (bound : t.outcome = .ok b) (weighs : t.weight? true = some w) :
    Weight.lenient t.candidate.parameterTypes b.raw b.arguments = w := by
  unfold weight? at weighs
  rw [bound] at weighs
  dsimp only at weighs
  split at weighs
  · cases weighs
    rfl
  · cases weighs

end Trial

namespace Search

variable {kind : SearchKind} {s : Search} {trials : List Trial}

theorem Tallies.best_fitsAsGiven (tallies : s.Tallies kind true trials) {t : Trial}
    (member : t ∈ trials) {b : Binding} (bound : t.outcome = .ok b)
    (fits : Weight.FitsAsGiven t.candidate.parameterTypes b.raw) :
    ∃ best, s.best = some best ∧ best.trial ∈ trials ∧
      Weight.FitsAsGiven best.executable.parameterTypes best.binding.raw := by
  obtain ⟨w, weighs, negative⟩ := Trial.weight?_of_fitsAsGiven bound fits
  cases chosen : s.best with
  | none => cases weighs.symm.trans (tallies.unmatched chosen t member)
  | some best =>
    obtain ⟨inside, matched⟩ := tallies.best_matched chosen
    have lightest : s.weight < 0 := Int.lt_of_le_of_lt (tallies.least t member w weighs) negative
    rw [← Trial.weight?_of_ok rfl matched] at lightest
    exact ⟨best, rfl, inside, (Weight.lenient_neg_iff _).mp lightest⟩

theorem run_level {σ : Type} (lenient : Bool) (eligible : Executable → Bool)
    {bind : Executable → StateM σ (Except Unsatisfied Binding)}
    (complete : ∀ e c b c', (bind e).run c = (.ok b, c') → b.length = e.arity) {arity : Nat}
    {candidates : List Executable} (level : ∀ e ∈ candidates, e.arity = arity) (c : σ) :
    ∃ found trials c',
      (run kind lenient eligible bind start candidates).run c = (found, c') ∧
      candidates.filter eligible = trials.map (·.candidate) ∧
      ((trials.map (·.candidate)).mapM bind).run c = (trials.map (·.outcome), c') ∧
      found.Tallies kind lenient trials := by
  obtain ⟨found, trials, seen, unseen, c', ran, rfl, -, listed, bound, ⟨tallies, done, tried⟩,
      ends⟩ :=
    run_invariant eligible bind
      (fun s trials rest => s.Tallies kind lenient trials ∧ Trial.Complete trials ∧
        ∀ e ∈ trials.map (·.candidate) ++ rest, e.arity = arity)
      (fun {s trials e rest r c c'} ⟨tallies, done, tried⟩ _ bound =>
        ⟨tallies.step e r, done.append fun b same => complete e c b c' (same ▸ bound),
          by simpa using tried⟩)
      (fun {s trials e rest} ⟨tallies, done, tried⟩ => ⟨tallies, done, fun f member =>
        tried f (((List.sublist_cons_self e rest).append_left _).subset member)⟩)
      candidates ⟨tallies_start, nofun, level⟩ c
  cases unseen with
  | nil => exact ⟨found, trials, c', ran, by rwa [List.append_nil], bound, tallies⟩
  | cons stop rest =>
    -- The search stops only before a candidate that is shorter than its choice.
    have stops := ends stop rest rfl
    cases kind with
    | factoryMethod => cases stops
    | constructor =>
      cases chosen : found.best with
      | none => simp [stopsAt, chosen] at stops
      | some best =>
        have member := (tallies.best_matched chosen).1
        have length : best.binding.length = arity := (done _ member _ rfl).trans
          (tried _ (List.mem_append_left _ (List.mem_map_of_mem member)))
        have shorter : stop.arity < best.binding.length := by
          simpa [stopsAt, chosen] using stops
        rw [length, level stop (List.mem_append_right _ List.mem_cons_self)] at shorter
        exact absurd shorter (Nat.lt_irrefl arity)

end Search

namespace Creation

/-- Of two lists of arguments, one that fits as given and is near has a negative lenient weight, and one
that does not fit as given has none. So a lenient search among candidates of one arity, which binds all
that have room for the arguments, never chooses a match that needed conversion where another one is that
near without. -/
theorem search_prefers_unconverted :
    (∀ (parameters parameters' : List BeanType) (raw raw' converted converted' : List Value),
      Weight.allFit parameters raw = true → Weight.typeDifference parameters raw < 1024 →
      Weight.allFit parameters' raw' = false →
      Weight.lenient parameters raw converted < 0 ∧
        0 ≤ Weight.lenient parameters' raw' converted') ∧
    ∀ (n : Creation) (kind : SearchKind) (source : ArgumentSource) (minCount : Nat)
        (autowiring : Bool) (candidates : List Executable) (arity : Nat) (c : Container),
      n.definition.lenient = true → (∀ e ∈ candidates, e.arity = arity) →
      ∃ (trials : List Trial) (found : Search) (m m' : Container),
        candidates.filter (source.suits minCount) = trials.map (·.candidate) ∧
        ((trials.map (·.candidate)).mapM (n.bindCandidate kind source autowiring
          (candidates.length == 1))).run c = (trials.map (·.outcome), m) ∧
        (n.search kind source minCount autowiring candidates).run c = (found, m') ∧
        ∀ t ∈ trials, ∀ b, t.outcome = .ok b →
          Weight.allFit t.candidate.parameterTypes b.raw = true →
          Weight.typeDifference t.candidate.parameterTypes b.raw < 1024 →
          ∃ best, found.best = some best ∧ best.trial ∈ trials ∧
            Weight.allFit best.executable.parameterTypes best.binding.raw = true ∧
            Weight.typeDifference best.executable.parameterTypes best.binding.raw < 1024 := by
  refine ⟨fun parameters parameters' raw raw' converted converted' fits close misfit => ?_, ?_⟩
  · refine ⟨(Weight.lenient_neg_iff converted).mpr ⟨fits, close⟩, Int.not_lt.mp fun negative => ?_⟩
    have fits' := ((Weight.lenient_neg_iff converted').mp negative).1
    rw [misfit] at fits'
    cases fits'
  · intro n kind source minCount autowiring candidates arity c lenient level
    obtain ⟨found, trials, m, ran, listed, bound, tallies⟩ :=
      Search.run_level n.definition.lenient (source.suits minCount)
        (fun _ _ _ _ bound => length_of_bindCandidate bound) level c
    rw [lenient] at tallies
    refine ⟨trials, found, m, _, listed, bound, run_search ran, fun t member b matched fits close => ?_⟩
    exact tallies.best_fitsAsGiven member matched ⟨fits, close⟩

end Creation

/-! A plaque whose inscription is given as a text that can be read as a number. -/
namespace Plaque

def constructor (parameter : BeanType) : Executable where
  declaring := .plainClass "Plaque"
  kind := .constructor
  isPublic := true
  parameters := [⟨parameter, none⟩]
  effect := .makes (.plainClass "Plaque")
  label := none

def constructors : List Executable := [constructor .int, constructor .string]

def creation : Creation where
  host := .full
  create := createWithin .full 0
  context := .new 1
  bean := "plaque"
  definition := Definition.initial .initial
  explicit := some [.str "7"]

def fresh : Container := .new .initial

def given : ArgumentSource := .explicit [.str "7"]

def inscribed : Binding := [⟨.str "7", .str "7", .value (.str "7"), .explicitPositional⟩]

theorem prefers_unconverted_of_plaque :
    Weight.lenient [.string] [.str "7"] [.str "7"] < 0 ∧
    0 ≤ Weight.lenient [.int] [.str "7"] [.int 7] ∧
    creation.definition.lenient = true ∧ (∀ e ∈ constructors, e.arity = 1) ∧
    ∃ (trials : List Trial) (found : Search) (best : Selected) (m' : Container),
      (∀ t ∈ trials, t.outcome.isOk = true) ∧
      (creation.search .constructor given 1 false constructors).run fresh = (found, m') ∧
      found.best = some best ∧ best.trial ∈ trials ∧
      Weight.allFit best.executable.parameterTypes best.binding.raw = true := by
  obtain ⟨negative, nonnegative⟩ := Creation.search_prefers_unconverted.1 [.string] [.int]
    [.str "7"] [.str "7"] [.str "7"] [.int 7] rfl (by decide) rfl
  have level : ∀ e ∈ constructors, e.arity = 1 := by decide
  obtain ⟨trials, found, m, m', listed, bound, searched, prefers⟩ :=
    Creation.search_prefers_unconverted.2 creation .constructor given 1 false constructors 1 fresh rfl
      level
  rw [← listed] at bound
  obtain ⟨first, rest, rfl, -, others⟩ := List.map_eq_cons_iff.mp listed.symm
  obtain ⟨second, none, rfl, takes, nothing⟩ := List.map_eq_cons_iff.mp others
  cases List.map_eq_nil_iff.mp nothing
  obtain ⟨read, unread⟩ := List.cons.inj (congrArg Prod.fst bound)
  have converted : first.outcome.isOk = true := (congrArg Except.isOk read).symm
  have matched : second.outcome = .ok inscribed := (List.cons.inj unread).1.symm
  obtain ⟨best, chosen, inside, fits, -⟩ := prefers second (by simp) inscribed matched
    (by rw [takes]; decide) (by rw [takes]; decide)
  refine ⟨negative, nonnegative, rfl, level, _, found, best, m', fun t member => ?_, searched, chosen,
    inside, fits⟩
  rcases List.mem_cons.mp member with rfl | later
  · exact converted
  · rw [List.mem_singleton.mp later, matched]
    rfl

end Plaque

end BeanWiring
