import BeanWiring.Container.Runs
import BeanWiring.Proofs.Greedy

/-!
Which candidates a search through constructors leaves out. It ends at the first candidate that takes
fewer parameters than its choice. Public candidates stand before the others, and only those of one
visibility come with falling arity. So the ones left out are all shorter than the choice where the
search ends at a non-public candidate. Where it ends at a public one, no non-public candidate was
looked at, however many parameters it takes.
-/
namespace BeanWiring

namespace Executable.InOrder

variable {seen rest : List Executable} {stop e f : Executable}

theorem public_of_seen (inOrder : InOrder (seen ++ stop :: rest)) (before : e ∈ seen)
    (visible : stop.isPublic = true) : e.isPublic = true := by
  have after := (List.pairwise_append.mp inOrder).2.2 e before stop List.mem_cons_self
  exact (precedes_eq_false_iff.mp after).1 visible

theorem hidden_of_longer (inOrder : InOrder (seen ++ stop :: rest)) (left : e ∈ rest)
    (longer : stop.arity < e.arity) : stop.isPublic = true ∧ e.isPublic = false := by
  obtain ⟨-, ordered, -⟩ := List.pairwise_append.mp inOrder
  have behind := precedes_eq_false_iff.mp ((List.pairwise_cons.mp ordered).1 e left)
  have apart : e.isPublic ≠ stop.isPublic := by
    intro same
    have shorter := behind.2 same
    omega
  cases hidden : e.isPublic with
  | true => exact absurd (hidden.trans (behind.1 hidden).symm) apart
  | false => exact ⟨by simpa [hidden] using apart.symm, rfl⟩

end Executable.InOrder

namespace Search

/-- A search through constructors that ended before the candidate `stop`: its choice takes more
parameters, and so it does than any candidate left out, unless that is a non-public one behind a
public one. -/
structure EndsBefore (found : Search) (lenient : Bool) (declared : List Executable)
    (trials : List Trial) (stop : Executable) (rest : List Executable) (best : Selected) :
    Prop where
  chosen : found.best = some best
  matched : best.trial ∈ trials ∧ best.trial.weight? lenient = some found.weight
  shorter : stop.arity < best.executable.arity
  longer : ∀ e ∈ rest, best.executable.arity ≤ e.arity →
    best.executable.isPublic = true ∧ stop.isPublic = true ∧ e.isPublic = false
  safe_iff : (∀ e ∈ stop :: rest, e.arity < best.executable.arity) ↔
    (stop.isPublic = true → ∀ e ∈ declared, e.isPublic = false → e.arity < best.executable.arity)

variable {found : Search} {lenient : Bool} {declared seen rest : List Executable}
  {trials : List Trial} {stop : Executable}

theorem Tallies.endsBefore (tallies : found.Tallies .constructor lenient trials)
    (complete : Trial.Complete trials)
    (split : Executable.ranked declared = seen ++ stop :: rest)
    (tried : ∀ t ∈ trials, t.candidate ∈ seen)
    (stops : found.stopsAt .constructor stop = true) :
    ∃ best, found.EndsBefore lenient declared trials stop rest best := by
  cases chosen : found.best with
  | none => simp [stopsAt, chosen] at stops
  | some best =>
    have matched := tallies.best_matched chosen
    have inOrder := split ▸ Executable.inOrder_ranked declared
    have shorter : stop.arity < best.executable.arity := by
      have fewer : stop.arity < best.binding.length := by simpa [stopsAt, chosen] using stops
      rwa [complete _ matched.1 _ rfl] at fewer
    -- Arity falls only among candidates of one visibility: a longer one further on is one that is
    -- not public.
    have hidden : ∀ e ∈ rest, best.executable.arity ≤ e.arity →
        stop.isPublic = true ∧ e.isPublic = false := by
      intro e left longer
      exact inOrder.hidden_of_longer left (Nat.lt_of_lt_of_le shorter longer)
    refine ⟨best, chosen, matched, shorter, ?_, ?_, ?_⟩
    · intro e left longer
      obtain ⟨visible, others⟩ := hidden e left longer
      exact ⟨inOrder.public_of_seen (tried _ matched.1) visible, visible, others⟩
    · intro safe visible e member nonPublic
      have ranked : e ∈ seen ++ stop :: rest := split ▸ Executable.mem_ranked.mpr member
      rcases List.mem_append.mp ranked with before | after
      · simp [inOrder.public_of_seen before visible] at nonPublic
      · exact safe e after
    · intro safe e member
      rcases List.mem_cons.mp member with rfl | left
      · exact shorter
      · by_contra notLess
        obtain ⟨visible, nonPublic⟩ := hidden e left (Nat.not_lt.mp notLess)
        have among : e ∈ Executable.ranked declared :=
          split ▸ List.mem_append_right seen (List.mem_cons_of_mem stop left)
        exact notLess (safe visible e (Executable.mem_ranked.mp among) nonPublic)

end Search

namespace Creation

/-- A search through the constructors declared, public and non-public ones, looks at the candidates
in their order and binds those that have room for the arguments. It ends with all of them, or before
the first candidate it stops at, as `Search.EndsBefore` says. -/
theorem search_ends (n : Creation) (source : ArgumentSource) (minCount : Nat) (autowiring : Bool)
    (declared : List Executable) (c : Container) :
    ∃ trials seen unseen found m,
      Executable.ranked declared = seen ++ unseen ∧
      Search.start.LooksAt .constructor n.definition.lenient (source.suits minCount)
        (n.bindCandidate .constructor source autowiring (declared.length == 1)) c seen ∧
      seen.filter (source.suits minCount) = trials.map (·.candidate) ∧
      ((trials.map (·.candidate)).mapM (n.bindCandidate .constructor source autowiring
        (declared.length == 1))).run c = (trials.map (·.outcome), m) ∧
      (n.search .constructor source minCount autowiring (Executable.ranked declared)).run c =
        (found, found.best.elim m fun best => ((Work.emit (.selected n.bean "constructor"
          best.executable found.weight (best.binding.map (·.provenance)))).run m).2) ∧
      found.Tallies .constructor n.definition.lenient trials ∧
      ∀ stop rest, unseen = stop :: rest →
        ∃ best, found.EndsBefore n.definition.lenient declared trials stop rest best := by
  obtain ⟨found, trials, seen, unseen, m, ran, split, looks, listed, bound, ⟨tallies, complete⟩,
      ends⟩ :=
    Search.run_invariant (source.suits minCount)
      (n.bindCandidate .constructor source autowiring ((Executable.ranked declared).length == 1))
      (fun s trials _ => s.Tallies .constructor n.definition.lenient trials ∧ Trial.Complete trials)
      (fun {s trials e rest r c c'} ⟨tallies, complete⟩ _ tried =>
        ⟨tallies.step e r, complete.append fun _ same => length_of_bindCandidate (same ▸ tried)⟩)
      id (Executable.ranked declared) ⟨Search.tallies_start, nofun⟩ c
  rw [Executable.length_ranked] at looks bound
  refine ⟨trials, seen, unseen, found, m, split, looks, listed, bound, run_search ran, tallies, ?_⟩
  rintro stop rest rfl
  refine tallies.endsBefore complete split (fun t member => ?_) (ends stop rest rfl)
  have among : t.candidate ∈ seen.filter (source.suits minCount) :=
    listed ▸ List.mem_map_of_mem member
  exact (List.mem_filter.mp among).1

end Creation

/-! A pump with a public constructor for its rotor, and a longer one that is not public. -/
namespace Pump

def constructor (isPublic : Bool) (parts : List String) : Executable where
  declaring := .plainClass "Pump"
  kind := .constructor
  isPublic := isPublic
  parameters := parts.map (⟨.plainClass ·, none⟩)
  effect := .makes (.plainClass "Pump")
  label := none

def constructors : List Executable :=
  [constructor true ["Rotor"], constructor true [], constructor false ["Rotor", "Motor"]]

def definition : Definition :=
  { Definition.initial .initial with
    beanClass := some ⟨.plainClass "Pump", constructors, []⟩
    autowire := true }

def part (type : String) : Value := .object (.plainClass type) (.named type)

def requests : List Request :=
  [.registerSingleton "rotor" (part "Rotor"), .registerSingleton "motor" (part "Motor"),
    .define "pump" definition, .bean "pump" none]

def made : Container := ((Request.performAll requests).run (.new .initial)).2

/-- The search ends before the constructor without parameters. There is a rotor and a motor, but the
constructor that takes both is left out. -/
example : made.invocations.map (·.arguments.map Value.typeDescription) = [["Rotor"]] := by
  decide +kernel

end Pump

end BeanWiring
