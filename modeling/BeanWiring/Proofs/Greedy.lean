import BeanWiring.Proofs.Candidates
import BeanWiring.Proofs.Decision
import BeanWiring.Proofs.Trials

/-!
Which constructor a search chooses. The loop keeps a choice, its weight and a list of ties; over the
trials made so far these are the first of the least weight, that weight, and all of that weight. As
candidates come with falling arity and the loop stops below the arity of its choice, all matches
among the trials have one arity, the greatest at which there is a match at all.
-/
namespace BeanWiring

def Trial.tied (lenient : Bool) (arity : Nat) (weight : Int) (trials : List Trial) : List Trial :=
  trials.filter fun t => t.candidate.arity == arity && t.weight? lenient == some weight

namespace Search

/-- The ties that a search reports among trials of the weight it chose: none if there is only one. -/
def tiesAmong (lightest : List Trial) : List Executable :=
  if 2 ≤ lightest.length then lightest.map (·.candidate) else []

theorem isEmpty_tiesAmong (lightest : List Trial) :
    (tiesAmong lightest).isEmpty = !decide (2 ≤ lightest.length) := by
  unfold tiesAmong
  split
  · rename_i two
    simp only [two, decide_true, Bool.not_true, List.isEmpty_map]
    have occupied := List.ne_nil_of_length_pos (Nat.lt_of_lt_of_le Nat.two_pos two)
    exact List.isEmpty_eq_false_iff.mpr occupied
  · rename_i fewer
    simp [fewer]

/-- What the state of a search through constructors is, given the trials it made: their failures,
and the first match of the least weight with the ones that tie with it. -/
structure Summarizes (s : Search) (lenient : Bool) (trials : List Trial) : Prop where
  failures : s.failures = trials.filterMap Trial.failure?
  bounded : s.weight ≤ Weight.greatest
  unchosen : s.best = none → s.weight = Weight.greatest
  least : ∀ t ∈ trials, ∀ w, t.weight? lenient = some w → s.weight ≤ w
  first : (Trial.weighing lenient s.weight trials).head? = s.best.map Selected.trial
  ambiguous : s.ambiguous = tiesAmong (Trial.weighing lenient s.weight trials)

variable {s : Search} {lenient : Bool} {trials : List Trial}

theorem contested_constructor (lightest : List Trial) :
    contested .constructor lenient lightest = tiesAmong lightest := by
  cases lightest with
  | nil => rfl
  | cons best later => cases later <;> simp [contested, tiesAmong, SearchKind.ties]

theorem summarizes_iff : s.Summarizes lenient trials ↔ s.Tallies .constructor lenient trials := by
  constructor
  · intro ⟨failures, bounded, unchosen, least, first, ambiguous⟩
    exact ⟨failures, bounded, unchosen, least, first, by rw [contested_constructor, ambiguous]⟩
  · intro ⟨failures, bounded, unchosen, least, first, ambiguous⟩
    exact ⟨failures, bounded, unchosen, least, first, by rw [ambiguous, contested_constructor]⟩

theorem Summarizes.tallies (sums : s.Summarizes lenient trials) :
    s.Tallies .constructor lenient trials := summarizes_iff.mp sums

/-- What holds between the steps of a search through constructors that come with falling arity: the
state sums up the trials, and no trial has fewer parameters than a match. -/
structure Between (s : Search) (lenient : Bool) (trials : List Trial) : Prop
    extends s.Summarizes lenient trials where
  complete : ∀ t ∈ trials, ∀ b, t.outcome = .ok b → b.length = t.candidate.arity
  level : ∀ t ∈ trials, t.weight? lenient ≠ none →
    ∀ u ∈ trials, t.candidate.arity ≤ u.candidate.arity

namespace Between

theorem length_best (between : s.Between lenient trials) {best : Selected}
    (chosen : s.best = some best) : best.binding.length = best.executable.arity :=
  between.complete _ (between.tallies.best_matched chosen).1 _ rfl

theorem best_le (between : s.Between lenient trials) {best : Selected}
    (chosen : s.best = some best) {t : Trial} (member : t ∈ trials) :
    best.executable.arity ≤ t.candidate.arity := by
  obtain ⟨inside, weighs⟩ := between.tallies.best_matched chosen
  exact between.level _ inside (by simp [weighs]) t member

theorem unmatched_of_lt (between : s.Between lenient trials) {best : Selected}
    (chosen : s.best = some best) {t : Trial} (member : t ∈ trials)
    (longer : best.executable.arity < t.candidate.arity) : t.weight? lenient = none := by
  by_contra matched
  have least := between.level t member matched _ (between.tallies.best_matched chosen).1
  exact absurd longer (Nat.not_lt.mpr least)

theorem step (between : s.Between lenient trials) {e : Executable}
    (goesOn : s.stopsAt .constructor e = false)
    (least : ∀ t ∈ trials, e.arity ≤ t.candidate.arity) {r : Except Unsatisfied Binding}
    (length : ∀ b, r = .ok b → b.length = e.arity) :
    (s.step .constructor lenient e r).Between lenient (trials ++ [⟨e, r⟩]) := by
  have complete : Trial.Complete trials := between.complete
  refine ⟨summarizes_iff.mpr (between.tallies.step e r), complete.append length,
    fun t member matched u among => ?_⟩
  · rcases List.mem_append.mp among with amongBefore | amongLast
    · rcases List.mem_append.mp member with before | last
      · exact between.level t before matched u amongBefore
      · cases List.mem_singleton.mp last
        exact least u amongBefore
    · cases List.mem_singleton.mp amongLast
      rcases List.mem_append.mp member with before | last
      · -- The search went on although there is a match, so the candidate is as long as the choice.
        cases chosen : s.best with
        | none => exact absurd (between.tallies.unmatched chosen t before) matched
        | some best =>
          have longEnough : best.binding.length ≤ e.arity := by
            simpa [stopsAt, chosen] using goesOn
          rw [between.length_best chosen] at longEnough
          exact Nat.le_trans (between.level t before matched _ (between.tallies.best_matched chosen).1)
            longEnough
      · cases List.mem_singleton.mp last
        exact Nat.le_refl _

end Between

theorem run_between {σ : Type} (eligible : Executable → Bool)
    {bind : Executable → StateM σ (Except Unsatisfied Binding)}
    (complete : ∀ e c b c', (bind e).run c = (.ok b, c') → b.length = e.arity)
    (candidates : List Executable) (between : s.Between lenient trials)
    (falling : Executable.Falling (trials.map (·.candidate) ++ candidates)) (c : σ) :
    ∃ found more skipped c',
      (run .constructor lenient eligible bind s candidates).run c = (found, c') ∧
      candidates.filter eligible = more.map (·.candidate) ++ skipped ∧
      ((more.map (·.candidate)).mapM bind).run c = (more.map (·.outcome), c') ∧
      found.Between lenient (trials ++ more) ∧
      (found.best = none → skipped = []) ∧
      ∀ best, found.best = some best → ∀ e ∈ skipped, e.arity < best.executable.arity := by
  obtain ⟨found, more, seen, unseen, c', ran, rfl, -, listed, bound, ⟨after, left⟩, ends⟩ :=
    run_invariant eligible bind
      (fun s trials rest =>
        s.Between lenient trials ∧ Executable.Falling (trials.map (·.candidate) ++ rest))
      (fun {s trials e rest r c c'} ⟨between, falling⟩ goesOn tried => by
        obtain ⟨-, -, above⟩ := List.pairwise_append.mp falling
        refine ⟨between.step goesOn (fun t member => ?_) fun b same => ?_, by simpa using falling⟩
        · exact above _ (List.mem_map_of_mem member) _ List.mem_cons_self
        · exact complete e c b c' (same ▸ tried))
      (fun {s trials e rest} ⟨between, falling⟩ =>
        ⟨between, falling.sublist ((List.sublist_cons_self e rest).append_left _)⟩)
      candidates ⟨between, falling⟩ c
  refine ⟨found, more, unseen.filter eligible, c', ran, by rw [List.filter_append, listed], bound,
    after, fun unchosen => ?_, fun best chosen e member => ?_⟩
  -- The candidate that ended the run is shorter than the choice, and those behind it are no longer.
  · cases unseen with
    | nil => rfl
    | cons stop rest => simpa [stopsAt, unchosen] using ends stop rest rfl
  · obtain ⟨inside, -⟩ := List.mem_filter.mp member
    cases unseen with
    | nil => cases inside
    | cons stop rest =>
      have shorter : stop.arity < best.binding.length := by
        simpa [stopsAt, chosen] using ends stop rest rfl
      rw [after.length_best chosen] at shorter
      rcases List.mem_cons.mp inside with rfl | later
      · exact shorter
      · have ranked := (List.pairwise_append.mp left).2.1
        exact Nat.lt_of_le_of_lt ((List.pairwise_cons.mp ranked).1 e later) shorter

structure Fruitless (found : Search) (lenient : Bool) (trials : List Trial)
    (skipped : List Executable) : Prop where
  unchosen : found.best = none
  unmatched : ∀ t ∈ trials, t.weight? lenient = none
  exhausted : skipped = []
  untied : found.ambiguous = []

/-- A search that chose the closest match of the greatest arity at which there is one, the first
where several are as close: no match has more parameters, nothing shorter was tried, and the
ambiguous candidates are the matches of that arity and weight, if there are two at least. -/
structure Chooses (found : Search) (lenient : Bool) (trials : List Trial)
    (skipped : List Executable) (best : Selected) : Prop where
  chosen : found.best = some best
  matched : best.trial ∈ trials ∧ best.trial.weight? lenient = some found.weight
  greediest : ∀ t ∈ trials, best.executable.arity < t.candidate.arity → t.weight? lenient = none
  shortest : ∀ t ∈ trials, best.executable.arity ≤ t.candidate.arity
  skips : ∀ e ∈ skipped, e.arity < best.executable.arity
  closest : ∀ t ∈ trials, t.candidate.arity = best.executable.arity →
    ∀ w, t.weight? lenient = some w → found.weight ≤ w
  first : (Trial.tied lenient best.executable.arity found.weight trials).head? = some best.trial
  ambiguous : found.ambiguous =
    tiesAmong (Trial.tied lenient best.executable.arity found.weight trials)

namespace Between

variable {skipped : List Executable}

theorem fruitless (between : s.Between lenient trials) (unchosen : s.best = none)
    (exhausted : skipped = []) : s.Fruitless lenient trials skipped where
  unchosen := unchosen
  unmatched := between.tallies.unmatched unchosen
  exhausted := exhausted
  untied := by
    rw [between.ambiguous, Trial.weighing_eq_nil fun t member => by
      simp [between.tallies.unmatched unchosen t member]]
    rfl

theorem tied_eq (between : s.Between lenient trials) {best : Selected}
    (chosen : s.best = some best) :
    Trial.tied lenient best.executable.arity s.weight trials =
      Trial.weighing lenient s.weight trials := by
  refine List.filter_congr fun t member => ?_
  cases weighs : t.weight? lenient == some s.weight with
  | false => rw [Bool.and_false]
  | true =>
    have matched : t.weight? lenient ≠ none := by
      intro none
      simp [none] at weighs
    have least := between.level t member matched _ (between.tallies.best_matched chosen).1
    have same : t.candidate.arity = best.executable.arity :=
      Nat.le_antisymm least (between.best_le chosen member)
    simp [same]

theorem chooses (between : s.Between lenient trials) {best : Selected}
    (chosen : s.best = some best) (skips : ∀ e ∈ skipped, e.arity < best.executable.arity) :
    s.Chooses lenient trials skipped best where
  chosen := chosen
  matched := between.tallies.best_matched chosen
  greediest _ member longer := between.unmatched_of_lt chosen member longer
  shortest _ member := between.best_le chosen member
  skips := skips
  closest t member _ w weighs := between.least t member w weighs
  first := by rw [between.tied_eq chosen, between.first, chosen]; rfl
  ambiguous := by rw [between.tied_eq chosen, between.ambiguous]

end Between

end Search

namespace Creation

variable {n : Creation} {c c' m m' : Container} {source : ArgumentSource} {minCount : Nat}

def isEligible (n : Creation) (e : Executable) : Bool :=
  match n.explicit with
  | some arguments => e.arity == arguments.length
  | none => n.definition.arguments.minCount?.any (· ≤ e.arity)

/-- The trials of a search through constructors: the eligible ones come with falling arity, as
declared where the arity is the same, and up to some point they are bound one after another. -/
structure Tries (n : Creation) (source : ArgumentSource) (autowiring : Bool)
    (declared : List Executable) (trials : List Trial) (skipped : List Executable)
    (c c' : Container) : Prop where
  falling : Executable.Falling (trials.map (·.candidate) ++ skipped)
  asDeclared : ∀ arity, (trials.map (·.candidate) ++ skipped).filter (·.arity == arity) =
    declared.filter fun e => n.isEligible e && e.arity == arity
  bound : ((trials.map (·.candidate)).mapM
    (n.bindCandidate .constructor source autowiring (declared.length == 1))).run c =
      (trials.map (·.outcome), c')

theorem suits_eq_isEligible (sourced : n.source.run.run c = (.ok (source, minCount), m)) :
    source.suits minCount = n.isEligible := by
  funext e
  unfold Creation.isEligible
  cases given : n.explicit with
  | some arguments =>
    unfold Creation.source at sourced
    rw [given] at sourced
    cases sourced
    simp only [ArgumentSource.suits]
    cases same : e.arity == arguments.length with
    | false => exact Bool.and_false _
    | true => simp [eq_of_beq same]
  | none =>
    obtain ⟨values, rfl, counted, -⟩ := (source_ok_iff given).mp sourced
    rw [counted]
    exact Bool.and_true _

theorem length_of_bindCandidate {kind : SearchKind} {autowiring fallback : Bool} {e : Executable}
    {b : Binding}
    (bound : (n.bindCandidate kind source autowiring fallback e).run c = (.ok b, c')) :
    b.length = e.arity :=
  (Work.bind_ok (bindCandidate_ok bound)).1

theorem exhausted_error (failures : List Unsatisfied) (noMatch : String) (c : Container) :
    ∃ e c', (n.exhausted failures noMatch).run.run c = (.error e, c') ∧
      ∀ bean noun owner signatures, e ≠ .ambiguousMatch bean noun owner signatures := by
  unfold exhausted
  split
  · exact ⟨.noMatchingExecutable n.bean noMatch, c, rfl, by simp⟩
  · rename_i reported others _
    exact ⟨.unsatisfied reported, ((n.suppressAll others).run c).2, rfl, by simp⟩

theorem search_between {isPublic : Bool} {declared : List Executable}
    (uniform : ∀ e ∈ declared, e.isPublic = isPublic)
    (sourced : n.source.run.run c = (.ok (source, minCount), m)) (autowiring : Bool) :
    ∃ trials skipped found m', n.Tries source autowiring declared trials skipped m m' ∧
      (Search.run .constructor n.definition.lenient (source.suits minCount)
        (n.bindCandidate .constructor source autowiring
          ((Executable.ranked declared).length == 1)) .start (Executable.ranked declared)).run m =
            (found, m') ∧
      found.Between n.definition.lenient trials ∧
      (found.best = none → skipped = []) ∧
      ∀ best, found.best = some best → ∀ e ∈ skipped, e.arity < best.executable.arity := by
  have falling := Executable.falling_ranked uniform
  have start : Search.start.Between n.definition.lenient [] :=
    ⟨Search.summarizes_iff.mpr Search.tallies_start, fun _ member => (List.not_mem_nil member).elim,
      fun _ member => (List.not_mem_nil member).elim⟩
  obtain ⟨found, trials, skipped, m', ran, listed, bound, between, rests⟩ :=
    Search.run_between (source.suits minCount)
      (fun _ _ _ _ bound => length_of_bindCandidate bound) (Executable.ranked declared) start
      falling m
  refine ⟨trials, skipped, found, m', ⟨?_, fun arity => ?_, ?_⟩, ran, between, rests⟩
  · rw [← listed]
    exact falling.filter _
  · change (trials.map (·.candidate) ++ skipped).filter _ = _
    rw [← listed, List.filter_filter, suits_eq_isEligible sourced, Executable.filter_ranked]
    · exact List.filter_congr fun e _ => Bool.and_comm ..
    -- Among candidates of one arity and visibility none precedes another, so ranking kept their
    -- order.
    · intro e inside f member first second
      simp only [Bool.and_eq_true, beq_iff_eq] at first second
      simp [Executable.precedes, uniform e inside, uniform f member, first.1, second.1]
  · rwa [← Executable.length_ranked declared]

theorem run_search {kind : SearchKind} {autowiring : Bool} {candidates : List Executable}
    {found : Search}
    (ran : (Search.run kind n.definition.lenient (source.suits minCount)
      (n.bindCandidate kind source autowiring (candidates.length == 1)) .start candidates).run c =
        (found, m)) :
    (n.search kind source minCount autowiring candidates).run c =
      (found, found.best.elim m fun best => ((Work.emit (.selected n.bean kind.noun
        best.executable found.weight (best.binding.map (·.provenance)))).run m).2) := by
  unfold Creation.search
  rw [Work.run_bind, ran]
  dsimp only
  cases found.best <;> rfl

/-- The choice of a constructor is greedy, then closest: among candidates that are all public or all
non-public it is made as `Search.Chooses` and `Search.Fruitless` say, nothing else is bound for it,
and without leniency it fails exactly where matches tie. -/
theorem byClosestConstructor_greedy {isPublic : Bool} {declared : List Executable}
    (uniform : ∀ e ∈ declared, e.isPublic = isPublic)
    (sourced : n.source.run.run c = (.ok (source, minCount), m)) (beanClass : BeanClass)
    (autowiring : Bool) :
    ∃ trials skipped found m', n.Tries source autowiring declared trials skipped m m' ∧
      ((found.Fruitless n.definition.lenient trials skipped ∧
          (n.search .constructor source minCount autowiring (Executable.ranked declared)).run m =
            (found, m') ∧
          ∃ e c', (n.byClosestConstructor beanClass autowiring
              (Executable.ranked declared)).run.run c = (.error e, c') ∧
            ∀ bean noun owner signatures, e ≠ .ambiguousMatch bean noun owner signatures) ∨
        ∃ best m'', found.Chooses n.definition.lenient trials skipped best ∧
          m'' = ((Work.emit (.selected n.bean "constructor" best.executable found.weight
            (best.binding.map (·.provenance)))).run m').2 ∧
          (n.search .constructor source minCount autowiring (Executable.ranked declared)).run m =
            (found, m'') ∧
          (n.byClosestConstructor beanClass autowiring (Executable.ranked declared)).run.run c =
            let tied := Trial.tied n.definition.lenient best.executable.arity found.weight trials
            if n.definition.lenient = false ∧ 2 ≤ tied.length then
              (.error (.ambiguousMatch n.bean "constructor" beanClass.name
                (tied.map (·.candidate.signature))), m'')
            else
              (.ok ⟨best.executable, none, best.binding.arguments⟩,
                ((n.keep best.executable best.binding.kept).run m'').2)) := by
  obtain ⟨trials, skipped, found, m', tries, ran, between, exhausted, skips⟩ :=
    search_between uniform sourced autowiring
  have searched := run_search ran
  refine ⟨trials, skipped, found, m', tries, ?_⟩
  cases chosen : found.best with
  | none =>
    rw [chosen] at searched
    refine .inl ⟨between.fruitless chosen (exhausted chosen), searched, ?_⟩
    unfold byClosestConstructor
    rw [Attempt.run_bind_of_ok sourced, Attempt.run_bind_lift, searched]
    obtain ⟨e, c', failed, unambiguous⟩ := exhausted_error (n := n) found.failures
      ("Could not resolve matching constructor on bean class [" ++ beanClass.name ++
        "] (hint: specify index/type/name arguments for simple parameters to avoid type " ++
        "ambiguities)") m'
    refine ⟨e, c', ?_, unambiguous⟩
    simp only [chosen]
    exact failed
  | some best =>
    rw [chosen] at searched
    have chooses := between.chooses chosen (skips best chosen)
    have ties : (!found.ambiguous.isEmpty && !n.definition.lenient) =
        decide (n.definition.lenient = false ∧ 2 ≤
          (Trial.tied n.definition.lenient best.executable.arity found.weight trials).length) := by
      rw [chooses.ambiguous, Search.isEmpty_tiesAmong]
      cases n.definition.lenient <;> simp
    refine .inr ⟨best, _, chooses, rfl, searched, ?_⟩
    unfold byClosestConstructor
    rw [Attempt.run_bind_of_ok sourced, Attempt.run_bind_lift, searched]
    simp only [chosen, ties, decide_eq_true_eq]
    split
    · rename_i tie
      rw [chooses.ambiguous, Search.tiesAmong, if_pos tie.2, List.map_map]
      rfl
    · rfl

end Creation

/-! A badge whose text is declared: it fits two constructors equally well, the longest has nothing
for its second parameter, and the shortest has no room for it. -/
namespace Badge

def constructor (parameters : List BeanType) : Executable where
  declaring := .plainClass "Badge"
  kind := .constructor
  isPublic := true
  parameters := parameters.map (⟨·, none⟩)
  effect := .makes (.plainClass "Badge")
  label := none

def constructors : List Executable :=
  [constructor [.object], constructor [], constructor [.string, .int], constructor [.string]]

def beanClass : BeanClass := ⟨.plainClass "Badge", constructors, []⟩

def definition : Definition :=
  { Definition.initial .initial with
    beanClass := some beanClass
    lenient := false
    arguments := ArgumentValues.empty.addGeneric ⟨.value (.str "visitor"), none, none, none⟩ }

def creation : Creation where
  host := .full
  create := createWithin .full 0
  context := .new 1
  bean := "badge"
  definition := definition
  explicit := none

def fresh : Container := .new .initial

def decision : Except BeanError Call :=
  ((creation.byClosestConstructor beanClass false (Executable.ranked constructors)).run.run fresh).1

def undecided : Except BeanError Call → List String
  | .error (.ambiguousMatch _ _ _ signatures) => signatures
  | _ => []

theorem greedy_of_badge :
    (∀ e ∈ constructors, e.isPublic = true) ∧
    undecided decision = ["Badge(Object)", "Badge(String)"] ∧
    ∃ (source : ArgumentSource) (trials : List Trial) (skipped : List Executable)
        (found : Search) (best : Selected) (m m' : Container),
      creation.source.run.run fresh = (.ok (source, 1), m) ∧
      creation.Tries source false constructors trials skipped m m' ∧
      found.Chooses false trials skipped best := by
  have uniform : ∀ e ∈ constructors, e.isPublic = true := by decide
  have tie : undecided decision = ["Badge(Object)", "Badge(String)"] := by decide +kernel
  obtain ⟨source, m, sourced⟩ : ∃ source m, creation.source.run.run fresh = (.ok (source, 1), m) :=
    ⟨_, _, rfl⟩
  refine ⟨uniform, tie, ?_⟩
  obtain ⟨trials, skipped, found, m', tries, ⟨-, -, e, c', failed, other⟩ | ⟨best, -, chooses, -⟩⟩ :=
    Creation.byClosestConstructor_greedy uniform sourced beanClass false
  · have fails : decision = .error e := congrArg Prod.fst failed
    rw [fails] at tie
    unfold undecided at tie
    split at tie
    · rename_i same
      exact absurd (Except.error.inj same) (other _ _ _ _)
    · cases tie
  · exact ⟨source, trials, skipped, found, best, m, m', sourced, tries, chooses⟩

end Badge

end BeanWiring
