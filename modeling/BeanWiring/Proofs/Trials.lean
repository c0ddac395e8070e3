import BeanWiring.Selection

/-!
What a search comes to. Its loop keeps a choice, the weight of it, the candidates it ties with and the
failures; over the trials made so far these are the first match of the least weight, that weight, the
ties among the matches of it, and all failures in their order.
-/
namespace BeanWiring

structure Trial where
  candidate : Executable
  outcome : Except Unsatisfied Binding

def Selected.trial (s : Selected) : Trial := ⟨s.executable, .ok s.binding⟩

namespace Trial

/-- The weight of a match. Arguments of the greatest weight there is do not match. -/
def weight? (lenient : Bool) (t : Trial) : Option Int :=
  match t.outcome with
  | .error _ => none
  | .ok b =>
    let weight := b.weight lenient t.candidate.parameterTypes
    if weight < Weight.greatest then some weight else none

def failure? (t : Trial) : Option Unsatisfied :=
  match t.outcome with
  | .error failure => some failure
  | .ok _ => none

def weighing (lenient : Bool) (weight : Int) (trials : List Trial) : List Trial :=
  trials.filter fun t => t.weight? lenient == some weight

variable {lenient : Bool} {t : Trial} {w : Int}

theorem lt_greatest_of_weight? (weighs : t.weight? lenient = some w) : w < Weight.greatest := by
  unfold weight? at weighs
  split at weighs
  · cases weighs
  · dsimp only at weighs
    split at weighs
    · cases weighs
      assumption
    · cases weighs

theorem weighing_append (trials more : List Trial) :
    weighing lenient w (trials ++ more) = weighing lenient w trials ++ weighing lenient w more :=
  List.filter_append ..

def Complete (trials : List Trial) : Prop :=
  ∀ t ∈ trials, ∀ b, t.outcome = .ok b → b.length = t.candidate.arity

theorem Complete.append {trials : List Trial} (complete : Complete trials) {e : Executable}
    {r : Except Unsatisfied Binding} (length : ∀ b, r = .ok b → b.length = e.arity) :
    Complete (trials ++ [⟨e, r⟩]) := by
  intro t member b bound
  rcases List.mem_append.mp member with before | last
  · exact complete t before b bound
  · cases List.mem_singleton.mp last
    exact length b bound

theorem weighing_eq_nil {trials : List Trial}
    (others : ∀ t ∈ trials, t.weight? lenient ≠ some w) : weighing lenient w trials = [] :=
  List.filter_eq_nil_iff.mpr fun t member => by simpa using others t member

end Trial

namespace Search

variable {kind : SearchKind} {lenient : Bool} {s : Search} {trials : List Trial}

/-- The candidates told as ambiguous when the first of some trials of one weight is chosen: it and
those later ones that tie with it, if there are any. -/
def contested (kind : SearchKind) (lenient : Bool) : List Trial → List Executable
  | [] => []
  | best :: later =>
    let rivals := later.filter fun t => kind.ties lenient best.candidate t.candidate
    if rivals.isEmpty then [] else best.candidate :: rivals.map (·.candidate)

theorem contested_append (best t : Trial) (later : List Trial) :
    contested kind lenient (best :: (later ++ [t])) =
      let sofar := contested kind lenient (best :: later)
      if kind.ties lenient best.candidate t.candidate then
        (if sofar.isEmpty then [best.candidate] else sofar) ++ [t.candidate]
      else sofar := by
  unfold contested
  dsimp only
  rw [List.filter_append]
  cases ties : kind.ties lenient best.candidate t.candidate with
  | false => simp [ties]
  | true =>
    cases later.filter fun u => kind.ties lenient best.candidate u.candidate with
    | nil => simp [ties]
    | cons rival rivals => simp [ties]

structure Tallies (s : Search) (kind : SearchKind) (lenient : Bool) (trials : List Trial) : Prop where
  failures : s.failures = trials.filterMap Trial.failure?
  bounded : s.weight ≤ Weight.greatest
  unchosen : s.best = none → s.weight = Weight.greatest
  least : ∀ t ∈ trials, ∀ w, t.weight? lenient = some w → s.weight ≤ w
  first : (Trial.weighing lenient s.weight trials).head? = s.best.map Selected.trial
  ambiguous : s.ambiguous = contested kind lenient (Trial.weighing lenient s.weight trials)

theorem tallies_start : start.Tallies kind lenient [] where
  failures := rfl
  bounded := Int.le_refl _
  unchosen _ := rfl
  least _ member := (List.not_mem_nil member).elim
  first := rfl
  ambiguous := rfl

namespace Tallies

theorem unmatched (tallies : s.Tallies kind lenient trials) (none : s.best = none) :
    ∀ t ∈ trials, t.weight? lenient = .none := by
  intro t member
  cases weighs : t.weight? lenient with
  | none => rfl
  | some w =>
    have below := Trial.lt_greatest_of_weight? weighs
    have above := tallies.least t member w weighs
    rw [tallies.unchosen none] at above
    exact absurd below (Int.not_lt.mpr above)

theorem best_weighing (tallies : s.Tallies kind lenient trials) {best : Selected}
    (chosen : s.best = some best) :
    ∃ later, Trial.weighing lenient s.weight trials = best.trial :: later := by
  have first := tallies.first
  rw [chosen] at first
  exact List.head?_eq_some_iff.mp first

theorem best_matched (tallies : s.Tallies kind lenient trials) {best : Selected}
    (chosen : s.best = some best) :
    best.trial ∈ trials ∧ best.trial.weight? lenient = some s.weight := by
  obtain ⟨later, lightest⟩ := tallies.best_weighing chosen
  have member : best.trial ∈ Trial.weighing lenient s.weight trials :=
    lightest ▸ List.mem_cons_self
  obtain ⟨inside, weighs⟩ := List.mem_filter.mp member
  exact ⟨inside, by simpa using weighs⟩

theorem aside (tallies : s.Tallies kind lenient trials) {t : Trial}
    (heavier : ∀ w, t.weight? lenient = some w → s.weight < w) {failures : List Unsatisfied}
    (told : failures = s.failures ++ t.failure?.toList) :
    Tallies { s with failures := failures } kind lenient (trials ++ [t]) := by
  have same : Trial.weighing lenient s.weight (trials ++ [t]) =
      Trial.weighing lenient s.weight trials := by
    have others : Trial.weighing lenient s.weight [t] = [] := by
      refine Trial.weighing_eq_nil fun u member weighs => ?_
      cases List.mem_singleton.mp member
      exact Int.lt_irrefl _ (heavier _ weighs)
    rw [Trial.weighing_append, others, List.append_nil]
  refine ⟨?_, tallies.bounded, tallies.unchosen, fun u member w weighs => ?_, ?_, ?_⟩
  · change failures = _
    rw [told, List.filterMap_append, ← tallies.failures]
    cases failed : t.failure? <;> simp [failed]
  · rcases List.mem_append.mp member with before | last
    · exact tallies.least u before w weighs
    · cases List.mem_singleton.mp last
      exact Int.le_of_lt (heavier w weighs)
  · exact same ▸ tallies.first
  · exact same ▸ tallies.ambiguous

theorem lighter (tallies : s.Tallies kind lenient trials) (found : Selected) {w : Int}
    (weighs : found.trial.weight? lenient = some w) (less : w < s.weight) :
    Tallies { s with best := some found, weight := w, ambiguous := [] } kind lenient
      (trials ++ [found.trial]) := by
  have alone : Trial.weighing lenient w (trials ++ [found.trial]) = [found.trial] := by
    have others : Trial.weighing lenient w trials = [] :=
      Trial.weighing_eq_nil fun u member same =>
        absurd less (Int.not_lt.mpr (tallies.least u member w same))
    rw [Trial.weighing_append, others]
    simp [Trial.weighing, weighs]
  refine ⟨?_, Int.le_of_lt (Trial.lt_greatest_of_weight? weighs), by simp,
    fun u member w' weighs' => ?_, ?_, ?_⟩
  · change s.failures = _
    rw [List.filterMap_append, ← tallies.failures]
    exact (List.append_nil _).symm
  · rcases List.mem_append.mp member with before | last
    · exact Int.le_of_lt (Int.lt_of_lt_of_le less (tallies.least u before w' weighs'))
    · cases List.mem_singleton.mp last
      cases weighs.symm.trans weighs'
      exact Int.le_refl _
  · change (Trial.weighing lenient w (trials ++ [found.trial])).head? = some found.trial
    rw [alone]
    rfl
  · change [] = contested kind lenient (Trial.weighing lenient w (trials ++ [found.trial]))
    rw [alone]
    rfl

theorem level (tallies : s.Tallies kind lenient trials) {best : Selected}
    (chosen : s.best = some best) (found : Selected)
    (weighs : found.trial.weight? lenient = some s.weight) :
    Tallies
      { s with
        ambiguous :=
          if kind.ties lenient best.executable found.executable then
            (if s.ambiguous.isEmpty then [best.executable] else s.ambiguous) ++ [found.executable]
          else s.ambiguous }
      kind lenient (trials ++ [found.trial]) := by
  obtain ⟨later, lightest⟩ := tallies.best_weighing chosen
  have longer : Trial.weighing lenient s.weight (trials ++ [found.trial]) =
      best.trial :: (later ++ [found.trial]) := by
    rw [Trial.weighing_append, lightest]
    simp [Trial.weighing, weighs]
  refine ⟨?_, tallies.bounded, tallies.unchosen, fun u member w' weighs' => ?_, ?_, ?_⟩
  · change s.failures = _
    rw [List.filterMap_append, ← tallies.failures]
    exact (List.append_nil _).symm
  · rcases List.mem_append.mp member with before | last
    · exact tallies.least u before w' weighs'
    · cases List.mem_singleton.mp last
      cases weighs.symm.trans weighs'
      exact Int.le_refl _
  · change (Trial.weighing lenient s.weight (trials ++ [found.trial])).head? = _
    rw [longer, chosen]
    rfl
  · change _ = contested kind lenient (Trial.weighing lenient s.weight (trials ++ [found.trial]))
    rw [longer, contested_append, tallies.ambiguous, lightest]
    rfl

theorem step (tallies : s.Tallies kind lenient trials) (e : Executable)
    (r : Except Unsatisfied Binding) :
    (s.step kind lenient e r).Tallies kind lenient (trials ++ [⟨e, r⟩]) := by
  cases r with
  | error failure =>
    exact tallies.aside (t := ⟨e, .error failure⟩) (fun w weighs => by cases weighs) rfl
  | ok b =>
    have unfailed : s.failures = s.failures ++ (Trial.mk e (.ok b)).failure?.toList :=
      (List.append_nil _).symm
    have weighs : (Trial.mk e (.ok b)).weight? lenient =
        if b.weight lenient e.parameterTypes < Weight.greatest then
          some (b.weight lenient e.parameterTypes) else none := rfl
    simp only [Search.step, consider]
    split
    · rename_i less
      rw [if_pos (Int.lt_of_lt_of_le less tallies.bounded)] at weighs
      exact tallies.lighter ⟨e, b⟩ weighs less
    · rename_i notLess
      split
      · rename_i unchosen
        rw [tallies.unchosen unchosen] at notLess
        rw [if_neg notLess] at weighs
        exact tallies.aside (fun w same => by cases weighs.symm.trans same) unfailed
      · rename_i best chosen
        -- A choice is lighter than the greatest weight, so what ties with it is a match.
        by_cases level : b.weight lenient e.parameterTypes = s.weight
        · have below := Trial.lt_greatest_of_weight? (tallies.best_matched chosen).2
          rw [level, if_pos below] at weighs
          have next := tallies.level chosen ⟨e, b⟩ weighs
          split
          · rename_i tied
            rw [if_pos (Bool.and_eq_true_iff.mp tied).2] at next
            exact next
          · rename_i untied
            rw [if_neg fun ties => untied (by simp [level, ties])] at next
            exact next
        · rw [if_neg (by simp [level])]
          refine tallies.aside (fun w same => ?_) unfailed
          rw [weighs] at same
          split at same
          · cases same
            omega
          · cases same

end Tallies

def LooksAt {σ : Type} (s : Search) (kind : SearchKind) (lenient : Bool)
    (eligible : Executable → Bool) (bind : Executable → StateM σ (Except Unsatisfied Binding)) (c : σ)
    (seen : List Executable) : Prop :=
  ∀ before e after, seen = before ++ e :: after →
    ((run kind lenient eligible bind s before).run c).1.stopsAt kind e = false

section
variable {σ : Type} {eligible : Executable → Bool} {candidate : Executable} (lenient : Bool)
  (bind : Executable → StateM σ (Except Unsatisfied Binding)) (c : σ)

theorem run_cons_of_eligible (goesOn : s.stopsAt kind candidate = false)
    (suits : eligible candidate = true) (rest : List Executable) :
    (run kind lenient eligible bind s (candidate :: rest)).run c =
      (run kind lenient eligible bind (s.step kind lenient candidate ((bind candidate).run c).1)
        rest).run ((bind candidate).run c).2 := by
  conv =>
    lhs
    unfold run
  rw [goesOn, suits]
  rfl

theorem run_cons_of_ineligible (goesOn : s.stopsAt kind candidate = false)
    (unsuited : eligible candidate = false) (rest : List Executable) :
    (run kind lenient eligible bind s (candidate :: rest)).run c =
      (run kind lenient eligible bind s rest).run c := by
  conv =>
    lhs
    unfold run
  rw [goesOn, unsuited]
  rfl

variable {lenient bind c}

theorem LooksAt.cons {s' : Search} {c' : σ} {seen : List Executable}
    (goesOn : s.stopsAt kind candidate = false)
    (same : ∀ rest, (run kind lenient eligible bind s (candidate :: rest)).run c =
      (run kind lenient eligible bind s' rest).run c')
    (looks : s'.LooksAt kind lenient eligible bind c' seen) :
    s.LooksAt kind lenient eligible bind c (candidate :: seen) := by
  intro before e after split
  cases before with
  | nil =>
    cases split
    exact goesOn
  | cons first before =>
    obtain ⟨rfl, later⟩ := List.cons.inj split
    rw [same]
    exact looks before e after later

end

/-- A property of the state, of the trials made and of the candidates left holds when a search ends if
every trial and every candidate passed over keep it. A search that does not come to the end of the
candidates stops at the first one left. -/
theorem run_invariant {σ : Type} (eligible : Executable → Bool)
    (bind : Executable → StateM σ (Except Unsatisfied Binding))
    (Inv : Search → List Trial → List Executable → Prop)
    (tries : ∀ {s trials e rest r c c'}, Inv s trials (e :: rest) → s.stopsAt kind e = false →
      (bind e).run c = (r, c') → Inv (s.step kind lenient e r) (trials ++ [⟨e, r⟩]) rest)
    (passes : ∀ {s trials e rest}, Inv s trials (e :: rest) → Inv s trials rest)
    (candidates : List Executable) (inv : Inv s trials candidates) (c : σ) :
    ∃ found more seen unseen c',
      (run kind lenient eligible bind s candidates).run c = (found, c') ∧
      candidates = seen ++ unseen ∧
      s.LooksAt kind lenient eligible bind c seen ∧
      seen.filter eligible = more.map (·.candidate) ∧
      ((more.map (·.candidate)).mapM bind).run c = (more.map (·.outcome), c') ∧
      Inv found (trials ++ more) unseen ∧
      ∀ stop rest, unseen = stop :: rest → found.stopsAt kind stop = true := by
  -- The induction follows the search: it stops, tries the first candidate or passes it over.
  induction candidates generalizing s trials c with
  | nil =>
    exact ⟨s, [], [], [], c, rfl, rfl, by simp [LooksAt], rfl, rfl, by rwa [List.append_nil], nofun⟩
  | cons candidate rest ih =>
    cases stops : s.stopsAt kind candidate with
    | true =>
      refine ⟨s, [], [], candidate :: rest, c, ?_, rfl, by simp [LooksAt], rfl, rfl,
        by rwa [List.append_nil], ?_⟩
      · unfold run
        rw [stops]
        rfl
      · rintro stop _ same
        cases same
        exact stops
    | false =>
      cases suits : eligible candidate with
      | true =>
        obtain ⟨r, m, tried⟩ : ∃ r m, (bind candidate).run c = (r, m) := ⟨_, _, rfl⟩
        obtain ⟨found, more, seen, unseen, c', ran, split, looks, listed, bound, after, ends⟩ :=
          ih (tries inv stops tried) m
        have same := run_cons_of_eligible lenient bind c stops suits
        rw [tried] at same
        refine ⟨found, ⟨candidate, r⟩ :: more, candidate :: seen, unseen, c', ?_, ?_,
          looks.cons stops same, ?_, ?_, ?_, ends⟩
        · rw [same]
          exact ran
        · rw [split]
          rfl
        · rw [List.filter_cons_of_pos suits, listed]
          rfl
        · rw [List.map_cons, List.mapM_cons, StateT.run_bind, tried]
          change (StateT.run (List.mapM bind _ >>= _) m) = _
          rw [StateT.run_bind, bound]
          rfl
        · simpa using after
      | false =>
        obtain ⟨found, more, seen, unseen, c', ran, split, looks, listed, rests⟩ := ih (passes inv) c
        have same := run_cons_of_ineligible lenient bind c stops suits
        refine ⟨found, more, candidate :: seen, unseen, c', ?_, ?_, looks.cons stops same, ?_, rests⟩
        · rw [same]
          exact ran
        · rw [split]
          rfl
        · rw [List.filter_cons_of_neg (by simp [suits]), listed]

end Search

end BeanWiring
