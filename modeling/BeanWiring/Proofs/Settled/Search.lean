import BeanWiring.Proofs.Decision
import BeanWiring.Proofs.Settled.Replay

/-!
Searching for the executable of the one bean that need not be there. In all containers alike the
search comes to the same choice. It comes to it again where the chosen executable is the only
candidate left, and what is then kept leads to the same arguments.
-/
namespace BeanWiring

variable {c₀ : Container} {kind : SearchKind} {lenient : Bool} {eligible : Executable → Bool}
  {r : Executable → Except Unsatisfied Binding}

namespace Search

/-- A search among candidates of which it is known what binding them comes to. -/
def fold (kind : SearchKind) (lenient : Bool) (eligible : Executable → Bool)
    (r : Executable → Except Unsatisfied Binding) : Search → List Executable → Search
  | s, [] => s
  | s, candidate :: rest =>
    if s.stopsAt kind candidate then s
    else if eligible candidate then
      fold kind lenient eligible r (s.step kind lenient candidate (r candidate)) rest
    else fold kind lenient eligible r s rest

theorem run_gives {bind : Executable → Work (Except Unsatisfied Binding)}
    {candidates : List Executable} (each : ∀ e ∈ candidates, Work.Gives c₀ (bind e) (r e))
    (s : Search) : Work.Gives c₀ (run kind lenient eligible bind s candidates)
      (fold kind lenient eligible r s candidates) := by
  induction candidates generalizing s with
  | nil => exact .pure s
  | cons candidate rest ih =>
    have later := ih fun e member => each e (List.mem_cons_of_mem _ member)
    unfold run fold
    split
    · exact .pure s
    · split
      · exact (each candidate List.mem_cons_self).bind (later _)
      · exact later s

structure Picks (lenient : Bool) (eligible : Executable → Bool)
    (r : Executable → Except Unsatisfied Binding) (candidates : List Executable) (best : Selected) :
    Prop where
  member : best.executable ∈ candidates
  eligible : eligible best.executable = true
  bound : r best.executable = .ok best.binding
  light : best.binding.weight lenient best.executable.parameterTypes < Weight.greatest

theorem step_picks (kind : SearchKind) {s : Search} {candidate : Executable}
    {candidates : List Executable}
    (member : candidate ∈ candidates) (suits : eligible candidate = true)
    (light : s.weight ≤ Weight.greatest)
    (sofar : ∀ best, s.best = some best → Picks lenient eligible r candidates best) :
    (s.step kind lenient candidate (r candidate)).weight ≤ Weight.greatest ∧
      ∀ best, (s.step kind lenient candidate (r candidate)).best = some best →
        Picks lenient eligible r candidates best := by
  cases bound : r candidate with
  | error failure => exact ⟨light, sofar⟩
  | ok b =>
    simp only [step, consider]
    split
    · rename_i lighter
      have less := Int.lt_of_lt_of_le lighter light
      refine ⟨Int.le_of_lt less, fun best chosen => ?_⟩
      cases chosen
      exact ⟨member, suits, bound, less⟩
    · split
      · exact ⟨light, sofar⟩
      · split <;> exact ⟨light, sofar⟩

theorem fold_picks {candidates all : List Executable} {s : Search} (among : candidates ⊆ all)
    (light : s.weight ≤ Weight.greatest)
    (sofar : ∀ best, s.best = some best → Picks lenient eligible r all best) (best : Selected)
    (chosen : (fold kind lenient eligible r s candidates).best = some best) :
    Picks lenient eligible r all best := by
  induction candidates generalizing s with
  | nil => exact sofar best chosen
  | cons candidate rest ih =>
    have later : rest ⊆ all := fun e member => among (List.mem_cons_of_mem candidate member)
    unfold fold at chosen
    split at chosen
    · exact sofar best chosen
    · split at chosen
      · rename_i suits
        obtain ⟨light', sofar'⟩ := step_picks kind (among List.mem_cons_self) suits light sofar
        exact ih later light' sofar' chosen
      · exact ih later light sofar chosen

theorem picks_of_fold {candidates : List Executable} {best : Selected}
    (chosen : (fold kind lenient eligible r .start candidates).best = some best) :
    Picks lenient eligible r candidates best := by
  refine fold_picks (List.Subset.refl _) (Int.le_refl _) (fun best sofar => ?_) best chosen
  cases sofar

theorem Picks.fold_alone {candidates : List Executable} {best : Selected}
    {r' : Executable → Except Unsatisfied Binding} (picks : Picks lenient eligible r candidates best)
    (same : r' best.executable = .ok best.binding) :
    (fold kind lenient eligible r' .start [best.executable]).best = some best ∧
      (fold kind lenient eligible r' .start [best.executable]).ambiguous = [] := by
  have begins : start.stopsAt kind best.executable = false := by cases kind <;> rfl
  have lighter : best.binding.weight lenient best.executable.parameterTypes < start.weight :=
    picks.light
  simp only [fold, begins, picks.eligible, same, step, consider, lighter]
  exact ⟨rfl, rfl⟩

end Search

namespace Creation

variable {n : Creation} {values : ArgumentValues ResolvedValue}

def again (n : Creation) (create : Creator) (ctx : Context) : Creation :=
  { n with create := create, context := ctx }

/-- What candidates come to when they are bound: in all containers alike the same, which is also what
they come to if empty containers are allowed. What is kept of it leads to the same arguments. -/
theorem exists_outcomes (settled : c₀.Settled n.bean)
    (resolved : ∀ g ∈ values.holders, g.IsSettled c₀ n.bean) (kind : SearchKind)
    (autowiring : Bool) :
    ∃ r : Bool → Executable → Except Unsatisfied Binding, ∀ e, e.TakesNoPoint →
      (∀ fallback b, r fallback e = .ok b → r true e = .ok b ∧ ∀ create ctx,
        Attempt.Gives c₀ (Attempt.recollect .full create ctx n.bean ⟨e, b.kept⟩) (.ok b.arguments)) ∧
      ∀ create ctx fallback, Work.Gives c₀
        ((n.again create ctx).bindCandidate kind (.declared values) autowiring fallback e)
        (r fallback e) := by
  have outcome (e : Executable) : ∃ r : Bool → Except Unsatisfied Binding, e.TakesNoPoint →
      (∀ fallback b, r fallback = .ok b → r true = .ok b ∧ ∀ create ctx,
        Attempt.Gives c₀ (Attempt.recollect .full create ctx n.bean ⟨e, b.kept⟩) (.ok b.arguments)) ∧
      ∀ create ctx fallback, Work.Gives c₀
        ((n.again create ctx).bindCandidate kind (.declared values) autowiring fallback e)
        (r fallback) := by
    -- What takes the injection point may come to something else each time, and nothing is said of
    -- it.
    by_cases ordinary : e.TakesNoPoint
    · obtain ⟨r, opens, gives⟩ := Work.bindDeclared_isSteady settled ordinary autowiring values
      refine ⟨r, fun _ => ⟨fun fallback b bound => ⟨opens fallback b bound, ?_⟩, ?_⟩⟩
      · obtain ⟨events, graph, run⟩ := gives (createWithin .full 0) (.new 0) fallback c₀ (.refl c₀)
        rw [bound] at run
        exact Attempt.recollect_of_bindDeclared settled resolved ordinary (.refl c₀) run
      · intro create ctx fallback
        refine Work.Gives.bind (gives create ctx fallback) ?_
        cases r fallback with
        | error failure => exact (Work.Gives.emit _).bind (.pure _)
        | ok b => exact .pure _
    · exact ⟨fun _ => .ok [], fun takes => absurd takes ordinary⟩
  choose r each using outcome
  exact ⟨fun fallback e => r e fallback, each⟩

theorem search_gives {kind : SearchKind} {autowiring : Bool}
    {r : Bool → Executable → Except Unsatisfied Binding} (create : Creator) (ctx : Context)
    {candidates : List Executable}
    (each : ∀ e ∈ candidates, ∀ fallback, Work.Gives c₀
      ((n.again create ctx).bindCandidate kind (.declared values) autowiring fallback e)
      (r fallback e)) (minCount : Nat) :
    Work.Gives c₀ ((n.again create ctx).search kind (.declared values) minCount autowiring candidates)
      (Search.fold kind n.definition.lenient ((ArgumentSource.declared values).suits minCount)
        (r (candidates.length == 1)) .start candidates) := by
  unfold search
  refine (Search.run_gives (fun e member => each e member (candidates.length == 1)) .start).bind ?_
  dsimp only [again]
  split
  · exact .pure _
  · exact (Work.Gives.emit _).bind (.pure _)

end Creation

end BeanWiring
