import BeanWiring.Proofs.Graph

/-!
Asking for a dependent with a stack of pending beans and no bound on the steps. Such a search comes to
an end on every graph, since a bean looked at once is passed over from then on, and answers the same as
the search in rounds.
-/
namespace BeanWiring.Graph

/-- A search for `target` that looks at the first pending bean until one has it for a dependent or none
is left. The beans wired with one looked at are pending from then on, the last of them first. -/
inductive Probe (g : Graph) (target : String) : (seen pending : List String) → Bool → Prop
  | exhausted {seen} : Probe g target seen [] false
  | passed {seen pending bean answer} (known : bean ∈ seen)
      (later : Probe g target seen pending answer) : Probe g target seen (bean :: pending) answer
  | hit {seen pending bean} (fresh : bean ∉ seen) (direct : target ∈ g.dependents bean) :
      Probe g target seen (bean :: pending) true
  | further {seen pending bean answer} (fresh : bean ∉ seen) (apart : target ∉ g.dependents bean)
      (later : Probe g target (bean :: seen) ((g.dependents bean).reverse ++ pending) answer) :
      Probe g target seen (bean :: pending) answer

variable {g : Graph} {target bean : String} {seen pending : List String} {answer : Bool}

/-- What the beans looked at are wired into has been looked at too or is pending, and is not sought. -/
structure Probing (g : Graph) (target : String) (seen pending : List String) : Prop where
  apart : ∀ bean ∈ seen, ¬g.Leads bean target
  frontier : ∀ bean ∈ seen, ∀ next, g.Leads bean next → next ∈ seen ∨ next ∈ pending

theorem Probing.passed (probing : g.Probing target seen (bean :: pending)) (known : bean ∈ seen) :
    g.Probing target seen pending := by
  constructor
  · exact probing.apart
  · intro other looked next leads
    rcases probing.frontier other looked next leads with before | waiting
    · exact .inl before
    · rcases List.mem_cons.mp waiting with rfl | later
      · exact .inl known
      · exact .inr later

theorem Probing.further (probing : g.Probing target seen (bean :: pending))
    (apart : target ∉ g.dependents bean) :
    g.Probing target (bean :: seen) ((g.dependents bean).reverse ++ pending) := by
  constructor
  · intro other looked
    rcases List.mem_cons.mp looked with rfl | before
    · rwa [← mem_dependents]
    · exact probing.apart other before
  · intro other looked next leads
    rcases List.mem_cons.mp looked with rfl | before
    · exact .inr (List.mem_append_left _ (List.mem_reverse.mpr (mem_dependents.mpr leads)))
    · rcases probing.frontier other before next leads with known | waiting
      · exact .inl (List.mem_cons_of_mem _ known)
      · rcases List.mem_cons.mp waiting with rfl | later
        · exact .inl List.mem_cons_self
        · exact .inr (List.mem_append_right _ later)

theorem Probing.leaves (probing : g.Probing target seen pending) (looked : bean ∈ seen)
    (chain : Relation.TransGen g.Leads bean target) :
    ∃ waiting ∈ pending, Relation.TransGen g.Leads waiting target := by
  induction chain using Relation.TransGen.head_induction_on with
  | single leads => exact absurd leads (probing.apart _ looked)
  | head leads chain ih =>
    rcases probing.frontier _ looked _ leads with known | waiting
    · exact ih known
    · exact ⟨_, waiting, chain⟩

theorem Probe.answer_iff (probe : g.Probe target seen pending answer)
    (probing : g.Probing target seen pending) :
    answer = true ↔ ∃ bean ∈ pending, Relation.TransGen g.Leads bean target := by
  induction probe with
  | exhausted => simp
  | @passed seen pending bean answer known _ ih =>
    have still := probing.passed known
    rw [ih still]
    constructor
    · rintro ⟨other, waiting, chain⟩
      exact ⟨other, List.mem_cons_of_mem _ waiting, chain⟩
    · rintro ⟨other, waiting, chain⟩
      -- A bean seen before leads nowhere that another pending bean does not lead to.
      rcases List.mem_cons.mp waiting with rfl | later
      · exact still.leaves known chain
      · exact ⟨other, later, chain⟩
  | @hit seen pending bean _ direct =>
    have leads : g.Leads bean target := mem_dependents.mp direct
    simp only [true_iff]
    exact ⟨bean, List.mem_cons_self, .single leads⟩
  | @further seen pending bean answer _ apart _ ih =>
    have next := probing.further apart
    rw [ih next]
    constructor
    · rintro ⟨other, waiting, chain⟩
      rcases List.mem_append.mp waiting with wired | later
      · have leads : g.Leads bean other := mem_dependents.mp (List.mem_reverse.mp wired)
        exact ⟨bean, List.mem_cons_self, .head leads chain⟩
      · exact ⟨other, List.mem_cons_of_mem _ later, chain⟩
    · rintro ⟨other, waiting, chain⟩
      rcases List.mem_cons.mp waiting with rfl | later
      · exact next.leaves List.mem_cons_self chain
      · exact ⟨other, List.mem_append_right _ later, chain⟩

def unseen (g : Graph) (seen : List String) : List Edge :=
  g.edges.filter fun edge => edge.dependency ∉ seen

theorem unseen_cons :
    g.unseen (bean :: seen) = (g.unseen seen).filter fun edge => edge.dependency ≠ bean := by
  simp [unseen, List.filter_filter]

theorem length_unseen_cons_le : (g.unseen (bean :: seen)).length ≤ (g.unseen seen).length := by
  rw [unseen_cons]
  exact List.length_filter_le _ _

theorem length_unseen_cons_lt (fresh : bean ∉ seen) (occupied : g.dependents bean ≠ []) :
    (g.unseen (bean :: seen)).length < (g.unseen seen).length := by
  obtain ⟨next, wired⟩ := List.exists_mem_of_ne_nil _ occupied
  have leads : g.Leads bean next := mem_dependents.mp wired
  rw [unseen_cons, List.length_filter_lt_length_iff_exists]
  exact ⟨_, List.mem_filter.mpr ⟨leads, by simpa using fresh⟩, by simp⟩

/-- The search ends. A bean that is passed over or has no dependents leaves one fewer pending, and any
other leaves fewer edges that it has not followed. -/
theorem exists_probe (g : Graph) (target : String) (seen pending : List String) :
    ∃ answer, g.Probe target seen pending answer := by
  match pending with
  | [] => exact ⟨false, .exhausted⟩
  | bean :: pending =>
    by_cases known : bean ∈ seen
    · obtain ⟨answer, later⟩ := exists_probe g target seen pending
      exact ⟨answer, .passed known later⟩
    · by_cases direct : target ∈ g.dependents bean
      · exact ⟨true, .hit known direct⟩
      · obtain ⟨answer, later⟩ :=
          exists_probe g target (bean :: seen) ((g.dependents bean).reverse ++ pending)
        exact ⟨answer, .further known direct later⟩
termination_by ((g.unseen seen).length, pending.length)
decreasing_by
  · exact Prod.Lex.right' _ (Nat.le_refl _) (Nat.lt_succ_self _)
  · by_cases occupied : g.dependents bean = []
    · rw [occupied]
      exact Prod.Lex.right' _ length_unseen_cons_le (Nat.lt_succ_self _)
    · exact Prod.Lex.left _ _ (length_unseen_cons_lt known occupied)

theorem probe_iff {name : String} :
    g.Probe target [] [name] answer ↔ answer = g.isDependent name target := by
  have start : g.Probing target [] [name] := ⟨nofun, nofun⟩
  have agrees {answer : Bool} (probe : g.Probe target [] [name] answer) :
      answer = g.isDependent name target := by
    rw [Bool.eq_iff_iff, probe.answer_iff start, isDependent_iff]
    simp
  constructor
  · exact agrees
  · rintro rfl
    obtain ⟨answer, probe⟩ := exists_probe g target [] [name]
    rwa [← agrees probe]

end BeanWiring.Graph
