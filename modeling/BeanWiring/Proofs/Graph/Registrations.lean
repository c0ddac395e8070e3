import BeanWiring.Proofs.Graph.Pending
import BeanWiring.Proofs.Registry
import Mathlib.Algebra.GroupWithZero.Nat
import Mathlib.Data.Finset.Card
import Mathlib.Data.List.Induction

/-!
What a graph tells of the registrations it was made by: the same pairs from both ends of the edges, in
the order in which they were first registered. Keeping a table for each of the two ends comes to the same.
-/
namespace BeanWiring.Graph

def recorded (registrations : List Edge) : Graph :=
  registrations.foldl (fun g edge => g.register edge.dependency edge.dependent) empty

theorem recorded_concat (registrations : List Edge) (edge : Edge) :
    recorded (registrations ++ [edge]) =
      (recorded registrations).register edge.dependency edge.dependent := by
  simp [recorded]

variable {registrations : List Edge} {g : Graph} {edge : Edge} {key value : Edge → String}

section records

structure Records (registrations : List Edge) (g : Graph) : Prop where
  mem_iff : ∀ edge, edge ∈ g.edges ↔ edge ∈ registrations
  ordered : g.edges.Pairwise fun earlier later =>
    registrations.idxOf earlier < registrations.idxOf later

theorem Records.register (records : Records registrations g) (edge : Edge) :
    Records (registrations ++ [edge]) (g.register edge.dependency edge.dependent) := by
  -- To add one more at the end moves none of the first occurrences.
  have still : g.edges.Pairwise fun earlier later =>
      (registrations ++ [edge]).idxOf earlier < (registrations ++ [edge]).idxOf later := by
    apply records.ordered.imp_of_mem
    intro earlier later before after precedes
    rwa [List.idxOf_append_of_mem ((records.mem_iff _).mp before),
      List.idxOf_append_of_mem ((records.mem_iff _).mp after)]
  constructor
  · intro other
    rw [mem_register, records.mem_iff, List.mem_append, List.mem_singleton]
  · unfold Graph.register
    split
    · exact still
    · rename_i absent
      have fresh : edge ∉ registrations := by
        rw [← records.mem_iff]
        simpa using absent
      apply List.pairwise_append.mpr
      refine ⟨still, List.pairwise_singleton _ _, ?_⟩
      intro earlier before later last
      have known := (records.mem_iff earlier).mp before
      rw [List.mem_singleton.mp last, List.idxOf_append_of_mem known,
        List.idxOf_append_of_notMem fresh]
      have place := List.idxOf_lt_length_of_mem known
      omega

theorem recorded_records (registrations : List Edge) :
    Records registrations (recorded registrations) := by
  induction registrations using List.reverseRecOn with
  | nil => exact ⟨fun _ => Iff.rfl, List.Pairwise.nil⟩
  | append_singleton registrations edge ih =>
    rw [recorded_concat]
    exact ih.register edge

theorem nodup_of_ordered {α : Type} {listed : List α} {place : α → Nat}
    (ordered : listed.Pairwise fun earlier later => place earlier < place later) : listed.Nodup := by
  apply ordered.imp
  rintro earlier _ precedes rfl
  exact Nat.lt_irrefl _ precedes

variable (records : Records registrations g)
include records

theorem Records.ordered_listed {picks : Edge → Bool} (whole : String → Edge)
    (told : ∀ edge, picks edge = true → whole (value edge) = edge) :
    ((g.edges.filter picks).map value).Pairwise fun earlier later =>
      registrations.idxOf (whole earlier) < registrations.idxOf (whole later) := by
  rw [List.pairwise_map]
  apply (records.ordered.filter picks).imp_of_mem
  intro earlier later before after precedes
  rwa [told earlier (List.mem_filter.mp before).2, told later (List.mem_filter.mp after).2]

theorem Records.dependents_ordered (name : String) :
    (g.dependents name).Pairwise fun earlier later =>
      registrations.idxOf ⟨name, earlier⟩ < registrations.idxOf ⟨name, later⟩ := by
  apply records.ordered_listed fun other => ⟨name, other⟩
  intro edge same
  rw [← eq_of_beq same]

theorem Records.dependencies_ordered (name : String) :
    (g.dependencies name).Pairwise fun earlier later =>
      registrations.idxOf ⟨earlier, name⟩ < registrations.idxOf ⟨later, name⟩ := by
  apply records.ordered_listed fun other => ⟨other, name⟩
  intro edge same
  rw [← eq_of_beq same]

theorem Records.edgeCount_eq : g.edgeCount = registrations.toFinset.card := by
  have same : g.edges.toFinset = registrations.toFinset := by
    ext edge
    simp [records.mem_iff]
  rw [edgeCount, ← List.toFinset_card_of_nodup (nodup_of_ordered records.ordered), same]

end records

section tables

def adding (names : List String) (name : String) : List String :=
  if name ∈ names then names else names ++ [name]

theorem listed_register (edge : Edge) (name : String)
    (ends : ∀ other, key other = key edge → value other = value edge → other = edge) :
    ((g.register edge.dependency edge.dependent).edges.filter (key · == name)).map value =
      if key edge = name then adding ((g.edges.filter (key · == name)).map value) (value edge)
      else (g.edges.filter (key · == name)).map value := by
  unfold register
  split
  · rename_i present
    have old : edge ∈ g.edges := by simpa using present
    split
    · rename_i same
      have listed : value edge ∈ (g.edges.filter (key · == name)).map value :=
        List.mem_map.mpr ⟨edge, List.mem_filter.mpr ⟨old, by simp [same]⟩, rfl⟩
      rw [adding, if_pos listed]
    · rfl
  · rename_i absent
    have fresh : edge ∉ g.edges := by simpa using absent
    rw [List.filter_append, List.map_append]
    split
    · rename_i same
      have unlisted : value edge ∉ (g.edges.filter (key · == name)).map value := by
        intro listed
        obtain ⟨other, picked, equal⟩ := List.mem_map.mp listed
        obtain ⟨old, alike⟩ := List.mem_filter.mp picked
        rw [ends other ((eq_of_beq alike).trans same.symm) equal] at old
        exact fresh old
      rw [adding, if_neg unlisted]
      simp [same]
    · rename_i apart
      simp [apart]

theorem dependents_register (edge : Edge) (name : String) :
    (g.register edge.dependency edge.dependent).dependents name =
      if edge.dependency = name then adding (g.dependents name) edge.dependent
      else g.dependents name := by
  apply listed_register edge name
  rintro ⟨dependency, dependent⟩ rfl rfl
  rfl

theorem dependencies_register (edge : Edge) (name : String) :
    (g.register edge.dependency edge.dependent).dependencies name =
      if edge.dependent = name then adding (g.dependencies name) edge.dependency
      else g.dependencies name := by
  apply listed_register edge name
  rintro ⟨dependency, dependent⟩ rfl rfl
  rfl

abbrev Table := Registry String (List String)

namespace Table

variable {table : Table} {name other : String}

def listed (table : Table) (name : String) : List String := (table.get? name).getD []

def enter (table : Table) (key name : String) : Table :=
  table.insert key (adding (table.listed key) name)

def size (table : Table) : Nat := (table.entries.map fun entry => entry.2.length).sum

theorem listed_enter (table : Table) (key name other : String) :
    (table.enter key name).listed other =
      if key = other then adding (table.listed key) name else table.listed other := by
  unfold listed enter
  rw [Registry.get?_insert]
  split
  · rfl
  · rfl

theorem sum_put (key : String) (names : List String) (entries : List (String × List String)) :
    ((Registry.put key names entries).map fun entry => entry.2.length).sum +
        ((Registry.lookup key entries).getD []).length =
      (entries.map fun entry => entry.2.length).sum + names.length := by
  induction entries with
  | nil => simp [Registry.put, Registry.lookup]
  | cons entry rest ih =>
    obtain ⟨k, held⟩ := entry
    by_cases here : k = key
    · simp [Registry.put, Registry.lookup, here]
      omega
    · simp [Registry.put, Registry.lookup, here]
      omega

theorem size_enter (table : Table) (key name : String) :
    (table.enter key name).size =
      if name ∈ table.listed key then table.size else table.size + 1 := by
  have sum := sum_put key (adding (table.listed key) name) table.entries
  change (table.enter key name).size + (table.listed key).length =
    table.size + (adding (table.listed key) name).length at sum
  unfold adding at sum
  split
  · rename_i known
    rw [if_pos known] at sum
    omega
  · rename_i fresh
    rw [if_neg fresh, List.length_append, List.length_singleton] at sum
    omega

end Table

/-- The same edges kept twice: the dependents by their dependencies, the dependencies by their
dependents. -/
structure Tables where
  dependents : Table
  dependencies : Table

namespace Tables

variable {t : Tables}

def empty : Tables := ⟨.empty, .empty⟩

def register (t : Tables) (edge : Edge) : Tables :=
  ⟨t.dependents.enter edge.dependency edge.dependent,
    t.dependencies.enter edge.dependent edge.dependency⟩

def recorded (registrations : List Edge) : Tables := registrations.foldl register empty

structure Mirrors (t : Tables) (g : Graph) : Prop where
  dependents : ∀ name, t.dependents.listed name = g.dependents name
  dependencies : ∀ name, t.dependencies.listed name = g.dependencies name
  size : t.dependents.size = g.edgeCount

theorem Mirrors.register (mirrors : t.Mirrors g) (edge : Edge) :
    (t.register edge).Mirrors (g.register edge.dependency edge.dependent) := by
  unfold Tables.register
  constructor
  · intro name
    rw [Table.listed_enter, dependents_register, mirrors.dependents, mirrors.dependents]
    split
    · rename_i same
      rw [same]
    · rfl
  · intro name
    rw [Table.listed_enter, dependencies_register, mirrors.dependencies, mirrors.dependencies]
    split
    · rename_i same
      rw [same]
    · rfl
  · have known : edge.dependent ∈ g.dependents edge.dependency ↔ edge ∈ g.edges := mem_dependents
    simp only [Table.size_enter, mirrors.dependents, mirrors.size, known]
    simp only [edgeCount, Graph.register, List.contains_iff_mem]
    split
    · rfl
    · simp

theorem recorded_mirrors (registrations : List Edge) :
    (recorded registrations).Mirrors (Graph.recorded registrations) := by
  induction registrations using List.reverseRecOn with
  | nil => exact ⟨fun _ => rfl, fun _ => rfl, rfl⟩
  | append_singleton registrations edge ih =>
    have step : recorded (registrations ++ [edge]) = (recorded registrations).register edge := by
      simp [recorded]
    rw [step, recorded_concat]
    exact ih.register edge

end Tables

end tables

/-- After any registrations, the beans wired with a bean and those it was wired with tell the same pairs,
which are the registered ones, each listed once, in the order of the first registration. The edges are
counted as distinct registered pairs, and both tables a graph can be kept in agree with all of it. A bean
depends on another exactly if a chain of one or more registered edges leads there, and a search for it
comes to an end with that answer. -/
theorem recorded_consistent (registrations : List Edge) :
    (∀ name other, other ∈ (recorded registrations).dependents name ↔
      ⟨name, other⟩ ∈ registrations) ∧
    (∀ name other, name ∈ (recorded registrations).dependencies other ↔
      other ∈ (recorded registrations).dependents name) ∧
    (∀ name, ((recorded registrations).dependents name).Nodup ∧
      ((recorded registrations).dependents name).Pairwise fun earlier later =>
        registrations.idxOf ⟨name, earlier⟩ < registrations.idxOf ⟨name, later⟩) ∧
    (∀ name, ((recorded registrations).dependencies name).Nodup ∧
      ((recorded registrations).dependencies name).Pairwise fun earlier later =>
        registrations.idxOf ⟨earlier, name⟩ < registrations.idxOf ⟨later, name⟩) ∧
    (recorded registrations).edgeCount = registrations.toFinset.card ∧
    (Tables.recorded registrations).Mirrors (recorded registrations) ∧
    ∀ name bean,
      (∀ answer, (recorded registrations).Probe bean [] [name] answer ↔
        answer = (recorded registrations).isDependent name bean) ∧
      ((recorded registrations).isDependent name bean = true ↔
        Relation.TransGen (fun dependency dependent => ⟨dependency, dependent⟩ ∈ registrations)
          name bean) := by
  have records := recorded_records registrations
  have leads (dependency dependent : String) :
      (recorded registrations).Leads dependency dependent ↔ ⟨dependency, dependent⟩ ∈ registrations :=
    records.mem_iff _
  refine ⟨?_, ?_, ?_, ?_, records.edgeCount_eq, Tables.recorded_mirrors registrations, ?_⟩
  · intro name other
    rw [mem_dependents, leads]
  · intro name other
    rw [mem_dependents, mem_dependencies]
  · intro name
    have ordered := records.dependents_ordered name
    exact ⟨nodup_of_ordered ordered, ordered⟩
  · intro name
    have ordered := records.dependencies_ordered name
    exact ⟨nodup_of_ordered ordered, ordered⟩
  · intro name bean
    constructor
    · intro answer
      exact probe_iff
    · have same : (recorded registrations).Leads =
          fun dependency dependent => ⟨dependency, dependent⟩ ∈ registrations := by
        funext dependency dependent
        exact propext (leads dependency dependent)
      rw [isDependent_iff, same]

end BeanWiring.Graph
