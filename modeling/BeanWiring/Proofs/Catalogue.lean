import BeanWiring.Container.Runs
import BeanWiring.Proofs.Matching
import Mathlib.Data.List.Nodup

/-!
The definitions a container was ever given, those inside others among them. They are numbered without
gaps in the order in which they were built, so that no two of them share a serial number. Enrolling
builds what was not built before.
-/
namespace BeanWiring

namespace DeclaredValue

mutual

def family : DeclaredValue → List Definition
  | .value _ | .reference _ => []
  | .inner d => familyOfDefinition d
  | .list items => familyOfItems items

def familyOfDefinition : Blueprint DeclaredValue → List Definition
  | ⟨serial, c, fb, fm, u, ⟨indexed, generic⟩, a, l, n, s, p⟩ =>
    ⟨serial, c, fb, fm, u, ⟨indexed, generic⟩, a, l, n, s, p⟩ ::
      (familyOfIndexed indexed ++ familyOfGeneric generic)

def familyOfItems : List DeclaredValue → List Definition
  | [] => []
  | item :: rest => item.family ++ familyOfItems rest

def familyOfIndexed : List (UInt64 × Holder DeclaredValue) → List Definition
  | [] => []
  | (_, ⟨v, _, _, _⟩) :: rest => v.family ++ familyOfIndexed rest

def familyOfGeneric : List (Holder DeclaredValue) → List Definition
  | [] => []
  | ⟨v, _, _, _⟩ :: rest => v.family ++ familyOfGeneric rest

end

theorem familyOfIndexed_eq (indexed : List (UInt64 × Holder DeclaredValue)) :
    familyOfIndexed indexed = (indexed.map (·.2)).flatMap (·.value.family) := by
  induction indexed with
  | nil => rfl
  | cons entry rest ih => rw [familyOfIndexed, List.map_cons, List.flatMap_cons, ih]

theorem familyOfGeneric_eq (generic : List (Holder DeclaredValue)) :
    familyOfGeneric generic = generic.flatMap (·.value.family) := by
  induction generic with
  | nil => rfl
  | cons h rest ih => rw [familyOfGeneric, List.flatMap_cons, ih]

theorem familyOfDefinition_eq (d : Definition) :
    familyOfDefinition d = d :: d.arguments.holders.flatMap (·.value.family) := by
  rw [familyOfDefinition, familyOfIndexed_eq, familyOfGeneric_eq, ← List.flatMap_append]
  rfl

end DeclaredValue

def Catalogued (known : List Definition) : Prop :=
  ∀ d ∈ known, ∀ h ∈ d.arguments.holders, ∀ inner ∈ h.value.family, inner ∈ known

theorem Catalogued.nil : Catalogued [] := fun _ member => absurd member List.not_mem_nil

theorem Catalogued.append {known more : List Definition} (left : Catalogued known)
    (right : Catalogued more) : Catalogued (known ++ more) := by
  intro d member h held inner inside
  rcases List.mem_append.mp member with member | member
  · exact List.mem_append_left _ (left d member h held inner inside)
  · exact List.mem_append_right _ (right d member h held inner inside)

namespace DeclaredValue

mutual

theorem family_catalogued : (v : DeclaredValue) → Catalogued v.family
  | .value _ | .reference _ => .nil
  | .inner d => by rw [family]; exact familyOfDefinition_catalogued d
  | .list items => by rw [family]; exact familyOfItems_catalogued items

theorem familyOfDefinition_catalogued :
    (d : Blueprint DeclaredValue) → Catalogued (familyOfDefinition d)
  | ⟨serial, c, fb, fm, u, ⟨indexed, generic⟩, a, l, n, s, p⟩ => by
    have inside := (familyOfIndexed_catalogued indexed).append (familyOfGeneric_catalogued generic)
    intro d member h held inner within
    rw [familyOfDefinition] at member ⊢
    rcases List.mem_cons.mp member with same | member
    · subst same
      rw [familyOfIndexed_eq, familyOfGeneric_eq, ← List.flatMap_append]
      exact List.mem_cons_of_mem _ (List.mem_flatMap.mpr ⟨h, held, within⟩)
    · exact List.mem_cons_of_mem _ (inside d member h held inner within)

theorem familyOfItems_catalogued : (items : List DeclaredValue) → Catalogued (familyOfItems items)
  | [] => .nil
  | item :: rest => by
    rw [familyOfItems]
    exact (family_catalogued item).append (familyOfItems_catalogued rest)

theorem familyOfIndexed_catalogued :
    (indexed : List (UInt64 × Holder DeclaredValue)) → Catalogued (familyOfIndexed indexed)
  | [] => .nil
  | (_, ⟨v, _, _, _⟩) :: rest => by
    rw [familyOfIndexed]
    exact (family_catalogued v).append (familyOfIndexed_catalogued rest)

theorem familyOfGeneric_catalogued :
    (generic : List (Holder DeclaredValue)) → Catalogued (familyOfGeneric generic)
  | [] => .nil
  | ⟨v, _, _, _⟩ :: rest => by
    rw [familyOfGeneric]
    exact (family_catalogued v).append (familyOfGeneric_catalogued rest)

end

end DeclaredValue

/-- Definitions are numbered in the order in which they were built, together with those inside
them. -/
structure Numbered (built : List Definition) : Prop where
  serials : built.map (·.serial) = List.range' 1 built.length
  catalogued : Catalogued built

namespace Numbered

variable {built : List Definition}

theorem nil : Numbered [] := ⟨rfl, .nil⟩

theorem eq_of_serial_eq (numbered : Numbered built) {d d' : Definition} (member : d ∈ built)
    (member' : d' ∈ built) (same : d.serial = d'.serial) : d = d' :=
  List.inj_on_of_nodup_map (numbered.serials ▸ List.nodup_range') member member' same

theorem concat (numbered : Numbered built) {d : Definition} (serial : d.serial = built.length + 1)
    (inside : ∀ h ∈ d.arguments.holders, ∀ inner ∈ h.value.family, inner ∈ built) :
    Numbered (built ++ [d]) where
  serials := by
    rw [List.map_append, List.map_singleton, numbered.serials, serial, List.length_append,
      List.length_singleton, List.range'_1_concat, Nat.add_comm 1]
  catalogued := by
    intro d' member h held inner within
    refine List.mem_append_left _ ?_
    rcases List.mem_append.mp member with old | new
    · exact numbered.catalogued d' old h held inner within
    · cases List.mem_singleton.mp new
      exact inside h held inner within

end Numbered

def Blueprint.Outermost (d : Definition) (known : List Definition) : Prop :=
  ∀ d' ∈ known, ∀ h ∈ d'.arguments.holders, d ∉ h.value.family

namespace DeclaredValue

theorem mem_of_family (d : Definition) {built : List Definition} (catalogued : Catalogued built)
    (member : d ∈ built) : ∀ d' ∈ familyOfDefinition d, d' ∈ built := by
  intro d' inside
  rw [familyOfDefinition_eq] at inside
  rcases List.mem_cons.mp inside with rfl | deeper
  · exact member
  · obtain ⟨h, held, within⟩ := List.mem_flatMap.mp deeper
    exact catalogued d member h held d' within

/-- Numbering adds to the definitions built before, and the family of its result is among them
then. -/
def Builds {α : Type} (numbering : StateM (List Definition) α) (family : α → List Definition) :
    Prop :=
  ∀ built, Numbered built → built <+: (numbering.run built).2 ∧ Numbered (numbering.run built).2 ∧
    ∀ d ∈ family (numbering.run built).1, d ∈ (numbering.run built).2

theorem Builds.pair {α β γ : Type} {first : StateM (List Definition) α}
    {second : StateM (List Definition) β} {f : α → β → γ} {F : α → List Definition}
    {G : β → List Definition} {H : γ → List Definition} (one : Builds first F)
    (other : Builds second G) (joined : ∀ a b, H (f a b) = F a ++ G b) :
    Builds (do return f (← first) (← second)) H := by
  intro built numbered
  obtain ⟨grows, numbered, inside⟩ := one built numbered
  obtain ⟨grows', numbered', inside'⟩ := other (first.run built).2 numbered
  refine ⟨grows.trans grows', numbered', fun d member => ?_⟩
  change d ∈ H (f (first.run built).1 (second.run (first.run built).2).1) at member
  rw [joined] at member
  rcases List.mem_append.mp member with early | late
  · exact grows'.subset (inside d early)
  · exact inside' d late

theorem run_numberedDefinition_of_some {d known : Definition} {built : List Definition}
    (found : built.find? (·.serial == d.serial) = some known) :
    (numberedDefinition d).run built = (known, built) := by
  rw [numberedDefinition, StateT.run_bind, StateT.run_get, pure_bind]
  dsimp only
  rw [found]
  rfl

theorem run_numberedDefinition_of_none {serial : Nat} {c : Option BeanClass}
    {fb fm : Option String} {u a l n p : Bool} {scope : Scope}
    {arguments : ArgumentValues DeclaredValue} {built : List Definition}
    (found : built.find? (·.serial == serial) = none) :
    (numberedDefinition ⟨serial, c, fb, fm, u, arguments, a, l, n, scope, p⟩).run built =
      let parts : StateM (List Definition) (ArgumentValues DeclaredValue) :=
        do return ⟨← numberedIndexed arguments.indexed, ← numberedGeneric arguments.generic⟩
      let (arguments, built) := parts.run built
      let d := ⟨built.length + 1, c, fb, fm, u, arguments, a, l, n, scope, p⟩
      (d, built ++ [d]) := by
  rw [numberedDefinition, StateT.run_bind, StateT.run_get, pure_bind]
  dsimp only
  rw [found]
  rfl

mutual

theorem numbered_builds : (v : DeclaredValue) → Builds v.numbered family
  | .value _ | .reference _ => fun _ numbered =>
    ⟨List.prefix_rfl, numbered, fun _ member => absurd member List.not_mem_nil⟩
  | .inner d => fun built => numberedDefinition_builds d built
  | .list items => fun built => numberedItems_builds items built

theorem numberedDefinition_builds :
    (d : Blueprint DeclaredValue) → Builds (numberedDefinition d) familyOfDefinition
  | ⟨serial, c, fb, fm, u, ⟨indexed, generic⟩, a, l, n, s, p⟩ => by
    intro built numbered
    cases found : built.find? (·.serial == serial) with
    | some known =>
      rw [run_numberedDefinition_of_some found]
      exact ⟨List.prefix_rfl, numbered,
        mem_of_family known numbered.catalogued (List.mem_of_find?_eq_some found)⟩
    | none =>
      rw [run_numberedDefinition_of_none found]
      have parts : Builds (do return ⟨← numberedIndexed indexed, ← numberedGeneric generic⟩)
          (fun values : ArgumentValues DeclaredValue => values.holders.flatMap (·.value.family)) :=
        (numberedIndexed_builds indexed).pair (numberedGeneric_builds generic) fun _ _ => by
          rw [familyOfIndexed_eq, familyOfGeneric_eq, ← List.flatMap_append]
          rfl
      obtain ⟨grows, numbered, inside⟩ := parts built numbered
      have renewed := numbered.concat (d := ⟨_, c, fb, fm, u, _, a, l, n, s, p⟩) rfl
        fun h held inner within => inside inner (List.mem_flatMap.mpr ⟨h, held, within⟩)
      exact ⟨grows.trans (List.prefix_append _ _), renewed,
        mem_of_family _ renewed.catalogued (List.mem_append_right _ List.mem_cons_self)⟩

theorem numberedItems_builds :
    (items : List DeclaredValue) → Builds (numberedItems items) familyOfItems
  | [] => fun _ numbered =>
    ⟨List.prefix_rfl, numbered, fun _ member => absurd member List.not_mem_nil⟩
  | item :: rest => (numbered_builds item).pair (numberedItems_builds rest) fun _ _ => rfl

theorem numberedIndexed_builds :
    (indexed : List (UInt64 × Holder DeclaredValue)) →
      Builds (numberedIndexed indexed) familyOfIndexed
  | [] => fun _ numbered =>
    ⟨List.prefix_rfl, numbered, fun _ member => absurd member List.not_mem_nil⟩
  | (i, ⟨v, t, n, c⟩) :: rest =>
    Builds.pair (f := fun w rest => (i, Holder.mk w t n c) :: rest) (numbered_builds v)
      (numberedIndexed_builds rest) fun _ _ => rfl

theorem numberedGeneric_builds :
    (generic : List (Holder DeclaredValue)) → Builds (numberedGeneric generic) familyOfGeneric
  | [] => fun _ numbered =>
    ⟨List.prefix_rfl, numbered, fun _ member => absurd member List.not_mem_nil⟩
  | ⟨v, t, n, c⟩ :: rest =>
    Builds.pair (f := fun w rest => Holder.mk w t n c :: rest) (numbered_builds v)
      (numberedGeneric_builds rest) fun _ _ => rfl

end

end DeclaredValue

end BeanWiring
