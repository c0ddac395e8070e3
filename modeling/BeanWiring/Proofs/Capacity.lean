import BeanWiring.Proofs.Failures

/-!
Room for the declared values. A search tries the candidates that have a parameter for each declared value
and one under each declared index, and no others. Where the greatest index is declared there is no
search: the number of parameters it asks for is not a word.
-/
namespace BeanWiring

namespace ArgumentValues

variable {V : Type} {values : ArgumentValues V} {entries : List (UInt64 × Holder V)}
  {index : UInt64} {h : Holder V}

def greatestIndex : UInt64 := 0xffffffffffffffff

def Ascending (values : ArgumentValues V) : Prop := values.indexed.Pairwise fun p q => p.1 < q.1

structure HasRoom (values : ArgumentValues V) (e : Executable) : Prop where
  count_le : values.count ≤ e.arity
  index_lt : ∀ p ∈ values.indexed, p.1.toNat < e.arity

def collected (given : List (Option UInt64 × Holder V)) : ArgumentValues V :=
  given.foldl (fun values p => p.1.elim (values.addGeneric p.2) (values.addIndexed · p.2)) empty

theorem mem_insertIndexed {p : UInt64 × Holder V} (member : p ∈ insertIndexed index h entries) :
    p = (index, h) ∨ p ∈ entries := by
  induction entries with
  | nil => exact .inl (List.mem_singleton.mp member)
  | cons first rest ih =>
    unfold insertIndexed at member
    split at member
    · exact List.mem_cons.mp member
    · split at member
      · exact (List.mem_cons.mp member).imp_right (List.mem_cons_of_mem _)
      · rcases List.mem_cons.mp member with same | later
        · exact .inr (same ▸ List.mem_cons_self)
        · exact (ih later).imp_right (List.mem_cons_of_mem _)

theorem Ascending.addIndexed (ascending : values.Ascending) (index : UInt64) (h : Holder V) :
    (values.addIndexed index h).Ascending := by
  unfold Ascending ArgumentValues.addIndexed at *
  dsimp only
  generalize values.indexed = entries at ascending
  induction entries with
  | nil => exact List.pairwise_singleton _ _
  | cons first rest ih =>
    obtain ⟨least, rises⟩ := List.pairwise_cons.mp ascending
    unfold insertIndexed
    split
    · rename_i before
      refine List.pairwise_cons.mpr ⟨fun p member => ?_, ascending⟩
      rcases List.mem_cons.mp member with rfl | later
      · exact before
      · exact UInt64.lt_trans before (least p later)
    · rename_i notBefore
      split
      · rename_i same
        exact List.pairwise_cons.mpr ⟨fun p member => same ▸ least p member, rises⟩
      · rename_i other
        refine List.pairwise_cons.mpr ⟨fun p member => ?_, ih rises⟩
        rcases mem_insertIndexed member with rfl | later
        · exact UInt64.lt_of_le_of_ne (UInt64.not_lt.mp notBefore) (Ne.symm other)
        · exact least p later

theorem ascending_collected (given : List (Option UInt64 × Holder V)) :
    (collected given).Ascending := by
  unfold collected
  have start : (empty : ArgumentValues V).Ascending := List.Pairwise.nil
  revert start
  generalize (empty : ArgumentValues V) = values
  intro ascending
  induction given generalizing values with
  | nil => exact ascending
  | cons first rest ih =>
    obtain ⟨place, h⟩ := first
    cases place with
    | none => exact ih _ ascending
    | some index => exact ih _ (ascending.addIndexed index h)

theorem Ascending.le_last (ascending : values.Ascending) {last p : UInt64 × Holder V}
    (ends : values.indexed.getLast? = some last) (member : p ∈ values.indexed) : p.1 ≤ last.1 := by
  obtain ⟨before, split⟩ := List.getLast?_eq_some_iff.mp ends
  unfold Ascending at ascending
  rw [split] at ascending member
  rcases List.mem_append.mp member with earlier | here
  · exact UInt64.le_of_lt ((List.pairwise_append.mp ascending).2.2 p earlier last (by simp))
  · rw [List.mem_singleton.mp here]
    exact UInt64.le_refl _

theorem lt_size_iff (index : UInt64) : index.toNat + 1 < UInt64.size ↔ index ≠ greatestIndex := by
  have bound : index.toNat < 2 ^ 64 := index.toNat_lt
  have limit : greatestIndex.toNat = 2 ^ 64 - 1 := rfl
  rw [Ne, ← UInt64.toNat_inj, limit, show UInt64.size = 2 ^ 64 from rfl]
  omega

theorem Ascending.minCount?_eq_none_iff (ascending : values.Ascending) :
    values.minCount? = none ↔ ∃ p ∈ values.indexed, p.1 = greatestIndex := by
  unfold minCount?
  split
  · rename_i none
    simp [List.getLast?_eq_none_iff.mp none]
  · rename_i highest h ends
    rw [ite_eq_right_iff, lt_size_iff]
    constructor
    · intro beyond
      refine ⟨_, List.mem_of_getLast? ends, ?_⟩
      by_contra below
      cases beyond below
    · rintro ⟨p, listed, greatest⟩ below
      -- Nothing listed exceeds the last index, so this one is the greatest too.
      have reaches : p.1.toNat ≤ highest.toNat :=
        UInt64.le_iff_toNat_le.mp (ascending.le_last ends listed)
      have last : p.1.toNat = 2 ^ 64 - 1 := by rw [greatest]; rfl
      have bound : highest.toNat + 1 < 2 ^ 64 := (lt_size_iff highest).mpr below
      omega

theorem Ascending.le_arity_iff (ascending : values.Ascending) {minCount : Nat}
    (counted : values.minCount? = some minCount) (e : Executable) :
    minCount ≤ e.arity ↔ values.HasRoom e := by
  unfold minCount? at counted
  split at counted
  · rename_i none
    cases counted
    have unindexed := List.getLast?_eq_none_iff.mp none
    exact ⟨fun enough => ⟨enough, by simp [unindexed]⟩, HasRoom.count_le⟩
  · rename_i highest h ends
    split at counted
    · cases counted
      rw [Nat.max_le]
      constructor
      · rintro ⟨enough, beyond⟩
        refine ⟨enough, fun p listed => ?_⟩
        have most : p.1.toNat ≤ highest.toNat := ascending.le_last ends listed
        omega
      · intro room
        exact ⟨room.count_le, room.index_lt _ (List.mem_of_getLast? ends)⟩
    · cases counted

end ArgumentValues

namespace Creation

variable {n : Creation} {kind : SearchKind} {autowiring : Bool} {candidates : List Executable}
  {decide : Attempt Call} {source : ArgumentSource} {minCount : Nat} {c m : Container}

theorem suits_iff_hasRoom (ungiven : n.explicit = none)
    (ascending : n.definition.arguments.Ascending)
    (sourced : n.source.run.run c = (.ok (source, minCount), m)) (e : Executable) :
    source.suits minCount e = true ↔ n.definition.arguments.HasRoom e := by
  obtain ⟨values, rfl, counted, -⟩ := (source_ok_iff ungiven).mp sourced
  rw [← ascending.le_arity_iff counted]
  simp [ArgumentSource.suits]

theorem search_hasRoom (ungiven : n.explicit = none)
    (ascending : n.definition.arguments.Ascending)
    (sourced : n.source.run.run c = (.ok (source, minCount), m)) {found : Search} {m' : Container}
    {best : Selected}
    (searched : (n.search kind source minCount autowiring candidates).run m = (found, m'))
    (chosen : found.best = some best) : n.definition.arguments.HasRoom best.executable :=
  of_search (P := n.definition.arguments.HasRoom)
    (fun e _ => (suits_iff_hasRoom ungiven ascending sourced e).mp) searched chosen

/-- In any search for a creation without given arguments, the candidates tried and the one decided on have
room for the declared values. Those passed over have none. With a value for the greatest index it
does not come to a search. -/
theorem Closest.has_room (closest : n.Closest kind autowiring candidates decide)
    (ungiven : n.explicit = none) (ascending : n.definition.arguments.Ascending) (c : Container) :
    (∀ source minCount m, n.source.run.run c = (.ok (source, minCount), m) →
      (∀ e, source.suits minCount e = true ↔ n.definition.arguments.HasRoom e) ∧
      ∃ trials found m',
        n.LooksThrough kind source minCount autowiring candidates trials found m m' ∧
        (∀ t ∈ trials, n.definition.arguments.HasRoom t.candidate) ∧
        ∀ best, found.best = some best → n.definition.arguments.HasRoom best.executable) ∧
    (∀ call c', decide.run.run c = (.ok call, c') →
      n.definition.arguments.HasRoom call.executable) ∧
    ((∃ p ∈ n.definition.arguments.indexed, p.1 = ArgumentValues.greatestIndex) →
      ∀ source minCount m, n.source.run.run c ≠ (.ok (source, minCount), m)) := by
  refine ⟨fun source minCount m sourced => ?_, fun call c' ran => ?_, fun greatest => ?_⟩
  · have suits := suits_iff_hasRoom ungiven ascending sourced
    obtain ⟨trials, found, m', looks⟩ :=
      n.exists_looksThrough kind source minCount autowiring candidates m
    refine ⟨suits, trials, found, m', looks, fun t tried => ?_, fun best =>
      search_hasRoom ungiven ascending sourced looks.found⟩
    obtain ⟨seen, unseen, -, -, listed, -⟩ := looks.looks
    have among : t.candidate ∈ seen.filter (source.suits minCount) :=
      listed ▸ List.mem_map_of_mem tried
    exact (suits t.candidate).mp (List.mem_filter.mp among).2
  · cases closest with
    | constructor beanClass =>
      obtain ⟨_, _, _, _, _, best, sourced, searched, chosen, -, rfl, -⟩ :=
        byClosestConstructor_ok_iff.mp ran
      exact search_hasRoom ungiven ascending sourced searched chosen
    | factoryMethod factoryBean beanClass =>
      obtain ⟨_, _, _, _, _, best, sourced, searched, chosen, -, -, rfl, -⟩ :=
        byClosestMethod_ok_iff.mp ran
      exact search_hasRoom ungiven ascending sourced searched chosen
  · intro source minCount m sourced
    obtain ⟨values, -, counted, -⟩ := (source_ok_iff ungiven).mp sourced
    rw [ascending.minCount?_eq_none_iff.mpr greatest] at counted
    cases counted

end Creation

/-! A lamp whose colour is declared for the parameter at index 1, behind its bulb. -/
namespace Lantern

def constructor (parameters : List BeanType) : Executable where
  declaring := .plainClass "Lantern"
  kind := .constructor
  isPublic := true
  parameters := parameters.map (⟨·, none⟩)
  effect := .makes (.plainClass "Lantern")
  label := none

def bulb : BeanType := .plainClass "Bulb"

def candidates : List Executable := [constructor [bulb, .string], constructor [.string]]

def beanClass : BeanClass := ⟨.plainClass "Lantern", candidates, []⟩

def colour (index : UInt64) : ArgumentValues DeclaredValue :=
  .collected [(some index, ⟨.value (.str "red"), none, none, none⟩)]

def creation : Creation where
  host := .full
  create := createWithin .full 99
  context := ⟨[], ["lantern"], 100⟩
  bean := "lantern"
  definition :=
    { Definition.initial .initial with
      beanClass := some beanClass
      arguments := colour 1
      autowire := true }
  explicit := none

def stocked : Container :=
  ((Request.performAll [.registerSingleton "bulb" (.object bulb (.named "bulb"))]).run
    (.new .initial)).2

def decision : Attempt Call := creation.byClosestConstructor beanClass true candidates

def signature? : Except BeanError Call → Option String
  | .ok call => some call.executable.signature
  | .error _ => none

theorem has_room_of_lantern :
    creation.definition.arguments.Ascending ∧
    ¬creation.definition.arguments.HasRoom (constructor [.string]) ∧
    ∃ call c', decision.run.run stocked = (.ok call, c') ∧
      call.executable.signature = "Lantern(Bulb, String)" ∧
      creation.definition.arguments.HasRoom call.executable := by
  have ascending : creation.definition.arguments.Ascending :=
    ArgumentValues.ascending_collected _
  obtain ⟨-, decided, -⟩ := Creation.Closest.has_room
    (Creation.Closest.constructor beanClass true candidates) (n := creation) rfl ascending stocked
  refine ⟨ascending, fun room => ?_, ?_⟩
  · exact absurd (room.index_lt _ List.mem_cons_self) (by decide)
  · have made : signature? (decision.run.run stocked).1 = some "Lantern(Bulb, String)" := by
      decide +kernel
    obtain ⟨outcome, c', ran⟩ : ∃ outcome c', decision.run.run stocked = (outcome, c') :=
      ⟨_, _, rfl⟩
    rw [ran] at made
    cases outcome with
    | error e => cases made
    | ok call => exact ⟨call, c', ran, Option.some.inj made, decided call c' ran⟩

/-- With the greatest index in the place of 1 there is no number of parameters that is enough. -/
example : (colour ArgumentValues.greatestIndex).minCount? = none := by decide

end Lantern

end BeanWiring
