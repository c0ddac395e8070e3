import BeanWiring.Proofs.Conversion

/-!
The items of a collection that is asked for. A collection of a kind that is taken anyway keeps its items
as they are, whatever they are; held in any other way, they are converted one by one, and it makes no
difference how they were held. So it makes none at all exactly where all items fit the element type.
-/
namespace BeanWiring

/-- How items can be held; an array without any demand on them is one of objects. -/
inductive Holding
  | list | set | array
  deriving DecidableEq, Repr

def Holding.hold (items : List Value) : Holding → Value
  | .list => .list items
  | .set => .set items
  | .array => .array .object items

namespace CollectionKind

def takes (kind : CollectionKind) : Holding → Bool
  | .list => kind.accepts .list
  | .set => kind.accepts .set
  | .array => false

/-- What is made where a collection of the kind is asked for: a list, unless it has to be a set. -/
def make (items : List Value) : CollectionKind → Value
  | .set => .set items
  | .collection | .list => .list items

theorem exists_takes (kind : CollectionKind) : ∃ holding, kind.takes holding = true := by
  cases kind with
  | collection | list => exact ⟨.list, rfl⟩
  | set => exact ⟨.set, rfl⟩

end CollectionKind

variable {items results : List Value} {element : BeanType} {kind : CollectionKind}
  {holding : Holding}

theorem Holding.items?_hold (items : List Value) (holding : Holding) :
    (holding.hold items).items? = some items := by
  cases holding <;> rfl

theorem CollectionKind.items?_make (items : List Value) (kind : CollectionKind) :
    (kind.make items).items? = some items := by
  cases kind <;> rfl

theorem fits_hold_eq_takes (kind : CollectionKind) (element : BeanType) (items : List Value)
    (holding : Holding) :
    (BeanType.collection kind element).fits (holding.hold items) = kind.takes holding := by
  cases kind <;> cases holding <;> rfl

namespace Value

abbrev ConvertEach (element : BeanType) : List Value → List Value → Prop :=
  List.Forall₂ fun item result => item.convert element = .ok result

theorem mapM_convert_of_each (each : ConvertEach element items results) :
    items.mapM (convert · element) = .ok results := by
  induction each with
  | nil => rfl
  | cons converted _ ih =>
    rw [List.mapM_cons, converted, ih]
    rfl

theorem mapM_convert (items : List Value) (element : BeanType) :
    (∃ results, ConvertEach element items results ∧
      items.mapM (convert · element) = .ok results) ∨
    ∃ mismatch, (∃ item ∈ items, item.convert element = .error mismatch) ∧
      items.mapM (convert · element) = .error mismatch := by
  induction items with
  | nil => exact .inl ⟨[], .nil, rfl⟩
  | cons item rest ih =>
    cases first : item.convert element with
    | error mismatch =>
      refine .inr ⟨mismatch, ⟨item, List.mem_cons_self, first⟩, ?_⟩
      rw [List.mapM_cons, first]
      rfl
    | ok result =>
      rcases ih with ⟨results, each, -⟩ | ⟨mismatch, ⟨later, member, fails⟩, failed⟩
      · have all : ConvertEach element (item :: rest) (result :: results) := .cons first each
        exact .inl ⟨_, all, mapM_convert_of_each all⟩
      · refine .inr ⟨mismatch, ⟨later, List.mem_cons_of_mem item member, fails⟩, ?_⟩
        rw [List.mapM_cons, first, failed]
        rfl

theorem ConvertEach.fits (each : ConvertEach element items results) :
    ∀ result ∈ results, element.fits result = true := by
  induction each with
  | nil => nofun
  | cons converted _ ih =>
    intro result member
    rcases List.mem_cons.mp member with rfl | later
    · exact fits_of_convert converted
    · exact ih result later

theorem convertEach_self (fit : ∀ item ∈ items, element.fits item = true) :
    ConvertEach element items items :=
  List.forall₂_same.mpr fun item member => convert_of_fits (fit item member)

theorem convert_hold_of_takes (taken : kind.takes holding = true) (element : BeanType)
    (items : List Value) :
    (holding.hold items).convert (.collection kind element) = .ok (holding.hold items) :=
  convert_of_fits ((fits_hold_eq_takes kind element items holding).trans taken)

theorem convert_hold_of_not_takes (untaken : kind.takes holding = false) (element : BeanType)
    (items : List Value) :
    (holding.hold items).convert (.collection kind element) =
      (items.mapM (convert · element)).map fun results => kind.make results := by
  have unfit := (fits_hold_eq_takes kind element items holding).trans untaken
  conv =>
    lhs
    unfold convert
  rw [if_neg (by simp [unfit])]
  cases holding with
  | array => cases kind <;> rfl
  | list =>
    cases kind with
    | set => rfl
    | collection | list => cases untaken
  | set =>
    cases kind with
    | list => rfl
    | collection | set => cases untaken

/-- Whether it makes no difference how the items are held where a collection is asked for: it always
fails, or always gives a container of the same items, each of which fits the element type. -/
def Indifferent (items : List Value) (kind : CollectionKind) (element : BeanType) : Prop :=
  (∀ holding : Holding, ∃ mismatch,
    (holding.hold items).convert (.collection kind element) = .error mismatch) ∨
  ∃ results, (∀ result ∈ results, element.fits result = true) ∧
    ∀ holding : Holding, ∃ made,
      (holding.hold items).convert (.collection kind element) = .ok made ∧
        made.items? = some results

theorem indifferent_iff :
    Indifferent items kind element ↔ ∀ item ∈ items, element.fits item = true := by
  constructor
  · obtain ⟨holding, taken⟩ := kind.exists_takes
    have kept := convert_hold_of_takes taken element items
    rintro (fails | ⟨results, fit, gives⟩)
    · obtain ⟨mismatch, failed⟩ := fails holding
      cases kept.symm.trans failed
    · obtain ⟨made, converted, holds⟩ := gives holding
      cases kept.symm.trans converted
      cases (holding.items?_hold items).symm.trans holds
      exact fit
  · intro fit
    refine .inr ⟨items, fit, fun holding => ?_⟩
    cases taken : kind.takes holding with
    | true => exact ⟨_, convert_hold_of_takes taken element items, holding.items?_hold items⟩
    | false =>
      refine ⟨kind.make items, ?_, kind.items?_make items⟩
      rw [convert_hold_of_not_takes taken, mapM_convert_of_each (convertEach_self fit)]
      rfl

/-- Items held in a way that the collection takes stay as they are. Held in any other way, they are
converted one by one, with one outcome for all these ways: the failure of an item, or the collection of
the results, each of which fits the element type. It makes no difference at all how they are held exactly
if they all fit the element type. -/
theorem convert_held (items : List Value) (kind : CollectionKind) (element : BeanType) :
    (∀ holding : Holding, kind.takes holding = true →
      (holding.hold items).convert (.collection kind element) = .ok (holding.hold items)) ∧
    ((∃ mismatch, (∃ item ∈ items, item.convert element = .error mismatch) ∧
        ∀ holding : Holding, kind.takes holding = false →
          (holding.hold items).convert (.collection kind element) = .error mismatch) ∨
      ∃ results, ConvertEach element items results ∧
        (∀ result ∈ results, element.fits result = true) ∧
        ∀ holding : Holding, kind.takes holding = false →
          (holding.hold items).convert (.collection kind element) = .ok (kind.make results)) ∧
    (Indifferent items kind element ↔ ∀ item ∈ items, element.fits item = true) := by
  refine ⟨fun holding taken => convert_hold_of_takes taken element items, ?_, indifferent_iff⟩
  rcases mapM_convert items element with ⟨results, each, made⟩ | ⟨mismatch, fails, failed⟩
  · refine .inr ⟨results, each, each.fits, fun holding untaken => ?_⟩
    rw [convert_hold_of_not_takes untaken, made]
    rfl
  · refine .inl ⟨mismatch, fails, fun holding untaken => ?_⟩
    rw [convert_hold_of_not_takes untaken, failed]
    rfl

theorem convert_held_of_texts :
    CollectionKind.list.takes .list = true ∧ CollectionKind.list.takes .set = false ∧
    CollectionKind.list.takes .array = false ∧
    (list [.str "1", .int 2]).convert (.collection .list .int) = .ok (list [.str "1", .int 2]) ∧
    ∃ results, ConvertEach .int [.str "1", .int 2] results ∧
      (set [.str "1", .int 2]).convert (.collection .list .int) = .ok (list results) ∧
      (array .object [.str "1", .int 2]).convert (.collection .list .int) = .ok (list results) := by
  obtain ⟨kept, outcome, -⟩ := convert_held [.str "1", .int 2] .list .int
  refine ⟨rfl, rfl, rfl, kept .list rfl, ?_⟩
  rcases outcome with ⟨mismatch, ⟨item, member, fails⟩, -⟩ | ⟨results, each, -, gives⟩
  · rcases List.mem_cons.mp member with rfl | later
    · cases fails
    · cases List.mem_singleton.mp later
      cases fails
  · exact ⟨results, each, gives .set rfl, gives .array rfl⟩

/-- A text in a list stays a text where a list of numbers is asked for, but is read where it stands in a
set. -/
theorem texts_not_indifferent :
    (list [.str "1"]).convert (.collection .list .int) = .ok (list [.str "1"]) ∧
    (set [.str "1"]).convert (.collection .list .int) = .ok (list [.int 1]) ∧
    ¬Indifferent [.str "1"] .list .int := by
  refine ⟨rfl, rfl, fun indifferent => ?_⟩
  have fits := indifferent_iff.mp indifferent (.str "1") List.mem_cons_self
  cases fits

end Value

end BeanWiring
