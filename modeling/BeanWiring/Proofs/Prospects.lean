import BeanWiring.Proofs.Prediction

/-!
The beans that a lookup can choose among. They are predicted one after the other, each from the state
that the predictions before it left. What those remembered makes no difference to it, so every bean is
predicted as it would have been at the start.
-/
namespace BeanWiring

variable {P : Definition → Prop} {c m c' : Container} {known : List Definition}

theorem Container.Fills.trans (first : c.Fills P m) (second : m.Fills P c') (sound : c.Sound known) :
    c.Fills P c' where
  rest := by rw [second.rest, first.rest]
  methods serial := by
    rcases second.methods serial with same | ⟨name, d, e, registered, own, holds, none, finds, new⟩
    · rcases first.methods serial with old | ⟨name, d, e, registered, own, holds, none, finds, new⟩
      · exact .inl (same.trans old)
      · subst own
        exact .inr ⟨name, d, e, registered, rfl, holds, none, finds, same.trans new⟩
    · have registered : c.definitions.get? name = some d := by
        rw [first.rest] at registered
        exact registered
      rcases first.method sound registered with same | ⟨-, -, e', filled, -⟩
      · exact .inr ⟨name, d, e, registered, own, holds, same.symm.trans none,
          (first.finds_iff sound).mp finds, new⟩
      · cases none.symm.trans filled

namespace Work

theorem isTypeMatch_tells (sound : c.Sound known) (name : String) (type : BeanType) :
    c.Fills (fun _ => True) ((isTypeMatch name type).run c).2 ∧
    (((isTypeMatch name type).run c).1 = true ↔
      ∃ told, c.Tells name told ∧ type.accepts told = true) := by
  obtain ⟨fills, tells⟩ := predict_predicts sound name
  refine ⟨fills, ?_⟩
  change ((predict name).run c).1.any type.accepts = true ↔ _
  rw [Option.any_eq_true]
  exact exists_congr fun told => and_congr_left fun _ => tells told

theorem isTypeMatch_of_fills (fills : c.Fills (fun _ => True) m) (sound : c.Sound known)
    (name : String) (type : BeanType) :
    ((isTypeMatch name type).run m).1 = ((isTypeMatch name type).run c).1 := by
  rw [Bool.eq_iff_iff, (isTypeMatch_tells sound name type).2,
    (isTypeMatch_tells (fills.sound sound) name type).2]
  exact exists_congr fun told => and_congr_left fun _ => fills.tells_iff sound

end Work

namespace Container

def prospects (c : Container) (type : BeanType) : List String :=
  c.beanNames.filter fun name => ((Work.isTypeMatch name type).run c).1

end Container

namespace Work

theorem matching_fits (sound : c.Sound known) (type : BeanType) (names : List String)
    (fills : c.Fills (fun _ => True) m) :
    c.Fills (fun _ => True) ((matching type names).run m).2 ∧
    ((matching type names).run m).1 =
      names.filter fun name => ((isTypeMatch name type).run c).1 := by
  induction names generalizing m with
  | nil => exact ⟨fills, rfl⟩
  | cons name rest ih =>
    have step := fills.trans (isTypeMatch_tells (fills.sound sound) name type).1 sound
    obtain ⟨later, others⟩ := ih step
    have fits := isTypeMatch_of_fills fills sound name type
    unfold matching
    rw [run_bind, List.filter_cons, ← fits]
    cases ((isTypeMatch name type).run m).1 with
    | true => exact ⟨later, congrArg (name :: ·) others⟩
    | false => exact ⟨later, others⟩

theorem candidatesFor_fits (sound : c.Sound known) (requester : String) (type : BeanType) :
    c.Fills (fun _ => True) ((candidatesFor requester type).run c).2 ∧
    ((candidatesFor requester type).run c).1 = (c.prospects type).filter (· != requester) := by
  obtain ⟨fills, names⟩ :=
    matching_fits sound type (c.beanNames.filter (· != requester)) (.refl _ c)
  exact ⟨fills, names.trans (List.filter_comm _ _ _)⟩

end Work

end BeanWiring
