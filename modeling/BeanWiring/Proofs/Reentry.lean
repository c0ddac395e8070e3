import BeanWiring.Proofs.Lawful

/-!
What goes on inside the creation of a bean. The bean stays in creation all the while, so no creation
of it begins there, and what is registered and kept for it is left alone.
-/
namespace BeanWiring

namespace Container

def decided (c : Container) (d : Definition) : List Resolution :=
  (c.decisions.filter (·.1 == d.serial)).map (·.2)

theorem decided_withResolution (c : Container) (d : Definition) (r : Resolution) :
    (c.withResolution d r).decided d = c.decided d ++ [r] := by
  simp [decided, withResolution]

theorem decided_withResolution_of_ne (c : Container) {d d' : Definition}
    (apart : d'.serial ≠ d.serial) (r : Resolution) :
    (c.withResolution d' r).decided d = c.decided d := by
  simp [decided, withResolution, apart]

end Container

/-- Creation while `bean` is in creation. Definitions that are its `own` are created under no other
name. -/
def Realm.within (known : List Definition) (bean : String) (own : Definition → Prop) : Realm where
  place ctx := bean ∈ ctx.path
  known := (· ∈ known)
  asked _ name d := d ∈ known ∧ (own d → name = bean)
  begun name d := d ∈ known ∧ name ≠ bean ∧ ¬own d

variable {known : List Definition} {bean : String} {d : Definition}

theorem Realm.within_respects {own : Definition → Prop} {F : Container → Prop}
    (single : ∀ c name d, F c → own d → c.definitions.get? name = some d → name = bean)
    (outermost : ∀ d, own d → d.Outermost known)
    (frame : ∀ c c', c'.definitions = c.definitions → c'.singletons = c.singletons →
      c'.resolutions = c.resolutions → c'.decisions = c.decisions → F c → F c')
    (registerSingleton : ∀ c name v, name ≠ bean → F c →
      F { c with singletons := c.singletons.insert name v })
    (keepResolution : ∀ m c d r, m.Lawful known → F m → d ∈ known → ¬own d → F c →
      F (c.withResolution d r)) :
    (Realm.within known bean own).Respects known F where
  knows _ := Iff.rfl
  push _ _ place := place
  asks c name d lawful held found _ :=
    ⟨lawful.registered name d found, fun mine => single c name d held mine found⟩
  inside _ _ d _ _ _ member inside := ⟨member, fun mine => absurd (outermost d mine) inside⟩
  begins c ctx name d inside _ place asked began := by
    obtain ⟨path, apart⟩ := Context.begin_ok began
    -- The path never names a bean twice, so a creation that begins here is of another one.
    have other : name ≠ bean := fun same => apart (same ▸ place)
    refine ⟨?_, asked.1, other, fun mine => other (asked.2 mine)⟩
    change bean ∈ inside.path
    rw [path]
    exact List.mem_cons_of_mem name place
  concerns _ _ begun := begun.1
  frame := frame
  registerSingleton _ c name _ v _ _ _ begun := registerSingleton c name v begun.2.1
  keepResolution m c _ d r lawful held _ begun _ :=
    keepResolution m c d r lawful held begun.1 begun.2.2

/-- Inside the creation of a bean from the one definition under its name nothing is kept for that
definition, unless it is inside another definition as well. -/
theorem Realm.within_respects_resolution (bean : String) (member : d ∈ known)
    (outermost : d.Outermost known) (entry : Option Resolution) (decided : List Resolution) :
    (Realm.within known bean (· = d)).Respects known fun c =>
      (∀ name, c.definitions.get? name = some d ↔ name = bean) ∧ c.resolution? d = entry ∧
        c.decided d = decided := by
  refine Realm.within_respects ?_ ?_ ?_ (fun _ _ _ _ held => held) ?_
  · rintro c name d held rfl found
    exact (held.1 name).mp found
  · rintro d rfl
    exact outermost
  · intro c c' definitions _ resolutions decisions held
    unfold Container.resolution? Container.decided
    rw [definitions, resolutions, decisions]
    exact held
  · intro m c d' r lawful _ member' other held
    have apart : d'.serial ≠ d.serial := fun same => other (lawful.eq_of_serial_eq member' member same)
    refine ⟨held.1, ?_⟩
    rw [Container.resolution?_withResolution_of_ne c apart,
      Container.decided_withResolution_of_ne c apart]
    exact held.2

theorem Realm.within_respects_singleton (bean : String)
    (definitions : Registry String Definition) (held : Option Value) :
    (Realm.within known bean fun _ => False).Respects known fun c =>
      c.definitions = definitions ∧ c.singletons.get? bean = held := by
  refine Realm.within_respects (fun _ _ _ _ impossible => impossible.elim)
    (fun _ impossible => impossible.elim) ?_ ?_ (fun _ _ _ _ _ _ _ _ same => same)
  · intro c c' definitions singletons _ _ same
    rw [definitions, singletons]
    exact same
  · rintro c name v apart ⟨defined, same⟩
    refine ⟨defined, ?_⟩
    dsimp only
    rw [Registry.get?_insert, if_neg apart]
    exact same

end BeanWiring
