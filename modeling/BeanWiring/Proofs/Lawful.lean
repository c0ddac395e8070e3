import BeanWiring.Proofs.Reachable

/-!
What holds of a container at all times, in the midst of a creation too. Beside what is sound, an
executable kept or remembered for a definition is one that the definition leaves open.
-/
namespace BeanWiring

namespace Container

theorem resolution?_withResolution (c : Container) (d d' : Definition) (r : Resolution) :
    (c.withResolution d' r).resolution? d =
      if d'.serial = d.serial then some r else c.resolution? d :=
  Registry.get?_insert _ _ _ _

theorem resolution?_withResolution_of_ne (c : Container) {d d' : Definition}
    (apart : d'.serial ≠ d.serial) (r : Resolution) :
    (c.withResolution d' r).resolution? d = c.resolution? d := by
  rw [resolution?_withResolution, if_neg apart]

theorem factoryMethod?_keeping (c : Container) {d : Definition} (r : Resolution)
    (named : d.factoryMethod.isSome = true) :
    (c.keeping d r).factoryMethod? d = some r.executable := by
  unfold factoryMethod? keeping
  rw [if_pos named]
  exact Registry.get?_insert_self _ _ _

theorem factoryMethods_keeping (c : Container) (d : Definition) (r : Resolution)
    (serial : Nat) :
    (c.keeping d r).factoryMethods.get? serial = c.factoryMethods.get? serial ∨
      d.factoryMethod.isSome = true ∧ d.serial = serial := by
  unfold keeping
  split
  · rename_i named
    by_cases same : d.serial = serial
    · exact .inr ⟨named, same⟩
    · exact .inl ((Registry.get?_insert _ _ _ _).trans (if_neg same))
  · exact .inl rfl

structure Lawful (known : List Definition) (c : Container) : Prop extends Sound known c where
  tries : ∀ serial r, c.resolutions.get? serial = some r →
    ∃ d ∈ known, d.serial = serial ∧ d.Tries r.executable
  remembers : ∀ serial e, c.factoryMethods.get? serial = some e →
    ∃ d ∈ known, d.serial = serial ∧ d.Opens e

namespace Lawful

variable {known : List Definition} {c c' : Container} {d : Definition}

theorem new (settings : Settings) : Lawful [] (.new settings) where
  toSound := .new settings
  tries _ r found := absurd (show (none : Option Resolution) = some r from found) nofun
  remembers _ e found := absurd (show (none : Option Executable) = some e from found) nofun

theorem frame (lawful : Lawful known c) (definitions : c'.definitions = c.definitions)
    (resolutions : c'.resolutions = c.resolutions)
    (factoryMethods : c'.factoryMethods = c.factoryMethods)
    (built : c'.built = c.built) : Lawful known c' where
  toSound := lawful.toSound.frame definitions resolutions built
  tries := resolutions ▸ lawful.tries
  remembers := factoryMethods ▸ lawful.remembers

theorem tries_executable (lawful : Lawful known c) (member : d ∈ known) {r : Resolution}
    (kept : c.resolution? d = some r) : d.Tries r.executable := by
  obtain ⟨d', member', same, tries⟩ := lawful.tries d.serial r kept
  exact lawful.eq_of_serial_eq member' member same ▸ tries

theorem allows_of_tried {I : Container → Prop} {e : Executable} (lawful : ∀ m, I m → Lawful known m)
    (member : d ∈ known) (tried : d.Tried I e) : d.Allows e := by
  rcases tried with allows | ⟨m, held, remembered⟩
  · exact allows
  · obtain ⟨d', member', same, opens⟩ := (lawful m held).remembers d.serial e remembered
    have own := (lawful m held).eq_of_serial_eq member' member same
    subst own
    exact .method opens

theorem rememberMethod (lawful : Lawful known c) (member : d ∈ known) {e : Executable}
    (opens : d.Opens e) :
    Lawful known { c with factoryMethods := c.factoryMethods.insert d.serial e } where
  toSound := lawful.toSound.frame rfl rfl rfl
  tries := lawful.tries
  remembers serial e' found := by
    rw [Registry.get?_insert] at found
    split at found
    · rename_i same
      cases found
      exact ⟨d, member, same, opens⟩
    · exact lawful.remembers serial e' found

theorem keepResolution (lawful : Lawful known c) (member : d ∈ known) {r : Resolution}
    (chosen : r.ChosenFor d) (tries : d.Tries r.executable) :
    Lawful known (c.withResolution d r) where
  toSound := lawful.toSound.keepResolution member chosen
  tries serial r' found := by
    change (c.resolutions.insert d.serial r).get? serial = some r' at found
    rw [Registry.get?_insert] at found
    split at found
    · rename_i same
      cases found
      exact ⟨d, member, same, tries⟩
    · exact lawful.tries serial r' found
  remembers := lawful.remembers

theorem keeping (lawful : Lawful known c) (member : d ∈ known) {r : Resolution}
    (chosen : r.ChosenFor d) (tries : d.Tries r.executable) : Lawful known (c.keeping d r) := by
  unfold Container.keeping
  split
  · rename_i named
    cases tries with
    | method opens =>
      exact (lawful.keepResolution member chosen (.method opens)).rememberMethod member opens
    | only plain => exact absurd (plain.symm.trans named) nofun
    | constructor plain => exact absurd (plain.symm.trans named) nofun
  · exact lawful.keepResolution member chosen tries

end Lawful

end Container

/-- Creation in the realm goes on in lawful containers and upholds `F`, but for keeping what is decided
on. `F` tells about definitions, singletons, resolutions and decisions only. -/
structure Realm.Heeds (w : Realm) (known : List Definition) (F : Container → Prop) : Prop where
  knows : ∀ d, w.known d ↔ d ∈ known
  push : ∀ ctx point, w.place ctx → w.place (ctx.push point)
  asks : ∀ c name d, c.Lawful known → F c → c.definitions.get? name = some d →
    (d.scope = .singleton → c.singletons.get? name = none) → w.asked c name d
  inside : ∀ c name d, c.Lawful known → F c → IsInnerName name → d ∈ known → ¬d.Outermost known →
    w.asked c name d
  begins : ∀ c ctx name d inside, F c → w.place ctx → w.asked c name d →
    ctx.begin name = .ok inside → w.place inside ∧ w.begun name d
  concerns : ∀ name d, w.begun name d → d ∈ known
  frame : ∀ c c', c'.definitions = c.definitions → c'.singletons = c.singletons →
    c'.resolutions = c.resolutions → c'.decisions = c.decisions → F c → F c'
  registerSingleton : ∀ m c name d bean, F m → m.definitions.get? name = some d →
    m.singletons.get? name = none → w.begun name d → F c →
    F { c with singletons := c.singletons.insert name bean }

structure Realm.Respects (w : Realm) (known : List Definition) (F : Container → Prop) : Prop
    extends Heeds w known F where
  keepResolution : ∀ m c name d r, m.Lawful known → F m → m.resolution? d = none → w.begun name d →
    d.Allows r.executable → F c → F (c.withResolution d r)

theorem Realm.Heeds.works {w : Realm} {known : List Definition} {F : Container → Prop}
    (heeds : w.Heeds known F) (catalogued : Catalogued known) :
    w.Works fun c => c.Lawful known ∧ F c where
  push := heeds.push
  registered _ name d inv found := (heeds.knows d).mpr (inv.1.registered name d found)
  asks c name d inv := heeds.asks c name d inv.1 inv.2
  inside c name d inv generated member h held inner within :=
    have member := (heeds.knows d).mp member
    heeds.inside c name inner inv.1 inv.2 generated (catalogued d member h held inner within)
      fun outermost => outermost d member h held within
  begins c ctx name d inside inv := heeds.begins c ctx name d inside inv.2
  concerns name d begun := (heeds.knows d).mpr (heeds.concerns name d begun)
  kept _ d _ inv member := inv.1.keptFor ((heeds.knows d).mp member)
  emit c _ inv := ⟨inv.1.frame rfl rfl rfl rfl, heeds.frame c _ rfl rfl rfl rfl inv.2⟩
  suppress c _ inv := ⟨inv.1.frame rfl rfl rfl rfl, heeds.frame c _ rfl rfl rfl rfl inv.2⟩
  makeObject c inv := ⟨inv.1.frame rfl rfl rfl rfl, heeds.frame c _ rfl rfl rfl rfl inv.2⟩
  nextInnerName c inv := ⟨inv.1.frame rfl rfl rfl rfl, heeds.frame c _ rfl rfl rfl rfl inv.2⟩
  invoke c _ inv := ⟨inv.1.frame rfl rfl rfl rfl, heeds.frame c _ rfl rfl rfl rfl inv.2⟩
  registerDependent c _ _ inv :=
    ⟨inv.1.frame rfl rfl rfl rfl, heeds.frame c _ rfl rfl rfl rfl inv.2⟩
  registerSingleton m c name d bean held found absent begun inv :=
    ⟨inv.1.frame rfl rfl rfl rfl,
      heeds.registerSingleton m c name d bean held.2 found absent begun inv.2⟩
  rememberMethod c d _ inv member opens _ :=
    ⟨inv.1.rememberMethod ((heeds.knows d).mp member) opens,
      heeds.frame c _ rfl rfl rfl rfl inv.2⟩

theorem Realm.Respects.upholds {w : Realm} {known : List Definition} {F : Container → Prop}
    (respects : w.Respects known F) (catalogued : Catalogued known) :
    w.Upholds fun c => c.Lawful known ∧ F c where
  toWorks := respects.works catalogued
  keep m c name d r held absent begun inv chosen tried := by
    have member := respects.concerns name d begun
    have allows := Container.Lawful.allows_of_tried (fun m held => held.1) member tried
    have kept := respects.keepResolution m c name d r held.1 held.2 absent begun allows inv.2
    refine ⟨inv.1.keeping member chosen allows.tries, ?_⟩
    exact respects.frame (c.withResolution d r) _ rfl rfl rfl rfl kept

theorem Realm.everywhere_respects {known : List Definition} {F : Container → Prop}
    (frame : ∀ c c', c'.definitions = c.definitions → c'.singletons = c.singletons →
      c'.resolutions = c.resolutions → c'.decisions = c.decisions → F c → F c')
    (registerSingleton : ∀ m c name bean, F m → m.definitions.contains name = true →
      m.singletons.get? name = none → F c → F { c with singletons := c.singletons.insert name bean })
    (keepResolution : ∀ m c d r, m.Lawful known → F m → m.resolution? d = none → d ∈ known →
      d.Allows r.executable → F c → F (c.withResolution d r)) :
    (Realm.everywhere (· ∈ known)).Respects known F where
  knows _ := Iff.rfl
  push _ _ _ := trivial
  asks _ name d lawful _ found _ := lawful.registered name d found
  inside _ _ _ _ _ _ member _ := member
  begins _ _ _ _ _ _ _ member _ := ⟨trivial, member⟩
  concerns _ _ member := member
  frame := frame
  registerSingleton m c name _ bean held found absent _ :=
    registerSingleton m c name bean held (Option.isSome_of_mem found) absent
  keepResolution m c _ d r lawful held absent member :=
    keepResolution m c d r lawful held absent member

theorem Realm.respects_nothing {known : List Definition} :
    (Realm.everywhere (· ∈ known)).Respects known fun _ => True :=
  Realm.everywhere_respects (fun _ _ _ _ _ _ _ => trivial) (fun _ _ _ _ _ _ _ _ => trivial)
    fun _ _ _ _ _ _ _ _ _ _ => trivial

theorem Container.Lawful.upholds {known : List Definition} {c : Container} (lawful : c.Lawful known) :
    (Realm.everywhere (· ∈ known)).Upholds fun c => c.Lawful known ∧ True :=
  Realm.respects_nothing.upholds lawful.catalogued

namespace Container

namespace Lawful

variable {known : List Definition} {c : Container}

theorem enroll (lawful : Lawful known c) (d : Definition) :
    Lawful (known ++ (Request.build d).enrolls c) ((Work.enroll d).run c).2 where
  toSound := (lawful.toSound.enroll d).1
  tries serial r found := by
    obtain ⟨d', member, same, tries⟩ := lawful.tries serial r found
    exact ⟨d', List.mem_append_left _ member, same, tries⟩
  remembers serial e found := by
    obtain ⟨d', member, same, opens⟩ := lawful.remembers serial e found
    exact ⟨d', List.mem_append_left _ member, same, opens⟩

theorem register (lawful : Lawful known c) (name : String) {d : Definition} (member : d ∈ known) :
    Lawful known ((Work.register name d).run c).2 := by
  obtain ⟨-, -, -, resolutions, factoryMethods, -⟩ := Work.run_register name d c
  exact ⟨lawful.toSound.register name member, resolutions ▸ lawful.tries,
    factoryMethods ▸ lawful.remembers⟩

theorem perform (lawful : Lawful known c) (request : Request) :
    Lawful (known ++ request.enrolls c) (request.perform.run c).2 := by
  have other {c' : Container} (kept : Lawful known c') : Lawful (known ++ []) c' := by
    rwa [List.append_nil]
  have asked (asks : request.isAsking = true) : Lawful known (request.perform.run c).2 := by
    exact (lawful.upholds.conducts.asked (fun _ => trivial) asks c ⟨lawful, trivial⟩).2.1.1
  cases request with
  | build d => exact lawful.enroll d
  | define name d => exact (lawful.enroll d).register name (lawful.toSound.enroll d).2
  | registerClass | registerSingleton | setProperty | registerDependent =>
    exact other (lawful.frame rfl rfl rfl rfl)
  | bean | beanOfType | lookup | isTypeMatch | introspect => exact other (asked rfl)
  | clearResolution name =>
    refine other (Request.clearResolution_leaves lawful fun d _ => ?_)
    have erased (serial : Nat) (r : Resolution)
        (found : (c.resolutions.erase d.serial).get? serial = some r) :
        c.resolutions.get? serial = some r := by
      rw [Registry.get?_erase] at found
      split at found
      · cases found
      · exact found
    exact { lawful with
      owned := fun serial r found => lawful.owned serial r (erased serial r found)
      tries := fun serial r found => lawful.tries serial r (erased serial r found) }

theorem performAll (lawful : Lawful known c) (requests : List Request) :
    ∃ more, Lawful (known ++ more) ((Request.performAll requests).run c).2 := by
  induction requests generalizing known c with
  | nil => exact ⟨[], by rwa [List.append_nil]⟩
  | cons request rest ih =>
    obtain ⟨more, later⟩ := ih (lawful.perform request)
    exact ⟨request.enrolls c ++ more, List.append_assoc known _ more ▸ later⟩

end Lawful

theorem Reachable.lawful {known : List Definition} {c : Container} (reachable : Reachable known c) :
    Lawful known c := by
  induction reachable with
  | fresh made =>
    obtain ⟨settings, rfl⟩ := ofSettings_ok made
    exact .new settings
  | step request _ ih => exact ih.perform request

end Container

theorem Request.eachCreation_of_respects {F : List Definition → Container → Prop}
    (respects : ∀ known, (Realm.everywhere (· ∈ known)).Respects known (F known))
    (performs : ∀ known c (request : Request), c.Lawful known → F known c →
      F (known ++ request.enrolls c) (request.perform.run c).2)
    {known : List Definition} {c : Container} {P : Creation → Container → Prop}
    (lawful : c.Lawful known) (held : F known c)
    (each : ∀ known room n m, n.host = .full → n.create = createWithin .full room →
      n.bean ∈ n.context.path → n.definition ∈ known → m.Lawful known → F known m → P n m)
    (requests : List Request) : EachCreation P requests c := by
  refine (eachCreation (J := fun c => ∃ known, c.Lawful known ∧ F known c) ?_ ?_
    ⟨known, lawful, held⟩ (along_of_forall (fun _ _ _ => trivial) c)).1
  · rintro _ c ⟨known, lawful, held⟩ _
    have upholds := (respects known).upholds lawful.catalogued
    refine ⟨_, _, upholds.conducts, fun _ => trivial, ?_, ⟨lawful, held⟩, fun m held => ⟨known, held⟩⟩
    intro ctx inside bean d explicit c _ held member began
    have told := upholds.emit c (.creating bean) held
    exact each known inside.room _ _ rfl rfl (Context.begin_path began) member told.1 told.2
  · rintro request c ⟨known, lawful, held⟩ _ _
    exact ⟨_, lawful.perform request, performs known c request lawful held⟩

theorem Request.eachCreation_of_lawful {known : List Definition} {c : Container}
    {P : Creation → Container → Prop} (lawful : c.Lawful known)
    (each : ∀ known room n m, n.host = .full → n.create = createWithin .full room →
      n.bean ∈ n.context.path → n.definition ∈ known → m.Lawful known → P n m)
    (requests : List Request) : EachCreation P requests c :=
  eachCreation_of_respects (F := fun _ _ => True) (fun _ => Realm.respects_nothing)
    (fun _ _ _ _ _ => trivial) lawful trivial
    (fun known room n m full within path member lawful _ =>
      each known room n m full within path member lawful) requests

end BeanWiring
