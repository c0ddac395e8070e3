import BeanWiring.Proofs.OneAttempt

/-!
A decision stays. For a definition with one name that is inside no other, no more than one resolution is
ever kept, from whatever creations begin inside the one that decides on it, and every creation that
takes its arguments from the definition uses the executable kept.
-/
namespace BeanWiring

variable {known : List Definition} {c m m' : Container} {d : Definition} {r : Resolution}

theorem Request.resolution?_of_telling {request : Request} (telling : request.isAsking = false)
    (c : Container) :
    (request.perform.run c).2.resolutions = c.resolutions ∨
    ∃ name d, request = .clearResolution name ∧ c.definitions.get? name = some d ∧
      (request.perform.run c).2.resolutions = c.resolutions.erase d.serial := by
  cases request with
  | define name d => exact .inl (Work.run_register name _ _).2.2.2.1
  | build | registerClass | registerSingleton | setProperty | registerDependent => exact .inl rfl
  | clearResolution name =>
    exact clearResolution_leaves (P := fun m => m.resolutions = c.resolutions ∨
      ∃ other d, clearResolution name = .clearResolution other ∧
        c.definitions.get? other = some d ∧ m.resolutions = c.resolutions.erase d.serial)
      (.inl rfl) fun d found => .inr ⟨name, d, rfl, found, rfl⟩
  | _ => cases telling

theorem Request.decisions_of_telling {request : Request} (telling : request.isAsking = false)
    (c : Container) : (request.perform.run c).2.decisions = c.decisions := by
  cases request with
  | define name d => exact (Work.run_register name _ _).2.2.2.2.2.2.1
  | build | registerClass | registerSingleton | setProperty | registerDependent => rfl
  | clearResolution name =>
    exact clearResolution_leaves (P := (·.decisions = c.decisions)) rfl fun _ _ => rfl
  | _ => cases telling

/-- Since `c` nothing was decided for the definition, or one thing, where there was nothing before. What
was decided is kept. -/
def Container.KeepsOnce (c : Container) (d : Definition) (m : Container) : Prop :=
  (m.resolution? d = c.resolution? d ∧ m.decided d = c.decided d) ∨
  (c.resolution? d = none ∧ ∃ r, m.resolution? d = some r ∧ m.decided d = c.decided d ++ [r])

namespace Container.KeepsOnce

theorem refl (c : Container) (d : Definition) : c.KeepsOnce d c := .inl ⟨rfl, rfl⟩

theorem trans (before : c.KeepsOnce d m) (after : m.KeepsOnce d m') : c.KeepsOnce d m' := by
  rcases before with ⟨entry, decided⟩ | ⟨absent, r, kept, decided⟩
  · unfold KeepsOnce at after ⊢
    rwa [entry, decided] at after
  · rcases after with ⟨entry, same⟩ | ⟨absent', -⟩
    · exact .inr ⟨absent, r, entry.trans kept, same.trans decided⟩
    · cases kept.symm.trans absent'

theorem frame (keeps : c.KeepsOnce d m) (resolution : m'.resolution? d = m.resolution? d)
    (decisions : m'.decisions = m.decisions) : c.KeepsOnce d m' :=
  keeps.trans (.inl ⟨resolution, by unfold decided; rw [decisions]⟩)

theorem keeping_of_ne (keeps : c.KeepsOnce d m) {d' : Definition} (apart : d'.serial ≠ d.serial)
    (r : Resolution) : c.KeepsOnce d (m.keeping d' r) :=
  keeps.trans (.inl ⟨resolution?_withResolution_of_ne m apart r,
    decided_withResolution_of_ne m apart r⟩)

end Container.KeepsOnce

namespace Creation

variable {n : Creation} {room : Nat} {call : Call}

theorem keepsOnce_of_call (full : n.host = .full) (within : n.create = createWithin .full room)
    (inside : n.bean ∈ n.context.path) (lawful : m.Lawful known)
    (single : ∀ name, m.definitions.get? name = some n.definition ↔ name = n.bean)
    (outermost : n.definition.Outermost known) (decided : n.call.run.run m = (.ok call, m')) :
    m.KeepsOnce n.definition m' ∧
      (n.explicit = none → ∃ r, m'.resolution? n.definition = some r ∧
        r.executable = call.executable ∧
        (m.resolution? n.definition = none ∨ m.resolution? n.definition = some r)) := by
  have member := lawful.registered n.bean n.definition ((single n.bean).mpr rfl)
  have respects := Realm.within_respects_resolution n.bean member outermost
    (m.resolution? n.definition) (m.decided n.definition)
  have conducts := (respects.upholds lawful.catalogued).conducts
  have decides := (conducts.decides full within inside member ⟨lawful, single, rfl, rfl⟩).2
  cases (decides call m' decided).2 with
  | replayed ungiven held entry same inv =>
    refine ⟨.inl inv.2.2, fun _ => ⟨_, ?_, same, .inr ?_⟩⟩
    · rw [inv.2.2.1, ← held.2.2.1, entry]
    · rw [← held.2.2.1, entry]
  | given explicit tried inv =>
    exact ⟨.inl inv.2.2, fun ungiven => absurd (ungiven ▸ explicit) nofun⟩
  | @found m₁ m₂ r ungiven held absent same kept tried inv =>
    -- Nothing was kept when the creation looked, and nothing since: what it keeps now is the first.
    have entry : (m₂.keeping n.definition r).resolution? n.definition = some r :=
      Registry.get?_insert_self _ _ _
    have nothing : m.resolution? n.definition = none := held.2.2.1.symm.trans absent
    refine ⟨.inr ⟨nothing, r, entry, ?_⟩, fun _ => ⟨r, entry, same, .inl nothing⟩⟩
    rw [← inv.2.2.2]
    exact Container.decided_withResolution m₂ n.definition r

end Creation

def Realm.named (known : List Definition) (definitions : Registry String Definition)
    (d : Definition) : Realm where
  place _ := True
  known := (· ∈ known)
  asked _ name d' := d' ∈ known ∧ (d' = d → definitions.get? name = some d)
  begun name d' := d' ∈ known ∧ (d' = d → definitions.get? name = some d)

theorem Realm.named_heeds (outermost : d.Outermost known) (definitions : Registry String Definition)
    (c : Container) :
    (Realm.named known definitions d).Heeds known fun m =>
      m.definitions = definitions ∧ c.KeepsOnce d m where
  knows _ := Iff.rfl
  push _ _ _ := trivial
  asks m name d' lawful held found _ := by
    refine ⟨lawful.registered name d' found, ?_⟩
    rintro rfl
    exact held.1 ▸ found
  inside _ _ d' _ _ _ member inside := ⟨member, fun own => absurd (own ▸ outermost) inside⟩
  begins _ _ _ _ _ _ _ asked _ := ⟨trivial, asked⟩
  concerns _ _ begun := begun.1
  frame m m' definitions _ resolutions decisions held :=
    ⟨definitions.trans held.1, held.2.frame (by unfold Container.resolution?; rw [resolutions]) decisions⟩
  registerSingleton _ _ _ _ _ _ _ _ _ held := held

theorem Realm.named_conducts (catalogued : Catalogued known) (outermost : d.Outermost known)
    (member : d ∈ known) {definitions : Registry String Definition}
    (single : ∀ name name', definitions.get? name = some d → definitions.get? name' = some d →
      name = name') (c : Container) :
    (Realm.named known definitions d).Conducts fun m =>
      m.Lawful known ∧ m.definitions = definitions ∧ c.KeepsOnce d m := by
  refine ((Realm.named_heeds outermost definitions c).works catalogued).conducts ?_
  intro n room m call m' full within inside begun inv run decides
  have lawful : m'.Lawful known := (inv.1.upholds.decided begun.1
    (decides.mono fun _ held => ⟨held.1, trivial⟩)).1
  have kept : m'.definitions = definitions := by
    cases decides with
    | replayed _ _ _ _ inv => exact inv.2.1
    | given _ _ inv => exact inv.2.1
    | found _ _ _ _ _ _ inv => exact inv.2.1
  refine ⟨lawful, kept, ?_⟩
  by_cases own : n.definition = d
  · -- The definition is created under its name, and is the only one to be decided on inside.
    have named := begun.2 own
    subst own
    have only : ∀ name, m.definitions.get? name = some n.definition ↔ name = n.bean := by
      intro name
      rw [inv.2.1]
      exact ⟨fun found => single name n.bean found named, fun same => same ▸ named⟩
    exact inv.2.2.trans
      (Creation.keepsOnce_of_call full within inside inv.1 only outermost run).1
  · cases decides with
    | replayed _ _ _ _ inv => exact inv.2.2
    | given _ _ inv => exact inv.2.2
    | found _ _ _ _ _ _ inv =>
      refine inv.2.2.keeping_of_ne (fun same => own ?_) _
      exact inv.1.eq_of_serial_eq begun.1 member same

structure Request.LeavesAlone (d : Definition) (request : Request) (c : Container) : Prop where
  uncleared : ∀ name, request = .clearResolution name → c.definitions.get? name ≠ some d
  single : ∀ name name', c.definitions.get? name = some d → c.definitions.get? name' = some d →
    name = name'
  outermost : d.Outermost c.built

theorem Request.LeavesAlone.keepsOnce {request : Request} (leaves : request.LeavesAlone d m)
    (lawful : m.Lawful known) (member : d ∈ known) (telling : request.isAsking = false)
    (keeps : c.KeepsOnce d m) : c.KeepsOnce d (request.perform.run m).2 := by
  refine keeps.frame ?_ (decisions_of_telling telling m)
  unfold Container.resolution?
  rcases resolution?_of_telling telling m with same | ⟨name, d', clears, found, erased⟩
  · rw [same]
  · have apart : d'.serial ≠ d.serial := by
      intro same
      have own := lawful.eq_of_serial_eq (lawful.registered name d' found) member same
      exact leaves.uncleared name clears (own ▸ found)
    rw [erased, Registry.get?_erase, if_neg apart]

/-- However a container is used, no more than one resolution is ever kept for a definition that has one
name at most, is inside no other and is never cleared. A creation that takes its arguments from the
definition invokes the executable of that resolution: begun on a request, for a parameter, a
reference or as a factory bean, they are all among those that begin while the requests are
answered. -/
theorem Container.Reachable.keeps_once (reachable : Reachable known c) (member : d ∈ known)
    {requests : List Request} (run : Request.Along (Request.LeavesAlone d) requests c) :
    Request.EachCreation
      (fun n m => c.KeepsOnce d m ∧ (n.definition = d → n.explicit = none →
        ∀ call m', n.call.run.run m = (.ok call, m') → c.KeepsOnce d m' ∧
          ∃ r, m'.resolution? d = some r ∧ r.executable = call.executable ∧
            (m.resolution? d = none ∨ m.resolution? d = some r)))
      requests c ∧
    c.KeepsOnce d ((Request.performAll requests).run c).2 := by
  refine And.imp_right (fun ⟨_, _, _, final⟩ => final) (Request.eachCreation
    (J := fun m => ∃ known, m.Lawful known ∧ d ∈ known ∧ c.KeepsOnce d m) ?_ ?_
    ⟨known, reachable.lawful, member, .refl c d⟩ run)
  · rintro request m ⟨known, lawful, member, keeps⟩ leaves
    have outermost : d.Outermost known := lawful.built ▸ leaves.outermost
    have conducts := Realm.named_conducts lawful.catalogued outermost member leaves.single c
    refine ⟨_, _, conducts, fun _ => trivial, ?_, ⟨lawful, rfl, keeps⟩, fun m held =>
      ⟨known, held.1, member, held.2.2⟩⟩
    intro ctx inside bean d' explicit m₁ _ inv asked began
    have told := conducts.emit m₁ (.creating bean) inv
    refine ⟨told.2.2, fun own ungiven call m' decided => ?_⟩
    have named := asked.2 own
    cases own
    have only : ∀ name, m₁.definitions.get? name = some d' ↔ name = bean := by
      intro name
      rw [inv.2.1]
      exact ⟨fun found => leaves.single name bean found named, fun same => same ▸ named⟩
    obtain ⟨once, uses⟩ := Creation.keepsOnce_of_call
      (n := ⟨.full, inside.creator, inside, bean, d', explicit⟩) rfl rfl (Context.begin_path began)
      told.1 only outermost decided
    exact ⟨told.2.2.trans once, uses ungiven⟩
  · rintro request m ⟨known, lawful, member, keeps⟩ leaves telling
    exact ⟨_, lawful.perform request, List.mem_append_left _ member,
      leaves.keepsOnce lawful member telling keeps⟩

/-! A ticket that is printed anew each time, on paper once there is some. -/
namespace Ticket

def bare : Executable where
  declaring := .plainClass "Ticket"
  kind := .constructor
  isPublic := true
  parameters := [⟨.string, none⟩]
  effect := .makes (.plainClass "Ticket")
  label := none

def printed : Executable := { bare with parameters := [⟨.string, none⟩, ⟨.plainClass "Paper", none⟩] }

def definition : Definition :=
  { Definition.initial .initial with
    serial := 1
    beanClass := some ⟨.plainClass "Ticket", [bare, printed], []⟩
    arguments := ⟨[], [⟨.value (.str "A1"), none, none, none⟩]⟩
    autowire := true
    scope := .prototype }

def paper : Value := .object (.plainClass "Paper") (.named "paper")

def defined : Container := ((Request.define "ticket" definition).perform.run (.new .initial)).2

def requests : List Request :=
  [.bean "ticket" none, .registerSingleton "paper" paper, .setProperty "size" "9",
    .introspect "ticket", .bean "ticket" (some [.str "B2", paper]), .bean "ticket" none]

def last : Container := ((Request.performAll requests).run defined).2

theorem leavesAlone {request : Request} {m : Container}
    (other : ∀ name, request ≠ .clearResolution name)
    (definitions : m.definitions = ⟨[("ticket", definition)]⟩) (built : m.built = [definition]) :
    request.LeavesAlone definition m where
  uncleared name clears := absurd clears (other name)
  single name name' found found' := by
    have only (name : String) (found : m.definitions.get? name = some definition) :
        "ticket" = name := by
      rw [definitions] at found
      by_contra apart
      change (if "ticket" = name then some definition else none) = some definition at found
      rw [if_neg apart] at found
      cases found
    exact (only name found).symm.trans (only name' found')
  outermost := by
    rw [built]
    intro d' member h held inside
    obtain rfl := List.mem_singleton.mp member
    obtain rfl := List.mem_singleton.mp
      (show h ∈ [Holder.mk (.value (.str "A1")) none none none] from held)
    exact absurd inside List.not_mem_nil

theorem keeps_once_of_ticket :
    (last.decided definition).map (·.executable.signature) = ["Ticket(String)"] ∧
    last.invocations.map (·.executable.parameters.length) = [1, 2, 1] ∧
    defined.KeepsOnce definition last ∧
    Request.EachCreation
      (fun n m => defined.KeepsOnce definition m ∧ (n.definition = definition →
        n.explicit = none → ∀ call m', n.call.run.run m = (.ok call, m') →
          defined.KeepsOnce definition m' ∧
            ∃ r, m'.resolution? definition = some r ∧ r.executable = call.executable ∧
              (m.resolution? definition = none ∨ m.resolution? definition = some r)))
      requests defined := by
  have fresh := Container.Reachable.initially
  have reachable : Container.Reachable [definition] defined :=
    fresh.step (.define "ticket" definition)
  have run : Request.Along (Request.LeavesAlone definition) requests defined :=
    ⟨leavesAlone nofun rfl rfl, leavesAlone nofun rfl rfl, leavesAlone nofun rfl rfl,
      leavesAlone nofun rfl rfl, leavesAlone nofun rfl rfl, leavesAlone nofun rfl rfl, trivial⟩
  obtain ⟨each, stays⟩ := reachable.keeps_once (List.mem_singleton_self definition) run
  refine ⟨?_, ?_, stays, each⟩
  · decide +kernel
  · decide +kernel

end Ticket

/-- Where ties are allowed, the box with the ribbon is decided on inside the lid first, and the one with
the lid after it. -/
theorem Giftbox.decided_twice :
    Container.Reachable [box true, lid true] (stocked true) ∧
    (∀ name, (stocked true).definitions.get? name = some (box true) ↔ name = "box") ∧
    (asked true).1.isOk = true ∧
    ((asked true).2.decided (box true)).map (·.executable.signature) =
      ["Box(Ribbon)", "Box(Lid)"] ∧
    ((asked true).2.resolution? (box true)).map (·.executable.signature) = some "Box(Lid)" ∧
    ((wrapped true).2.decided (box true)).map (·.executable.signature) =
      ["Box(Ribbon)", "Box(Lid)"] := by
  refine ⟨reachable_stocked true, registered_iff true, ?_, ?_, ?_, ?_⟩
  all_goals decide +kernel

end BeanWiring
