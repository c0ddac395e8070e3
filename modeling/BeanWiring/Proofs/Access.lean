import BeanWiring.Proofs.Lawful

/-!
Which executables create the beans of a definition: none but those it leaves open. A definition that
does not allow for non-public ones is created by public ones, unless its class has one constructor
and no other, which is taken whether it is public or not.
-/
namespace BeanWiring

variable {known : List Definition} {c : Container} {d : Definition} {e : Executable}

theorem Blueprint.Tries.isPublic_or_only (tries : d.Tries e) (restricted : d.nonPublicAllowed = false) :
    e.isPublic = true ∨ d.factoryMethod = none ∧
      ∃ beanClass, d.beanClass = some beanClass ∧ beanClass.soleConstructor? = some e := by
  have isPublic (admits : d.admits e = true) : e.isPublic = true := by
    unfold Blueprint.admits at admits
    rwa [restricted, Bool.false_or] at admits
  cases tries with
  | method opens => exact .inl (isPublic opens.admits)
  | only plain owner sole =>
    have named := Option.isNone_iff_eq_none.mp (Option.isSome_eq_false_iff.mp plain)
    exact .inr ⟨named, _, owner, sole⟩
  | constructor _ _ _ _ admits => exact .inl (isPublic admits)

theorem Blueprint.Tries.eq_only (tries : d.Tries e) (plain : d.factoryMethod = none)
    {beanClass : BeanClass} (owner : d.beanClass = some beanClass) {only : Executable}
    (sole : beanClass.soleConstructor? = some only) : e = only := by
  cases tries with
  | method opens =>
    have named := opens.named
    rw [plain] at named
    cases named
  | only _ owner' sole' =>
    cases owner.symm.trans owner'
    exact Option.some.inj (sole'.symm.trans sole)
  | constructor _ owner' none =>
    cases owner.symm.trans owner'
    cases none.symm.trans sole

theorem Creation.tries_of_decides {n : Creation} {call : Call} {F : Container → Prop}
    (member : n.definition ∈ known)
    (decides : n.Decides (fun c => c.Lawful known ∧ F c) call c) :
    n.definition.Tries call.executable := by
  cases decides with
  | replayed _ held entry same _ => exact same ▸ held.1.tries_executable member entry
  | given _ tried _ =>
    exact (Container.Lawful.allows_of_tried (fun m held => held.1) member tried).tries
  | found _ _ _ _ _ tried _ =>
    exact (Container.Lawful.allows_of_tried (fun m held => held.1) member tried).tries

/-- Whatever is asked of a container: a creation from a definition that allows for public executables
only comes to invoke no other, by whichever way it finds it, but the one constructor of a class that
has just one and with parameters. Of such a class, no definition without a factory method is ever
created by anything else. -/
theorem Container.Reachable.access_respected (reachable : Reachable known c)
    (requests : List Request) :
    Request.EachCreation (fun n m => ∀ call m', n.call.run.run m = (.ok call, m') →
      (n.definition.nonPublicAllowed = false → call.executable.isPublic = true ∨
        n.definition.factoryMethod = none ∧ ∃ beanClass, n.definition.beanClass = some beanClass ∧
          beanClass.soleConstructor? = some call.executable) ∧
      ∀ beanClass only, n.definition.factoryMethod = none →
        n.definition.beanClass = some beanClass → beanClass.soleConstructor? = some only →
        call.executable = only) requests c := by
  refine Request.eachCreation_of_lawful reachable.lawful ?_ requests
  intro known room n m full within _ member lawful call m' decided
  have decides := (lawful.upholds.conducts.decides full within trivial member ⟨lawful, trivial⟩).2
  have tries := Creation.tries_of_decides member (decides call m' decided).2
  exact ⟨tries.isPublic_or_only, fun beanClass only plain owner => tries.eq_only plain owner⟩

/-! A vault with one constructor, which is not public. -/
namespace Vault

def sealed : Executable where
  declaring := .plainClass "Vault"
  kind := .constructor
  isPublic := false
  parameters := [⟨.string, none⟩]
  effect := .makes (.plainClass "Vault")
  label := none

def definition : Definition :=
  { Definition.initial .initial with
    beanClass := some ⟨.plainClass "Vault", [sealed], []⟩
    arguments := ⟨[], [⟨.value (.str "code"), none, none, none⟩]⟩
    nonPublicAllowed := false }

def defined : Container := ((Request.define "vault" definition).perform.run (.new .initial)).2

def asked : Container := ((Request.bean "vault" none).perform.run defined).2

theorem access_respected_of_vault :
    asked.invocations.map (fun i => (i.bean, i.executable.isPublic)) = [("vault", false)] ∧
    Request.EachCreation (fun n m => ∀ call m', n.call.run.run m = (.ok call, m') →
      (n.definition.nonPublicAllowed = false → call.executable.isPublic = true ∨
        n.definition.factoryMethod = none ∧ ∃ beanClass, n.definition.beanClass = some beanClass ∧
          beanClass.soleConstructor? = some call.executable) ∧
      ∀ beanClass only, n.definition.factoryMethod = none →
        n.definition.beanClass = some beanClass → beanClass.soleConstructor? = some only →
        call.executable = only) [.bean "vault" none] defined := by
  have fresh := Container.Reachable.initially
  have reachable : Container.Reachable _ defined := fresh.step (.define "vault" definition)
  refine ⟨?_, reachable.access_respected [.bean "vault" none]⟩
  rfl

end Vault

end BeanWiring
