import BeanWiring.Proofs.Decision
import BeanWiring.Proofs.Effects

/-!
Creation as a whole. How a creation came to its call tells what it keeps; whatever it decides on has
an argument for each parameter, so that no surroundings are ever asked for a call with too few or too
many arguments.
-/
namespace BeanWiring

theorem Context.begin_ok {ctx inside : Context} {bean : String}
    (begins : ctx.begin bean = .ok inside) : inside.path = bean :: ctx.path ∧ bean ∉ ctx.path := by
  unfold begin at begins
  split at begins
  · cases begins
  · split at begins
    · cases begins
    · rename_i apart
      cases begins
      refine ⟨rfl, fun member => apart ?_⟩
      exact List.contains_iff_mem.mpr member

theorem Context.begin_path {ctx inside : Context} {bean : String}
    (begins : ctx.begin bean = .ok inside) : bean ∈ inside.path := by
  rw [(begin_ok begins).1]
  exact List.mem_cons_self

abbrev Creation.elsewhere (n : Creation) (host : Host) (create : Creator) : Creation :=
  { n with host := host, create := create }

def Call.IsComplete (call : Call) : Prop := call.arguments.length = call.executable.arity

/-- How a creation came to its call, and the state in which it makes it: it follows what was kept for
the definition, takes the arguments it was given, or finds a match because nothing was kept. `I`
holds on the way there; only a match that was found is kept. -/
inductive Creation.Decides (n : Creation) (I : Container → Prop) (call : Call) : Container → Prop
  | replayed {m c : Container} {r : Resolution} : n.explicit = none → I m →
      m.resolution? n.definition = some r → r.executable = call.executable → I c →
      n.Decides I call c
  | given {c : Container} : n.explicit.isSome = true → n.definition.Tried I call.executable → I c →
      n.Decides I call c
  | found {m c : Container} {r : Resolution} : n.explicit = none → I m →
      m.resolution? n.definition = none → r.executable = call.executable →
      r.ChosenFor n.definition → n.definition.Tried I call.executable → I c →
      n.Decides I call (c.keeping n.definition r)

namespace Realm.Serves

variable {w : Realm} {I : Container → Prop} {create' : Creator} {host' : Host} {n : Creation}

theorem source (serves : w.Serves I) (creates : w.Agree I n.create create')
    (place : w.place n.context) (known : w.known n.definition) :
    Attempt.Agree I n.source (n.elsewhere host' create').source
      fun (source, _) => n.explicit = none →
        ∃ values, source = .declared values ∧ n.definition.arguments.ResolveTo values := by
  unfold Creation.source
  dsimp only
  split
  · rename_i arguments given
    exact .pure fun none => absurd (none.symm.trans given) nofun
  · refine .bind (serves.resolveArguments creates place n.bean known) fun values resolves => ?_
    split
    · exact .pure fun _ => ⟨values, rfl, resolves⟩
    · exact .bind (.lift (serves.emits _)) fun _ _ => .throw _

theorem bindCandidate (serves : w.Serves I) (creates : w.Agree I n.create create')
    (place : w.place n.context) (kind : SearchKind) (source : ArgumentSource)
    (autowiring fallback : Bool) (candidate : Executable) :
    Work.Agree I (n.bindCandidate kind source autowiring fallback candidate)
      ((n.elsewhere host' create').bindCandidate kind source autowiring fallback candidate)
      fun r => ∀ b, r = .ok b → source.Binds candidate b := by
  have binds : Attempt.Agree I
      (Work.bind ⟨Attempt.fetcher n.create, n.context, n.bean, autowiring, fallback⟩ candidate source)
      (Work.bind ⟨Attempt.fetcher create', n.context, n.bean, autowiring, fallback⟩ candidate source)
      fun _ => True := by
    cases source with
    | explicit arguments => exact .liftM fun _ _ => trivial
    | declared values =>
      exact serves.bindDeclared creates place n.bean autowiring fallback candidate values
  refine .bind binds.result fun r bound => ?_
  split
  · rename_i b
    obtain ⟨-, c, c', run⟩ := bound b rfl
    exact .pure fun b' same => Except.ok.inj same ▸ Work.bind_ok run
  · exact .bind (serves.emits _) fun _ _ => .pure nofun

theorem search (serves : w.Serves I) (creates : w.Agree I n.create create')
    (place : w.place n.context) (kind : SearchKind) (source : ArgumentSource) (minCount : Nat)
    (autowiring : Bool) (candidates : List Executable) :
    Work.Agree I (n.search kind source minCount autowiring candidates)
      ((n.elsewhere host' create').search kind source minCount autowiring candidates)
      fun found => ∀ best, found.best = some best →
        best.executable ∈ candidates ∧ source.Binds best.executable best.binding ∧
          best.binding.weight n.definition.lenient best.executable.parameterTypes <
            Weight.greatest := by
  refine Creation.search_agree
    (P := fun best => best.executable ∈ candidates ∧ source.Binds best.executable best.binding ∧
      best.binding.weight n.definition.lenient best.executable.parameterTypes < Weight.greatest)
    kind source minCount autowiring candidates rfl rfl serves.emits fun e member _ => ?_
  refine (serves.bindCandidate creates place kind source autowiring _ e).mono ?_
  exact fun r bound b same less => ⟨member, bound b same, less⟩

end Realm.Serves

namespace Realm.Works

variable {w : Realm} {I : Container → Prop} {create create' : Creator} {host host' : Host}
  {ctx : Context}

theorem recollect (works : w.Works I) (hosts : Host.Alike I host host')
    (creates : w.Agree I create create') (place : w.place ctx) (bean : String) {d : Definition}
    (known : w.known d) {r : Resolution} (kept : r.KeptFor d) :
    Attempt.Agree I (Attempt.recollect host create ctx bean r)
      (Attempt.recollect host' create' ctx bean r)
      fun arguments => arguments.length = r.executable.arity := by
  obtain ⟨values, s, b, keeps⟩ := kept
  obtain ⟨e, arguments | recipes⟩ := r
  · exact .bind (.lift (works.emits _)) fun _ _ => .pure keeps.length_eq
  · have offers : ∀ source, .declared source ∈ recipes → w.Offers I source.family := by
      intro source member
      obtain ⟨h, held, rfl⟩ := keeps.exists_holder rfl member
      exact works.offers_holder known held
    refine .bind (.lift (works.emits _)) fun _ _ => ?_
    exact works.replayFrom hosts creates place bean e 0 e.parameters recipes offers keeps.length_eq

theorem remembered (works : w.Works I) (hosts : Host.Alike I host host')
    (creates : w.Agree I create create') (place : w.place ctx) (bean : String) {d : Definition}
    (known : w.known d) (explicit : Option (List Value)) {c : Container} (inv : I c) :
    Attempt.Ends I c (Attempt.remembered host create ctx bean d explicit)
      (Attempt.remembered host' create' ctx bean d explicit) fun found c' => I c' ∧
        match found with
        | none => c' = c ∧ (explicit = none → c.resolution? d = none)
        | some (e, arguments) => explicit = none ∧ arguments.length = e.arity ∧
          ∃ r, c.resolution? d = some r ∧ r.executable = e := by
  refine .get_bind ?_
  cases explicit with
  | some arguments => exact .pure ⟨inv, rfl, nofun⟩
  | none =>
    dsimp only [Option.isNone_none, if_true]
    cases entry : c.resolution? d with
    | none => exact .pure ⟨inv, rfl, fun _ => rfl⟩
    | some r =>
      have kept := works.kept c d r inv known entry
      have recalls := (works.recollect hosts creates place bean known kept).ends inv
      exact .bind recalls fun arguments m recalled =>
        .pure ⟨recalled.2, rfl, recalled.1, r, rfl, rfl⟩

variable {n : Creation}

theorem suppressAll (works : w.Works I) (hosts : Host.Alike I n.host host')
    (failures : List Unsatisfied) :
    Work.Agree I (n.suppressAll failures) ((n.elsewhere host' create').suppressAll failures)
      fun _ => True := by
  induction failures with
  | nil => exact .pure trivial
  | cons failure rest ih =>
    refine .bind (works.emits _) fun _ _ => ?_
    exact .bind (hosts.suppress _) fun _ _ => ih

theorem exhausted (works : w.Works I) (hosts : Host.Alike I n.host host')
    (failures : List Unsatisfied) (noMatch : String) {Q : Call → Prop} :
    Attempt.Agree I (n.exhausted failures noMatch)
      ((n.elsewhere host' create').exhausted failures noMatch) Q := by
  unfold Creation.exhausted
  split
  · exact .throw _
  · exact .bind (.lift (works.suppressAll hosts _)) fun _ _ => .throw _

end Realm.Works

namespace Creation

variable {n : Creation} {I : Container → Prop} {c : Container} {call : Call} {e : Executable}
  {arguments : KeptArguments}

structure Justifies (n : Creation) (I : Container → Prop) (e : Executable)
    (arguments : KeptArguments) : Prop where
  tried : n.definition.Tried I e
  absent : n.explicit = none → ∃ m, I m ∧ m.resolution? n.definition = none
  kept : n.explicit = none → Resolution.ChosenFor ⟨e, arguments⟩ n.definition

theorem Justifies.decides (justifies : n.Justifies I e arguments) (inv : I c)
    (executable : e = call.executable) {c' : Container}
    (state : c' = if n.explicit.isNone then c.keeping n.definition ⟨e, arguments⟩ else c) :
    n.Decides I call c' := by
  subst executable state
  cases ungiven : n.explicit with
  | some values => exact .given (by rw [ungiven]; rfl) justifies.tried inv
  | none =>
    obtain ⟨m, held, absent⟩ := justifies.absent ungiven
    exact .found ungiven held absent rfl (justifies.kept ungiven) justifies.tried inv

theorem run_keep (plain : n.definition.factoryMethod.isSome = false) :
    ((n.keep e arguments).run c).2 =
      if n.explicit.isNone then c.keeping n.definition ⟨e, arguments⟩ else c := by
  unfold keep
  split
  · simp only [Container.keeping, plain]
    rfl
  · rfl

theorem run_keepMethod (named : n.definition.factoryMethod.isSome = true) :
    ((n.keepMethod e arguments).run c).2 =
      if n.explicit.isNone then c.keeping n.definition ⟨e, arguments⟩ else c := by
  unfold keepMethod
  split
  · simp only [Container.keeping, named]
    rfl
  · rfl

theorem Justifies.keep {create' : Creator} {host' : Host} (justifies : n.Justifies I e arguments)
    (plain : n.definition.factoryMethod.isSome = false)
    (executable : e = call.executable) (complete : call.IsComplete) (inv : I c) :
    Attempt.Ends I c (do let _ ← (liftM (n.keep e arguments) : Attempt Unit); pure call)
      (do let _ ← (liftM ((n.elsewhere host' create').keep e arguments) : Attempt Unit); pure call)
      fun call c' => call.IsComplete ∧ n.Decides I call c' := by
  have decides := justifies.decides inv executable (run_keep plain)
  exact .bind (.lift (Q := fun _ => n.Decides I call) rfl decides) fun _ _ decides =>
    .pure ⟨complete, decides⟩

theorem Justifies.keepMethod {create' : Creator} {host' : Host}
    (justifies : n.Justifies I e arguments) (named : n.definition.factoryMethod.isSome = true)
    (executable : e = call.executable) (complete : call.IsComplete) (inv : I c) :
    Attempt.Ends I c (do let _ ← (liftM (n.keepMethod e arguments) : Attempt Unit); pure call)
      (do let _ ← (liftM ((n.elsewhere host' create').keepMethod e arguments) : Attempt Unit); pure call)
      fun call c' => call.IsComplete ∧ n.Decides I call c' := by
  have decides := justifies.decides inv executable (run_keepMethod named)
  exact .bind (.lift (Q := fun _ => n.Decides I call) rfl decides) fun _ _ decides =>
    .pure ⟨complete, decides⟩

end Creation

namespace Realm.Works

variable {w : Realm} {I : Container → Prop} {create' : Creator} {host' : Host} {n : Creation}
  {c : Container}

theorem byClosestConstructor (works : w.Works I) (hosts : Host.Alike I n.host host')
    (creates : w.Agree I n.create create') (place : w.place n.context)
    (known : w.known n.definition) (plain : n.definition.factoryMethod.isSome = false)
    (absent : n.explicit = none → ∃ m, I m ∧ m.resolution? n.definition = none)
    (beanClass : BeanClass) (autowiring : Bool) {candidates : List Executable}
    (tried : ∀ e ∈ candidates, n.definition.Tried I e) (inv : I c) :
    Attempt.Ends I c (n.byClosestConstructor beanClass autowiring candidates)
      ((n.elsewhere host' create').byClosestConstructor beanClass autowiring candidates)
      fun call c' => call.IsComplete ∧ n.Decides I call c' := by
  refine .bind ((works.source creates place known).ends inv) ?_
  intro (source, minCount) m ⟨declared, inv⟩
  refine .bind ((Attempt.Agree.lift
    (works.search creates place .constructor source minCount autowiring candidates)).ends inv) ?_
  intro found m ⟨chosen, inv⟩
  split
  · exact ((works.exhausted (Q := fun _ => False) hosts _ _).ends inv).mono
      fun _ _ impossible => impossible.1.elim
  · rename_i best same
    obtain ⟨member, binds, less⟩ := chosen best same
    by_cases tied : (!found.ambiguous.isEmpty && !n.definition.lenient) = true
    · rw [if_pos tied, if_pos tied]
      exact .throw _ inv
    · rw [if_neg tied, if_neg tied]
      have justifies : n.Justifies I best.executable best.binding.kept :=
        ⟨tried _ member, absent, fun none => Creation.chosenFor_of_binds binds less (declared none)
          fun some => absurd (plain.symm.trans some) nofun⟩
      exact justifies.keep plain rfl ((List.length_map _).trans binds.1) inv

theorem constructorAmong (works : w.Works I) (hosts : Host.Alike I n.host host')
    (creates : w.Agree I n.create create') (place : w.place n.context)
    (known : w.known n.definition) (plain : n.definition.factoryMethod.isSome = false)
    (absent : n.explicit = none → ∃ m, I m ∧ m.resolution? n.definition = none)
    (beanClass : BeanClass) (autowiring : Bool) {candidates : List Executable}
    (tried : ∀ e ∈ candidates, n.definition.Tried I e) (inv : I c) :
    Attempt.Ends I c (n.constructorAmong beanClass autowiring candidates)
      ((n.elsewhere host' create').constructorAmong beanClass autowiring candidates)
      fun call c' => call.IsComplete ∧ n.Decides I call c' := by
  have bare : (n.elsewhere host' create').bareCandidate? candidates =
      n.bareCandidate? candidates := rfl
  unfold Creation.constructorAmong
  rw [bare]
  cases lone : n.bareCandidate? candidates with
  | none =>
    exact works.byClosestConstructor hosts creates place known plain absent beanClass autowiring
      tried inv
  | some only =>
    have chosen := Creation.chosenFor_of_bareCandidate lone
      fun some => absurd (plain.symm.trans some) nofun
    have justifies : n.Justifies I only (.resolved []) :=
      ⟨tried only (Creation.bareCandidate?_mem lone), absent, fun _ => chosen⟩
    exact justifies.keep plain rfl (Creation.bareCandidate?_some lone).2.symm inv

theorem byConstructor (works : w.Works I) (hosts : Host.Alike I n.host host')
    (creates : w.Agree I n.create create') (place : w.place n.context)
    (known : w.known n.definition) (plain : n.definition.factoryMethod.isSome = false)
    {given : Option (List Executable)} {beanClass : BeanClass}
    (owner : n.definition.beanClass = some beanClass)
    (favours : n.favoured (c.resolution? n.definition).isSome beanClass = .ok given) (inv : I c) :
    Attempt.Ends I c (n.byConstructor given) ((n.elsewhere host' create').byConstructor given)
      fun call c' => call.IsComplete ∧ n.Decides I call c' := by
  have remembers := works.remembered hosts creates place n.bean known n.explicit inv
  refine .bind remembers fun found m ⟨kept, outcome⟩ => ?_
  cases found with
  | some found =>
    obtain ⟨ungiven, complete, r, entry, same⟩ := outcome
    exact .pure ⟨complete, .replayed ungiven inv entry same kept⟩
  | none =>
    obtain ⟨rfl, absent⟩ := outcome
    -- Given arguments never follow what is kept, so the favoured ones are those of a definition
    -- unresolved.
    have unresolved : (n.explicit.isNone && (m.resolution? n.definition).isSome) = false := by
      cases ungiven : n.explicit with
      | some arguments => rfl
      | none => rw [absent ungiven]; rfl
    dsimp only
    rw [owner]
    have lists : Attempt.Ends I m (n.constructors beanClass given)
        ((n.elsewhere host' create').constructors beanClass given)
        fun candidates m' => (∀ e ∈ candidates, n.definition.Allows e) ∧ I m' := by
      have same : Attempt.Ends I m (n.constructors beanClass given)
          ((n.elsewhere host' create').constructors beanClass given) fun _ _ => True := by
        cases given with
        | some constructors => exact .pure trivial
        | none => exact .except inv fun _ _ => trivial
      refine ⟨same.1, same.2.1, fun candidates m' run => ?_⟩
      obtain ⟨rfl, tries⟩ := Creation.constructors_tries plain owner unresolved favours run
      have sanctions := Creation.constructors_sanctions owner unresolved favours run
      exact ⟨fun e member => ⟨tries e member, sanctions e member⟩, inv⟩
    refine .bind lists fun candidates m' ⟨allows, kept⟩ => ?_
    exact works.constructorAmong hosts creates place known plain
      (fun ungiven => ⟨m, inv, absent ungiven⟩) beanClass _ (fun e member => .inl (allows e member)) kept

theorem factoryTarget (works : w.Works I) (creates : w.Agree I n.create create')
    (place : w.place n.context) :
    Attempt.Agree I n.factoryTarget (n.elsewhere host' create').factoryTarget
      fun target => n.definition.factoryBean = none → n.definition.beanClass = some target.2 := by
  unfold Creation.factoryTarget
  dsimp only
  cases n.definition.factoryBean with
  | none =>
    dsimp only
    cases n.definition.beanClass with
    | none => exact .throw _
    | some beanClass => exact .pure fun _ => rfl
  | some name =>
    dsimp only
    by_cases self : (name == n.bean) = true
    · rw [if_pos self, if_pos self]
      exact .throw _
    · rw [if_neg self, if_neg self]
      refine .bind (works.fetch creates place name none) fun factoryBean _ => ?_
      refine .bind (.lift (works.connects _ _)) fun _ _ => .bind .get fun c _ => ?_
      split
      · exact .pure nofun
      · exact .throw _

theorem factoryMethods {beanClass : BeanClass}
    (own : n.definition.factoryBean = none → n.definition.beanClass = some beanClass) :
    Attempt.Agree I (n.factoryMethods beanClass)
      ((n.elsewhere host' create').factoryMethods beanClass)
      fun candidates => ∀ e ∈ candidates, n.definition.Tried I e := by
  have all : Attempt.Agree I (Creation.factoryMethods.all n beanClass)
      (Creation.factoryMethods.all (n.elsewhere host' create') beanClass)
      fun candidates => ∀ e ∈ candidates, n.definition.Tried I e := by
    refine .except fun candidates listed e member => .inl ?_
    have offered := BeanClass.mem_methodCandidates listed member
    exact .method (BeanClass.opens_of_mem_overloads offered fun static =>
      ⟨own static, by rw [static]; rfl⟩)
  refine .bind .get fun c inv => ?_
  dsimp only
  cases found : (if n.definition.unique = true then c.factoryMethod? n.definition else none) with
  -- A method remembered for a unique definition is taken alone, but only if it is of this class.
  | none => exact all
  | some method =>
    by_cases own : (method.declaring == beanClass.type) = true
    · simp only [if_pos own]
      refine .pure fun e member => .inr ⟨c, inv, ?_⟩
      cases List.mem_singleton.mp member
      split at found
      · exact found
      · cases found
    · simp only [if_neg own]
      exact all

theorem byClosestMethod (works : w.Works I) (hosts : Host.Alike I n.host host')
    (creates : w.Agree I n.create create') (place : w.place n.context)
    (known : w.known n.definition) (named : n.definition.factoryMethod.isSome = true)
    (absent : n.explicit = none → ∃ m, I m ∧ m.resolution? n.definition = none)
    (factoryBean : Option Value) (beanClass : BeanClass) {candidates : List Executable}
    (tried : ∀ e ∈ candidates, n.definition.Tried I e) (inv : I c) :
    Attempt.Ends I c (n.byClosestMethod factoryBean beanClass candidates)
      ((n.elsewhere host' create').byClosestMethod factoryBean beanClass candidates)
      fun call c' => call.IsComplete ∧ n.Decides I call c' := by
  refine .bind ((works.source creates place known).ends inv) ?_
  intro (source, minCount) m ⟨declared, inv⟩
  refine .bind ((Attempt.Agree.lift
    (works.search creates place .factoryMethod source minCount _ candidates)).ends inv) ?_
  intro found m ⟨chosen, inv⟩
  split
  · exact ((works.exhausted (Q := fun _ => False) hosts _ _).ends inv).mono
      fun _ _ impossible => impossible.1.elim
  · rename_i best same
    obtain ⟨member, binds, less⟩ := chosen best same
    by_cases isVoid : best.executable.returnType.isVoid = true
    · simp only [if_pos isVoid]
      exact .throw _ inv
    · by_cases tied : (!found.ambiguous.isEmpty) = true
      · simp only [if_neg isVoid, if_pos tied]
        exact .throw _ inv
      · simp only [if_neg isVoid, if_neg tied]
        have justifies : n.Justifies I best.executable best.binding.kept :=
          ⟨tried _ member, absent, fun none => Creation.chosenFor_of_binds binds less (declared none)
            fun _ => by simpa using isVoid⟩
        exact justifies.keepMethod named rfl ((List.length_map _).trans binds.1) inv

theorem methodAmong (works : w.Works I) (hosts : Host.Alike I n.host host')
    (creates : w.Agree I n.create create') (place : w.place n.context)
    (known : w.known n.definition) (named : n.definition.factoryMethod.isSome = true)
    (absent : n.explicit = none → ∃ m, I m ∧ m.resolution? n.definition = none)
    (factoryBean : Option Value) (beanClass : BeanClass) {candidates : List Executable}
    (tried : ∀ e ∈ candidates, n.definition.Tried I e) (inv : I c) :
    Attempt.Ends I c (n.methodAmong factoryBean beanClass candidates)
      ((n.elsewhere host' create').methodAmong factoryBean beanClass candidates)
      fun call c' => call.IsComplete ∧ n.Decides I call c' := by
  have bare : (n.elsewhere host' create').bareCandidate? candidates =
      n.bareCandidate? candidates := rfl
  unfold Creation.methodAmong
  rw [bare]
  cases lone : (n.bareCandidate? candidates).filter (!·.returnType.isVoid) with
  | none =>
    exact works.byClosestMethod hosts creates place known named absent factoryBean beanClass tried
      inv
  | some only =>
    obtain ⟨lone, notVoid⟩ := Option.filter_eq_some_iff.mp lone
    have chosen := Creation.chosenFor_of_bareCandidate lone fun _ => by simpa using notVoid
    have justifies : n.Justifies I only (.resolved []) :=
      ⟨tried only (Creation.bareCandidate?_mem lone), absent, fun _ => chosen⟩
    exact justifies.keepMethod named rfl (Creation.bareCandidate?_some lone).2.symm inv

theorem byFactoryMethod (works : w.Works I) (hosts : Host.Alike I n.host host')
    (creates : w.Agree I n.create create') (place : w.place n.context)
    (known : w.known n.definition) (named : n.definition.factoryMethod.isSome = true) (inv : I c) :
    Attempt.Ends I c n.byFactoryMethod (n.elsewhere host' create').byFactoryMethod
      fun call c' => call.IsComplete ∧ n.Decides I call c' := by
  refine .bind ((works.factoryTarget creates place).ends inv) ?_
  intro (factoryBean, beanClass) m ⟨own, inv⟩
  have remembers := works.remembered hosts creates place n.bean known n.explicit inv
  refine .bind remembers fun found m' ⟨kept, outcome⟩ => ?_
  cases found with
  | some found =>
    obtain ⟨ungiven, complete, r, entry, same⟩ := outcome
    exact .pure ⟨complete, .replayed ungiven inv entry same kept⟩
  | none =>
    refine .bind ((factoryMethods own).ends kept) fun candidates m'' ⟨tried, kept⟩ => ?_
    exact works.methodAmong hosts creates place known named
      (fun ungiven => ⟨m, inv, outcome.2 ungiven⟩) factoryBean beanClass tried kept

theorem call (works : w.Works I) (hosts : Host.Alike I n.host host')
    (creates : w.Agree I n.create create') (place : w.place n.context)
    (known : w.known n.definition) (inv : I c) :
    Attempt.Ends I c n.call (n.elsewhere host' create').call
      fun call c' => call.IsComplete ∧ n.Decides I call c' := by
  unfold Creation.call
  dsimp only
  by_cases named : n.definition.factoryMethod.isSome = true
  · simp only [if_pos named]
    exact works.byFactoryMethod hosts creates place known named inv
  · simp only [if_neg named]
    cases owner : n.definition.beanClass with
    | none => exact .throw _ inv
    | some beanClass =>
      have favours : Attempt.Ends I c
          (liftExcept (n.favoured (c.resolution? n.definition).isSome beanClass) : Attempt _)
          (liftExcept (n.favoured (c.resolution? n.definition).isSome beanClass))
          fun given m => m = c ∧
            n.favoured (c.resolution? n.definition).isSome beanClass = .ok given :=
        .except inv fun given same => ⟨rfl, same⟩
      refine .get_bind (.bind favours fun given m ⟨same, favoured⟩ => ?_)
      subst same
      exact works.byConstructor hosts creates place known (by simpa using named) owner favoured inv

theorem instantiate (hosts : Host.Agree I n.host host') {call : Call} (complete : call.IsComplete) :
    Attempt.Agree I (n.instantiate call) ((n.elsewhere host' create').instantiate call)
      fun _ => True := by
  refine .bind (.lift (hosts.instantiate n.bean _ call.target _ complete)) fun result _ => ?_
  split
  · exact .pure trivial
  · exact .throw _

theorem beginning (works : w.Works I) {ctx : Context} {bean : String} {d : Definition}
    {go go' : Context → Attempt Value} (place : w.place ctx) (inv : I c) (asked : w.asked c bean d)
    (goes : ∀ inside, ctx.begin bean = .ok inside → w.place inside → w.begun bean d →
      Attempt.Ends I { c with events := c.events ++ [.creating bean] } (go inside) (go' inside)
        fun _ => I) :
    Attempt.Ends I c
      (do let inside ← liftExcept (ctx.begin bean); Work.emit (.creating bean); go inside)
      (do let inside ← liftExcept (ctx.begin bean); Work.emit (.creating bean); go' inside)
      fun _ c' => w.begun bean d ∧ I c' := by
  have begins : Attempt.Ends I c (liftExcept (ctx.begin bean) : Attempt Context)
      (liftExcept (ctx.begin bean)) fun inside m => m = c ∧ ctx.begin bean = .ok inside :=
    .except inv fun inside same => ⟨rfl, same⟩
  refine .bind begins fun inside m ⟨same, began⟩ => ?_
  subst same
  obtain ⟨within, begun⟩ := works.begins m ctx bean d inside inv place asked began
  have told : Attempt.Ends I m (liftM (Work.emit (.creating bean)) : Attempt Unit)
      (liftM (Work.emit (.creating bean)))
      fun _ m' => m' = { m with events := m.events ++ [.creating bean] } := .lift rfl rfl
  refine .bind told fun _ m' same => ?_
  subst same
  exact (goes inside began within begun).mono fun _ _ kept => ⟨begun, kept⟩

theorem instantiates (works : w.Works I) (bean : String) (e : Executable) (target : Option Value)
    (arguments : List Value) :
    Work.Agree I (Work.instantiate bean e target arguments)
      (Work.instantiate bean e target arguments) fun _ => True := by
  have performs : Work.Agree I (Work.perform e arguments) (Work.perform e arguments)
      fun _ => True := by
    unfold Work.perform
    split
    · exact .pure trivial
    · exact .pure trivial
    · split <;> exact .pure trivial
    · exact .bind (.modifyGet works.makeObject) fun _ _ => .pure trivial
  have invokes : Work.Agree I (Work.invoke bean e target arguments)
      (Work.invoke bean e target arguments) fun _ => True :=
    .bind performs fun _ _ => .bind (.modify fun c => works.invoke c _) fun _ _ => .pure trivial
  unfold Work.instantiate
  split
  · exact .pure trivial
  · split
    · exact .pure trivial
    · refine .bind invokes fun result _ => ?_
      split
      · exact .pure trivial
      · split <;> exact .pure trivial

theorem full_agree (works : w.Works I)
    (strategy : String → Executable → Option Value → List Value → Work (Except String Value))
    (same : ∀ bean e target arguments, arguments.length = e.arity →
      strategy bean e target arguments = Work.instantiate bean e target arguments) :
    Host.Agree I { Host.full with instantiate := strategy } .full where
  evaluate := Serves.evaluate
  suppress _ := .bind (works.emits _) fun _ _ => .modify fun c => works.suppress c _
  instantiate bean e target arguments complete := by
    change Work.Agree I (strategy bean e target arguments) _ _
    rw [same bean e target arguments complete]
    exact works.instantiates bean e target arguments

theorem full_self (works : w.Works I) : Host.Agree I .full .full :=
  works.full_agree _ fun _ _ _ _ _ => rfl

end Realm.Works

theorem Creation.Decides.mono {n : Creation} {I J : Container → Prop} {c : Container} {call : Call}
    (decides : n.Decides I call c) (weaker : ∀ m, I m → J m) : n.Decides J call c := by
  have tries (tried : n.definition.Tried I call.executable) : n.definition.Tried J call.executable :=
    tried.imp_right fun ⟨m, held, remembered⟩ => ⟨m, weaker m held, remembered⟩
  cases decides with
  | replayed ungiven held entry same inv =>
    exact .replayed ungiven (weaker _ held) entry same (weaker _ inv)
  | given some tried inv => exact .given some (tries tried) (weaker _ inv)
  | found ungiven held absent same kept tried inv =>
    exact .found ungiven (weaker _ held) absent same kept (tries tried) (weaker _ inv)

theorem Creation.Decides.elsewhere {n : Creation} {I : Container → Prop} {c : Container} {call : Call}
    (decides : n.Decides I call c) (host : Host) (create : Creator) :
    (n.elsewhere host create).Decides I call c := by
  cases decides with
  | replayed ungiven held entry same inv => exact .replayed ungiven held entry same inv
  | given some tried inv => exact .given some tried inv
  | found ungiven held absent same kept tried inv =>
    exact .found ungiven held absent same kept tried inv

theorem Realm.Agree.right {w : Realm} {I : Container → Prop} {create create' : Creator}
    (agree : w.Agree I create create') : w.Agree I create' create' := by
  intro ctx name d explicit c place inv asked
  obtain ⟨same, failed, made⟩ := agree ctx name d explicit c place inv asked
  rw [same] at failed
  simp only [same] at made
  exact ⟨rfl, failed, made⟩

/-- Creation in the realm upholds `I` once it has made the call it decides on. -/
structure Realm.Conducts (w : Realm) (I : Container → Prop) : Prop extends Works w I where
  settle : ∀ (n : Creation) room c call m, n.host = .full → n.create = createWithin .full room →
    w.Agree I n.create n.create → n.bean ∈ n.context.path → w.place n.context →
    w.begun n.bean n.definition → I c → n.call.run.run c = (.ok call, m) → call.IsComplete →
    n.Decides I call m → I ((n.instantiate call).run.run m).2

theorem Realm.Works.conducts {w : Realm} {I : Container → Prop} (works : w.Works I)
    (decided : ∀ (n : Creation) room c call m, n.host = .full → n.create = createWithin .full room →
      n.bean ∈ n.context.path → w.begun n.bean n.definition → I c →
      n.call.run.run c = (.ok call, m) → n.Decides I call m → I m) : w.Conducts I where
  toWorks := works
  settle n room c call m full within _ inside _ begun inv run complete decides := by
    have hosts := full.symm ▸ works.full_self
    have made : Attempt.Agree I (n.instantiate call) ((n.elsewhere n.host n.create).instantiate call)
      fun _ => True := instantiate hosts complete
    exact (made m (decided n room c call m full within inside begun inv run decides)).2.1

namespace Realm.Conducts

variable {w : Realm} {I : Container → Prop} {create : Creator} {n : Creation} {c : Container}
  {room : Nat}

theorem perform (conducts : w.Conducts I) (full : n.host = .full)
    (creates : w.Agree I n.create (BeanWiring.createWithin .full room))
    (inside : n.bean ∈ n.context.path) (place : w.place n.context)
    (begun : w.begun n.bean n.definition) (inv : I c) :
    Attempt.Ends I c n.perform (n.elsewhere .full (BeanWiring.createWithin .full room)).perform
      fun _ => I := by
  have known := conducts.concerns n.bean n.definition begun
  have hosts : Host.Alike I n.host .full := by
    rw [full]
    exact conducts.full_self.alike
  have calls : Attempt.Ends I c n.call
      (n.elsewhere .full (BeanWiring.createWithin .full room)).call _ :=
    conducts.call hosts creates place known inv
  refine .bind calls.told fun call m ⟨run, complete, decides⟩ => ?_
  have settled := conducts.settle (n.elsewhere .full (BeanWiring.createWithin .full room)) room c call
    m rfl rfl creates.right inside place begun inv (calls.1.symm.trans run) complete
    (decides.elsewhere _ _)
  have same : n.instantiate call =
      (n.elsewhere .full (BeanWiring.createWithin .full room)).instantiate call := by
    unfold Creation.instantiate
    rw [full]
  rw [same]
  exact .of_state settled

theorem createWithin (conducts : w.Conducts I) (room : Nat) :
    w.Agree I (BeanWiring.createWithin .full room) (BeanWiring.createWithin .full room) := by
  induction room with
  | zero => exact fun _ _ _ _ _ _ inv _ => .throw _ inv
  | succ room ih =>
    intro ctx bean d explicit c place inv asked
    refine conducts.beginning place inv asked fun inside began within begun => ?_
    exact conducts.perform (n := ⟨.full, _, inside, bean, d, explicit⟩) rfl ih
      (Context.begin_path began) within begun (conducts.emit c _ inv)

end Realm.Conducts

namespace Realm.Upholds

variable {w : Realm} {I : Container → Prop} {create' : Creator} {host host' : Host} {n : Creation}
  {c : Container}

theorem decided (upholds : w.Upholds I) (begun : w.begun n.bean n.definition) {call : Call}
    (decides : n.Decides I call c) : I c := by
  cases decides with
  | replayed _ _ _ _ inv => exact inv
  | given _ _ inv => exact inv
  | found ungiven held absent same kept tried inv =>
    exact upholds.keep _ _ n.bean n.definition _ held absent begun inv kept (same ▸ tried)

theorem perform (upholds : w.Upholds I) (hosts : Host.Agree I n.host host')
    (creates : w.Agree I n.create create') (place : w.place n.context)
    (begun : w.begun n.bean n.definition) :
    Attempt.Agree I n.perform (n.elsewhere host' create').perform fun _ => True := by
  refine .of_ends fun c inv => ?_
  have known := upholds.concerns n.bean n.definition begun
  refine .bind (upholds.call hosts.alike creates place known inv) fun call m ⟨complete, decides⟩ => ?_
  exact (Works.instantiate hosts complete).ends (upholds.decided begun decides)

theorem conducts (upholds : w.Upholds I) : w.Conducts I :=
  upholds.toWorks.conducts fun _ _ _ _ _ _ _ _ begun _ _ decides => upholds.decided begun decides

/-- Creation upholds what its effects uphold, and comes to the same in surroundings that agree on
complete calls. -/
theorem createWithin (upholds : w.Upholds I) (hosts : Host.Agree I host host') (room : Nat) :
    w.Agree I (createWithin host room) (createWithin host' room) := by
  induction room with
  | zero => exact fun _ _ _ _ _ _ inv _ => .throw _ inv
  | succ room ih =>
    intro ctx bean d explicit c place inv asked
    refine upholds.beginning place inv asked fun inside _ within begun => ?_
    have performs := upholds.perform (n := ⟨host, _, inside, bean, d, explicit⟩) hosts ih within begun
    exact (performs.ends (upholds.emit c _ inv)).mono fun _ _ done => done.2

end Realm.Upholds

end BeanWiring
