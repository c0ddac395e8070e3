import BeanWiring.Proofs.Wiring.InnerBeans

/-!
The order in which a container lists its beans. Definitions are never removed, and a singleton is
removed only when its definition is replaced. So neither replacing nor creating beans changes the
order in which names were first registered, nor which singletons have no definition.
-/
namespace BeanWiring

namespace Request

def defines : Request → List String
  | .define name _ => [name]
  | _ => []

def holds : Request → List String
  | .registerSingleton name _ => [name]
  | _ => []

end Request

namespace Container

/-- The container was given definitions and beans under these names, in this order. -/
structure Listed (defined held : List String) (c : Container) : Prop where
  definitions : c.definitions.keys = Graph.distinct defined
  ready : c.singletons.keys.filter (· ∉ defined) = (Graph.distinct held).filter (· ∉ defined)
  once : c.singletons.keys.Nodup

namespace Listed

variable {c c' : Container} {defined held : List String} {name : String}

theorem new (settings : Settings) : Listed [] [] (.new settings) := ⟨rfl, rfl, .nil⟩

theorem frame (listed : c.Listed defined held) (definitions : c'.definitions = c.definitions)
    (singletons : c'.singletons = c.singletons) : c'.Listed defined held where
  definitions := definitions ▸ listed.definitions
  ready := singletons ▸ listed.ready
  once := singletons ▸ listed.once

theorem contains_iff (listed : c.Listed defined held) (name : String) :
    c.definitions.contains name = true ↔ name ∈ defined := by
  rw [Registry.contains_iff, listed.definitions, Graph.mem_distinct]

theorem beanNames (listed : c.Listed defined held) :
    c.beanNames = Graph.distinct defined ++ (Graph.distinct held).filter (· ∉ defined) := by
  unfold Container.beanNames
  rw [listed.definitions, ← listed.ready]
  refine congrArg _ (List.filter_congr fun name _ => ?_)
  rw [Bool.eq_iff_iff, Bool.not_eq_true', ← Bool.not_eq_true, listed.contains_iff, decide_eq_true_iff]

theorem nodup_beanNames (listed : c.Listed defined held) : c.beanNames.Nodup := by
  rw [listed.beanNames]
  refine List.Nodup.append (Graph.nodup_distinct _) ((Graph.nodup_distinct _).filter _) ?_
  intro name early late
  have apart : name ∉ defined := by simpa using (List.mem_filter.mp late).2
  exact apart (Graph.mem_distinct.mp early)

theorem nodup_insert (listed : c.Listed defined held) (name : String) (bean : Value) :
    (c.singletons.insert name bean).keys.Nodup := by
  rw [Registry.keys_insert]
  split
  · exact listed.once
  · rename_i absent
    exact List.nodup_append_comm.mp (List.nodup_cons.mpr ⟨absent, listed.once⟩)

theorem filter_concat (own : name ∈ defined) (names : List String) :
    (if name ∈ names then names else names ++ [name]).filter (· ∉ defined) =
      names.filter (· ∉ defined) := by
  split
  · rfl
  · simp [own]

theorem registerSingleton (listed : c.Listed defined held) (name : String) (bean : Value) :
    Listed defined (held ++ [name]) { c with singletons := c.singletons.insert name bean } := by
  refine ⟨listed.definitions, ?_, listed.nodup_insert name bean⟩
  change (c.singletons.insert name bean).keys.filter (· ∉ defined) = _
  rw [Registry.keys_insert, Graph.distinct_concat]
  by_cases own : name ∈ defined
  · rw [filter_concat own, filter_concat own]
    exact listed.ready
  -- A bean without a definition stands among the singletons just if it was registered as one.
  · have same : name ∈ c.singletons.keys ↔ name ∈ Graph.distinct held := by
      have ready := congrArg (name ∈ ·) listed.ready
      simpa [own] using ready
    by_cases present : name ∈ c.singletons.keys
    · rw [if_pos present, if_pos (same.mp present)]
      exact listed.ready
    · rw [if_neg present, if_neg (mt same.mpr present), List.filter_append, List.filter_append,
        listed.ready]

theorem registerCreated (listed : c.Listed defined held)
    (own : c.definitions.contains name = true) (bean : Value) :
    Listed defined held { c with singletons := c.singletons.insert name bean } := by
  refine ⟨listed.definitions, ?_, listed.nodup_insert name bean⟩
  change (c.singletons.insert name bean).keys.filter (· ∉ defined) = _
  rw [Registry.keys_insert, filter_concat ((listed.contains_iff name).mp own)]
  exact listed.ready

theorem register (listed : c.Listed defined held) (name : String) (d : Definition) :
    Listed (defined ++ [name]) held ((Work.register name d).run c).2 := by
  obtain ⟨definitions, erased, kept, -⟩ := Work.run_register name d c
  have apart : (fun other => decide (other ∉ defined ++ [name])) =
      fun other => decide (other ≠ name) && decide (other ∉ defined) := by
    funext other
    simp [not_or, and_comm]
  -- Whether or not a singleton is dropped, those not named so are the same.
  have rest : ((Work.register name d).run c).2.singletons.keys.filter (· ≠ name) =
      c.singletons.keys.filter (· ≠ name) := by
    cases replaced : c.definitions.contains name with
    | true =>
      rw [erased replaced, Registry.keys_erase, List.filter_filter]
      simp
    | false => rw [kept replaced]
  refine ⟨?_, ?_, ?_⟩
  · rw [definitions, Registry.keys_insert, Graph.distinct_concat, listed.definitions]
  · rw [apart]
    have split (names : List String) :
        names.filter (fun other => decide (other ≠ name) && decide (other ∉ defined)) =
          (names.filter (· ≠ name)).filter (· ∉ defined) := by
      rw [List.filter_filter]
      exact List.filter_congr fun other _ => Bool.and_comm _ _
    rw [split, rest, List.filter_comm, listed.ready, List.filter_comm, ← split]
  · cases replaced : c.definitions.contains name with
    | true =>
      rw [erased replaced, Registry.keys_erase]
      exact listed.once.filter _
    | false =>
      rw [kept replaced]
      exact listed.once

theorem respected (known : List Definition) (defined held : List String) :
    (Realm.everywhere (· ∈ known)).Respects known (Listed defined held) := by
  refine Realm.everywhere_respects (fun _ _ definitions singletons _ _ listed =>
    listed.frame definitions singletons) ?_ fun _ _ _ _ _ _ _ _ _ listed => listed.frame rfl rfl
  intro m c name bean there own _ listed
  exact listed.registerCreated ((listed.contains_iff name).mpr ((there.contains_iff name).mp own)) bean

theorem asked {known : List Definition} (listed : c.Listed defined held) (lawful : c.Lawful known)
    {request : Request} (asks : request.isAsking = true) :
    (request.perform.run c).2.Listed defined held :=
  (((respected known defined held).upholds lawful.catalogued).conducts.asked (fun _ => trivial) asks c
    ⟨lawful, listed⟩).2.1.2

theorem perform {known : List Definition} (listed : c.Listed defined held) (lawful : c.Lawful known)
    (request : Request) :
    (request.perform.run c).2.Listed (defined ++ request.defines) (held ++ request.holds) := by
  have same {c' : Container} (other : c'.Listed defined held) :
      c'.Listed (defined ++ []) (held ++ []) := by
    rwa [List.append_nil, List.append_nil]
  cases request with
  | define name d =>
    have enrolled : ((Work.enroll d).run c).2.Listed defined held := listed.frame rfl rfl
    have registered := enrolled.register name ((Work.enroll d).run c).1
    change Listed _ (held ++ []) _
    rwa [List.append_nil]
  | registerSingleton name bean =>
    change Listed (defined ++ []) (held ++ [name]) _
    rw [List.append_nil]
    exact listed.registerSingleton name bean
  | build | registerClass | setProperty | registerDependent => exact same (listed.frame rfl rfl)
  | bean | beanOfType | lookup | isTypeMatch | introspect => exact same (listed.asked lawful rfl)
  | clearResolution name =>
    exact same (Request.clearResolution_leaves listed fun d _ => listed.frame rfl rfl)

theorem performAll {known : List Definition} (listed : c.Listed defined held)
    (lawful : c.Lawful known) (requests : List Request) :
    ((Request.performAll requests).run c).2.Listed (defined ++ requests.flatMap Request.defines)
      (held ++ requests.flatMap Request.holds) := by
  induction requests generalizing c known defined held with
  | nil =>
    change c.Listed (defined ++ []) (held ++ [])
    rwa [List.append_nil, List.append_nil]
  | cons request rest ih =>
    have later := ih (listed.perform lawful request) (lawful.perform request)
    rw [List.append_assoc, List.append_assoc] at later
    exact later

end Listed

end Container

end BeanWiring
