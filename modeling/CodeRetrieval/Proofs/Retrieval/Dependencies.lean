import CodeRetrieval.Proofs.Retrieval.Repetition
import Mathlib.Data.Prod.Lex
import Mathlib.Data.Sum.Order

/-!
What some sources are related to. Every fragment that a followed reference leads to, or that refers
to a document among the sources, is found by some route; what is resolved are the fragments with
routes, each once and in the order of their first routes.
-/

set_option autoImplicit false

namespace CodeRetrieval

namespace Dependency

/-- At which source, and there by which of its references or as which of those that refer to it.
References are followed first. -/
abbrev Route := Lex (Nat × Lex (Nat ⊕ Nat))

def Route.forward (i j : Nat) : Route := toLex (i, Sum.inlₗ j)

def Route.reverse (i k : Nat) : Route := toLex (i, Sum.inrₗ k)

theorem Route.lt_of_source_lt {r s : Route} (h : (ofLex r).1 < (ofLex s).1) : r < s :=
  Prod.Lex.lt_iff.2 (.inl h)

theorem Route.forward_lt_forward {i j j' : Nat} (h : j < j') : forward i j < forward i j' :=
  Prod.Lex.lt_iff.2 (.inr ⟨rfl, Sum.Lex.inl_lt_inl_iff.2 h⟩)

theorem Route.forward_lt_reverse (i j k : Nat) : forward i j < reverse i k :=
  Prod.Lex.lt_iff.2 (.inr ⟨rfl, Sum.Lex.inl_lt_inr j k⟩)

theorem Route.reverse_lt_reverse {i k k' : Nat} (h : k < k') : reverse i k < reverse i k' :=
  Prod.Lex.lt_iff.2 (.inr ⟨rfl, Sum.Lex.inr_lt_inr_iff.2 h⟩)

variable {es : Entries} {limits : DependencyLimits} {sources : List Fragment}

/-- Whether a route leads to a fragment. -/
inductive Leads (es : Entries) (limits : DependencyLimits) (sources : List Fragment) :
    Route → Fragment → Prop where
  | forward {i j : Nat} {source f : Fragment} {name : String} (hsource : sources[i]? = some source)
      (hname : source.references[j]? = some name) (hlimit : j < limits.perFragment)
      (hf : es.entityNamed? name = some f) : Leads es limits sources (.forward i j) f
  | reverse {i k : Nat} {source f : Fragment} (hsource : sources[i]? = some source)
      (hdocument : source.kind.isDocument = true)
      (hf : (es.referencing source.documentName limits.reverse)[k]? = some f) :
      Leads es limits sources (.reverse i k) f

theorem mem_of_mem_referencing {name : String} {topK : Nat} {f : Fragment}
    (h : f ∈ es.referencing name topK) : f ∈ es.fragments := by
  have h := List.mem_mergeSort.1 (List.mem_mergeSort.1 (List.mem_of_mem_take h))
  exact List.mem_of_mem_filter h

theorem Leads.mem {r : Route} {f : Fragment} (hsorted : es.Sorted)
    (h : Leads es limits sources r f) : f ∈ es.fragments := by
  cases h with
  | forward _ _ _ hf => exact (Entries.entityNamed?_some hsorted hf).1
  | reverse _ _ hf => exact mem_of_mem_referencing (List.mem_of_getElem? hf)

/-- The routes from one source, with what they lead to. -/
def routesFrom (es : Entries) (limits : DependencyLimits) (source : Fragment) (i : Nat) :
    List (Route × Fragment) :=
  ((source.references.take limits.perFragment).zipIdx.filterMap fun (name, j) =>
    (es.entityNamed? name).map (.forward i j, ·)) ++
  if source.kind.isDocument then
    (es.referencing source.documentName limits.reverse).zipIdx.map fun (f, k) => (.reverse i k, f)
  else []

def routes (es : Entries) (limits : DependencyLimits) (sources : List Fragment) :
    List (Route × Fragment) :=
  sources.zipIdx.flatMap fun (source, i) => routesFrom es limits source i

theorem mem_routes {r : Route} {f : Fragment} :
    (r, f) ∈ routes es limits sources ↔ Leads es limits sources r f := by
  simp only [routes, routesFrom, List.mem_flatMap, Prod.exists, List.mem_append,
    List.mem_filterMap, List.mem_ite_nil_right, List.mem_map, List.mem_zipIdx_iff_getElem?]
  constructor
  · intro h
    obtain ⟨source, i, hsource, ⟨name, j, hname, hf⟩ | ⟨hdocument, g, k, hg, heq⟩⟩ := h
    · obtain ⟨g, hg, heq⟩ := Option.map_eq_some_iff.1 hf
      cases heq
      rw [List.getElem?_take, Option.ite_none_right_eq_some] at hname
      exact .forward hsource hname.2 hname.1 hg
    · cases heq
      exact .reverse hsource hdocument hg
  · intro h
    cases h with
    | forward hsource hname hlimit hf =>
      refine ⟨_, _, hsource, .inl ⟨_, _, ?_, Option.map_eq_some_iff.2 ⟨_, hf, rfl⟩⟩⟩
      rw [List.getElem?_take, if_pos hlimit, hname]
    | reverse hsource hdocument hf =>
      exact ⟨_, _, hsource, .inr ⟨hdocument, _, _, hf, rfl⟩⟩

theorem source_of_mem_routesFrom {source : Fragment} {i : Nat} {x : Route × Fragment}
    (hx : x ∈ routesFrom es limits source i) : (ofLex x.1).1 = i := by
  rw [routesFrom, List.mem_append, List.mem_filterMap, List.mem_ite_nil_right, List.mem_map] at hx
  rcases hx with ⟨_, _, hx⟩ | ⟨_, _, _, rfl⟩
  · obtain ⟨_, _, rfl⟩ := Option.map_eq_some_iff.1 hx
    rfl
  · rfl

theorem pairwise_routesFrom (source : Fragment) (i : Nat) :
    (routesFrom es limits source i).Pairwise fun a b => a.1 < b.1 := by
  rw [routesFrom, List.pairwise_append]
  refine ⟨?_, ?_, ?_⟩
  · rw [List.pairwise_filterMap]
    refine (pairwise_zipIdx _).imp ?_
    intro x y hlt a ha b hb
    obtain ⟨f, _, rfl⟩ := Option.map_eq_some_iff.1 ha
    obtain ⟨g, _, rfl⟩ := Option.map_eq_some_iff.1 hb
    exact Route.forward_lt_forward hlt
  · split
    · rw [List.pairwise_map]
      exact (pairwise_zipIdx _).imp Route.reverse_lt_reverse
    · exact .nil
  · intro a ha b hb
    obtain ⟨x, _, ha⟩ := List.mem_filterMap.1 ha
    obtain ⟨f, _, rfl⟩ := Option.map_eq_some_iff.1 ha
    obtain ⟨_, hb⟩ := List.mem_ite_nil_right.1 hb
    obtain ⟨y, _, rfl⟩ := List.mem_map.1 hb
    exact Route.forward_lt_reverse i x.2 y.2

theorem pairwise_routes : (routes es limits sources).Pairwise fun a b => a.1 < b.1 := by
  rw [routes, List.pairwise_flatMap]
  refine ⟨fun x _ => pairwise_routesFrom x.1 x.2, (pairwise_zipIdx sources).imp ?_⟩
  intro x y hlt a ha b hb
  refine Route.lt_of_source_lt ?_
  rwa [source_of_mem_routesFrom ha, source_of_mem_routesFrom hb]

theorem relatedTo_routes (m : Memory) (source : Fragment) (i : Nat) :
    relatedTo m limits source = .ok ((routesFrom m.entries limits source i).map (·.2)) := by
  have hforward : ∀ names : List String,
      (names.zipIdx.filterMap fun (name, j) => (m.entries.entityNamed? name).map
        (Route.forward i j, ·)).map (·.2) = names.filterMap m.entries.entityNamed? := by
    intro names
    conv_rhs => rw [← List.zipIdx_map_fst 0 names, List.filterMap_map]
    rw [List.map_filterMap]
    refine List.filterMap_congr fun x _ => ?_
    simp
  have hreverse : ∀ fs : List Fragment,
      (fs.zipIdx.map fun (f, k) => (Route.reverse i k, f)).map (·.2) = fs := by
    intro fs
    rw [List.map_map]
    exact List.zipIdx_map_fst 0 fs
  rw [Memory.relatedTo_eq, routesFrom, List.map_append, hforward]
  split
  · rw [hreverse]
  · rfl

theorem candidates_routes (m : Memory) (limits : DependencyLimits) (sources : List Fragment) :
    candidates m limits sources = .ok ((routes m.entries limits sources).map (·.2)) := by
  have hfrom : ∀ n, candidates m limits sources = .ok (((sources.zipIdx n).flatMap
      fun (source, i) => routesFrom m.entries limits source i).map (·.2)) := by
    induction sources with
    | nil => exact fun _ => rfl
    | cons source rest ih =>
      intro n
      rw [candidates, relatedTo_routes m source n, Outcome.ok_bind, ih (n + 1), Outcome.ok_bind,
        List.zipIdx_cons, List.flatMap_cons, List.map_append]
      rfl
  exact hfrom 0

/-- The first route to each fragment besides the sources, with what it leads to. -/
def firstRoutes (es : Entries) (limits : DependencyLimits) (sources : List Fragment) :
    List (Route × Fragment) :=
  distinctFrom (·.2.id) (sources.map (·.id)) (routes es limits sources)

theorem newOnes_routes : newOnes (sources.map (·.id)) ((routes es limits sources).map (·.2)) =
    (firstRoutes es limits sources).map (·.2) := distinctFrom_map Prod.snd _ _

theorem leads_of_mem_firstRoutes {x : Route × Fragment} (hx : x ∈ firstRoutes es limits sources) :
    Leads es limits sources x.1 x.2 := mem_routes.1 ((distinctFrom_sublist _ _).subset hx)

theorem mem_ids_firstRoutes (id : String) : id ∈ (firstRoutes es limits sources).map (·.2.id) ↔
    (∃ r f, Leads es limits sources r f ∧ f.id = id) ∧ id ∉ sources.map (·.id) := by
  have hkeys : id ∈ (firstRoutes es limits sources).map (·.2.id) ↔
      id ∈ (routes es limits sources).map (·.2.id) ∧ id ∉ sources.map (·.id) :=
    mem_keys_distinctFrom _ _ id
  simp [hkeys, ← mem_routes]

theorem mem_firstRoutes (h : es.Sorted) {f : Fragment} :
    f ∈ (firstRoutes es limits sources).map (·.2) ↔
      f.id ∉ sources.map (·.id) ∧ ∃ r, Leads es limits sources r f := by
  constructor
  · intro hf
    obtain ⟨x, hx, rfl⟩ := List.mem_map.1 hf
    exact ⟨((mem_ids_firstRoutes _).1 (List.mem_map_of_mem hx)).2, x.1, leads_of_mem_firstRoutes hx⟩
  · intro hparts
    obtain ⟨hnew, r, hr⟩ := hparts
    obtain ⟨x, hx, hid⟩ := List.mem_map.1 ((mem_ids_firstRoutes f.id).2 ⟨⟨r, f, hr, rfl⟩, hnew⟩)
    have heq : x.2 = f := h.eq_of_id_eq ((leads_of_mem_firstRoutes hx).mem h) (hr.mem h) hid
    exact List.mem_map.2 ⟨x, hx, heq⟩

theorem pairwise_firstRoutes : (firstRoutes es limits sources).Pairwise fun x y =>
    ∀ r, Leads es limits sources r y.2 → x.1 < r := by
  refine (pairwise_distinctFrom _ pairwise_routes).imp ?_
  intro x y hxy r hr
  exact hxy (r, y.2) (mem_routes.2 hr) rfl

/-- What is resolved of some sources. -/
structure Expands (es : Entries) (limits : DependencyLimits) (sources found : List Fragment) :
    Prop where
  mem_iff : ∀ f, f ∈ found ↔ f.id ∉ sources.map (·.id) ∧ ∃ r, Leads es limits sources r f
  mem_iff_of_stored : (∀ s ∈ sources, s ∈ es.fragments) →
    ∀ f, f ∈ found ↔ f ∉ sources ∧ ∃ r, Leads es limits sources r f
  nodup_ids : (found.map (·.id)).Nodup
  ordered : found.Pairwise fun f g =>
    ∃ r, Leads es limits sources r f ∧ ∀ s, Leads es limits sources s g → r < s

theorem expands_firstRoutes (h : es.Sorted) :
    Expands es limits sources ((firstRoutes es limits sources).map (·.2)) where
  mem_iff _ := mem_firstRoutes h
  mem_iff_of_stored hstored f := by
    rw [mem_firstRoutes h]
    refine and_congr_left fun hr => not_congr ⟨fun hid => ?_, List.mem_map_of_mem⟩
    obtain ⟨r, hr⟩ := hr
    obtain ⟨s, hs, hid⟩ := List.mem_map.1 hid
    exact h.eq_of_id_eq (hstored s hs) (hr.mem h) hid ▸ hs
  nodup_ids := by
    rw [List.map_map]
    exact nodup_keys_distinctFrom _ _
  ordered := by
    rw [List.pairwise_map]
    exact pairwise_firstRoutes.imp_of_mem fun hx _ hxy => ⟨_, leads_of_mem_firstRoutes hx, hxy⟩

end Dependency

/-- Dependencies are sound, complete and in order: of the fragments that routes lead to exactly
those besides the sources are resolved, each once and by its first route. -/
theorem resolve_expands {m : Memory} (h : m.entries.Sorted) (limits : DependencyLimits)
    (sources : List Fragment) :
    ∃ found, Dependency.resolve m limits sources = .ok found ∧
      Dependency.Expands m.entries limits sources found := by
  refine ⟨_, ?_, Dependency.expands_firstRoutes h⟩
  rw [Dependency.resolve, Dependency.candidates_routes, ← Dependency.newOnes_routes]
  rfl

theorem resolve_expands_orders :
    let flow := { orderEntity with
      id := "flow", kind := .configDocument, filePath := "flows/Order.json",
      references := ["Order", "Order"] }
    orders.Sorted ∧ ∃ found, Dependency.resolve market.store ⟨5, 5⟩ [flow] = .ok found ∧
      Dependency.Expands orders ⟨5, 5⟩ [flow] found ∧
      (orders.head (by decide)).fragment ∈ found := by
  intro flow
  obtain ⟨found, hfound, hexpands⟩ := resolve_expands (m := market.store) orders_sorted ⟨5, 5⟩ [flow]
  have hnamed : orders.entityNamed? "Order" = some (orders.head (by decide)).fragment := by
    simpa using orders_named
  have hroute : Dependency.Leads orders ⟨5, 5⟩ [flow] (.forward 0 1)
      (orders.head (by decide)).fragment := .forward rfl rfl (by decide) hnamed
  exact ⟨orders_sorted, found, hfound, hexpands, (hexpands.mem_iff _).2 ⟨by decide, _, hroute⟩⟩

end CodeRetrieval
