import CodeRetrieval.Proofs.Distinct
import CodeRetrieval.Proofs.Retrieval.Filter
import CodeRetrieval.Proofs.Store.Lookup
import CodeRetrieval.Proofs.Store.Reads

/-!
No fragment is in an answer twice. Each way to the sources drops repetitions on its own, and
dependencies are picked besides the sources. Only a lookup picks them besides its first source; what
they could repeat of the others has the entity's own name, and a name leads to one entity.
-/

set_option autoImplicit false

namespace CodeRetrieval

/-- The ids of all that an answer shows. -/
def shownIds (sources : List (Ranked Float)) (dependencies : List Fragment) : List String :=
  sources.map (·.fragment.id) ++ dependencies.map (·.id)

theorem ids_exact (fs : List Fragment) : (exact fs).map (·.fragment.id) = fs.map (·.id) :=
  List.map_map

theorem nodup_ids_placeFirst {hit : Fragment} {count : Nat} {results : List (Ranked Float)}
    (h : (results.map (·.fragment.id)).Nodup) :
    ((placeFirst hit count results).map (·.fragment.id)).Nodup := by
  refine List.Nodup.sublist ((List.take_sublist _ _).map _) (List.nodup_cons.2 ⟨?_, ?_⟩)
  · intro hmem
    obtain ⟨x, hx, hid⟩ := List.mem_map.1 hmem
    have hne := (List.mem_filter.1 hx).2
    rw [hid] at hne
    simp at hne
  · exact h.sublist (List.filter_sublist.map _)

theorem head?_placeFirst (hit : Fragment) (count : Nat) (results : List (Ranked Float)) :
    (placeFirst hit count results).head? = some ⟨hit, 1.0⟩ := by
  rw [placeFirst, List.head?_take, if_neg (by omega)]
  rfl

theorem nodup_ids_besides {entity : Fragment} {all : List Fragment} (h : (all.map (·.id)).Nodup) :
    ((entity :: all.filter (·.id != entity.id)).map (·.id)).Nodup := by
  refine List.nodup_cons.2 ⟨?_, h.sublist (List.filter_sublist.map _)⟩
  intro hmem
  obtain ⟨f, hf, hid⟩ := List.mem_map.1 hmem
  have hne := (List.mem_filter.1 hf).2
  rw [hid] at hne
  simp at hne

namespace Memory

variable {m : Memory}

theorem nodup_ids_search (h : m.entries.Sorted) {query : Embedding} {topK : Nat} {flt : Filter}
    {floor : Float32} {rs : List (Ranked Float)}
    (hok : Store.search m query topK flt floor = .ok rs) : (rs.map (·.fragment.id)).Nodup := by
  cases hok
  exact nodup_ids_rank topK (Entries.near_ids query flt floor h.keys_nodup)

theorem nodup_ids_hybridSearch (h : m.entries.Sorted) {req : HybridRequest}
    {rs : List (Ranked Float)} (hok : hybridSearch m req = .ok rs) :
    (rs.map (·.fragment.id)).Nodup := by
  unfold hybridSearch at hok
  split at hok
  · cases hok
    exact List.nodup_nil
  · split at hok
    · obtain ⟨semantic, _, hok⟩ := Outcome.bind_ok hok
      obtain ⟨keyword, _, hok⟩ := Outcome.bind_ok hok
      cases hok
      exact req.fusion.nodup_ids_fuse semantic keyword req.count
    · obtain ⟨semantic, hsemantic, hok⟩ := Outcome.bind_ok hok
      cases hok
      exact (nodup_ids_search h hsemantic).sublist ((List.take_sublist _ _).map _)

theorem mem_of_fragmentsOf {name : String} {all : List Fragment}
    (hok : Store.fragmentsOf m name = .ok all) {f : Fragment} (hf : f ∈ all) :
    f ∈ m.entries.fragments ∧ f.entityName = some name := by
  cases hok
  rw [Entries.fragmentsOf, List.mem_mergeSort, List.mem_filter, beq_iff_eq] at hf
  exact hf

theorem nodup_ids_fragmentsOf (h : m.entries.Sorted) {name : String} {all : List Fragment}
    (hok : Store.fragmentsOf m name = .ok all) : (all.map (·.id)).Nodup := by
  cases hok
  exact ((List.mergeSort_perm _ _).map _).nodup_iff.2 (h.filter_ids _)

theorem nodup_ids_listAll (h : m.entries.Sorted) {flt : Filter} {fs : List Fragment}
    (hok : Store.listAll m flt = .ok fs) : (fs.map (·.id)).Nodup := by
  cases hok
  exact ((Entries.listing_perm _).map _).nodup_iff.2 (h.filter_ids _)

theorem mem_resolve_entity {limits : DependencyLimits} {entity : Fragment} {first : List Fragment}
    (hentity : entity.kind = .entity)
    (hok : Dependency.resolve m limits [entity] = .ok first) {f : Fragment} (hf : f ∈ first) :
    f.id ≠ entity.id ∧ ∃ name, m.entries.entityNamed? name = some f := by
  have hdocument : entity.kind.isDocument = false := by
    rw [hentity]
    rfl
  simp only [Dependency.resolve, Dependency.candidates, relatedTo_eq, hdocument,
    Bool.false_eq_true, if_false, List.append_nil, Outcome.ok_bind] at hok
  cases hok
  have hnew := (mem_keys_distinctFrom _ _ f.id).1 (List.mem_map.2 ⟨f, hf, rfl⟩)
  have hmem := (distinctFrom_sublist _ _).subset hf
  obtain ⟨name, _, hname⟩ := List.mem_filterMap.1 hmem
  exact ⟨by simpa using hnew.2, name, hname⟩

end Memory

/-- Whichever way the sources come, no id is there twice. -/
theorem SourceWay.nodup_ids {r : Retriever Memory} (h : r.store.entries.Sorted) {o : QueryOptions}
    {a : Analysis} {hit : Option Fragment} {sources : List (Ranked Float)}
    (hway : SourceWay r o a hit sources) : (sources.map (·.fragment.id)).Nodup := by
  cases hway with
  | schema f all _ hall =>
    rw [ids_exact]
    exact nodup_ids_besides (Memory.nodup_ids_fragmentsOf h hall)
  | listing _ fs _ hfs =>
    rw [ids_exact]
    exact Memory.nodup_ids_listAll h hfs
  | search results _ hresults =>
    obtain ⟨req, _, hsearch⟩ := hresults
    exact Memory.nodup_ids_hybridSearch h hsearch
  | named f results _ _ hresults =>
    obtain ⟨req, _, hsearch⟩ := hresults
    exact nodup_ids_placeFirst (Memory.nodup_ids_hybridSearch h hsearch)

theorem SourceWay.head_of_hit {S : Type} [Store S] {r : Retriever S} {o : QueryOptions}
    {a : Analysis} {hit : Fragment} {sources : List (Ranked Float)}
    (hway : SourceWay r o a (some hit) sources) (hlisting : a.asksForListing = false)
    (hintent : a.intent ≠ .schema) :
    sources.head? = some ⟨hit, 1.0⟩ ∧ sources.length ≤ max 1 a.resultCount := by
  cases hway with
  | schema _ _ hschema => exact absurd hschema hintent
  | listing _ _ hasks => simp [hlisting] at hasks
  | named _ results => exact ⟨head?_placeFirst .., List.length_take_le ..⟩

namespace Retriever

theorem lookup_ok {S : Type} [Store S] {r : Retriever S} {name : String} {t t' : Trace}
    {answer : Answer} (h : (r.lookup name).result t = (.ok answer, t')) :
    (answer.sources = [] ∧ answer.dependencies = []) ∨
      ∃ entity fragments first referring,
        Store.entityNamed? r.store name = .ok (some entity) ∧
        entityFragments r.store entity = .ok fragments ∧
        Dependency.resolve r.store r.config.dependencies [entity] = .ok first ∧
        answer.sources = exact fragments ∧
        answer.dependencies =
          first ++ Dependency.newOnes ((fragments ++ first).map (·.id)) referring := by
  -- Of the steps only those on the store tell anything about the answer.
  obtain ⟨_, t₁, _, h⟩ := Effect.bind_ok h
  obtain ⟨found, t₂, hfound, h⟩ := Effect.bind_ok h
  cases found with
  | none =>
    obtain ⟨_, t₃, _, h⟩ := Effect.bind_ok h
    cases h
    exact .inl ⟨rfl, rfl⟩
  | some entity =>
    obtain ⟨fragments, t₃, hfragments, h⟩ := Effect.bind_ok h
    obtain ⟨first, t₄, hfirst, h⟩ := Effect.bind_ok h
    obtain ⟨referring, t₅, _, h⟩ := Effect.bind_ok h
    obtain ⟨text, t₆, _, h⟩ := Effect.bind_ok h
    obtain ⟨_, t₇, _, h⟩ := Effect.bind_ok h
    cases h
    exact .inr ⟨entity, fragments, first, referring, (Prod.mk.inj hfound).1,
      (Prod.mk.inj hfragments).1, (Prod.mk.inj hfirst).1, rfl, rfl⟩

variable {r : Retriever Memory}

/-- The references of an entity lead to none of the other fragments of its name: one that is an
entity of this name is not the one that the name leads to. -/
theorem disjoint_first (h : r.store.entries.Sorted) {name : String} {entity : Fragment}
    {fragments first : List Fragment}
    (hentity : Store.entityNamed? r.store name = .ok (some entity))
    (hfragments : entityFragments r.store entity = .ok fragments)
    (hfirst : Dependency.resolve r.store r.config.dependencies [entity] = .ok first) :
    ∀ f ∈ fragments, ∀ g ∈ first, f.id ≠ g.id := by
  have hfound : r.store.entries.entityNamed? name = some entity := Except.ok.inj hentity
  obtain ⟨_, hnamed, _⟩ := Entries.entityNamed?_some h hfound
  obtain ⟨hkind, own, hown⟩ := Entries.entityName_of_isEntityNamed hnamed
  obtain ⟨all, hall, hfragments⟩ := Outcome.bind_ok hfragments
  cases hfragments
  intro f hf g hg hid
  obtain ⟨hne, other, hother⟩ := Memory.mem_resolve_entity hkind hfirst hg
  obtain ⟨hgmem, _, _⟩ := Entries.entityNamed?_some h hother
  rcases List.mem_cons.1 hf with rfl | hf
  · exact hne hid.symm
  · obtain ⟨hfmem, hfname⟩ := Memory.mem_of_fragmentsOf hall (List.mem_of_mem_filter hf)
    have hsame : f = g := h.eq_of_id_eq hfmem hgmem hid
    have hname : g.entityName = entity.entityName := by
      rw [← hsame, hfname, hown]
      rfl
    exact hne (Entries.entityNamed?_inj h hother hfound hname ▸ rfl)

theorem nodup_lookup (h : r.store.entries.Sorted) {name : String} {t t' : Trace} {answer : Answer}
    (hok : (r.lookup name).result t = (.ok answer, t')) :
    (shownIds answer.sources answer.dependencies).Nodup := by
  rcases lookup_ok hok with ⟨hsources, hdependencies⟩ |
    ⟨entity, fragments, first, referring, hentity, hfragments, hfirst, hsources, hdependencies⟩
  · simp [shownIds, hsources, hdependencies]
  · have hdisjoint := disjoint_first h hentity hfragments hfirst
    obtain ⟨all, hall, hbesides⟩ := Outcome.bind_ok hfragments
    have hids : (fragments.map (·.id)).Nodup := by
      cases hbesides
      exact nodup_ids_besides (Memory.nodup_ids_fragmentsOf h hall)
    have hfirstIds : (first.map (·.id)).Nodup := by
      obtain ⟨candidates, _, rfl⟩ := Outcome.map_ok hfirst
      exact nodup_keys_distinctFrom _ _
    have hboth : ((fragments ++ first).map (·.id)).Nodup := by
      rw [List.map_append]
      refine List.nodup_append.2 ⟨hids, hfirstIds, ?_⟩
      intro a ha b hb
      obtain ⟨f, hf, rfl⟩ := List.mem_map.1 ha
      obtain ⟨g, hg, rfl⟩ := List.mem_map.1 hb
      exact hdisjoint f hf g hg
    rw [shownIds, hsources, ids_exact, hdependencies, List.map_append, ← List.append_assoc,
      ← List.map_append]
    exact nodup_append_distinctFrom referring hboth

theorem nodup_retrieve (h : r.store.entries.Sorted) {question : String} {o : QueryOptions}
    {t t' : Trace} {found : Retrieval}
    (hok : (r.retrieve question o).result t = (.ok found, t')) :
    (shownIds found.sources found.dependencies).Nodup := by
  obtain ⟨⟨hit, _, hway⟩, _, hdependencies⟩ := retrieve_ok hok
  have hsources := hway.nodup_ids h
  rcases hdependencies with hnone | hresolve
  · simpa [shownIds, hnone] using hsources
  · obtain ⟨candidates, _, hnew⟩ := Outcome.map_ok hresolve
    have hids : (found.sources.map (·.fragment)).map (·.id) =
      found.sources.map (·.fragment.id) := List.map_map
    rw [shownIds, ← hnew, ← hids]
    rw [← hids] at hsources
    exact nodup_append_distinctFrom candidates hsources

end Retriever

/-- No fragment is in an answer twice, be it as a source or as a dependency. Where the first entity
that a question names is put in front of what the search finds, it stands there with the full
score, and the sources are no more than asked for. -/
theorem answers_without_repetition {r : Retriever Memory} (h : r.store.entries.Sorted) :
    (∀ (question : String) (o : QueryOptions) (t t' : Trace) (found : Retrieval),
      (r.retrieve question o).result t = (.ok found, t') →
      let a := (Analysis.ofQuestion question).withOptions o
      (shownIds found.sources found.dependencies).Nodup ∧
      (found.listing = false → a.intent ≠ .schema → ∀ hit,
        a.entityNames.findSome? r.store.entries.entityNamed? = some hit →
        found.sources.head? = some ⟨hit, 1.0⟩ ∧ found.sources.length ≤ max 1 a.resultCount)) ∧
    (∀ (name : String) (t t' : Trace) (answer : Answer),
      (r.lookup name).result t = (.ok answer, t') →
      (shownIds answer.sources answer.dependencies).Nodup) := by
  constructor
  · intro question o t t' found hok a
    refine ⟨Retriever.nodup_retrieve h hok, ?_⟩
    intro hlisting hintent hit hfirst
    obtain ⟨⟨named, hnamed, hway⟩, hasks, _⟩ := Retriever.retrieve_ok hok
    rw [Memory.directHit_eq] at hnamed
    cases hnamed
    rw [hfirst] at hway
    exact hway.head_of_hit (hasks.symm.trans hlisting) hintent
  · intro name t t' answer hok
    exact Retriever.nodup_lookup h hok

def orders : Entries :=
  [⟨{ orderEntity with id := "order-a", filePath := "a/Order.java", references := ["Order"] }, none⟩,
   ⟨{ orderEntity with id := "order-b", filePath := "b/Order.java" }, none⟩]

def market : Retriever Memory := { shop with store := ⟨orders, .standard⟩ }

theorem orders_sorted : orders.Sorted := by
  rw [Entries.Sorted, SortedBy]
  decide +kernel

theorem orders_named : ["Order"].findSome? orders.entityNamed? =
    some (orders.head (by decide)).fragment := by
  have hnamed : orders.fragments.filter (Entries.isEntityNamed "Order") = orders.fragments := by
    decide +kernel
  have hbyPath : orders.fragments.mergeSort (fun f g => decide (f.filePath ≤ g.filePath)) =
      orders.fragments := List.mergeSort_of_pairwise (by decide +kernel)
  rw [List.findSome?_cons, Entries.entityNamed?, hnamed, hbyPath]
  decide +kernel

theorem market_hit : (Analysis.ofQuestion "how does Order work").entityNames.findSome?
    market.store.entries.entityNamed? = some (orders.head (by decide)).fragment := by
  have hnames : (Analysis.ofQuestion "how does Order work").entityNames = ["Order"] := by
    decide +kernel
  rw [hnames]
  exact orders_named

theorem answers_without_repetition_market :
    let hit := (orders.head (by decide)).fragment
    (∃ found t, (market.retrieve "how does Order work" {}).result .empty = (.ok found, t) ∧
      (shownIds found.sources found.dependencies).Nodup ∧
      found.sources.head? = some ⟨hit, 1.0⟩) ∧
    ∃ answer t, (market.lookup "Order").result .empty = (.ok answer, t) ∧
      (shownIds answer.sources answer.dependencies).Nodup := by
  have hanswers : (market.retrieve "how does Order work" {}).Succeeds :=
    Retriever.succeeds_retrieve (fun _ => ⟨_, rfl⟩) {}
  have hexplains : (market.lookup "Order").Succeeds :=
    Retriever.succeeds_lookup (fun _ _ => ⟨_, rfl⟩) "Order"
  obtain ⟨found, t, hfound⟩ := hanswers .empty
  obtain ⟨answer, t', hanswer⟩ := hexplains .empty
  obtain ⟨hretrieve, hlookup⟩ := answers_without_repetition (r := market) orders_sorted
  obtain ⟨hids, hhead⟩ := hretrieve _ _ _ _ _ hfound
  refine ⟨⟨found, t, hfound, hids, ?_⟩, answer, t', hanswer, hlookup _ _ _ _ hanswer⟩
  have hlisting : found.listing = false :=
    (Retriever.retrieve_ok hfound).2.1.trans (by decide +kernel)
  exact (hhead hlisting (by decide +kernel) _ market_hit).1

end CodeRetrieval
