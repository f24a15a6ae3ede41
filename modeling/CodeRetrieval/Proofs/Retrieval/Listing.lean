import CodeRetrieval.Proofs.Retrieval.Repetition
import CodeRetrieval.Proofs.Retrieval.Steps

set_option autoImplicit false

namespace CodeRetrieval

namespace Entries

/-- All entities of a language, or of all of them, in their order. -/
structure CompleteListing (es : Entries) (language : Option String) (fs : List Fragment) :
    Prop where
  mem_iff : ∀ f, f ∈ fs ↔
    f ∈ es.fragments ∧ f.kind = .entity ∧ ∀ l, language = some l → f.language = l
  nodup_ids : (fs.map (·.id)).Nodup
  ordered : fs.Pairwise (Fragment.ListedBefore fun f g => f.id < g.id)

/-- All fragments of the name of another one, in their order. -/
structure CompleteFragments (es : Entries) (hit : Fragment) (fs : List Fragment) : Prop where
  mem_iff : ∀ f, f ∈ fs ↔ f ∈ es.fragments ∧ f.entityName = hit.entityName ∧ f ≠ hit
  nodup_ids : ((hit :: fs).map (·.id)).Nodup
  ordered : fs.Pairwise (ThenBy (fun f g => f.startLine ≤ g.startLine) fun f g => f.id < g.id)

variable {es : Entries}

theorem completeListing_listAll (h : es.Sorted) (language : Option String) :
    es.CompleteListing language (es.listAll ⟨some .entity, language⟩) where
  mem_iff f := by
    rw [listAll, (listing_perm _).mem_iff, List.mem_filter]
    cases language <;> simp [Filter.accepts]
  nodup_ids := ((listing_perm _).map _).nodup_iff.2 (h.filter_ids _)
  ordered := listing_pairwise (h.fragments.filter _)

theorem completeFragments_fragmentsOf (h : es.Sorted) {name : String} {hit : Fragment}
    (hhit : es.entityNamed? name = some hit) :
    es.CompleteFragments hit
      ((es.fragmentsOf (hit.entityName.getD "")).filter (·.id != hit.id)) := by
  obtain ⟨hmem, hnamed, _⟩ := entityNamed?_some h hhit
  obtain ⟨_, own, hown⟩ := entityName_of_isEntityNamed hnamed
  rw [hown, Option.getD_some]
  constructor
  · intro f
    rw [List.mem_filter, fragmentsOf, List.mem_mergeSort, List.mem_filter, and_assoc, hown,
      beq_iff_eq, bne_iff_ne]
    refine and_congr_right fun hf => and_congr_right fun _ => not_congr ?_
    exact ⟨h.eq_of_id_eq hf hmem, congrArg Fragment.id⟩
  · exact nodup_ids_besides (((List.mergeSort_perm _ _).map _).nodup_iff.2 (h.filter_ids _))
  · exact (pairwise_mergeSort_thenBy (SortOrder.line.on Fragment.startLine)
      (h.fragments.filter _)).filter _

end Entries

namespace Retriever

variable {r : Retriever Memory} {question : String} {o : QueryOptions} {a : Analysis} {t : Trace}

theorem retrieve_of_listing (ha : (Analysis.ofQuestion question).withOptions o = a)
    (hlisting : a.asksForListing = true) :
    (r.retrieve question o).result t =
      (.ok ⟨a, exact (r.store.entries.listAll ⟨a.kind, o.language⟩), [], true⟩, t ++ .start) := by
  have hretrieve := retrieve_of_directHit (r := r) (t := t) ha (Memory.directHit_eq _ _)
  rw [sourcesFor_of_listing hlisting] at hretrieve
  refine hretrieve.trans ?_
  refine (Effect.bind_of_ok rfl).trans ?_
  unfold withDependencies
  rw [Bool.not_true, Bool.and_false]
  rfl

theorem retrieve_of_schema (ha : (Analysis.ofQuestion question).withOptions o = a)
    (hintent : a.intent = .schema) {hit : Fragment}
    (hhit : a.entityNames.findSome? r.store.entries.entityNamed? = some hit) :
    ∃ dependencies, (r.retrieve question o).result t =
      (.ok ⟨a, exact (hit :: (r.store.entries.fragmentsOf (hit.entityName.getD "")).filter
        (·.id != hit.id)), dependencies, false⟩, t ++ .start) := by
  have hretrieve := retrieve_of_directHit (r := r) (t := t) ha (Memory.directHit_eq _ _)
  rw [hhit, sourcesFor_of_schema hintent] at hretrieve
  obtain ⟨dependencies, hdependencies⟩ := withDependencies_ok (r := r) a
    (exact (hit :: (r.store.entries.fragmentsOf (hit.entityName.getD "")).filter
      (·.id != hit.id)), false) (t ++ .start)
  exact ⟨dependencies, hretrieve.trans ((Effect.bind_of_ok rfl).trans hdependencies)⟩

end Retriever

/-- A question for all entities gets exactly those of the language that is asked for, and one on the
schema of an entity gets that entity and exactly the other fragments of its name. Neither calls a
service, so no service can keep it from that. -/
theorem retrieve_complete {r : Retriever Memory} (h : r.store.entries.Sorted) (question : String)
    (o : QueryOptions) (t : Trace) :
    let a := (Analysis.ofQuestion question).withOptions o
    (a.intent = .listCount → a.kind = some .entity →
      ∃ fs, (r.retrieve question o).result t = (.ok ⟨a, exact fs, [], true⟩, t ++ .start) ∧
        r.store.entries.CompleteListing o.language fs) ∧
    (a.intent = .schema → ∀ hit, a.entityNames.findSome? r.store.entries.entityNamed? = some hit →
      ∃ fs dependencies, (r.retrieve question o).result t =
          (.ok ⟨a, exact (hit :: fs), dependencies, false⟩, t ++ .start) ∧
        r.store.entries.CompleteFragments hit fs) := by
  intro a
  constructor
  · intro hintent hkind
    have hlisting : a.asksForListing = true := by simp [Analysis.asksForListing, hintent, hkind]
    have hretrieve := Retriever.retrieve_of_listing (r := r) (t := t) rfl hlisting
    rw [hkind] at hretrieve
    exact ⟨_, hretrieve, Entries.completeListing_listAll h o.language⟩
  · intro hintent hit hhit
    obtain ⟨dependencies, hretrieve⟩ := Retriever.retrieve_of_schema (t := t) rfl hintent hhit
    obtain ⟨name, _, hnamed⟩ := List.exists_of_findSome?_eq_some hhit
    exact ⟨_, dependencies, hretrieve, Entries.completeFragments_fragmentsOf h hnamed⟩

def closedMarket : Retriever Memory :=
  { market with embedder := ⟨"stub", 1, fun _ _ => .error (.plain "unavailable")⟩ }

theorem retrieve_complete_closedMarket :
    (∃ found fs t, (closedMarket.retrieve "list all classes" {}).result .empty = (.ok found, t) ∧
      found.sources = exact fs ∧ orders.CompleteListing none fs) ∧
    ∃ found fs t, (closedMarket.retrieve "fields of Order" {}).result .empty = (.ok found, t) ∧
      found.sources = exact ((orders.head (by decide)).fragment :: fs) ∧
      orders.CompleteFragments (orders.head (by decide)).fragment fs := by
  have hnames : (Analysis.ofQuestion "fields of Order").entityNames = ["Order"] := by
    decide +kernel
  have hhit : (Analysis.ofQuestion "fields of Order").entityNames.findSome?
      closedMarket.store.entries.entityNamed? = some (orders.head (by decide)).fragment := by
    rw [hnames]
    exact orders_named
  obtain ⟨fs, hlisted, hcomplete⟩ :=
    (retrieve_complete (r := closedMarket) orders_sorted "list all classes" {} .empty).1
      (by decide +kernel) (by decide +kernel)
  obtain ⟨gs, dependencies, hfound, hfragments⟩ :=
    (retrieve_complete (r := closedMarket) orders_sorted "fields of Order" {} .empty).2
      (by decide +kernel) _ hhit
  exact ⟨⟨_, fs, _, hlisted, rfl, hcomplete⟩, _, gs, _, hfound, rfl, hfragments⟩

end CodeRetrieval
