import CodeRetrieval.Proofs.Ranking
import CodeRetrieval.Proofs.Retrieval.Success
import CodeRetrieval.Proofs.Store.Memory
import CodeRetrieval.Proofs.Store.Table
import CodeRetrieval.Retrieval.Find
import CodeRetrieval.Store.Database

/-!
Which of the ways to the sources of an answer respect the filter of the caller. Searches and
listings do; the entity that a question names, and with it the fragments of that entity, are looked
up without the filter.
-/

set_option autoImplicit false

namespace CodeRetrieval

/-- A store whose searches and listings give only what passes the filter. -/
class FilteringStore (S : Type) [Store S] : Prop where
  search : ∀ {s : S} {query : Embedding} {topK : Nat} {flt : Filter} {floor : Float32}
    {rs : List (Ranked Float)}, Store.search s query topK flt floor = .ok rs →
      ∀ r ∈ rs, flt.accepts r.fragment = true
  keywordSearch : ∀ {s : S} {terms : List String} {topK : Nat} {flt : Filter}
    {rs : List (Ranked Float)}, Store.keywordSearch s terms topK flt = .ok rs →
      ∀ r ∈ rs, flt.accepts r.fragment = true
  listAll : ∀ {s : S} {flt : Filter} {fs : List Fragment}, Store.listAll s flt = .ok fs →
    ∀ f ∈ fs, flt.accepts f = true

instance : FilteringStore Memory where
  search := by
    intro m query topK flt floor rs hok r hr
    cases hok
    obtain ⟨e, he, hsimilar⟩ := List.mem_filterMap.1 (mem_of_mem_rank hr)
    obtain ⟨v, _, hsimilar⟩ := Option.bind_eq_some_iff.1 hsimilar
    rw [Entries.fragment_of_similar? hsimilar]
    exact (List.mem_filter.1 he).2
  keywordSearch := by
    intro m terms topK flt rs hok r hr
    cases hok
    simp only [Entries.keywordSearch] at hr
    split at hr
    · contradiction
    · obtain ⟨f, hf, rfl⟩ := List.mem_map.1 (mem_of_mem_rank hr)
      exact (Bool.and_eq_true_iff.1 (List.mem_filter.1 hf).2).1
  listAll := by
    intro m flt fs hok f hf
    cases hok
    exact (List.mem_filter.1 ((Entries.listing_perm _).mem_iff.1 hf)).2

theorem Row.accepts_of_passes {r : Row} {f : Fragment} {flt : Filter} (h : r.passes flt = true)
    (hread : r.toFragment = .ok f) : flt.accepts f = true := by
  obtain ⟨kind, language⟩ := flt
  unfold toFragment at hread
  split at hread
  · cases hread
  · cases hread
  · rename_i references k _ hkind
    cases hread
    simp only [passes, Bool.and_eq_true] at h
    obtain ⟨hpasses, hlanguage⟩ := h
    refine Bool.and_eq_true_iff.2 ⟨?_, hlanguage⟩
    cases kind with
    | none => rfl
    | some j =>
      have hname : j.name = r.kind := by simpa using hpasses
      rw [← hname, FragmentKind.ofName?_name, Option.some.injEq] at hkind
      simp [hkind]

instance : FilteringStore Table where
  search := by
    intro t query topK flt floor rs h r hr
    obtain ⟨results, hresults, h⟩ := Outcome.bind_ok h
    cases h
    obtain ⟨⟨row, s⟩, hnear, hread⟩ := Outcome.mem_of_mapM_ok hresults r (mem_of_mem_rank hr)
    obtain ⟨f, hf, hread⟩ := Outcome.bind_ok hread
    cases hread
    obtain ⟨row', hrow, hnear⟩ := List.mem_filterMap.1 hnear
    obtain ⟨v, _, hnear⟩ := Option.bind_eq_some_iff.1 hnear
    dsimp only at hnear
    split at hnear
    · cases hnear
      exact Row.accepts_of_passes (List.mem_filter.1 hrow).2 hf
    · contradiction
  keywordSearch := by
    intro t terms topK flt rs h r hr
    simp only [Store.keywordSearch, Table.keywordSearch] at h
    split at h
    · cases h
      contradiction
    · obtain ⟨found, hfound, h⟩ := Outcome.bind_ok h
      cases h
      obtain ⟨f, hf, rfl⟩ := List.mem_map.1 (mem_of_mem_rank hr)
      obtain ⟨row, hrow, hread⟩ :=
        Outcome.mem_of_mapM_ok hfound f (List.mem_of_mem_filter hf)
      exact Row.accepts_of_passes (Bool.and_eq_true_iff.1 (List.mem_filter.1 hrow).2).1 hread
  listAll := by
    intro t flt fs h f hf
    obtain ⟨row, hrow, hread⟩ := Outcome.mem_of_mapM_ok h f hf
    have hrow := (Row.listing_perm _).mem_iff.1 hrow
    exact Row.accepts_of_passes (List.mem_filter.1 hrow).2 hread

instance : FilteringStore Database where
  search := by
    intro db query topK flt floor rs h
    cases db with
    | blank => cases h
    | ready t => exact FilteringStore.search (S := Table) h
  keywordSearch := by
    intro db terms topK flt rs h
    simp only [Store.keywordSearch] at h
    split at h
    · cases h
      exact fun _ hr => nomatch hr
    · cases db with
      | blank => cases h
      | ready t => exact FilteringStore.keywordSearch (S := Table) h
  listAll := by
    intro db flt fs h
    cases db with
    | blank => cases h
    | ready t => exact FilteringStore.listAll (S := Table) h

variable {S : Type} [Store S] [FilteringStore S]

theorem hybridSearch_accepts {s : S} {req : HybridRequest} {rs : List (Ranked Float)}
    (h : hybridSearch s req = .ok rs) : ∀ r ∈ rs, req.filter.accepts r.fragment = true := by
  unfold hybridSearch at h
  split at h
  · cases h
    exact fun _ hr => nomatch hr
  · split at h
    · obtain ⟨semantic, hsemantic, h⟩ := Outcome.bind_ok h
      obtain ⟨keyword, hkeyword, h⟩ := Outcome.bind_ok h
      cases h
      exact Fusion.all_fuse (P := fun f => req.filter.accepts f = true) req.fusion req.count
        (FilteringStore.search hsemantic) (FilteringStore.keywordSearch hkeyword)
    · obtain ⟨semantic, hsemantic, h⟩ := Outcome.bind_ok h
      cases h
      exact fun r hr => FilteringStore.search hsemantic r (List.mem_of_mem_take hr)

/-- Whether a fragment is of the kind and the language that a caller asks for. -/
structure QueryOptions.Admits (o : QueryOptions) (f : Fragment) : Prop where
  kind : ∀ k, o.kind = some k → f.kind = k
  language : ∀ l, o.language = some l → f.language = l

namespace Analysis

variable {a : Analysis} {o : QueryOptions}

theorem admits_of_accepts {f : Fragment}
    (h : Filter.accepts ⟨(a.withOptions o).kind, o.language⟩ f = true) : o.Admits f := by
  simp only [Filter.accepts, withOptions, Bool.and_eq_true] at h
  obtain ⟨hkind, hlanguage⟩ := h
  constructor
  · intro k hk
    simpa [hk] using hkind
  · intro l hl
    simpa [hl] using hlanguage

end Analysis

/-- What a question gets by the name of an entity in it, without a search: the entity and, for a
question on a schema, the other fragments of its name. -/
inductive LookedUp {S : Type} [Store S] (s : S) (a : Analysis) : Fragment → Prop where
  | entity {f : Fragment} (hhit : Retriever.directHit s a.entityNames = .ok (some f)) :
      LookedUp s a f
  | other {f g : Fragment} {all : List Fragment}
      (hhit : Retriever.directHit s a.entityNames = .ok (some f)) (hintent : a.intent = .schema)
      (hall : Store.fragmentsOf s (f.entityName.getD "") = .ok all) (hg : g ∈ all)
      (hne : g.id ≠ f.id) : LookedUp s a g

namespace LookedUp

omit [FilteringStore S] in
theorem not_of_miss {s : S} {a : Analysis} {g : Fragment}
    (hmiss : Retriever.directHit s a.entityNames = .ok none) : ¬LookedUp s a g := by
  intro h
  cases h with
  | entity hhit => cases hmiss.symm.trans hhit
  | other hhit => cases hmiss.symm.trans hhit

omit [FilteringStore S] in
theorem iff_of_not_schema {s : S} {a : Analysis} {f g : Fragment}
    (hhit : Retriever.directHit s a.entityNames = .ok (some f)) (hintent : a.intent ≠ .schema) :
    LookedUp s a g ↔ g = f := by
  constructor
  · intro h
    cases h with
    | entity hhit' =>
      cases hhit.symm.trans hhit'
      rfl
    | other _ hschema => exact absurd hschema hintent
  · rintro rfl
    exact .entity hhit

omit [FilteringStore S] in
theorem iff_of_schema {s : S} {a : Analysis} {f g : Fragment} {all : List Fragment}
    (hhit : Retriever.directHit s a.entityNames = .ok (some f)) (hintent : a.intent = .schema)
    (hall : Store.fragmentsOf s (f.entityName.getD "") = .ok all) :
    LookedUp s a g ↔ g = f ∨ g ∈ all ∧ g.id ≠ f.id := by
  constructor
  · intro h
    cases h with
    | entity hhit' =>
      cases hhit.symm.trans hhit'
      exact .inl rfl
    | other hhit' _ hall' hg hne =>
      cases hhit.symm.trans hhit'
      cases hall.symm.trans hall'
      exact .inr ⟨hg, hne⟩
  · rintro (rfl | ⟨hg, hne⟩)
    · exact .entity hhit
    · exact .other hhit hintent hall hg hne

end LookedUp

def Searched {S : Type} [Store S] (r : Retriever S) (o : QueryOptions) (a : Analysis)
    (results : List (Ranked Float)) : Prop :=
  ∃ req : HybridRequest, req.filter = ⟨a.kind, o.language⟩ ∧
    hybridSearch r.store req = .ok results

theorem Searched.accepts {r : Retriever S} {o : QueryOptions} {a : Analysis}
    {results : List (Ranked Float)} (h : Searched r o a results) :
    ∀ x ∈ results, Filter.accepts ⟨a.kind, o.language⟩ x.fragment = true := by
  obtain ⟨req, hfilter, hsearch⟩ := h
  rw [← hfilter]
  exact hybridSearch_accepts hsearch

/-- The ways to the sources of an answer, by the entity that the question names. -/
inductive SourceWay {S : Type} [Store S] (r : Retriever S) (o : QueryOptions) (a : Analysis) :
    Option Fragment → List (Ranked Float) → Prop where
  | schema (f : Fragment) (all : List Fragment) (hintent : a.intent = .schema)
      (hall : Store.fragmentsOf r.store (f.entityName.getD "") = .ok all) :
      SourceWay r o a (some f) (exact (f :: all.filter (·.id != f.id)))
  | listing (hit : Option Fragment) (fs : List Fragment) (hlisting : a.asksForListing = true)
      (hfs : Store.listAll r.store ⟨a.kind, o.language⟩ = .ok fs) : SourceWay r o a hit (exact fs)
  | search (results : List (Ranked Float)) (hlisting : a.asksForListing = false)
      (hresults : Searched r o a results) : SourceWay r o a none results
  | named (f : Fragment) (results : List (Ranked Float)) (hintent : a.intent ≠ .schema)
      (hlisting : a.asksForListing = false) (hresults : Searched r o a results) :
      SourceWay r o a (some f) (placeFirst f a.resultCount results)

/-- The fragment in front is never cut off. -/
theorem mem_placeFirst {f : Fragment} {count : Nat} {results : List (Ranked Float)} :
    ⟨f, 1.0⟩ ∈ placeFirst f count results := by
  obtain ⟨n, hn⟩ : ∃ n, max 1 count = n + 1 := ⟨max 1 count - 1, by omega⟩
  simp [placeFirst, hn]

namespace Retriever

variable {r : Retriever S} {question : String} {o : QueryOptions} {a : Analysis}

omit [FilteringStore S] in
theorem searched_ok {hit : Option Fragment} {t t' : Trace} {sources : List (Ranked Float)}
    (h : outcomeOf (r.searched question o a hit) t = (.ok sources, t')) :
    ∃ results : List (Ranked Float), Searched r o a results ∧
      sources = hit.elim results fun f => placeFirst f a.resultCount results := by
  obtain ⟨_, t₁, _, h⟩ := Effect.bind_ok h
  obtain ⟨vector, t₂, _, h⟩ := Effect.bind_ok h
  obtain ⟨results, t₃, hsearch, h⟩ := Effect.bind_ok h
  refine ⟨results, ⟨_, rfl, (Prod.mk.inj hsearch).1⟩, ?_⟩
  cases hit <;> cases h <;> rfl

omit [FilteringStore S] in
theorem sourcesFor_way {hit : Option Fragment} {t t' : Trace} {sources : List (Ranked Float)}
    {listing : Bool}
    (h : outcomeOf (r.sourcesFor question o a hit) t = (.ok (sources, listing), t')) :
    SourceWay r o a hit sources ∧ listing = a.asksForListing := by
  unfold sourcesFor at h
  split at h
  · rename_i f hintent
    obtain ⟨fragments, t₁, hfragments, h⟩ := Effect.bind_ok h
    cases h
    obtain ⟨all, hall, hfragments⟩ := Outcome.bind_ok (Prod.mk.inj hfragments).1
    cases hfragments
    exact ⟨.schema f all hintent hall, (Analysis.asksForListing_of_schema hintent).symm⟩
  · rename_i hit _ _ hother
    split at h
    · rename_i hlisting
      obtain ⟨fs, t₁, hfs, h⟩ := Effect.bind_ok h
      cases h
      exact ⟨.listing hit fs hlisting (Prod.mk.inj hfs).1, hlisting.symm⟩
    · rename_i hlisting
      obtain ⟨found, t₁, hfound, h⟩ := Effect.bind_ok h
      cases h
      obtain ⟨results, hresults, rfl⟩ := searched_ok hfound
      have hlisting := Bool.eq_false_iff.2 hlisting
      refine ⟨?_, hlisting.symm⟩
      cases hit with
      | none => exact .search results hlisting hresults
      | some f => exact .named f results (fun hintent => hother f rfl hintent) hlisting hresults

omit [FilteringStore S] in
theorem retrieve_ok {t t' : Trace} {found : Retrieval}
    (h : (r.retrieve question o).result t = (.ok found, t')) :
    let a := (Analysis.ofQuestion question).withOptions o
    (∃ hit, directHit r.store a.entityNames = .ok hit ∧ SourceWay r o a hit found.sources) ∧
      found.listing = a.asksForListing ∧
      (found.dependencies = [] ∨ Dependency.resolve r.store r.config.dependencies
        (found.sources.map (·.fragment)) = .ok found.dependencies) := by
  obtain ⟨_, t₁, _, h⟩ := Effect.bind_ok h
  obtain ⟨_, t₂, _, h⟩ := Effect.bind_ok h
  obtain ⟨hit, t₃, hhit, h⟩ := Effect.bind_ok h
  obtain ⟨⟨sources, listing⟩, t₄, hsources, h⟩ := Effect.bind_ok h
  have hhit := (Prod.mk.inj hhit).1
  obtain ⟨hway, hlisting⟩ := sourcesFor_way hsources
  generalize (Analysis.ofQuestion question).withOptions o = a at h hhit hway hlisting ⊢
  dsimp only at h
  split at h
  · obtain ⟨dependencies, t₅, hresolve, h⟩ := Effect.bind_ok h
    cases h
    exact ⟨⟨hit, hhit, hway⟩, hlisting, .inr (Prod.mk.inj hresolve).1⟩
  · obtain ⟨dependencies, t₅, hnone, h⟩ := Effect.bind_ok h
    cases hnone
    cases h
    exact ⟨⟨hit, hhit, hway⟩, hlisting, .inl rfl⟩

omit [FilteringStore S] in
theorem retrieve_way {t t' : Trace} {found : Retrieval}
    (h : (r.retrieve question o).result t = (.ok found, t')) :
    let a := (Analysis.ofQuestion question).withOptions o
    ∃ hit, directHit r.store a.entityNames = .ok hit ∧ SourceWay r o a hit found.sources :=
  (retrieve_ok h).1

end Retriever

/-- An answer keeps to the caller's filter exactly if what was looked up for it does, or nothing
was. -/
theorem SourceWay.admitted_iff {r : Retriever S} {o : QueryOptions} {a : Analysis}
    {hit : Option Fragment} {sources : List (Ranked Float)}
    (hhit : Retriever.directHit r.store a.entityNames = .ok hit)
    (h : SourceWay r o (a.withOptions o) hit sources) :
    (∀ x ∈ sources, o.Admits x.fragment) ↔
      (a.withOptions o).asksForListing = true ∨
        ∀ f, LookedUp r.store (a.withOptions o) f → o.Admits f := by
  cases h with
  | schema f all hintent hall =>
    have hlisting := Analysis.asksForListing_of_schema hintent
    simp only [LookedUp.iff_of_schema (a := a.withOptions o) hhit hintent hall, hlisting, exact,
      List.forall_mem_map, List.forall_mem_cons, List.mem_filter, bne_iff_ne, Bool.false_eq_true,
      false_or, forall_eq_or_imp]
  | listing _ fs hlisting hfs =>
    refine iff_of_true ?_ (.inl hlisting)
    intro x hx
    obtain ⟨f, hf, rfl⟩ := List.mem_map.1 hx
    exact Analysis.admits_of_accepts (FilteringStore.listAll hfs f hf)
  | search results hlisting hresults =>
    refine iff_of_true (fun x hx => Analysis.admits_of_accepts (hresults.accepts x hx)) (.inr ?_)
    -- No entity was named, so nothing was looked up.
    intro f hf
    exact absurd hf (LookedUp.not_of_miss hhit)
  | named f results hintent hlisting hresults =>
    simp only [LookedUp.iff_of_not_schema (a := a.withOptions o) hhit hintent, hlisting,
      Bool.false_eq_true, false_or, forall_eq]
    constructor
    · intro hsources
      exact hsources _ mem_placeFirst
    · intro hadmits x hx
      rcases List.mem_cons.1 (List.mem_of_mem_take hx) with rfl | hx
      · exact hadmits
      · exact Analysis.admits_of_accepts (hresults.accepts x (List.mem_of_mem_filter hx))

def orderEntity : Fragment :=
  ⟨"order", "public class Order \x7b \x7d", "java", .entity, "Order.java", 1, 1, some "Order", none,
    none, [], []⟩

def shop : Retriever Memory where
  store := ⟨[⟨orderEntity, none⟩], .standard⟩
  embedder := ⟨"stub", 1, fun _ texts => .ok (texts.map fun _ => [0x3f800000])⟩
  generator := ⟨"stub", fun _ _ => .ok ""⟩
  config := .standard

def membersOnly : QueryOptions := { kind := some .member }

theorem shop_answers : ∃ found t,
    (shop.retrieve "how does Order work" membersOnly).result .empty = (.ok found, t) :=
  Retriever.succeeds_retrieve (fun _ => ⟨_, rfl⟩) _ _

theorem shop_directHit : Retriever.directHit shop.store
    (Analysis.ofQuestion "how does Order work").entityNames = .ok (some orderEntity) := by
  have hnames : (Analysis.ofQuestion "how does Order work").entityNames = ["Order"] := by
    decide +kernel
  rw [hnames]
  decide +kernel

theorem shop_refused : let a := (Analysis.ofQuestion "how does Order work").withOptions membersOnly
    ¬(a.asksForListing = true ∨ ∀ f, LookedUp shop.store a f → membersOnly.Admits f) := by
  intro a hcases
  rcases hcases with hlisting | hadmits
  · exact absurd hlisting (by decide +kernel)
  · have hmember := (hadmits orderEntity (.entity shop_directHit)).kind .member rfl
    contradiction

/-- The sources of an answer are of the kind and the language that the caller asks for exactly if
the answer is a complete listing or all that the question gets by name is. -/
theorem sources_admitted_iff {r : Retriever S} {question : String} {o : QueryOptions}
    {t t' : Trace} {found : Retrieval}
    (h : (r.retrieve question o).result t = (.ok found, t')) :
    let a := (Analysis.ofQuestion question).withOptions o
    (∀ x ∈ found.sources, o.Admits x.fragment) ↔
      a.asksForListing = true ∨ ∀ f, LookedUp r.store a f → o.Admits f := by
  obtain ⟨hit, hhit, hway⟩ := Retriever.retrieve_way h
  exact hway.admitted_iff hhit

theorem sources_admitted_iff_shop : ∃ found t,
    (shop.retrieve "how does Order work" membersOnly).result .empty = (.ok found, t) ∧
    ¬∀ x ∈ found.sources, membersOnly.Admits x.fragment := by
  obtain ⟨found, t, h⟩ := shop_answers
  exact ⟨found, t, h, fun hsources => shop_refused ((sources_admitted_iff h).1 hsources)⟩

/-- Not all sources of all answers are what the caller asks for. -/
theorem not_sources_admitted : ¬∀ (r : Retriever Memory) (question : String) (o : QueryOptions)
    (t t' : Trace) (found : Retrieval), r.store.entries.Sorted →
    (r.retrieve question o).result t = (.ok found, t') →
    ∀ x ∈ found.sources, o.Admits x.fragment := by
  intro hclaim
  obtain ⟨found, t, h⟩ := shop_answers
  obtain ⟨hit, hhit, hway⟩ := Retriever.retrieve_way h
  exact shop_refused ((hway.admitted_iff hhit).1
    (hclaim shop _ _ _ _ _ (List.pairwise_singleton _ _) h))

end CodeRetrieval
