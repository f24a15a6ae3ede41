import CodeRetrieval.Proofs.Retrieval.Steps
import CodeRetrieval.Retrieval.Answer
import CodeRetrieval.Store.Memory

set_option autoImplicit false

namespace CodeRetrieval

def Outcome.Succeeds {α : Type} (x : Outcome α) : Prop := ∃ a, x = .ok a

def Run.Succeeds {α : Type} (x : Run α) : Prop := ∀ t, ∃ a t', outcomeOf x t = (.ok a, t')

namespace Outcome

variable {α β : Type} {x : Outcome α} {f : α → Outcome β}

theorem succeeds_ok {a : α} : Succeeds (.ok a) := ⟨a, rfl⟩

theorem Succeeds.bind (hx : Succeeds x) (hf : ∀ a, Succeeds (f a)) : Succeeds (x >>= f) := by
  obtain ⟨a, rfl⟩ := hx
  exact hf a

theorem Succeeds.map {g : α → β} (hx : Succeeds x) : Succeeds (x.map g) := by
  obtain ⟨a, rfl⟩ := hx
  exact ⟨g a, rfl⟩

end Outcome

namespace Run

variable {α β : Type} {x : Run α} {f : α → Run β}

theorem succeeds_pure {a : α} : Succeeds (pure a) := fun t => ⟨a, t, rfl⟩

theorem succeeds_report {s : Status} : Succeeds (report s) :=
  fun t => ⟨(), _, outcomeOf_report s t⟩

theorem succeeds_ofOutcome {y : Outcome α} (h : y.Succeeds) : Succeeds (ofOutcome y) := by
  obtain ⟨a, rfl⟩ := h
  exact fun t => ⟨a, t, rfl⟩

theorem Succeeds.bind (hx : Succeeds x) (hf : ∀ a, Succeeds (f a)) : Succeeds (x >>= f) := by
  intro t
  obtain ⟨a, t', ha⟩ := hx t
  rw [Effect.bind_of_ok ha]
  exact hf a t'

theorem succeeds_embed {e : Embedder} {text : String}
    (h : ∀ log, (e.embed log text).1.Succeeds) : Succeeds (embed e text) := by
  intro t
  obtain ⟨v, hv⟩ := h t.embedded
  rw [outcomeOf_embed, hv]
  exact ⟨v, _, rfl⟩

theorem succeeds_generate {g : Generator} {request : GenerationRequest}
    (h : ∀ n request, (g.generate n request).Succeeds) : Succeeds (generate g request) := by
  intro t
  obtain ⟨text, htext⟩ := h t.requests.length request
  rw [outcomeOf_generate, htext]
  exact ⟨text, _, rfl⟩

end Run

namespace Memory

variable {m : Memory}

open Outcome (succeeds_ok)

theorem succeeds_hybridSearch {req : HybridRequest} : (hybridSearch m req).Succeeds := by
  unfold hybridSearch
  split
  · exact succeeds_ok
  · split
    · exact succeeds_ok
    · exact succeeds_ok

theorem directHit_eq (m : Memory) (names : List String) :
    Retriever.directHit m names = .ok (names.findSome? m.entries.entityNamed?) := by
  induction names with
  | nil => rfl
  | cons name rest ih =>
    simp only [Retriever.directHit, Store.entityNamed?, Outcome.ok_bind, List.findSome?_cons]
    cases m.entries.entityNamed? name with
    | none => exact ih
    | some f => rfl

theorem entitiesNamed_eq (m : Memory) (names : List String) :
    Dependency.entitiesNamed m names = .ok (names.filterMap m.entries.entityNamed?) := by
  induction names with
  | nil => rfl
  | cons name rest ih =>
    simp only [Dependency.entitiesNamed, Store.entityNamed?, Outcome.ok_bind, ih,
      List.filterMap_cons]
    cases m.entries.entityNamed? name <;> rfl

theorem relatedTo_eq (m : Memory) (limits : DependencyLimits) (f : Fragment) :
    Dependency.relatedTo m limits f =
      .ok ((f.references.take limits.perFragment).filterMap m.entries.entityNamed? ++
        if f.kind.isDocument then m.entries.referencing f.documentName limits.reverse else []) := by
  simp only [Dependency.relatedTo, entitiesNamed_eq, Outcome.ok_bind, Store.referencing]
  split <;> rfl

theorem succeeds_candidates (limits : DependencyLimits) (sources : List Fragment) :
    (Dependency.candidates m limits sources).Succeeds := by
  induction sources with
  | nil => exact succeeds_ok
  | cons f rest ih =>
    have hhere : (Dependency.relatedTo m limits f).Succeeds := ⟨_, relatedTo_eq m limits f⟩
    exact hhere.bind fun _ => ih.bind fun _ => succeeds_ok

end Memory

namespace Retriever

variable {r : Retriever Memory} {question : String}

theorem withDependencies_ok (a : Analysis) (found : List (Ranked Float) × Bool) (t : Trace) :
    ∃ dependencies, outcomeOf (r.withDependencies a found) t =
      (.ok ⟨a, found.1, dependencies, found.2⟩, t) := by
  unfold withDependencies
  split
  · have hresolve : (Dependency.resolve r.store r.config.dependencies
        (found.1.map (·.fragment))).Succeeds := (Memory.succeeds_candidates _ _).map
    obtain ⟨dependencies, hdependencies⟩ := hresolve
    rw [hdependencies]
    exact ⟨dependencies, rfl⟩
  · exact ⟨[], rfl⟩

theorem succeeds_sourcesFor (h : ∀ log, (r.embedder.embed log question).1.Succeeds)
    (o : QueryOptions) (a : Analysis) (hit : Option Fragment) :
    (r.sourcesFor question o a hit).Succeeds := by
  unfold sourcesFor
  split
  · exact (Run.succeeds_ofOutcome (Outcome.succeeds_ok.bind fun _ => Outcome.succeeds_ok)).bind
      fun _ => Run.succeeds_pure
  · split
    · exact (Run.succeeds_ofOutcome Outcome.succeeds_ok).bind fun _ => Run.succeeds_pure
    · refine Run.Succeeds.bind ?_ fun _ => Run.succeeds_pure
      refine Run.succeeds_report.bind fun _ => (Run.succeeds_embed h).bind fun vector => ?_
      refine (Run.succeeds_ofOutcome Memory.succeeds_hybridSearch).bind fun results => ?_
      split
      · exact Run.succeeds_pure
      · exact Run.succeeds_pure

theorem succeeds_retrieve (h : ∀ log, (r.embedder.embed log question).1.Succeeds)
    (o : QueryOptions) : (r.retrieve question o).Succeeds := by
  intro t
  rw [retrieve_of_directHit rfl (Memory.directHit_eq _ _)]
  refine Run.Succeeds.bind (succeeds_sourcesFor h o _ _) (fun found t => ?_) _
  obtain ⟨dependencies, hdependencies⟩ := withDependencies_ok (r := r) _ found t
  exact ⟨_, _, hdependencies⟩

theorem succeeds_lookup (h : ∀ n request, (r.generator.generate n request).Succeeds)
    (name : String) : (r.lookup name).Succeeds := by
  refine Run.succeeds_report.bind fun _ => ?_
  refine (Run.succeeds_ofOutcome Outcome.succeeds_ok).bind fun found => ?_
  cases found with
  | none => exact Run.succeeds_report.bind fun _ => Run.succeeds_pure
  | some entity =>
    have hfragments : (entityFragments r.store entity).Succeeds :=
      Outcome.succeeds_ok.bind fun _ => Outcome.succeeds_ok
    have hfirst : (Dependency.resolve r.store r.config.dependencies [entity]).Succeeds :=
      (Memory.succeeds_candidates _ _).map
    refine (Run.succeeds_ofOutcome hfragments).bind fun fragments => ?_
    refine (Run.succeeds_ofOutcome hfirst).bind fun first => ?_
    refine (Run.succeeds_ofOutcome Outcome.succeeds_ok).bind fun referring => ?_
    refine Run.Succeeds.bind ?_ fun _ => Run.succeeds_report.bind fun _ => Run.succeeds_pure
    exact Run.succeeds_report.bind fun _ => Run.succeeds_generate h

end Retriever

end CodeRetrieval
