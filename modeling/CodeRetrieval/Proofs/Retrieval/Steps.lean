import CodeRetrieval.Proofs.Effects
import CodeRetrieval.Proofs.Embedding.Batch
import CodeRetrieval.Retrieval.Find

/-!
A retrieval step by step. Each step adds the same to every trace, whatever comes of it, so what a
run adds is put together from its steps; only a search adds a call of the embedding service.
-/

set_option autoImplicit false

namespace CodeRetrieval

namespace Trace

instance : Append Trace :=
  ⟨fun t u => ⟨t.statuses ++ u.statuses, t.embedded ++ u.embedded, t.requests ++ u.requests⟩⟩

theorem append_def (t u : Trace) :
    t ++ u = ⟨t.statuses ++ u.statuses, t.embedded ++ u.embedded, t.requests ++ u.requests⟩ := rfl

@[simp] theorem append_empty (t : Trace) : t ++ empty = t := by simp [append_def, empty]

theorem append_assoc (t u v : Trace) : t ++ u ++ v = t ++ (u ++ v) := by simp [append_def]

def start : Trace := ⟨[.analyzing, .searching], [], []⟩

end Trace

namespace Run

variable {α β : Type} {x : Run α} {f : α → Run β} {u : Trace}

/-- Whether a run adds the same to every trace, whatever comes of it. -/
def Adds (x : Run α) (u : Trace) : Prop := ∀ t, (outcomeOf x t).2 = t ++ u

theorem adds_pure {a : α} : Adds (pure a) .empty := fun t => (Trace.append_empty t).symm

theorem adds_ofOutcome {y : Outcome α} : Adds (ofOutcome y) .empty :=
  fun t => (Trace.append_empty t).symm

theorem Adds.bind (hx : x.Adds u) (hf : ∀ a, (f a).Adds .empty) : (x >>= f).Adds u := by
  intro t
  rcases h : outcomeOf x t with ⟨answer, t'⟩
  have hu : t' = t ++ u := by simpa [h] using hx t
  cases answer with
  | error e => rw [Effect.bind_of_error h, hu]
  | ok a => rw [Effect.bind_of_ok h, hf a, hu, Trace.append_empty]

theorem outcomeOf_ofOutcome (y : Outcome α) (t : Trace) : outcomeOf (ofOutcome y) t = (y, t) := rfl

theorem outcomeOf_report (s : Status) (t : Trace) :
    outcomeOf (report s) t = (.ok (), t ++ ⟨[s], [], []⟩) := by
  simp [outcomeOf, report, Trace.append_def, StateT.run, modifyGet, MonadStateOf.modifyGet,
    StateT.modifyGet, pure]

theorem outcomeOf_embed (e : Embedder) (text : String) (t : Trace) :
    outcomeOf (embed e text) t =
      ((e.embed t.embedded text).1.mapError (.external "embedding"), t ++ ⟨[], [[text]], []⟩) := by
  have hlog := embed_log e t.embedded text
  simp [outcomeOf, embed, Trace.append_def, StateT.run, modifyGet, MonadStateOf.modifyGet,
    StateT.modifyGet, pure, hlog]

theorem outcomeOf_generate (g : Generator) (request : GenerationRequest) (t : Trace) :
    outcomeOf (generate g request) t =
      ((g.generate t.requests.length request).mapError (.external "generation"),
        t ++ ⟨[], [], [request]⟩) := by
  simp [outcomeOf, generate, Trace.append_def, StateT.run, modifyGet, MonadStateOf.modifyGet,
    StateT.modifyGet, pure]

theorem adds_report {s : Status} {f : Unit → Run β} (hf : (f ()).Adds u) :
    (report s >>= f).Adds (⟨[s], [], []⟩ ++ u) := by
  intro t
  rw [Effect.bind_of_ok (outcomeOf_report s t), hf, Trace.append_assoc]

theorem adds_embed {e : Embedder} {text : String} : Adds (embed e text) ⟨[], [[text]], []⟩ :=
  fun t => by rw [outcomeOf_embed]

end Run

namespace Analysis

theorem asksForListing_of_schema {a : Analysis} (h : a.intent = .schema) :
    a.asksForListing = false := by
  simp [asksForListing, h]

def searches (a : Analysis) (hit : Option Fragment) : Bool :=
  !a.asksForListing && !(hit.isSome && a.intent == .schema)

end Analysis

namespace Retriever

variable {S : Type} [Store S] {r : Retriever S} {question : String} {o : QueryOptions}
  {a : Analysis} {hit : Option Fragment} {t : Trace} {f : Failure}

theorem sourcesFor_of_schema {hit : Fragment} (h : a.intent = .schema) :
    r.sourcesFor question o a (some hit) =
      do return (exact (← Run.ofOutcome (entityFragments r.store hit)), false) := by
  simp only [sourcesFor, h]

theorem sourcesFor_of_listing (h : a.asksForListing = true) :
    r.sourcesFor question o a hit =
      do return (exact (← Run.ofOutcome (Store.listAll r.store ⟨a.kind, o.language⟩)), true) := by
  unfold sourcesFor
  split
  · rename_i hschema
    simp [Analysis.asksForListing_of_schema hschema] at h
  · simp only [h, if_true]

theorem sourcesFor_of_searches (h : a.searches hit = true) :
    r.sourcesFor question o a hit = do return (← r.searched question o a hit, false) := by
  simp only [Analysis.searches, Bool.and_eq_true, Bool.not_eq_true'] at h
  obtain ⟨hlisting, hnamed⟩ := h
  unfold sourcesFor
  split
  · rename_i hschema
    simp [hschema] at hnamed
  · simp only [hlisting, Bool.false_eq_true, if_false]

theorem searched_adds :
    (r.searched question o a hit).Adds ⟨[.embedding], [[question]], []⟩ := by
  refine Run.adds_report (u := ⟨[], [[question]], []⟩) (Run.adds_embed.bind fun vector => ?_)
  refine Run.adds_ofOutcome.bind fun results => ?_
  cases hit <;> exact Run.adds_pure

theorem sourcesFor_adds : (r.sourcesFor question o a hit).Adds
    (if a.searches hit then ⟨[.embedding], [[question]], []⟩ else .empty) := by
  -- The two ways without a search, a listing and a schema hit, only read the store.
  cases hsearches : a.searches hit with
  | true =>
    rw [sourcesFor_of_searches hsearches]
    exact searched_adds.bind fun _ => Run.adds_pure
  | false =>
    cases hlisting : a.asksForListing with
    | true =>
      rw [sourcesFor_of_listing hlisting]
      exact Run.adds_ofOutcome.bind fun _ => Run.adds_pure
    | false =>
      rw [Analysis.searches, hlisting, Bool.not_false, Bool.true_and, Bool.not_eq_false',
        Bool.and_eq_true, Option.isSome_iff_exists, beq_iff_eq] at hsearches
      obtain ⟨⟨f, rfl⟩, hschema⟩ := hsearches
      rw [sourcesFor_of_schema hschema]
      exact Run.adds_ofOutcome.bind fun _ => Run.adds_pure

theorem searched_of_embed_error (h : (r.embedder.embed t.embedded question).1 = .error f) :
    (outcomeOf (r.searched question o a hit) t).1 = .error (.external "embedding" f) := by
  have hlog : (t ++ ⟨[.embedding], [], []⟩).embedded = t.embedded := List.append_nil _
  rw [searched, Effect.bind_of_ok (Run.outcomeOf_report _ _)]
  refine Effect.bind_of_fst_error ?_
  rw [Run.outcomeOf_embed, hlog, h]
  rfl

def withDependencies (r : Retriever S) (a : Analysis) (found : List (Ranked Float) × Bool) :
    Run Retrieval := do
  let dependencies ←
    if a.includeDependencies && !found.2 then
      Run.ofOutcome (Dependency.resolve r.store r.config.dependencies
        (found.1.map (·.fragment)))
    else pure []
  return ⟨a, found.1, dependencies, found.2⟩

theorem withDependencies_adds {found : List (Ranked Float) × Bool} :
    (r.withDependencies a found).Adds .empty := by
  unfold withDependencies
  split
  · exact Run.adds_ofOutcome.bind fun _ => Run.adds_pure
  · exact Run.adds_pure.bind fun _ => Run.adds_pure

theorem retrieve_eq (ha : (Analysis.ofQuestion question).withOptions o = a) :
    outcomeOf (r.retrieve question o) t =
      outcomeOf (do
        let hit ← Run.ofOutcome (directHit r.store a.entityNames)
        let found ← r.sourcesFor question o a hit
        r.withDependencies a found) (t ++ .start) := by
  subst ha
  rw [retrieve, Effect.bind_of_ok (Run.outcomeOf_report _ _),
    Effect.bind_of_ok (Run.outcomeOf_report _ _), Trace.append_assoc]
  rfl

theorem retrieve_of_directHit (ha : (Analysis.ofQuestion question).withOptions o = a)
    (h : directHit r.store a.entityNames = .ok hit) :
    outcomeOf (r.retrieve question o) t =
      outcomeOf (do
        let found ← r.sourcesFor question o a hit
        r.withDependencies a found) (t ++ .start) := by
  rw [retrieve_eq ha, h]
  exact Effect.bind_of_ok (Run.outcomeOf_ofOutcome _ _)

theorem retrieve_of_directHit_error (ha : (Analysis.ofQuestion question).withOptions o = a)
    (h : directHit r.store a.entityNames = .error f) :
    outcomeOf (r.retrieve question o) t = (.error f, t ++ .start) := by
  rw [retrieve_eq ha, h]
  exact Effect.bind_of_error (Run.outcomeOf_ofOutcome _ _)

end Retriever

end CodeRetrieval
