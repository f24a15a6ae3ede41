import CodeRetrieval.Proofs.Retrieval.Filter
import CodeRetrieval.Proofs.Retrieval.Steps
import CodeRetrieval.Retrieval.Answer

/-!
What a query does to the outside. It reports its statuses in one order and each at most once; the
services are called where their status is reported, and a failure of a service ends the query with
the name of that service.
-/

set_option autoImplicit false

namespace CodeRetrieval

structure QueryCalls where
  embeds : Bool
  request? : Option GenerationRequest

namespace QueryCalls

def statuses (c : QueryCalls) : List Status :=
  [.analyzing, .searching] ++ (if c.embeds then [.embedding] else []) ++
    if c.request?.isSome then [.generating] else []

def trace (c : QueryCalls) (question : String) (answered : Bool) : Trace where
  statuses := c.statuses ++ if answered then [.done] else []
  embedded := if c.embeds then [[question]] else []
  requests := c.request?.toList

variable {embeds : Bool} {question : String}

theorem trace_append_generating (request : GenerationRequest) :
    (mk embeds none).trace question false ++ ⟨[.generating], [], [request]⟩ =
      (mk embeds (some request)).trace question false := by
  simp [trace, statuses, Trace.append_def]

theorem trace_append_done (c : QueryCalls) :
    c.trace question false ++ ⟨[.done], [], []⟩ = c.trace question true := by
  simp [trace, Trace.append_def]

end QueryCalls

namespace Retriever

/-- Whether the question of an analysis is put to the embedding service. It is not if the entities
that it names cannot be read. -/
def searches {S : Type} [Store S] (r : Retriever S) (a : Analysis) : Bool :=
  match directHit r.store a.entityNames with
  | .ok hit => a.searches hit
  | .error _ => false

variable {S : Type} [Store S] {r : Retriever S} {question : String} {o : QueryOptions}
  {a : Analysis} {hit : Option Fragment} {t : Trace} {f : Failure}

theorem retrieve_adds (ha : (Analysis.ofQuestion question).withOptions o = a) :
    (r.retrieve question o).Adds ((QueryCalls.mk (r.searches a) none).trace question false) := by
  intro t
  cases hhit : directHit r.store a.entityNames with
  | error e =>
    rw [retrieve_of_directHit_error ha hhit]
    simp only [searches, hhit]
    rfl
  | ok hit =>
    rw [retrieve_of_directHit ha hhit, sourcesFor_adds.bind fun _ => withDependencies_adds,
      Trace.append_assoc]
    simp only [searches, hhit]
    split <;> simp [*, QueryCalls.trace, QueryCalls.statuses, Trace.start,
      Trace.append_def, Trace.empty]

theorem retrieve_of_embed_error (ha : (Analysis.ofQuestion question).withOptions o = a)
    (hsearches : r.searches a = true) (h : (r.embedder.embed t.embedded question).1 = .error f) :
    (outcomeOf (r.retrieve question o) t).1 = .error (.external "embedding" f) := by
  cases hhit : directHit r.store a.entityNames with
  | error e => simp [searches, hhit] at hsearches
  | ok hit =>
    simp only [searches, hhit] at hsearches
    have hlog : (t ++ .start).embedded = t.embedded := List.append_nil _
    rw [retrieve_of_directHit ha hhit, sourcesFor_of_searches hsearches]
    exact Effect.bind_of_fst_error (Effect.bind_of_fst_error (searched_of_embed_error (hlog ▸ h)))

theorem searches_iff : r.searches a = true ↔
    ∃ hit, directHit r.store a.entityNames = .ok hit ∧ a.asksForListing = false ∧
      ¬(hit.isSome ∧ a.intent = .schema) := by
  unfold searches
  cases directHit r.store a.entityNames with
  | error e => simp
  | ok hit => cases hit <;> simp [Analysis.searches]

section Retrieved

variable {t' : Trace}

theorem trace_of_retrieve {found : Outcome Retrieval}
    (ha : (Analysis.ofQuestion question).withOptions o = a)
    (h : outcomeOf (r.retrieve question o) t = (found, t')) :
    t' = t ++ (QueryCalls.mk (r.searches a) none).trace question false := by
  have hadds := retrieve_adds (r := r) ha t
  rwa [h] at hadds

variable {found : Retrieval}

theorem embed_ne_error_of_retrieve (ha : (Analysis.ofQuestion question).withOptions o = a)
    (h : outcomeOf (r.retrieve question o) t = (.ok found, t')) (hsearches : r.searches a = true) :
    (r.embedder.embed t.embedded question).1 ≠ .error f := by
  intro hf
  have herror := retrieve_of_embed_error ha hsearches hf
  rw [h] at herror
  cases herror

theorem dependencies_of_no_sources (h : outcomeOf (r.retrieve question o) t = (.ok found, t'))
    (hsources : found.sources = []) : found.dependencies = [] := by
  obtain ⟨_, _, hnone | hresolve⟩ := retrieve_ok h
  · exact hnone
  · rw [hsources] at hresolve
    have hnone : Except.ok [] = Except.ok found.dependencies := hresolve
    exact (Except.ok.inj hnone).symm

def requestFor (r : Retriever S) (question : String) (o : QueryOptions) (found : Retrieval) :
    GenerationRequest :=
  ⟨Context.prompt (o.generationQuestion.getD question) (r.grounding found).1,
    some (r.grounding found).2, r.config.temperature, r.config.maxOutputTokens⟩

theorem query_of_not_found (h : outcomeOf (r.retrieve question o) t = (.ok found, t'))
    (hsources : found.sources = []) : (r.query question o).result t =
      (.ok { Answer.plain Context.noMatchAnswer with analysis := some found.analysis },
        t' ++ ⟨[.done], [], []⟩) := by
  have hquery : (r.query question o).result t = _ := Effect.bind_of_ok h
  rw [hquery, hsources, List.isEmpty_nil, if_pos rfl, Effect.bind_of_ok (Run.outcomeOf_report _ _)]
  rfl

theorem query_of_found (h : outcomeOf (r.retrieve question o) t = (.ok found, t'))
    (hsources : found.sources ≠ []) : (r.query question o).result t =
      match r.generator.generate t'.requests.length (r.requestFor question o found) with
      | .error e => (.error (.external "generation" e),
          t' ++ ⟨[.generating], [], [r.requestFor question o found]⟩)
      | .ok text => (.ok ⟨text, found.sources, found.dependencies, some found.analysis,
          found.listing, some r.generator.model⟩,
          t' ++ ⟨[.generating], [], [r.requestFor question o found]⟩ ++ ⟨[.done], [], []⟩) := by
  have hquery : (r.query question o).result t = _ := Effect.bind_of_ok h
  have hsome : found.sources.isEmpty = false := by simpa using hsources
  -- The status comes before the call and is no request itself.
  have hcount : (t' ++ ⟨[.generating], [], []⟩).requests = t'.requests := List.append_nil _
  have hgenerate : outcomeOf (r.generate (Context.prompt (o.generationQuestion.getD question)
      (r.grounding found).1) (r.grounding found).2) t' =
      ((r.generator.generate t'.requests.length (r.requestFor question o found)).mapError
        (.external "generation"),
        t' ++ ⟨[.generating], [], [r.requestFor question o found]⟩) := by
    rw [generate, Effect.bind_of_ok (Run.outcomeOf_report _ _), Run.outcomeOf_generate, hcount,
      Trace.append_assoc]
    rfl
  rw [hquery, hsome, if_neg Bool.false_ne_true]
  cases hanswer : r.generator.generate t'.requests.length (r.requestFor question o found) with
  | error e =>
    rw [hanswer] at hgenerate
    exact Effect.bind_of_error hgenerate
  | ok text =>
    rw [hanswer] at hgenerate
    refine (Effect.bind_of_ok hgenerate).trans ?_
    rw [Effect.bind_of_ok (Run.outcomeOf_report _ _)]
    rfl

end Retrieved

end Retriever

/-- An answer that carries what was found. -/
structure Answer.Carries (answered : Answer) (found : Retrieval) : Prop where
  sources : answered.sources = found.sources
  dependencies : answered.dependencies = found.dependencies
  analysis : answered.analysis = some found.analysis
  listing : answered.listing = (found.listing && !found.sources.isEmpty)

/-- A query from a trace, by the calls that it makes. -/
structure QueryRun {S : Type} [Store S] (r : Retriever S) (question : String) (o : QueryOptions)
    (t : Trace) (c : QueryCalls) (answer : Outcome Answer) (t' : Trace) : Prop where
  trace : t' = t ++ c.trace question answer.isOk
  embeds_iff : c.embeds = true ↔
    let a := (Analysis.ofQuestion question).withOptions o
    ∃ hit, Retriever.directHit r.store a.entityNames = .ok hit ∧ a.asksForListing = false ∧
      ¬(hit.isSome ∧ a.intent = .schema)
  generates_iff : ∀ found, answer = .ok found → (c.request?.isSome ↔ found.sources ≠ [])
  request_eq : c.request? = match (outcomeOf (r.retrieve question o) t).1 with
    | .ok found => if found.sources.isEmpty then none else some (r.requestFor question o found)
    | .error _ => none
  carries : ∀ answered, answer = .ok answered → ∃ found,
    (outcomeOf (r.retrieve question o) t).1 = .ok found ∧ answered.Carries found
  of_retrieve_error : ∀ f, (outcomeOf (r.retrieve question o) t).1 = .error f → answer = .error f
  of_embed_error : c.embeds = true → ∀ f, (r.embedder.embed t.embedded question).1 = .error f →
    c.request? = none ∧ answer = .error (.external "embedding" f)
  of_generate_error : ∀ request, c.request? = some request →
    ∀ f, r.generator.generate t.requests.length request = .error f →
      answer = .error (.external "generation" f)
  of_generate_ok : ∀ request, c.request? = some request →
    ∀ text, r.generator.generate t.requests.length request = .ok text →
      ∃ answered, answer = .ok answered ∧ answered.text = text

namespace QueryRun

variable {S : Type} [Store S] {r : Retriever S} {question : String} {o : QueryOptions}
  {t t' : Trace} {found : Retrieval} {e : Failure}

open Retriever (searches_iff trace_of_retrieve)

theorem of_failed (h : outcomeOf (r.retrieve question o) t = (.error e, t')) :
    QueryRun r question o t ⟨r.searches ((Analysis.ofQuestion question).withOptions o), none⟩
      ((r.query question o).result t).1 ((r.query question o).result t).2 := by
  have hquery : (r.query question o).result t = (.error e, t') := Effect.bind_of_error h
  rw [hquery]
  refine ⟨trace_of_retrieve rfl h, searches_iff, ?_, by rw [h], ?_, ?_, ?_, ?_, ?_⟩
  · rintro _ ⟨⟩
  · rintro _ ⟨⟩
  · rw [h]
    rintro _ ⟨⟩
    rfl
  · intro hyes f hf
    have herror := Retriever.retrieve_of_embed_error rfl hyes hf
    rw [h] at herror
    cases herror
    exact ⟨rfl, rfl⟩
  · rintro _ ⟨⟩
  · rintro _ ⟨⟩

theorem ne_error_of_retrieved (h : outcomeOf (r.retrieve question o) t = (.ok found, t')) :
    (outcomeOf (r.retrieve question o) t).1 ≠ .error e := by
  rw [h]
  exact nofun

theorem of_nothing (h : outcomeOf (r.retrieve question o) t = (.ok found, t'))
    (hsources : found.sources = []) :
    QueryRun r question o t ⟨r.searches ((Analysis.ofQuestion question).withOptions o), none⟩
      ((r.query question o).result t).1 ((r.query question o).result t).2 := by
  have hdependencies := Retriever.dependencies_of_no_sources h hsources
  rw [Retriever.query_of_not_found h hsources]
  refine ⟨?_, searches_iff, ?_, by simp [h, hsources], ?_,
    fun _ hf => absurd hf (ne_error_of_retrieved h),
    fun hyes _ hf => absurd hf (Retriever.embed_ne_error_of_retrieve rfl h hyes), nofun, nofun⟩
  · rw [trace_of_retrieve rfl h, Trace.append_assoc, QueryCalls.trace_append_done]
    rfl
  · rintro _ ⟨⟩
    simp [Answer.plain]
  · rintro _ ⟨⟩
    exact ⟨found, by rw [h], hsources.symm, hdependencies.symm, rfl,
      by simp [Answer.plain, hsources]⟩

theorem of_found (h : outcomeOf (r.retrieve question o) t = (.ok found, t'))
    (hsources : found.sources ≠ []) :
    QueryRun r question o t ⟨r.searches ((Analysis.ofQuestion question).withOptions o),
        some (r.requestFor question o found)⟩
      ((r.query question o).result t).1 ((r.query question o).result t).2 := by
  have htrace := trace_of_retrieve rfl h
  have hrequests : t'.requests = t.requests := by
    rw [htrace]
    exact List.append_nil _
  rw [Retriever.query_of_found h hsources, hrequests]
  refine ⟨?_, searches_iff, ?_, by simp [h, hsources], ?_,
    fun _ hf => absurd hf (ne_error_of_retrieved h),
    fun hyes _ hf => absurd hf (Retriever.embed_ne_error_of_retrieve rfl h hyes), ?_, ?_⟩
  · rw [htrace, Trace.append_assoc t, QueryCalls.trace_append_generating, Trace.append_assoc,
      QueryCalls.trace_append_done]
    split <;> rfl
  · split
    · rintro _ ⟨⟩
    · rintro _ ⟨⟩
      simpa using hsources
  · split
    · rintro _ ⟨⟩
    · rintro _ ⟨⟩
      exact ⟨found, by rw [h], rfl, rfl, rfl, by simp [hsources]⟩
  · rintro _ ⟨⟩ f hf
    rw [hf]
  · rintro _ ⟨⟩ text htext
    rw [htext]
    exact ⟨_, rfl, rfl⟩

end QueryRun

/-- Every query reports its statuses in one order, each once and with the call behind it: the
embedding service is called for a search only, the generator for what was found only, and the answer
carries what was found. A service that fails ends the query with its name. -/
theorem query_run {S : Type} [Store S] (r : Retriever S) (question : String) (o : QueryOptions)
    (t : Trace) : ∃ c, QueryRun r question o t c ((r.query question o).result t).1
      ((r.query question o).result t).2 := by
  rcases hfound : outcomeOf (r.retrieve question o) t with ⟨found, t'⟩
  cases found with
  | error e => exact ⟨_, .of_failed hfound⟩
  | ok found =>
    by_cases hsources : found.sources = []
    · exact ⟨_, .of_nothing hfound hsources⟩
    · exact ⟨_, .of_found hfound hsources⟩

end CodeRetrieval
