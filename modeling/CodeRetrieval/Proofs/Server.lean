import CodeRetrieval.Proofs.Retrieval.Listing
import CodeRetrieval.Proofs.Retrieval.Protocol
import CodeRetrieval.Proofs.Service.Network
import CodeRetrieval.Server

set_option autoImplicit false

namespace CodeRetrieval

def Service.names : List String := ["OpenAI", "Ollama", "OpenAI chat", "Ollama chat"]

theorem EmbeddingSettings.name_mem {es : EmbeddingSettings} {key : Option String}
    {s : EmbeddingService} (h : es.service key = .ok (some s)) :
    s.endpoint.service ∈ Service.names := by
  unfold service at h
  split at h
  · cases h
  · obtain ⟨s', hopen, hsome⟩ := Outcome.map_ok h
    obtain ⟨model, -, hopen⟩ := Outcome.bind_ok hopen
    obtain ⟨dims, -, hopen⟩ := Outcome.bind_ok hopen
    obtain ⟨key, -, hopen⟩ := Outcome.bind_ok hopen
    cases hopen
    cases hsome
    simp [Service.names]
  · obtain ⟨s', hollama, hsome⟩ := Outcome.map_ok h
    obtain ⟨model, -, hollama⟩ := Outcome.bind_ok hollama
    obtain ⟨dims, -, hollama⟩ := Outcome.bind_ok hollama
    cases hollama
    cases hsome
    simp [Service.names]
  · cases h
  · cases h

theorem GenerationSettings.name_mem {gs : GenerationSettings} {key : Option String}
    {s : GenerationService} (h : gs.service key = .ok (some s)) :
    s.endpoint.service ∈ Service.names := by
  unfold service at h
  split at h
  · cases h
  · obtain ⟨s', hopen, hsome⟩ := Outcome.map_ok h
    obtain ⟨model, -, hopen⟩ := Outcome.bind_ok hopen
    obtain ⟨key, -, hopen⟩ := Outcome.bind_ok hopen
    cases hopen
    cases hsome
    simp [Service.names]
  · obtain ⟨s', hollama, hsome⟩ := Outcome.map_ok h
    obtain ⟨model, -, hollama⟩ := Outcome.bind_ok hollama
    cases hollama
    cases hsome
    simp [Service.names]
  · cases h

section Reports

variable {n : Network} {e : Http.Endpoint} {body : Json} {call : Nat} {f : Failure}
  {foreign : List String}

theorem Http.Fault.eq_plain (h : Http.Fault n e body call f foreign) : f = .plain f.message := by
  cases h <;> rfl

theorem contains_external {service : String} (hservice : Text.contains service "disabled" = false)
    (text : String) : Text.contains (Failure.external service (.plain text)).fullText "disabled" =
      Text.contains text "disabled" := by
  have htext : (Failure.external service (.plain text)).fullText =
      service ++ " service call failed: " ++ text ++ ": " ++ text := rfl
  rw [htext, Text.contains_divided (m := ": ") (by decide),
    Text.contains_divided (m := " service call failed: ") (by decide), hservice, Bool.false_or,
    Bool.or_self]

theorem code_of_external {service : String} (hservice : Text.contains service "disabled" = false)
    (text : String) :
    let err := ServerError.ofFailure (.external service (.plain text))
    (err.code, err.status) =
      if Text.contains text "disabled" then
        (if service == "embedding" then "embeddings_disabled" else "bad_request", 400)
      else ("upstream", 502) := by
  simp only [ServerError.ofFailure, Failure.core, contains_external hservice]
  split
  · split <;> rfl
  · rfl

theorem code_of_fault (h : Http.Fault n e body call f foreign) (hname : e.service ∈ Service.names)
    {service : String} (hservice : Text.contains service "disabled" = false) :
    let err := ServerError.ofFailure (.external service f)
    (err.code, err.status) =
      if foreign.any (Text.contains · "disabled") then
        (if service == "embedding" then "embeddings_disabled" else "bad_request", 400)
      else ("upstream", 502) := by
  have hquiet : ∀ name ∈ Service.names, Text.contains name "disabled" = false := by decide
  rw [← h.contains_message (hquiet _ hname), h.eq_plain]
  exact code_of_external hservice f.message

end Reports

namespace Server

/-- A question is answered with an error of this code and this status. -/
def Reports {S : Type} [Store S] (r : Retriever S) (q : ServerQuery) (code : String)
    (status : Nat) : Prop :=
  ∃ err, answer r q = .error err ∧ err.code = code ∧ err.status = status

section Answers

variable {S : Type} [Store S] {r : Retriever S} {q : ServerQuery} {o : QueryOptions} {f : Failure}

theorem Reports.of_code {err : ServerError} {code : String} {status : Nat}
    (hanswer : answer r q = .error err) (hcode : (err.code, err.status) = (code, status)) :
    Reports r q code status :=
  ⟨err, hanswer, (Prod.mk.inj hcode).1, (Prod.mk.inj hcode).2⟩

theorem reports_of_fault {n : Network} {e : Http.Endpoint} {body : Json} {call : Nat}
    {foreign : List String} (h : Http.Fault n e body call f foreign)
    (hname : e.service ∈ Service.names) {service : String}
    (hservice : Text.contains service "disabled" = false)
    (hanswer : answer r q = .error (.ofFailure (.external service f))) :
    if foreign.any (Text.contains · "disabled") then
      Reports r q (if service == "embedding" then "embeddings_disabled" else "bad_request") 400
    else Reports r q "upstream" 502 := by
  have hcode := code_of_fault h hname hservice
  split
  · rename_i hsays
    exact .of_code hanswer (hcode.trans (if_pos hsays))
  · rename_i hsilent
    exact .of_code hanswer (hcode.trans (if_neg hsilent))

theorem answer_of_error (hquestion : Text.isBlankText q.question = false)
    (ho : Command.queryOptions q.flags = .ok o)
    (h : (outcomeOf (r.retrieve q.question o) .empty).1 = .error f ∨
      q.retrieveOnly = false ∧ (outcomeOf (r.query q.question o) .empty).1 = .error f) :
    answer r q = .error (.ofFailure f) := by
  have hquery : (outcomeOf (r.query q.question o) .empty).1 = .error f :=
    h.elim (fun hfound => Effect.bind_of_fst_error hfound) And.right
  simp only [answer, hquestion, ho, Bool.false_eq_true, if_false]
  by_cases honly : q.retrieveOnly = true
  · have hfound := h.resolve_right fun hboth => nomatch honly.symm.trans hboth.1
    rw [if_pos honly, Run.result, Effect.map_of_fst_error hfound]
    rfl
  · rw [if_neg honly, Run.result, Effect.map_of_fst_error hquery]
    rfl

theorem answer_of_embed_error (hquestion : Text.isBlankText q.question = false)
    (ho : Command.queryOptions q.flags = .ok o)
    (hsearches : r.searches ((Analysis.ofQuestion q.question).withOptions o) = true)
    (h : r.embedder.embedTexts 0 [q.question] = .error f) :
    answer r q = .error (.ofFailure (.external "embedding" f)) := by
  refine answer_of_error hquestion ho (.inl ?_)
  refine Retriever.retrieve_of_embed_error rfl hsearches ?_
  simp only [Embedder.embed, Embedder.call, Trace.empty, List.length_nil, h]

theorem answer_of_generate_error (hquestion : Text.isBlankText q.question = false)
    (ho : Command.queryOptions q.flags = .ok o) (hanswers : q.retrieveOnly = false)
    {found : Retrieval} {t : Trace}
    (hfound : (r.retrieve q.question o).result .empty = (.ok found, t))
    (hsources : found.sources ≠ [])
    (h : r.generator.generate 0 (r.requestFor q.question o found) = .error f) :
    answer r q = .error (.ofFailure (.external "generation" f)) := by
  refine answer_of_error hquestion ho (.inr ⟨hanswers, ?_⟩)
  have hrequests : t.requests = [] := by
    rw [Retriever.trace_of_retrieve rfl hfound]
    rfl
  have hquery := Retriever.query_of_found hfound hsources
  rw [hrequests, List.length_nil, h] at hquery
  exact congrArg Prod.fst hquery

end Answers

/-- A request that fails, be it for a vector or for an answer, is reported as the failure of an
upstream service, unless what comes from elsewhere says that something is disabled. A service that
is switched off is reported as such. -/
theorem answer_of_failed_service {S : Type} [Store S] {r : Retriever S} {q : ServerQuery}
    {o : QueryOptions} (hquestion : Text.isBlankText q.question = false)
    (ho : Command.queryOptions q.flags = .ok o) :
    (r.searches ((Analysis.ofQuestion q.question).withOptions o) = true →
      (r.embedder = .disabled → Reports r q "embeddings_disabled" 400) ∧
      ∀ (es : EmbeddingSettings) (key : Option String) (s : EmbeddingService) (n : Network)
        (f : Failure), es.service key = .ok (some s) → r.embedder = s.embedder n →
        let body := Service.embeddingBody s.model [q.question]
        Http.post n s.endpoint s.retries 0 body = .error f →
          ∃ foreign, Http.Fault n s.endpoint body 0 f foreign ∧
            if foreign.any (Text.contains · "disabled") then Reports r q "embeddings_disabled" 400
            else Reports r q "upstream" 502) ∧
    ∀ (found : Retrieval) (t : Trace), q.retrieveOnly = false →
      (r.retrieve q.question o).result .empty = (.ok found, t) → found.sources ≠ [] →
      (r.generator = .disabled → Reports r q "bad_request" 400) ∧
      ∀ (gs : GenerationSettings) (key : Option String) (s : GenerationService) (n : Network)
        (f : Failure), gs.service key = .ok (some s) → r.generator = s.generator n →
        let body := s.body (r.requestFor q.question o found)
        Http.post n s.endpoint Service.generationRetries 0 body = .error f →
          ∃ foreign, Http.Fault n s.endpoint body 0 f foreign ∧
            if foreign.any (Text.contains · "disabled") then Reports r q "bad_request" 400
            else Reports r q "upstream" 502 := by
  refine ⟨fun hsearches => ⟨?_, ?_⟩, fun found t hanswers hfound hsources => ⟨?_, ?_⟩⟩
  · intro hdisabled
    have hcall : r.embedder.embedTexts 0 [q.question] =
      Embedder.disabled.embedTexts 0 [q.question] := by rw [hdisabled]
    have hanswer := answer_of_embed_error hquestion ho hsearches hcall
    exact .of_code hanswer ((code_of_external (by decide) _).trans (if_pos (by decide)))
  · intro es key s n f hservice hembedder body hpost
    obtain ⟨foreign, hfault⟩ := Http.fault_of_post hpost
    have hcall : r.embedder.embedTexts 0 [q.question] = .error f := by
      simp only [hembedder, EmbeddingService.embedder, body, hpost]
      rfl
    have hanswer := answer_of_embed_error hquestion ho hsearches hcall
    -- Which services there are is known, and none is named after the word.
    have hname := EmbeddingSettings.name_mem hservice
    exact ⟨foreign, hfault, reports_of_fault hfault hname (by decide) hanswer⟩
  · intro hdisabled
    have hcall : r.generator.generate 0 (r.requestFor q.question o found) =
      Generator.disabled.generate 0 (r.requestFor q.question o found) := by rw [hdisabled]
    have hanswer := answer_of_generate_error hquestion ho hanswers hfound hsources hcall
    exact .of_code hanswer ((code_of_external (by decide) _).trans (if_pos (by decide)))
  · intro gs key s n f hservice hgenerator body hpost
    obtain ⟨foreign, hfault⟩ := Http.fault_of_post hpost
    have hcall : r.generator.generate 0 (r.requestFor q.question o found) = .error f := by
      simp only [hgenerator, GenerationService.generator, body, hpost]
      rfl
    have hanswer := answer_of_generate_error hquestion ho hanswers hfound hsources hcall
    have hname := GenerationSettings.name_mem hservice
    exact ⟨foreign, hfault, reports_of_fault hfault hname (by decide) hanswer⟩

def replying (status : Nat) (text : String) : Network :=
  .reaching fun _ _ _ => .answered status text

theorem foreign_of_replying {status : Nat} {text : String} {e : Http.Endpoint} {body : Json}
    {call : Nat} {f : Failure} {foreign : List String} {r : HttpRequest}
    (h : Http.Fault (replying status text) e body call f foreign)
    (hrequest : Http.request e body = .ok r) (hstatus : Http.isSuccess status = false) :
    foreign = [text] := by
  cases h with
  | refused _ hreply _ =>
    cases hreply
    rfl
  | unreadable _ hreply hsuccess _ =>
    cases hreply
    exact nomatch hsuccess.symm.trans hstatus
  | lost _ hreply => cases hreply
  | unsent hnone => exact nomatch hnone.symm.trans hrequest

def ollamaEmbedding : EmbeddingService :=
  ⟨⟨"Ollama", "http://localhost:11434/api/embed", none⟩, 5, "e", 1, Service.orderedVectors⟩

def ollamaChat : GenerationService :=
  ⟨⟨"Ollama chat", "http://localhost:11434/api/chat", none⟩, "g", Service.ollamaBody "g",
    Service.onlyMessage⟩

def answering (status : Nat) (text : String) : Retriever Memory :=
  { market with
    embedder := ollamaEmbedding.embedder (replying status text)
    generator := ollamaChat.generator (replying status text) }

theorem ollamaEmbedding_enabled : EmbeddingSettings.service
    { EmbeddingSettings.standard with provider := "ollama", model := some "e", dims := some 1 }
      none = .ok (some ollamaEmbedding) := rfl

theorem ollamaChat_enabled : GenerationSettings.service
    { GenerationSettings.standard with provider := "ollama", model := some "g" } none =
      .ok (some ollamaChat) := rfl

theorem ollamaEmbedding_request (body : Json) :
    Http.request ollamaEmbedding.endpoint body =
      .ok ⟨.web "http://localhost:11434" "/api/embed", none, body⟩ := by
  have haddress : Address.parse? "http://localhost:11434/api/embed" =
    some (.web "http://localhost:11434" "/api/embed") := by decide +kernel
  rw [Http.request, ollamaEmbedding, haddress]
  rfl

theorem ollamaChat_request (body : Json) :
    Http.request ollamaChat.endpoint body =
      .ok ⟨.web "http://localhost:11434" "/api/chat", none, body⟩ := by
  have haddress : Address.parse? "http://localhost:11434/api/chat" =
    some (.web "http://localhost:11434" "/api/chat") := by decide +kernel
  rw [Http.request, ollamaChat, haddress]
  rfl

def listAll : ServerQuery := ⟨"list all classes", none, none, none, false, false⟩

def howWorks : ServerQuery := ⟨"how does Order work", none, none, none, false, false⟩

theorem answering_lists (status : Nat) (text : String) : ∃ found t,
    ((answering status text).retrieve listAll.question {}).result .empty = (.ok found, t) ∧
      found.sources ≠ [] := by
  have hlisting : ((Analysis.ofQuestion listAll.question).withOptions {}).asksForListing = true := by
    decide +kernel
  have hkind : ((Analysis.ofQuestion listAll.question).withOptions {}).kind = some .entity := by
    decide +kernel
  refine ⟨_, _, Retriever.retrieve_of_listing rfl hlisting, ?_⟩
  have hmem : (orders.head (by decide)).fragment ∈ orders.listAll ⟨some .entity, none⟩ :=
    ((Entries.completeListing_listAll orders_sorted none).mem_iff _).2
      ⟨by decide +kernel, rfl, nofun⟩
  rw [hkind]
  exact List.ne_nil_of_mem (List.mem_map.2 ⟨_, hmem, rfl⟩)

theorem answering_searches (status : Nat) (text : String) :
    (answering status text).searches ((Analysis.ofQuestion howWorks.question).withOptions {}) =
      true :=
  Retriever.searches_iff.2 ⟨_, Memory.directHit_eq _ _, by decide +kernel,
    fun hboth => absurd hboth.2 (by decide +kernel)⟩

theorem answer_of_failed_service_busy :
    Reports (answering 503 "busy") howWorks "upstream" 502 ∧
      Reports (answering 503 "busy") listAll "upstream" 502 := by
  obtain ⟨found, t, hfound, hsources⟩ := answering_lists 503 "busy"
  constructor
  · have hfailed := answer_of_failed_service (r := answering 503 "busy") (q := howWorks) (o := {})
      (by decide +kernel) rfl
    obtain ⟨foreign, hfault, hreports⟩ := (hfailed.1 (answering_searches ..)).2 _ _ _ _ _
      ollamaEmbedding_enabled rfl
      (Http.post_refused (ollamaEmbedding_request _) (fun _ => rfl) rfl _)
    obtain rfl := foreign_of_replying hfault (ollamaEmbedding_request _) rfl
    rwa [if_neg (by decide)] at hreports
  · have hfailed := answer_of_failed_service (r := answering 503 "busy") (q := listAll) (o := {})
      (by decide +kernel) rfl
    obtain ⟨foreign, hfault, hreports⟩ := (hfailed.2 found t rfl hfound hsources).2 _ _ _ _ _
      ollamaChat_enabled rfl (Http.post_refused (ollamaChat_request _) (fun _ => rfl) rfl _)
    obtain rfl := foreign_of_replying hfault (ollamaChat_request _) rfl
    rwa [if_neg (by decide)] at hreports

/-- A refusal that has the word in its body is taken for a service that is switched off. -/
theorem not_reports_upstream : ¬∀ (r : Retriever Memory) (q : ServerQuery) (o : QueryOptions)
    (gs : GenerationSettings) (key : Option String) (s : GenerationService) (n : Network)
    (found : Retrieval) (t : Trace) (f : Failure),
    Text.isBlankText q.question = false → Command.queryOptions q.flags = .ok o →
      q.retrieveOnly = false → (r.retrieve q.question o).result .empty = (.ok found, t) →
      found.sources ≠ [] → gs.service key = .ok (some s) → r.generator = s.generator n →
      Http.post n s.endpoint Service.generationRetries 0
        (s.body (r.requestFor q.question o found)) = .error f → Reports r q "upstream" 502 := by
  intro hupstream
  obtain ⟨found, t, hfound, hsources⟩ := answering_lists 400 "this account is disabled"
  have hpost : Http.post (replying 400 "this account is disabled") ollamaChat.endpoint
      Service.generationRetries 0 (ollamaChat.body ((answering 400
        "this account is disabled").requestFor listAll.question {} found)) = .error _ :=
    Http.post_refused (ollamaChat_request _) (fun _ => rfl) rfl _
  obtain ⟨err, herr, hcode, -⟩ := hupstream (answering 400 "this account is disabled") listAll {} _
    _ _ _ found t _ (by decide +kernel) rfl rfl hfound hsources ollamaChat_enabled rfl hpost
  have hanswer := answer_of_generate_error (q := listAll) (by decide +kernel) rfl rfl hfound
    hsources (congrArg (· >>= ollamaChat.text) hpost)
  rw [Except.error.inj (herr.symm.trans hanswer)] at hcode
  have hsays : Text.contains (Http.apiError ollamaChat.endpoint 400
      "this account is disabled").message "disabled" = true :=
    (Http.contains_apiError (by decide) 400 _).trans (by decide)
  have hname : Text.contains "generation" "disabled" = false := by decide
  have hbad := (code_of_external hname _).trans (if_pos hsays)
  exact absurd ((Prod.mk.inj hbad).1.symm.trans hcode) (by decide)

end Server

end CodeRetrieval
