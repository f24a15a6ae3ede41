import CodeRetrieval.Proofs.Embedding.Batch
import CodeRetrieval.Proofs.Index.Build
import CodeRetrieval.Proofs.Index.Update

/-!
A whole run of the index, told by its three steps on the store and the services: it clears what is
stale, has the fragments embedded, and writes them.
-/

set_option autoImplicit false

namespace CodeRetrieval.Index

open KeyedStore

/-- What is to be written, and how many fragments were embedded and how many refused, by a service
that has had no call before. -/
def supply (s : EmbeddingSettings) (e : Embedder) (fragments : List Fragment) :
    Outcome (Written × Nat × Nat) :=
  if s.isEnabled then
    (embedBatch e (fragments.map (·.embeddingText)) s.limits []).1.map fun batch =>
      (.embedded (withVectors fragments batch.vectors), batch.embeddedCount, batch.skipped.length)
  else .ok (.bare fragments, 0, 0)

theorem withVectors_sublist (fragments : List Fragment) (vectors : List (Option Embedding)) :
    ((withVectors fragments vectors).map (·.1)).Sublist fragments := by
  induction fragments generalizing vectors with
  | nil => exact List.Sublist.refl _
  | cons f fragments ih =>
    cases vectors with
    | nil => exact List.nil_sublist _
    | cons v vectors =>
      cases v with
      | none => exact (ih vectors).cons f
      | some v => exact (ih vectors).cons_cons f

theorem withVectors_all {fragments : List Fragment} {vectors : List (Option Embedding)}
    (hlength : vectors.length = fragments.length) (hall : ∀ v ∈ vectors, v.isSome = true) :
    (withVectors fragments vectors).map (·.1) = fragments := by
  induction fragments generalizing vectors with
  | nil => rfl
  | cons f fragments ih =>
    cases vectors with
    | nil => simp at hlength
    | cons v vectors =>
      obtain ⟨hv, hvectors⟩ := List.forall_mem_cons.1 hall
      obtain ⟨w, rfl⟩ := Option.isSome_iff_exists.1 hv
      have hrest := ih (by simpa using hlength) hvectors
      simp only [withVectors] at hrest
      simp [withVectors, hrest]

theorem Written.fragments_bare (fragments : List Fragment) :
    (Written.bare fragments).pairs.map (·.1) = fragments := by
  rw [Written.pairs, List.map_map]
  exact List.map_id _

theorem Written.fragments_embedded (pairs : List (Fragment × Embedding)) :
    (Written.embedded pairs).pairs.map (·.1) = pairs.map (·.1) := by
  rw [Written.pairs, List.map_map]
  rfl

theorem supply_sublist {es : EmbeddingSettings} {e : Embedder} {fresh : List Fragment}
    {w : Written} {embedded skipped : Nat} (h : supply es e fresh = .ok (w, embedded, skipped)) :
    (w.pairs.map (·.1)).Sublist fresh := by
  unfold supply at h
  cases hon : es.isEnabled with
  | false =>
    rw [hon] at h
    cases h
    rw [Written.fragments_bare]
  | true =>
    rw [hon] at h
    obtain ⟨batch, _, h⟩ := Outcome.map_ok h
    cases h
    rw [Written.fragments_embedded]
    exact withVectors_sublist _ _

theorem supply_all {es : EmbeddingSettings} {e : Embedder} {fresh : List Fragment} {w : Written}
    {embedded skipped : Nat} (h : supply es e fresh = .ok (w, embedded, skipped))
    (hnone : es.isEnabled = true → skipped = 0) : w.pairs.map (·.1) = fresh := by
  unfold supply at h
  cases hon : es.isEnabled with
  | false =>
    rw [hon] at h
    cases h
    exact Written.fragments_bare fresh
  | true =>
    rw [hon] at h
    obtain ⟨batch, hbatch, h⟩ := Outcome.map_ok h
    have hresult : embedBatch e (fresh.map (·.embeddingText)) es.limits [] =
        (.ok batch, (embedBatch e (fresh.map (·.embeddingText)) es.limits []).2) :=
      Prod.ext hbatch rfl
    have hskipped := hnone hon
    cases h
    rw [Written.fragments_embedded]
    exact withVectors_all ((length_vectors hresult).trans (List.length_map ..))
      (all_embedded hresult hskipped)

section Steps

variable {S : Type}

theorem report_outcome (events : List IndexEvent) (s : IndexState S) :
    outcomeOf (IndexRun.report events) s = (.ok (), { s with events := s.events ++ events }) := rfl

theorem ofOutcome_outcome {α : Type} (o : Outcome α) (s : IndexState S) :
    outcomeOf (IndexRun.ofOutcome o) s = (o, s) := rfl

def stepped (s : IndexState S) : Outcome (Nat × S) → Outcome Nat × IndexState S
  | .ok (n, store) => (.ok n, { s with store })
  | .error f => (.error f, s)

theorem onStore_outcome (step : S → Outcome (Nat × S)) (s : IndexState S) :
    outcomeOf (IndexRun.onStore step) s = stepped s (step s.store) := rfl

theorem onStore_of_ok (step : S → Outcome (Nat × S)) {s : IndexState S} {n : Nat} {t : S}
    (h : step s.store = .ok (n, t)) :
    outcomeOf (IndexRun.onStore step) s = (.ok n, { s with store := t }) := by
  rw [onStore_outcome, h]
  rfl

theorem onStore_ok {step : S → Outcome (Nat × S)} {s s' : IndexState S} {n : Nat}
    (h : outcomeOf (IndexRun.onStore step) s = (.ok n, s')) :
    ∃ t, step s.store = .ok (n, t) ∧ s' = { s with store := t } := by
  cases hstep : step s.store with
  | ok answer =>
    obtain ⟨m, t⟩ := answer
    rw [onStore_outcome, hstep] at h
    cases h
    exact ⟨t, rfl, rfl⟩
  | error f =>
    rw [onStore_outcome, hstep] at h
    cases h

theorem embedBatch_outcome (e : Embedder) (texts : List String) (limits : BatchLimits)
    (s : IndexState S) :
    outcomeOf (IndexRun.embedBatch e texts limits) s =
      ((embedBatch e texts limits s.calls).1,
        { s with calls := (embedBatch e texts limits s.calls).2 }) := rfl

theorem embed_outcome (es : EmbeddingSettings) (e : Embedder) (fragments : List Fragment)
    {s : IndexState S} (hcalls : s.calls = []) :
    (outcomeOf (embed es e fragments) s).1 = supply es e fragments ∧
      (outcomeOf (embed es e fragments) s).2.store = s.store := by
  obtain ⟨store, events, calls⟩ := s
  simp only at hcalls
  subst hcalls
  unfold embed supply
  cases hon : es.isEnabled with
  | false => exact ⟨rfl, rfl⟩
  | true =>
    rcases hbatch : embedBatch e (fragments.map (·.embeddingText)) es.limits [] with ⟨answer, log⟩
    have hcall := embedBatch_outcome e (fragments.map (·.embeddingText)) es.limits
      (⟨store, events, []⟩ : IndexState S)
    rw [hbatch] at hcall
    simp only [if_true]
    cases answer with
    | error f =>
      rw [Effect.bind_of_error hcall, hbatch]
      exact ⟨rfl, rfl⟩
    | ok batch =>
      rw [Effect.bind_of_ok hcall, hbatch]
      exact ⟨rfl, rfl⟩

theorem supply_of_embed {es : EmbeddingSettings} {e : Embedder} {fragments : List Fragment}
    {s s' : IndexState S} {answer : Written × Nat × Nat} (hcalls : s.calls = [])
    (h : outcomeOf (embed es e fragments) s = (.ok answer, s')) :
    supply es e fragments = .ok answer ∧ s'.store = s.store := by
  obtain ⟨hanswer, hstore⟩ := embed_outcome es e fragments hcalls
  rw [h] at hanswer hstore
  exact ⟨hanswer.symm, hstore⟩

theorem embed_of_supply {es : EmbeddingSettings} {e : Embedder} {fragments : List Fragment}
    {s : IndexState S} {answer : Written × Nat × Nat} (hcalls : s.calls = [])
    (h : supply es e fragments = .ok answer) :
    ∃ s', outcomeOf (embed es e fragments) s = (.ok answer, s') ∧ s'.store = s.store := by
  obtain ⟨hanswer, hstore⟩ := embed_outcome es e fragments hcalls
  rw [h] at hanswer
  exact ⟨_, Prod.ext hanswer rfl, hstore⟩

end Steps

variable {S : Type} [Store S] [KeyedStore S]

/-- What a run that brings a store up to date does to it: it clears the store of what is stale,
and writes what the embedding service leaves to be written. -/
structure Updates (es : EmbeddingSettings) (e : Embedder) (reset : Bool) (fresh : List Fragment)
    (before cleared : S) (written : Written) (summary : IndexSummary) (after : S) : Prop where
  clears : clear reset fresh before = .ok (summary.removed, cleared)
  supplies : supply es e fresh = .ok (written, summary.embedded, summary.embedSkipped)
  writes : after = puts cleared written.pairs
  stored : summary.stored = written.pairs.length

theorem write_updates {es : EmbeddingSettings} {e : Embedder} {reset : Bool}
    {fresh : List Fragment} {counts summary : IndexSummary} {s s' : IndexState S}
    (hcalls : s.calls = [])
    (h : outcomeOf (write es e reset fresh counts) s = (.ok summary, s')) :
    ∃ cleared written, Updates es e reset fresh s.store cleared written summary s'.store := by
  obtain ⟨removed, s₁, hremove, h⟩ := Effect.bind_ok h
  obtain ⟨cleared, hclear, rfl⟩ := onStore_ok hremove
  obtain ⟨⟨written, embedded, skipped⟩, s₂, hembed, h⟩ := Effect.bind_ok h
  obtain ⟨hsupply, hstore⟩ :=
    supply_of_embed (s := { s with store := cleared }) hcalls hembed
  obtain ⟨stored, s₃, hwrite, h⟩ := Effect.bind_ok h
  obtain ⟨after, hupsert, rfl⟩ := onStore_ok hwrite
  rw [upsertPieces_eq, hstore] at hupsert
  cases hupsert
  cases h
  exact ⟨cleared, written, hclear, hsupply, rfl, rfl⟩

theorem write_of_steps {es : EmbeddingSettings} {e : Embedder} {reset : Bool}
    {fresh : List Fragment} (counts : IndexSummary) {s : IndexState S} {cleared : S}
    {written : Written} {removed embedded skipped : Nat} (hcalls : s.calls = [])
    (hclear : clear reset fresh s.store = .ok (removed, cleared))
    (hsupply : supply es e fresh = .ok (written, embedded, skipped)) :
    ∃ s', outcomeOf (write es e reset fresh counts) s =
        (.ok { counts with
          embedded, embedSkipped := skipped, stored := written.pairs.length, removed }, s') ∧
      s'.store = puts cleared written.pairs := by
  have hremove := onStore_of_ok (clear reset fresh) hclear
  obtain ⟨s₂, hembed, hstore⟩ := embed_of_supply (s := { s with store := cleared }) hcalls hsupply
  have hwrite := onStore_of_ok (fun store => upsertPieces store written.pieces)
    (upsertPieces_eq s₂.store written)
  refine ⟨{ s₂ with
    store := puts s₂.store written.pairs
    events := s₂.events ++ [.stored written.pairs.length] }, ?_, ?_⟩
  · refine (Effect.bind_of_ok hremove).trans ((Effect.bind_of_ok hembed).trans ?_)
    exact Effect.bind_of_ok hwrite
  · rw [hstore]

section Scanned

variable (settings : Settings) {files : FileTree} {here : FilePath} (e : Embedder)
  (reader : Source.Reader) {o : IndexOptions} (store : S) {scan : Scan}

omit [KeyedStore S] in
theorem run_scanned (hscan : Scan.ofTree files here settings.index = .ok scan) :
    let b := IndexBuild.ofArtifacts .inOrder .inOrder settings.chunking reader scan.artifacts
    (run settings files here e reader o).result store =
      outcomeOf (if o.dryRun then pure (summaryOf scan b)
        else write settings.embedding e o.reset
          (Chunk.ofArtifacts settings.chunking reader scan.artifacts) (summaryOf scan b))
        ⟨store, [.scanning settings.index.root] ++ buildEvents b, []⟩ := by
  intro b
  have hreport := report_outcome [.scanning settings.index.root] (⟨store, [], []⟩ : IndexState S)
  have hfound : outcomeOf (IndexRun.ofOutcome (Scan.ofTree files here settings.index))
      (⟨store, [.scanning settings.index.root], []⟩ : IndexState S) =
        (.ok scan, ⟨store, [.scanning settings.index.root], []⟩) := by
    rw [ofOutcome_outcome, hscan]
  have hmade := report_outcome (buildEvents b)
    (⟨store, [.scanning settings.index.root], []⟩ : IndexState S)
  refine (Effect.bind_of_ok hreport).trans ((Effect.bind_of_ok hfound).trans ?_)
  refine (Effect.bind_of_ok hmade).trans ?_
  rw [← IndexBuild.fragments_ofArtifacts .inOrder .inOrder]

omit [KeyedStore S] in
theorem run_eq_write (hdry : o.dryRun = false)
    (hscan : Scan.ofTree files here settings.index = .ok scan) :
    let b := IndexBuild.ofArtifacts .inOrder .inOrder settings.chunking reader scan.artifacts
    (run settings files here e reader o).result store =
      outcomeOf (write settings.embedding e o.reset
        (Chunk.ofArtifacts settings.chunking reader scan.artifacts) (summaryOf scan b))
        ⟨store, [.scanning settings.index.root] ++ buildEvents b, []⟩ := by
  intro b
  rw [run_scanned settings e reader store hscan, hdry]
  rfl

omit [KeyedStore S] in
theorem run_dry (hdry : o.dryRun = true)
    (hscan : Scan.ofTree files here settings.index = .ok scan) :
    let b := IndexBuild.ofArtifacts .inOrder .inOrder settings.chunking reader scan.artifacts
    (run settings files here e reader o).result store = (.ok (summaryOf scan b),
      ⟨store, [.scanning settings.index.root] ++ buildEvents b, []⟩) := by
  intro b
  rw [run_scanned settings e reader store hscan, hdry]
  rfl

end Scanned

/-- A run that is not a dry one has scanned the tree and brought the store up to date with the
fragments of what it found. -/
theorem run_updates {settings : Settings} {files : FileTree} {here : FilePath} {e : Embedder}
    {reader : Source.Reader} {o : IndexOptions} {store : S} {summary : IndexSummary}
    {st : IndexState S} (hdry : o.dryRun = false)
    (h : (run settings files here e reader o).result store = (.ok summary, st)) :
    ∃ scan, Scan.ofTree files here settings.index = .ok scan ∧ ∃ cleared written,
      Updates settings.embedding e o.reset
        (Chunk.ofArtifacts settings.chunking reader scan.artifacts) store cleared written summary
        st.store := by
  obtain ⟨scan, hscan⟩ : ∃ scan, Scan.ofTree files here settings.index = .ok scan := by
    obtain ⟨_, s₁, _, hrest⟩ := Effect.bind_ok h
    obtain ⟨scan, s₂, hfound, _⟩ := Effect.bind_ok hrest
    exact ⟨scan, (Prod.mk.inj hfound).1⟩
  rw [run_eq_write settings e reader store hdry hscan] at h
  exact ⟨scan, hscan, write_updates rfl h⟩

theorem run_of_steps (settings : Settings) {files : FileTree} {here : FilePath} {e : Embedder}
    {reader : Source.Reader} {o : IndexOptions} {store cleared : S} {scan : Scan}
    {written : Written} {removed embedded skipped : Nat} (hdry : o.dryRun = false)
    (hscan : Scan.ofTree files here settings.index = .ok scan)
    (hclear : clear o.reset (Chunk.ofArtifacts settings.chunking reader scan.artifacts) store =
      .ok (removed, cleared))
    (hsupply : supply settings.embedding e
      (Chunk.ofArtifacts settings.chunking reader scan.artifacts) =
        .ok (written, embedded, skipped)) :
    ∃ summary st, (run settings files here e reader o).result store = (.ok summary, st) ∧
      summary.removed = removed ∧ st.store = puts cleared written.pairs := by
  let b := IndexBuild.ofArtifacts .inOrder .inOrder settings.chunking reader scan.artifacts
  let s : IndexState S := ⟨store, [.scanning settings.index.root] ++ buildEvents b, []⟩
  obtain ⟨st, hwrite, hstore⟩ := write_of_steps (summaryOf scan b) (s := s) rfl hclear hsupply
  refine ⟨{ summaryOf scan b with
    embedded, embedSkipped := skipped, stored := written.pairs.length, removed }, st, ?_, rfl,
    hstore⟩
  rw [run_eq_write settings e reader store hdry hscan]
  exact hwrite

namespace Updates

variable {es : EmbeddingSettings} {e : Embedder} {reset : Bool} {fresh : List Fragment}
  {before cleared after : S} {written : Written} {summary : IndexSummary}

theorem ids_nodup (h : Updates es e reset fresh before cleared written summary after)
    (hids : (fresh.map (·.id)).Nodup) : (written.pairs.map (·.1.id)).Nodup := by
  have hsub := (supply_sublist h.supplies).map (·.id)
  rw [List.map_map] at hsub
  exact hids.sublist hsub

theorem sound (h : Updates es e reset fresh before cleared written summary after)
    (hbefore : Sound before) : Sound after := by
  rw [h.writes]
  exact sound_puts _ (forgets_of_clear hbefore h.clears).sound

theorem setting_eq (h : Updates es e reset fresh before cleared written summary after)
    (hbefore : Sound before) : setting after = setting before := by
  rw [h.writes, setting_puts, (forgets_of_clear hbefore h.clears).setting]

/-- What is stored after a run: what it has written, and what it has neither forgotten nor written
over. -/
theorem mem_after (h : Updates es e reset fresh before cleared written summary after)
    (hbefore : Sound before) (hids : (fresh.map (·.id)).Nodup) (x : Item S) :
    x ∈ items after ↔ x ∈ itemsOf before written.pairs ∨
      x ∈ items before ∧ forgotten reset before fresh (path x) = false ∧
        key x ∉ written.pairs.map (·.1.id) := by
  have hforgets := forgets_of_clear hbefore h.clears
  rw [h.writes, mem_puts hforgets.sound (h.ids_nodup hids), hforgets.items, List.mem_filter,
    itemsOf, hforgets.setting, and_assoc, Bool.not_eq_true']
  rfl

end Updates

end CodeRetrieval.Index
