import CodeRetrieval.Proofs.Index.Reset

/-!
What the embedding service leaves behind when it fails. A run takes things out of the store before
anything is embedded and writes only afterwards, so nothing is written, and what it has taken out
is gone.
-/

set_option autoImplicit false

namespace CodeRetrieval.Index

open KeyedStore

section Steps

variable {S : Type} {es : EmbeddingSettings} {e : Embedder} {fresh : List Fragment} {f : Failure}

theorem embed_of_failure {s : IndexState S} (hcalls : s.calls = [])
    (h : supply es e fresh = .error f) :
    ∃ s', outcomeOf (embed es e fresh) s = (.error f, s') ∧ s'.store = s.store := by
  obtain ⟨hanswer, hstore⟩ := embed_outcome es e fresh hcalls
  rw [h] at hanswer
  exact ⟨_, Prod.ext hanswer rfl, hstore⟩

variable [Store S]

theorem write_of_failure {reset : Bool} (counts : IndexSummary) {s : IndexState S} {cleared : S}
    {removed : Nat} (hcalls : s.calls = [])
    (hclear : clear reset fresh s.store = .ok (removed, cleared))
    (hsupply : supply es e fresh = .error f) :
    ∃ s', outcomeOf (write es e reset fresh counts) s = (.error f, s') ∧ s'.store = cleared := by
  have hremove := onStore_of_ok (clear reset fresh) hclear
  obtain ⟨s', hembed, hstore⟩ :=
    embed_of_failure (s := { s with store := cleared }) hcalls hsupply
  refine ⟨s', ?_, hstore⟩
  exact (Effect.bind_of_ok hremove).trans (Effect.bind_of_error hembed)

variable [KeyedStore S]

theorem failed_run {settings : Settings} {files : FileTree} {here : FilePath}
    {reader : Source.Reader} {o : IndexOptions} {s cleared : S} {scan : Scan} {removed : Nat}
    {st : IndexState S} (hscan : Scan.ofTree files here settings.index = .ok scan)
    (hclear : clear o.reset (Chunk.ofArtifacts settings.chunking reader scan.artifacts) s =
      .ok (removed, cleared))
    (hrun : (run settings files here e reader o).result s = (.error f, st)) :
    supply settings.embedding e (Chunk.ofArtifacts settings.chunking reader scan.artifacts) =
      .error f ∧ st.store = cleared := by
  have hdry : o.dryRun = false := by
    refine Bool.eq_false_iff.2 fun hdry => ?_
    rw [run_dry settings e reader s hdry hscan] at hrun
    cases hrun
  -- With an answer from the service the run would have succeeded.
  cases hsupply : supply settings.embedding e
      (Chunk.ofArtifacts settings.chunking reader scan.artifacts) with
  | ok answer =>
    obtain ⟨written, embedded, skipped⟩ := answer
    obtain ⟨summary, st', hdone, _⟩ := run_of_steps settings hdry hscan hclear hsupply
    have hsame := hdone.symm.trans hrun
    cases hsame
  | error f' =>
    let b := IndexBuild.ofArtifacts .inOrder .inOrder settings.chunking reader scan.artifacts
    obtain ⟨s', hwrite, hstore⟩ := write_of_failure (summaryOf scan b)
      (s := ⟨s, [.scanning settings.index.root] ++ buildEvents b, []⟩) rfl hclear hsupply
    rw [run_eq_write settings e reader s hdry hscan] at hrun
    have hsame := hwrite.symm.trans hrun
    cases hsame
    exact ⟨rfl, hstore⟩

end Steps

theorem unchanged_iff {S : Type} [Store S] [KeyedStore S] {reset : Bool}
    {fresh : List Fragment} {s t : S} {n : Nat} (h : Forgets (forgotten reset s fresh) s t n) :
    items t = items s ↔
      items s = [] ∨ reset = false ∧ ∀ x ∈ items s, key x ∈ fresh.map (·.id) := by
  simp only [h.items, List.filter_eq_self, Bool.not_eq_true', forgotten_eq_false_iff]
  constructor
  · intro hall
    cases hitems : items s with
    | nil => exact .inl rfl
    | cons y ys =>
      have hreset := (hall y (by simp [hitems])).1
      refine .inr ⟨hreset, ?_⟩
      rw [← hitems]
      exact fun x hx => (hall x hx).2 x hx rfl
  · intro hcases x hx
    rcases hcases with hempty | ⟨hreset, hfresh⟩
    · simp [hempty] at hx
    · exact ⟨hreset, fun y hy _ => hfresh y hy⟩

theorem oversize_of_limit {es : EmbeddingSettings} (hlimit : 2 ^ 64 ≤ es.maxTokensPerBatch + 1)
    (texts : List String) : (planBatches texts es.limits).oversize = [] := by
  refine oversize_of_fits fun text _ => ?_
  have hlt := tokens_lt es.limits text
  simp only [EmbeddingSettings.limits] at *
  omega

theorem supply_failed {es : EmbeddingSettings} {e : Embedder} {f : Failure}
    (hon : es.isEnabled = true) (hlimit : 2 ^ 64 ≤ es.maxTokensPerBatch + 1)
    (hfails : ∀ n texts, e.embedTexts n texts = .error f) (hother : f.isTokenLimit = false)
    {fresh : List Fragment} (hsome : fresh ≠ []) : supply es e fresh = .error f := by
  have hbatches : (planBatches (fresh.map (·.embeddingText)) es.limits).batches ≠ [] := by
    intro hnone
    have hlength := (planBatches_perm (fresh.map (·.embeddingText)) es.limits).length_eq
    rw [hnone, oversize_of_limit hlimit, List.flatten_nil, List.append_nil, List.length_range,
      List.length_map, List.length_nil] at hlength
    exact hsome (List.length_eq_zero_iff.1 hlength.symm)
  obtain ⟨log, hbatch⟩ := embedBatch_failed hfails hother hbatches []
  rw [supply, if_pos hon, hbatch]
  rfl

def embeddingAll : Settings :=
  { Settings.standard with
    embedding :=
      { EmbeddingSettings.standard with provider := "openai", maxTokensPerBatch := 2 ^ 64 - 1 } }

def unreachable : Embedder := ⟨"stub", 1, fun _ _ => .error (.plain "connection reset")⟩

theorem run_unreachable : ∃ f st,
    (run embeddingAll noteTree [] unreachable readNothing { reset := true }).result oldStore =
      (.error f, st) ∧ st.store.entries = [] := by
  have hsorted : oldStore.entries.Sorted := List.pairwise_singleton _ _
  obtain ⟨n, cleared, hclear, hforgets⟩ := clear_forgets (S := Memory) true
    (Chunk.ofArtifacts .standard readNothing [note]) hsorted (.inl rfl)
  have hsome : Chunk.ofArtifacts .standard readNothing [note] ≠ [] := by
    intro hnone
    have hids := ofArtifacts_note_ids
    rw [hnone] at hids
    cases hids
  have hsupply : supply embeddingAll.embedding unreachable
      (Chunk.ofArtifacts .standard readNothing [note]) = .error (.plain "connection reset") :=
    supply_failed (by decide) (by decide) (fun _ _ => rfl) (by decide +kernel) hsome
  let b := IndexBuild.ofArtifacts .inOrder .inOrder .standard readNothing [note]
  obtain ⟨st, hwrite, hstore⟩ := write_of_failure (summaryOf ⟨[note], 0⟩ b)
    (s := ⟨oldStore, [.scanning embeddingAll.index.root] ++ buildEvents b, []⟩) rfl hclear hsupply
  refine ⟨.plain "connection reset", st, ?_, ?_⟩
  · rw [run_eq_write embeddingAll unreachable readNothing oldStore rfl scan_note]
    exact hwrite
  · rw [hstore]
    exact hforgets.items

/-- A failed run has written nothing. It has forgotten the files it would have written anew, or all
that was stored if that was to be removed first, and keeps the other files with their vectors; so
the store is as it was exactly if it was empty, or all that was stored is still made from the files
and was not to be removed. -/
theorem failed_run_keeps {S : Type} [Store S] [KeyedStore S] {settings : Settings}
    {files : FileTree} {here : FilePath} {e : Embedder} {reader : Source.Reader}
    {o : IndexOptions} {s : S} {scan : Scan} {f : Failure} {st : IndexState S} (hs : Sound s)
    (hscan : Scan.ofTree files here settings.index = .ok scan)
    (hlist : ∃ stored, Store.listAll s {} = .ok stored)
    (hrun : (run settings files here e reader o).result s = (.error f, st)) :
    let fresh := Chunk.ofArtifacts settings.chunking reader scan.artifacts
    supply settings.embedding e fresh = .error f ∧
      Sound st.store ∧ setting st.store = setting s ∧
      items st.store = (items s).filter (fun x => !forgotten o.reset s fresh (path x)) ∧
      (items st.store = items s ↔
        items s = [] ∨ o.reset = false ∧ ∀ x ∈ items s, key x ∈ fresh.map (·.id)) := by
  intro fresh
  obtain ⟨removed, cleared, hclear, hforgets⟩ := clear_forgets o.reset fresh hs (.inr hlist)
  obtain ⟨hsupply, hstore⟩ := failed_run hscan hclear hrun
  rw [← hstore] at hforgets
  exact ⟨hsupply, hforgets.sound, hforgets.setting, hforgets.items, unchanged_iff hforgets⟩

theorem failed_run_keeps_note : Sound oldStore ∧ ∃ f st,
    (run embeddingAll noteTree [] unreachable readNothing { reset := true }).result oldStore =
      (.error f, st) ∧
    supply embeddingAll.embedding unreachable (Chunk.ofArtifacts .standard readNothing [note]) =
      .error f ∧
    items st.store ≠ items oldStore := by
  have hsound : Sound oldStore := List.pairwise_singleton _ _
  obtain ⟨f, st, hrun, _⟩ := run_unreachable
  obtain ⟨hsupply, _, _, _, hiff⟩ := failed_run_keeps hsound scan_note ⟨_, rfl⟩ hrun
  refine ⟨hsound, f, st, hrun, hsupply, fun hsame => ?_⟩
  rcases hiff.1 hsame with hempty | ⟨hreset, _⟩
  · cases hempty
  · cases hreset

/-- A run that the service fails does not always leave the store as it was. -/
theorem not_failed_run_keeps : ¬∀ (settings : Settings) (files : FileTree) (here : FilePath)
    (e : Embedder) (reader : Source.Reader) (o : IndexOptions) (m : Memory) (scan : Scan)
    (f : Failure) (st : IndexState Memory), m.entries.Sorted →
    Scan.ofTree files here settings.index = .ok scan →
    supply settings.embedding e (Chunk.ofArtifacts settings.chunking reader scan.artifacts) =
      .error f →
    (run settings files here e reader o).result m = (.error f, st) →
    st.store.entries = m.entries := by
  intro hclaim
  have hsorted : oldStore.entries.Sorted := List.pairwise_singleton _ _
  obtain ⟨f, st, hrun, hempty⟩ := run_unreachable
  obtain ⟨n, cleared, hclear, _⟩ := clear_forgets (S := Memory) true
    (Chunk.ofArtifacts .standard readNothing [note]) hsorted (.inl rfl)
  obtain ⟨hsupply, _⟩ := failed_run scan_note hclear hrun
  have hsame := hclaim _ _ _ _ _ _ oldStore _ _ _ hsorted scan_note hsupply hrun
  rw [hempty] at hsame
  cases hsame

end CodeRetrieval.Index
