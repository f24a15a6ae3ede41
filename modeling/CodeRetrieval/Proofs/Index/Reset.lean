import CodeRetrieval.Proofs.Index.Convergence

/-!
Removing all that is stored before a run, or only what is stale. The two leave the same behind
unless something old stays under an id whose fragment is not written, in a file that has nothing
stale.
-/

set_option autoImplicit false

namespace CodeRetrieval.Index

open KeyedStore

section Lingering

variable {S : Type} [Store S] [KeyedStore S]

/-- An old item that a run neither forgets nor writes over: the fragment of its id was refused, and
all that is stored of its file is still there by its ids. -/
structure Lingers (s : S) (fresh : List Fragment) (written : List Upserted) (x : Item S) :
    Prop where
  stored : x ∈ items s
  refused : key x ∉ written.map (·.1.id)
  settled : ∀ y ∈ items s, path y = path x → key y ∈ fresh.map (·.id)

variable {es : EmbeddingSettings} {e : Embedder} {fresh : List Fragment}
  {before cleared after : S} {written : Written} {summary : IndexSummary}

theorem Updates.mem_after_reset
    (h : Updates es e true fresh before cleared written summary after) (hbefore : Sound before)
    (hids : (fresh.map (·.id)).Nodup) (x : Item S) :
    x ∈ items after ↔ x ∈ itemsOf before written.pairs := by
  rw [h.mem_after hbefore hids]
  constructor
  · intro hcases
    rcases hcases with hx | ⟨_, hkept, _⟩
    · exact hx
    · exact absurd (forgotten_eq_false_iff.1 hkept).1 (by decide)
  · exact .inl

theorem Updates.mem_after_incremental
    (h : Updates es e false fresh before cleared written summary after) (hbefore : Sound before)
    (hids : (fresh.map (·.id)).Nodup) (x : Item S) :
    x ∈ items after ↔
      x ∈ itemsOf before written.pairs ∨ Lingers before fresh written.pairs x := by
  rw [h.mem_after hbefore hids]
  refine or_congr_right ?_
  constructor
  · intro hparts
    obtain ⟨hx, hkept, hout⟩ := hparts
    exact ⟨hx, hout, (forgotten_eq_false_iff.1 hkept).2⟩
  · intro hparts
    obtain ⟨hx, hout, hsettled⟩ := hparts
    exact ⟨hx, forgotten_eq_false_iff.2 ⟨rfl, hsettled⟩, hout⟩

theorem Lingers.not_written {s : S} {ps : List Upserted} {x : Item S}
    (h : Lingers s fresh ps x) : x ∉ itemsOf s ps := by
  intro hx
  have hkey : key x ∈ (itemsOf s ps).map key := List.mem_map.2 ⟨x, hx, rfl⟩
  rw [Updates.keys_itemsOf] at hkey
  exact h.refused hkey

end Lingering

theorem ofDocument_note (known : KnownNames) : ∃ f, Chunk.ofDocument .standard known note = [f] ∧
    f.id = fragmentId note.path "note" .proseDocument := by
  have hkind : note.kind? = some (.prose .markdown) := by decide +kernel
  have htext : Text.trimEnd note.text = "# Note\n\nPaid by card." := by decide +kernel
  have hlines : Text.lineCount "# Note\n\nPaid by card." = 3 := by decide +kernel
  have hstem : Fragment.stem note.path = "note" := by decide +kernel
  simp only [Chunk.ofDocument, hkind, Chunk.ofProse, htext, Chunk.ofProseWhole, Chunk.bound, hlines,
    hstem]
  exact ⟨_, rfl, rfl⟩

theorem ofArtifacts_note_ids : (Chunk.ofArtifacts .standard readNothing [note]).map (·.id) =
    [fragmentId note.path "note" .proseDocument] := by
  have haccepts : Chunk.accepts .standard note = true := by cbv
  have hstructural : note.isStructural = false := by decide +kernel
  obtain ⟨f, hfragments, hid⟩ := ofDocument_note (Chunk.knownNames [])
  simp [Chunk.ofArtifacts, Chunk.readings, haccepts, hstructural, hfragments, Chunk.dedupe,
    distinctOn, distinctFrom, hid]

theorem withVectors_none {vectors : List (Option Embedding)} (h : ∀ v ∈ vectors, v = none)
    (fragments : List Fragment) : withVectors fragments vectors = [] := by
  rw [withVectors, List.filterMap_eq_nil_iff]
  intro hparts hmem
  obtain ⟨f, v⟩ := hparts
  rw [h v (List.of_mem_zip hmem).2]
  rfl

theorem supply_refused {e : Embedder} {f : Failure} (es : EmbeddingSettings)
    (hon : es.isEnabled = true) (hrefuses : ∀ n texts, e.embedTexts n texts = .error f)
    (hlimit : f.isTokenLimit = true) (fresh : List Fragment) :
    ∃ embedded skipped, supply es e fresh = .ok (.embedded [], embedded, skipped) := by
  obtain ⟨b, log, hbatch, hnone⟩ :=
    embedBatch_refused hrefuses hlimit (fresh.map (·.embeddingText)) es.limits []
  refine ⟨b.embeddedCount, b.skipped.length, ?_⟩
  rw [supply, if_pos hon, hbatch]
  simp only [Except.map, withVectors_none hnone]

def embeddingOn : Settings :=
  { Settings.standard with embedding := { EmbeddingSettings.standard with provider := "openai" } }

def refuser : Embedder := ⟨"stub", 1, fun _ _ => .error (.plain "maximum context length exceeded")⟩

def oldNote : Fragment :=
  ⟨fragmentId note.path "note" .proseDocument, "# Note\n\nUnpaid.", "markdown", .proseDocument,
    note.path, 1, 3, none, none, none, [], []⟩

def oldStore : Memory := ⟨[⟨oldNote, some [0x3f800000]⟩], .standard⟩

theorem runs_refused (reset : Bool) : ∃ summary st,
    (run embeddingOn noteTree [] refuser readNothing { reset }).result oldStore =
      (.ok summary, st) ∧
    st.store.entries = if reset then [] else oldStore.entries := by
  have hsorted : oldStore.entries.Sorted := List.pairwise_singleton _ _
  obtain ⟨n, cleared, hclear, hforgets⟩ := clear_forgets (S := Memory) reset
    (Chunk.ofArtifacts .standard readNothing [note]) hsorted (.inr ⟨_, rfl⟩)
  obtain ⟨embedded, skipped, hsupply⟩ := supply_refused (e := refuser)
    embeddingOn.embedding (by decide) (fun _ _ => rfl) (by decide +kernel)
    (Chunk.ofArtifacts .standard readNothing [note])
  obtain ⟨summary, st, hrun, _, hstore⟩ := run_of_steps embeddingOn
    (o := { reset }) rfl scan_note hclear hsupply
  refine ⟨summary, st, hrun, ?_⟩
  have hentries : st.store.entries = (items oldStore).filter fun x =>
      !forgotten reset oldStore (Chunk.ofArtifacts .standard readNothing [note]) (path x) := by
    rw [hstore]
    exact hforgets.items
  rw [hentries]
  cases reset with
  | true => rfl
  | false =>
    refine List.filter_eq_self.2 ?_
    intro x _
    rw [forgotten_settled]
    · rfl
    · intro y hy
      rw [ofArtifacts_note_ids]
      obtain rfl := List.mem_singleton.1 hy
      exact List.mem_singleton.2 rfl

/-- Two runs over the same tree, one of which removes all that is stored first, leave the same
behind exactly if nothing lingers; the other one leaves what lingers in addition. -/
theorem reset_agrees_iff {S : Type} [Store S] [KeyedStore S] {settings : Settings}
    {files : FileTree} {here : FilePath} {e : Embedder} {reader : Source.Reader} {s : S}
    {summary₁ summary₂ : IndexSummary} {st₁ st₂ : IndexState S} (hs : Sound s)
    (hreset : (run settings files here e reader { reset := true }).result s =
      (.ok summary₁, st₁))
    (hkeep : (run settings files here e reader { reset := false }).result s =
      (.ok summary₂, st₂)) :
    ∃ scan written embedded skipped, Scan.ofTree files here settings.index = .ok scan ∧
      let fresh := Chunk.ofArtifacts settings.chunking reader scan.artifacts
      supply settings.embedding e fresh = .ok (written, embedded, skipped) ∧
      (∀ x, x ∈ items st₁.store ↔ x ∈ itemsOf s written.pairs) ∧
      (∀ x, x ∈ items st₂.store ↔
        x ∈ itemsOf s written.pairs ∨ Lingers s fresh written.pairs x) ∧
      ((items st₂.store).Perm (items st₁.store) ↔ ∀ x, ¬Lingers s fresh written.pairs x) := by
  obtain ⟨scan, hscan, cleared₁, written, h₁⟩ := run_updates rfl hreset
  obtain ⟨scan', hscan', cleared₂, written', h₂⟩ := run_updates rfl hkeep
  -- Both runs find the same artifacts and send the same texts, so both write the same.
  have hsame := hscan.symm.trans hscan'
  cases hsame
  have hsupply := h₁.supplies.symm.trans h₂.supplies
  obtain ⟨rfl, _⟩ := Prod.mk.inj (Except.ok.inj hsupply)
  have hids := Chunk.ofArtifacts_ids settings.chunking reader scan.artifacts
  have hmem₁ := h₁.mem_after_reset hs hids
  have hmem₂ := h₂.mem_after_incremental hs hids
  refine ⟨scan, written, _, _, hscan, h₁.supplies, hmem₁, hmem₂, ?_⟩
  constructor
  · intro hperm x hx
    exact hx.not_written ((hmem₁ x).1 (hperm.mem_iff.1 ((hmem₂ x).2 (.inr hx))))
  · intro hnone
    refine items_perm (h₂.sound hs) (h₁.sound hs) fun x => ?_
    rw [hmem₁, hmem₂]
    exact ⟨fun hx => hx.resolve_right (hnone x), .inl⟩

theorem reset_agrees_iff_note : Sound oldStore ∧ ∃ summary₁ summary₂ st₁ st₂,
    (run embeddingOn noteTree [] refuser readNothing { reset := true }).result oldStore =
      (.ok summary₁, st₁) ∧
    (run embeddingOn noteTree [] refuser readNothing { reset := false }).result oldStore =
      (.ok summary₂, st₂) ∧
    ∃ (written : Written) (x : Entry),
      Lingers oldStore (Chunk.ofArtifacts .standard readNothing [note]) written.pairs x := by
  obtain ⟨summary₁, st₁, hreset, hempty⟩ := runs_refused true
  obtain ⟨summary₂, st₂, hkeep, hold⟩ := runs_refused false
  have hsound : Sound oldStore := List.pairwise_singleton _ _
  refine ⟨hsound, summary₁, summary₂, st₁, st₂, hreset, hkeep, ?_⟩
  obtain ⟨scan, written, _, _, hscan, _, _, _, hiff⟩ := reset_agrees_iff hsound hreset hkeep
  have hsame := hscan.symm.trans scan_note
  cases hsame
  refine ⟨written, not_forall_not.1 fun hnone => ?_⟩
  have hperm : st₂.store.entries.Perm st₁.store.entries := hiff.2 hnone
  rw [hempty, hold] at hperm
  exact absurd hperm.length_eq (by decide)

/-- Indexing anew and indexing further do not always leave the same behind. -/
theorem not_reset_agrees : ¬∀ (settings : Settings) (files : FileTree) (here : FilePath)
    (e : Embedder) (reader : Source.Reader) (m : Memory) (summary₁ summary₂ : IndexSummary)
    (st₁ st₂ : IndexState Memory), m.entries.Sorted → settings.embedding.isEnabled = true →
    (run settings files here e reader { reset := true }).result m = (.ok summary₁, st₁) →
    (run settings files here e reader { reset := false }).result m = (.ok summary₂, st₂) →
    st₂.store.entries.Perm st₁.store.entries := by
  intro hclaim
  obtain ⟨summary₁, st₁, hreset, hempty⟩ := runs_refused true
  obtain ⟨summary₂, st₂, hkeep, hold⟩ := runs_refused false
  have hperm := hclaim _ _ _ _ _ oldStore _ _ _ _ (List.pairwise_singleton _ _) (by decide)
    hreset hkeep
  rw [hempty, hold] at hperm
  exact absurd hperm.length_eq (by decide)

end CodeRetrieval.Index
