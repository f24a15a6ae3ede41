import CodeRetrieval.Proofs.Embedding.Places
import CodeRetrieval.Proofs.Index.Failure

set_option autoImplicit false

namespace CodeRetrieval.Index

open KeyedStore

theorem mem_withVectors {fragments : List Fragment} {vectors : List (Option Embedding)}
    {p : Fragment × Embedding} : p ∈ withVectors fragments vectors ↔
      ∃ i : Nat, fragments[i]? = some p.1 ∧ vectors[i]? = some (some p.2) := by
  obtain ⟨f, v⟩ := p
  simp only [withVectors, List.mem_filterMap]
  constructor
  · intro hparts
    obtain ⟨⟨g, w⟩, hmem, hsome⟩ := hparts
    obtain ⟨u, rfl, hpair⟩ := Option.map_eq_some_iff.1 hsome
    cases hpair
    obtain ⟨i, hi⟩ := List.getElem?_of_mem hmem
    exact ⟨i, List.getElem?_zip_eq_some.1 hi⟩
  · intro hparts
    obtain ⟨i, hi⟩ := hparts
    exact ⟨(f, some v), List.mem_of_getElem? (List.getElem?_zip_eq_some.2 hi), rfl⟩

theorem length_withVectors {fragments : List Fragment} {vectors : List (Option Embedding)}
    (h : vectors.length = fragments.length) :
    (withVectors fragments vectors).length = (vectors.filter Option.isSome).length := by
  induction fragments generalizing vectors with
  | nil =>
    rw [List.length_eq_zero_iff.1 h]
    rfl
  | cons f fragments ih =>
    cases vectors with
    | nil => cases h
    | cons v vectors =>
      have hrest := ih (Nat.succ.inj h)
      simp only [withVectors] at hrest
      cases v with
      | none => simpa [withVectors] using hrest
      | some v => simp [withVectors, hrest]

variable {es : EmbeddingSettings} {e : Embedder} {fresh : List Fragment}

theorem embedBatch_of_supply {written : Written} {embedded skipped : Nat}
    (hon : es.isEnabled = true) (h : supply es e fresh = .ok (written, embedded, skipped)) :
    ∃ b log, embedBatch e (fresh.map (·.embeddingText)) es.limits [] = (.ok b, log) ∧
      written = .embedded (withVectors fresh b.vectors) ∧ embedded = b.embeddedCount ∧
      skipped = b.skipped.length := by
  rw [supply, if_pos hon] at h
  obtain ⟨b, hbatch, h⟩ := Outcome.map_ok h
  cases h
  exact ⟨b, _, Prod.ext hbatch rfl, rfl, rfl, rfl⟩

theorem write_calls {S : Type} [Store S] {reset : Bool} {counts summary : IndexSummary}
    {s s' : IndexState S} (hon : es.isEnabled = true) (hcalls : s.calls = [])
    (h : outcomeOf (write es e reset fresh counts) s = (.ok summary, s')) :
    s'.calls = (embedBatch e (fresh.map (·.embeddingText)) es.limits []).2 ∧
      summary.units = counts.units := by
  obtain ⟨removed, s₁, hremove, h⟩ := Effect.bind_ok h
  obtain ⟨cleared, _, rfl⟩ := onStore_ok hremove
  obtain ⟨⟨written, embedded, skipped⟩, s₂, hembed, h⟩ := Effect.bind_ok h
  obtain ⟨stored, s₃, hwrite, h⟩ := Effect.bind_ok h
  obtain ⟨after, _, rfl⟩ := onStore_ok hwrite
  cases h
  refine ⟨?_, rfl⟩
  rw [embed, if_pos hon] at hembed
  obtain ⟨batch, s₄, hbatch, hembed⟩ := Effect.bind_ok hembed
  rw [embedBatch_outcome] at hbatch
  cases hembed
  obtain ⟨_, rfl⟩ := Prod.mk.inj hbatch
  simp only [hcalls]

/-- Each fragment with a vector has a place of its own among the calls, and there the service gave
that vector for the text of that fragment. -/
theorem places_of_withVectors (hone : e.OnePerText) {limits : BatchLimits} {log : CallLog}
    {b : BatchEmbedding} (hids : (fresh.map (·.id)).Nodup)
    (h : embedBatch e (fresh.map (·.embeddingText)) limits [] = (.ok b, log)) :
    ∃ place : String → Nat × Nat,
      (∀ p ∈ withVectors fresh b.vectors,
        Answered e log (place p.1.id) p.1.embeddingText p.2) ∧
      ∀ p ∈ withVectors fresh b.vectors, ∀ q ∈ withVectors fresh b.vectors,
        place p.1.id = place q.1.id → p = q := by
  obtain ⟨placeAt, hanswered, hown⟩ := embedBatch_answered hone h
  -- Ids stand for the indices of fragments, as no two fragments share one.
  have hindex : ∀ (i : Nat) (f : Fragment), fresh[i]? = some f →
      (fresh.map (·.id)).idxOf f.id = i := by
    intro i f hi
    have hid : (fresh.map (·.id))[i]? = some f.id := by
      rw [List.getElem?_map, hi]
      rfl
    obtain ⟨hlt, heq⟩ := List.getElem?_eq_some_iff.1 hid
    rw [← heq, hids.idxOf_getElem]
  refine ⟨fun id => placeAt ((fresh.map (·.id)).idxOf id), ?_, ?_⟩
  · intro p hp
    obtain ⟨i, hf, hv⟩ := mem_withVectors.1 hp
    obtain ⟨text, htext, hanswer⟩ := hanswered i p.2 hv
    rw [List.getElem?_map, hf] at htext
    cases htext
    simpa only [hindex i p.1 hf] using hanswer
  · intro p hp q hq hsame
    obtain ⟨i, hf, hv⟩ := mem_withVectors.1 hp
    obtain ⟨j, hg, hw⟩ := mem_withVectors.1 hq
    simp only [hindex i p.1 hf, hindex j q.1 hg] at hsame
    obtain rfl := hown i j p.2 q.2 hv hw hsame
    rw [hf] at hg
    rw [hv] at hw
    exact Prod.ext (Option.some.inj hg) (Option.some.inj (Option.some.inj hw))

/-- A run with embedding stores each fragment that it writes with the vector that the service gave
for its text, at a place among the calls that no other fragment has, however the fragments are
written. Nothing else is new in the store, and every fragment is counted as embedded or skipped. -/
theorem run_stores_vectors {S : Type} [Store S] [KeyedStore S] {settings : Settings}
    {files : FileTree} {here : FilePath} {reader : Source.Reader} {o : IndexOptions} {s : S}
    {summary : IndexSummary} {st : IndexState S} (hs : Sound s) (hone : e.OnePerText)
    (hon : settings.embedding.isEnabled = true) (hdry : o.dryRun = false)
    (hrun : (run settings files here e reader o).result s = (.ok summary, st)) :
    ∃ (scan : Scan) (pairs : List (Fragment × Embedding)) (place : String → Nat × Nat),
      Scan.ofTree files here settings.index = .ok scan ∧
      let fresh := Chunk.ofArtifacts settings.chunking reader scan.artifacts
      (pairs.map (·.1)).Sublist fresh ∧
      (∀ p ∈ pairs, Answered e st.calls (place p.1.id) p.1.embeddingText p.2) ∧
      (∀ p ∈ pairs, ∀ q ∈ pairs, place p.1.id = place q.1.id → p = q) ∧
      (∀ x, x ∈ items st.store ↔ (∃ p ∈ pairs, x = item (setting s) (p.1, some p.2)) ∨
        x ∈ items s ∧ forgotten o.reset s fresh (path x) = false ∧
          key x ∉ pairs.map (·.1.id)) ∧
      summary.stored = pairs.length ∧ summary.stored = summary.embedded ∧
      summary.embedded + summary.embedSkipped = summary.units ∧
      summary.units = fresh.length := by
  obtain ⟨scan, hscan, cleared, written, h⟩ := run_updates hdry hrun
  rw [run_eq_write settings e reader s hdry hscan] at hrun
  obtain ⟨hcalls, hunits⟩ := write_calls hon rfl hrun
  obtain ⟨b, log, hbatch, rfl, hembedded, hskipped⟩ := embedBatch_of_supply hon h.supplies
  have hids := Chunk.ofArtifacts_ids settings.chunking reader scan.artifacts
  obtain ⟨place, hanswered, hown⟩ := places_of_withVectors hone hids hbatch
  rw [hbatch] at hcalls
  have hlength := length_vectors hbatch
  have hcounts := embedBatch_counts hbatch
  rw [List.length_map] at hlength hcounts
  have hwritten := length_withVectors hlength
  have hstored := h.stored
  rw [Written.pairs, List.length_map] at hstored
  have htotal : summary.units =
      (Chunk.ofArtifacts settings.chunking reader scan.artifacts).length := by
    rw [hunits, summaryOf, IndexBuild.fragments_ofArtifacts]
  have hembeddedCount : summary.embedded = (withVectors
      (Chunk.ofArtifacts settings.chunking reader scan.artifacts) b.vectors).length :=
    hembedded.trans hwritten.symm
  refine ⟨scan, withVectors (Chunk.ofArtifacts settings.chunking reader scan.artifacts) b.vectors,
    place, hscan, withVectors_sublist _ _, hcalls ▸ hanswered, hown, ?_, hstored,
    hstored.trans hembeddedCount.symm, ?_, htotal⟩
  · intro x
    rw [h.mem_after hs hids, itemsOf, Written.pairs, List.map_map, List.map_map, List.mem_map]
    simp only [Function.comp_def, eq_comm]
  · rw [hembedded, hskipped, htotal]
    exact hcounts

def shelf : Artifact := ⟨"shelf.md", "# Old\n\nTom.\n\n# New\n\nAnn.\n"⟩

theorem scan_shelf : Scan.ofTree (treeOf shelf) [] .standard = .ok ⟨[shelf], 0⟩ :=
  scan_treeOf (by decide +kernel) (by decide +kernel) (by decide +kernel) (by decide +kernel)

def embeddingShort : Settings :=
  { Settings.standard with
    chunking := { ChunkLimits.standard with minChunkLines := 1, maxChunkLines := 3 }
    embedding := { EmbeddingSettings.standard with provider := "openai", charsPerToken := 0 } }

/-- A service that refuses what was cut short, and knows Tom from the rest. -/
def knowing : Embedder := ⟨"stub", 1, fun _ texts =>
  if texts.any (Text.contains · "truncated") then .error (.plain "maximum context length exceeded")
  else .ok (texts.map fun t => if Text.contains t "Tom" then [0x3f800000] else [0])⟩

def shelfTexts : List String := [
  "Language: markdown\nType: prose_document\nCode:\n# Old\n\n... (truncated)",
  "Language: markdown\nType: prose_section\nCode:\n# Old\n\nTom.",
  "Language: markdown\nType: prose_section\nCode:\n# New\n\nAnn."]

theorem shelf_texts : (Chunk.ofArtifacts embeddingShort.chunking readNothing [shelf]).map
    (·.embeddingText) = shelfTexts := by decide +kernel

theorem embedBatch_shelf : ∃ b log,
    embedBatch knowing shelfTexts embeddingShort.embedding.limits [] = (.ok b, log) ∧
    b.vectors = [none, some [0x3f800000], some [0]] ∧ b.skipped.length = 1 := by
  have hplan : planBatches shelfTexts embeddingShort.embedding.limits = ⟨[[0, 1, 2]], []⟩ := by
    decide +kernel
  rw [embedBatch, hplan]
  exact ⟨_, _, rfl, by decide +kernel, by decide +kernel⟩

theorem knowing_answered {log : CallLog} {place : Nat × Nat} {text : String} {v : Embedding}
    (h : Answered knowing log place text v) : Text.contains text "truncated" = false ∧
      v = if Text.contains text "Tom" then [0x3f800000] else [0] := by
  obtain ⟨texts, vectors, _, hcall, htext, hvector⟩ := h
  simp only [knowing] at hcall
  split at hcall
  · cases hcall
  · next hnone =>
    cases hcall
    have hall : ∀ t ∈ texts, Text.contains t "truncated" = false := by simpa using hnone
    refine ⟨hall text (List.mem_of_getElem? htext), ?_⟩
    rw [List.getElem?_map, htext] at hvector
    exact (Option.some.inj hvector).symm

theorem supply_shelf : ∃ written, supply embeddingShort.embedding knowing
    (Chunk.ofArtifacts embeddingShort.chunking readNothing [shelf]) = .ok (written, 2, 1) := by
  obtain ⟨b, log, hbatch, hvectors, hskipped⟩ := embedBatch_shelf
  rw [← shelf_texts] at hbatch
  have hon : embeddingShort.embedding.isEnabled = true := by decide
  have hcount : b.embeddedCount = 2 := by rw [BatchEmbedding.embeddedCount, hvectors]; rfl
  rw [supply, if_pos hon, hbatch, ← hcount, ← hskipped]
  exact ⟨_, rfl⟩

theorem onePerText_knowing : knowing.OnePerText := by
  intro n texts vectors h
  simp only [knowing] at h
  split at h
  · cases h
  · cases h
    exact List.length_map ..

theorem counts_shelf {S : Type} [Store S] [KeyedStore S] {s : S} {summary : IndexSummary}
    {st : IndexState S}
    (h : (run embeddingShort (treeOf shelf) [] knowing readNothing {}).result s =
      (.ok summary, st)) : summary.embedded = 2 ∧ summary.embedSkipped = 1 := by
  obtain ⟨scan, hscan, cleared, written, hupdates⟩ := run_updates rfl h
  have hsame := hscan.symm.trans scan_shelf
  cases hsame
  obtain ⟨_, hsupply⟩ := supply_shelf
  have hcounts := hupdates.supplies.symm.trans hsupply
  rw [Except.ok.injEq, Prod.mk.injEq, Prod.mk.injEq] at hcounts
  exact hcounts.2

/-- Of the three texts the first one is refused, so two answers are those for the other two. -/
theorem pair_shelf {pairs : List (Fragment × Embedding)} {log : CallLog}
    {place : String → Nat × Nat}
    (htexts : (pairs.map (·.1.embeddingText)).Sublist shelfTexts) (hlength : pairs.length = 2)
    (hanswered : ∀ p ∈ pairs, Answered knowing log (place p.1.id) p.1.embeddingText p.2) :
    ∃ p q, pairs = [p, q] ∧ p.2 = [0x3f800000] ∧ q.2 = [0] := by
  obtain ⟨p, q, rfl⟩ := List.length_eq_two.1 hlength
  obtain ⟨hp, hpvector⟩ := knowing_answered (hanswered p (by simp))
  obtain ⟨_, hqvector⟩ := knowing_answered (hanswered q (by simp))
  have hboth : [p.1.embeddingText, q.1.embeddingText] = shelfTexts.tail := by
    rcases List.sublist_cons_iff.1 htexts with htail | ⟨rest, hhead, _⟩
    · exact htail.eq_of_length rfl
    · have hrefused : Text.contains (shelfTexts.head (by decide)) "truncated" = true := by
        decide +kernel
      have hwhole : p.1.embeddingText = shelfTexts.head (by decide) := (List.cons.inj hhead).1
      rw [hwhole, hrefused] at hp
      cases hp
  obtain ⟨hold, hrest⟩ := List.cons.inj hboth
  have hnew := (List.cons.inj hrest).1
  rw [hold] at hpvector
  rw [hnew] at hqvector
  exact ⟨p, q, rfl, hpvector.trans (by decide +kernel), hqvector.trans (by decide +kernel)⟩

theorem run_stores_vectors_shelf : ∃ summary st,
    (run embeddingShort (treeOf shelf) [] knowing readNothing {}).result (Memory.empty .standard) =
      (.ok summary, st) ∧
    summary.stored = 2 ∧ summary.embedSkipped = 1 ∧
    ∃ x ∈ st.store.entries, ∃ y ∈ st.store.entries,
      x.vector = some [0x3f800000] ∧ y.vector = some [0] ∧
      (∃ place, Answered knowing st.calls place x.fragment.embeddingText [0x3f800000]) ∧
      ∃ place, Answered knowing st.calls place y.fragment.embeddingText [0] := by
  have hsound : Sound (Memory.empty .standard) := List.Pairwise.nil
  have hon : embeddingShort.embedding.isEnabled = true := by decide
  obtain ⟨n, cleared, hclear, _⟩ := clear_forgets (S := Memory) false
    (Chunk.ofArtifacts embeddingShort.chunking readNothing [shelf]) hsound (.inr ⟨_, rfl⟩)
  obtain ⟨written, hsupply⟩ := supply_shelf
  obtain ⟨summary, st, hrun, _, _⟩ :=
    run_of_steps embeddingShort (o := {}) rfl scan_shelf hclear hsupply
  obtain ⟨scan, pairs, place, hscan, hsublist, hanswered, _, hitems, hstored, hall, _, _⟩ :=
    run_stores_vectors hsound onePerText_knowing hon rfl hrun
  have hsame := hscan.symm.trans scan_shelf
  cases hsame
  obtain ⟨hembedded, hskipped⟩ := counts_shelf hrun
  have htexts : (pairs.map (·.1.embeddingText)).Sublist shelfTexts := by
    rw [← shelf_texts, ← Function.comp_def, ← List.map_map]
    exact hsublist.map _
  obtain ⟨p, q, rfl, hp, hq⟩ := pair_shelf htexts (by omega) hanswered
  have hstoredPair : ∀ r ∈ [p, q], (⟨r.1, some r.2⟩ : Entry) ∈ st.store.entries :=
    fun r hr => (hitems _).2 (.inl ⟨r, hr, rfl⟩)
  refine ⟨summary, st, hrun, hall.trans hembedded, hskipped, ⟨p.1, some p.2⟩,
    hstoredPair p (by simp), ⟨q.1, some q.2⟩, hstoredPair q (by simp), congrArg some hp,
    congrArg some hq, ⟨place p.1.id, ?_⟩, ⟨place q.1.id, ?_⟩⟩
  · exact hp ▸ hanswered p (by simp)
  · exact hq ▸ hanswered q (by simp)

end CodeRetrieval.Index
