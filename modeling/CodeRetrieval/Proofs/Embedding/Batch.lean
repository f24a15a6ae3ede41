import CodeRetrieval.Proofs.Embedding.Plan

set_option autoImplicit false

namespace CodeRetrieval

namespace Slot

def index : Slot → Nat
  | .filled i _ => i
  | .skipped text => text.index

theorem vectorAt_eq_some {i : Nat} {slot : Slot} {v : Embedding} :
    slot.vectorAt i = some v ↔ slot = .filled i v := by
  cases slot with
  | filled j w =>
    simp only [vectorAt, filled.injEq]
    split
    · rename_i hj
      simp [hj]
    · rename_i hj
      simp [hj]
  | skipped text => simp [vectorAt]

theorem isSome_vectorAt {i : Nat} {slot : Slot} :
    (slot.vectorAt i).isSome = true ↔ slot.skip? = none ∧ slot.index = i := by
  cases slot with
  | filled j v => by_cases hj : j = i <;> simp [vectorAt, skip?, index, hj]
  | skipped text => simp [vectorAt, skip?]

theorem length_filled_add_skipped (slots : List Slot) :
    (slots.filter fun slot => slot.skip?.isNone).length + (slots.filterMap skip?).length =
      slots.length := by
  induction slots with
  | nil => rfl
  | cons slot slots ih =>
    cases slot with
    | filled j v =>
      rw [List.filter_cons_of_pos (by rfl), List.filterMap_cons_none (by rfl), List.length_cons,
        List.length_cons]
      omega
    | skipped text =>
      have hskip : (skipped text).skip? = some text := rfl
      rw [List.filter_cons_of_neg (by simp [hskip]), List.filterMap_cons_some hskip,
        List.length_cons, List.length_cons]
      omega

end Slot

theorem embed_log (e : Embedder) (log : CallLog) (text : String) :
    (e.embed log text).2 = log ++ [[text]] := by
  simp only [Embedder.embed, Embedder.call]
  cases e.embedTexts log.length [text] <;> rfl

theorem embedSingly_indices (e : Embedder) (limits : BatchLimits) (log : CallLog)
    (batch : List (Nat × String)) :
    (embedSingly e limits log batch).1.map Slot.index = batch.map (·.1) := by
  induction batch generalizing log with
  | nil => rfl
  | cons text batch ih =>
    obtain ⟨i, text⟩ := text
    rcases h : e.embed log text with ⟨answer, log'⟩
    simp only [embedSingly, h, List.map_cons, ih]
    cases answer <;> rfl

/-- The service does not take a call for the length of its texts. -/
def Embedder.Refuses (e : Embedder) (n : Nat) (texts : List String) : Prop :=
  ∃ f, e.embedTexts n texts = .error f ∧ f.isTokenLimit = true

/-- A batch is answered by one call with a vector for each text, or text by text once that call has
been refused. -/
theorem embedOne_ok {e : Embedder} {limits : BatchLimits} {log log' : CallLog}
    {batch : List (Nat × String)} {slots : List Slot}
    (h : embedOne e limits log batch = (.ok slots, log')) :
    (∃ vectors, e.embedTexts log.length (batch.map (·.2)) = .ok vectors ∧
      vectors.length = batch.length ∧ log' = log ++ [batch.map (·.2)] ∧
      slots = (batch.zip vectors).map fun (t, v) => .filled t.1 v) ∨
    e.Refuses log.length (batch.map (·.2)) ∧
      (slots, log') = embedSingly e limits (log ++ [batch.map (·.2)]) batch := by
  simp only [embedOne, Embedder.call] at h
  cases hcall : e.embedTexts log.length (batch.map (·.2)) with
  | ok vectors =>
    simp only [hcall] at h
    by_cases hlength : vectors.length = batch.length
    · rw [if_pos hlength] at h
      cases h
      exact .inl ⟨vectors, rfl, hlength, rfl, rfl⟩
    · rw [if_neg hlength] at h
      cases h
  | error f =>
    simp only [hcall] at h
    by_cases hlimit : f.isTokenLimit = true
    · rw [if_pos hlimit] at h
      cases h
      exact .inr ⟨⟨f, hcall, hlimit⟩, rfl⟩
    · rw [if_neg hlimit] at h
      cases h

theorem embedOne_indices {e : Embedder} {limits : BatchLimits} {log log' : CallLog}
    {batch : List (Nat × String)} {slots : List Slot}
    (h : embedOne e limits log batch = (.ok slots, log')) :
    slots.map Slot.index = batch.map (·.1) := by
  rcases embedOne_ok h with ⟨vectors, _, hlength, _, rfl⟩ | ⟨_, hsingly⟩
  · have hzip : (batch.zip vectors).map (·.1) = batch := List.map_fst_zip (by omega)
    calc ((batch.zip vectors).map fun x => Slot.filled x.1.1 x.2).map Slot.index =
        ((batch.zip vectors).map (·.1)).map (·.1) := by
          rw [List.map_map, List.map_map]
          rfl
      _ = batch.map (·.1) := by rw [hzip]
  · rw [(Prod.mk.inj hsingly).1]
    exact embedSingly_indices e limits _ batch

theorem embedAll_cons_ok {e : Embedder} {limits : BatchLimits} {log log' : CallLog}
    {batch : List (Nat × String)} {batches : List (List (Nat × String))} {slots : List Slot}
    (h : embedAll e limits log (batch :: batches) = (.ok slots, log')) :
    ∃ first called more, embedOne e limits log batch = (.ok first, called) ∧
      embedAll e limits called batches = (.ok more, log') ∧ slots = first ++ more := by
  unfold embedAll at h
  rcases hone : embedOne e limits log batch with ⟨answer, called⟩
  rw [hone] at h
  cases answer with
  | error f => cases h
  | ok first =>
    rcases hall : embedAll e limits called batches with ⟨answers, logged⟩
    simp only [hall] at h
    cases answers with
    | error f => cases h
    | ok more =>
      cases h
      exact ⟨first, called, more, rfl, hall, rfl⟩

theorem embedAll_indices {e : Embedder} {limits : BatchLimits} {log log' : CallLog}
    {batches : List (List (Nat × String))} {slots : List Slot}
    (h : embedAll e limits log batches = (.ok slots, log')) :
    slots.map Slot.index = batches.flatten.map (·.1) := by
  induction batches generalizing log slots with
  | nil =>
    cases h
    rfl
  | cons batch batches ih =>
    obtain ⟨first, called, more, hone, hall, rfl⟩ := embedAll_cons_ok h
    rw [List.map_append, List.flatten_cons, List.map_append, embedOne_indices hone, ih hall]

theorem pick_indices (texts : List String) (indices : List Nat) :
    (pick texts indices).map (·.1) = indices := by
  rw [pick, List.map_map]
  exact List.map_id indices

theorem flatten_pick (texts : List String) (batches : List (List Nat)) :
    (batches.map (pick texts)).flatten = pick texts batches.flatten := by
  induction batches with
  | nil => rfl
  | cons batch batches ih =>
    rw [List.map_cons, List.flatten_cons, ih, List.flatten_cons, pick, pick, pick, List.map_append]

theorem slots_indices {e : Embedder} {texts : List String} {limits : BatchLimits}
    {log log' : CallLog} {slots : List Slot}
    (h : embedAll e limits log ((planBatches texts limits).batches.map (pick texts)) =
      (.ok slots, log')) :
    slots.map Slot.index = (planBatches texts limits).batches.flatten := by
  rw [embedAll_indices h, flatten_pick, pick_indices]

theorem vectorAt_of_index {slots : List Slot} (h : slots.filterMap Slot.skip? = []) {i : Nat}
    (hi : i ∈ slots.map Slot.index) : (slots.findSome? (Slot.vectorAt i)).isSome = true := by
  obtain ⟨slot, hslot, rfl⟩ := List.mem_map.1 hi
  rw [List.findSome?_isSome_iff]
  cases slot with
  | filled j v => exact ⟨_, hslot, by simp [Slot.vectorAt, Slot.index]⟩
  | skipped text =>
    have hnone := List.filterMap_eq_nil_iff.1 h _ hslot
    simp [Slot.skip?] at hnone

def skippedOf (texts : List String) (limits : BatchLimits) (slots : List Slot) :
    List SkippedText :=
  (pick texts (planBatches texts limits).oversize).map (fun (i, t) => oversizeText limits i t) ++
    slots.filterMap Slot.skip?

theorem length_skippedOf (texts : List String) (limits : BatchLimits) (slots : List Slot) :
    (skippedOf texts limits slots).length =
      (planBatches texts limits).oversize.length + (slots.filterMap Slot.skip?).length := by
  simp [skippedOf, pick]

theorem embedBatch_ok {e : Embedder} {texts : List String} {limits : BatchLimits}
    {log log' : CallLog} {b : BatchEmbedding}
    (h : embedBatch e texts limits log = (.ok b, log')) :
    ∃ slots, embedAll e limits log ((planBatches texts limits).batches.map (pick texts)) =
        (.ok slots, log') ∧
      b.vectors = (List.range texts.length).map (fun i => slots.findSome? (Slot.vectorAt i)) ∧
      b.skipped = (skippedOf texts limits slots).mergeSort fun s t => s.index ≤ t.index := by
  simp only [embedBatch] at h
  rcases hall : embedAll e limits log ((planBatches texts limits).batches.map (pick texts)) with
    ⟨answer, called⟩
  rw [hall] at h
  cases answer with
  | error f => cases h
  | ok slots =>
    cases h
    exact ⟨slots, rfl, rfl, rfl⟩

theorem length_vectors {e : Embedder} {texts : List String} {limits : BatchLimits}
    {log log' : CallLog} {b : BatchEmbedding}
    (h : embedBatch e texts limits log = (.ok b, log')) : b.vectors.length = texts.length := by
  obtain ⟨slots, _, hvectors, _⟩ := embedBatch_ok h
  rw [hvectors, List.length_map, List.length_range]

theorem all_embedded {e : Embedder} {texts : List String} {limits : BatchLimits}
    {log log' : CallLog} {b : BatchEmbedding}
    (h : embedBatch e texts limits log = (.ok b, log')) (hnone : b.skipped.length = 0) :
    ∀ v ∈ b.vectors, v.isSome = true := by
  obtain ⟨slots, hall, hvectors, hskipped⟩ := embedBatch_ok h
  rw [hskipped, List.length_mergeSort, length_skippedOf] at hnone
  have hslots : slots.filterMap Slot.skip? = [] := List.length_eq_zero_iff.1 (by omega)
  have hoversize : (planBatches texts limits).oversize = [] :=
    List.length_eq_zero_iff.1 (by omega)
  have hperm := planBatches_perm texts limits
  rw [hoversize, List.append_nil] at hperm
  rw [hvectors, List.forall_mem_map]
  intro i hi
  refine vectorAt_of_index hslots ?_
  rw [slots_indices hall]
  exact hperm.mem_iff.2 hi

theorem filled_perm {e : Embedder} {texts : List String} {limits : BatchLimits}
    {log log' : CallLog} {slots : List Slot}
    (h : embedAll e limits log ((planBatches texts limits).batches.map (pick texts)) =
      (.ok slots, log')) :
    ((List.range texts.length).filter fun i => (slots.findSome? (Slot.vectorAt i)).isSome).Perm
      ((slots.filter fun slot => slot.skip?.isNone).map Slot.index) := by
  have hindices := slots_indices h
  have hnodup : ((slots.filter fun slot => slot.skip?.isNone).map Slot.index).Nodup := by
    refine List.Nodup.sublist (List.filter_sublist.map _) ?_
    exact hindices ▸ nodup_batches texts limits
  refine (List.perm_ext_iff_of_nodup (List.nodup_range.filter _) hnodup).2 fun i => ?_
  simp only [List.mem_filter, List.findSome?_isSome_iff, Slot.isSome_vectorAt, List.mem_map,
    Option.isNone_iff_eq_none]
  constructor
  · intro hparts
    obtain ⟨_, slot, hslot, hnone, hindex⟩ := hparts
    exact ⟨slot, ⟨hslot, hnone⟩, hindex⟩
  · intro hparts
    obtain ⟨slot, ⟨hslot, hnone⟩, hindex⟩ := hparts
    refine ⟨(planBatches_perm texts limits).mem_iff.1 (List.mem_append_left _ ?_), slot, hslot,
      hnone, hindex⟩
    rw [← hindices]
    exact List.mem_map.2 ⟨slot, hslot, hindex⟩

theorem embedBatch_counts {e : Embedder} {texts : List String} {limits : BatchLimits}
    {log log' : CallLog} {b : BatchEmbedding}
    (h : embedBatch e texts limits log = (.ok b, log')) :
    b.embeddedCount + b.skipped.length = texts.length := by
  obtain ⟨slots, hall, hvectors, hskipped⟩ := embedBatch_ok h
  have hfilled := (filled_perm hall).length_eq
  have hslots := Slot.length_filled_add_skipped slots
  have hsent := congrArg List.length (slots_indices hall)
  have htexts := (planBatches_perm texts limits).length_eq
  simp only [List.length_append, List.length_range, List.length_map] at hfilled hsent htexts
  rw [BatchEmbedding.embeddedCount, hvectors, List.filter_map, List.length_map, hskipped,
    List.length_mergeSort, length_skippedOf]
  simp only [Function.comp_def, hfilled]
  omega

theorem embedBatch_failed {e : Embedder} {f : Failure}
    (hfails : ∀ n texts, e.embedTexts n texts = .error f) (hother : f.isTokenLimit = false)
    {texts : List String} {limits : BatchLimits}
    (hsome : (planBatches texts limits).batches ≠ []) (log : CallLog) :
    ∃ log', embedBatch e texts limits log = (.error f, log') := by
  obtain ⟨batch, batches, hbatches⟩ := List.exists_cons_of_ne_nil hsome
  have hone : embedOne e limits log (pick texts batch) =
      (.error f, log ++ [(pick texts batch).map (·.2)]) := by
    simp only [embedOne, Embedder.call, hfails, hother, Bool.false_eq_true, if_false]
  refine ⟨log ++ [(pick texts batch).map (·.2)], ?_⟩
  simp only [embedBatch, hbatches, List.map_cons, embedAll, hone]

section Refusal

variable {e : Embedder} {f : Failure}

theorem embedSingly_refused (hrefuses : ∀ n texts, e.embedTexts n texts = .error f)
    (limits : BatchLimits) (log : CallLog) (batch : List (Nat × String)) :
    ∀ slot ∈ (embedSingly e limits log batch).1, ∃ text, slot = .skipped text := by
  induction batch generalizing log with
  | nil => exact fun _ h => nomatch h
  | cons text batch ih =>
    obtain ⟨i, text⟩ := text
    have hcall : e.embed log text = (.error f, log ++ [[text]]) := by
      simp only [Embedder.embed, Embedder.call, hrefuses]
    simp only [embedSingly, hcall, List.forall_mem_cons]
    exact ⟨⟨_, rfl⟩, ih _⟩

theorem embedAll_refused (hrefuses : ∀ n texts, e.embedTexts n texts = .error f)
    (hlimit : f.isTokenLimit = true) (limits : BatchLimits) (log : CallLog)
    (batches : List (List (Nat × String))) :
    ∃ slots log', embedAll e limits log batches = (.ok slots, log') ∧
      ∀ slot ∈ slots, ∃ text, slot = .skipped text := by
  induction batches generalizing log with
  | nil => exact ⟨[], log, rfl, fun _ h => nomatch h⟩
  | cons batch batches ih =>
    have hone : embedOne e limits log batch =
        (.ok (embedSingly e limits (log ++ [batch.map (·.2)]) batch).1,
          (embedSingly e limits (log ++ [batch.map (·.2)]) batch).2) := by
      simp only [embedOne, Embedder.call, hrefuses, hlimit, if_true]
    obtain ⟨slots, log', hall, hskipped⟩ := ih
      (embedSingly e limits (log ++ [batch.map (·.2)]) batch).2
    refine ⟨(embedSingly e limits (log ++ [batch.map (·.2)]) batch).1 ++ slots, log', ?_, ?_⟩
    · simp only [embedAll, hone, hall]
    · intro slot hslot
      obtain hslot | hslot := List.mem_append.1 hslot
      · exact embedSingly_refused hrefuses limits _ batch slot hslot
      · exact hskipped slot hslot

/-- A service that finds every text too long is no failure, but leaves no text with a vector. -/
theorem embedBatch_refused (hrefuses : ∀ n texts, e.embedTexts n texts = .error f)
    (hlimit : f.isTokenLimit = true) (texts : List String) (limits : BatchLimits)
    (log : CallLog) :
    ∃ b log', embedBatch e texts limits log = (.ok b, log') ∧ ∀ v ∈ b.vectors, v = none := by
  obtain ⟨slots, log', hall, hskipped⟩ := embedAll_refused hrefuses hlimit limits log
    ((planBatches texts limits).batches.map (pick texts))
  simp only [embedBatch, hall]
  refine ⟨_, log', rfl, ?_⟩
  intro v hv
  obtain ⟨i, _, rfl⟩ := List.mem_map.1 hv
  rw [List.findSome?_eq_none_iff]
  intro slot hslot
  obtain ⟨text, rfl⟩ := hskipped slot hslot
  rfl

end Refusal

end CodeRetrieval
