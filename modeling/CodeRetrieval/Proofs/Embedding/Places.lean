import CodeRetrieval.Proofs.Embedding.Batch

/-!
Whose vector a text gets. Every text that is sent has a place of its own among the calls of the
service, and where it gets a vector it is the one that the service gave at that place; grouping,
sending again one by one and putting the answers back by index change nothing about that.
-/

set_option autoImplicit false

namespace CodeRetrieval

def Embedder.OnePerText (e : Embedder) : Prop :=
  ∀ n texts vectors, e.embedTexts n texts = .ok vectors → vectors.length = texts.length

/-- The vector that a service gave for a text at a place of its calls, which is a call and a
position in it. -/
def Answered (e : Embedder) (log : CallLog) (place : Nat × Nat) (text : String) (v : Embedding) :
    Prop :=
  ∃ texts vectors, log[place.1]? = some texts ∧ e.embedTexts place.1 texts = .ok vectors ∧
    texts[place.2]? = some text ∧ vectors[place.2]? = some v

/-- A text that was sent, the slot it got and its place. -/
structure Sent where
  index : Nat
  text : String
  slot : Slot
  place : Nat × Nat

/-- What is known of texts sent between two states of the log: each has its own place in between,
and a vector in its slot is the answer at that place. -/
structure Traced (e : Embedder) (log log' : CallLog) (batch : List (Nat × String))
    (slots : List Slot) (rows : List Sent) : Prop where
  texts : rows.map (fun r => (r.index, r.text)) = batch
  slots : rows.map (·.slot) = slots
  longer : log <+: log'
  places : (rows.map (·.place)).Nodup
  within : ∀ r ∈ rows, log.length ≤ r.place.1 ∧ r.place.1 < log'.length
  answered : ∀ r ∈ rows, ∀ i v, r.slot = .filled i v →
    i = r.index ∧ Answered e log' r.place r.text v

theorem Answered.mono {e : Embedder} {log log' : CallLog} {place : Nat × Nat} {text : String}
    {v : Embedding} (h : Answered e log place text v) (hlonger : log <+: log') :
    Answered e log' place text v := by
  obtain ⟨texts, vectors, hcall, hrest⟩ := h
  obtain ⟨more, rfl⟩ := hlonger
  have hlt : place.1 < log.length := (List.getElem?_eq_some_iff.1 hcall).1
  refine ⟨texts, vectors, ?_, hrest⟩
  rw [List.getElem?_append_left hlt, hcall]

namespace Traced

variable {e : Embedder} {log log' log'' : CallLog}

theorem nothing (h : log <+: log') : Traced e log log' [] [] [] where
  texts := rfl
  slots := rfl
  longer := h
  places := List.nodup_nil
  within := fun _ hr => nomatch hr
  answered := fun _ hr => nomatch hr

theorem single {i : Nat} {text : String} {slot : Slot} (hlog : log' = log ++ [[text]])
    (hanswer : ∀ j v, slot = .filled j v → j = i ∧ Answered e log' (log.length, 0) text v) :
    Traced e log log' [(i, text)] [slot] [⟨i, text, slot, (log.length, 0)⟩] where
  texts := rfl
  slots := rfl
  longer := hlog ▸ List.prefix_append ..
  places := List.nodup_singleton _
  within := by simp [hlog]
  answered := by
    intro r hr
    obtain rfl := List.mem_singleton.1 hr
    exact hanswer

theorem append {batch more : List (Nat × String)} {slots slots' : List Slot} {rows rows' : List Sent}
    (h : Traced e log log' batch slots rows) (h' : Traced e log' log'' more slots' rows') :
    Traced e log log'' (batch ++ more) (slots ++ slots') (rows ++ rows') where
  texts := by rw [List.map_append, h.texts, h'.texts]
  slots := by rw [List.map_append, h.slots, h'.slots]
  longer := h.longer.trans h'.longer
  places := by
    rw [List.map_append]
    refine List.nodup_append.2 ⟨h.places, h'.places, ?_⟩
    intro p hp q hq heq
    obtain ⟨r, hr, rfl⟩ := List.mem_map.1 hp
    obtain ⟨r', hr', rfl⟩ := List.mem_map.1 hq
    have hbefore := (h.within r hr).2
    have hafter := (h'.within r' hr').1
    rw [heq] at hbefore
    omega
  within := by
    have hlength := h.longer.length_le
    have hlength' := h'.longer.length_le
    intro r hr
    rcases List.mem_append.1 hr with hr | hr
    · have hplace := h.within r hr
      omega
    · have hplace := h'.within r hr
      omega
  answered := by
    intro r hr i v hslot
    rcases List.mem_append.1 hr with hr | hr
    · obtain ⟨hi, hanswer⟩ := h.answered r hr i v hslot
      exact ⟨hi, hanswer.mono h'.longer⟩
    · exact h'.answered r hr i v hslot

end Traced

section Sending

variable {e : Embedder}

theorem answered_embed (hone : e.OnePerText) {log log' : CallLog} {text : String} {v : Embedding}
    (h : e.embed log text = (.ok v, log')) : Answered e log' (log.length, 0) text v := by
  simp only [Embedder.embed, Embedder.call] at h
  cases hcall : e.embedTexts log.length [text] with
  | error f =>
    rw [hcall] at h
    cases h
  | ok vectors =>
    obtain ⟨w, rfl⟩ := List.length_eq_one_iff.1 (hone _ _ _ hcall)
    rw [hcall] at h
    cases h
    exact ⟨[text], [w], by simp, hcall, rfl, rfl⟩

theorem traced_embedSingly (hone : e.OnePerText) (limits : BatchLimits) (log : CallLog)
    (batch : List (Nat × String)) :
    ∃ rows, Traced e log (embedSingly e limits log batch).2 batch
      (embedSingly e limits log batch).1 rows := by
  induction batch generalizing log with
  | nil => exact ⟨[], .nothing List.prefix_rfl⟩
  | cons text batch ih =>
    obtain ⟨i, text⟩ := text
    rcases hembed : e.embed log text with ⟨answer, log'⟩
    have hlog : log' = log ++ [[text]] := by rw [← embed_log e log text, hembed]
    obtain ⟨rows, hrows⟩ := ih log'
    simp only [embedSingly, hembed]
    cases answer with
    | ok v =>
      have hfirst : Traced e log log' [(i, text)] [.filled i v] _ :=
        .single hlog fun j w hslot => by
          cases hslot
          exact ⟨rfl, answered_embed hone hembed⟩
      exact ⟨_, hfirst.append hrows⟩
    | error f =>
      have hfirst : Traced e log log' [(i, text)] [skipAfter limits i text f] _ :=
        .single hlog fun j w hslot => by cases hslot
      exact ⟨_, hfirst.append hrows⟩

variable {limits : BatchLimits}

theorem traced_call {log : CallLog} {batch : List (Nat × String)} {vectors : List Embedding}
    (hcall : e.embedTexts log.length (batch.map (·.2)) = .ok vectors)
    (hlength : vectors.length = batch.length) :
    ∃ rows, Traced e log (log ++ [batch.map (·.2)]) batch
      ((batch.zip vectors).map fun (t, v) => .filled t.1 v) rows := by
  -- The place of a text is this call and the position of the text in it.
  refine ⟨(batch.zip vectors).zipIdx.map fun ((t, v), k) =>
    ⟨t.1, t.2, .filled t.1 v, (log.length, k)⟩, ?_, ?_, List.prefix_append .., ?_, ?_, ?_⟩
  · have htexts : ((batch.zip vectors).zipIdx.map (·.1)).map (·.1) = batch := by
      rw [List.zipIdx_map_fst, List.map_fst_zip (by omega)]
    simpa only [List.map_map, Function.comp_def] using htexts
  · have hslots := congrArg (List.map fun x : (Nat × String) × Embedding => Slot.filled x.1.1 x.2)
      (List.zipIdx_map_fst 0 (batch.zip vectors))
    simpa only [List.map_map, Function.comp_def] using hslots
  · have hpositions : ((batch.zip vectors).zipIdx.map (·.2)).Nodup := by
      rw [List.zipIdx_map_snd, ← List.range_eq_range']
      exact List.nodup_range
    have hplaces := hpositions.map (f := fun k => (log.length, k))
      fun _ _ heq => (Prod.mk.inj heq).2
    simpa only [List.map_map, Function.comp_def] using hplaces
  · intro r hr
    obtain ⟨x, _, rfl⟩ := List.mem_map.1 hr
    simp
  · intro r hr i v hslot
    obtain ⟨⟨⟨t, w⟩, k⟩, hx, rfl⟩ := List.mem_map.1 hr
    cases hslot
    have hk := List.mem_zipIdx_iff_getElem?.1 hx
    obtain ⟨htext, hvector⟩ := List.getElem?_zip_eq_some.1 hk
    refine ⟨rfl, batch.map (·.2), vectors, by simp, hcall, ?_, hvector⟩
    rw [List.getElem?_map, htext]
    rfl

theorem traced_embedOne (hone : e.OnePerText) {log log' : CallLog} {batch : List (Nat × String)}
    {slots : List Slot} (h : embedOne e limits log batch = (.ok slots, log')) :
    ∃ rows, Traced e log log' batch slots rows := by
  rcases embedOne_ok h with ⟨vectors, hcall, hlength, rfl, rfl⟩ | ⟨_, hsingly⟩
  · exact traced_call hcall hlength
  · -- The refused call is a place of no text.
    have hrefused : Traced e log (log ++ [batch.map (·.2)]) [] [] [] :=
      .nothing (List.prefix_append ..)
    obtain ⟨rows, hrows⟩ := traced_embedSingly hone limits (log ++ [batch.map (·.2)]) batch
    rw [← hsingly] at hrows
    exact ⟨_, hrefused.append hrows⟩

theorem traced_embedAll (hone : e.OnePerText) {log log' : CallLog}
    {batches : List (List (Nat × String))} {slots : List Slot}
    (h : embedAll e limits log batches = (.ok slots, log')) :
    ∃ rows, Traced e log log' batches.flatten slots rows := by
  induction batches generalizing log slots with
  | nil =>
    cases h
    exact ⟨[], .nothing List.prefix_rfl⟩
  | cons batch batches ih =>
    obtain ⟨first, called, more, hfirst, hall, rfl⟩ := embedAll_cons_ok h
    obtain ⟨rows, hrows⟩ := traced_embedOne hone hfirst
    obtain ⟨rows', hrows'⟩ := ih hall
    exact ⟨_, hrows.append hrows'⟩

end Sending

section Rows

variable {e : Embedder} {log log' : CallLog} {batch : List (Nat × String)} {slots : List Slot}
  {rows : List Sent}

theorem Traced.exists_row (h : Traced e log log' batch slots rows) {i : Nat} {v : Embedding}
    (hv : slots.findSome? (Slot.vectorAt i) = some v) :
    ∃ r ∈ rows, r.index = i ∧ Answered e log' r.place r.text v := by
  obtain ⟨slot, hslot, hvector⟩ := List.exists_of_findSome?_eq_some hv
  rw [← h.slots] at hslot
  obtain ⟨r, hr, rfl⟩ := List.mem_map.1 hslot
  obtain ⟨rfl, hanswer⟩ := h.answered r hr i v (Slot.vectorAt_eq_some.1 hvector)
  exact ⟨r, hr, rfl, hanswer⟩

def placeOf (rows : List Sent) (i : Nat) : Nat × Nat :=
  ((rows.find? (·.index == i)).map (·.place)).getD (0, 0)

theorem placeOf_index (h : (rows.map (·.index)).Nodup) {r : Sent} (hr : r ∈ rows) :
    placeOf rows r.index = r.place := by
  have hfound : (rows.find? (·.index == r.index)).isSome = true :=
    List.find?_isSome.2 ⟨r, hr, by simp⟩
  obtain ⟨r', hr'⟩ := Option.isSome_iff_exists.1 hfound
  have hindex : r'.index = r.index := by simpa using List.find?_some hr'
  have hsame := List.inj_on_of_nodup_map h (List.mem_of_find?_eq_some hr') hr hindex
  rw [placeOf, hr', hsame]
  rfl

end Rows

/-- Where a text of a batch gets a vector, it is the one that the service gave for it at a place
that no other text of the batch has. -/
theorem embedBatch_answered {e : Embedder} (hone : e.OnePerText) {texts : List String}
    {limits : BatchLimits} {log log' : CallLog} {b : BatchEmbedding}
    (h : embedBatch e texts limits log = (.ok b, log')) : ∃ place : Nat → Nat × Nat,
      (∀ i v, b.vectors[i]? = some (some v) →
        ∃ text, texts[i]? = some text ∧ Answered e log' (place i) text v) ∧
      ∀ i j v w, b.vectors[i]? = some (some v) → b.vectors[j]? = some (some w) →
        place i = place j → i = j := by
  obtain ⟨slots, hall, hvectors, _⟩ := embedBatch_ok h
  obtain ⟨rows, hrows⟩ := traced_embedAll hone hall
  have hpicked := hrows.texts
  rw [flatten_pick] at hpicked
  have hindices : (rows.map (·.index)).Nodup := by
    have hfirst := congrArg (List.map (·.1)) hpicked
    rw [pick_indices, List.map_map] at hfirst
    exact hfirst ▸ nodup_batches texts limits
  -- A row stands under the index of its text, because plans only hold indices of texts.
  have hrow : ∀ i v, b.vectors[i]? = some (some v) →
      ∃ r ∈ rows, r.index = i ∧ texts[i]? = some r.text ∧ Answered e log' r.place r.text v := by
    intro i v hv
    obtain ⟨hlt, hv⟩ := List.getElem?_eq_some_iff.1 hv
    simp only [hvectors, List.length_map, List.length_range, List.getElem_map,
      List.getElem_range] at hlt hv
    obtain ⟨r, hr, rfl, hanswer⟩ := hrows.exists_row hv
    have hpick : (r.index, r.text) ∈ pick texts (planBatches texts limits).batches.flatten :=
      hpicked ▸ List.mem_map.2 ⟨r, hr, rfl⟩
    obtain ⟨k, _, hsame⟩ := List.mem_map.1 hpick
    obtain ⟨rfl, htext⟩ := Prod.mk.inj hsame
    refine ⟨r, hr, rfl, ?_, hanswer⟩
    rw [← htext, List.getD_eq_getElem?_getD, List.getElem?_eq_getElem hlt]
    rfl
  refine ⟨placeOf rows, ?_, ?_⟩
  · intro i v hv
    obtain ⟨r, hr, rfl, htext, hanswer⟩ := hrow i v hv
    exact ⟨r.text, htext, placeOf_index hindices hr ▸ hanswer⟩
  · intro i j v w hi hj hsame
    obtain ⟨r, hr, rfl, _⟩ := hrow i v hi
    obtain ⟨r', hr', rfl, _⟩ := hrow j w hj
    rw [placeOf_index hindices hr, placeOf_index hindices hr'] at hsame
    rw [List.inj_on_of_nodup_map hrows.places hr hr' hsame]

end CodeRetrieval
