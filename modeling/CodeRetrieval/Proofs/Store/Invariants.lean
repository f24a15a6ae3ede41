import CodeRetrieval.Proofs.Store.Refinement

set_option autoImplicit false

namespace CodeRetrieval

def StoreOp.writes : StoreOp → List Upserted
  | .upsert fragments vectors => (pairVectors fragments vectors).toOption.getD []
  | .deletePath _ | .deletePathLead _ => []

/-- The last that was written under an id. -/
def lastWritten? (written : List Upserted) (id : String) : Option Upserted :=
  written.reverse.find? (·.1.id == id)

theorem lastWritten?_append (written : List Upserted) (p : Upserted) (id : String) :
    lastWritten? (written ++ [p]) id =
      if p.1.id = id then some p else lastWritten? written id := by
  by_cases h : p.1.id = id <;> simp [lastWritten?, h]

namespace KeyedStore

variable {S : Type} [Store S] [KeyedStore S] {s : S} {written : List Upserted}

/-- Every item is what became of the last that was written under its id. -/
def Remembers (s : S) (written : List Upserted) : Prop :=
  ∀ x ∈ items s, ∃ w p, lastWritten? written (key x) = some p ∧ x = item w p

theorem remembers_put (p : Upserted) (hs : Sound s) (h : Remembers s written) :
    Remembers (put s p) (written ++ [p]) := by
  intro x hx
  obtain rfl | ⟨hx, hne⟩ := (mem_put p x hs).1 hx
  · exact ⟨setting s, p, by rw [lastWritten?_append, key_item, if_pos rfl], rfl⟩
  · obtain ⟨w, q, hq, rfl⟩ := h x hx
    exact ⟨w, q, by rw [lastWritten?_append, if_neg (Ne.symm hne), hq], rfl⟩

theorem remembers_puts (ps : List Upserted) (hs : Sound s) (h : Remembers s written) :
    Remembers (puts s ps) (written ++ ps) := by
  induction ps generalizing s written with
  | nil => simpa using h
  | cons p ps ih => simpa using ih (sound_put p hs) (remembers_put p hs h)

theorem remembers_drop (gone : String → Bool) (hs : Sound s) (h : Remembers s written) :
    Remembers (drop s gone) written := by
  intro x hx
  rw [items_drop gone hs] at hx
  exact h x (List.mem_of_mem_filter hx)

theorem remembers_step (op : StoreOp) (hs : Sound s) (h : Remembers s written) :
    Remembers (op.step s).2 (written ++ op.writes) := by
  cases op with
  | upsert fs vs =>
    cases hp : pairVectors fs vs with
    | ok ps =>
      rw [step_upsert_ok s hp, StoreOp.writes, hp]
      exact remembers_puts ps hs h
    | error f =>
      rw [step_upsert_error s hp, StoreOp.writes, hp]
      simpa [Except.toOption] using h
  | deletePath file =>
    rw [step_deletePath, StoreOp.writes, List.append_nil]
    exact remembers_drop _ hs h
  | deletePathLead lead =>
    rw [step_deletePathLead, StoreOp.writes, List.append_nil]
    exact remembers_drop _ hs h

theorem remembers_history {tick : Int → S → S} (htick : ∀ time s, Sound s → Sound (tick time s))
    (hitems : ∀ time s, items (tick time s) = items s) (ops : List (Int × StoreOp)) (hs : Sound s)
    (h : Remembers s written) :
    Remembers (history tick s ops).2 (written ++ ops.flatMap (·.2.writes)) := by
  induction ops generalizing s written with
  | nil => simpa [history] using h
  | cons op ops ih =>
    have hnow : Remembers (tick op.1 s) written := by rwa [Remembers, hitems]
    have hstep := remembers_step op.2 (htick op.1 s hs) hnow
    have hrest := ih (sound_step op.2 (htick op.1 s hs)) hstep
    simpa [history, List.append_assoc] using hrest

end KeyedStore

namespace Table

variable {t : Table}

theorem files_le (t : Table) : t.stats.files ≤ t.stats.totalUnits := by
  have hsub : (distinct (t.rows.map (·.filePath))).Sublist (t.rows.map (·.filePath)) :=
    distinctFrom_sublist [] _
  have hle := hsub.length_le
  rwa [List.length_map] at hle

theorem embedded_le (h : t.Sound) : t.stats.embedded ≤ t.stats.totalUnits := calc
  t.stats.embedded ≤ t.vectors.length := List.length_filter_le ..
  _ = (t.rows.filter fun r => (t.vectorOf? r.id).isSome).length := length_vectors h
  _ ≤ t.stats.totalUnits := List.length_filter_le ..

theorem deleteIf_items (gone : String → Bool) (h : t.Sound) :
    (t.deleteIf fun r => gone r.filePath).1 = t.rows.countP (fun r => gone r.filePath) ∧
      (t.deleteIf fun r => gone r.filePath).2.items =
        t.items.filter fun x => !gone x.1.filePath := by
  refine ⟨?_, items_drop gone h⟩
  rw [deleteIf, List.length_map, List.countP_eq_length_filter]

/-- What is true of the tables, of their counts and of the next change to them, when all that has
been written is known. -/
structure InStep (t : Table) (written : List Upserted) : Prop where
  ids : (t.rows.map (·.id)).Nodup
  vectorIds : (t.vectors.map (·.fragmentId)).Nodup
  owned : ∀ v ∈ t.vectors, ∃ r ∈ t.rows, r.id = v.fragmentId
  lastWritten : ∀ r ∈ t.rows, ∃ p time, lastWritten? written r.id = some p ∧
    r = Row.ofFragment p.1 time ∧ t.vectorOf? r.id = p.2
  total : (Store.stats t).totalUnits = Store.count t
  byLanguage : ((Store.stats t).byLanguage.map (·.2)).sum = Store.count t
  byKind : ((Store.stats t).byKind.map (·.2)).sum = Store.count t
  files : (Store.stats t).files ≤ (Store.stats t).totalUnits
  embedded : (Store.stats t).embedded ≤ (Store.stats t).totalUnits
  deletePath : ∀ path, ∃ rest,
    Store.deletePath t path = .ok (t.rows.countP (·.filePath == path), rest) ∧
      rest.items = t.items.filter (·.1.filePath != path)
  /-- No path counts as starting with a text that has a NUL. -/
  deletePathLead : ∀ lead : String, ∃ rest,
    Store.deletePathLead t lead = .ok (t.rows.countP fun r =>
      decide ('\x00' ∉ lead.toList ∧ lead.toList <+: r.filePath.toList), rest) ∧
      rest.items = t.items.filter fun x =>
        !decide ('\x00' ∉ lead.toList ∧ lead.toList <+: x.1.filePath.toList)
  refused : ∀ (fragments : List Fragment) (vectors : List Embedding),
    vectors.length ≠ fragments.length →
      ∃ f, (StoreOp.upsert fragments (some vectors)).step t = (.error f, t)

theorem inStep (h : t.Sound) {written : List Upserted} (hr : KeyedStore.Remembers t written) :
    t.InStep written where
  ids := h.ids
  vectorIds := h.vectorIds
  owned := h.owned
  lastWritten r hrow := by
    obtain ⟨w, p, hp, heq⟩ := hr (r, t.vectorOf? r.id) (List.mem_map.2 ⟨r, hrow, rfl⟩)
    obtain ⟨hfragment, hvector⟩ := Prod.mk.inj heq
    exact ⟨p, w.2.2, hp, hfragment, hvector⟩
  total := rfl
  byLanguage := (sum_tally _).trans (List.length_map _)
  byKind := (sum_tally _).trans (List.length_map _)
  files := files_le t
  embedded := embedded_le h
  deletePath path := by
    obtain ⟨hcount, hitems⟩ := deleteIf_items (· == path) h
    exact ⟨_, congrArg Except.ok (Prod.ext hcount rfl), hitems⟩
  deletePathLead lead := by
    have hunder : isUnder lead =
        fun path => decide ('\x00' ∉ lead.toList ∧ lead.toList <+: path.toList) := by
      funext path
      rw [Bool.eq_iff_iff, isUnder_iff, decide_eq_true_iff]
    obtain ⟨hcount, hitems⟩ := deleteIf_items (isUnder lead) h
    rw [hunder] at hcount hitems
    refine ⟨_, ?_, hitems⟩
    simp only [Store.deletePathLead, hunder, ← hcount]
  refused fragments vectors hlength := by
    have hpairs : pairVectors fragments (some vectors) = .error _ := if_neg hlength
    exact ⟨_, KeyedStore.step_upsert_error t hpairs⟩

theorem remembers_history (weights : KeywordWeights Float) (model : String)
    (ops : List (Int × StoreOp)) :
    let t := ((empty weights model).history ops).2
    t.Sound ∧ KeyedStore.Remembers t (ops.flatMap (·.2.writes)) := by
  have htick : ∀ time (t : Table), t.Sound → (t.tick time).Sound :=
    fun _ _ h => ⟨h.ids, h.vectorIds, h.owned⟩
  have hempty := sound_empty weights model
  have hnothing : KeyedStore.Remembers (empty weights model) [] := fun _ hx => nomatch hx
  have hremembers := KeyedStore.remembers_history htick (fun _ _ => rfl) ops hempty hnothing
  rw [List.nil_append] at hremembers
  exact ⟨KeyedStore.sound_history (S := Table) htick ops hempty, hremembers⟩

/-- Whatever is written to empty tables and deleted from them, refused upserts included, the tables
stay in step. -/
theorem inStep_history (weights : KeywordWeights Float) (model : String)
    (ops : List (Int × StoreOp)) :
    ((empty weights model).history ops).2.InStep (ops.flatMap (·.2.writes)) := by
  obtain ⟨hsound, hremembers⟩ := remembers_history weights model ops
  exact inStep hsound hremembers

/-- The `length` of a lead that ends with a NUL is short of it by one, so the row stays. -/
theorem deletePathLead_nul :
    let note : Fragment := ⟨"n1", "# Note", "markdown", .proseDocument, "docs\x00/note.md", 1, 1,
      none, none, none, [], []⟩
    let t := ((empty .standard "m").history [(1, .upsert [note] none)]).2
    (Store.deletePathLead t "docs\x00").map (·.1) = .ok 0 ∧
      t.rows.countP (fun r => decide ("docs\x00".toList <+: r.filePath.toList)) = 1 := by
  decide +kernel

end Table

end CodeRetrieval
