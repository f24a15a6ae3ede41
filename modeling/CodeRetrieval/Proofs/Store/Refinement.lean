import CodeRetrieval.Proofs.Distinct
import CodeRetrieval.Proofs.Store.Keywords
import CodeRetrieval.Proofs.Store.Tally

set_option autoImplicit false

namespace CodeRetrieval

namespace Table

theorem isSome_vectorOf? (t : Table) (id : String) :
    (t.vectorOf? id).isSome = true ↔ id ∈ t.vectors.map (·.fragmentId) := by
  simp [vectorOf?]

theorem length_vectors {t : Table} (h : t.Sound) :
    t.vectors.length = (t.rows.filter fun r => (t.vectorOf? r.id).isSome).length := by
  have hids : ((t.rows.filter fun r => (t.vectorOf? r.id).isSome).map (·.id)).Nodup :=
    h.ids.sublist (List.filter_sublist.map _)
  have hperm : (t.vectors.map (·.fragmentId)).Perm
      ((t.rows.filter fun r => (t.vectorOf? r.id).isSome).map (·.id)) := by
    refine (List.perm_ext_iff_of_nodup h.vectorIds hids).2 ?_
    intro id
    simp only [List.mem_map (f := Row.id), List.mem_filter, isSome_vectorOf?]
    constructor
    · intro hid
      obtain ⟨v, hv, heq⟩ := List.mem_map.1 hid
      obtain ⟨r, hr, hrow⟩ := h.owned v hv
      have heq : r.id = id := hrow.trans heq
      exact ⟨r, ⟨hr, heq ▸ hid⟩, heq⟩
    · intro hparts
      obtain ⟨r, ⟨_, hid⟩, rfl⟩ := hparts
      exact hid
  simpa only [List.length_map] using hperm.length_eq

end Table

namespace Agree

variable {m : Memory} {t : Table}

theorem kinds_eq (h : Agree m t) :
    t.rows.map (·.kind) = (t.rows.map Row.fragment).map (·.kind.name) := by
  rw [List.map_map]
  exact List.map_congr_left fun r hr => (h.faithful r hr).kind

theorem embedded_eq (h : Agree m t) :
    (m.entries.filter (·.vector.isSome)).length =
      (t.vectors.filter fun v => t.rows.any (·.id == v.fragmentId)).length := by
  have howned : ∀ v ∈ t.vectors, t.rows.any (·.id == v.fragmentId) = true := by
    intro v hv
    obtain ⟨r, hr, hid⟩ := h.sound.owned v hv
    exact List.any_eq_true.2 ⟨r, hr, by simpa using hid⟩
  have hcontents : (t.contents.filter (·.vector.isSome)).length =
      (t.rows.filter fun r => (t.vectorOf? r.id).isSome).length := by
    simp only [Table.contents, Table.items, List.map_map, List.filter_map, List.length_map]
    rfl
  rw [List.filter_eq_self.2 howned, Table.length_vectors h.sound, ← hcontents]
  exact (h.contents_perm.filter _).length_eq.symm

theorem stats_eq (h : Agree m t) : Store.stats m = Store.stats t := by
  have hperm := h.fragments_perm.symm
  have hlanguages : tally (m.entries.fragments.map (·.language)) =
      tally (t.rows.map (·.language)) := by
    rw [tally_eq_of_perm (hperm.map _), List.map_map]
    rfl
  have hkinds : tally (m.entries.fragments.map (·.kind.name)) = tally (t.rows.map (·.kind)) := by
    rw [tally_eq_of_perm (hperm.map _), h.kinds_eq]
  have hfiles : (distinct (m.entries.fragments.map (·.filePath))).length =
      (distinct (t.rows.map (·.filePath))).length := by
    rw [length_distinct_of_perm (hperm.map _), List.map_map]
    rfl
  have hcount : m.entries.length = t.rows.length := h.count_eq
  simp only [Store.stats, Entries.stats, Table.stats, hlanguages, hkinds, hfiles, hcount,
    h.embedded_eq]

end Agree

/-- What the two stores answer alike. -/
structure SameAnswers (m : Memory) (t : Table) : Prop where
  count : Store.count m = Store.count t
  stats : Store.stats m = Store.stats t
  search : ∀ query topK flt floor,
    Store.search m query topK flt floor = Store.search t query topK flt floor
  fragmentsOf : ∀ name, Store.fragmentsOf m name = Store.fragmentsOf t name
  /-- The same fragments, and in the same order where no two have the same key. -/
  listAll : ∀ flt, ∃ fs gs, Store.listAll m flt = .ok fs ∧ Store.listAll t flt = .ok gs ∧
    gs.Perm fs ∧ ((fs.map (·.listingKey)).Nodup → gs = fs)
  /-- The tables find no others, and the same where all is ASCII. -/
  keywordSearch : ∀ terms topK flt, ∃ rs qs, Store.keywordSearch m terms topK flt = .ok rs ∧
    Store.keywordSearch t terms topK flt = .ok qs ∧
    (Store.count m ≤ topK → ∀ q ∈ qs, q ∈ rs) ∧
    ((∀ f ∈ m.entries.fragments, f.IsAscii) → (∀ u ∈ terms, Text.IsAscii u) → qs = rs)

theorem Agree.sameAnswers {m : Memory} {t : Table} (h : Agree m t) : SameAnswers m t where
  count := h.count_eq
  stats := h.stats_eq
  search query topK flt floor := (h.search_eq query topK flt floor).symm
  fragmentsOf name := (h.fragmentsOf_eq name).symm
  listAll := h.listAll_agree
  keywordSearch := h.keywordSearch_agree

/-- After the same changes to two empty stores every change has answered alike, and so do the
stores from then on. -/
theorem table_refines_memory (weights : KeywordWeights Float) (model : String)
    (ops : List (Int × StoreOp)) (hops : ∀ op ∈ ops, op.2.Storable) :
    ((Memory.empty weights).history ops).1 = ((Table.empty weights model).history ops).1 ∧
      SameAnswers ((Memory.empty weights).history ops).2
        ((Table.empty weights model).history ops).2 := by
  obtain ⟨hanswers, hagree⟩ := (Agree.empty weights model).history ops hops
  exact ⟨hanswers, hagree.sameAnswers⟩

theorem table_refines_memory_note :
    let note : Fragment := ⟨"n1", "# Note", "markdown", .proseDocument, "docs/note.md", 1, 1,
      none, none, none, ["Order"], [("document_name", .str "note")]⟩
    let guide : Fragment := { note with id := "n2", filePath := "guide.md" }
    let ops : List (Int × StoreOp) := [(1, .upsert [note, guide] (some [[0x3f800000], [0]])),
      (2, .upsert [{ note with content := "# Notes" }] none), (3, .upsert [] (some [[]])),
      (4, .deletePathLead "docs/")]
    let m := (Memory.empty .standard).history ops
    let t := (Table.empty .standard "m").history ops
    (∀ op ∈ ops, op.2.Storable) ∧ m.1 = t.1 ∧ SameAnswers m.2 t.2 ∧
      m.2.entries = [⟨guide, some [0]⟩] := by
  intro note guide ops m t
  have hmetadata : (Json.parse? (Json.obj note.metadata).compact).bind Json.fields? =
      some note.metadata := by decide +kernel
  have hline : 1 < 2 ^ 63 := by decide
  have hnote : ∀ id path content,
      Fragment.Storable { note with id := id, filePath := path, content := content } :=
    fun _ _ _ => ⟨hline, hline, hmetadata⟩
  have hstorable : ∀ op ∈ ops, op.2.Storable := by
    intro op hop
    simp only [ops, List.mem_cons, List.not_mem_nil, or_false] at hop
    obtain rfl | rfl | rfl | rfl := hop
    · exact List.forall_mem_cons.2 ⟨hnote "n1" "docs/note.md" "# Note",
        List.forall_mem_singleton.2 (hnote "n2" "guide.md" "# Note")⟩
    · exact List.forall_mem_singleton.2 (hnote "n1" "docs/note.md" "# Notes")
    · exact fun _ hmem => nomatch hmem
    · change '\x00' ∉ "docs/".toList
      decide
  obtain ⟨hanswers, hsame⟩ := table_refines_memory .standard "m" ops hstorable
  exact ⟨hstorable, hanswers, hsame, by decide +kernel⟩

end CodeRetrieval
