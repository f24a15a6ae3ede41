import CodeRetrieval.Proofs.Effects
import CodeRetrieval.Proofs.Embedding.Bytes
import CodeRetrieval.Proofs.Placing
import CodeRetrieval.Proofs.Store.Keyed
import CodeRetrieval.Store.Table
import Mathlib.Data.List.TakeWhile

/-!
The store of two tables. Ids are unique in both tables and every vector belongs to a row; an item
is a row together with its vector as it is read back.
-/

set_option autoImplicit false

namespace CodeRetrieval

namespace Row

theorem toFragment_keys (r : Row) (f : Fragment) (h : r.toFragment = .ok f) :
    (f.id, f.filePath) = (r.id, r.filePath) := by
  unfold toFragment at h
  split at h
  · cases h
  · cases h
  · cases h
    rfl

theorem listing_perm (rows : List Row) : (listing rows).Perm rows :=
  (List.mergeSort_perm ..).trans <| (List.mergeSort_perm ..).trans <|
    (List.mergeSort_perm ..).trans (List.mergeSort_perm ..)

end Row

namespace Table

theorem putRow_eq (r : Row) (rows : List Row) : putRow r rows = replaceBy (·.id) r rows := by
  induction rows with
  | nil => rfl
  | cons x rows ih => simp only [putRow, replaceBy, ih]

theorem putVector_eq (v : VectorRow) (vs : List VectorRow) :
    putVector v vs = replaceBy (·.fragmentId) v vs := by
  induction vs with
  | nil => rfl
  | cons x vs ih => simp only [putVector, replaceBy, ih]

/-- What the tables declare of themselves: one row for an id, one vector for an id, and no vector
without its row. -/
structure Sound (t : Table) : Prop where
  ids : (t.rows.map (·.id)).Nodup
  vectorIds : (t.vectors.map (·.fragmentId)).Nodup
  owned : ∀ v ∈ t.vectors, ∃ r ∈ t.rows, r.id = v.fragmentId

theorem sound_empty (weights : KeywordWeights Float) (model : String) :
    (empty weights model).Sound :=
  ⟨List.nodup_nil, List.nodup_nil, fun _ h => nomatch h⟩

theorem mem_vectors_put {t : Table} (p : Upserted) (h : t.Sound) (v : VectorRow)
    (hv : v ∈ (t.put p.1 p.2).vectors) :
    v.fragmentId = p.1.id ∨ v ∈ t.vectors ∧ v.fragmentId ≠ p.1.id := by
  obtain ⟨f, vector⟩ := p
  cases vector with
  | none =>
    simp only [put, List.mem_filter, bne_iff_ne, ne_eq] at hv
    exact .inr hv
  | some w =>
    simp only [put, putVector_eq] at hv
    obtain rfl | hv := (mem_replaceBy _ v h.vectorIds).1 hv
    · exact .inl rfl
    · exact .inr hv

theorem sound_put {t : Table} (p : Upserted) (h : t.Sound) : (t.put p.1 p.2).Sound where
  ids := by
    simp only [put, putRow_eq]
    exact nodup_replaceBy _ h.ids
  vectorIds := by
    obtain ⟨f, vector⟩ := p
    cases vector with
    | none =>
      simp only [put]
      exact h.vectorIds.sublist (List.filter_sublist.map _)
    | some w =>
      simp only [put, putVector_eq]
      exact nodup_replaceBy _ h.vectorIds
  owned v hv := by
    simp only [put, putRow_eq]
    obtain hid | ⟨hv, hid⟩ := mem_vectors_put p h v hv
    · exact ⟨_, (mem_replaceBy _ _ h.ids).2 (.inl rfl), hid.symm⟩
    · obtain ⟨r, hr, heq⟩ := h.owned v hv
      exact ⟨r, (mem_replaceBy _ _ h.ids).2 (.inr ⟨hr, heq ▸ hid⟩), heq⟩

theorem vectorOf?_put (t : Table) (p : Upserted) (id : String) :
    (t.put p.1 p.2).vectorOf? id = if p.1.id = id then p.2 else t.vectorOf? id := by
  obtain ⟨f, vector⟩ := p
  cases vector with
  | none =>
    simp only [vectorOf?, put]
    by_cases h : f.id = id
    · have hnone : (t.vectors.filter (·.fragmentId != f.id)).find? (·.fragmentId == id) = none := by
        simp only [List.find?_eq_none, List.mem_filter]
        intro v hparts
        obtain ⟨_, hv⟩ := hparts
        simpa [h] using hv
      rw [if_pos h, hnone]
      rfl
    · rw [if_neg h, List.find?_filter]
      congr 2
      funext v
      by_cases hv : v.fragmentId = id
      · simp [hv, Ne.symm h]
      · simp [hv]
  | some w =>
    simp only [vectorOf?, put, putVector_eq, find?_replaceBy]
    by_cases h : f.id = id
    · simp [h, Embedding.ofBytes_toBytes]
    · simp [h]

def items (t : Table) : List (Row × Option Embedding) := t.rows.map fun r => (r, t.vectorOf? r.id)

theorem mem_items_put {t : Table} (p : Upserted) (x : Row × Option Embedding) (h : t.Sound) :
    x ∈ (t.put p.1 p.2).items ↔
      x = (Row.ofFragment p.1 t.clock, p.2) ∨ x ∈ t.items ∧ x.1.id ≠ p.1.id := by
  obtain ⟨r, v⟩ := x
  have hrow : r ∈ (t.put p.1 p.2).rows ↔
      r = Row.ofFragment p.1 t.clock ∨ r ∈ t.rows ∧ r.id ≠ p.1.id := by
    simp only [put, putRow_eq]
    exact mem_replaceBy _ r h.ids
  simp only [items, List.mem_map, Prod.mk.injEq, vectorOf?_put]
  constructor
  · intro hparts
    obtain ⟨r', hr, rfl, rfl⟩ := hparts
    obtain rfl | ⟨hr, hne⟩ := hrow.1 hr
    · exact .inl ⟨rfl, if_pos rfl⟩
    · exact .inr ⟨⟨r', hr, rfl, (if_neg (Ne.symm hne)).symm⟩, hne⟩
  · intro hcases
    rcases hcases with ⟨rfl, rfl⟩ | ⟨⟨r', hr, rfl, rfl⟩, hne⟩
    · exact ⟨_, hrow.2 (.inl rfl), rfl, if_pos rfl⟩
    · exact ⟨r', hrow.2 (.inr ⟨hr, hne⟩), rfl, if_neg (Ne.symm hne)⟩

def drop (t : Table) (gone : String → Bool) : Table := (t.deleteIf fun r => gone r.filePath).2

theorem mem_removed (t : Table) (gone : String → Bool) (id : String) :
    ((t.rows.filter fun r => gone r.filePath).map (·.id)).contains id = true ↔
      ∃ r ∈ t.rows, gone r.filePath = true ∧ r.id = id := by
  simp [and_assoc]

theorem mem_vectors_drop {t : Table} (gone : String → Bool) (v : VectorRow)
    (hv : v ∈ (t.drop gone).vectors) :
    v ∈ t.vectors ∧ ∀ r ∈ t.rows, r.id = v.fragmentId → gone r.filePath = false := by
  obtain ⟨hv, hout⟩ := List.mem_filter.1 hv
  refine ⟨hv, ?_⟩
  intro r hr hid
  cases hgone : gone r.filePath with
  | false => rfl
  | true =>
    have hin := (mem_removed t gone v.fragmentId).2 ⟨r, hr, hgone, hid⟩
    simp only [hin, Bool.not_true] at hout
    contradiction

theorem sound_drop {t : Table} (gone : String → Bool) (h : t.Sound) : (t.drop gone).Sound where
  ids := h.ids.sublist (List.filter_sublist.map _)
  vectorIds := h.vectorIds.sublist (List.filter_sublist.map _)
  owned v hv := by
    obtain ⟨hv, hkept⟩ := mem_vectors_drop gone v hv
    obtain ⟨r, hr, hid⟩ := h.owned v hv
    exact ⟨r, List.mem_filter.2 ⟨hr, by simp [hkept r hr hid]⟩, hid⟩

theorem items_drop {t : Table} (gone : String → Bool) (h : t.Sound) :
    (t.drop gone).items = t.items.filter fun x => !gone x.1.filePath := by
  simp only [items, List.filter_map, Function.comp_def]
  refine List.map_congr_left ?_
  intro r hr
  obtain ⟨hr, hkept⟩ := List.mem_filter.1 hr
  -- No row that goes has the id of one that stays, so the vector of that one stays too.
  have hout : ((t.rows.filter fun r => gone r.filePath).map (·.id)).contains r.id = false := by
    rw [← Bool.not_eq_true, mem_removed]
    intro hparts
    obtain ⟨r', hr', hgone, hid⟩ := hparts
    have heq := List.inj_on_of_nodup_map h.ids hr' hr hid
    simp [heq] at hgone
    simp [hgone] at hkept
  simp only [Prod.mk.injEq, true_and, vectorOf?, drop, deleteIf, List.find?_filter]
  congr 2
  funext v
  by_cases hv : v.fragmentId = r.id
  · simp only [hv, hout, Bool.not_false, true_and, Bool.decide_eq_true]
  · simp [hv]

theorem countP_items (t : Table) (gone : String → Bool) :
    t.items.countP (fun x => gone x.1.filePath) =
      ((t.rows.filter fun r => gone r.filePath).map (·.id)).length := by
  rw [items, List.countP_map, List.length_map, List.countP_eq_length_filter]
  rfl

theorem sqlLength_eq_iff {s : String} : sqlLength s = s.length ↔ '\x00' ∉ s.toList := by
  have hall : s.toList.takeWhile (· != '\x00') = s.toList ↔ '\x00' ∉ s.toList := by
    rw [List.takeWhile_eq_self_iff]
    simp only [bne_iff_ne, ne_eq]
    exact ⟨fun h hmem => h _ hmem rfl, fun h c hc heq => h (heq ▸ hc)⟩
  rw [sqlLength, ← String.length_toList, ← hall]
  exact ⟨(List.takeWhile_prefix _).eq_of_length, congrArg List.length⟩

/-- A text with a NUL is longer than its `length`, so no path starts with it. -/
theorem isUnder_iff (lead path : String) :
    isUnder lead path = true ↔ '\x00' ∉ lead.toList ∧ lead.toList <+: path.toList := by
  rw [isUnder, beq_iff_eq, Text.take, ← String.toList_inj, String.toList_ofList]
  constructor
  · intro htake
    have hlead : lead.toList <+: path.toList := htake ▸ List.take_prefix _ _
    have hge := congrArg List.length htake
    have hle := (List.takeWhile_prefix (l := lead.toList) (· != '\x00')).length_le
    simp only [List.length_take, String.length_toList] at hge hle
    exact ⟨sqlLength_eq_iff.1 (by unfold sqlLength at hge ⊢; omega), hlead⟩
  · rintro ⟨hnul, hlead⟩
    rw [sqlLength_eq_iff.2 hnul, ← String.length_toList]
    exact (List.prefix_iff_eq_take.1 hlead).symm

instance : KeyedStore Table where
  Item := Row × Option Embedding
  Setting := KeywordWeights Float × String × Int
  items := items
  setting t := (t.weights, t.model, t.clock)
  key x := x.1.id
  path x := x.1.filePath
  isUnder := isUnder
  item w p := (Row.ofFragment p.1 w.2.2, p.2)
  Sound := Sound
  put t p := t.put p.1 p.2
  drop := drop
  key_item _ _ := rfl
  path_item _ _ := rfl
  keys_nodup h := by
    simp only [items, List.map_map]
    exact h.ids
  sound_put := sound_put
  sound_drop := sound_drop
  setting_put _ _ := rfl
  setting_drop _ _ := rfl
  mem_put := mem_items_put
  items_drop := items_drop
  upsert_eq _ _ _ := rfl
  deletePath_eq t file := by
    rw [countP_items t (· == file)]
    rfl
  deletePathLead_eq t lead := by
    rw [countP_items t (isUnder lead)]
    rfl
  isUnder_empty file := (isUnder_iff "" file).2 ⟨List.not_mem_nil, List.nil_prefix⟩
  listAll_keys := by
    intro t fs h
    have hall : t.rows.filter (Row.passes {}) = t.rows := by
      simp [List.filter_eq_self, Row.passes]
    change (Row.listing (t.rows.filter (Row.passes {}))).mapM Row.toFragment = .ok fs at h
    rw [hall] at h
    rw [Outcome.map_of_mapM_ok Row.toFragment_keys h]
    simpa only [items, List.map_map, Function.comp_def] using
      (Row.listing_perm t.rows).map fun r => (r.id, r.filePath)

end Table

end CodeRetrieval
