import CodeRetrieval.Proofs.Placing
import CodeRetrieval.Proofs.Sorting
import CodeRetrieval.Proofs.Store.Keyed

set_option autoImplicit false

namespace CodeRetrieval

namespace Entries

abbrev Sorted (es : Entries) : Prop := SortedBy (·.fragment.id) es

theorem insert_eq (e : Entry) (es : Entries) : insert e es = insertBy (·.fragment.id) e es := by
  induction es with
  | nil => rfl
  | cons x es ih => simp only [insert, insertBy, ih]

theorem Sorted.filter {es : Entries} (p : Entry → Bool) (h : Sorted es) : Sorted (es.filter p) :=
  List.Pairwise.filter p h

theorem Sorted.fragments {es : Entries} (h : es.Sorted) :
    es.fragments.Pairwise fun f g => f.id < g.id := List.pairwise_map.2 h

theorem Sorted.fragments_ids {es : Entries} (h : es.Sorted) :
    (es.fragments.map (·.id)).Nodup := by
  simp only [Entries.fragments, List.map_map]
  exact h.keys_nodup

theorem Sorted.filter_ids {es : Entries} (h : es.Sorted) (p : Fragment → Bool) :
    ((es.fragments.filter p).map (·.id)).Nodup :=
  h.fragments_ids.sublist (List.filter_sublist.map _)

theorem Sorted.eq_of_id_eq {es : Entries} (h : es.Sorted) {f g : Fragment}
    (hf : f ∈ es.fragments) (hg : g ∈ es.fragments) (hid : f.id = g.id) : f = g :=
  List.inj_on_of_nodup_map h.fragments_ids hf hg hid

theorem fragment_of_similar? {query : Embedding} {floor : Float32} {f : Fragment} {v : Embedding}
    {r : Ranked Float} (h : similar? query floor f v = some r) : r.fragment = f := by
  simp only [similar?] at h
  by_cases hfloor : floor ≤ Embedding.cosine query v
  · rw [if_pos hfloor] at h
    cases h
    rfl
  · rw [if_neg hfloor] at h
    contradiction

end Entries

namespace Memory

def put (m : Memory) (p : Upserted) : Memory := { m with entries := m.entries.insert ⟨p.1, p.2⟩ }

theorem upsert_eq_puts (m : Memory) (fs : List Fragment) (vs : Option (List Embedding)) :
    m.upsert fs vs = (pairVectors fs vs).map fun ps => (fs.length, ps.foldl put m) := by
  have hwrite : ∀ (ps : List Upserted) (m : Memory),
      { m with entries := m.entries.write ps } = ps.foldl put m := by
    intro ps
    induction ps with
    | nil => intro m; rfl
    | cons p ps ih => intro m; exact ih (m.put p)
  simp only [upsert, hwrite]

def drop (m : Memory) (gone : String → Bool) : Memory :=
  { m with entries := m.entries.filter fun e => !gone e.fragment.filePath }

instance : KeyedStore Memory where
  Item := Entry
  Setting := KeywordWeights Float
  items := Memory.entries
  setting := Memory.weights
  key e := e.fragment.id
  path e := e.fragment.filePath
  isUnder lead path := Text.startsWith path lead
  item _ p := ⟨p.1, p.2⟩
  Sound m := m.entries.Sorted
  put := put
  drop := drop
  key_item _ _ := rfl
  path_item _ _ := rfl
  keys_nodup h := h.keys_nodup
  sound_put p h := by
    simp only [put, Entries.insert_eq]
    exact sorted_insertBy _ h
  sound_drop gone h := h.filter fun e => !gone e.fragment.filePath
  setting_put _ _ := rfl
  setting_drop _ _ := rfl
  mem_put p x h := by
    simp only [put, Entries.insert_eq]
    exact mem_insertBy _ x h
  items_drop _ _ := rfl
  upsert_eq := upsert_eq_puts
  deletePath_eq m file := by
    simp only [Store.deletePath, deleteIf, Entries.deleteIf, List.countP_eq_length_filter]
    rfl
  deletePathLead_eq m lead := by
    simp only [Store.deletePathLead, deleteIf, Entries.deleteIf, List.countP_eq_length_filter]
    rfl
  isUnder_empty _ := by simp [Text.startsWith, Text.Chars.afterLead]
  listAll_keys := by
    intro m fs hok
    cases hok
    have hall : m.entries.fragments.filter ({} : Filter).accepts = m.entries.fragments := by
      simp [List.filter_eq_self, Filter.accepts]
    have hperm := (Entries.listing_perm m.entries.fragments).map fun f => (f.id, f.filePath)
    rw [Entries.listAll, hall]
    simpa only [Entries.fragments, List.map_map, Function.comp_def] using hperm

theorem eq_of_items_perm {m n : Memory} (hm : KeyedStore.Sound m) (hn : KeyedStore.Sound n)
    (hweights : m.weights = n.weights) (h : m.entries.Perm n.entries) : m = n := by
  obtain ⟨es, w⟩ := m
  obtain ⟨fs, v⟩ := n
  have hentries : es = fs := SortedBy.eq_of_perm hm hn h
  subst hentries
  subst hweights
  rfl

end Memory

end CodeRetrieval
