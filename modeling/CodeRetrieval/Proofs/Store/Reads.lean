import CodeRetrieval.Proofs.Store.Agreement

set_option autoImplicit false

namespace CodeRetrieval

theorem nodup_keys_filterMap {α β γ : Type} {f : α → Option β} {before : α → γ} {after : β → γ}
    (keeps : ∀ x y, f x = some y → after y = before x) {xs : List α}
    (h : (xs.map before).Nodup) : ((xs.filterMap f).map after).Nodup := by
  have hsub : ((xs.filterMap f).map after).Sublist (xs.map before) := by
    clear h
    induction xs with
    | nil => exact List.Sublist.refl _
    | cons x xs ih =>
      cases hx : f x with
      | none =>
        rw [List.filterMap_cons_none hx]
        exact ih.cons _
      | some y =>
        rw [List.filterMap_cons_some hx, List.map_cons, List.map_cons, keeps x y hx]
        exact ih.cons_cons _
  exact h.sublist hsub

namespace Row

theorem passes_eq {r : Row} (h : r.Faithful) (flt : Filter) :
    r.passes flt = flt.accepts r.fragment := by
  obtain ⟨kind, language⟩ := flt
  have hkind : ∀ k : FragmentKind, (k.name == r.kind) = (r.fragment.kind == k) := by
    intro k
    rw [h.kind, Bool.eq_iff_iff, beq_iff_eq, beq_iff_eq]
    exact ⟨fun heq => (FragmentKind.name_inj heq).symm, fun heq => heq ▸ rfl⟩
  simp only [passes, Filter.accepts, hkind]
  rfl

theorem mapM_toFragment {rows : List Row} (h : ∀ r ∈ rows, r.Faithful) :
    rows.mapM toFragment = .ok (rows.map fragment) :=
  Outcome.mapM_of_ok fun r hr => (h r hr).reads

theorem map_sortById (rows : List Row) :
    (rows.mergeSort fun a b => a.id ≤ b.id).map fragment =
      (rows.map fragment).mergeSort fun a b => a.id ≤ b.id :=
  List.map_mergeSort fun _ _ _ _ => rfl

theorem map_sortByLine {rows : List Row} (h : ∀ r ∈ rows, r.Faithful) :
    (rows.mergeSort fun a b => a.startLine ≤ b.startLine).map fragment =
      (rows.map fragment).mergeSort fun a b => a.startLine ≤ b.startLine := by
  refine List.map_mergeSort ?_
  intro a ha b hb
  rw [(h a ha).startLine, (h b hb).startLine]
  simp only [Int.ofNat_le]

theorem map_listing {rows : List Row} (h : ∀ r ∈ rows, r.Faithful) :
    (listing rows).map fragment = Entries.listing (rows.map fragment) := by
  unfold listing Entries.listing
  rw [← map_sortByLine h, List.map_mergeSort, List.map_mergeSort, List.map_mergeSort]
  all_goals exact fun a _ b _ => rfl

end Row

def Table.near (t : Table) (query : Embedding) (flt : Filter) (floor : Float32) :
    List (Row × Float) :=
  (t.rows.filter (Row.passes flt)).filterMap fun r =>
    (t.vectorOf? r.id).bind fun v =>
      if floor ≤ Embedding.cosine query v then some (r, (Embedding.cosine query v).toFloat)
      else none

namespace Entries

def near (es : Entries) (query : Embedding) (flt : Filter) (floor : Float32) :
    List (Ranked Float) :=
  (es.filter (flt.accepts ·.fragment)).filterMap fun e =>
    e.vector.bind (similar? query floor e.fragment)

theorem near_ids {es : Entries} (query : Embedding) (flt : Filter) (floor : Float32)
    (h : (es.map (·.fragment.id)).Nodup) :
    ((es.near query flt floor).map (·.fragment.id)).Nodup := by
  have hfiltered : ((es.filter (flt.accepts ·.fragment)).map (·.fragment.id)).Nodup :=
    h.sublist (List.filter_sublist.map _)
  refine nodup_keys_filterMap ?_ hfiltered
  intro e r he
  obtain ⟨v, _, he⟩ := Option.bind_eq_some_iff.1 he
  rw [fragment_of_similar? he]

end Entries

namespace Agree

variable {m : Memory} {t : Table}

theorem contents_fragments (t : Table) : t.contents.fragments = t.rows.map Row.fragment := by
  simp only [Entries.fragments, Table.contents, Table.items, List.map_map]
  rfl

theorem contents_nodup (h : Agree m t) : (t.contents.map (·.fragment.id)).Nodup := by
  rw [contents_ids]
  exact h.sound.ids

theorem fragments_perm (h : Agree m t) : (t.rows.map Row.fragment).Perm m.entries.fragments := by
  rw [← contents_fragments]
  exact h.contents_perm.map _

theorem filter_perm (h : Agree m t) {p : Row → Bool} {q : Fragment → Bool}
    (hpq : ∀ r ∈ t.rows, p r = q r.fragment) :
    ((t.rows.filter p).map Row.fragment).Perm (m.entries.fragments.filter q) := by
  have hfilter : (t.rows.filter p).map Row.fragment = (t.rows.map Row.fragment).filter q := by
    rw [List.filter_map, List.filter_congr hpq]
    rfl
  rw [hfilter]
  exact h.fragments_perm.filter q

theorem fragments_ids (h : Agree m t) : (m.entries.fragments.map (·.id)).Nodup :=
  h.sorted.fragments_ids

theorem count_eq (h : Agree m t) : Store.count m = Store.count t := by
  have hlen := h.contents_perm.length_eq
  simp only [Table.contents, Table.items, List.length_map] at hlen
  exact hlen.symm

theorem near_mem {query : Embedding} {flt : Filter} {floor : Float32} {x : Row × Float}
    (hx : x ∈ t.near query flt floor) : x.1 ∈ t.rows := by
  obtain ⟨r, hr, hx⟩ := List.mem_filterMap.1 hx
  obtain ⟨v, _, hx⟩ := Option.bind_eq_some_iff.1 hx
  by_cases hfloor : floor ≤ Embedding.cosine query v
  · rw [if_pos hfloor] at hx
    cases hx
    exact (List.mem_filter.1 hr).1
  · rw [if_neg hfloor] at hx
    contradiction

/-- The rows near a vector stand for the entries near it. -/
theorem near_eq (h : Agree m t) (query : Embedding) (flt : Filter) (floor : Float32) :
    (t.near query flt floor).map (fun x => ⟨x.1.fragment, x.2⟩) =
      t.contents.near query flt floor := by
  have hpass : t.rows.filter (Row.passes flt) = t.rows.filter fun r => flt.accepts r.fragment :=
    List.filter_congr fun r hr => Row.passes_eq (h.faithful r hr) flt
  rw [Table.near, hpass, List.map_filterMap, Entries.near, Table.contents, Table.items,
    List.map_map, List.filter_map, List.filterMap_map]
  refine congrFun (congrArg List.filterMap ?_) _
  funext r
  simp only [Function.comp_apply]
  cases t.vectorOf? r.id with
  | none => rfl
  | some v =>
    simp only [Option.bind_some, Entries.similar?]
    split <;> rfl

theorem search_eq (h : Agree m t) (query : Embedding) (topK : Nat) (flt : Filter)
    (floor : Float32) :
    Store.search t query topK flt floor = Store.search m query topK flt floor := by
  have hread : (t.near query flt floor).mapM
      (fun x => do return (⟨← x.1.toFragment, x.2⟩ : Ranked Float)) =
        .ok (t.contents.near query flt floor) := by
    rw [← h.near_eq]
    refine Outcome.mapM_of_ok ?_
    intro x hx
    simp only [(h.faithful x.1 (near_mem hx)).reads]
    rfl
  have hperm : (t.contents.near query flt floor).Perm (m.entries.near query flt floor) :=
    (h.contents_perm.filter _).filterMap _
  have hids := Entries.near_ids query flt floor h.contents_nodup
  calc Store.search t query topK flt floor
      = (t.near query flt floor).mapM
          (fun x => do return (⟨← x.1.toFragment, x.2⟩ : Ranked Float)) >>=
            fun results => .ok (rank topK results) := rfl
    _ = .ok (rank topK (t.contents.near query flt floor)) := by rw [hread, Outcome.ok_bind]
    _ = Store.search m query topK flt floor :=
      congrArg Except.ok (rank_eq_of_perm topK hperm hids)

theorem fragmentsOf_eq (h : Agree m t) (name : String) :
    Store.fragmentsOf t name = Store.fragmentsOf m name := by
  have hperm := h.filter_perm (p := fun r => r.entityName == some name)
    (q := fun f => f.entityName == some name) fun _ _ => rfl
  have hsorted : (m.entries.fragments.filter (·.entityName == some name)).Pairwise
      fun a b => decide (a.id ≤ b.id) = true := by
    refine List.Pairwise.filter _ (h.sorted.fragments.imp ?_)
    intro a b hlt
    exact decide_eq_true (String.not_lt.1 fun hgt => String.lt_irrefl _ (String.lt_trans hlt hgt))
  have hids : ∀ a ∈ (t.rows.filter (·.entityName == some name)).map Row.fragment,
      ∀ b ∈ (t.rows.filter (·.entityName == some name)).map Row.fragment,
        decide (a.id ≤ b.id) = true → decide (b.id ≤ a.id) = true → a = b := by
    intro a ha b hb hab hba
    have ha := List.mem_of_mem_filter (hperm.mem_iff.1 ha)
    have hb := List.mem_of_mem_filter (hperm.mem_iff.1 hb)
    simp only [decide_eq_true_eq] at hab hba
    exact List.inj_on_of_nodup_map h.fragments_ids ha hb (String.le_antisymm hab hba)
  -- The rows come in any order. By id they are in that of the entries, and the sort is stable.
  have hbyId : ((t.rows.filter (·.entityName == some name)).mergeSort
      fun a b => a.id ≤ b.id).map Row.fragment =
        m.entries.fragments.filter (·.entityName == some name) := by
    rw [Row.map_sortById]
    exact (mergeSort_eq_of_perm (SortOrder.text.on Fragment.id) hperm hids).trans
      (List.mergeSort_of_pairwise hsorted)
  have hfaithful : ∀ r ∈ (t.rows.filter (·.entityName == some name)).mergeSort
      fun a b => a.id ≤ b.id, r.Faithful := by
    intro r hr
    exact h.faithful r (List.mem_of_mem_filter (List.mem_mergeSort.1 hr))
  simp only [Store.fragmentsOf, Table.fragmentsOf, Entries.fragmentsOf]
  rw [Row.mapM_toFragment fun r hr => hfaithful r (List.mem_mergeSort.1 hr),
    Row.map_sortByLine hfaithful, hbyId]

/-- A listing has the same fragments on both stores, in the order of their keys. -/
theorem listAll_agree (h : Agree m t) (flt : Filter) :
    ∃ fs gs, Store.listAll m flt = .ok fs ∧ Store.listAll t flt = .ok gs ∧ gs.Perm fs ∧
      ((fs.map (·.listingKey)).Nodup → gs = fs) := by
  have hfaithful : ∀ r ∈ t.rows.filter (Row.passes flt), r.Faithful :=
    fun r hr => h.faithful r (List.mem_of_mem_filter hr)
  have hperm := h.filter_perm fun r hr => Row.passes_eq (h.faithful r hr) flt
  refine ⟨m.entries.listAll flt,
    Entries.listing ((t.rows.filter (Row.passes flt)).map Row.fragment), rfl, ?_, ?_, ?_⟩
  · simp only [Store.listAll, Table.listAll]
    rw [Row.mapM_toFragment fun r hr => hfaithful r ((Row.listing_perm _).mem_iff.1 hr),
      Row.map_listing hfaithful]
  · exact (Entries.listing_perm _).trans (hperm.trans (Entries.listing_perm _).symm)
  · intro hkeys
    refine (Entries.listing_eq_of_perm hperm.symm ?_).symm
    exact ((Entries.listing_perm _).map _).nodup_iff.1 hkeys

end Agree

end CodeRetrieval
