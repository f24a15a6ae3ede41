import CodeRetrieval.Index.Run
import CodeRetrieval.Proofs.Distinct
import CodeRetrieval.Proofs.Effects
import CodeRetrieval.Proofs.Store.Keyed

set_option autoImplicit false

namespace CodeRetrieval.Index

open KeyedStore

variable {S : Type} [Store S] [KeyedStore S]

/-- The second store is the first one without the items of some files, `n` of them. -/
structure Forgets (gone : String → Bool) (s t : S) (n : Nat) : Prop where
  sound : Sound t
  setting : setting t = setting s
  items : items t = (items s).filter fun x => !gone (path x)
  removed : n = (KeyedStore.items s).countP fun x => gone (path x)

namespace Forgets

variable {s t u : S}

theorem nothing (h : Sound s) : Forgets (fun _ => false) s s 0 where
  sound := h
  setting := rfl
  items := by simp
  removed := by simp

theorem drop (gone : String → Bool) (h : Sound s) :
    Forgets gone s (drop s gone) ((KeyedStore.items s).countP fun x => gone (path x)) where
  sound := sound_drop gone h
  setting := setting_drop s gone
  items := items_drop gone h
  removed := rfl

theorem trans {gone gone' : String → Bool} {n n' : Nat} (h : Forgets gone s t n)
    (h' : Forgets gone' t u n') : Forgets (fun p => gone p || gone' p) s u (n + n') where
  sound := h'.sound
  setting := h'.setting.trans h.setting
  items := by
    rw [h'.items, h.items, List.filter_filter]
    refine List.filter_congr ?_
    intro x _
    cases gone (path x) <;> simp
  removed := by
    rw [h.removed, h'.removed, h.items, List.countP_filter]
    induction KeyedStore.items s with
    | nil => rfl
    | cons x xs ih =>
      simp only [List.countP_cons] at *
      cases gone (path x) <;> cases gone' (path x) <;> simp <;> omega

theorem congr {gone gone' : String → Bool} {n : Nat} (h : Forgets gone s t n)
    (same : ∀ x ∈ KeyedStore.items s, gone (path x) = gone' (path x)) : Forgets gone' s t n where
  sound := h.sound
  setting := h.setting
  items := by
    rw [h.items]
    exact List.filter_congr fun x hx => by rw [same x hx]
  removed := by
    rw [h.removed]
    exact List.countP_congr fun x hx => by rw [same x hx]

end Forgets

theorem deleteFiles_forgets (files : List String) {s : S} (h : Sound s) :
    ∃ n t, deleteFiles s files = .ok (n, t) ∧ Forgets (files.contains ·) s t n := by
  induction files generalizing s with
  | nil => exact ⟨0, s, rfl, (Forgets.nothing h).congr fun x _ => by simp⟩
  | cons file files ih =>
    have hfirst := Forgets.drop (· == file) h
    obtain ⟨n, t, hrest, hforgets⟩ := ih hfirst.sound
    refine ⟨_, t, ?_, (hfirst.trans hforgets).congr fun x _ => ?_⟩
    · rw [deleteFiles, deletePath_eq]
      simp only [Outcome.ok_bind, hrest]
      rfl
    · rw [List.contains_cons]

def isStale (s : S) (fresh : List Fragment) (file : String) : Bool :=
  (items s).any fun x => path x == file && !(fresh.map (·.id)).contains (key x)

theorem contains_staleFiles {s : S} {stored : List Fragment} (h : Store.listAll s {} = .ok stored)
    (fresh : List Fragment) (file : String) :
    (staleFiles stored fresh).contains file = isStale s fresh file := by
  -- Only ids and files of what is listed matter, so the order of the listing does not.
  have hkeys := listAll_keys h
  rw [Bool.eq_iff_iff, List.contains_iff_mem, staleFiles, mem_distinct, isStale, List.any_eq_true]
  simp only [List.mem_map (f := Fragment.filePath), List.mem_filter, Bool.and_eq_true, beq_iff_eq]
  constructor
  · intro hparts
    obtain ⟨f, ⟨hf, hout⟩, rfl⟩ := hparts
    have hmem : (f.id, f.filePath) ∈ stored.map fun f => (f.id, f.filePath) :=
      List.mem_map.2 ⟨f, hf, rfl⟩
    obtain ⟨x, hx, heq⟩ := List.mem_map.1 (hkeys.mem_iff.1 hmem)
    obtain ⟨hid, hpath⟩ := Prod.mk.inj heq
    exact ⟨x, hx, hpath, hid ▸ hout⟩
  · intro hparts
    obtain ⟨x, hx, rfl, hout⟩ := hparts
    have hmem : (key x, path x) ∈ (items s).map fun x => (key x, path x) :=
      List.mem_map.2 ⟨x, hx, rfl⟩
    obtain ⟨f, hf, heq⟩ := List.mem_map.1 (hkeys.mem_iff.2 hmem)
    obtain ⟨hid, hpath⟩ := Prod.mk.inj heq
    exact ⟨f, ⟨hf, hid ▸ hout⟩, hpath⟩

/-- Which files a run forgets before it writes. -/
def forgotten (reset : Bool) (s : S) (fresh : List Fragment) (file : String) : Bool :=
  reset || isStale s fresh file

theorem forgotten_eq_false_iff {reset : Bool} {s : S} {fresh : List Fragment} {file : String} :
    forgotten reset s fresh file = false ↔
      reset = false ∧ ∀ x ∈ items s, path x = file → key x ∈ fresh.map (·.id) := by
  rw [forgotten, Bool.or_eq_false_iff, isStale, List.any_eq_false]
  refine and_congr_right fun _ => forall₂_congr fun x _ => ?_
  simp only [Bool.and_eq_true, beq_iff_eq, Bool.not_eq_true', not_and, Bool.not_eq_false,
    List.contains_iff_mem]

def clear (reset : Bool) (fresh : List Fragment) (s : S) : Outcome (Nat × S) :=
  if reset then Store.deletePathLead s "" else removeStale s fresh

theorem clear_forgets (reset : Bool) {s : S} (fresh : List Fragment) (h : Sound s)
    (hlist : reset = true ∨ ∃ stored, Store.listAll s {} = .ok stored) :
    ∃ n t, clear reset fresh s = .ok (n, t) ∧ Forgets (forgotten reset s fresh) s t n := by
  cases reset with
  | true =>
    refine ⟨_, _, deletePathLead_eq s "", (Forgets.drop (isUnder S "") h).congr ?_⟩
    intro x _
    rw [isUnder_empty, forgotten, Bool.true_or]
  | false =>
    obtain ⟨stored, hstored⟩ : ∃ stored, Store.listAll s {} = .ok stored := by simpa using hlist
    obtain ⟨n, t, hdelete, hforgets⟩ := deleteFiles_forgets (staleFiles stored fresh) h
    refine ⟨n, t, ?_, hforgets.congr fun x _ => contains_staleFiles hstored fresh (path x)⟩
    simp only [clear, removeStale, hstored, Outcome.ok_bind]
    exact hdelete

theorem forgets_of_clear {reset : Bool} {s t : S} {n : Nat} {fresh : List Fragment} (h : Sound s)
    (hclear : clear reset fresh s = .ok (n, t)) : Forgets (forgotten reset s fresh) s t n := by
  have hlist : reset = true ∨ ∃ stored, Store.listAll s {} = .ok stored := by
    cases reset with
    | true => exact .inl rfl
    | false =>
      obtain ⟨stored, hstored, _⟩ := Outcome.bind_ok hclear
      exact .inr ⟨stored, hstored⟩
  obtain ⟨n', t', hclear', hforgets⟩ := clear_forgets reset fresh h hlist
  rw [hclear] at hclear'
  cases hclear'
  exact hforgets

def Written.pairs : Written → List Upserted
  | bare fragments => fragments.map (·, none)
  | embedded pairs => pairs.map fun (f, v) => (f, some v)

theorem flatten_piecesOf {α : Type} (size : Nat) (h : size ≠ 0) (xs : List α) :
    (piecesOf size xs).flatten = xs := by
  fun_induction piecesOf size xs with
  | case1 xs hempty =>
    have hxs : xs.isEmpty = true := hempty.resolve_left h
    rw [List.isEmpty_iff.1 hxs, List.flatten_nil]
  | case2 xs _ ih => rw [List.flatten_cons, ih, List.take_append_drop]

theorem upsertPieces_map {α : Type} (piece : List α → List Fragment × Option (List Embedding))
    (pair : α → Upserted)
    (hpairs : ∀ xs, pairVectors (piece xs).1 (piece xs).2 = .ok (xs.map pair))
    (hlength : ∀ xs, (piece xs).1.length = xs.length) (chunks : List (List α)) (s : S) :
    upsertPieces s (chunks.map piece) =
      .ok (chunks.flatten.length, puts s (chunks.flatten.map pair)) := by
  induction chunks generalizing s with
  | nil => rfl
  | cons xs chunks ih =>
    have hupsert : Store.upsert s (piece xs).1 (piece xs).2 =
        .ok (xs.length, puts s (xs.map pair)) := by
      rw [upsert_eq, hpairs, hlength]
      rfl
    simp only [List.map_cons, upsertPieces, hupsert, Outcome.ok_bind, ih, List.flatten_cons,
      List.length_append, List.map_append, puts_append]
    rfl

/-- Writing piece by piece is writing all fragments one after the other. -/
theorem upsertPieces_eq (s : S) (w : Written) :
    upsertPieces s w.pieces = .ok (w.pairs.length, puts s w.pairs) := by
  cases w with
  | bare fragments =>
    have hwrite := upsertPieces_map (·, none) (·, none) (fun _ => rfl) (fun _ => rfl)
      (piecesOf writeSize fragments) s
    rw [flatten_piecesOf writeSize (by decide)] at hwrite
    simpa only [Written.pieces, Written.pairs, List.length_map] using hwrite
  | embedded pairs =>
    have hwrite := upsertPieces_map
      (fun ps : List (Fragment × Embedding) => (ps.map (·.1), some (ps.map (·.2))))
      (fun p => (p.1, some p.2)) ?_ (fun ps => List.length_map ..)
      (piecesOf writeSize pairs) s
    · rw [flatten_piecesOf writeSize (by decide)] at hwrite
      simpa only [Written.pieces, Written.pairs, List.length_map] using hwrite
    · intro ps
      simp only [pairVectors, List.length_map, if_pos, List.zip_map', List.map_map]
      rfl

end CodeRetrieval.Index
