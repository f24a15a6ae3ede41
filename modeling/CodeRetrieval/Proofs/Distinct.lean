import CodeRetrieval.Distinct
import Mathlib.Data.List.Nodup

set_option autoImplicit false

namespace CodeRetrieval

theorem distinctFrom_sublist {α β : Type} [BEq β] {key : α → β} (seen : List β) (xs : List α) :
    (distinctFrom key seen xs).Sublist xs := by
  induction xs generalizing seen with
  | nil => exact .refl _
  | cons x xs ih =>
    unfold distinctFrom
    split
    · exact (ih seen).cons x
    · exact (ih _).cons_cons x

theorem distinctFrom_map {α β γ : Type} [BEq β] {key : α → β} (g : γ → α) (seen : List β)
    (xs : List γ) :
    distinctFrom key seen (xs.map g) = (distinctFrom (key ∘ g) seen xs).map g := by
  induction xs generalizing seen with
  | nil => rfl
  | cons x xs ih =>
    simp only [List.map_cons, distinctFrom, Function.comp_apply, ih]
    split <;> rfl

variable {α β : Type} [BEq β] [LawfulBEq β] {key : α → β}

theorem mem_keys_distinctFrom (seen : List β) (xs : List α) (k : β) :
    k ∈ (distinctFrom key seen xs).map key ↔ k ∈ xs.map key ∧ k ∉ seen := by
  induction xs generalizing seen with
  | nil => simp [distinctFrom]
  | cons x xs ih =>
    unfold distinctFrom
    by_cases hx : seen.contains (key x) = true
    · have hmem : key x ∈ seen := by simpa using hx
      rw [if_pos hx, ih, List.map_cons, List.mem_cons]
      constructor
      · intro hparts
        obtain ⟨hk, hout⟩ := hparts
        exact ⟨.inr hk, hout⟩
      · intro hcases
        rcases hcases with ⟨rfl | hk, hout⟩
        · exact absurd hmem hout
        · exact ⟨hk, hout⟩
    · have hmem : key x ∉ seen := by simpa using hx
      rw [if_neg hx, List.map_cons, List.mem_cons, ih, List.map_cons, List.mem_cons,
        List.mem_cons, not_or]
      constructor
      · intro hcases
        rcases hcases with rfl | ⟨hk, _, hout⟩
        · exact ⟨.inl rfl, hmem⟩
        · exact ⟨.inr hk, hout⟩
      · intro hcases
        rcases hcases with ⟨rfl | hk, hout⟩
        · exact .inl rfl
        · by_cases heq : k = key x
          · exact .inl heq
          · exact .inr ⟨hk, heq, hout⟩

theorem nodup_keys_distinctFrom (seen : List β) (xs : List α) :
    ((distinctFrom key seen xs).map key).Nodup := by
  induction xs generalizing seen with
  | nil => exact List.nodup_nil
  | cons x xs ih =>
    unfold distinctFrom
    split
    · exact ih seen
    · rw [List.map_cons, List.nodup_cons, mem_keys_distinctFrom]
      exact ⟨fun h => h.2 (by simp), ih (key x :: seen)⟩

theorem nodup_append_distinctFrom {seen : List β} (xs : List α) (h : seen.Nodup) :
    (seen ++ (distinctFrom key seen xs).map key).Nodup := by
  refine List.nodup_append.2 ⟨h, nodup_keys_distinctFrom seen xs, ?_⟩
  intro a ha b hb heq
  exact ((mem_keys_distinctFrom seen xs b).1 hb).2 (heq ▸ ha)

/-- What stays was ahead of every copy of what stays behind it. -/
theorem pairwise_distinctFrom {R : α → α → Prop} {xs : List α} (seen : List β)
    (h : xs.Pairwise R) :
    (distinctFrom key seen xs).Pairwise fun x y => ∀ z ∈ xs, key z = key y → R x z := by
  induction xs generalizing seen with
  | nil => exact .nil
  | cons a xs ih =>
    obtain ⟨hhead, htail⟩ := List.pairwise_cons.1 h
    -- What stays of the rest is no copy of the head, so the head may be added to the rest.
    have hrest : ∀ seen : List β, key a ∈ seen → (distinctFrom key seen xs).Pairwise
        fun x y => ∀ z ∈ a :: xs, key z = key y → R x z := by
      intro seen ha
      refine (ih seen htail).imp_of_mem ?_
      intro x y _ hy hxy z hz hkey
      rcases List.mem_cons.1 hz with rfl | hz
      · exact absurd (hkey ▸ ha) ((mem_keys_distinctFrom seen xs _).1 (List.mem_map_of_mem hy)).2
      · exact hxy z hz hkey
    unfold distinctFrom
    by_cases ha : seen.contains (key a) = true
    · rw [if_pos ha]
      exact hrest seen (by simpa using ha)
    · rw [if_neg ha, List.pairwise_cons]
      refine ⟨?_, hrest (key a :: seen) (by simp)⟩
      intro y hy z hz hkey
      have hy := (mem_keys_distinctFrom (key a :: seen) xs _).1 (List.mem_map_of_mem hy)
      rcases List.mem_cons.1 hz with rfl | hz
      · exact absurd (by simp [hkey]) hy.2
      · exact hhead z hz

theorem distinctFrom_eq_self {seen : List β} {xs : List α} (h : (seen ++ xs.map key).Nodup) :
    distinctFrom key seen xs = xs := by
  induction xs generalizing seen with
  | nil => rfl
  | cons x xs ih =>
    have hrest : (key x :: seen ++ xs.map key).Nodup := List.perm_middle.nodup_iff.1 h
    have hnew : ¬seen.contains (key x) = true := fun hseen =>
      (List.nodup_cons.1 hrest).1 (List.mem_append_left _ (by simpa using hseen))
    rw [distinctFrom, if_neg hnew, ih hrest]

theorem nodup_keys_distinctOn (xs : List α) : ((distinctOn key xs).map key).Nodup :=
  nodup_keys_distinctFrom [] xs

theorem exists_mem_distinctOn {xs : List α} {x : α} (h : x ∈ xs) :
    ∃ y ∈ distinctOn key xs, key y = key x := by
  have hkey : key x ∈ (distinctOn key xs).map key :=
    (mem_keys_distinctFrom [] xs (key x)).2 ⟨List.mem_map_of_mem h, List.not_mem_nil⟩
  exact List.mem_map.1 hkey

theorem mem_distinctOn_of_unique {xs : List α} {x : α} (h : x ∈ xs)
    (hunique : ∀ y ∈ xs, key y = key x → y = x) : x ∈ distinctOn key xs := by
  obtain ⟨y, hy, hkey⟩ : ∃ y ∈ distinctOn key xs, key y = key x := exists_mem_distinctOn h
  exact hunique y ((distinctFrom_sublist [] xs).subset hy) hkey ▸ hy

theorem distinctOn_eq_self_iff {xs : List α} : distinctOn key xs = xs ↔ (xs.map key).Nodup := by
  constructor
  · intro h
    rw [← h]
    exact nodup_keys_distinctOn xs
  · exact fun h => distinctFrom_eq_self (by simpa using h)

theorem mem_distinct {xs : List β} {x : β} : x ∈ distinct xs ↔ x ∈ xs := by
  have h : x ∈ (distinctFrom id [] xs).map id ↔ x ∈ xs.map id ∧ x ∉ [] :=
    mem_keys_distinctFrom [] xs x
  simpa [distinct, distinctOn] using h

theorem nodup_distinct (xs : List β) : (distinct xs).Nodup := by
  have h : ((distinctOn id xs).map id).Nodup := nodup_keys_distinctOn xs
  simpa [distinct] using h

theorem length_distinct_of_perm {xs ys : List β} (h : xs.Perm ys) :
    (distinct xs).length = (distinct ys).length := by
  refine ((List.perm_ext_iff_of_nodup (nodup_distinct xs) (nodup_distinct ys)).2 ?_).length_eq
  intro x
  rw [mem_distinct, mem_distinct, h.mem_iff]

end CodeRetrieval
