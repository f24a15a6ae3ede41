import Mathlib.Data.List.Nodup

set_option autoImplicit false

namespace CodeRetrieval

variable {α : Type}

/-- Puts an element in its place by key; one of the same key is replaced. -/
def insertBy (key : α → String) (x : α) : List α → List α
  | [] => [x]
  | y :: rest =>
    if key x < key y then x :: y :: rest
    else if key y < key x then y :: insertBy key x rest
    else x :: rest

/-- Puts an element in the place of the one with its key, or at the end. -/
def replaceBy (key : α → String) (x : α) : List α → List α
  | [] => [x]
  | y :: rest => if key y = key x then x :: rest else y :: replaceBy key x rest

def SortedBy (key : α → String) (xs : List α) : Prop := xs.Pairwise fun a b => key a < key b

theorem pairwise_zipIdx (xs : List α) : xs.zipIdx.Pairwise fun x y => x.2 < y.2 := by
  rw [← List.pairwise_map (f := Prod.snd), List.zipIdx_map_snd]
  exact List.pairwise_lt_range'

variable {key : α → String}

theorem SortedBy.keys_nodup {xs : List α} (h : SortedBy key xs) : (xs.map key).Nodup := by
  rw [List.Nodup, List.pairwise_map]
  refine h.imp ?_
  intro a b hlt heq
  rw [heq] at hlt
  exact String.lt_irrefl _ hlt

theorem SortedBy.eq_of_perm {xs ys : List α} (hxs : SortedBy key xs) (hys : SortedBy key ys)
    (h : xs.Perm ys) : xs = ys := by
  refine List.Perm.eq_of_pairwise ?_ hxs hys h
  intro a b _ _ hab hba
  exact absurd (String.lt_trans hab hba) (String.lt_irrefl _)

theorem SortedBy.eq_of_mem_iff {xs ys : List α} (hxs : SortedBy key xs) (hys : SortedBy key ys)
    (h : ∀ x, x ∈ xs ↔ x ∈ ys) : xs = ys :=
  hxs.eq_of_perm hys
    ((List.perm_ext_iff_of_nodup hxs.keys_nodup.of_map hys.keys_nodup.of_map).2 h)

theorem mem_insertBy (x z : α) {xs : List α} (h : SortedBy key xs) :
    z ∈ insertBy key x xs ↔ z = x ∨ z ∈ xs ∧ key z ≠ key x := by
  induction xs with
  | nil => simp [insertBy]
  | cons y xs ih =>
    obtain ⟨hy, hxs⟩ := List.pairwise_cons.1 h
    unfold insertBy
    by_cases hbefore : key x < key y
    · -- All that follows has a higher key, so nothing is replaced.
      have hall : ∀ z ∈ y :: xs, key z ≠ key x := by
        intro z hz heq
        cases hz with
        | head => exact String.lt_irrefl _ (heq ▸ hbefore)
        | tail _ hz => exact String.lt_irrefl _ (heq ▸ String.lt_trans hbefore (hy z hz))
      rw [if_pos hbefore, List.mem_cons]
      exact or_congr_right ⟨fun hz => ⟨hz, hall z hz⟩, fun hz => hz.1⟩
    · rw [if_neg hbefore]
      by_cases hafter : key y < key x
      · have hne : key y ≠ key x := by
          intro heq
          exact String.lt_irrefl _ (heq ▸ hafter)
        rw [if_pos hafter, List.mem_cons, ih hxs, List.mem_cons]
        constructor
        · intro hcases
          rcases hcases with rfl | rfl | ⟨hz, hkey⟩
          · exact .inr ⟨.inl rfl, hne⟩
          · exact .inl rfl
          · exact .inr ⟨.inr hz, hkey⟩
        · intro hcases
          rcases hcases with rfl | ⟨rfl | hz, hkey⟩
          · exact .inr (.inl rfl)
          · exact .inl rfl
          · exact .inr (.inr ⟨hz, hkey⟩)
      · have heq : key y = key x :=
          String.le_antisymm (String.not_lt.1 hbefore) (String.not_lt.1 hafter)
        rw [if_neg hafter, List.mem_cons, List.mem_cons]
        constructor
        · intro hcases
          rcases hcases with rfl | hz
          · exact .inl rfl
          · refine .inr ⟨.inr hz, ?_⟩
            intro hkey
            exact String.lt_irrefl _ (hkey ▸ heq ▸ hy z hz)
        · intro hcases
          rcases hcases with rfl | ⟨rfl | hz, hkey⟩
          · exact .inl rfl
          · exact absurd heq hkey
          · exact .inr hz

theorem sorted_insertBy (x : α) {xs : List α} (h : SortedBy key xs) :
    SortedBy key (insertBy key x xs) := by
  induction xs with
  | nil => simp [insertBy, SortedBy]
  | cons y xs ih =>
    obtain ⟨hy, hxs⟩ := List.pairwise_cons.1 h
    unfold insertBy
    by_cases hbefore : key x < key y
    · rw [if_pos hbefore]
      refine List.pairwise_cons.2 ⟨?_, h⟩
      intro z hz
      cases hz with
      | head => exact hbefore
      | tail _ hz => exact String.lt_trans hbefore (hy z hz)
    · rw [if_neg hbefore]
      by_cases hafter : key y < key x
      · rw [if_pos hafter]
        refine List.pairwise_cons.2 ⟨?_, ih hxs⟩
        intro z hz
        obtain rfl | ⟨hz, _⟩ := (mem_insertBy x z hxs).1 hz
        · exact hafter
        · exact hy z hz
      · have heq : key y = key x :=
          String.le_antisymm (String.not_lt.1 hbefore) (String.not_lt.1 hafter)
        rw [if_neg hafter]
        exact List.pairwise_cons.2 ⟨heq ▸ hy, hxs⟩

theorem mem_replaceBy (x y : α) {xs : List α} (h : (xs.map key).Nodup) :
    y ∈ replaceBy key x xs ↔ y = x ∨ y ∈ xs ∧ key y ≠ key x := by
  induction xs with
  | nil => simp [replaceBy]
  | cons z xs ih =>
    obtain ⟨hz, hxs⟩ := List.nodup_cons.1 h
    unfold replaceBy
    by_cases hkey : key z = key x
    · have hall : ∀ y ∈ xs, key y ≠ key x := by
        intro y hy heq
        exact hz (List.mem_map.2 ⟨y, hy, heq.trans hkey.symm⟩)
      rw [if_pos hkey, List.mem_cons, List.mem_cons]
      constructor
      · intro hcases
        rcases hcases with rfl | hy
        · exact .inl rfl
        · exact .inr ⟨.inr hy, hall y hy⟩
      · intro hcases
        rcases hcases with rfl | ⟨rfl | hy, hne⟩
        · exact .inl rfl
        · exact absurd hkey hne
        · exact .inr hy
    · rw [if_neg hkey, List.mem_cons, ih hxs, List.mem_cons]
      constructor
      · intro hcases
        rcases hcases with rfl | rfl | ⟨hy, hne⟩
        · exact .inr ⟨.inl rfl, hkey⟩
        · exact .inl rfl
        · exact .inr ⟨.inr hy, hne⟩
      · intro hcases
        rcases hcases with rfl | ⟨rfl | hy, hne⟩
        · exact .inr (.inl rfl)
        · exact .inl rfl
        · exact .inr (.inr ⟨hy, hne⟩)

theorem nodup_replaceBy (x : α) {xs : List α} (h : (xs.map key).Nodup) :
    ((replaceBy key x xs).map key).Nodup := by
  induction xs with
  | nil => simp [replaceBy]
  | cons z xs ih =>
    obtain ⟨hz, hxs⟩ := List.nodup_cons.1 h
    unfold replaceBy
    by_cases hkey : key z = key x
    · rw [if_pos hkey, List.map_cons, ← hkey]
      exact h
    · rw [if_neg hkey, List.map_cons, List.nodup_cons]
      refine ⟨?_, ih hxs⟩
      intro hmem
      obtain ⟨y, hy, heq⟩ := List.mem_map.1 hmem
      obtain rfl | ⟨hy, _⟩ := (mem_replaceBy x y hxs).1 hy
      · exact hkey heq.symm
      · exact hz (List.mem_map.2 ⟨y, hy, heq⟩)

theorem find?_replaceBy (x : α) (k : String) (xs : List α) :
    (replaceBy key x xs).find? (key · == k) =
      if key x = k then some x else xs.find? (key · == k) := by
  induction xs with
  | nil => by_cases h : key x = k <;> simp [replaceBy, h]
  | cons z xs ih =>
    unfold replaceBy
    by_cases hkey : key z = key x
    · by_cases h : key x = k <;> simp [hkey, h]
    · rw [if_neg hkey]
      by_cases hz : key z = k
      · have hne : key x ≠ k := fun heq => hkey (hz.trans heq.symm)
        simp [hz, hne]
      · rw [List.find?_cons_of_neg (by simpa using hz), ih,
          List.find?_cons_of_neg (by simpa using hz)]

end CodeRetrieval
