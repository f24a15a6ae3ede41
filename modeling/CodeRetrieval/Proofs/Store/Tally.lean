import CodeRetrieval.Proofs.Json.Fields
import CodeRetrieval.Store.Basic
import Mathlib.Algebra.BigOperators.Group.List.Lemmas
import Mathlib.Algebra.GroupWithZero.Nat

set_option autoImplicit false

namespace CodeRetrieval

theorem lookup_eq_some_iff {α : Type} {fs : List (String × α)} (h : (fs.map (·.1)).Nodup)
    (name : String) (v : α) : fs.lookup name = some v ↔ (name, v) ∈ fs := by
  induction fs with
  | nil => simp
  | cons f fs ih =>
    obtain ⟨k, w⟩ := f
    obtain ⟨hk, hfs⟩ := List.nodup_cons.1 h
    rw [List.lookup_cons]
    by_cases heq : name = k
    · subst heq
      have hout : (name, v) ∉ fs := fun hmem => hk (List.mem_map.2 ⟨_, hmem, rfl⟩)
      simp [hout, eq_comm]
    · have hne : (name == k) = false := by simpa using heq
      simp only [hne, ih hfs, List.mem_cons, Prod.mk.injEq, heq, false_and, false_or]

namespace Tally

def add (acc : List (String × Nat)) (x : String) : List (String × Nat) :=
  Json.setField x ((acc.lookup x).getD 0 + 1) acc

/-- The counts of some texts, in order. -/
structure Counts (acc : List (String × Nat)) (xs : List String) : Prop where
  sorted : SortedBy (·.1) acc
  mem_iff : ∀ x n, (x, n) ∈ acc ↔ n = xs.count x ∧ 0 < n

theorem Counts.lookup {acc : List (String × Nat)} {xs : List String} (h : Counts acc xs)
    (x : String) : (acc.lookup x).getD 0 = xs.count x := by
  cases hx : acc.lookup x with
  | some n =>
    have hmem := (lookup_eq_some_iff h.sorted.keys_nodup x n).1 hx
    exact ((h.mem_iff x n).1 hmem).1
  | none =>
    by_cases hzero : xs.count x = 0
    · exact hzero.symm
    · have hmem := (h.mem_iff x (xs.count x)).2 ⟨rfl, by omega⟩
      rw [(lookup_eq_some_iff h.sorted.keys_nodup x _).2 hmem] at hx
      contradiction

theorem Counts.add {acc : List (String × Nat)} {xs : List String} (h : Counts acc xs)
    (x : String) : Counts (add acc x) (xs ++ [x]) where
  sorted := by
    rw [Tally.add, Json.setField_eq]
    exact sorted_insertBy _ h.sorted
  mem_iff y n := by
    rw [Tally.add, Json.setField_eq, mem_insertBy _ _ h.sorted, h.lookup, h.mem_iff,
      List.count_append, Prod.mk.injEq]
    by_cases hy : y = x
    · subst hy
      simp only [true_and, ne_eq, not_true_eq_false, and_false, or_false, List.count_singleton_self]
      omega
    · simp [hy, Ne.symm hy]

theorem counts_foldl (xs ys : List String) {acc : List (String × Nat)} (h : Counts acc xs) :
    Counts (ys.foldl Tally.add acc) (xs ++ ys) := by
  induction ys generalizing xs acc with
  | nil => simpa using h
  | cons y ys ih => simpa using ih (xs ++ [y]) (h.add y)

theorem counts_tally (xs : List String) : Counts (tally xs) xs :=
  counts_foldl [] xs ⟨List.Pairwise.nil, by simp⟩

end Tally

theorem tally_eq_of_perm {xs ys : List String} (h : xs.Perm ys) : tally xs = tally ys := by
  refine (Tally.counts_tally xs).sorted.eq_of_mem_iff (Tally.counts_tally ys).sorted ?_
  intro hparts
  obtain ⟨x, n⟩ := hparts
  rw [(Tally.counts_tally xs).mem_iff, (Tally.counts_tally ys).mem_iff, h.count_eq]

theorem sum_tally (xs : List String) : ((tally xs).map (·.2)).sum = xs.length := by
  have hcounts := Tally.counts_tally xs
  have hkeys : ((tally xs).map (·.1)).Perm xs.dedup := by
    refine (List.perm_ext_iff_of_nodup hcounts.sorted.keys_nodup (List.nodup_dedup xs)).2 ?_
    intro x
    rw [List.mem_dedup, ← List.count_pos_iff (l := xs)]
    constructor
    · intro hx
      obtain ⟨⟨y, n⟩, hmem, rfl⟩ := List.mem_map.1 hx
      obtain ⟨rfl, hpos⟩ := (hcounts.mem_iff y n).1 hmem
      exact hpos
    · exact fun hpos => List.mem_map.2 ⟨(x, xs.count x), (hcounts.mem_iff x _).2 ⟨rfl, hpos⟩, rfl⟩
  have hvalues : (tally xs).map (·.2) = ((tally xs).map (·.1)).map fun x => xs.count x := by
    rw [List.map_map]
    exact List.map_congr_left fun p hp => ((hcounts.mem_iff p.1 p.2).1 hp).1
  rw [hvalues, (hkeys.map _).sum_eq]
  exact List.sum_map_count_dedup_eq_length xs

end CodeRetrieval
