import CodeRetrieval.Embedding.Batch
import Mathlib.Algebra.GroupWithZero.Nat
import Mathlib.Data.List.Chain
import Mathlib.Data.List.Nodup
import Mathlib.Data.List.Perm.Basic

set_option autoImplicit false

namespace CodeRetrieval

section Planning

variable {maxTokens maxItems total : Nat} {pending : List Nat} {texts : List (Nat × Nat)}
  {tokens : Nat → Nat}

theorem planFrom_oversize (maxTokens maxItems : Nat) (pending : List Nat) (total : Nat)
    (texts : List (Nat × Nat)) :
    (planFrom maxTokens maxItems pending total texts).oversize =
      (texts.filter fun text => decide (maxTokens < text.2)).map (·.1) := by
  fun_induction planFrom maxTokens maxItems pending total texts with
  | case1 => rfl
  | case2 pending total i tokens rest hlong plan ih => simp [plan, hlong, ih]
  | case3 pending total i tokens rest hlong hfull plan ih => simp [plan, hlong, ih]
  | case4 pending total i tokens rest hlong hroom ih => simp [hlong, ih]

theorem planFrom_flatten (maxTokens maxItems : Nat) (pending : List Nat) (total : Nat)
    (texts : List (Nat × Nat)) :
    (planFrom maxTokens maxItems pending total texts).batches.flatten =
      pending.reverse ++ (texts.filter fun text => decide (text.2 ≤ maxTokens)).map (·.1) := by
  fun_induction planFrom maxTokens maxItems pending total texts with
  | case1 pending => cases pending <;> simp
  | case2 pending total i tokens rest hlong plan ih =>
    simp [plan, ih, Nat.not_le.2 hlong]
  | case3 pending total i tokens rest hlong hfull plan ih =>
    simp [plan, ih, Nat.not_lt.1 hlong]
  | case4 pending total i tokens rest hlong hroom ih =>
    simp [ih, Nat.not_lt.1 hlong]

/-- A group that is sent in one call: it holds some texts, and is not over the limits. -/
structure FitsIn (maxTokens maxItems : Nat) (tokens : Nat → Nat) (batch : List Nat) : Prop where
  ne_nil : batch ≠ []
  length_le : batch.length ≤ maxItems
  sum_le : (batch.map tokens).sum ≤ maxTokens

/-- The first text of the next group would have been one too many, or too long, for a group. -/
def FullFor (maxTokens maxItems : Nat) (tokens : Nat → Nat) (batch next : List Nat) : Prop :=
  ∃ i more, next = i :: more ∧
    (maxItems < batch.length + 1 ∨ maxTokens < (batch.map tokens).sum + tokens i)

/-- The pending texts are the first that are sent. -/
theorem planFrom_head (hpending : pending ≠ []) :
    ∃ more rest, (planFrom maxTokens maxItems pending total texts).batches =
      (pending.reverse ++ more) :: rest := by
  fun_induction planFrom maxTokens maxItems pending total texts with
  | case1 pending =>
    exact ⟨[], [], by simp [hpending]⟩
  | case2 pending total i tokens rest hlong plan ih => exact ih hpending
  | case3 pending total i tokens rest hlong hfull plan ih =>
    exact ⟨[], plan.batches, by simp⟩
  | case4 pending total i tokens rest hlong hroom ih =>
    obtain ⟨more, later, hbatches⟩ := ih (List.cons_ne_nil i pending)
    exact ⟨i :: more, later, by simp [hbatches]⟩

theorem planFrom_fits (hitems : 1 ≤ maxItems) (htexts : ∀ text ∈ texts, tokens text.1 = text.2)
    (hlength : pending.length ≤ maxItems) (htotal : (pending.map tokens).sum = total)
    (hle : total ≤ maxTokens) :
    ∀ batch ∈ (planFrom maxTokens maxItems pending total texts).batches,
      FitsIn maxTokens maxItems tokens batch := by
  -- What is closed is the pending group, which kept to the limits with every text that it took.
  have hclosed {pending : List Nat} (hsome : ¬pending.isEmpty = true)
      (hlength : pending.length ≤ maxItems) (hle : (pending.map tokens).sum ≤ maxTokens) :
      FitsIn maxTokens maxItems tokens pending.reverse :=
    ⟨by simpa using hsome, by simpa using hlength, by rwa [List.map_reverse, List.sum_reverse]⟩
  fun_induction planFrom maxTokens maxItems pending total texts with
  | case1 pending total =>
    subst htotal
    by_cases hsome : pending.isEmpty = true
    · simp [hsome]
    · simpa [hsome] using hclosed hsome hlength hle
  | case2 pending total i cost rest hlong plan ih =>
    exact ih (List.forall_mem_cons.1 htexts).2 hlength htotal hle
  | case3 pending total i cost rest hlong hfull plan ih =>
    subst htotal
    obtain ⟨hcost, hrest⟩ := List.forall_mem_cons.1 htexts
    refine List.forall_mem_cons.2 ⟨hclosed (by simpa using hfull.1) hlength hle, ?_⟩
    exact ih hrest hitems (by simpa using hcost) (Nat.not_lt.1 hlong)
  | case4 pending total i cost rest hlong hroom ih =>
    obtain ⟨hcost, hrest⟩ := List.forall_mem_cons.1 htexts
    have hfits : (i :: pending).length ≤ maxItems ∧ total + cost ≤ maxTokens := by
      by_cases hsome : pending.isEmpty = true
      · obtain rfl : pending = [] := by simpa using hsome
        simp only [List.map_nil, List.sum_nil] at htotal
        exact ⟨hitems, by omega⟩
      · simp only [hsome, Bool.not_false, true_and, not_or] at hroom
        exact ⟨by simp only [List.length_cons]; omega, by omega⟩
    refine ih hrest hfits.1 ?_ hfits.2
    rw [List.map_cons, List.sum_cons, hcost, htotal, Nat.add_comm]

theorem planFrom_full (htexts : ∀ text ∈ texts, tokens text.1 = text.2)
    (htotal : (pending.map tokens).sum = total) :
    (planFrom maxTokens maxItems pending total texts).batches.IsChain
      (FullFor maxTokens maxItems tokens) := by
  fun_induction planFrom maxTokens maxItems pending total texts with
  | case1 pending => split <;> simp
  | case2 pending total i cost rest hlong plan ih =>
    exact ih (List.forall_mem_cons.1 htexts).2 htotal
  | case3 pending total i cost rest hlong hfull plan ih =>
    obtain ⟨hcost, hrest⟩ := List.forall_mem_cons.1 htexts
    refine List.isChain_cons.2 ⟨fun next hnext => ?_, ih hrest (by simpa using hcost)⟩
    obtain ⟨more, later, hbatches⟩ : ∃ more later, plan.batches = ([i].reverse ++ more) :: later :=
      planFrom_head (List.cons_ne_nil i [])
    rw [hbatches] at hnext
    refine ⟨i, more, by simpa using hnext.symm, ?_⟩
    rw [List.length_reverse, List.map_reverse, List.sum_reverse, htotal, hcost]
    omega
  | case4 pending total i cost rest hlong hroom ih =>
    obtain ⟨hcost, hrest⟩ := List.forall_mem_cons.1 htexts
    refine ih hrest ?_
    rw [List.map_cons, List.sum_cons, hcost, htotal, Nat.add_comm]

end Planning

section Places

theorem tokens_of_mem_numbered {tokens : List Nat} {text : Nat × Nat}
    (h : text ∈ tokens.zipIdx.map fun (t, i) => (i, t)) : tokens.getD text.1 0 = text.2 := by
  obtain ⟨⟨t, i⟩, hmem, rfl⟩ := List.mem_map.1 h
  have hget : tokens[i]? = some t := List.mem_zipIdx_iff_getElem?.1 hmem
  simp only [List.getD_eq_getElem?_getD, hget, Option.getD_some]

theorem places_numbered (tokens : List Nat) :
    (tokens.zipIdx.map fun (t, i) => (i, t)).map (·.1) = List.range tokens.length := by
  rw [List.map_map, List.range_eq_range']
  exact List.zipIdx_map_snd 0 tokens

theorem places_filter {tokens : Nat → Nat} {texts : List (Nat × Nat)}
    (htexts : ∀ text ∈ texts, tokens text.1 = text.2) (p : Nat → Bool) :
    (texts.filter fun text => p text.2).map (·.1) =
      (texts.map (·.1)).filter fun i => p (tokens i) := by
  rw [List.filter_map]
  congr 1
  refine List.filter_congr fun text htext => ?_
  rw [Function.comp_apply, htexts text htext]

theorem planTokens_oversize (maxTokens maxItems : Nat) (tokens : List Nat) :
    (planTokens maxTokens maxItems tokens).oversize =
      (List.range tokens.length).filter fun i => maxTokens < tokens.getD i 0 := by
  rw [planTokens, planFrom_oversize, ← places_numbered]
  exact places_filter (fun _ => tokens_of_mem_numbered) (maxTokens < ·)

theorem planTokens_flatten (maxTokens maxItems : Nat) (tokens : List Nat) :
    (planTokens maxTokens maxItems tokens).batches.flatten =
      (List.range tokens.length).filter fun i => tokens.getD i 0 ≤ maxTokens := by
  rw [planTokens, planFrom_flatten, ← places_numbered]
  exact places_filter (fun _ => tokens_of_mem_numbered) (· ≤ maxTokens)

/-- A plan for texts of some token counts that sends them in order, as many at once as may be: those
that are too long are left out, and no group is closed while the next text fits. -/
structure BatchPlan.Greedy (maxTokens maxItems : Nat) (tokens : List Nat) (plan : BatchPlan) :
    Prop where
  oversize : plan.oversize =
    (List.range tokens.length).filter fun i => maxTokens < tokens.getD i 0
  inOrder : plan.batches.flatten =
    (List.range tokens.length).filter fun i => tokens.getD i 0 ≤ maxTokens
  fits : ∀ batch ∈ plan.batches, FitsIn maxTokens (max 1 maxItems) (tokens.getD · 0) batch
  full : plan.batches.IsChain (FullFor maxTokens (max 1 maxItems) (tokens.getD · 0))

end Places

section Texts

variable {texts : List String} {limits : BatchLimits} {i : Nat}

theorem mem_places (p : Nat → Bool) :
    i ∈ (List.range (texts.map limits.tokens).length).filter
        (fun i => p ((texts.map limits.tokens).getD i 0)) ↔
      ∃ text, texts[i]? = some text ∧ p (limits.tokens text) = true := by
  simp only [List.mem_filter, List.mem_range, List.length_map, List.getD_eq_getElem?_getD,
    List.getElem?_map]
  constructor
  · rintro ⟨hi, hp⟩
    rw [List.getElem?_eq_getElem hi] at hp ⊢
    exact ⟨texts[i], rfl, hp⟩
  · rintro ⟨text, htext, hp⟩
    rw [htext]
    exact ⟨(List.getElem?_eq_some_iff.1 htext).1, hp⟩

theorem mem_oversize : i ∈ (planBatches texts limits).oversize ↔
    ∃ text, texts[i]? = some text ∧ limits.maxTokens < limits.tokens text := by
  rw [planBatches, planTokens_oversize, mem_places (limits.maxTokens < ·)]
  simp only [decide_eq_true_eq]

theorem mem_batches : i ∈ (planBatches texts limits).batches.flatten ↔
    ∃ text, texts[i]? = some text ∧ limits.tokens text ≤ limits.maxTokens := by
  rw [planBatches, planTokens_flatten, mem_places (· ≤ limits.maxTokens)]
  simp only [decide_eq_true_eq]

theorem planBatches_perm (texts : List String) (limits : BatchLimits) :
    ((planBatches texts limits).batches.flatten ++ (planBatches texts limits).oversize).Perm
      (List.range texts.length) := by
  have hlong : (fun i => decide (limits.maxTokens < (texts.map limits.tokens).getD i 0)) =
      fun i => !decide ((texts.map limits.tokens).getD i 0 ≤ limits.maxTokens) := by
    funext i
    rw [← decide_not]
    simp only [Nat.not_le]
  rw [planBatches, planTokens_flatten, planTokens_oversize, hlong, List.length_map]
  exact List.filter_append_perm _ _

theorem nodup_plan (texts : List String) (limits : BatchLimits) :
    ((planBatches texts limits).oversize ++ (planBatches texts limits).batches.flatten).Nodup :=
  (List.perm_append_comm.trans (planBatches_perm texts limits)).nodup_iff.2 List.nodup_range

theorem nodup_batches (texts : List String) (limits : BatchLimits) :
    (planBatches texts limits).batches.flatten.Nodup :=
  (nodup_plan texts limits).sublist (List.sublist_append_right ..)

theorem oversize_of_fits (h : ∀ text ∈ texts, limits.tokens text ≤ limits.maxTokens) :
    (planBatches texts limits).oversize = [] := by
  refine List.eq_nil_iff_forall_not_mem.2 fun i hi => ?_
  obtain ⟨text, htext, hlong⟩ := mem_oversize.1 hi
  exact Nat.not_lt.2 (h text (List.mem_of_getElem? htext)) hlong

theorem tokens_lt (limits : BatchLimits) (text : String) : limits.tokens text < 2 ^ 64 := by
  simp only [BatchLimits.tokens, estimateTokens, wholeOf]
  split
  · exact UInt64.toNat_lt _
  · exact UInt64.toNat_lt _

/-- Texts that are too long are left out, and all others sent in order and as many at once as the
limits allow. -/
theorem planBatches_greedy (texts : List String) (limits : BatchLimits) :
    (planBatches texts limits).Greedy limits.maxTokens limits.maxItems
      (texts.map limits.tokens) where
  oversize := planTokens_oversize limits.maxTokens limits.maxItems _
  inOrder := planTokens_flatten limits.maxTokens limits.maxItems _
  fits := planFrom_fits (Nat.le_max_left 1 limits.maxItems) (fun _ => tokens_of_mem_numbered)
    (Nat.zero_le _) rfl (Nat.zero_le _)
  full := planFrom_full (fun _ => tokens_of_mem_numbered) rfl

example : planTokens 10 3 [4, 6, 11, 0, 1, 1, 9, 1] = ⟨[[0, 1, 3], [4, 5], [6, 7]], [2]⟩ := by
  decide

end Texts

end CodeRetrieval
