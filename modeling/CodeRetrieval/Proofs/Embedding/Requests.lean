import CodeRetrieval.Proofs.Embedding.Batch
import CodeRetrieval.Proofs.Sorting

/-!
What becomes of every text of a batch. Each text that is not too long stands in one planned group,
and the service is called with that group once. Only where it refuses the group for its length the
texts of the group are sent once more, each alone. In the end a text has a vector or is reported as
skipped, whatever the service answers.
-/

set_option autoImplicit false

namespace CodeRetrieval

/-- A call made for a batch, by the places of its texts. -/
inductive Request where
  | group (places : List Nat)
  | alone (place : Nat)
  deriving DecidableEq, Repr

namespace Request

def places : Request → List Nat
  | group is => is
  | alone i => [i]

def sent (texts : List String) (r : Request) : List String := (pick texts r.places).map (·.2)

def group? : Request → Option (List Nat)
  | group is => some is
  | alone _ => none

def alone? : Request → Option Nat
  | group _ => none
  | alone i => some i

@[simp] theorem group?_group (is : List Nat) : (group is).group? = some is := rfl

@[simp] theorem group?_alone (i : Nat) : (alone i).group? = none := rfl

@[simp] theorem alone?_group (is : List Nat) : (group is).alone? = none := rfl

@[simp] theorem alone?_alone (i : Nat) : (alone i).alone? = some i := rfl

@[simp] theorem filterMap_alone?_alone (is : List Nat) : (is.map alone).filterMap alone? = is := by
  simp [Function.comp_def]

end Request

/-- The calls that some groups lead to, the first of them being the `n`-th call of the service. -/
inductive Requests (e : Embedder) (texts : List String) :
    Nat → List (List Nat) → List Request → Prop where
  | nil (n : Nat) : Requests e texts n [] []
  | taken {n : Nat} {is : List Nat} {groups : List (List Nat)} {rs : List Request}
      (hcall : ¬e.Refuses n ((Request.group is).sent texts))
      (hrest : Requests e texts (n + 1) groups rs) :
      Requests e texts n (is :: groups) (.group is :: rs)
  | refused {n : Nat} {is : List Nat} {groups : List (List Nat)} {rs : List Request}
      (hcall : e.Refuses n ((Request.group is).sent texts))
      (hrest : Requests e texts (n + 1 + is.length) groups rs) :
      Requests e texts n (is :: groups) (.group is :: (is.map .alone ++ rs))

section Calls

variable {e : Embedder} {limits : BatchLimits}

theorem embedSingly_log (e : Embedder) (limits : BatchLimits) (log : CallLog)
    (batch : List (Nat × String)) :
    (embedSingly e limits log batch).2 = log ++ batch.map fun t => [t.2] := by
  induction batch generalizing log with
  | nil => simp [embedSingly]
  | cons text batch ih =>
    obtain ⟨i, text⟩ := text
    have hlog := embed_log e log text
    rcases h : e.embed log text with ⟨answer, log'⟩
    rw [h] at hlog
    simp only [embedSingly, h, ih, hlog, List.map_cons, List.append_assoc, List.singleton_append]

theorem sent_alone (texts : List String) (is : List Nat) :
    (is.map Request.alone).map (·.sent texts) = (pick texts is).map fun t => [t.2] := by
  simp [Request.sent, Request.places, pick]

theorem requests_of_embedAll (texts : List String) {groups : List (List Nat)} {log log' : CallLog}
    {slots : List Slot} (h : embedAll e limits log (groups.map (pick texts)) = (.ok slots, log')) :
    ∃ rs, Requests e texts log.length groups rs ∧ log' = log ++ rs.map (·.sent texts) := by
  induction groups generalizing log slots with
  | nil =>
    cases h
    exact ⟨[], .nil _, by simp⟩
  | cons is groups ih =>
    obtain ⟨first, called, more, hone, hall, rfl⟩ := embedAll_cons_ok h
    obtain ⟨rs, hrs, rfl⟩ := ih hall
    rcases embedOne_ok hone with ⟨vectors, hcall, _, rfl, _⟩ | ⟨hrefused, hsingly⟩
    · have htaken : ¬e.Refuses log.length ((Request.group is).sent texts) := by
        rintro ⟨f, hfailed, _⟩
        exact nomatch hcall.symm.trans hfailed
      refine ⟨.group is :: rs, .taken htaken (by simpa using hrs), ?_⟩
      simp [Request.sent, Request.places]
    · have hcalled := (Prod.mk.inj hsingly).2
      rw [embedSingly_log] at hcalled
      subst hcalled
      refine ⟨.group is :: (is.map .alone ++ rs), .refused hrefused ?_, ?_⟩
      · simpa [pick, Nat.add_assoc, Nat.add_comm 1] using hrs
      · rw [List.map_cons, List.map_append, sent_alone]
        simp [Request.sent, Request.places]

end Calls

/-- The group of a text was refused by a call before the `k`-th of some calls, the first of which
is the `n`-th of the service. -/
def RefusedBefore (e : Embedder) (texts : List String) (n : Nat) (rs : List Request) (k i : Nat) :
    Prop :=
  ∃ j < k, ∃ is, rs[j]? = some (.group is) ∧ i ∈ is ∧
    e.Refuses (n + j) ((Request.group is).sent texts)

theorem RefusedBefore.shift {e : Embedder} {texts : List String} {n m k i : Nat} {rs : List Request}
    (front : List Request) (hm : m = n + front.length) (h : RefusedBefore e texts m rs k i) :
    RefusedBefore e texts n (front ++ rs) (front.length + k) i := by
  obtain ⟨j, hj, is, hgroup, hi, hcall⟩ := h
  refine ⟨front.length + j, by omega, is, ?_, hi, ?_⟩
  · rw [List.getElem?_append_right (by omega), Nat.add_sub_cancel_left]
    exact hgroup
  · rwa [← Nat.add_assoc, ← hm]

namespace Requests

variable {e : Embedder} {texts : List String} {n : Nat} {groups : List (List Nat)}
  {rs : List Request}

theorem groups_eq (h : Requests e texts n groups rs) : rs.filterMap Request.group? = groups := by
  induction h with
  | nil => rfl
  | taken _ _ ih => simp [ih]
  | refused _ _ ih => simp [ih]

theorem alone_sublist (h : Requests e texts n groups rs) :
    (rs.filterMap Request.alone?).Sublist groups.flatten := by
  induction h with
  | nil => exact List.Sublist.refl _
  | taken _ _ ih =>
    rw [List.filterMap_cons_none (Request.alone?_group _)]
    exact ih.trans (List.sublist_append_right ..)
  | @refused _ is _ _ _ _ ih =>
    rw [List.filterMap_cons_none (Request.alone?_group _), List.filterMap_append,
      Request.filterMap_alone?_alone]
    exact ih.append_left is

theorem refused_before (h : Requests e texts n groups rs) {k i : Nat}
    (hk : rs[k]? = some (.alone i)) : RefusedBefore e texts n rs k i := by
  -- The `k`-th call is one of those that a refused group leads to, or belongs to a later group.
  induction h generalizing k with
  | nil => simp at hk
  | @taken n is _ rs _ _ ih =>
    cases k with
    | zero => simp at hk
    | succ k =>
      have hrest := (ih (by simpa using hk)).shift [.group is] rfl
      rwa [Nat.add_comm] at hrest
  | @refused n is _ rs hcall _ ih =>
    cases k with
    | zero => simp at hk
    | succ k =>
      rw [List.getElem?_cons_succ] at hk
      by_cases hlt : k < is.length
      · rw [List.getElem?_append_left (by simpa using hlt), List.getElem?_map] at hk
        obtain ⟨i', hi', heq⟩ := Option.map_eq_some_iff.1 hk
        cases heq
        exact ⟨0, by omega, is, rfl, List.mem_of_getElem? hi', hcall⟩
      · rw [List.getElem?_append_right (by simpa using hlt), List.length_map] at hk
        have hrest := (ih hk).shift (n := n) (.group is :: is.map .alone) (by simp; omega)
        have hplace : (Request.group is :: is.map .alone).length + (k - is.length) = k + 1 := by
          simp
          omega
        rwa [hplace] at hrest

theorem alone_of_refused (h : Requests e texts n groups rs) {j i : Nat} {is : List Nat}
    (hj : rs[j]? = some (.group is)) (hcall : e.Refuses (n + j) ((Request.group is).sent texts))
    (hi : i ∈ is) : .alone i ∈ rs := by
  induction h generalizing j with
  | nil => simp at hj
  | @taken n is' _ rs htaken _ ih =>
    cases j with
    | zero =>
      cases hj
      exact absurd hcall htaken
    | succ j =>
      refine List.mem_cons_of_mem _ (ih (by simpa using hj) ?_)
      rwa [Nat.add_right_comm, Nat.add_assoc]
  | @refused n is' _ rs _ _ ih =>
    cases j with
    | zero =>
      cases hj
      simp [hi]
    | succ j =>
      rw [List.getElem?_cons_succ] at hj
      by_cases hlt : j < is'.length
      · rw [List.getElem?_append_left (by simpa using hlt), List.getElem?_map] at hj
        simp at hj
      · rw [List.getElem?_append_right (by simpa using hlt), List.length_map] at hj
        have hplace : n + 1 + is'.length + (j - is'.length) = n + (j + 1) := by omega
        exact List.mem_cons_of_mem _ (List.mem_append_right _ (ih hj (hplace ▸ hcall)))

theorem places_subset (h : Requests e texts n groups rs) {r : Request} (hr : r ∈ rs) :
    r.places ⊆ groups.flatten := by
  cases r with
  | group is =>
    have hgroup : is ∈ rs.filterMap Request.group? := List.mem_filterMap.2 ⟨_, hr, rfl⟩
    rw [h.groups_eq] at hgroup
    exact fun i hi => List.mem_flatten.2 ⟨is, hgroup, hi⟩
  | alone i =>
    have halone : i ∈ rs.filterMap Request.alone? := List.mem_filterMap.2 ⟨_, hr, rfl⟩
    simpa [Request.places] using h.alone_sublist.subset halone

theorem count_alone_le (h : Requests e texts n groups rs) (hgroups : groups.flatten.Nodup)
    (i : Nat) : rs.count (.alone i) ≤ 1 := by
  have hcount : rs.count (.alone i) ≤ (rs.filterMap Request.alone?).count i := by
    rw [List.count_filterMap]
    refine List.countP_mono_left fun r _ hr => ?_
    simp [eq_of_beq hr]
  exact Nat.le_trans hcount (List.nodup_iff_count_le_one.1 (hgroups.sublist h.alone_sublist) i)

end Requests

section Slots

variable {e : Embedder} {texts : List String} {limits : BatchLimits} {log log' : CallLog}
  {slots : List Slot} {b : BatchEmbedding}

theorem Slot.skip?_eq_some {slot : Slot} {s : SkippedText} :
    slot.skip? = some s ↔ slot = .skipped s := by
  cases slot <;> simp [Slot.skip?]

theorem skippedOf_indices (texts : List String) (limits : BatchLimits) (slots : List Slot) :
    (skippedOf texts limits slots).map (·.index) =
      (planBatches texts limits).oversize ++ (slots.filterMap Slot.skip?).map (·.index) := by
  simp [skippedOf, pick, oversizeText, Function.comp_def]

theorem skipped_sublist (slots : List Slot) :
    ((slots.filterMap Slot.skip?).map (·.index)).Sublist (slots.map Slot.index) := by
  induction slots with
  | nil => exact List.Sublist.refl _
  | cons slot slots ih =>
    cases slot with
    | filled i v =>
      rw [List.filterMap_cons_none rfl]
      exact ih.trans (List.sublist_cons_self ..)
    | skipped s => simpa [Slot.skip?, Slot.index] using ih

theorem nodup_skippedOf
    (h : slots.map Slot.index = (planBatches texts limits).batches.flatten) :
    ((skippedOf texts limits slots).map (·.index)).Nodup := by
  rw [skippedOf_indices]
  refine (nodup_plan texts limits).sublist ((List.Sublist.refl _).append ?_)
  exact h ▸ skipped_sublist slots

theorem filled_iff_not_skipped
    (h : slots.map Slot.index = (planBatches texts limits).batches.flatten) {i : Nat}
    (hi : i < texts.length) : (slots.findSome? (Slot.vectorAt i)).isSome = true ↔
      i ∉ (skippedOf texts limits slots).map (·.index) := by
  have hplan := (planBatches_perm texts limits).mem_iff (a := i)
  rw [List.mem_append, List.mem_range, ← h] at hplan
  have hdistinct := nodup_plan texts limits
  rw [← h] at hdistinct
  -- An index is either that of one slot or that of a text too long to send.
  obtain ⟨_, hslots, hapart⟩ := List.nodup_append.1 hdistinct
  rw [skippedOf_indices, List.mem_append, List.findSome?_isSome_iff]
  constructor
  · rintro ⟨slot, hslot, hfilled⟩ hskipped
    obtain ⟨hnone, rfl⟩ := Slot.isSome_vectorAt.1 hfilled
    have hsent : slot.index ∈ slots.map Slot.index := List.mem_map.2 ⟨slot, hslot, rfl⟩
    rcases hskipped with hover | hfailed
    · exact hapart _ hover _ hsent rfl
    · obtain ⟨s, hs, hindex⟩ := List.mem_map.1 hfailed
      obtain ⟨slot', hslot', hsome⟩ := List.mem_filterMap.1 hs
      obtain rfl := Slot.skip?_eq_some.1 hsome
      have hsame := List.inj_on_of_nodup_map hslots hslot' hslot hindex
      rw [← hsame] at hnone
      cases hnone
  · intro hskipped
    obtain ⟨hover, hfailed⟩ := not_or.1 hskipped
    obtain ⟨slot, hslot, rfl⟩ := List.mem_map.1 ((hplan.2 hi).resolve_right hover)
    refine ⟨slot, hslot, Slot.isSome_vectorAt.2 ⟨?_, rfl⟩⟩
    cases slot with
    | filled j v => rfl
    | skipped s =>
      refine absurd (List.mem_map.2 ⟨s, ?_, rfl⟩) hfailed
      exact List.mem_filterMap.2 ⟨_, hslot, rfl⟩

theorem pairwise_skipped
    (h : slots.map Slot.index = (planBatches texts limits).batches.flatten) :
    ((skippedOf texts limits slots).mergeSort fun s t => s.index ≤ t.index).Pairwise
      fun s t => s.index < t.index := by
  have order := SortOrder.line.on SkippedText.index
  have hsorted := List.pairwise_mergeSort order.trans order.total (skippedOf texts limits slots)
  have hdistinct := ((List.mergeSort_perm (skippedOf texts limits slots)
    fun s t => decide (s.index ≤ t.index)).map (·.index)).nodup_iff.2 (nodup_skippedOf h)
  refine (hsorted.and (List.pairwise_map.1 hdistinct)).imp ?_
  intro s t hparts
  obtain ⟨hle, hne⟩ := hparts
  have hle : s.index ≤ t.index := by simpa using hle
  omega

end Slots

theorem Requests.fits {e : Embedder} {texts : List String} {limits : BatchLimits} {n : Nat}
    {calls : List Request} (h : Requests e texts n (planBatches texts limits).batches calls)
    {call : Request} (hcall : call ∈ calls) :
    ∀ text ∈ call.sent texts, limits.tokens text ≤ limits.maxTokens := by
  intro text htext
  obtain ⟨_, hpicked, rfl⟩ := List.mem_map.1 htext
  obtain ⟨i, hi, rfl⟩ := List.mem_map.1 hpicked
  obtain ⟨text, htext, hfits⟩ := mem_batches.1 (h.places_subset hcall hi)
  simpa only [List.getD_eq_getElem?_getD, htext, Option.getD_some] using hfits

/-- Every text of a batch is accounted for. It has a vector, or it is reported as skipped, once and
in order; it is in no call if it is too long; otherwise it stands in one planned group, which is
sent once, and it is sent alone, once, exactly if its group was refused for its length before. -/
theorem embedBatch_accounts {e : Embedder} {texts : List String} {limits : BatchLimits}
    {log log' : CallLog} {b : BatchEmbedding}
    (h : embedBatch e texts limits log = (.ok b, log')) :
    b.vectors.length = texts.length ∧
    (∀ i < texts.length, Xor (∃ v, b.vectors[i]? = some (some v))
      (b.skipped.countP (·.index == i) = 1)) ∧
    b.skipped.Pairwise (fun s t => s.index < t.index) ∧
    ∃ calls : List Request,
      log' = log ++ calls.map (·.sent texts) ∧
      (∀ call ∈ calls, ∀ text ∈ call.sent texts, limits.tokens text ≤ limits.maxTokens) ∧
      calls.filterMap Request.group? = (planBatches texts limits).batches ∧
      (∀ i text, texts[i]? = some text → limits.tokens text ≤ limits.maxTokens →
        (planBatches texts limits).batches.flatten.count i = 1 ∧
        calls.count (.alone i) ≤ 1 ∧
        ∀ k, calls[k]? = some (.alone i) → RefusedBefore e texts log.length calls k i) ∧
      ∀ j is, calls[j]? = some (.group is) →
        e.Refuses (log.length + j) ((Request.group is).sent texts) →
        ∀ i ∈ is, .alone i ∈ calls := by
  obtain ⟨slots, hall, hvectors, hskipped⟩ := embedBatch_ok h
  have hindices := slots_indices hall
  obtain ⟨calls, hcalls, hlog⟩ := requests_of_embedAll texts hall
  have hgroups := nodup_batches texts limits
  refine ⟨length_vectors h, ?_, hskipped ▸ pairwise_skipped hindices, calls, hlog,
    fun call hcall => hcalls.fits hcall, hcalls.groups_eq, ?_,
    fun j is hj hcall i hi => hcalls.alone_of_refused hj hcall hi⟩
  · intro i hi
    have hfilled : (∃ v, b.vectors[i]? = some (some v)) ↔
        (slots.findSome? (Slot.vectorAt i)).isSome = true := by
      simp [hvectors, hi, Option.isSome_iff_exists]
    have hcount : b.skipped.countP (·.index == i) =
        ((skippedOf texts limits slots).map (·.index)).count i := by
      rw [hskipped, (List.mergeSort_perm _ _).countP_eq, List.count, List.countP_map]
      rfl
    rw [hfilled, filled_iff_not_skipped hindices hi, hcount, (nodup_skippedOf hindices).count]
    by_cases hmem : i ∈ (skippedOf texts limits slots).map (·.index)
    · exact .inr ⟨if_pos hmem, not_not_intro hmem⟩
    · exact .inl ⟨hmem, by simp [hmem]⟩
  · intro i text htext hfits
    refine ⟨?_, hcalls.count_alone_le hgroups i, fun k hk => hcalls.refused_before hk⟩
    rw [hgroups.count, if_pos (mem_batches.2 ⟨text, htext, hfits⟩)]

/-- A service that takes one text at a time, and not every text. -/
def picky : Embedder := ⟨"stub", 1, fun _ texts => match texts with
  | ["a"] => .ok [[0x3f800000]]
  | [_] => .error (.plain "connection reset")
  | _ => .error (.batchTokenLimit 0 2 1)⟩

theorem embedBatch_accounts_picky :
    let texts := ["a", "b", "ccc"]
    ∃ b, embedBatch picky texts ⟨2, 10, 0⟩ [] = (.ok b, [["a", "b"], ["a"], ["b"]]) ∧
      b.vectors.length = 3 ∧
      Xor (∃ v, b.vectors[1]? = some (some v)) (b.skipped.countP (·.index == 1) = 1) ∧
      ∃ calls : List Request, [["a", "b"], ["a"], ["b"]] = calls.map (·.sent texts) ∧
        calls.filterMap Request.group? = [[0, 1]] ∧ calls.count (.alone 1) ≤ 1 := by
  intro texts
  have hplan : planBatches texts ⟨2, 10, 0⟩ = ⟨[[0, 1]], [2]⟩ := by decide +kernel
  have hanswers : ∃ b, embedBatch picky texts ⟨2, 10, 0⟩ [] =
      (.ok b, [["a", "b"], ["a"], ["b"]]) := by
    rw [embedBatch, hplan]
    exact ⟨_, rfl⟩
  obtain ⟨b, hb⟩ := hanswers
  obtain ⟨hlength, hslot, _, calls, hlog, _, hgroups, honce, _⟩ := embedBatch_accounts hb
  rw [hplan] at hgroups
  exact ⟨b, hb, hlength, hslot 1 (by decide), calls, hlog, hgroups,
    (honce 1 "b" rfl (by decide +kernel)).2.1⟩

end CodeRetrieval
