import CodeRetrieval.Proofs.Sorting
import CodeRetrieval.Service.Embedding

/-!
Answers whose vectors are numbered. Where no two items bear the same number, the order of the items
decides nothing but which of several faults is reported, and a vector goes to the place that its
number names.
-/

set_option autoImplicit false

namespace CodeRetrieval.Service

def data? (answer : Json) : Option (List Json) := (answer.field? "data").bind Json.items?

def number? (item : Json) : Option Nat := (item.field? "index").bind Json.nat?

def embedding? (item : Json) : Option Embedding :=
  ((item.field? "embedding").bind Json.items?).map fun xs =>
    Embedding.ofFloats (xs.map fun x => (x.float?.getD 0).toFloat32)

def fault? (item : Json) : Option Failure :=
  match item.field? "embedding" with
  | none => some (.plain "Invalid OpenAI response: missing embedding")
  | some (.arr _) => none
  | some _ => some (.plain "Invalid OpenAI response: embedding is not an array")

/-- Every item bears a number, and no two bear the same. -/
structure Numbered (items : List Json) : Prop where
  given : ∀ item ∈ items, (number? item).isSome = true
  distinct : (items.map number?).Nodup

theorem Numbered.perm {items items' : List Json} (h : Numbered items) (hperm : items.Perm items') :
    Numbered items' where
  given item hitem := h.given item (hperm.mem_iff.2 hitem)
  distinct := (hperm.map number?).nodup_iff.1 h.distinct

def entryOf (item : Json) : Nat × Embedding := ((number? item).getD 0, (embedding? item).getD [])

theorem fst_entryOf (items : List Json) :
    (items.map entryOf).map Prod.fst = (items.map number?).map (·.getD 0) := by
  rw [List.map_map, List.map_map]
  rfl

theorem Numbered.nodup_entries {items : List Json} (h : Numbered items) :
    ((items.map entryOf).map Prod.fst).Nodup := by
  rw [fst_entryOf]
  refine List.Nodup.map_on ?_ h.distinct
  intro a ha b hb hab
  obtain ⟨item, hitem, rfl⟩ := List.mem_map.1 ha
  obtain ⟨other, hother, rfl⟩ := List.mem_map.1 hb
  obtain ⟨k, hk⟩ := Option.isSome_iff_exists.1 (h.given item hitem)
  obtain ⟨l, hl⟩ := Option.isSome_iff_exists.1 (h.given other hother)
  rw [hk, hl] at hab ⊢
  exact congrArg some hab

theorem fault?_eq_none_iff {item : Json} : fault? item = none ↔ (embedding? item).isSome = true := by
  unfold fault? embedding?
  cases item.field? "embedding" with
  | none => simp
  | some v => cases v <;> simp [Json.items?]

theorem numbered_eq {item : Json} (h : (number? item).isSome = true) (position : Nat) :
    numbered position item =
      match fault? item with
      | some f => .error f
      | none => .ok (entryOf item) := by
  obtain ⟨k, hk⟩ := Option.isSome_iff_exists.1 h
  have hposition : ((item.field? "index").bind Json.nat?).getD position = k := by
    rw [← number?, hk, Option.getD_some]
  unfold numbered fault? entryOf embedding?
  rw [hposition, hk]
  cases item.field? "embedding" with
  | none => rfl
  | some v => cases v <;> rfl

theorem allNumbered_eq {items : List Json} (h : ∀ item ∈ items, (number? item).isSome = true)
    (position : Nat) :
    allNumbered position items =
      match items.findSome? fault? with
      | some f => .error f
      | none => .ok (items.map entryOf) := by
  induction items generalizing position with
  | nil => rfl
  | cons item items ih =>
    have hrest := ih (fun other hother => h other (List.mem_cons_of_mem item hother)) (position + 1)
    rw [allNumbered, numbered_eq (h item List.mem_cons_self), hrest, List.findSome?_cons]
    cases fault? item with
    | some f => rfl
    | none => cases items.findSome? fault? <;> rfl

theorem numberedVectors_eq {answer : Json} {items : List Json} (hitems : data? answer = some items)
    (h : ∀ item ∈ items, (number? item).isSome = true) :
    numberedVectors answer =
      match items.findSome? fault? with
      | some f => .error f
      | none => .ok (byNumber (items.map entryOf)) := by
  rw [numberedVectors, ← data?, hitems]
  simp only [allNumbered_eq h]
  cases items.findSome? fault? <;> rfl

theorem no_fault_iff_of_perm {items items' : List Json} (h : items.Perm items') :
    items.findSome? fault? = none ↔ items'.findSome? fault? = none := by
  simp only [List.findSome?_eq_none_iff, h.mem_iff]

section Placing

variable {vs ws : List (Nat × Embedding)}

theorem byNumber_eq_of_perm (h : vs.Perm ws) (hdistinct : (vs.map Prod.fst).Nodup) :
    byNumber vs = byNumber ws := by
  unfold byNumber
  rw [mergeSort_eq_of_perm (SortOrder.line.on Prod.fst) h]
  intro a ha b hb hab hba
  simp only [decide_eq_true_eq] at hab hba
  exact List.inj_on_of_nodup_map hdistinct ha hb (Nat.le_antisymm hab hba)

theorem length_byNumber (vs : List (Nat × Embedding)) : (byNumber vs).length = vs.length := by
  rw [byNumber, List.length_map, List.length_mergeSort]

theorem getElem?_byNumber (hrange : (vs.map Prod.fst).Perm (List.range vs.length)) {k : Nat}
    {v : Embedding} (h : (k, v) ∈ vs) : (byNumber vs)[k]? = some v := by
  let sorted := vs.mergeSort fun a b => a.1 ≤ b.1
  have hperm : sorted.Perm vs := List.mergeSort_perm vs _
  have horder : SortOrder fun a b : Nat × Embedding => decide (a.1 ≤ b.1) :=
    SortOrder.line.on Prod.fst
  have hsorted : (sorted.map Prod.fst).Pairwise (· ≤ ·) :=
    List.pairwise_map.2 <|
      (List.pairwise_mergeSort horder.trans horder.total vs).imp fun hab => of_decide_eq_true hab
  have hnumbers : sorted.map Prod.fst = List.range vs.length :=
    ((hperm.map Prod.fst).trans hrange).eq_of_pairwise (fun _ _ _ _ => Nat.le_antisymm) hsorted
      List.pairwise_le_range
  obtain ⟨i, hi⟩ := List.mem_iff_getElem?.1 (hperm.mem_iff.2 h)
  have hnumber : (List.range vs.length)[i]? = some k := by
    rw [← hnumbers, List.getElem?_map, hi, Option.map_some]
  obtain ⟨hlength, hplace⟩ := List.getElem?_eq_some_iff.1 hnumber
  rw [List.getElem_range] at hplace
  subst hplace
  rw [byNumber, List.getElem?_map, hi, Option.map_some]

end Placing

section Reading

variable {answer answer' : Json} {items items' : List Json}

theorem numberedVectors_eq_error_iff (hitems : data? answer = some items) (h : Numbered items)
    {f : Failure} : numberedVectors answer = .error f ↔ items.findSome? fault? = some f := by
  rw [numberedVectors_eq hitems h.given]
  cases items.findSome? fault? <;> simp

theorem numberedVectors_eq_ok_iff (hitems : data? answer = some items) (h : Numbered items)
    {vectors : List Embedding} : numberedVectors answer = .ok vectors ↔
      items.findSome? fault? = none ∧ byNumber (items.map entryOf) = vectors := by
  rw [numberedVectors_eq hitems h.given]
  cases items.findSome? fault? <;> simp

theorem getElem?_of_number (hnone : items.findSome? fault? = none)
    (hrange : (items.map number?).Perm ((List.range items.length).map some)) {item : Json}
    (hitem : item ∈ items) {k : Nat} (hk : number? item = some k) :
    (byNumber (items.map entryOf))[k]? = embedding? item := by
  have hnumbers : ((items.map entryOf).map Prod.fst).Perm
      (List.range (items.map entryOf).length) := by
    have hgiven : ((List.range items.length).map some).map (·.getD 0) = List.range items.length := by
      rw [List.map_map]
      exact List.map_id _
    rw [fst_entryOf, List.length_map, ← hgiven]
    exact hrange.map _
  obtain ⟨v, hv⟩ := Option.isSome_iff_exists.1 <|
    fault?_eq_none_iff.1 (List.findSome?_eq_none_iff.1 hnone item hitem)
  have hentry : entryOf item = (k, v) := by rw [entryOf, hk, hv, Option.getD_some, Option.getD_some]
  rw [hv]
  exact getElem?_byNumber hnumbers (List.mem_map.2 ⟨item, hitem, hentry⟩)

/-- The vectors that are read do not depend on the order of the items, and neither does whether any
are read. Of several faults the one of the first faulty item is reported, so only that may depend on
the order. A vector is found at the number of its item. -/
theorem numberedVectors_reordered (hitems : data? answer = some items)
    (hitems' : data? answer' = some items') (hperm : items.Perm items')
    (hnumbered : Numbered items) :
    (∀ vectors, numberedVectors answer = .ok vectors ↔ numberedVectors answer' = .ok vectors) ∧
      (∀ f, numberedVectors answer = .error f ↔ items.findSome? fault? = some f) ∧
      (numberedVectors answer = numberedVectors answer' ↔
        items.findSome? fault? = items'.findSome? fault?) ∧
      ((items.map number?).Perm ((List.range items.length).map some) →
        ∀ vectors, numberedVectors answer = .ok vectors → vectors.length = items.length ∧
          ∀ item ∈ items, ∀ k, number? item = some k → vectors[k]? = embedding? item) := by
  have hnumbered' := hnumbered.perm hperm
  -- Distinct numbers leave nothing to the order in which the vectors were given.
  have hvectors : byNumber (items.map entryOf) = byNumber (items'.map entryOf) :=
    byNumber_eq_of_perm (hperm.map entryOf) hnumbered.nodup_entries
  refine ⟨fun vectors => ?_, fun f => numberedVectors_eq_error_iff hitems hnumbered, ?_, ?_⟩
  · rw [numberedVectors_eq_ok_iff hitems hnumbered, numberedVectors_eq_ok_iff hitems' hnumbered',
      no_fault_iff_of_perm hperm, hvectors]
  · rw [numberedVectors_eq hitems hnumbered.given, numberedVectors_eq hitems' hnumbered'.given,
      hvectors]
    cases hfault : items.findSome? fault? with
    | none => simp [(no_fault_iff_of_perm hperm).1 hfault]
    | some f =>
      cases hfault' : items'.findSome? fault? with
      | none => exact nomatch hfault.symm.trans ((no_fault_iff_of_perm hperm).2 hfault')
      | some g => simp
  · intro hrange vectors hok
    obtain ⟨hnone, rfl⟩ := (numberedVectors_eq_ok_iff hitems hnumbered).1 hok
    refine ⟨by rw [length_byNumber, List.length_map], fun item hitem k hk => ?_⟩
    exact getElem?_of_number hnone hrange hitem hk

end Reading

def answerOf (items : List Json) : Json := .obj [("data", .arr items)]

def itemOf (number : Nat) (embedding : Json) : Json :=
  .obj [("embedding", embedding), ("index", .ofNat number)]

theorem numberedVectors_reordered_pair :
    let zeroth := itemOf 0 (.arr [.ofNat 1, .ofNat 0])
    let first := itemOf 1 (.arr [.ofNat 0, .ofNat 1])
    ∃ vectors, numberedVectors (answerOf [zeroth, first]) = .ok vectors ∧
      numberedVectors (answerOf [first, zeroth]) = .ok vectors ∧ vectors.length = 2 ∧
      vectors[0]? = embedding? zeroth ∧ vectors[1]? = embedding? first := by
  intro zeroth first
  have hnumbered : Numbered [first, zeroth] := ⟨by decide, by decide⟩
  have hdata (items : List Json) : data? (answerOf items) = some items := rfl
  obtain ⟨hsame, hfails, -, hplaces⟩ := numberedVectors_reordered (hdata [first, zeroth])
    (hdata [zeroth, first]) (.swap zeroth first []) hnumbered
  cases hread : numberedVectors (answerOf [first, zeroth]) with
  | error f => exact nomatch (hfails f).1 hread
  | ok vectors =>
    obtain ⟨hlength, hplace⟩ := hplaces (by decide) vectors hread
    exact ⟨vectors, (hsame vectors).1 hread, rfl, hlength, hplace zeroth (by simp) 0 rfl,
      hplace first (by simp) 1 rfl⟩

/-- Of an item without a vector and one whose vector is no list, the first is reported. -/
theorem not_numberedVectors_reordered :
    ¬∀ (answer answer' : Json) (items items' : List Json), data? answer = some items →
      data? answer' = some items' → items.Perm items' → Numbered items →
        numberedVectors answer = numberedVectors answer' := by
  intro hall
  let missing : Json := .obj [("index", .ofNat 0)]
  let malformed := itemOf 1 (.str "x")
  have hnumbered : Numbered [missing, malformed] := ⟨by decide, by decide⟩
  have hsame := hall (answerOf [missing, malformed]) (answerOf [malformed, missing]) _ _ rfl rfl
    (.swap malformed missing []) hnumbered
  have hmissing : numberedVectors (answerOf [missing, malformed]) =
      .error (.plain "Invalid OpenAI response: missing embedding") := rfl
  have hmalformed : numberedVectors (answerOf [malformed, missing]) =
      .error (.plain "Invalid OpenAI response: embedding is not an array") := rfl
  rw [hmissing, hmalformed] at hsame
  exact absurd (Except.error.inj hsame) (by decide)

end CodeRetrieval.Service
