import CodeRetrieval.Store.Memory
import Mathlib.Data.List.Nodup
import Mathlib.Order.Lattice

set_option autoImplicit false

namespace CodeRetrieval

/-- What an order has to be for lists to be sorted by it. -/
structure SortOrder {α : Type} (le : α → α → Bool) : Prop where
  trans : ∀ a b c, le a b = true → le b c = true → le a c = true
  total : ∀ a b, (le a b || le b a) = true

namespace SortOrder

variable {α β : Type} {le : α → α → Bool}

theorem on (h : SortOrder le) (key : β → α) : SortOrder fun a b => le (key a) (key b) :=
  ⟨fun _ _ _ => h.trans _ _ _, fun _ _ => h.total _ _⟩

theorem text : SortOrder fun a b : String => decide (a ≤ b) where
  trans a b c h h' := by
    simp only [decide_eq_true_eq] at *
    exact String.le_trans h h'
  total a b := by simpa using String.le_total a b

theorem line : SortOrder fun a b : Nat => decide (a ≤ b) where
  trans a b c h h' := by
    simp only [decide_eq_true_eq] at *
    omega
  total a b := by
    simp only [Bool.or_eq_true, decide_eq_true_eq]
    omega

theorem name : SortOrder nameLe where
  trans a b c h h' := by
    cases a with
    | none => rfl
    | some a =>
      cases b with
      | none => simp [nameLe] at h
      | some b =>
        cases c with
        | none => simp [nameLe] at h'
        | some c => exact text.trans a b c h h'
  total a b := by
    cases a with
    | none => rfl
    | some a =>
      cases b with
      | none => simp [nameLe]
      | some b => exact text.total a b

theorem score {σ : Type} [LinearOrder σ] : SortOrder fun a b : σ => !decide (a < b) where
  trans a b c h h' := by
    simp only [Bool.not_eq_true', decide_eq_false_iff_not, not_lt] at *
    exact le_trans h' h
  total a b := by
    simp only [Bool.or_eq_true, Bool.not_eq_true', decide_eq_false_iff_not, not_lt]
    exact le_total b a

end SortOrder

theorem nameLe_antisymm {a b : Option String} (h : nameLe a b = true) (h' : nameLe b a = true) :
    a = b := by
  cases a with
  | none => cases b <;> simp_all [nameLe]
  | some a =>
    cases b with
    | none => simp [nameLe] at h
    | some b =>
      simp only [nameLe, decide_eq_true_eq] at h h'
      rw [String.le_antisymm h h']

section Sorted

variable {α : Type} {le : α → α → Bool}

theorem mergeSort_eq_of_perm (order : SortOrder le) {xs ys : List α} (h : xs.Perm ys)
    (antisymm : ∀ a ∈ xs, ∀ b ∈ xs, le a b = true → le b a = true → a = b) :
    xs.mergeSort le = ys.mergeSort le := by
  have same : (xs.mergeSort le).Perm (ys.mergeSort le) :=
    (xs.mergeSort_perm le).trans (h.trans (ys.mergeSort_perm le).symm)
  refine List.Perm.eq_of_pairwise ?_
    (List.pairwise_mergeSort order.trans order.total xs)
    (List.pairwise_mergeSort order.trans order.total ys) same
  intro a b ha hb
  have hb : b ∈ xs := h.mem_iff.2 (List.mem_mergeSort.1 hb)
  exact antisymm a (List.mem_mergeSort.1 ha) b hb

/-- Earlier in an order that is refined by `R` where elements tie. -/
def ThenBy (le : α → α → Bool) (R : α → α → Prop) (a b : α) : Prop :=
  le a b = true ∧ (le b a = true → R a b)

theorem ThenBy.asymm {R : α → α → Prop} {a b : α} (hR : R a b → ¬R b a) (h : ThenBy le R a b) :
    ¬ThenBy le R b a := fun h' => hR (h.2 h'.1) (h'.2 h.1)

/-- A list that is in order already stays so among elements that tie. -/
theorem pairwise_mergeSort_ties (order : SortOrder le) {R : α → α → Prop} {xs : List α}
    (h : xs.Pairwise R) : (xs.mergeSort le).Pairwise fun a b => le b a = true → R a b := by
  -- The head is placed before all that tie with it, and only before those after it in the list.
  induction xs with
  | nil => simp only [List.mergeSort_nil, List.Pairwise.nil]
  | cons x xs ih =>
    obtain ⟨before, after, hx, hxs, hlt⟩ := List.mergeSort_cons order.trans order.total x xs
    obtain ⟨hhead, htail⟩ := List.pairwise_cons.1 h
    have hrest := ih htail
    rw [hxs, List.pairwise_append] at hrest
    obtain ⟨hbefore, hafter, hacross⟩ := hrest
    have hmem : ∀ b ∈ after, b ∈ xs := by
      intro b hb
      have hb : b ∈ xs.mergeSort le := by simp [hxs, hb]
      exact List.mem_mergeSort.1 hb
    rw [hx, List.pairwise_append, List.pairwise_cons]
    refine ⟨hbefore, ⟨fun b hb _ => hhead b (hmem b hb), hafter⟩, ?_⟩
    intro a ha b hb htie
    cases hb with
    | head =>
      have hnot := hlt a ha
      simp only [Bool.not_eq_true', htie] at hnot
      contradiction
    | tail _ hb => exact hacross a ha b hb htie

theorem pairwise_mergeSort_thenBy (order : SortOrder le) {R : α → α → Prop} {xs : List α}
    (h : xs.Pairwise R) : (xs.mergeSort le).Pairwise (ThenBy le R) :=
  (List.pairwise_mergeSort order.trans order.total xs).and (pairwise_mergeSort_ties order h)

theorem leads_of_head? {R : α → α → Prop} {xs : List α} {x : α} (h : xs.Pairwise R)
    (hx : xs.head? = some x) : ∀ y ∈ xs, y = x ∨ R x y := by
  obtain ⟨rest, rfl⟩ := List.head?_eq_some_iff.1 hx
  intro y hy
  rcases List.mem_cons.1 hy with rfl | hy
  · exact .inl rfl
  · exact .inr ((List.pairwise_cons.1 h).1 y hy)

theorem find?_eq_some_iff_of_pairwise {R : α → α → Prop} (hR : ∀ a b, R a b → ¬R b a)
    {p : α → Bool} {xs : List α} (h : xs.Pairwise R) {x : α} :
    xs.find? p = some x ↔ x ∈ xs ∧ p x = true ∧ ∀ y ∈ xs, p y = true → y = x ∨ R x y := by
  have hfirst : ∀ y, xs.find? p = some y → ∀ z ∈ xs, p z = true → z = y ∨ R y z := by
    intro y hy z hz hpz
    obtain ⟨-, lead, rest, rfl, hlead⟩ := List.find?_eq_some_iff_append.1 hy
    rcases List.mem_append.1 hz with hz | hz
    · have hno := hlead z hz
      simp [hpz] at hno
    · exact leads_of_head? (List.pairwise_append.1 h).2.1 rfl z hz
  constructor
  · exact fun hx => ⟨List.mem_of_find?_eq_some hx, List.find?_some hx, hfirst x hx⟩
  · intro hparts
    obtain ⟨hx, hpx, hleads⟩ := hparts
    obtain ⟨y, hy⟩ := Option.isSome_iff_exists.1 (List.find?_isSome.2 ⟨x, hx, hpx⟩)
    rcases hleads y (List.mem_of_find?_eq_some hy) (List.find?_some hy) with heq | hxy
    · exact heq ▸ hy
    · rcases hfirst y hy x hx hpx with heq | hyx
      · exact heq ▸ hy
      · exact absurd hyx (hR x y hxy)

def exactFirst (exact : α → Bool) (le : α → α → Bool) (xs : List α) : List α :=
  (xs.mergeSort le).filter exact ++ (xs.mergeSort le).filter (!exact ·)

theorem mem_exactFirst {exact : α → Bool} {xs : List α} {x : α} :
    x ∈ exactFirst exact le xs ↔ x ∈ xs := by
  cases h : exact x <;> simp [exactFirst, h]

theorem pairwise_exactFirst (exact : α → Bool) (order : SortOrder le) {R : α → α → Prop}
    {xs : List α} (h : xs.Pairwise R) :
    (exactFirst exact le xs).Pairwise
      (ThenBy (fun a b => exact a || !exact b) (ThenBy le R)) := by
  have hsorted := pairwise_mergeSort_thenBy order h
  rw [exactFirst, List.pairwise_append]
  refine ⟨List.pairwise_filter.2 ?_, List.pairwise_filter.2 ?_, ?_⟩
  · exact hsorted.imp fun hab ha _ => ⟨by simp [ha], fun _ => hab⟩
  · exact hsorted.imp fun hab _ hb => ⟨Bool.or_eq_true_iff.2 (.inr hb), fun _ => hab⟩
  · intro a ha b hb
    have ha := (List.mem_filter.1 ha).2
    have hb := (List.mem_filter.1 hb).2
    exact ⟨by simp [ha], fun hba => by simp_all⟩

end Sorted

section Ranking

variable {σ : Type} [LT σ] [DecidableLT σ]

theorem ranking_eq_of_perm {xs ys : List (Ranked σ)} (h : xs.Perm ys)
    (distinctIds : (xs.map (·.fragment.id)).Nodup) : ranking xs = ranking ys := by
  unfold ranking
  rw [mergeSort_eq_of_perm (SortOrder.text.on (·.fragment.id)) h]
  intro a ha b hb hab hba
  simp only [decide_eq_true_eq] at hab hba
  exact List.inj_on_of_nodup_map distinctIds ha hb (String.le_antisymm hab hba)

theorem rank_eq_of_perm {xs ys : List (Ranked σ)} (topK : Nat) (h : xs.Perm ys)
    (distinctIds : (xs.map (·.fragment.id)).Nodup) : rank topK xs = rank topK ys := by
  simp only [rank, ranking_eq_of_perm h distinctIds]

theorem ranking_perm (xs : List (Ranked σ)) : (ranking xs).Perm xs :=
  (List.mergeSort_perm ..).trans (List.mergeSort_perm ..)

theorem mem_of_mem_rank {topK : Nat} {results : List (Ranked σ)} {r : Ranked σ}
    (h : r ∈ rank topK results) : r ∈ results :=
  (ranking_perm results).mem_iff.1 (List.mem_of_mem_take h)

/-- By score, the higher first, and by id where scores are equal. -/
def Ranked.Before {σ : Type} [LT σ] (a b : Ranked σ) : Prop :=
  b.score < a.score ∨ a.score = b.score ∧ a.fragment.id < b.fragment.id

theorem ranking_pairwise {σ : Type} [LinearOrder σ] {results : List (Ranked σ)}
    (distinctIds : (results.map (·.fragment.id)).Nodup) :
    (ranking results).Pairwise Ranked.Before := by
  have byId : (results.mergeSort fun a b => a.fragment.id ≤ b.fragment.id).Pairwise
      fun a b => a.fragment.id < b.fragment.id := by
    have order := SortOrder.text.on fun r : Ranked σ => r.fragment.id
    have hle := List.pairwise_mergeSort order.trans order.total results
    have hne := ((List.mergeSort_perm results fun a b =>
      decide (a.fragment.id ≤ b.fragment.id)).map (·.fragment.id)).nodup_iff.2 distinctIds
    refine (hle.and (List.pairwise_map.1 hne)).imp fun hab => ?_
    exact String.not_le.1 fun hba => hab.2 (String.le_antisymm (by simpa using hab.1) hba)
  refine (pairwise_mergeSort_thenBy (SortOrder.score.on Ranked.score) byId).imp fun hab => ?_
  obtain ⟨hle, htie⟩ := hab
  simp only [Bool.not_eq_true', decide_eq_false_iff_not, not_lt] at hle htie
  rcases lt_or_eq_of_le hle with hlt | heq
  · exact .inl hlt
  · exact .inr ⟨heq.symm, htie (ge_of_eq heq)⟩

end Ranking

def Fragment.listingKey (f : Fragment) : String × Option String × String × Nat :=
  (f.language, f.entityName, f.filePath, f.startLine)

/-- By language, then entity, then path, then line; where all of them tie, by `R`. -/
def Fragment.ListedBefore (R : Fragment → Fragment → Prop) : Fragment → Fragment → Prop :=
  ThenBy (fun a b => a.language ≤ b.language) <|
    ThenBy (fun a b => nameLe a.entityName b.entityName) <|
      ThenBy (fun a b => a.filePath ≤ b.filePath) <|
        ThenBy (fun a b => a.startLine ≤ b.startLine) R

theorem Fragment.ListedBefore.asymm {R : Fragment → Fragment → Prop} {f g : Fragment}
    (hR : R f g → ¬R g f) : f.ListedBefore R g → ¬g.ListedBefore R f :=
  ThenBy.asymm (ThenBy.asymm (ThenBy.asymm (ThenBy.asymm hR)))

namespace Entries

theorem listing_perm (fs : List Fragment) : (listing fs).Perm fs :=
  (List.mergeSort_perm ..).trans <| (List.mergeSort_perm ..).trans <|
    (List.mergeSort_perm ..).trans (List.mergeSort_perm ..)

theorem listing_pairwise {R : Fragment → Fragment → Prop} {fs : List Fragment}
    (h : fs.Pairwise R) : (listing fs).Pairwise (Fragment.ListedBefore R) := by
  have byLine := pairwise_mergeSort_thenBy (SortOrder.line.on Fragment.startLine) h
  have byPath := pairwise_mergeSort_thenBy (SortOrder.text.on Fragment.filePath) byLine
  have byName := pairwise_mergeSort_thenBy (SortOrder.name.on Fragment.entityName) byPath
  exact pairwise_mergeSort_thenBy (SortOrder.text.on Fragment.language) byName

theorem listing_eq_of_perm {fs gs : List Fragment} (h : fs.Perm gs)
    (distinctKeys : (fs.map (·.listingKey)).Nodup) : listing fs = listing gs := by
  have same : (listing fs).Perm (listing gs) :=
    (listing_perm fs).trans (h.trans (listing_perm gs).symm)
  have ordered (fs : List Fragment) :
      (listing fs).Pairwise (Fragment.ListedBefore fun _ _ => True) :=
    listing_pairwise (List.pairwise_of_forall fun _ _ => trivial)
  refine List.Perm.eq_of_pairwise ?_ (ordered fs) (ordered gs) same
  intro a b ha hb hab hba
  obtain ⟨hlanguage, htie⟩ := hab
  obtain ⟨hlanguage', htie'⟩ := hba
  obtain ⟨hname, htie⟩ := htie hlanguage'
  obtain ⟨hname', htie'⟩ := htie' hlanguage
  obtain ⟨hpath, htie⟩ := htie hname'
  obtain ⟨hpath', htie'⟩ := htie' hname
  have hline := (htie hpath').1
  have hline' := (htie' hpath).1
  simp only [decide_eq_true_eq] at hlanguage hlanguage' hpath hpath' hline hline'
  have ha : a ∈ fs := (listing_perm fs).mem_iff.1 ha
  have hb : b ∈ fs := h.mem_iff.2 ((listing_perm gs).mem_iff.1 hb)
  refine List.inj_on_of_nodup_map distinctKeys ha hb ?_
  simp only [Fragment.listingKey, Prod.mk.injEq]
  exact ⟨String.le_antisymm hlanguage hlanguage', nameLe_antisymm hname hname',
    String.le_antisymm hpath hpath', Nat.le_antisymm hline hline'⟩

end Entries

end CodeRetrieval
