import CodeRetrieval.Proofs.Store.Invariants
import CodeRetrieval.Proofs.Store.Lookup

/-!
What a name leads to. Both stores take a name literally, whatever characters it has: an entity goes
by its own name and by what stands in it behind a dot. The tables do not mind the case of ASCII
letters there; for both of them an exact name comes before all others, and then the path decides.
-/

set_option autoImplicit false

namespace CodeRetrieval

/-- What a lookup by name looks at. -/
structure Label where
  isEntity : Bool
  own : Option String
  path : String
  deriving DecidableEq, Repr

def Fragment.label (f : Fragment) : Label := ⟨f.kind == .entity, f.entityName, f.filePath⟩

def Row.label (r : Row) : Label := ⟨r.kind == FragmentKind.entity.name, r.entityName, r.filePath⟩

/-- The name itself, or what ends with a dot and the name once its characters are folded. -/
def AnswersTo (fold : Char → Char) (name own : String) : Prop :=
  own = name ∨ ('.' :: name.toList).map fold <:+ own.toList.map fold

structure Label.Named (fold : Char → Char) (name : String) (l : Label) : Prop where
  isEntity : l.isEntity = true
  answers : ∃ own, l.own = some own ∧ AnswersTo fold name own

theorem Entries.isEntityNamed_iff_label {name : String} {f : Fragment} :
    isEntityNamed name f = true ↔ f.label.Named id name := by
  have hanswers : ∀ own, (own == name || Text.endsWith own ("." ++ name)) = true ↔
      AnswersTo id name own := by
    intro own
    rw [Bool.or_eq_true, beq_iff_eq, Text.endsWith_iff, AnswersTo, List.map_id, List.map_id,
      String.toList_append]
    rfl
  rw [isEntityNamed, Bool.and_eq_true, Option.any_eq_true]
  simp only [hanswers]
  exact ⟨fun h => ⟨h.1, h.2⟩, fun h => ⟨h.isEntity, h.answers⟩⟩

theorem Row.isEntityNamed_iff_label {name : String} {r : Row} :
    isEntityNamed name r = true ↔ r.label.Named Char.toLower name := by
  have hanswers : ∀ own, (own == name || Like.like own ("%." ++ Like.escape name)) = true ↔
      AnswersTo Char.toLower name own := by
    intro own
    rw [Bool.or_eq_true, beq_iff_eq, Like.like_suffix, AnswersTo]
  rw [isEntityNamed, Bool.and_eq_true, Option.any_eq_true]
  simp only [hanswers]
  exact ⟨fun h => ⟨h.1, h.2⟩, fun h => ⟨h.isEntity, h.answers⟩⟩

/-- What is chosen for a name among things with labels. -/
structure Chosen {α : Type} (label : α → Label) (fold : Char → Char) (name : String) (xs : List α)
    (found : Option α) : Prop where
  isSome_iff : found.isSome = true ↔ ∃ x ∈ xs, (label x).Named fold name
  named : ∀ x ∈ found, x ∈ xs ∧ (label x).Named fold name
  exact : ∀ x ∈ found, (∃ y ∈ xs, (label y).Named fold name ∧ (label y).own = some name) →
    (label x).own = some name
  /-- Among equally good ones, one of the least path. -/
  least : ∀ x ∈ found, ∀ y ∈ xs, (label y).Named fold name →
    ((label y).own = some name ↔ (label x).own = some name) → (label x).path ≤ (label y).path

namespace Chosen

variable {α β : Type} {label : α → Label} {fold : Char → Char} {name : String} {xs : List α}

theorem head?_exactFirst {test : α → Bool}
    (htest : ∀ x, test x = true ↔ (label x).Named fold name) :
    Chosen label fold name xs (exactFirst (fun x => (label x).own == some name)
      (fun x y => decide ((label x).path ≤ (label y).path)) (xs.filter test)).head? := by
  have hmem : ∀ x, x ∈ exactFirst (fun x => (label x).own == some name)
      (fun x y => decide ((label x).path ≤ (label y).path)) (xs.filter test) ↔
        x ∈ xs ∧ (label x).Named fold name := by
    intro x
    rw [mem_exactFirst, List.mem_filter, htest]
  have hordered := pairwise_exactFirst (fun x => (label x).own == some name)
    (SortOrder.text.on fun x => (label x).path)
    (List.pairwise_of_forall (R := fun _ _ => True) (l := xs.filter test) fun _ _ => trivial)
  refine ⟨?_, fun x hx => (hmem x).1 (List.mem_of_head? hx), fun x hx hexact => ?_,
    fun x hx y hy hnamed hsame => ?_⟩
  · rw [List.isSome_head?, ← List.isEmpty_eq_false_iff, List.isEmpty_eq_false_iff_exists_mem]
    exact exists_congr hmem
  · obtain ⟨y, hy, hnamed, hown⟩ := hexact
    rcases leads_of_head? hordered hx y ((hmem y).2 ⟨hy, hnamed⟩) with rfl | hxy
    · exact hown
    · simpa [hown] using hxy.1
  · rcases leads_of_head? hordered hx y ((hmem y).2 ⟨hy, hnamed⟩) with rfl | hxy
    · exact String.le_refl _
    · have hback : ((label y).own == some name || !(label x).own == some name) = true := by
        by_cases hown : (label x).own = some name <;> simp [hown, hsame]
      simpa using (hxy.2 hback).1

theorem map {read : α → β} {label' : β → Label} (hread : ∀ x ∈ xs, label' (read x) = label x)
    {found : Option α} (h : Chosen label fold name xs found) :
    Chosen label' fold name (xs.map read) (found.map read) := by
  -- What is asked of labels is asked of the same labels before and after.
  have hexists : ∀ p : Label → Prop, (∃ y ∈ xs.map read, p (label' y)) ↔ ∃ x ∈ xs, p (label x) := by
    intro p
    simp only [List.mem_map, exists_exists_and_eq_and]
    exact exists_congr fun x => and_congr_right fun hx => by rw [hread x hx]
  cases found with
  | none =>
    refine ⟨?_, by simp, by simp, by simp⟩
    rw [hexists (Label.Named fold name)]
    exact h.isSome_iff
  | some x =>
    obtain ⟨hx, hnamed⟩ := h.named x rfl
    have hlabel := hread x hx
    refine ⟨?_, ?_, ?_, ?_⟩
    · rw [hexists (Label.Named fold name)]
      exact h.isSome_iff
    · simp only [Option.map_some, Option.mem_some_iff, forall_eq', hlabel]
      exact ⟨List.mem_map.2 ⟨x, hx, rfl⟩, hnamed⟩
    · simp only [Option.map_some, Option.mem_some_iff, forall_eq', hlabel]
      rw [hexists fun l => l.Named fold name ∧ l.own = some name]
      exact h.exact x rfl
    · simp only [Option.map_some, Option.mem_some_iff, forall_eq', hlabel, List.forall_mem_map]
      intro y hy
      rw [hread y hy]
      exact h.least x rfl y hy

end Chosen

namespace Table

def namedRows (t : Table) (name : String) : List Row :=
  exactFirst (·.entityName == some name) (fun r s => decide (r.filePath ≤ s.filePath))
    (t.rows.filter (Row.isEntityNamed name))

theorem entityNamed?_eq (t : Table) (name : String) : Store.entityNamed? t name =
    (t.namedRows name).head?.elim (.ok none) fun r => r.toFragment.map some := by
  change entityNamed? t name = _
  unfold entityNamed?
  dsimp only
  split
  · next hnone =>
    have hrows : t.namedRows name = [] := hnone
    rw [hrows]
    rfl
  · next r rest hsome =>
    have hrows : t.namedRows name = r :: rest := hsome
    rw [hrows]
    rfl

theorem entityNamed?_chosen (t : Table) (name : String) :
    ∃ found, Chosen Row.label Char.toLower name t.rows found ∧
      Store.entityNamed? t name = found.elim (.ok none) fun r => r.toFragment.map some :=
  ⟨_, Chosen.head?_exactFirst fun _ => Row.isEntityNamed_iff_label, entityNamed?_eq t name⟩

/-- Every row that changes leave is read, with the label that it has. -/
theorem reads_history (weights : KeywordWeights Float) (model : String)
    (ops : List (Int × StoreOp)) : ∀ r ∈ ((empty weights model).history ops).2.rows,
      r.toFragment = .ok r.fragment ∧ r.fragment.label = r.label := by
  intro r hr
  obtain ⟨hsound, hremembers⟩ := remembers_history weights model ops
  obtain ⟨p, time, _, rfl, _⟩ := (inStep hsound hremembers).lastWritten r hr
  refine ⟨Row.reads_ofFragment p.1 time, ?_⟩
  have hkind : (p.1.kind == FragmentKind.entity) =
      (p.1.kind.name == FragmentKind.entity.name) := by
    rw [Bool.eq_iff_iff, beq_iff_eq, beq_iff_eq]
    exact ⟨congrArg FragmentKind.name, FragmentKind.name_inj⟩
  simp only [Fragment.label, Row.label, Row.fragment, Row.ofFragment, FragmentKind.ofName?_name,
    Option.getD_some, hkind]

end Table

/-- Every name leads to the right fragment. In memory case is respected; in tables letters of ASCII
behind a dot match in either case, and what is chosen can be read unless the row was tampered
with. -/
theorem entityNamed?_literal (name : String) :
    (∀ m : Memory, ∃ found, Store.entityNamed? m name = .ok found ∧
      Chosen Fragment.label id name m.entries.fragments found) ∧
    (∀ (weights : KeywordWeights Float) (model : String) (ops : List (Int × StoreOp)),
      let t := ((Table.empty weights model).history ops).2
      ∃ found, Store.entityNamed? t name = .ok found ∧
        Chosen Fragment.label Char.toLower name t.contents.fragments found) ∧
    ∀ t : Table, ∃ found, Chosen Row.label Char.toLower name t.rows found ∧
      Store.entityNamed? t name = found.elim (.ok none) fun r => r.toFragment.map some := by
  refine ⟨fun m => ⟨_, rfl, ?_⟩, fun weights model ops => ?_, fun t => t.entityNamed?_chosen name⟩
  · rw [Entries.entityNamed?_eq]
    exact Chosen.head?_exactFirst fun _ => Entries.isEntityNamed_iff_label
  · intro t
    obtain ⟨found, hchosen, hread⟩ := t.entityNamed?_chosen name
    have hrows := Table.reads_history weights model ops
    refine ⟨found.map Row.fragment, ?_, ?_⟩
    · rw [hread]
      cases found with
      | none => rfl
      | some r =>
        have hmem := (hchosen.named r rfl).1
        rw [Option.elim_some, (hrows r hmem).1]
        rfl
    · rw [Agree.contents_fragments]
      exact hchosen.map fun r hr => (hrows r hr).2

end CodeRetrieval
