import CodeRetrieval.Proofs.Placing
import CodeRetrieval.Reference

set_option autoImplicit false

namespace CodeRetrieval

theorem insertSorted_eq_insertBy (x : String) (xs : List String) :
    insertSorted x xs = insertBy id x xs := by
  induction xs with
  | nil => rfl
  | cons y xs ih =>
    simp only [insertSorted, insertBy, id, ih]
    by_cases hbefore : x < y
    · rw [if_pos hbefore, if_pos hbefore]
    · rw [if_neg hbefore, if_neg hbefore]
      by_cases hafter : y < x
      · rw [if_pos hafter, if_pos hafter]
      · rw [if_neg hafter, if_neg hafter]
        rw [String.le_antisymm (String.not_lt.1 hafter) (String.not_lt.1 hbefore)]

theorem sortedBy_sortedSet (xs : List String) : SortedBy id (sortedSet xs) := by
  induction xs with
  | nil => exact .nil
  | cons x xs ih =>
    have hinsert := sorted_insertBy x ih
    rw [← insertSorted_eq_insertBy] at hinsert
    exact hinsert

theorem mem_sortedSet {x : String} {xs : List String} : x ∈ sortedSet xs ↔ x ∈ xs := by
  induction xs with
  | nil => exact Iff.rfl
  | cons y xs ih =>
    have hinsert := mem_insertBy y x (sortedBy_sortedSet xs)
    rw [← insertSorted_eq_insertBy, ih] at hinsert
    refine hinsert.trans ?_
    by_cases heq : x = y <;> simp [heq]

theorem sortedSet_eq_of_mem_iff {xs ys : List String} (h : ∀ x, x ∈ xs ↔ x ∈ ys) :
    sortedSet xs = sortedSet ys := by
  refine (sortedBy_sortedSet xs).eq_of_mem_iff (sortedBy_sortedSet ys) fun x => ?_
  rw [mem_sortedSet, mem_sortedSet, h]

namespace KnownNames

variable {known : KnownNames} {name : String}

theorem ofFiles_eq_of_perm {files files' : List Source.SourceFile} (h : files.Perm files') :
    ofFiles files = ofFiles files' :=
  congrArg mk (sortedSet_eq_of_mem_iff fun _ => (h.flatMap_right _).mem_iff)

theorem mem_names_ofFiles {files : List Source.SourceFile} :
    name ∈ (ofFiles files).names ↔
      ∃ file ∈ files, ∃ d ∈ file.declarations, name = d.name ∨ name = d.qualifiedName := by
  simp [ofFiles, ofNames, mem_sortedSet]

theorem mem_of_admits (h : known.admits name = true) (hsome : known.names ≠ []) :
    name ∈ known.names := by
  simpa [admits, hsome] using h

end KnownNames

namespace Reference

variable {known : KnownNames} {candidates own : List String} {text name : String}

/-- In increasing order, and of names that may be referred to. -/
structure Listed (known : KnownNames) (names : List String) : Prop where
  sorted : names.Pairwise (· < ·)
  admitted : ∀ name ∈ names, known.admits name = true

theorem listed_sortedSet {names : List String} (h : ∀ name ∈ names, known.admits name = true) :
    Listed known (sortedSet names) :=
  ⟨sortedBy_sortedSet names, fun name hname => h name (mem_sortedSet.1 hname)⟩

theorem mem_select : name ∈ select candidates own known ↔
    (∃ c ∈ candidates, Source.baseTypeName c = name) ∧ startsUpper name = true ∧
      name ∉ builtinTypes ∧ name ∉ own ∧ known.admits name = true := by
  simp [select, mem_sortedSet, and_assoc]

theorem listed_select : Listed known (select candidates own known) := by
  refine listed_sortedSet fun name hname => ?_
  have hchecked := (List.mem_filter.1 hname).2
  simp only [Bool.and_eq_true] at hchecked
  exact hchecked.2

theorem listed_ofText : Listed known (ofText text known) := by
  refine listed_sortedSet fun name hname => ?_
  have hchecked := (List.mem_filter.1 hname).2
  simp only [Bool.and_eq_true] at hchecked
  exact hchecked.2

end Reference

end CodeRetrieval
