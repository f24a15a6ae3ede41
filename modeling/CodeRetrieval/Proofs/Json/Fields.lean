import CodeRetrieval.Json.Reader
import CodeRetrieval.Proofs.Placing

set_option autoImplicit false

namespace CodeRetrieval.Json

variable {α : Type}

theorem setField_eq (name : String) (v : α) (fs : List (String × α)) :
    setField name v fs = insertBy (·.1) (name, v) fs := by
  induction fs with
  | nil => rfl
  | cons f fs ih => simp only [setField, insertBy, ih]

theorem sortedBy_foldl_setField (written : List (String × α)) {acc : List (String × α)}
    (h : SortedBy (·.1) acc) :
    SortedBy (·.1) (written.foldl (fun acc (k, v) => setField k v acc) acc) := by
  induction written generalizing acc with
  | nil => exact h
  | cons f written ih =>
    obtain ⟨name, v⟩ := f
    have hset := sorted_insertBy (name, v) h
    rw [← setField_eq] at hset
    exact ih hset

theorem sortedBy_orderFields (written : List (String × α)) :
    SortedBy (·.1) (orderFields written) :=
  sortedBy_foldl_setField written List.Pairwise.nil

theorem sortedBy_of_readValue {depth : Nat} {s rest : List Char} {fields : List (String × Json)}
    (h : readValue depth s = some (.obj fields, rest)) : SortedBy (·.1) fields := by
  cases depth with
  | zero => cases h
  | succ depth =>
    cases s with
    | nil => cases h
    | cons c s =>
      simp only [readValue, readWord] at h
      split at h
      · split at h
        · cases h
        · obtain ⟨found, _, hfound⟩ := Option.map_eq_some_iff.1 h
          cases hfound
          exact sortedBy_orderFields found.1
      · -- No other value is an object.
        exfalso
        grind [Option.map_eq_some_iff]

theorem sortedBy_of_parse? {text : String} {fields : List (String × Json)}
    (h : parse? text = some (.obj fields)) : SortedBy (·.1) fields := by
  unfold parse? at h
  split at h
  · next v rest hread =>
    obtain ⟨_, h⟩ := Option.ite_none_right_eq_some.1 h
    cases h
    exact sortedBy_of_readValue hread
  · cases h

end CodeRetrieval.Json
