import CodeRetrieval.Proofs.Store.Memory
import CodeRetrieval.Proofs.Store.Table

set_option autoImplicit false

namespace CodeRetrieval

inductive StoreOp where
  | upsert (fragments : List Fragment) (vectors : Option (List Embedding))
  | deletePath (path : String)
  | deletePathLead (lead : String)
  deriving DecidableEq, Repr

section History

variable {S : Type} [Store S]

def StoreOp.run (s : S) : StoreOp → Outcome (Nat × S)
  | .upsert fragments vectors => Store.upsert s fragments vectors
  | .deletePath path => Store.deletePath s path
  | .deletePathLead lead => Store.deletePathLead s lead

def StoreOp.step (s : S) (op : StoreOp) : Outcome Nat × S :=
  match op.run s with
  | .ok (n, t) => (.ok n, t)
  | .error f => (.error f, s)

/-- The answers to some changes and the store after them; `tick` tells a store the time. -/
def history (tick : Int → S → S) (s : S) : List (Int × StoreOp) → List (Outcome Nat) × S
  | [] => ([], s)
  | (time, op) :: rest =>
    let (answer, t) := op.step (tick time s)
    let (answers, u) := history tick t rest
    (answer :: answers, u)

end History

namespace Memory

def history (m : Memory) (ops : List (Int × StoreOp)) : List (Outcome Nat) × Memory :=
  CodeRetrieval.history (fun _ m => m) m ops

/-- The store after some changes to an empty one. -/
def Reachable (m : Memory) : Prop := ∃ weights ops, m = ((empty weights).history ops).2

end Memory

namespace Table

def tick (time : Int) (t : Table) : Table := { t with clock := time }

def history (t : Table) (ops : List (Int × StoreOp)) : List (Outcome Nat) × Table :=
  CodeRetrieval.history tick t ops

end Table

namespace KeyedStore

variable {S : Type} [Store S] [KeyedStore S]

theorem step_upsert_ok (s : S) {fs : List Fragment} {vs : Option (List Embedding)}
    {ps : List Upserted} (h : pairVectors fs vs = .ok ps) :
    (StoreOp.upsert fs vs).step s = (.ok fs.length, puts s ps) := by
  simp only [StoreOp.step, StoreOp.run, upsert_eq, h]
  rfl

theorem step_upsert_error (s : S) {fs : List Fragment} {vs : Option (List Embedding)}
    {f : Failure} (h : pairVectors fs vs = .error f) :
    (StoreOp.upsert fs vs).step s = (.error f, s) := by
  simp only [StoreOp.step, StoreOp.run, upsert_eq, h]
  rfl

theorem step_deletePath (s : S) (file : String) : (StoreOp.deletePath file).step s =
    (.ok ((items s).countP (path · == file)), drop s (· == file)) := by
  simp only [StoreOp.step, StoreOp.run, deletePath_eq]

theorem step_deletePathLead (s : S) (lead : String) : (StoreOp.deletePathLead lead).step s =
    (.ok ((items s).countP fun x => isUnder S lead (path x)), drop s (isUnder S lead)) := by
  simp only [StoreOp.step, StoreOp.run, deletePathLead_eq]

theorem sound_step {s : S} (op : StoreOp) (h : Sound s) : Sound (op.step s).2 := by
  cases op with
  | upsert fs vs =>
    cases hp : pairVectors fs vs with
    | ok ps =>
      rw [step_upsert_ok s hp]
      exact sound_puts ps h
    | error f =>
      rw [step_upsert_error s hp]
      exact h
  | deletePath file =>
    rw [step_deletePath]
    exact sound_drop _ h
  | deletePathLead lead =>
    rw [step_deletePathLead]
    exact sound_drop _ h

theorem sound_history {tick : Int → S → S} (htick : ∀ time s, Sound s → Sound (tick time s))
    {s : S} (ops : List (Int × StoreOp)) (h : Sound s) : Sound (history tick s ops).2 := by
  induction ops generalizing s with
  | nil => exact h
  | cons op ops ih => exact ih (sound_step op.2 (htick op.1 s h))

end KeyedStore

theorem Memory.Reachable.sorted {m : Memory} (h : m.Reachable) : m.entries.Sorted := by
  obtain ⟨weights, ops, rfl⟩ := h
  exact KeyedStore.sound_history (S := Memory) (fun _ _ h => h) ops List.Pairwise.nil

end CodeRetrieval
