set_option autoImplicit false

namespace CodeRetrieval

/-- An order in which tasks may finish. -/
structure Schedule where
  arrange : {α : Type} → List α → List α
  perm : ∀ {α : Type} (xs : List α), (arrange xs).Perm xs

namespace Schedule

def inOrder : Schedule := ⟨fun xs => xs, fun xs => .refl xs⟩

def results {α β : Type} (s : Schedule) (run : α → β) (tasks : List α) : List (Nat × β) :=
  s.arrange (tasks.zipIdx.map fun (t, i) => (i, run t))

def inPlace {β : Type} (rs : List (Nat × β)) : List β :=
  (rs.mergeSort fun a b => a.1 ≤ b.1).map (·.2)

/-- The results of tasks, each in the place of its task. -/
def collect {α β : Type} (s : Schedule) (run : α → β) (tasks : List α) : List β :=
  inPlace (s.results run tasks)

end Schedule

end CodeRetrieval
