import CodeRetrieval.Index.Run
import CodeRetrieval.Retrieval.Trace

/-!
Computations that may fail and leave something behind. What succeeded as a whole succeeded step by
step, so a successful run is taken apart at its first step.
-/

set_option autoImplicit false

namespace CodeRetrieval

abbrev outcomeOf {σ α : Type} (x : ExceptT Failure (StateM σ) α) (s : σ) : Outcome α × σ :=
  (ExceptT.run x).run s

namespace Effect

variable {σ α β : Type} {x : ExceptT Failure (StateM σ) α} {f : α → ExceptT Failure (StateM σ) β}
  {s s' : σ}

theorem bind_of_ok {a : α} (h : outcomeOf x s = (.ok a, s')) :
    outcomeOf (x >>= f) s = outcomeOf (f a) s' := by
  simp only [outcomeOf, ExceptT.run_bind, StateT.run_bind] at *
  rw [h]
  rfl

theorem bind_of_error {e : Failure} (h : outcomeOf x s = (.error e, s')) :
    outcomeOf (x >>= f) s = (.error e, s') := by
  simp only [outcomeOf, ExceptT.run_bind, StateT.run_bind] at *
  rw [h]
  rfl

theorem bind_of_fst_error {e : Failure} (h : (outcomeOf x s).1 = .error e) :
    (outcomeOf (x >>= f) s).1 = .error e := by
  rcases hx : outcomeOf x s with ⟨answer, t⟩
  rw [hx] at h
  cases h
  rw [bind_of_error hx]

theorem map_of_fst_error {g : α → β} {e : Failure} (h : (outcomeOf x s).1 = .error e) :
    (outcomeOf (g <$> x) s).1 = .error e := by
  rw [map_eq_pure_bind]
  exact bind_of_fst_error h

/-- A sequence succeeds only if both of its parts do. -/
theorem bind_ok {b : β} (h : outcomeOf (x >>= f) s = (.ok b, s')) :
    ∃ a t, outcomeOf x s = (.ok a, t) ∧ outcomeOf (f a) t = (.ok b, s') := by
  rcases hx : outcomeOf x s with ⟨answer, t⟩
  cases answer with
  | error e => simp [bind_of_error hx] at h
  | ok a => exact ⟨a, t, rfl, by rwa [bind_of_ok hx] at h⟩

end Effect

namespace Outcome

variable {α β γ : Type}

@[simp] theorem ok_bind (a : α) (f : α → Outcome β) : (Except.ok a : Outcome α) >>= f = f a := rfl

theorem bind_ok {x : Outcome α} {f : α → Outcome β} {b : β} (h : x >>= f = .ok b) :
    ∃ a, x = .ok a ∧ f a = .ok b := by
  cases x with
  | error e => cases h
  | ok a => exact ⟨a, rfl, h⟩

theorem map_ok {x : Outcome α} {f : α → β} {b : β} (h : x.map f = .ok b) :
    ∃ a, x = .ok a ∧ f a = b := by
  cases x with
  | error e => cases h
  | ok a =>
    cases h
    exact ⟨a, rfl, rfl⟩

theorem mapM_of_ok {f : α → Outcome β} {g : α → β} {xs : List α}
    (h : ∀ x ∈ xs, f x = .ok (g x)) : xs.mapM f = .ok (xs.map g) := by
  induction xs with
  | nil => rfl
  | cons x xs ih =>
    have hx := h x (by simp)
    have hxs := ih fun y hy => h y (by simp [hy])
    rw [List.mapM_cons, hx, hxs]
    rfl

theorem map_of_mapM_ok {f : α → Outcome β} {before : α → γ} {after : β → γ}
    (keeps : ∀ x y, f x = .ok y → after y = before x) {xs : List α} {ys : List β}
    (h : xs.mapM f = .ok ys) : ys.map after = xs.map before := by
  induction xs generalizing ys with
  | nil =>
    cases h
    rfl
  | cons x xs ih =>
    rw [List.mapM_cons] at h
    obtain ⟨y, hy, h⟩ := bind_ok h
    obtain ⟨zs, hzs, h⟩ := bind_ok h
    cases h
    rw [List.map_cons, List.map_cons, keeps x y hy, ih hzs]

theorem mem_of_mapM_ok {f : α → Outcome β} {xs : List α} {ys : List β} (h : xs.mapM f = .ok ys) :
    ∀ y ∈ ys, ∃ x ∈ xs, f x = .ok y := by
  induction xs generalizing ys with
  | nil =>
    cases h
    exact fun _ hy => nomatch hy
  | cons x xs ih =>
    rw [List.mapM_cons] at h
    obtain ⟨z, hz, h⟩ := bind_ok h
    obtain ⟨zs, hzs, h⟩ := bind_ok h
    cases h
    refine List.forall_mem_cons.2 ⟨⟨x, by simp, hz⟩, ?_⟩
    intro y hy
    obtain ⟨w, hw, hwy⟩ := ih hzs y hy
    exact ⟨w, by simp [hw], hwy⟩

end Outcome

end CodeRetrieval
