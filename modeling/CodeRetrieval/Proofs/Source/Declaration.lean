import CodeRetrieval.Source.Declaration

set_option autoImplicit false

namespace CodeRetrieval.Source

/-- A declared type declares itself and what the types nested in it declare. -/
inductive Entity.Declares : Entity → Declaration → Prop where
  | self (e : Entity) : e.Declares e.declaration
  | inner {e nested : Entity} {d : Declaration} :
      nested ∈ e.inner → nested.Declares d → e.Declares d

/-- A type holds itself and what the types nested in it hold. -/
inductive Entity.Holds : Entity → Entity → Prop where
  | self (e : Entity) : e.Holds e
  | inner {e nested f : Entity} : nested ∈ e.inner → nested.Holds f → e.Holds f

def SourceFile.Holds (file : SourceFile) (e : Entity) : Prop :=
  ∃ top ∈ file.entities, top.Holds e

theorem mem_walkAll {d : Declaration} {es : List Entity} :
    d ∈ walkAll es ↔ ∃ e ∈ es, d ∈ e.walk := by
  induction es with
  | nil => simp [walkAll]
  | cons e es ih => simp [walkAll, ih]

theorem mem_walk {d : Declaration} {e : Entity} :
    d ∈ e.walk ↔ d = e.declaration ∨ ∃ nested ∈ e.inner, d ∈ nested.walk := by
  cases e with
  | mk own inner => simp [Entity.walk, mem_walkAll]

theorem Entity.Declares.mem_walk {d : Declaration} {e : Entity} (h : e.Declares d) :
    d ∈ e.walk := by
  induction h with
  | self e => exact Source.mem_walk.2 (.inl rfl)
  | inner hnested _ ih => exact Source.mem_walk.2 (.inr ⟨_, hnested, ih⟩)

theorem declares_of_mem_walk {d : Declaration} {e : Entity} (h : d ∈ e.walk) : e.Declares d := by
  rcases mem_walk.1 h with rfl | ⟨nested, hnested, hd⟩
  · exact .self e
  · have smaller : sizeOf nested < sizeOf e := by
      cases e with
      | mk own inner =>
        have hlt := List.sizeOf_lt_of_mem hnested
        simp only [Entity.mk.sizeOf_spec] at hlt ⊢
        omega
    exact .inner hnested (declares_of_mem_walk hd)
termination_by sizeOf e

theorem SourceFile.mem_declarations {d : Declaration} {file : SourceFile} :
    d ∈ file.declarations ↔ ∃ e ∈ file.entities, e.Declares d := by
  rw [declarations, mem_walkAll]
  exact exists_congr fun e => and_congr_right fun _ =>
    ⟨declares_of_mem_walk, Entity.Declares.mem_walk⟩

theorem Reading.file?_insteadOf (reason : String) (r : Reading) :
    (r.insteadOf reason).file? = r.file? := by
  cases r <;> rfl

theorem Reader.of_file?_orElse {first second : Reader} {path text : String} {file : SourceFile}
    (h : (first.orElse second path text).file? = some file) :
    (first path text).file? = some file ∨ (second path text).file? = some file := by
  unfold orElse at h
  split at h
  · rw [Reading.file?_insteadOf] at h
    exact .inr h
  · exact .inl h

/-- What is read in place of a reading that failed is marked as such. -/
theorem Reader.file?_first {first second : Reader} {path text : String} {file : SourceFile}
    (h : (first.orElse second path text).file? = some file)
    (hfull : (first.orElse second path text).degradedReason? = none) :
    (first path text).file? = some file := by
  unfold orElse at h hfull
  split at h
  · next reason hfailed =>
    rw [hfailed] at hfull
    cases hsecond : second path text <;>
      simp_all [Reading.insteadOf, Reading.file?, Reading.degradedReason?]
  · exact h

/-- A reader whose files stand under the paths that they are read from. -/
def Reader.KeepsPaths (reader : Reader) : Prop :=
  ∀ path text file, (reader path text).file? = some file → file.path = path

theorem Reader.KeepsPaths.orElse {first second : Reader} (hfirst : first.KeepsPaths)
    (hsecond : second.KeepsPaths) : (first.orElse second).KeepsPaths := fun path text file hfile =>
  (Reader.of_file?_orElse hfile).elim (hfirst path text file) (hsecond path text file)

end CodeRetrieval.Source
