import CodeRetrieval.Proofs.Chunk.Origin
import CodeRetrieval.Proofs.Reference
import Mathlib.Data.List.Perm.Basic

/-!
In what order artifacts come. No artifact is cut differently because of those before it: what all of
them declare is the same in any order, and nothing else is known of the others.
-/

set_option autoImplicit false

namespace CodeRetrieval.Chunk

open Source

variable {limits : ChunkLimits} {reader : Reader} {artifacts artifacts' : List Artifact}

theorem readings_perm (h : artifacts'.Perm artifacts) :
    (readings reader artifacts').Perm (readings reader artifacts) :=
  (h.filter _).map _

theorem knownOf_eq_of_perm (h : artifacts'.Perm artifacts) :
    knownOf limits reader artifacts' = knownOf limits reader artifacts :=
  KnownNames.ofFiles_eq_of_perm ((readings_perm (h.filter _)).filterMap _)

theorem emitted_perm_of_perm (h : artifacts'.Perm artifacts) :
    (emitted limits reader artifacts').Perm (emitted limits reader artifacts) := by
  have haccepted := h.filter (accepts limits)
  rw [emitted, emitted, knownOf_eq_of_perm h]
  exact ((readings_perm haccepted).flatMap_right _).append (haccepted.flatMap_right _)

/-- If no two fragments have one id, the same fragments come in whatever order artifacts come. -/
theorem ofArtifacts_perm (limits : ChunkLimits) (reader : Reader)
    (hids : ((emitted limits reader artifacts).map (·.id)).Nodup)
    (horder : artifacts'.Perm artifacts) :
    (ofArtifacts limits reader artifacts').Perm (ofArtifacts limits reader artifacts) := by
  have hemitted : (emitted limits reader artifacts').Perm (emitted limits reader artifacts) :=
    emitted_perm_of_perm horder
  have hids' : ((emitted limits reader artifacts').map (·.id)).Nodup :=
    (hemitted.map _).nodup_iff.2 hids
  rw [ofArtifacts_eq_emitted_iff_ids.2 hids, ofArtifacts_eq_emitted_iff_ids.2 hids']
  exact hemitted

theorem ofArtifacts_perm_order :
    let limits : ChunkLimits := ⟨1, 200, 500, 1, true, true⟩
    let order : Artifact := ⟨"Order.java", "class Order \x7b\n Cart cart;\n Money sum;\n\x7d\n"⟩
    let cart : Artifact := ⟨"Cart.java", "class Cart \x7b\n int items;\n\x7d\n"⟩
    let note : Artifact := ⟨"notes.md", "The Cart of an Order in Paris\n"⟩
    ((emitted limits Outline.read [note, order, cart]).map fun f => (f.filePath, f.references)) =
        [("Order.java", ["Cart"]), ("Cart.java", []), ("notes.md", ["Cart", "Order"])] ∧
      ((emitted limits Outline.read [note, order, cart]).map (·.id)).Nodup ∧
      [cart, note, order].Perm [note, order, cart] ∧
      (ofArtifacts limits Outline.read [cart, note, order]).Perm
        (ofArtifacts limits Outline.read [note, order, cart]) := by
  intro limits order cart note
  have hids : ((emitted limits Outline.read [note, order, cart]).map (·.id)).Nodup := by
    decide +kernel
  have horder : [cart, note, order].Perm [note, order, cart] := by decide
  exact ⟨by decide +kernel, hids, horder, ofArtifacts_perm limits Outline.read hids horder⟩

end CodeRetrieval.Chunk
