import CodeRetrieval.Proofs.Json.Strings
import CodeRetrieval.Proofs.Store.History
import CodeRetrieval.Proofs.Text.Search
import Mathlib.Algebra.Group.Nat.Defs

/-!
A store in memory and a store of tables agree while their rows read back as the entries. Every
change keeps them in agreement and answers the same on both.
-/

set_option autoImplicit false

namespace CodeRetrieval

/-- What a fragment has to be for its row to be read back as it was: lines that fit a signed column,
and metadata that their JSON text gives back. -/
structure Fragment.Storable (f : Fragment) : Prop where
  startLine : f.startLine < 2 ^ 63
  endLine : f.endLine < 2 ^ 63
  metadata : (Json.parse? (Json.obj f.metadata).compact).bind Json.fields? = some f.metadata

theorem toSigned_of_lt {n : Nat} (h : n < 2 ^ 63) : toSigned n = n := by
  unfold toSigned Int.bmod
  simp only [UInt64.size]
  omega

namespace Row

def fragment (r : Row) : Fragment where
  id := r.id
  content := r.content
  language := r.language
  kind := (FragmentKind.ofName? r.kind).getD .entity
  filePath := r.filePath
  startLine := r.startLine.toNat
  endLine := r.endLine.toNat
  entityName := r.entityName
  memberName := r.memberName
  documentation := r.documentation
  references := ((Json.parse? r.referencesJson).bind Fragment.texts?).getD []
  metadata := ((Json.parse? r.metadataJson).bind Json.fields?).getD []

/-- A row that is read as its columns stand. -/
structure Faithful (r : Row) : Prop where
  reads : r.toFragment = .ok r.fragment
  kind : r.kind = r.fragment.kind.name
  startLine : r.startLine = r.fragment.startLine

theorem references_ofFragment (f : Fragment) (time : Int) :
    (Json.parse? (ofFragment f time).referencesJson).bind Fragment.texts? = some f.references := by
  simp only [ofFragment, Json.parse?_ofStrings, Option.bind_some, Fragment.texts?_ofStrings]

theorem fragment_ofFragment {f : Fragment} (h : f.Storable) (time : Int) :
    (ofFragment f time).fragment = f := by
  have hreferences := references_ofFragment f time
  simp only [ofFragment] at hreferences
  simp only [fragment, ofFragment, toSigned_of_lt h.startLine, toSigned_of_lt h.endLine,
    FragmentKind.ofName?_name, hreferences, h.metadata, Option.getD_some, Int.toNat_natCast]

theorem reads_ofFragment (f : Fragment) (time : Int) :
    (ofFragment f time).toFragment = .ok (ofFragment f time).fragment := by
  have hreferences := references_ofFragment f time
  have hkind : FragmentKind.ofName? (ofFragment f time).kind = some f.kind :=
    FragmentKind.ofName?_name f.kind
  rw [toFragment, hreferences, hkind]
  simp only [fragment, hreferences, hkind, Option.getD_some]

theorem faithful_ofFragment {f : Fragment} (h : f.Storable) (time : Int) :
    (ofFragment f time).Faithful where
  reads := reads_ofFragment f time
  kind := by
    rw [fragment_ofFragment h]
    rfl
  startLine := by
    rw [fragment_ofFragment h]
    simp only [ofFragment, toSigned_of_lt h.startLine]

end Row

def Table.contents (t : Table) : Entries := t.items.map fun x => ⟨x.1.fragment, x.2⟩

/-- The two stores hold the same fragments with the same vectors. -/
structure Agree (m : Memory) (t : Table) : Prop where
  sorted : m.entries.Sorted
  sound : t.Sound
  faithful : ∀ r ∈ t.rows, r.Faithful
  weights : m.weights = t.weights
  mem_iff : ∀ e, e ∈ t.contents ↔ e ∈ m.entries

namespace Agree

variable {m : Memory} {t : Table}

theorem empty (weights : KeywordWeights Float) (model : String) :
    Agree (Memory.empty weights) (Table.empty weights model) where
  sorted := List.Pairwise.nil
  sound := Table.sound_empty weights model
  faithful _ h := nomatch h
  weights := rfl
  mem_iff e := by simp [Table.contents, Table.items, Table.empty, Memory.empty]

theorem tick (h : Agree m t) (time : Int) : Agree m (t.tick time) :=
  ⟨h.sorted, ⟨h.sound.ids, h.sound.vectorIds, h.sound.owned⟩, h.faithful, h.weights, h.mem_iff⟩

theorem contents_ids (t : Table) : t.contents.map (·.fragment.id) = t.rows.map (·.id) := by
  simp only [Table.contents, Table.items, List.map_map]
  rfl

theorem contents_perm (h : Agree m t) : t.contents.Perm m.entries := by
  have hcontents : (t.contents.map (·.fragment.id)).Nodup := by
    rw [contents_ids]
    exact h.sound.ids
  exact (List.perm_ext_iff_of_nodup hcontents.of_map h.sorted.keys_nodup.of_map).2 h.mem_iff

theorem put (h : Agree m t) (p : Upserted) (hp : p.1.Storable) :
    Agree (m.put p) (t.put p.1 p.2) where
  sorted := KeyedStore.sound_put (S := Memory) p h.sorted
  sound := Table.sound_put p h.sound
  faithful r hr := by
    simp only [Table.put, Table.putRow_eq] at hr
    obtain rfl | ⟨hr, _⟩ := (mem_replaceBy _ r h.sound.ids).1 hr
    · exact Row.faithful_ofFragment hp _
    · exact h.faithful r hr
  weights := h.weights
  mem_iff e := by
    have hmemory : e ∈ (m.put p).entries ↔
        e = ⟨p.1, p.2⟩ ∨ e ∈ m.entries ∧ e.fragment.id ≠ p.1.id :=
      KeyedStore.mem_put (S := Memory) p e h.sorted
    rw [hmemory, ← h.mem_iff e]
    -- The new row is the one that is read back as `p`; all others have other ids on both sides.
    simp only [Table.contents, List.mem_map, Table.mem_items_put p _ h.sound]
    constructor
    · intro hcases
      rcases hcases with ⟨x, rfl | ⟨hx, hne⟩, rfl⟩
      · exact .inl (by rw [Row.fragment_ofFragment hp])
      · exact .inr ⟨⟨x, hx, rfl⟩, hne⟩
    · intro hcases
      rcases hcases with rfl | ⟨⟨x, hx, rfl⟩, hne⟩
      · exact ⟨_, .inl rfl, by rw [Row.fragment_ofFragment hp]⟩
      · exact ⟨x, .inr ⟨hx, hne⟩, rfl⟩

theorem puts (ps : List Upserted) (h : Agree m t) (hps : ∀ p ∈ ps, p.1.Storable) :
    Agree (KeyedStore.puts m ps) (KeyedStore.puts t ps) := by
  induction ps generalizing m t with
  | nil => exact h
  | cons p ps ih =>
    exact ih (h.put p (hps p (by simp))) fun q hq => hps q (by simp [hq])

theorem contents_drop (gone : String → Bool) (h : t.Sound) :
    (t.drop gone).contents = t.contents.filter fun e => !gone e.fragment.filePath := by
  simp only [Table.contents, Table.items_drop gone h, List.filter_map]
  rfl

theorem drop (gone : String → Bool) (h : Agree m t) : Agree (m.drop gone) (t.drop gone) where
  sorted := KeyedStore.sound_drop (S := Memory) gone h.sorted
  sound := Table.sound_drop gone h.sound
  faithful r hr := h.faithful r (List.mem_filter.1 hr).1
  weights := h.weights
  mem_iff e := by
    rw [contents_drop gone h.sound, List.mem_filter, h.mem_iff]
    exact (List.mem_filter (p := fun e : Entry => !gone e.fragment.filePath)).symm

theorem countP_eq (gone : String → Bool) (h : Agree m t) :
    m.entries.countP (fun e => gone e.fragment.filePath) =
      t.items.countP fun x => gone x.1.filePath := by
  rw [← h.contents_perm.countP_eq, Table.contents, List.countP_map]
  rfl

end Agree

/-- Whether all fragments of a change can be read back from their rows, and no NUL ends the lead of
paths to delete early. -/
def StoreOp.Storable : StoreOp → Prop
  | .upsert fragments _ => ∀ f ∈ fragments, f.Storable
  | .deletePath _ => True
  | .deletePathLead lead => '\x00' ∉ lead.toList

theorem Table.isUnder_of_storable {lead : String} (h : (StoreOp.deletePathLead lead).Storable) :
    isUnder lead = (Text.startsWith · lead) := by
  funext path
  rw [Bool.eq_iff_iff, isUnder_iff, Text.startsWith_iff]
  exact and_iff_right h

namespace Agree

variable {m : Memory} {t : Table}

/-- A change answers the same on both stores, and leaves them in agreement. -/
theorem step (op : StoreOp) (h : Agree m t) (hop : op.Storable) :
    (op.step m).1 = (op.step t).1 ∧ Agree (op.step m).2 (op.step t).2 := by
  cases op with
  | upsert fs vs =>
    cases hp : pairVectors fs vs with
    | ok ps =>
      rw [KeyedStore.step_upsert_ok m hp, KeyedStore.step_upsert_ok t hp]
      refine ⟨rfl, h.puts ps ?_⟩
      intro p hmem
      have hfragment : p.1 ∈ ps.map (·.1) := List.mem_map.2 ⟨p, hmem, rfl⟩
      rw [fragments_of_pairVectors hp] at hfragment
      exact hop p.1 hfragment
    | error f =>
      rw [KeyedStore.step_upsert_error m hp, KeyedStore.step_upsert_error t hp]
      exact ⟨rfl, h⟩
  | deletePath file =>
    rw [KeyedStore.step_deletePath, KeyedStore.step_deletePath]
    exact ⟨congrArg Except.ok (h.countP_eq (· == file)), h.drop (· == file)⟩
  | deletePathLead lead =>
    have hunder : KeyedStore.isUnder Table lead = KeyedStore.isUnder Memory lead :=
      Table.isUnder_of_storable hop
    rw [KeyedStore.step_deletePathLead, KeyedStore.step_deletePathLead, hunder]
    exact ⟨congrArg Except.ok (h.countP_eq (KeyedStore.isUnder Memory lead)), h.drop _⟩

theorem history (ops : List (Int × StoreOp)) (h : Agree m t) (hops : ∀ op ∈ ops, op.2.Storable) :
    (m.history ops).1 = (t.history ops).1 ∧ Agree (m.history ops).2 (t.history ops).2 := by
  induction ops generalizing m t with
  | nil => exact ⟨rfl, h⟩
  | cons op ops ih =>
    obtain ⟨time, op⟩ := op
    obtain ⟨hanswer, hagree⟩ := (h.tick time).step op (hops (time, op) (by simp))
    obtain ⟨hanswers, hrest⟩ := ih hagree fun op hop => hops op (by simp [hop])
    refine ⟨?_, hrest⟩
    exact congrArg₂ List.cons hanswer hanswers

end Agree

end CodeRetrieval
