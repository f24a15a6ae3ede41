import CodeRetrieval.Store.Basic
import Mathlib.Data.List.Nodup

/-!
Stores told by what they hold. A store holds items, each under an id and of a file; writing a
fragment puts one item in the place of that id, and deleting takes the items of some files away.
All that a run of the index does to a store follows from this.
-/

set_option autoImplicit false

namespace CodeRetrieval

abbrev Upserted := Fragment × Option Embedding

theorem fragments_of_pairVectors {fs : List Fragment} {vs : Option (List Embedding)}
    {ps : List Upserted} (h : pairVectors fs vs = .ok ps) : ps.map (·.1) = fs := by
  cases vs with
  | none =>
    cases h
    simp [Function.comp_def]
  | some vs =>
    simp only [pairVectors] at h
    by_cases hlen : vs.length = fs.length
    · rw [if_pos hlen] at h
      cases h
      rw [List.map_map]
      exact List.map_fst_zip (by omega)
    · rw [if_neg hlen] at h
      contradiction

/-- A store that is a set of items under distinct ids. -/
class KeyedStore (S : Type) [Store S] where
  Item : Type
  /-- What the items do not tell, and no operation changes. -/
  Setting : Type
  items : S → List Item
  setting : S → Setting
  key : Item → String
  path : Item → String
  /-- Whether a path counts as starting with a text. -/
  isUnder : String → String → Bool
  item : Setting → Upserted → Item
  Sound : S → Prop
  put : S → Upserted → S
  drop : S → (String → Bool) → S
  key_item : ∀ (w : Setting) (p : Upserted), key (item w p) = p.1.id
  path_item : ∀ (w : Setting) (p : Upserted), path (item w p) = p.1.filePath
  keys_nodup : ∀ {s : S}, Sound s → ((items s).map key).Nodup
  sound_put : ∀ {s : S} (p : Upserted), Sound s → Sound (put s p)
  sound_drop : ∀ {s : S} (gone : String → Bool), Sound s → Sound (drop s gone)
  setting_put : ∀ (s : S) (p : Upserted), setting (put s p) = setting s
  setting_drop : ∀ (s : S) (gone : String → Bool), setting (drop s gone) = setting s
  mem_put : ∀ {s : S} (p : Upserted) (x : Item), Sound s →
    (x ∈ items (put s p) ↔ x = item (setting s) p ∨ x ∈ items s ∧ key x ≠ p.1.id)
  items_drop : ∀ {s : S} (gone : String → Bool), Sound s →
    items (drop s gone) = (items s).filter fun x => !gone (path x)
  upsert_eq : ∀ (s : S) (fs : List Fragment) (vs : Option (List Embedding)),
    Store.upsert s fs vs = (pairVectors fs vs).map fun ps => (fs.length, ps.foldl put s)
  deletePath_eq : ∀ (s : S) (file : String),
    Store.deletePath s file = .ok ((items s).countP (path · == file), drop s (· == file))
  deletePathLead_eq : ∀ (s : S) (lead : String), Store.deletePathLead s lead =
    .ok ((items s).countP fun x => isUnder lead (path x), drop s (isUnder lead))
  isUnder_empty : ∀ file : String, isUnder "" file = true
  /-- A listing that can be read tells the ids and files of all items. -/
  listAll_keys : ∀ {s : S} {fs : List Fragment}, Store.listAll s {} = .ok fs →
    (fs.map fun f => (f.id, f.filePath)).Perm ((items s).map fun x => (key x, path x))

namespace KeyedStore

variable {S : Type} [Store S] [KeyedStore S] {s : S}

def itemsOf (s : S) (ps : List Upserted) : List (Item S) := ps.map (item (setting s))

def puts (s : S) (ps : List Upserted) : S := ps.foldl put s

@[simp] theorem puts_nil (s : S) : puts s [] = s := rfl

@[simp] theorem puts_cons (s : S) (p : Upserted) (ps : List Upserted) :
    puts s (p :: ps) = puts (put s p) ps := rfl

theorem puts_append (s : S) (ps qs : List Upserted) : puts s (ps ++ qs) = puts (puts s ps) qs :=
  List.foldl_append

theorem sound_puts (ps : List Upserted) (h : Sound s) : Sound (puts s ps) := by
  induction ps generalizing s with
  | nil => exact h
  | cons p ps ih => exact ih (sound_put p h)

theorem setting_puts (s : S) (ps : List Upserted) : setting (puts s ps) = setting s := by
  induction ps generalizing s with
  | nil => rfl
  | cons p ps ih => rw [puts_cons, ih, setting_put]

theorem mem_puts {ps : List Upserted} (h : Sound s) (hps : (ps.map (·.1.id)).Nodup) (x : Item S) :
    x ∈ items (puts s ps) ↔
      x ∈ itemsOf s ps ∨ x ∈ items s ∧ key x ∉ ps.map (·.1.id) := by
  induction ps generalizing s with
  | nil => simp [itemsOf]
  | cons p ps ih =>
    obtain ⟨hp, hps⟩ := List.nodup_cons.1 hps
    rw [puts_cons, ih (sound_put p h) hps, mem_put p x h]
    simp only [itemsOf, setting_put, List.map_cons, List.mem_cons, not_or]
    constructor
    · intro hcases
      rcases hcases with hx | ⟨rfl | ⟨hx, hne⟩, hout⟩
      · exact .inl (.inr hx)
      · exact .inl (.inl rfl)
      · exact .inr ⟨hx, hne, hout⟩
    · intro hcases
      rcases hcases with (rfl | hx) | ⟨hx, hne, hout⟩
      · exact .inr ⟨.inl rfl, by rwa [key_item]⟩
      · exact .inl hx
      · exact .inr ⟨.inr ⟨hx, hne⟩, hout⟩

theorem items_nodup (h : Sound s) : (items s).Nodup := (keys_nodup h).of_map

theorem items_perm {t : S} (hs : Sound s) (ht : Sound t)
    (same : ∀ x : Item S, x ∈ items s ↔ x ∈ items t) : (items s).Perm (items t) :=
  (List.perm_ext_iff_of_nodup (items_nodup hs) (items_nodup ht)).2 same

end KeyedStore

end CodeRetrieval
