import CodeRetrieval.Proofs.Text.Trim
import CodeRetrieval.Toml.Printer

set_option autoImplicit false

namespace CodeRetrieval.Toml

theorem mem_writeOrder {α : Type} {value : α → Toml} {x : α} {entries : List α} :
    x ∈ writeOrder value entries ↔ x ∈ entries := by
  simp only [writeOrder, List.mem_append, List.mem_filter]
  grind [holdsTable, isTable]

def HasHeader (v : Toml) : Prop := v.isTable = true ∨ isTableArray v = true

theorem mem_ownLines {k : String} {v : Toml} {entries : List (String × Toml)}
    (he : (k, v) ∈ entries) (hv : ¬HasHeader v) :
    keyText k ++ [' ', '=', ' '] ++ valueChars v ∈ ownLines entries := by
  rw [HasHeader, not_or, Bool.not_eq_true, Bool.not_eq_true] at hv
  refine List.mem_map.2 ⟨(k, v), mem_writeOrder.2 (List.mem_filter.2 ⟨he, ?_⟩), rfl⟩
  rw [hv.1, hv.2]
  rfl

theorem mem_gather_entryBlocks {path : List String} {k : String} {v : Toml} {b : Block}
    {entries : List (String × Toml)} (he : (k, v) ∈ entries) (hb : b ∈ blocks (path ++ [k]) v) :
    b ∈ gather (entryBlocks path entries) := by
  have hpart : (v, blocks (path ++ [k]) v) ∈ entryBlocks path entries := by
    induction entries with
    | nil => contradiction
    | cons e entries ih =>
      rcases List.mem_cons.1 he with rfl | he
      · exact List.mem_cons_self
      · exact List.mem_cons_of_mem _ (ih he)
  exact List.mem_flatMap.2 ⟨_, mem_writeOrder.2 hpart, hb⟩

def Block.Headed (b : Block) : Prop := ∃ h, b.header = some h ∧ '[' ∈ h

theorem headed_blockOf {path : List String} {element : Bool} {entries : List (String × Toml)}
    (h : element = true ∨ entries = [] ∨ ownLines entries ≠ []) :
    (blockOf path element entries).Headed := by
  refine ⟨headerText path element, if_pos ?_, ?_⟩
  · simpa [or_assoc] using h
  · cases element <;> simp [headerText]

theorem blockOf_mem_blocks (path : List String) (entries : List (String × Toml)) :
    blockOf path false entries ∈ blocks path (.table entries) := by
  rw [blocks]
  exact List.mem_cons_self

theorem exists_blockOf_mem_blocks {items : List Toml} (path : List String)
    (h : isTableArray (.arr items) = true) :
    ∃ entries, blockOf path true entries ∈ blocks path (.arr items) := by
  rw [blocks, if_pos h]
  simp only [isTableArray, Bool.and_eq_true, Bool.not_eq_true', List.isEmpty_eq_false_iff] at h
  obtain ⟨v, items, rfl⟩ := List.exists_cons_of_ne_nil h.1
  have hv : v.isTable = true := List.all_eq_true.1 h.2 v List.mem_cons_self
  cases v with
  | table entries => exact ⟨entries, List.mem_cons_self⟩
  | _ => cases hv

theorem exists_headed_blocks (path : List String) :
    (v : Toml) → HasHeader v → ∃ b ∈ blocks path v, b.Headed
  | .table [], _ => ⟨_, blockOf_mem_blocks path [], headed_blockOf (.inr (.inl rfl))⟩
  | .table ((k, v) :: entries), _ => by
    -- A table that shows no header of its own holds nothing but tables: the first has one.
    by_cases hv : HasHeader v
    · obtain ⟨b, hb, hheaded⟩ := exists_headed_blocks (path ++ [k]) v hv
      refine ⟨b, ?_, hheaded⟩
      rw [blocks]
      exact List.mem_cons_of_mem _ (mem_gather_entryBlocks List.mem_cons_self hb)
    · have hline : _ ∈ ownLines ((k, v) :: entries) := mem_ownLines List.mem_cons_self hv
      exact ⟨_, blockOf_mem_blocks path _, headed_blockOf (.inr (.inr (List.ne_nil_of_mem hline)))⟩
  | .arr items, h => by
    obtain ⟨entries, hb⟩ := exists_blockOf_mem_blocks path (h.resolve_left Bool.false_ne_true)
    exact ⟨_, hb, headed_blockOf (.inl rfl)⟩
  | .str _, h | .int _, h | .float _, h | .bool _, h | .datetime _, h => by
    simp [HasHeader, isTable, isTableArray] at h

def Block.Holds (b : Block) (c : Char) : Prop :=
  (∃ h, b.header = some h ∧ c ∈ h) ∨ ∃ l ∈ b.body, c ∈ l

theorem mem_blockText {first : Bool} {b : Block} {c : Char} (hc : b.Holds c) :
    c ∈ blockText first b := by
  rcases hc with ⟨h, hheader, hc⟩ | ⟨l, hl, hc⟩
  · simp [blockText, hheader, hc]
  · exact List.mem_append_right _ (List.mem_flatMap.2 ⟨l, hl, List.mem_append_left _ hc⟩)

theorem mem_writeBlocks {first : Bool} {b : Block} {bs : List Block} {c : Char} (hb : b ∈ bs)
    (hc : b.Holds c) : c ∈ writeBlocks first bs := by
  induction bs generalizing first with
  | nil => contradiction
  | cons d bs ih =>
    rcases List.mem_cons.1 hb with rfl | hb
    · exact List.mem_append_left _ (mem_blockText hc)
    · exact List.mem_append_right _ (ih hb)

theorem mem_printEntry (k : String) (v : Toml) :
    '[' ∈ (printEntry k v).toList ∨ '=' ∈ (printEntry k v).toList := by
  simp only [printEntry, print, String.toList_ofList]
  by_cases hv : HasHeader v
  · obtain ⟨b, hb, hheaded⟩ := exists_headed_blocks ([] ++ [k]) v hv
    refine .inl (mem_writeBlocks (List.mem_cons_of_mem _ ?_) (.inl hheaded))
    exact mem_gather_entryBlocks List.mem_cons_self hb
  · have hline : _ ∈ ownLines [(k, v)] := mem_ownLines List.mem_cons_self hv
    exact .inr (mem_writeBlocks List.mem_cons_self (.inr ⟨_, hline, by simp⟩))

theorem isBlankText_printEntry (k : String) (v : Toml) :
    Text.isBlankText (printEntry k v) = false := by
  rw [Text.isBlankText, List.all_eq_false]
  rcases mem_printEntry k v with hc | hc
  · exact ⟨_, hc, by decide⟩
  · exact ⟨_, hc, by decide⟩

example : printEntry "b" (.table [("c", .table [])]) = "[b.c]\n" := by decide +kernel

end CodeRetrieval.Toml
