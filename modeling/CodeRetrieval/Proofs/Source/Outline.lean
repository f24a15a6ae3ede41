import CodeRetrieval.Proofs.Text.Lines
import CodeRetrieval.Source.Outline

set_option autoImplicit false

namespace CodeRetrieval.Source

/-- All lines of a declaration and of its members are lines of a file that has `n` of them. -/
structure Declaration.Placed (n : Nat) (d : Declaration) : Prop where
  lines : LinesOf n d.startLine d.endLine
  members : ∀ m ∈ d.members, LinesOf n m.startLine m.endLine

namespace Outline

variable {ls : List String} {limit : Nat} {owner : String}

theorem closingLine_bounds {start indent : Nat} (hstart : start < ls.length) :
    start ≤ closingLine ls start indent limit ∧ closingLine ls start indent limit < ls.length := by
  simp only [closingLine]
  split
  · omega
  · split
    · next k hk =>
      have hlt := (List.findIdx?_eq_some_iff_findIdx_eq.1 hk).1
      rw [List.length_take, List.length_drop] at hlt
      omega
    · omega

theorem bodyLength_lt {state : Int × Bool} {k : Nat} (h : bodyLength state ls = some k) :
    k < ls.length := by
  induction ls generalizing state k with
  | nil => simp [bodyLength] at h
  | cons line ls ih =>
    simp only [bodyLength] at h
    split at h
    · simp only [Option.some.injEq] at h
      simp [← h]
    · split at h
      · simp only [Option.some.injEq] at h
        simp [← h]
      · obtain ⟨k, hk, rfl⟩ := Option.map_eq_some_iff.1 h
        have hlt := ih hk
        simp only [List.length_cons]
        omega

theorem bodyEnd_bounds {start : Nat} (hstart : start < ls.length) (hlimit : limit < ls.length) :
    start ≤ bodyEnd ls start limit ∧ bodyEnd ls start limit < ls.length := by
  unfold bodyEnd
  split
  · next k hk =>
    have hlt := bodyLength_lt hk
    rw [List.length_take, List.length_drop] at hlt
    omega
  · omega

/-- A member takes its name from the line it is found at, and lines from there on. -/
theorem parts_of_member? {i : Nat} {m : Member} (h : member? ls i limit owner = some m) :
    ∃ parts, Line.method.matchFront (ls.getD i "") = some parts ∧ m.name = parts.get 4 ∧
      m.startLine = i + 1 ∧ m.endLine = bodyEnd ls i limit + 1 ∧
      m.body = Text.unlines ((ls.drop i).take (m.endLine - i)) := by
  simp only [member?] at h
  by_cases hplain : isPlainStatement (ls.getD i "") = true
  · rw [if_pos hplain] at h
    cases h
  · rw [if_neg hplain] at h
    obtain ⟨parts, hparts, h⟩ := Option.bind_eq_some_iff.1 h
    by_cases hword : (statementWords.contains (parts.get 4) ||
        (parts.get? 3).any statementWords.contains) = true
    · rw [if_pos hword] at h
      cases h
    · rw [if_neg hword] at h
      obtain ⟨kind, _, h⟩ := Option.bind_eq_some_iff.1 h
      simp only [Option.some.injEq] at h
      subst h
      exact ⟨parts, hparts, rfl, rfl, rfl, rfl⟩

theorem lines_of_member? {i : Nat} {m : Member} (hi : i < ls.length) (hlimit : limit < ls.length)
    (h : member? ls i limit owner = some m) : LinesOf ls.length m.startLine m.endLine := by
  have hend := bodyEnd_bounds hi hlimit
  obtain ⟨_, _, _, hfirst, hlast, _⟩ := parts_of_member? h
  rw [hfirst, hlast]
  exact ⟨Nat.succ_pos i, Nat.succ_le_succ hend.1, hend.2⟩

theorem item_eq_member {indent i : Nat} {nested : List (Nat × Nat)} {line : String} {m : Member}
    (h : item ls limit indent owner nested i line = .member m) :
    member? ls i limit owner = some m := by
  unfold item at h
  split at h
  · contradiction
  · split at h
    · contradiction
    · cases hm : member? ls i limit owner with
      | some n =>
        rw [hm] at h
        simp only [Item.member.injEq] at h
        rw [h]
      | none =>
        rw [hm] at h
        cases hf : field? line <;> simp [hf] at h

theorem mem_scan_members {look : Nat → String → Item} {next i : Nat} {m : Member}
    (h : m ∈ (scan look next i ls).2) :
    ∃ j line, max next i ≤ j ∧ j < i + ls.length ∧ look j line = .member m := by
  induction ls generalizing next i with
  | nil => simp [scan] at h
  | cons line ls ih =>
    -- Wherever the scan goes on, it goes on behind the line at hand.
    have later : ∀ {next' : Nat}, max next i ≤ max next' (i + 1) →
        m ∈ (scan look next' (i + 1) ls).2 →
          ∃ j line, max next i ≤ j ∧ j < i + (ls.length + 1) ∧ look j line = .member m := by
      intro next' hle hm
      obtain ⟨j, l, hij, hj, hl⟩ := ih hm
      exact ⟨j, l, hle.trans hij, by omega, hl⟩
    unfold scan at h
    split at h
    · exact later (by omega) h
    · cases hlook : look i line with
      | nothing =>
        rw [hlook] at h
        exact later (by omega) h
      | field f =>
        rw [hlook] at h
        exact later (by omega) h
      | member n =>
        rw [hlook] at h
        rcases List.mem_cons.1 h with rfl | h
        · exact ⟨i, line, by omega, by simp, hlook⟩
        · exact later (by omega) h

theorem member?_of_mem_contents {start last : Nat} {nested : List (Nat × Nat)} {m : Member}
    (h : m ∈ (contents ls start last owner nested).2) :
    ∃ i < ls.length, member? ls i last owner = some m := by
  simp only [contents] at h
  split at h
  · simp at h
  · obtain ⟨j, line, hj, hlt, hitem⟩ := mem_scan_members h
    rw [List.length_take, List.length_drop] at hlt
    exact ⟨j, by omega, item_eq_member hitem⟩

theorem lines_of_mem_contents {start last : Nat} {nested : List (Nat × Nat)} {m : Member}
    (hlast : last < ls.length) (h : m ∈ (contents ls start last owner nested).2) :
    LinesOf ls.length m.startLine m.endLine := by
  obtain ⟨i, hi, hmember⟩ := member?_of_mem_contents h
  exact lines_of_member? hi hlast hmember

/-- What holds of some headings holds of the first one, the deeper ones below it and the later
ones. -/
theorem forall_parts {P : Heading → Prop} {p : Heading → Bool} {h : Heading} {rest : List Heading}
    (hhs : ∀ k ∈ h :: rest, P k) :
    P h ∧ (∀ k ∈ rest.takeWhile p, P k) ∧ ∀ k ∈ rest.dropWhile p, P k :=
  ⟨hhs h List.mem_cons_self,
    fun k hk => hhs k (List.mem_cons_of_mem h ((List.takeWhile_sublist p).subset hk)),
    fun k hk => hhs k (List.mem_cons_of_mem h ((List.dropWhile_sublist p).subset hk))⟩

theorem placed_of_mem_entities {outer : String} {hs : List Heading} {d : Declaration}
    (hlimit : limit < ls.length) (hhs : ∀ h ∈ hs, h.line < ls.length)
    (hd : d ∈ walkAll (entities ls limit outer hs)) : d.Placed ls.length := by
  fun_induction entities ls limit outer hs with
  | case1 => simp [walkAll] at hd
  | case2 limit outer h rest deeper later limitHere last inner fields members hcontents ihInner
      ihLater =>
    obtain ⟨hline, hdeeper, hlater⟩ : h.line < ls.length ∧ (∀ k ∈ deeper, k.line < ls.length) ∧
        ∀ k ∈ later, k.line < ls.length := forall_parts hhs
    have hlimitHere : limitHere < ls.length := by
      cases hnext : later with
      | nil => simpa [limitHere, hnext] using hlimit
      | cons next more =>
        have hbefore := hlater next (by simp [hnext])
        simp only [limitHere, hnext]
        omega
    have hlast : h.line ≤ last ∧ last < ls.length := closingLine_bounds hline
    simp only [walkAll, Entity.walk, List.cons_append, List.mem_cons, List.mem_append] at hd
    rcases hd with rfl | hinner | hmore
    · refine ⟨⟨Nat.succ_pos _, Nat.succ_le_succ hlast.1, hlast.2⟩, fun m hm => ?_⟩
      have hmember : m ∈ (contents ls h.line last h.name (inner.map span)).2 := by
        rw [hcontents]
        exact hm
      exact lines_of_mem_contents hlast.2 hmember
    · exact ihInner hlimitHere hdeeper hinner
    · exact ihLater hlimit hlater hmore

theorem line_of_mem_headings {h : Heading} (hh : h ∈ headings ls) : h.line < ls.length := by
  obtain ⟨⟨line, i⟩, hi, hsome⟩ := List.mem_filterMap.1 hh
  simp only [heading?] at hsome
  split at hsome
  · contradiction
  · obtain ⟨parts, _, rfl⟩ := Option.map_eq_some_iff.1 hsome
    exact List.snd_lt_of_mem_zipIdx hi

theorem entities_of_read {path text : String} {file : SourceFile}
    (h : (read path text).file? = some file) :
    let ls := Text.lines text
    file.path = path ∧ headings ls ≠ [] ∧
      file.entities = entities ls (ls.length - 1) "" (headings ls) := by
  simp only [read] at h
  split at h
  · contradiction
  · next hs hsome =>
    simp only [Reading.file?, Option.some.injEq] at h
    subst h
    exact ⟨rfl, hsome, rfl⟩

theorem placed_of_read {path text : String} {file : SourceFile}
    (h : (read path text).file? = some file) :
    file.path = path ∧ ∀ d ∈ file.declarations, d.Placed (Text.lineCount text) := by
  obtain ⟨hpath, hsome, hentities⟩ := entities_of_read h
  refine ⟨hpath, fun d hd => ?_⟩
  have hlines : ∀ k ∈ headings (Text.lines text), k.line < (Text.lines text).length := fun _ hk =>
    line_of_mem_headings hk
  obtain ⟨first, hfirst⟩ := List.exists_mem_of_ne_nil _ hsome
  have hpos := hlines first hfirst
  rw [SourceFile.declarations, hentities] at hd
  rw [← Text.length_lines]
  exact placed_of_mem_entities (by omega) hlines hd

end Outline

end CodeRetrieval.Source
