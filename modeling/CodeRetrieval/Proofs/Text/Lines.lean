import CodeRetrieval.Text.Lines
import Mathlib.Data.List.Infix
import Mathlib.Data.List.Nodup

set_option autoImplicit false

namespace CodeRetrieval

/-- Lines, counted from one, of a text that has `n` of them. -/
structure LinesOf (n first last : Nat) : Prop where
  pos : 1 ≤ first
  le : first ≤ last
  le_length : last ≤ n

theorem LinesOf.ordered {n first last : Nat} (h : LinesOf n first last) :
    LinesOf n first (max last first) :=
  ⟨h.pos, Nat.le_max_right _ _, Nat.max_le.2 ⟨h.le_length, h.le.trans h.le_length⟩⟩

namespace Text

namespace Chars

theorem splitBy_ne_nil (sep : Char → Bool) (s : List Char) : splitBy sep s ≠ [] := by
  cases s with
  | nil => simp [splitBy]
  | cons c s =>
    unfold splitBy
    split
    · simp
    · split <;> simp

theorem splitBy_append_cons {sep : Char → Bool} {c : Char} (h : sep c = true) (a b : List Char) :
    splitBy sep (a ++ c :: b) = splitBy sep a ++ splitBy sep b := by
  induction a with
  | nil => simp [splitBy, h]
  | cons d a ih =>
    by_cases hd : sep d = true
    · simp [splitBy, hd, ih]
    · obtain ⟨piece, more, hpieces⟩ := List.exists_cons_of_ne_nil (splitBy_ne_nil sep a)
      simp [splitBy, hd, ih, hpieces]

theorem splitBy_append_of_not_mem {sep : Char → Bool} {part s piece : List Char}
    {more : List (List Char)} (hpart : ∀ c ∈ part, sep c = false)
    (hs : splitBy sep s = piece :: more) : splitBy sep (part ++ s) = (part ++ piece) :: more := by
  induction part with
  | nil => exact hs
  | cons c part ih =>
    have hrest := ih fun d hd => hpart d (List.mem_cons_of_mem c hd)
    simp [splitBy, hpart c List.mem_cons_self, hrest]

theorem splitBy_of_not_mem {sep : Char → Bool} {s : List Char} (h : ∀ c ∈ s, sep c = false) :
    splitBy sep s = [s] := by
  have hnil : splitBy sep [] = [[]] := rfl
  simpa using splitBy_append_of_not_mem h hnil

theorem splitBy_intercalate {ps : List (List Char)} (hps : ps ≠ []) (h : ∀ p ∈ ps, '\n' ∉ p) :
    splitBy (· == '\n') (['\n'].intercalate ps) = ps := by
  induction ps with
  | nil => contradiction
  | cons p ps ih =>
    have hp : splitBy (· == '\n') p = [p] := splitBy_of_not_mem fun c hc => by
      simpa using fun heq : c = '\n' => h p List.mem_cons_self (heq ▸ hc)
    cases ps with
    | nil => rw [List.intercalate_singleton, hp]
    | cons q ps =>
      have hrest := ih (List.cons_ne_nil q ps) fun r hr => h r (List.mem_cons_of_mem p hr)
      rw [List.intercalate_cons_cons, List.append_assoc, List.singleton_append,
        splitBy_append_cons (by decide), hp, hrest, List.singleton_append]

theorem not_sep_of_mem_splitBy {sep : Char → Bool} {s piece : List Char}
    (h : piece ∈ splitBy sep s) : ∀ c ∈ piece, sep c = false := by
  induction s generalizing piece with
  | nil => simp_all [splitBy]
  | cons d s ih =>
    by_cases hd : sep d = true
    · simp only [splitBy, hd, if_true, List.mem_cons] at h
      rcases h with rfl | h
      · simp
      · exact ih h
    · obtain ⟨first, more, hpieces⟩ := List.exists_cons_of_ne_nil (splitBy_ne_nil sep s)
      simp only [splitBy, hd, Bool.false_eq_true, if_false, hpieces, List.mem_cons] at h
      rcases h with rfl | h
      · intro c hc
        rcases List.mem_cons.1 hc with rfl | hc
        · simpa using hd
        · exact ih (by simp [hpieces]) c hc
      · exact ih (by simp [hpieces, h])

theorem head?_splitBy (sep : Char → Bool) (s : List Char) :
    (splitBy sep s).head? = some (s.takeWhile (!sep ·)) := by
  induction s with
  | nil => rfl
  | cons c s ih =>
    by_cases hc : sep c = true
    · simp [splitBy, hc]
    · obtain ⟨piece, more, hpieces⟩ := List.exists_cons_of_ne_nil (splitBy_ne_nil sep s)
      simp_all [splitBy]

theorem dropReturn_of_not_mem {line : List Char} (h : '\r' ∉ line) : dropReturn line = line :=
  if_neg fun hlast => h (List.mem_of_getLast? hlast)

theorem closeLines_append {ps : List (List Char)} (hps : ps ≠ []) (before : List (List Char)) :
    closeLines (before ++ ps) = before.map dropReturn ++ closeLines ps := by
  induction before with
  | nil => rfl
  | cons p before ih =>
    obtain ⟨q, more, hq⟩ := List.exists_cons_of_ne_nil (l := before ++ ps) (by simp [hps])
    rw [List.cons_append, hq, closeLines, ← hq, ih]
    · rfl
    · simp

theorem lines_append_cons (a b : List Char) :
    lines (a ++ '\n' :: b) = (splitBy (· == '\n') a).map dropReturn ++ lines b := by
  rw [lines, splitBy_append_cons (by decide), closeLines_append (splitBy_ne_nil _ b)]
  rfl

theorem lines_of_not_mem {s : List Char} (h : '\n' ∉ s) (hs : s ≠ []) : lines s = [s] := by
  have hsep : ∀ c ∈ s, (c == '\n') = false := by
    intro c hc
    simpa using fun heq : c = '\n' => h (heq ▸ hc)
  rw [lines, splitBy_of_not_mem hsep, closeLines, if_neg (by simpa using hs)]

theorem exists_piece_of_mem_lines {s line : List Char} (h : line ∈ lines s) :
    ∃ piece ∈ splitBy (· == '\n') s, line <+: piece := by
  have hpieces : ∀ ps : List (List Char), ∀ l ∈ closeLines ps, ∃ p ∈ ps, l <+: p := by
    intro ps
    induction ps with
    | nil => simp [closeLines]
    | cons p ps ih =>
      intro l hl
      cases ps with
      | nil =>
        by_cases hempty : p = []
        · simp [closeLines, hempty] at hl
        · simp_all [closeLines]
      | cons q ps =>
        rcases List.mem_cons.1 hl with rfl | hl
        · refine ⟨p, List.mem_cons_self, ?_⟩
          unfold dropReturn
          split
          · exact List.dropLast_prefix p
          · exact List.prefix_rfl
        · obtain ⟨r, hr, hlead⟩ := ih l hl
          exact ⟨r, List.mem_cons_of_mem p hr, hlead⟩
  exact hpieces _ line h

theorem newline_not_mem_of_mem_lines {s line : List Char} (h : line ∈ lines s) : '\n' ∉ line := by
  obtain ⟨piece, hpiece, hlead⟩ := exists_piece_of_mem_lines h
  intro hmem
  have hsep := not_sep_of_mem_splitBy hpiece _ (hlead.mem hmem)
  simp at hsep

def endsOpen (s : List Char) : Bool := s.getLast?.any (· != '\n')

theorem length_splitBy (s : List Char) :
    (splitBy (· == '\n') s).length = s.count '\n' + 1 := by
  induction s with
  | nil => rfl
  | cons c s ih =>
    by_cases hc : c = '\n'
    · simp [splitBy, hc, ih]
    · obtain ⟨piece, more, hpieces⟩ :=
        List.exists_cons_of_ne_nil (splitBy_ne_nil (· == '\n') s)
      simp_all [splitBy]

theorem endsOpen_append_cons (a b : List Char) : endsOpen (a ++ '\n' :: b) = endsOpen b := by
  cases b with
  | nil => simp [endsOpen]
  | cons c b => simp [endsOpen, List.getLast?_append, List.getLast?_cons]

theorem length_lines (s : List Char) :
    (lines s).length = s.count '\n' + if endsOpen s then 1 else 0 := by
  induction hlength : s.length using Nat.strong_induction_on generalizing s with
  | _ n ih =>
    by_cases hmem : '\n' ∈ s
    · obtain ⟨a, b, rfl⟩ := List.append_of_mem hmem
      have hb := ih b.length (by simp at hlength; omega) b rfl
      rw [lines_append_cons, List.length_append, List.length_map, length_splitBy, hb,
        endsOpen_append_cons, List.count_append, List.count_cons_self]
      omega
    · have hcount : s.count '\n' = 0 := List.count_eq_zero.2 hmem
      by_cases hs : s = []
      · subst hs
        rfl
      · have hlast : s.getLast hs ≠ '\n' := fun h => hmem (h ▸ List.getLast_mem hs)
        simp [lines_of_not_mem hmem hs, hcount, endsOpen, List.getLast?_eq_some_getLast hs, hlast]

theorem lines_eq_nil_iff {s : List Char} : lines s = [] ↔ s = [] := by
  refine ⟨fun h => ?_, fun h => h ▸ rfl⟩
  by_contra hs
  have hlength := length_lines s
  have hlast := List.getLast_mem hs
  rw [h, List.length_nil] at hlength
  have hcount : '\n' ∉ s := List.count_eq_zero.1 (by omega)
  have hopen : endsOpen s = true := by
    simp only [endsOpen, List.getLast?_eq_some_getLast hs, Option.any_some, bne_iff_ne]
    exact fun heq => hcount (heq ▸ hlast)
  rw [hopen, if_pos rfl] at hlength
  omega

theorem length_lines_le_of_prefix {p s : List Char} (h : p <+: s) :
    (lines p).length ≤ (lines s).length := by
  obtain ⟨t, rfl⟩ := h
  rw [length_lines, length_lines, List.count_append]
  by_cases ht : '\n' ∈ t
  · have hcount : 0 < t.count '\n' := List.count_pos_iff.2 ht
    split <;> omega
  · by_cases hnone : t = []
    · simp [hnone]
    · have hlast : t.getLast hnone ≠ '\n' := fun h => ht (h ▸ List.getLast_mem hnone)
      have hopen : endsOpen (p ++ t) = true := by
        simp [endsOpen, List.getLast?_append, List.getLast?_eq_some_getLast hnone, hlast]
      rw [hopen, if_pos rfl]
      split <;> omega

theorem prefix_trimEnd (s : List Char) : trimEnd s <+: s := by
  have h := List.dropWhile_suffix isBlank (l := s.reverse)
  rw [trimEnd, ← List.reverse_suffix, List.reverse_reverse]
  exact h

theorem count_intercalate (p : List Char) (ps : List (List Char)) :
    (['\n'].intercalate (p :: ps)).count '\n' = ps.length + (p :: ps).flatten.count '\n' := by
  induction ps generalizing p with
  | nil => simp
  | cons q ps ih =>
    have hps := ih q
    rw [List.intercalate_cons_cons, List.count_append, List.count_append, hps,
      List.flatten_cons (l := p), List.count_append, List.count_singleton_self, List.length_cons]
    omega

theorem prefix_dropReturn (part : List Char) (c : Char) (rest : List Char) :
    part <+: dropReturn (part ++ c :: rest) := by
  unfold dropReturn
  split
  · rw [List.dropLast_append_of_ne_nil (by simp)]
    exact List.prefix_append part _
  · exact List.prefix_append part _

theorem exists_lines_eq_cons {part : List Char} (hpart : '\n' ∉ part) {c : Char} (hc : c ≠ '\n')
    (rest : List Char) : ∃ l more, lines (part ++ c :: rest) = l :: more ∧ part <+: l := by
  have hsep : ∀ d ∈ part ++ [c], (d == '\n') = false := by
    intro d hd
    rw [beq_eq_false_iff_ne]
    rintro rfl
    simp [hpart, hc.symm] at hd
  obtain ⟨piece, more, hpieces⟩ :=
    List.exists_cons_of_ne_nil (splitBy_ne_nil (· == '\n') rest)
  have hsplit := splitBy_append_of_not_mem hsep hpieces
  rw [List.append_assoc, List.append_assoc, List.singleton_append, List.singleton_append] at hsplit
  rw [lines, hsplit]
  -- The last line is kept as it is, any other may lose a carriage return behind `c`.
  cases more with
  | nil => exact ⟨_, _, if_neg (by simp), List.prefix_append part _⟩
  | cons next more => exact ⟨_, _, rfl, prefix_dropReturn part c piece⟩

end Chars

theorem toList_unlines (ls : List String) :
    (unlines ls).toList = ['\n'].intercalate (ls.map String.toList) := by
  rw [unlines, String.toList_intercalate]
  rfl

theorem length_lines (s : String) : (lines s).length = lineCount s := by
  simp [lines, lineCount]

theorem lines_of_not_mem {s : String} (h : '\n' ∉ s.toList) (hs : s ≠ "") : lines s = [s] := by
  rw [lines, Chars.lines_of_not_mem h (by simpa using hs), List.map_singleton, String.ofList_toList]

theorem lines_concat (front back : String) : lines (front ++ "\n" ++ back) =
    (Chars.splitBy (· == '\n') front.toList).map (fun l => String.ofList (Chars.dropReturn l)) ++
      lines back := by
  have hfeed : "\n".toList = ['\n'] := by decide
  rw [lines, String.toList_append, String.toList_append, hfeed, List.append_assoc,
    List.singleton_append, Chars.lines_append_cons, List.map_append, List.map_map, lines]
  rfl

theorem getLast?_lines_concat (front : String) {last : String} (h : '\n' ∉ last.toList)
    (hlast : last ≠ "") : (lines (front ++ "\n" ++ last)).getLast? = some last := by
  rw [lines_concat, lines_of_not_mem h hlast]
  simp

theorem lineCount_of_not_mem {s : String} (h : '\n' ∉ s.toList) (hs : s ≠ "") : lineCount s = 1 := by
  rw [← length_lines, lines_of_not_mem h hs, List.length_singleton]

theorem lineCount_concat (front : String) {last : String} (h : '\n' ∉ last.toList)
    (hlast : last ≠ "") :
    lineCount (front ++ "\n" ++ last) = front.toList.count '\n' + 2 := by
  rw [← length_lines, lines_concat, lines_of_not_mem h hlast]
  simp [Chars.length_splitBy]

def firstLine (s : String) : String :=
  String.ofList (Chars.dropReturn (s.toList.takeWhile (· != '\n')))

theorem head?_lines_append (s t : String) :
    (lines (s ++ "\n" ++ t)).head? = some (firstLine s) := by
  rw [lines_concat]
  simp [List.head?_append, Chars.head?_splitBy, firstLine]
  rfl

/-- Text on the first line stays there whatever is written behind it. -/
theorem firstLine_append {s : String} (h : firstLine s ≠ "") (t : String) :
    firstLine (s ++ t) ≠ "" := by
  simp only [firstLine, ne_eq, String.ofList_eq_empty_iff] at h ⊢
  rw [String.toList_append, List.takeWhile_append]
  split
  · next hall =>
    have hself : s.toList.takeWhile (· != '\n') = s.toList :=
      (List.takeWhile_prefix _).eq_of_length hall
    rw [hself] at h
    cases hmore : t.toList.takeWhile (· != '\n') with
    | nil => simpa using h
    | cons c rest =>
      intro hnil
      have hpart := Chars.prefix_dropReturn s.toList c rest
      rw [hnil, List.prefix_nil] at hpart
      rw [hpart] at h
      exact h rfl
  · exact h

theorem newline_not_mem_of_mem_lines {s line : String} (h : line ∈ lines s) :
    '\n' ∉ line.toList := by
  obtain ⟨cs, hcs, rfl⟩ := List.mem_map.1 h
  rw [String.toList_ofList]
  exact Chars.newline_not_mem_of_mem_lines hcs

theorem lineCount_trimEnd_le (s : String) : lineCount (trimEnd s) ≤ lineCount s := by
  simp only [lineCount, trimEnd, String.toList_ofList]
  exact Chars.length_lines_le_of_prefix (Chars.prefix_trimEnd s.toList)

def feeds (ps : List String) : Nat := (ps.flatMap String.toList).count '\n'

theorem unlines_concat {ps : List String} (h : ps ≠ []) (p : String) :
    unlines (ps ++ [p]) = unlines ps ++ "\n" ++ p := by
  rw [unlines, String.intercalate_append_of_ne_nil h (List.cons_ne_nil p []),
    String.intercalate_singleton, unlines]

theorem count_unlines {ps : List String} (h : ps ≠ []) :
    (unlines ps).toList.count '\n' + 1 = ps.length + feeds ps := by
  obtain ⟨p, ps, rfl⟩ := List.exists_cons_of_ne_nil h
  have hcount := Chars.count_intercalate p.toList (ps.map String.toList)
  rw [← List.map_cons, ← toList_unlines, List.length_map, ← List.flatMap_def] at hcount
  rw [hcount, List.length_cons, feeds]
  omega

theorem feeds_eq_zero {ps : List String} (h : ∀ p ∈ ps, '\n' ∉ p.toList) : feeds ps = 0 := by
  refine List.count_eq_zero.2 fun hmem => ?_
  obtain ⟨p, hp, hfeed⟩ := List.mem_flatMap.1 hmem
  exact h p hp hfeed

theorem lineCount_unlines_le {ls : List String} (h : ∀ l ∈ ls, '\n' ∉ l.toList) :
    lineCount (unlines ls) ≤ ls.length := by
  by_cases hls : ls = []
  · subst hls
    decide
  · have hcount := count_unlines hls
    rw [feeds_eq_zero h] at hcount
    rw [lineCount, Chars.length_lines]
    split <;> omega

/-- Lines that are written one below the other are read back, if the last of them holds text. -/
theorem lines_unlines_concat {front : List String} {last : String}
    (hfront : ∀ l ∈ front, '\n' ∉ l.toList ∧ '\r' ∉ l.toList) (hlast : '\n' ∉ last.toList)
    (hsome : last ≠ "") : lines (unlines (front ++ [last])) = front ++ [last] := by
  by_cases hnone : front = []
  · rw [hnone, List.nil_append, unlines, String.intercalate_singleton, lines_of_not_mem hlast hsome]
  · have hpieces : Chars.splitBy (· == '\n') (unlines front).toList = front.map String.toList := by
      rw [toList_unlines]
      exact Chars.splitBy_intercalate (by simpa using hnone)
        (List.forall_mem_map.2 fun l hl => (hfront l hl).1)
    have hkept : (front.map String.toList).map (fun l => String.ofList (Chars.dropReturn l)) =
        front := by
      rw [List.map_map]
      refine (List.map_congr_left fun l hl => ?_).trans (List.map_id front)
      simp [Chars.dropReturn_of_not_mem (hfront l hl).2]
    rw [unlines_concat hnone, lines_concat, hpieces, hkept, lines_of_not_mem hlast hsome]

theorem exists_line_of_eq_append {s : String} {lead part rest : List Char} {c : Char}
    (hs : s.toList = lead ++ '\n' :: (part ++ c :: rest)) (hpart : '\n' ∉ part) (hc : c ≠ '\n') :
    ∃ l, (lines s)[lead.count '\n' + 1]? = some l ∧ part <+: l.toList := by
  obtain ⟨l, more, hlines, hprefix⟩ := Chars.exists_lines_eq_cons hpart hc rest
  refine ⟨String.ofList l, ?_, by rwa [String.toList_ofList]⟩
  have hlength := Chars.length_splitBy lead
  rw [lines, hs, Chars.lines_append_cons, hlines, List.getElem?_map, List.getElem?_append_right
    (by simp [hlength]), List.length_map, hlength, Nat.sub_self]
  rfl

theorem three_le_lineCount (header : String) {body : String} (h : body ≠ "") :
    3 ≤ lineCount (header ++ "\n\n" ++ body) := by
  have hbody : 0 < (Chars.lines body.toList).length := by
    rw [List.length_pos_iff, ne_eq, Chars.lines_eq_nil_iff, String.toList_eq_nil_iff]
    exact h
  have hheader : 0 < (Chars.splitBy (· == '\n') header.toList).length :=
    List.length_pos_iff.2 (Chars.splitBy_ne_nil _ _)
  have hfeeds : "\n\n".toList = ['\n', '\n'] := by decide
  have hempty : Chars.lines ('\n' :: body.toList) = [] :: Chars.lines body.toList :=
    Chars.lines_append_cons [] body.toList
  rw [lineCount, String.toList_append, String.toList_append, hfeeds, List.append_assoc,
    List.cons_append, List.cons_append, List.nil_append, Chars.lines_append_cons, hempty,
    List.length_append, List.length_map, List.length_cons]
  omega

end Text

end CodeRetrieval
