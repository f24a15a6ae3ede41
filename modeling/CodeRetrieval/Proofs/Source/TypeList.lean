import CodeRetrieval.Proofs.Text.Trim
import CodeRetrieval.Source.TypeList
import Mathlib.Algebra.Group.Nat.Defs

set_option autoImplicit false

namespace CodeRetrieval

namespace Text

theorem Chars.trim_space_cons (s : List Char) : trim (' ' :: s) = trim s := by
  have hspace : trimStart (' ' :: s) = trimStart s := List.dropWhile_cons_of_pos (by decide)
  rw [trim, hspace, trim]

theorem Chars.trim_trim (s : List Char) : trim (trim s) = trim s := by
  -- What stands first is no blank, and the blanks behind it do not change that.
  have hstart : trimStart (trim s) = trim s := by
    refine List.dropWhile_eq_self_iff.2 fun hlength => ?_
    have hlead : trim s <+: trimStart s := prefix_trimEnd (trimStart s)
    rw [hlead.getElem hlength]
    exact List.dropWhile_get_zero_not isBlank s _
  rw [trim, hstart, trim, trimEnd_trimEnd]

end Text

namespace Source

def angleDepth (s : List Char) : Int := s.count '<' - s.count '>'

/-- A type as it stands in a list: its angle brackets balance, and none of its commas stands at depth
zero. -/
structure IsTypeText (t : String) : Prop where
  ne_empty : t ≠ ""
  trimmed : Text.trim t = t
  balanced : angleDepth t.toList = 0
  commas : ∀ i, (h : i < t.toList.length) → t.toList[i] = ',' → angleDepth (t.toList.take i) ≠ 0

instance (t : String) : Decidable (IsTypeText t) :=
  decidable_of_iff (t ≠ "" ∧ Text.trim t = t ∧ angleDepth t.toList = 0 ∧
    ∀ i, (h : i < t.toList.length) → t.toList[i] = ',' → angleDepth (t.toList.take i) ≠ 0)
    ⟨fun h => ⟨h.1, h.2.1, h.2.2.1, h.2.2.2⟩,
      fun h => ⟨h.ne_empty, h.trimmed, h.balanced, h.commas⟩⟩

theorem angleDepth_cons (c : Char) (s : List Char) :
    angleDepth (c :: s) = angleDepth [c] + angleDepth s := by
  simp only [angleDepth, List.count_cons, List.count_nil]
  omega

theorem typePieces_cons {depth : Int} {c : Char} (h : c = ',' → depth ≠ 0)
    (current rest : List Char) :
    typePieces depth current (c :: rest) =
      typePieces (depth + angleDepth [c]) (c :: current) rest := by
  rw [typePieces]
  split
  · next hopen => rw [hopen]; rfl
  · split
    · next hclose => rw [hclose]; rfl
    · next hopen hclose =>
      have hdepth : angleDepth [c] = 0 := by simp [angleDepth, hopen, hclose]
      rw [if_neg fun hcomma => h hcomma.1 hcomma.2, hdepth, Int.add_zero]

/-- A front whose commas all stand inside brackets belongs to the piece at hand. -/
theorem typePieces_append {depth : Int} {front : List Char}
    (h : ∀ i, (hi : i < front.length) → front[i] = ',' → depth + angleDepth (front.take i) ≠ 0)
    (current rest : List Char) : typePieces depth current (front ++ rest) =
      typePieces (depth + angleDepth front) (front.reverse ++ current) rest := by
  induction front generalizing depth current with
  | nil => simp [angleDepth]
  | cons c front ih =>
    have hfirst : c = ',' → depth ≠ 0 := by
      simpa [angleDepth] using h 0 (Nat.zero_lt_succ _)
    have hbehind : ∀ i, (hi : i < front.length) → front[i] = ',' →
        depth + angleDepth [c] + angleDepth (front.take i) ≠ 0 := by
      intro i hi hcomma
      have hnested := h (i + 1) (Nat.succ_lt_succ hi) hcomma
      rwa [List.take_succ_cons, angleDepth_cons, ← Int.add_assoc] at hnested
    rw [List.cons_append, typePieces_cons hfirst, ih hbehind, angleDepth_cons c front,
      List.reverse_cons, List.append_assoc, List.singleton_append, Int.add_assoc]

theorem IsTypeText.pieces_append {t : String} (h : IsTypeText t) (current rest : List Char) :
    typePieces 0 current (t.toList ++ rest) = typePieces 0 (t.toList.reverse ++ current) rest := by
  have hcommas : ∀ i, (hi : i < t.toList.length) → t.toList[i] = ',' →
      0 + angleDepth (t.toList.take i) ≠ 0 := by simpa using h.commas
  rw [typePieces_append hcommas, h.balanced, Int.add_zero]

theorem typePieces_join {t : String} {ts : List String} (h : ∀ u ∈ t :: ts, IsTypeText u)
    (current : List Char) : typePieces 0 current (Text.join ", " (t :: ts)).toList =
      (current.reverse ++ t.toList) :: ts.map fun u => ' ' :: u.toList := by
  induction ts generalizing t current with
  | nil =>
    have ht := (h t List.mem_cons_self).pieces_append current []
    rw [List.append_nil] at ht
    rw [Text.join, String.intercalate_singleton, ht, typePieces, List.reverse_append,
      List.reverse_reverse, List.map_nil]
  | cons u ts ih =>
    have hjoin : (Text.join ", " (t :: u :: ts)).toList =
        t.toList ++ ',' :: ' ' :: (Text.join ", " (u :: ts)).toList := by
      simp [Text.join, String.toList_intercalate]
    have hcomma (front rest : List Char) :
        typePieces 0 front (',' :: rest) = front.reverse :: typePieces 0 [] rest := rfl
    have hspace : typePieces 0 [] (' ' :: (Text.join ", " (u :: ts)).toList) =
        typePieces 0 [' '] (Text.join ", " (u :: ts)).toList := rfl
    have hrest := ih (fun v hv => h v (List.mem_cons_of_mem t hv)) [' ']
    rw [hjoin, (h t List.mem_cons_self).pieces_append, hcomma, hspace, hrest,
      List.reverse_append, List.reverse_reverse, List.map_cons]
    rfl

theorem IsTypeText.trim_toList {t : String} (h : IsTypeText t) :
    Text.Chars.trim t.toList = t.toList := by
  rw [← String.toList_ofList (l := Text.Chars.trim t.toList)]
  exact congrArg String.toList h.trimmed

theorem splitTypes_join {ts : List String} (h : ∀ t ∈ ts, IsTypeText t) :
    splitTypes (Text.join ", " ts) = ts := by
  cases ts with
  | nil => rfl
  | cons t ts =>
    have htrim : (typePieces 0 [] (Text.join ", " (t :: ts)).toList).map Text.Chars.trim =
        (t :: ts).map String.toList := by
      rw [typePieces_join h, List.map_cons, List.map_map, List.map_cons]
      refine congrArg₂ List.cons (h t List.mem_cons_self).trim_toList
        (List.map_congr_left fun u hu => ?_)
      exact (Text.Chars.trim_space_cons u.toList).trans
        (h u (List.mem_cons_of_mem t hu)).trim_toList
    have hfilter : ((t :: ts).map String.toList).filter (!·.isEmpty) =
        (t :: ts).map String.toList := by
      refine List.filter_eq_self.2 (List.forall_mem_map.2 fun u hu => ?_)
      simpa using (h u hu).ne_empty
    rw [splitTypes, htrim, hfilter, List.map_map]
    exact (List.map_congr_left fun u _ => String.ofList_toList).trans (List.map_id _)

theorem trim_of_mem_splitTypes {list t : String} (h : t ∈ splitTypes list) :
    Text.trim t = t ∧ t ≠ "" := by
  obtain ⟨cs, hcs, rfl⟩ := List.mem_map.1 h
  obtain ⟨hcs, hsome⟩ := List.mem_filter.1 hcs
  obtain ⟨piece, -, rfl⟩ := List.mem_map.1 hcs
  refine ⟨?_, by simpa using hsome⟩
  rw [Text.trim, String.toList_ofList, Text.Chars.trim_trim]

/-- Reading a list of types inverts writing it, and what is read from any text is trimmed and not
empty. -/
theorem splitTypes_inverts :
    (∀ ts : List String, (∀ t ∈ ts, IsTypeText t) → splitTypes (Text.join ", " ts) = ts) ∧
      ∀ list : String, ∀ t ∈ splitTypes list, Text.trim t = t ∧ t ≠ "" :=
  ⟨fun _ => splitTypes_join, fun _ _ => trim_of_mem_splitTypes⟩

theorem splitTypes_inverts_nested :
    let ts := ["A", "Map<String, List<Pair<K, V>>>", "B<C, D>[]"]
    (∀ t ∈ ts, IsTypeText t) ∧ splitTypes "A, Map<String, List<Pair<K, V>>>, B<C, D>[]" = ts := by
  intro ts
  have hts : ∀ t ∈ ts, IsTypeText t := by decide
  have hjoin : Text.join ", " ts = "A, Map<String, List<Pair<K, V>>>, B<C, D>[]" := by decide
  exact ⟨hts, hjoin ▸ splitTypes_inverts.1 ts hts⟩

section Depth

/-- The scan with a depth of 32 signed bits. -/
def typePieces32 : Int32 → List Char → List Char → List (List Char)
  | _, current, [] => [current.reverse]
  | depth, current, c :: rest =>
    if c = '<' then typePieces32 (depth + 1) (c :: current) rest
    else if c = '>' then typePieces32 (depth - 1) (c :: current) rest
    else if c = ',' ∧ depth = 0 then current.reverse :: typePieces32 depth [] rest
    else typePieces32 depth (c :: current) rest

theorem natAbs_angleDepth_le (s : List Char) : (angleDepth s).natAbs ≤ s.length := by
  have hopen := s.count_le_length (a := '<')
  have hclose := s.count_le_length (a := '>')
  unfold angleDepth
  omega

theorem int32_eq_zero_iff {depth : Int} (h : depth.natAbs < 2 ^ 31) :
    Int32.ofInt depth = 0 ↔ depth = 0 := by
  constructor
  · intro hzero
    have hback := congrArg Int32.toInt hzero
    rwa [Int32.toInt_ofInt_of_le (by omega) (by omega)] at hback
  · rintro rfl
    rfl

theorem typePieces32_ofInt {depth : Int} {s : List Char}
    (h : ∀ i ≤ s.length, (depth + angleDepth (s.take i)).natAbs < 2 ^ 31) (current : List Char) :
    typePieces32 (Int32.ofInt depth) current s = typePieces depth current s := by
  -- No front of the text leaves the depth outside of the range.
  induction s generalizing depth current with
  | nil => rfl
  | cons c s ih =>
    have hhere : depth.natAbs < 2 ^ 31 := by simpa [angleDepth] using h 0 (Nat.zero_le _)
    have hrest : ∀ i ≤ s.length,
        (depth + angleDepth [c] + angleDepth (s.take i)).natAbs < 2 ^ 31 := by
      intro i hi
      have hnext := h (i + 1) (Nat.succ_le_succ hi)
      rwa [List.take_succ_cons, angleDepth_cons, ← Int.add_assoc] at hnext
    unfold typePieces32 typePieces
    split
    · next hopen =>
      have hdepth : depth + angleDepth [c] = depth + 1 := by rw [hopen]; rfl
      rw [hdepth] at hrest
      exact (congrArg (typePieces32 · (c :: current) s) (Int32.ofInt_add depth 1)).symm.trans
        (ih hrest _)
    · split
      · next hclose =>
        have hdepth : depth + angleDepth [c] = depth - 1 := by rw [hclose]; rfl
        rw [hdepth] at hrest
        exact (congrArg (typePieces32 · (c :: current) s) (Int32.ofInt_sub depth 1)).symm.trans
          (ih hrest _)
      · next hopen hclose =>
        have hdepth : depth + angleDepth [c] = depth := by simp [angleDepth, hopen, hclose]
        rw [hdepth] at hrest
        simp only [int32_eq_zero_iff hhere, ih hrest]

theorem splitTypes_eq_of_short {list : String} (h : list.length < 2 ^ 31) : splitTypes list =
    (((typePieces32 0 [] list.toList).map Text.Chars.trim).filter (!·.isEmpty)).map
      String.ofList := by
  have hdepths : ∀ i ≤ list.toList.length,
      (0 + angleDepth (list.toList.take i)).natAbs < 2 ^ 31 := by
    intro i hi
    have hle := natAbs_angleDepth_le (list.toList.take i)
    rw [List.length_take] at hle
    rw [String.length_toList] at hi hle
    rw [Int.zero_add]
    omega
  rw [splitTypes, ← typePieces32_ofInt hdepths]
  rfl

end Depth

end Source

end CodeRetrieval
