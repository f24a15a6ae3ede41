import CodeRetrieval.Store.Like

set_option autoImplicit false

namespace CodeRetrieval.Like

theorem pieces_escapeChar (c : Char) (rest : List Char) :
    pieces (escapeChar c ++ rest) = .char c :: pieces rest := by
  unfold escapeChar
  by_cases h : c = '\\' ∨ c = '%' ∨ c = '_'
  · rw [if_pos h]
    rfl
  · rw [if_neg h]
    simp only [not_or] at h
    simp [pieces, h]

theorem pieces_escape (cs rest : List Char) :
    pieces (cs.flatMap escapeChar ++ rest) = cs.map .char ++ pieces rest := by
  induction cs with
  | nil => rfl
  | cons c cs ih =>
    rw [List.flatMap_cons, List.append_assoc, pieces_escapeChar, ih, List.map_cons,
      List.cons_append]

theorem someEnd_iff (p : List Char → Bool) (s : List Char) :
    someEnd p s = true ↔ ∃ e, e <:+ s ∧ p e = true := by
  induction s with
  | nil => simp [someEnd]
  | cons c s ih =>
    simp only [someEnd, Bool.or_eq_true, ih, List.suffix_cons_iff]
    constructor
    · intro hcases
      rcases hcases with h | ⟨e, he, h⟩
      · exact ⟨c :: s, .inl rfl, h⟩
      · exact ⟨e, .inr he, h⟩
    · intro hcases
      rcases hcases with ⟨e, rfl | he, h⟩
      · exact .inl h
      · exact .inr ⟨e, he, h⟩

theorem accepts_anyText (s : List Char) : accepts [.anyText] s = true := by
  rw [accepts, someEnd_iff]
  exact ⟨[], List.nil_suffix, rfl⟩

theorem accepts_chars (cs s : List Char) :
    accepts (cs.map .char ++ [.anyText]) s = true ↔ cs.map fold <+: s.map fold := by
  induction cs generalizing s with
  | nil => simp [accepts_anyText]
  | cons c cs ih =>
    cases s with
    | nil => simp [accepts]
    | cons d s =>
      simp only [List.map_cons, List.cons_append, accepts, Bool.and_eq_true, beq_iff_eq, ih,
        List.cons_prefix_cons]

/-- What the pattern of a text finds: the text anywhere, letters of ASCII in either case. -/
theorem like_infix (text term : String) :
    like text ("%" ++ escape term ++ "%") = true ↔
      term.toList.map fold <:+: text.toList.map fold := by
  have hpattern : ("%" ++ escape term ++ "%").toList =
      '%' :: (term.toList.flatMap escapeChar ++ ['%']) := by
    simp [escape]
  rw [like, hpattern, pieces, pieces_escape, accepts, someEnd_iff]
  constructor
  · intro hparts
    obtain ⟨e, he, h⟩ := hparts
    have hstart := (accepts_chars term.toList e).1 h
    exact hstart.isInfix.trans (he.map fold).isInfix
  · intro hparts
    obtain ⟨before, after, h⟩ := hparts
    refine ⟨text.toList.drop before.length, List.drop_suffix _ _, (accepts_chars _ _).2 ?_⟩
    rw [List.map_drop, ← h, List.append_assoc, List.drop_left]
    exact List.prefix_append _ _

theorem fold_eq_toLower : fold = Char.toLower := by
  funext c
  by_cases h : c.toNat < 128
  · rw [fold, if_pos h]
  · have hupper : ¬(c.val ≥ 'A'.val ∧ c.val ≤ 'Z'.val) := by
      intro hparts
      have hle : c.val.toNat ≤ 'Z'.val.toNat := UInt32.le_iff_toNat_le.1 hparts.2
      have hz : 'Z'.val.toNat = 90 := rfl
      have hc : c.toNat = c.val.toNat := rfl
      omega
    have hkeep : c.toLower = c := by
      delta Char.toLower
      exact dif_neg hupper
    rw [fold, if_neg h, hkeep]

theorem accepts_exactly (cs s : List Char) :
    accepts (cs.map .char) s = true ↔ cs.map fold = s.map fold := by
  induction cs generalizing s with
  | nil => cases s <;> simp [accepts]
  | cons c cs ih => cases s <;> simp [accepts, ih]

/-- What the pattern of a text behind a dot finds: the dot and the text at the end, letters of ASCII
in either case. -/
theorem like_suffix (text name : String) :
    like text ("%." ++ escape name) = true ↔
      ('.' :: name.toList).map Char.toLower <:+ text.toList.map Char.toLower := by
  have hpattern : ("%." ++ escape name).toList = '%' :: '.' :: name.toList.flatMap escapeChar := by
    simp [escape]
  have hpieces : pieces ('.' :: name.toList.flatMap escapeChar) =
      ('.' :: name.toList).map .char := by
    have hname := pieces_escape ('.' :: name.toList) []
    simpa [escapeChar, pieces] using hname
  rw [like, hpattern, pieces, hpieces, accepts, someEnd_iff, ← fold_eq_toLower]
  constructor
  · intro h
    obtain ⟨e, he, h⟩ := h
    rw [(accepts_exactly _ e).1 h]
    exact he.map fold
  · intro h
    obtain ⟨before, h⟩ := h
    refine ⟨text.toList.drop before.length, List.drop_suffix _ _, (accepts_exactly _ _).2 ?_⟩
    rw [List.map_drop, ← h, List.drop_left]

example : ["shop.A_B", "shop.AxB"].map (like · ("%." ++ escape "a_b")) = [true, false] := by
  decide +kernel

end CodeRetrieval.Like
