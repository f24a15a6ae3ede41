import CodeRetrieval.Fragment.Encoding
import CodeRetrieval.Json.Printer
import CodeRetrieval.Json.Reader

/-!
A list of texts survives being written as JSON and read back, whatever characters are in them.
-/

set_option autoImplicit false

namespace CodeRetrieval.Json

theorem hexValue_hexDigit : ∀ n < 16, hexValue (hexDigit n) = some n := by decide

theorem readEscapedUnit_control (c : Char) (h : c.toNat < 0x20) (rest : List Char) :
    readEscapedUnit ('0' :: '0' :: hexDigit (c.toNat / 16) :: hexDigit (c.toNat % 16) :: rest) =
      some (c, rest) := by
  have hhigh := hexValue_hexDigit (c.toNat / 16) (by omega)
  have hlow := hexValue_hexDigit (c.toNat % 16) (by omega)
  have hzero : hexValue '0' = some 0 := by decide
  have hnumber : ((0 * 16 + 0) * 16 + c.toNat / 16) * 16 + c.toNat % 16 = c.toNat := by omega
  simp only [readEscapedUnit, readHex4, hzero, hhigh, hlow, Option.bind_eq_bind, Option.bind_some,
    hnumber]
  rw [if_pos (.inl (by omega)), Char.ofNat_toNat]

theorem escape_cases (c : Char) :
    (∃ d, d ≠ 'u' ∧ escapedChar d = some c ∧ escape c = ['\\', d]) ∨
    (c.toNat < 0x20 ∧
      escape c = ['\\', 'u', '0', '0', hexDigit (c.toNat / 16), hexDigit (c.toNat % 16)]) ∨
    (c ≠ '"' ∧ c ≠ '\\' ∧ ¬c.toNat < 0x20 ∧ escape c = [c]) := by
  unfold escape
  split
  · next h => exact .inl ⟨'"', by decide, congrArg some h.symm, rfl⟩
  split
  · next h => exact .inl ⟨'\\', by decide, congrArg some h.symm, rfl⟩
  split
  · next h => exact .inl ⟨'n', by decide, congrArg some h.symm, rfl⟩
  split
  · next h => exact .inl ⟨'r', by decide, congrArg some h.symm, rfl⟩
  split
  · next h => exact .inl ⟨'t', by decide, congrArg some h.symm, rfl⟩
  split
  · next h => exact .inl ⟨'b', by decide, congrArg some h.symm, rfl⟩
  split
  · next h => exact .inl ⟨'f', by decide, congrArg some h.symm, rfl⟩
  split
  · next h => exact .inr (.inl ⟨h, rfl⟩)
  · next hquote hback _ _ _ _ _ hprint => exact .inr (.inr ⟨hquote, hback, hprint, rfl⟩)

theorem readStringBody_escape (fuel : Nat) (c : Char) (rest : List Char) :
    readStringBody (fuel + 1) (escape c ++ rest) =
      (readStringBody fuel rest).map fun r => (c :: r.1, r.2) := by
  have hslash : ('\\' : Char) ≠ '"' := by decide
  obtain ⟨d, hu, hd, hescape⟩ | ⟨hcontrol, hescape⟩ | ⟨hquote, hback, hprint, hescape⟩ :=
    escape_cases c
  · simp only [hescape, List.cons_append, List.nil_append, readStringBody, if_neg hslash, if_true,
      hd, Option.map_eq_bind]
    rfl
  · simp only [hescape, List.cons_append, List.nil_append, readStringBody, if_neg hslash, if_true,
      readEscapedUnit_control c hcontrol, Option.map_eq_bind]
    rfl
  · simp only [hescape, List.cons_append, List.nil_append, readStringBody, if_neg hquote,
      if_neg hback, if_neg hprint, Option.map_eq_bind]
    rfl

theorem readStringBody_flatMap (cs rest : List Char) (fuel : Nat) (h : cs.length < fuel) :
    readStringBody fuel (cs.flatMap escape ++ '"' :: rest) = some (cs, rest) := by
  induction cs generalizing fuel with
  | nil =>
    cases fuel with
    | zero => simp at h
    | succ fuel => simp [readStringBody]
  | cons c cs ih =>
    cases fuel with
    | zero => simp at h
    | succ fuel =>
      have hrest := ih fuel (by simpa using h)
      rw [List.flatMap_cons, List.append_assoc, readStringBody_escape, hrest]
      rfl

theorem length_le_escaped (cs : List Char) : cs.length ≤ (cs.flatMap escape).length := by
  induction cs with
  | nil => simp
  | cons c cs ih =>
    have hone : 1 ≤ (escape c).length := by
      unfold escape
      repeat' split
      all_goals simp
    simp only [List.flatMap_cons, List.length_append, List.length_cons]
    omega

theorem readString_quoted (s : String) (rest : List Char) :
    readString (s.toList.flatMap escape ++ '"' :: rest) = some (s, rest) := by
  have hlen := length_le_escaped s.toList
  unfold readString
  rw [readStringBody_flatMap _ _ _ (by simp only [List.length_append, List.length_cons]; omega)]
  simp

theorem readValue_quote (depth : Nat) (s : String) (rest : List Char) :
    readValue (depth + 1) (quote s ++ rest) = some (.str s, rest) := by
  have hread := readString_quoted s rest
  simp [quote, quoteChars, readValue, hread]

theorem skipSpace_quote (s : String) (rest : List Char) :
    skipSpace (quote s ++ rest) = quote s ++ rest := by
  simp [quote, quoteChars, skipSpace, isSpace]

theorem compactItems_texts (xs : List String) : compactItems (xs.map .str) = xs.map quote := by
  induction xs with
  | nil => rfl
  | cons x xs ih => simp only [List.map_cons, compactItems, compactChars, scalarText, ih]

theorem skipSpace_between (x : String) (xs : List String) (rest : List Char) :
    skipSpace (between [','] ((x :: xs).map quote) ++ rest) =
      between [','] ((x :: xs).map quote) ++ rest := by
  cases xs with
  | nil => simp only [List.map_cons, List.map_nil, between, skipSpace_quote]
  | cons y ys =>
    simp only [List.map_cons, between, List.append_assoc, skipSpace_quote]

theorem readItems_texts (depth fuel : Nat) (x : String) (xs : List String) (rest : List Char)
    (h : xs.length < fuel) :
    readItems (readValue (depth + 1)) ']' fuel
      (between [','] ((x :: xs).map quote) ++ ']' :: rest) = some ((x :: xs).map .str, rest) := by
  induction xs generalizing x fuel with
  | nil =>
    cases fuel with
    | zero => simp at h
    | succ fuel =>
      simp only [List.map_cons, List.map_nil, between, readItems, skipSpace_quote, readValue_quote]
      simp [skipSpace, isSpace]
  | cons y ys ih =>
    cases fuel with
    | zero => simp at h
    | succ fuel =>
      have hrest := ih fuel y (by simpa using h)
      simp only [List.map_cons, between, List.append_assoc, readItems, skipSpace_quote,
        readValue_quote]
      simp only [List.map_cons] at hrest
      simp [skipSpace, isSpace, hrest]

theorem length_le_between (xs : List String) :
    xs.length ≤ (between [','] (xs.map quote)).length + 1 := by
  induction xs with
  | nil => simp
  | cons x xs ih =>
    cases xs with
    | nil => simp
    | cons y ys =>
      simp only [List.map_cons, between, List.length_append, List.length_cons,
        List.length_nil] at *
      omega

theorem readList_texts (depth : Nat) (xs : List String) (rest : List Char) :
    readList (readValue (depth + 1)) ']' (between [','] (xs.map quote) ++ ']' :: rest) =
      some (xs.map .str, rest) := by
  cases xs with
  | nil => simp [between, readList, skipSpace, isSpace]
  | cons x xs =>
    have hskip := skipSpace_between x xs (']' :: rest)
    have hlen := length_le_between (x :: xs)
    have hitems := readItems_texts depth
      ((between [','] ((x :: xs).map quote) ++ ']' :: rest).length + 1) x xs rest
      (by simp only [List.length_append, List.length_cons] at *; omega)
    obtain ⟨tail, htail⟩ :
        ∃ tail, between [','] ((x :: xs).map quote) ++ ']' :: rest = '"' :: tail := by
      cases xs <;> exact ⟨_, rfl⟩
    rw [htail] at hskip hitems
    rw [htail, readList, hskip]
    simpa using hitems

theorem parse?_ofStrings (xs : List String) :
    parse? (ofStrings xs).compact = some (ofStrings xs) := by
  have htext : (ofStrings xs).compact.toList = '[' :: (between [','] (xs.map quote) ++ [']']) := by
    simp [compact, ofStrings, compactChars, compactItems_texts]
  have hlist := readList_texts 126 xs []
  rw [parse?, htext]
  simp [skipSpace, isSpace, maxDepth, readValue, hlist, ofStrings]

end CodeRetrieval.Json

namespace CodeRetrieval.Fragment

theorem texts?_ofStrings (xs : List String) : texts? (Json.ofStrings xs) = some xs := by
  simp only [texts?, Json.ofStrings, Json.items?, Option.bind_some]
  induction xs with
  | nil => rfl
  | cons x xs ih => simp [ih, Json.text?]

end CodeRetrieval.Fragment
