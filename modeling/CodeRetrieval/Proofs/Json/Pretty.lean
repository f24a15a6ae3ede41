import CodeRetrieval.Json.Printer
import CodeRetrieval.Proofs.Text.Lines

set_option autoImplicit false

namespace CodeRetrieval

theorem Json.between_append_cons (sep : List Char) (xs : List (List Char)) (y : List Char)
    (zs : List (List Char)) : between sep (xs ++ y :: zs) =
      xs.flatMap (· ++ sep) ++ y ++ zs.flatMap (sep ++ ·) := by
  induction xs with
  | nil =>
    induction zs generalizing y with
    | nil => simp [between]
    | cons z zs ih =>
      have hrest := ih z
      rw [List.nil_append] at hrest
      simp [between, hrest]
  | cons x xs ih =>
    obtain ⟨w, ws, hw⟩ := List.exists_cons_of_ne_nil (l := xs ++ y :: zs) (by simp)
    rw [List.cons_append, hw, between, ← hw, ih]
    simp

namespace Json

variable {before after : List (String × Json)} {e : String × Json}

def entryText (e : String × Json) : List Char := quote e.1 ++ ':' :: ' ' :: prettyChars 1 e.2

/-- The object up to an entry, from the entries before it. -/
def leadText (before : List (String × Json)) : List Char :=
  '\x7b' :: '\n' :: indentOf 1 ++
    before.flatMap fun e => entryText e ++ ',' :: '\n' :: indentOf 1

def tailText (after : List (String × Json)) : List Char :=
  (after.flatMap fun e => ',' :: '\n' :: indentOf 1 ++ entryText e) ++ ['\n', '\x7d']

theorem prettyFields_eq (fields : List (String × Json)) :
    prettyFields 1 fields = fields.map entryText := by
  induction fields with
  | nil => rfl
  | cons e fields ih => rw [prettyFields, ih, List.map_cons, entryText]

theorem toList_pretty (before : List (String × Json)) (e : String × Json)
    (after : List (String × Json)) : (Json.obj (before ++ e :: after)).pretty.toList =
      leadText before ++ entryText e ++ tailText after := by
  obtain ⟨d, more, hd⟩ := List.exists_cons_of_ne_nil (l := before ++ e :: after) (by simp)
  rw [pretty, String.toList_ofList, hd, prettyChars, ← hd, prettyFields_eq, List.map_append,
    List.map_cons, blockText, between_append_cons]
  simp [leadText, tailText, indentOf, List.flatMap_map]

theorem exists_leadText_eq (before : List (String × Json)) :
    ∃ lead, leadText before = lead ++ '\n' :: indentOf 1 := by
  rcases List.eq_nil_or_concat before with rfl | ⟨front, e, rfl⟩
  · exact ⟨['\x7b'], rfl⟩
  · refine ⟨leadText front ++ entryText e ++ [','], ?_⟩
    simp [leadText]

theorem isBlankText_pretty (fields : List (String × Json)) :
    Text.isBlankText (Json.obj fields).pretty = false := by
  have hopen : '\x7b' ∈ (Json.obj fields).pretty.toList := by
    cases fields <;> simp [pretty, prettyChars, scalarText, blockText]
  rw [Text.isBlankText, List.all_eq_false]
  exact ⟨_, hopen, by decide⟩

theorem lineCount_pretty (before : List (String × Json)) (e : String × Json)
    (after : List (String × Json)) : Text.lineCount (Json.obj (before ++ e :: after)).pretty =
      (leadText before).count '\n' + (entryText e).count '\n' + (tailText after).count '\n' + 1 := by
  have hopen : Text.Chars.endsOpen (leadText before ++ entryText e ++ tailText after) = true := by
    simp [Text.Chars.endsOpen, tailText, List.getLast?_append]
  rw [Text.lineCount, toList_pretty, Text.Chars.length_lines, hopen, List.count_append,
    List.count_append, if_pos rfl]

end Json

end CodeRetrieval
