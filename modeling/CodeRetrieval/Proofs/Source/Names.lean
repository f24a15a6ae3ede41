import CodeRetrieval.Proofs.Source.Declaration
import CodeRetrieval.Proofs.Source.Outline
import CodeRetrieval.Proofs.Text.Pattern
import CodeRetrieval.Source.Token

set_option autoImplicit false

namespace CodeRetrieval.Source

def isNameChar (c : Char) : Bool := Lexeme.isNamePart c || c == '-'

def IsName (name : String) : Prop := ∀ c ∈ name.toList, isNameChar c = true

/-- A type whose qualified name is its own behind `outer`, with members that bear names and types
inside it named likewise. -/
inductive Entity.Named : String → Entity → Prop where
  | mk {outer : String} {e : Entity} : IsName e.declaration.name →
      e.declaration.qualifiedName = outer ++ e.declaration.name →
      (∀ m ∈ e.declaration.members, IsName m.name) →
      (∀ nested ∈ e.inner, nested.Named (e.declaration.qualifiedName ++ ".")) → e.Named outer

/-- What stands before the names of some types: nothing, or names that each end with a dot. -/
structure IsOuter (outer : String) : Prop where
  chars : ∀ c ∈ outer.toList, isNameChar c = true ∨ c = '.'
  ends : outer = "" ∨ ∃ lead, outer = lead ++ "."

theorem isOuter_empty : IsOuter "" := ⟨by simp, .inl rfl⟩

theorem IsOuter.within {outer name : String} (h : IsOuter outer) (hname : IsName name) :
    IsOuter (outer ++ name ++ ".") := by
  refine ⟨fun c hc => ?_, .inr ⟨_, rfl⟩⟩
  simp only [String.toList_append, List.mem_append] at hc
  rcases hc with (hc | hc) | hc
  · exact h.chars c hc
  · exact .inl (hname c hc)
  · exact .inr (by simpa using hc)

structure Declaration.WellNamed (d : Declaration) : Prop where
  isName : IsName d.name
  outer : ∃ outer, IsOuter outer ∧ d.qualifiedName = outer ++ d.name

theorem Entity.Named.wellNamed {outer : String} {e : Entity} {d : Declaration}
    (h : e.Named outer) (houter : IsOuter outer) (hd : e.Declares d) : d.WellNamed := by
  induction hd generalizing outer with
  | self e =>
    obtain ⟨hname, hqualified, _, _⟩ := h
    exact ⟨hname, outer, houter, hqualified⟩
  | inner hnested _ ih =>
    obtain ⟨hname, hqualified, _, hinner⟩ := h
    refine ih (hinner _ hnested) ?_
    rw [hqualified]
    exact houter.within hname

theorem Entity.Named.members {outer : String} {e : Entity} {d : Declaration} (h : e.Named outer)
    (hd : e.Declares d) : ∀ m ∈ d.members, IsName m.name := by
  induction hd generalizing outer with
  | self e =>
    obtain ⟨_, _, hmembers, _⟩ := h
    exact hmembers
  | inner hnested _ ih =>
    obtain ⟨_, _, _, hinner⟩ := h
    exact ih (hinner _ hnested)

theorem Entity.Named.holds {outer : String} {e f : Entity} (h : e.Named outer) (hf : e.Holds f) :
    ∃ outer', f.Named outer' := by
  induction hf generalizing outer with
  | self e => exact ⟨outer, h⟩
  | inner hnested _ ih =>
    obtain ⟨_, _, _, hinner⟩ := h
    exact ih (hinner _ hnested)

theorem IsName.not_mem {name : String} {c : Char} (h : IsName name) (hc : isNameChar c = false) :
    c ∉ name.toList := by
  intro hmem
  rw [h c hmem] at hc
  cases hc

theorem Declaration.WellNamed.not_mem {d : Declaration} {c : Char} (h : d.WellNamed)
    (hc : isNameChar c = false) (hdot : c ≠ '.') : c ∉ d.qualifiedName.toList := by
  obtain ⟨hname, outer, houter, hqualified⟩ := h
  rw [hqualified, String.toList_append, List.mem_append, not_or]
  refine ⟨fun hmem => ?_, hname.not_mem hc⟩
  rcases houter.chars c hmem with hchar | hchar
  · rw [hchar] at hc
    cases hc
  · exact hdot hchar

theorem Declaration.WellNamed.colon_not_mem {d : Declaration} (h : d.WellNamed) :
    ':' ∉ d.qualifiedName.toList := h.not_mem (by decide) (by decide)

/-- A reader that names all types it finds by the types around them. -/
def Reader.NamesTypes (reader : Reader) : Prop :=
  ∀ path text file, (reader path text).file? = some file → ∀ e ∈ file.entities, e.Named ""

theorem Reader.NamesTypes.wellNamed {reader : Reader} (h : reader.NamesTypes) {path text : String}
    {file : SourceFile} (hfile : (reader path text).file? = some file) {d : Declaration}
    (hd : d ∈ file.declarations) : d.WellNamed := by
  obtain ⟨e, he, hdeclares⟩ := SourceFile.mem_declarations.1 hd
  exact (h path text file hfile e he).wellNamed isOuter_empty hdeclares

theorem Reader.NamesTypes.isName_member {reader : Reader} (h : reader.NamesTypes)
    {path text : String} {file : SourceFile} (hfile : (reader path text).file? = some file)
    {d : Declaration} (hd : d ∈ file.declarations) : ∀ m ∈ d.members, IsName m.name := by
  obtain ⟨e, he, hdeclares⟩ := SourceFile.mem_declarations.1 hd
  exact (h path text file hfile e he).members hdeclares

theorem Reader.NamesTypes.orElse {first second : Reader} (hfirst : first.NamesTypes)
    (hsecond : second.NamesTypes) : (first.orElse second).NamesTypes := fun path text file hfile =>
  (Reader.of_file?_orElse hfile).elim (hfirst path text file) (hsecond path text file)

namespace Outline

open Text

theorem isNameChar_of_isWord {c : Char} (h : isWord c = true) : isNameChar c = true := by
  simp [isNameChar, Lexeme.isNamePart, h]

theorem isWord_of_isAlpha {c : Char} (h : c.isAlpha = true) : isWord c = true := by
  have halpha : c.isAlphanum = true := Bool.or_eq_true_iff.2 (.inl h)
  have hascii : c.toNat < 128 := by
    rcases Bool.or_eq_true_iff.1 h with hupper | hlower
    · have hle := (of_decide_eq_true hupper).2
      exact Nat.lt_of_le_of_lt (UInt32.le_iff_toNat_le.1 hle) (by decide)
    · have hle := of_decide_eq_true (Bool.and_eq_true_iff.1 hlower).2
      exact Nat.lt_of_le_of_lt (UInt32.le_iff_toNat_le.1 hle) (by decide)
  simp [isWord, hascii, halpha]

theorem reads_identifier :
    Line.identifier.Reads (fun c => isNameChar c = true) fun _ => True := by
  refine ⟨fun c hc => ?_, fun c hc => isNameChar_of_isWord hc⟩
  refine isNameChar_of_isWord ?_
  rcases Bool.or_eq_true_iff.1 hc with halpha | hunderscore
  · exact isWord_of_isAlpha halpha
  · rw [eq_of_beq hunderscore]
    decide

theorem declaration_eq :
    ∃ before, Line.declaration = Pattern.all (before ++ [.part 5 Line.identifier]) :=
  ⟨[_, _, _, _, _], rfl⟩

theorem method_eq :
    ∃ before behind, Line.method = Pattern.all (before ++ .part 4 Line.identifier :: behind) ∧
      ∀ b ∈ behind, b.Reads (fun _ => True) fun k => k ≠ 4 := by
  refine ⟨[_, _, _, _, _], [Line.blanks, .char '(', .part 5 (.star (.except [')'])), .char ')'],
    rfl, fun b hb => ?_⟩
  simp only [List.mem_cons, List.not_mem_nil, or_false] at hb
  rcases hb with rfl | rfl | rfl | rfl
  · exact fun _ _ => trivial
  · exact fun _ _ => trivial
  · exact ⟨by decide, fun _ _ => trivial⟩
  · exact fun _ _ => trivial

theorem isName_of_mem_headings {ls : List String} {h : Heading} (hh : h ∈ headings ls) :
    IsName h.name := by
  obtain ⟨⟨line, i⟩, _, hsome⟩ := List.mem_filterMap.1 hh
  simp only [heading?] at hsome
  by_cases hcomment : isComment line = true
  · rw [if_pos hcomment] at hsome
    cases hsome
  · rw [if_neg hcomment] at hsome
    obtain ⟨parts, hparts, rfl⟩ := Option.map_eq_some_iff.1 hsome
    obtain ⟨before, heq⟩ := declaration_eq
    rw [heq] at hparts
    exact Pattern.get_of_matchFront reads_identifier (by simp) hparts

theorem isName_of_mem_contents {ls : List String} {start last : Nat} {owner : String}
    {nested : List (Nat × Nat)} {m : Member} (h : m ∈ (contents ls start last owner nested).2) :
    IsName m.name := by
  obtain ⟨i, _, hmember⟩ := member?_of_mem_contents h
  obtain ⟨parts, hparts, hname, _⟩ := parts_of_member? hmember
  obtain ⟨before, behind, heq, hbehind⟩ := method_eq
  rw [heq] at hparts
  rw [hname]
  exact Pattern.get_of_matchFront reads_identifier hbehind hparts

theorem named_entities {ls : List String} {limit : Nat} {outer : String} {hs : List Heading}
    (hhs : ∀ h ∈ hs, IsName h.name) : ∀ e ∈ entities ls limit outer hs, e.Named outer := by
  fun_induction entities ls limit outer hs with
  | case1 => simp
  | case2 limit outer h rest deeper later limitHere last inner fields members hcontents ihInner
      ihLater =>
    obtain ⟨hname, hdeeper, hlater⟩ : IsName h.name ∧ (∀ k ∈ deeper, IsName k.name) ∧
        ∀ k ∈ later, IsName k.name := forall_parts hhs
    intro e he
    rcases List.mem_cons.1 he with rfl | he
    · refine .mk hname rfl (fun m hm => ?_) (ihInner hdeeper)
      have hmember : m ∈ (contents ls h.line last h.name (inner.map span)).2 := by
        rw [hcontents]
        exact hm
      exact isName_of_mem_contents hmember
    · exact ihLater hlater e he

theorem keepsPaths_read : Reader.KeepsPaths read := fun _ _ _ hfile => (placed_of_read hfile).1

theorem namesTypes_read : Reader.NamesTypes read := by
  intro path text file hfile e he
  obtain ⟨_, _, hentities⟩ := entities_of_read hfile
  rw [hentities] at he
  exact named_entities (fun h hh => isName_of_mem_headings hh) e he

end Outline

end CodeRetrieval.Source
