import CodeRetrieval.Proofs.Source.Grammar.Steps
import Mathlib.Data.List.TakeWhile

set_option autoImplicit false

namespace CodeRetrieval.Source

namespace Lexeme

theorem isNameChar_of_mem_word {s : List Char} : ∀ c ∈ word s, isNameChar c = true := by
  have hname : ∀ c ∈ s.takeWhile isNamePart, isNameChar c = true := fun c hc => by
    simp [isNameChar, List.mem_takeWhile_imp hc]
  have hkeyword : ∀ c ∈ "non-sealed".toList, isNameChar c = true :=
    List.all_eq_true.1 (by decide +kernel)
  simp only [word]
  split
  · split
    · exact hkeyword
    · exact hname
  · exact hname

theorem isName_of_front {s text : List Char} (h : front s = (.word, text)) :
    IsName (String.ofList text) := by
  unfold front at h
  split at h
  case h_9 =>
    split at h
    · cases h
    · split at h
      · cases h
        simpa [IsName] using isNameChar_of_mem_word
      · split at h <;> cases h
  all_goals cases h

theorem sound_of_mem_tokensFrom {n : Nat} {m : Mark} {s : List Char} {t : Token}
    (h : t ∈ tokensFrom n m s) : t.Sound := by
  induction n generalizing m s with
  | zero => cases h
  | succ n ih =>
    simp only [tokensFrom] at h
    split at h
    · cases h
    · rcases List.mem_cons.1 h with rfl | h
      · intro hword
        exact isName_of_front (Prod.ext (eq_of_beq hword) rfl)
      · exact ih h

end Lexeme

theorem sound_of_mem_tokens {text : List Char} {t : Token} (h : t ∈ tokens text) : t.Sound := by
  unfold tokens at h
  split at h
  · exact Lexeme.sound_of_mem_tokensFrom h
  · exact Lexeme.sound_of_mem_tokensFrom h

namespace Parse

variable {source : List Char}

theorem keeps_opening (documentation : Option String) : Keeps (opening source documentation) := by
  refine keeps_peek.bind fun o => ?_
  cases o with
  | none => exact gives_fail
  | some first =>
    exact keeps_modifiers.bind fun _ => keeps_peekAny.bind fun _ => keeps_pure _

theorem keeps_declaredKind? : Keeps declaredKind? := keeps_look _

theorem keeps_constantsWithin (n : Nat) : Keeps (constantsWithin n) := by
  induction n with
  | zero => exact keeps_pure _
  | succ n ih =>
    refine keeps_peek.bind fun o => ?_
    cases o with
    | none => exact keeps_pure _
    | some t =>
      exact gives_ite keeps_advance (gives_ite (keeps_pure _)
        (gives_ite (keeps_group.bind fun _ => ih) (keeps_advance.bind fun _ => ih)))

theorem keeps_heritageClause (kind : String) (h : Heritage) :
    Keeps (heritageClause source kind h) := by
  refine (keeps_next _).bind fun _ => gives_ite ?_ ((keeps_next _).bind fun _ => gives_ite ?_ ?_)
  · exact (keeps_expect _).bind fun _ => gives_ite
      (keeps_typeList.bind fun _ => keeps_pure _)
      ((keeps_typeOrComment keeps_annotatedType).bind fun _ => keeps_pure _)
  · exact (keeps_expect _).bind fun _ => keeps_typeList.bind fun _ => keeps_pure _
  · exact (keeps_expect _).bind fun _ => keeps_typeList.bind fun _ => keeps_pure _

theorem keeps_heritage (kind : String) (n : Nat) (h : Heritage) :
    Keeps (heritage source kind n h) := by
  induction n generalizing h with
  | zero => exact keeps_pure _
  | succ n ih =>
    refine (keeps_heritageClause kind h).opt.bind fun o => ?_
    cases o with
    | none => exact keeps_pure _
    | some h => exact ih h

theorem gives_memberOf (o : Opening) (name : String) (kind : MemberKind)
    (returnType : Option String) {parameters : Parse (List Param)} (h : Keeps parameters) :
    Gives (fun m => m.name = name) (memberOf source o name kind returnType parameters) :=
  h.bind fun _ => keeps_statement.bind fun _ => keeps_get.bind fun _ => gives_pure rfl

/-- Nested types among the items of a body are named as their place asks for, and members bear
names. -/
structure Item.Named (outer : String) (i : Item) : Prop where
  nested : ∀ e ∈ i.nested?, e.Named outer
  member : ∀ m ∈ i.member?, IsName m.name

theorem named_fields (outer : String) (fs : List Field) : (Item.fields fs).Named outer :=
  ⟨by simp [Item.nested?], by simp [Item.member?]⟩

theorem named_other (outer : String) : Item.other.Named outer :=
  ⟨by simp [Item.nested?], by simp [Item.member?]⟩

theorem named_member {outer : String} {m : Member} (h : IsName m.name) :
    (Item.member m).Named outer := ⟨by simp [Item.nested?], by simpa [Item.member?] using h⟩

theorem named_nested {outer : String} {e : Entity} (h : e.Named outer) :
    (Item.nested e).Named outer := ⟨by simpa [Item.nested?] using h, by simp [Item.member?]⟩

theorem gives_memberOrFields (o : Opening) (outer : String) :
    Gives (Item.Named outer) (memberOrFields source o) := by
  refine (keeps_next _).bind fun _ => gives_optionally ?_ fun hbehind =>
    keeps_typeArguments.bind fun _ => keeps_annotations.bind fun _ => hbehind
  -- A constructor comes with the step that reads its parameters.
  have hconstructor : Gives (fun r : Token × Parse (List Param) => IsName r.1.text ∧ Keeps r.2) (do
      let t ← word
      if ← next "(" then return (t, params source)
      else if ← next "\x7b" then return (t, pure [])
      else fail) :=
    gives_word.bind fun t ht => (keeps_next _).bind fun _ => gives_ite
      (gives_pure ⟨ht, keeps_params⟩)
      ((keeps_next _).bind fun _ => gives_ite (gives_pure ⟨ht, keeps_pure _⟩) gives_fail)
  refine hconstructor.opt.bind fun found hfound => ?_
  cases found with
  | some r =>
    obtain ⟨hname, hparameters⟩ := hfound r rfl
    exact (gives_memberOf o r.1.text .constructor none hparameters).bind fun m hm =>
      gives_pure (named_member (hm ▸ hname))
  | none =>
    have hmethod : Gives (fun t : Token => IsName t.text) (do
        let t ← word
        if ← next "(" then return t else fail) :=
      gives_word.bind fun t ht => (keeps_next _).bind fun _ => gives_ite (gives_pure ht) gives_fail
    refine (keeps_textOf source keeps_type).bind fun typeName =>
      hmethod.opt.bind fun found hfound => ?_
    cases found with
    | some t =>
      exact (gives_memberOf o t.text .method (some typeName) keeps_params).bind fun m hm =>
        gives_pure (named_member (hm ▸ hfound t rfl))
    | none => exact keeps_declarators.bind fun _ => gives_pure (named_fields outer _)

theorem gives_item {kind outer : String} {nested : Opening → String → Parse Entity}
    (hnested : ∀ o kind, Gives (Entity.Named outer) (nested o kind))
    (documentation : Option String) :
    Gives (Item.Named outer) (item source kind nested documentation) := by
  refine (keeps_opening documentation).bind fun o => keeps_declaredKind?.bind fun found => ?_
  cases found with
  | some innerKind =>
    exact (hnested o innerKind).bind fun e he => gives_pure (named_nested he)
  | none =>
    refine (keeps_next _).bind fun _ => gives_ite
      (keeps_group.bind fun _ => gives_pure (named_other outer)) ?_
    refine (gives_memberOrFields o outer).bind fun i hi => ?_
    cases i with
    | member m =>
      refine gives_pure ?_
      split
      · exact named_other outer
      · exact hi
    | fields fs => exact gives_pure hi
    | nested e => exact gives_pure hi
    | other => exact gives_pure hi

theorem gives_itemsWithin {outer : String} {item : Option String → Parse Item}
    (hitem : ∀ documentation, Gives (Item.Named outer) (item documentation)) (n : Nat)
    (comment : Option Token) :
    Gives (fun items => ∀ i ∈ items, Item.Named outer i) (itemsWithin item n comment) := by
  induction n generalizing comment with
  | zero => exact gives_pure (by simp)
  | succ n ih =>
    refine keeps_comment.opt.bind fun found => ?_
    cases found with
    | some t => exact ih (some t)
    | none =>
      refine keeps_peek.bind fun o => ?_
      cases o with
      | none => exact keeps_fault.bind fun _ => gives_pure (by simp)
      | some t =>
        refine gives_ite (keeps_advance.bind fun _ => gives_pure (by simp)) (gives_ite
          (keeps_advance.bind fun _ => ih comment) ?_)
        refine (hitem (docOf comment)).opt.bind fun found hfound => ?_
        cases found with
        | some i =>
          have hi := hfound i rfl
          exact (ih none).bind fun items hitems => gives_pure (by simpa using ⟨hi, hitems⟩)
        | none =>
          exact keeps_fault.bind fun _ => keeps_advance.bind fun _ => keeps_statement.bind fun _ =>
            ih none

theorem gives_items {outer : String} {item : Option String → Parse Item}
    (hitem : ∀ documentation, Gives (Item.Named outer) (item documentation)) :
    Gives (fun items => ∀ i ∈ items, Item.Named outer i) (items item) := fun c =>
  gives_itemsWithin hitem (c.ahead.length + 1) none c

theorem gives_entity (depth : Nat) (outer : String) (o : Opening) (kind : String) :
    Gives (Entity.Named outer) (entity source depth outer o kind) := by
  induction depth generalizing outer o kind with
  | zero => exact gives_fail
  | succ depth ih =>
    unfold entity
    refine (keeps_expect _).bind fun _ => gives_word.bind fun t ht =>
      keeps_typeArguments.opt.bind fun _ => ?_
    refine gives_join keeps_params (keeps_pure _) fun components =>
      (keeps_heritage kind 3 _).bind fun h => (keeps_expect _).bind fun _ => ?_
    refine gives_optionally ?_ fun hbehind =>
      Keeps.bind (fun c => keeps_constantsWithin c.ahead.length c) fun _ => hbehind
    refine (gives_items (gives_item (ih (outer ++ t.text ++ ".")))).bind fun inside hinside =>
      keeps_get.bind fun c => gives_pure ?_
    refine .mk ht rfl (fun m hm => ?_) fun e he => ?_
    · obtain ⟨i, hi, hmember⟩ := List.mem_filterMap.1 hm
      exact (hinside i hi).member m hmember
    · obtain ⟨i, hi, hnested⟩ := List.mem_filterMap.1 he
      exact (hinside i hi).nested e hnested

end Parse

namespace Grammar

open Parse

def Part.Named (p : Part) : Prop := ∀ e ∈ p.entity?, e.Named ""

variable {source : List Char}

theorem gives_part (depth : Nat) (documentation : Option String) :
    Gives Part.Named (part source depth documentation) := by
  have hother {p : Part} (h : p.entity? = none) : Part.Named p := by simp [Part.Named, h]
  have hwhole (o : Opening) : Keeps (do
      statement
      return between source o.first.start.offset (← get).last.stop.offset) :=
    keeps_statement.bind fun _ => keeps_get.bind fun _ => keeps_pure _
  refine (keeps_opening documentation).bind fun o => keeps_declaredKind?.bind fun found => ?_
  cases found with
  | some kind =>
    refine (gives_entity depth "" o kind).bind fun e he => gives_pure fun e' he' => ?_
    cases he'
    exact he
  | none =>
    refine (keeps_next _).bind fun _ => gives_ite
      ((hwhole o).bind fun _ => gives_pure (hother rfl)) ((keeps_next _).bind fun _ => gives_ite
        ((hwhole o).bind fun _ => gives_pure (hother rfl)) ?_)
    exact keeps_statement.bind fun _ => gives_pure (hother rfl)

theorem gives_partsWithin (depth n : Nat) (comment : Option Token) :
    Gives (fun ps => ∀ p ∈ ps, Part.Named p) (partsWithin source depth n comment) := by
  induction n generalizing comment with
  | zero => exact gives_pure (by simp)
  | succ n ih =>
    refine keeps_comment.opt.bind fun found => ?_
    cases found with
    | some t => exact ih (some t)
    | none =>
      refine keeps_peek.bind fun o => ?_
      cases o with
      | none => exact gives_pure (by simp)
      | some t =>
        refine gives_ite (keeps_advance.bind fun _ => ih comment) (gives_ite
          (keeps_fault.bind fun _ => keeps_advance.bind fun _ => ih none) ?_)
        refine (gives_part depth (docOf comment)).opt.bind fun found hfound => ?_
        cases found with
        | some p =>
          have hp := hfound p rfl
          exact (ih none).bind fun ps hps => gives_pure (by simpa using ⟨hp, hps⟩)
        | none =>
          exact keeps_advance.bind fun _ => keeps_statement.opt.bind fun _ =>
            keeps_fault.bind fun _ => ih none

theorem of_file?_read {path text : String} {file : SourceFile}
    (h : (read path text).file? = some file) :
    file.path = path ∧ file.entities = (parts text).1.filterMap Part.entity? := by
  simp only [read] at h
  split at h
  · cases h
  · split at h
    · cases h
      exact ⟨rfl, rfl⟩
    · cases h
      exact ⟨rfl, rfl⟩

theorem keepsPaths_read : Reader.KeepsPaths read := fun _ _ _ hfile => (of_file?_read hfile).1

theorem namesTypes_read : Reader.NamesTypes read := by
  intro path text file hfile e he
  have hparts : ∀ p ∈ (parts text).1, Part.Named p := by
    simp only [parts]
    split
    · next ps c hrun =>
      exact (gives_partsWithin _ _ none _ _ _ (fun _ ht => sound_of_mem_tokens ht) hrun).2
    · simp
  rw [(of_file?_read hfile).2] at he
  obtain ⟨p, hp, hentity⟩ := List.mem_filterMap.1 he
  exact hparts p hp e hentity

end Grammar

end CodeRetrieval.Source
