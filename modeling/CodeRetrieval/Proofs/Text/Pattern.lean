import CodeRetrieval.Text.Pattern
import Mathlib.Data.Option.Basic

set_option autoImplicit false

namespace CodeRetrieval.Text.Pattern

variable {q : Char → Prop} {r : Nat → Prop} {next : Next} {place mid final : Place}

/-- All characters that a pattern may read are of a class, and so are the numbers of its parts. -/
def Reads (q : Char → Prop) (r : Nat → Prop) : Pattern → Prop
  | .one p => ∀ c, p c = true → q c
  | .seq a b | .alt a b => a.Reads q r ∧ b.Reads q r
  | .many _ p => p.Reads q r
  | .part n p => r n ∧ p.Reads q r
  | .empty | .wordEdge | .stop => True

theorem reads_any (p : Pattern) : p.Reads (fun _ => True) fun _ => True := by
  induction p with
  | empty => trivial
  | one p => exact fun _ _ => trivial
  | seq a b iha ihb => exact ⟨iha, ihb⟩
  | alt a b iha ihb => exact ⟨iha, ihb⟩
  | many greedy p ih => exact ih
  | part n p ih => exact ⟨trivial, ih⟩
  | wordEdge => trivial
  | stop => trivial

/-- From one place to another over characters and parts of some classes. -/
structure Past (q : Char → Prop) (r : Nat → Prop) (place mid : Place) : Prop where
  text : ∃ text, place.rest = text ++ mid.rest ∧ ∀ c ∈ text, q c
  parts : ∃ more, mid.parts = more ++ place.parts ∧ ∀ e ∈ more, r e.1

theorem Past.refl (place : Place) : Past q r place place := ⟨⟨[], rfl, by simp⟩, [], rfl, by simp⟩

theorem Past.trans {last : Place} (h : Past q r place mid) (hlast : Past q r mid last) :
    Past q r place last := by
  obtain ⟨⟨a, hrest, ha⟩, as, hparts, has⟩ := h
  obtain ⟨⟨b, hmid, hb⟩, bs, hmore, hbs⟩ := hlast
  refine ⟨⟨a ++ b, by rw [hrest, hmid, List.append_assoc], fun c hc => ?_⟩, bs ++ as,
    by rw [hmore, hparts, List.append_assoc], fun e he => ?_⟩
  · rcases List.mem_append.1 hc with hc | hc
    · exact ha c hc
    · exact hb c hc
  · rcases List.mem_append.1 he with he | he
    · exact hbs e he
    · exact has e he

theorem exists_past_of_repeatStep {greedy : Bool} {step : Next → Next} {fuel : Nat}
    (hstep : ∀ (next : Next) (place final : Place), step next place = some final →
      ∃ mid, Past q r place mid ∧ next mid = some final)
    (h : repeatStep greedy step next fuel place = some final) :
    ∃ mid, Past q r place mid ∧ next mid = some final := by
  induction fuel generalizing place with
  | zero => exact ⟨place, .refl place, h⟩
  | succ fuel ih =>
    -- One more repetition ends somewhere, and the others go on from there.
    have again : step (fun p =>
        if p.rest.length < place.rest.length then repeatStep greedy step next fuel p else none)
          place = some final → ∃ mid, Past q r place mid ∧ next mid = some final := by
      intro hagain
      obtain ⟨mid, hmid, hnext⟩ := hstep _ _ _ hagain
      by_cases hshorter : mid.rest.length < place.rest.length
      · rw [if_pos hshorter] at hnext
        obtain ⟨last, hlast, hfinal⟩ := ih hnext
        exact ⟨last, hmid.trans hlast, hfinal⟩
      · rw [if_neg hshorter] at hnext
        cases hnext
    have done : next place = some final → ∃ mid, Past q r place mid ∧ next mid = some final :=
      fun hnext => ⟨place, .refl place, hnext⟩
    simp only [repeatStep] at h
    cases greedy with
    | true =>
      rcases (Option.orElse_eq_some _ _ _).1 h with hagain | ⟨_, hnext⟩
      · exact again hagain
      · exact done hnext
    | false =>
      rcases (Option.orElse_eq_some _ _ _).1 h with hnext | ⟨_, hagain⟩
      · exact done hnext
      · exact again hagain

/-- A match goes on with what follows from a place behind the characters that the pattern reads. -/
theorem exists_past_of_run {p : Pattern} (hp : p.Reads q r) (h : p.run next place = some final) :
    ∃ mid, Past q r place mid ∧ next mid = some final := by
  induction p generalizing next place final with
  | empty => exact ⟨place, .refl place, h⟩
  | one p =>
    simp only [run] at h
    cases hrest : place.rest with
    | nil =>
      rw [hrest] at h
      cases h
    | cons c rest =>
      rw [hrest] at h
      by_cases hc : p c = true
      · simp only [if_pos hc] at h
        have hpast : Past q r place { place with before := some c, rest } :=
          ⟨⟨[c], by simpa using hrest, by simpa using hp c hc⟩, [], rfl, by simp⟩
        exact ⟨_, hpast, h⟩
      · simp only [if_neg hc] at h
        cases h
  | seq a b iha ihb =>
    obtain ⟨mid, hmid, hb⟩ := iha hp.1 h
    obtain ⟨last, hlast, hfinal⟩ := ihb hp.2 hb
    exact ⟨last, hmid.trans hlast, hfinal⟩
  | alt a b iha ihb =>
    rcases (Option.orElse_eq_some _ _ _).1 h with ha | ⟨_, hb⟩
    · exact iha hp.1 ha
    · exact ihb hp.2 hb
  | many greedy p ih => exact exists_past_of_repeatStep (fun _ _ _ => ih hp) h
  | part n p ih =>
    obtain ⟨mid, ⟨htext, more, hmore, hr⟩, hnext⟩ := ih hp.2 h
    -- The part is kept behind those that were kept inside it.
    let own := (n, place.rest.take (place.rest.length - mid.rest.length))
    refine ⟨{ mid with parts := own :: mid.parts },
      ⟨htext, own :: more, congrArg (List.cons own) hmore, fun e he => ?_⟩, hnext⟩
    rcases List.mem_cons.1 he with rfl | he
    · exact hp.1
    · exact hr e he
  | wordEdge =>
    simp only [run] at h
    split at h
    · exact ⟨place, .refl place, h⟩
    · cases h
  | stop =>
    simp only [run] at h
    split at h
    · exact ⟨place, .refl place, h⟩
    · cases h

theorem run_all_cons (p : Pattern) (ps : List Pattern) :
    (all (p :: ps)).run next = p.run ((all ps).run next) := by
  cases ps <;> rfl

theorem reads_all {ps : List Pattern} (h : ∀ p ∈ ps, p.Reads q r) : (all ps).Reads q r := by
  induction ps with
  | nil => trivial
  | cons p ps ih =>
    have hp := h p (by simp)
    have hps := ih fun p hp => h p (List.mem_cons_of_mem _ hp)
    cases ps with
    | nil => exact hp
    | cons next ps => exact ⟨hp, hps⟩

theorem exists_run_behind (before : List Pattern) {behind : List Pattern}
    (h : (all (before ++ behind)).run next place = some final) :
    ∃ mid, (all behind).run next mid = some final := by
  induction before generalizing place with
  | nil => exact ⟨place, h⟩
  | cons first before ih =>
    rw [List.cons_append, run_all_cons] at h
    obtain ⟨mid, _, hrest⟩ := exists_past_of_run (reads_any first) h
    exact ih hrest

theorem exists_parts_of_run_part {n : Nat} {p : Pattern} (hp : p.Reads q r)
    (h : (part n p).run next place = some final) :
    ∃ mid text more, next mid = some final ∧ mid.parts = (n, text) :: more ∧ ∀ c ∈ text, q c := by
  obtain ⟨mid, ⟨⟨text, hrest, htext⟩, _⟩, hnext⟩ := exists_past_of_run (p := p) hp h
  refine ⟨_, text, mid.parts, hnext, ?_, htext⟩
  have hlength : place.rest.length - mid.rest.length = text.length := by
    rw [hrest, List.length_append]
    omega
  have hprefix : place.rest.take text.length = text := by
    rw [hrest, List.take_left]
  simp only [hlength, hprefix]

/-- The text of a part holds characters that the part reads, if no later part has its number. -/
theorem get_of_matchFront {before behind : List Pattern} {n : Nat} {p : Pattern} {text : String}
    {parts : Parts} (hp : p.Reads q r)
    (hbehind : ∀ b ∈ behind, b.Reads (fun _ => True) fun k => k ≠ n)
    (h : (all (before ++ .part n p :: behind)).matchFront text = some parts) :
    ∀ c ∈ (parts.get n).toList, q c := by
  obtain ⟨final, hfinal, rfl⟩ := Option.map_eq_some_iff.1 h
  obtain ⟨place, hpart⟩ := exists_run_behind before hfinal
  rw [run_all_cons] at hpart
  obtain ⟨mid, text, _, hrest, hmid, htext⟩ := exists_parts_of_run_part hp hpart
  obtain ⟨last, ⟨_, more, hmore, hne⟩, hlast⟩ := exists_past_of_run (reads_all hbehind) hrest
  cases hlast
  have hlater : List.lookup n more = none :=
    List.lookup_eq_none_iff.2 fun e he => by simpa using (hne e he).symm
  simpa [Parts.get, Parts.get?, hmore, hmid, List.lookup_append, hlater] using htext

theorem isSome_run_alt {a b : Pattern} : ((alt a b).run next place).isSome = true ↔
    (a.run next place).isSome = true ∨ (b.run next place).isSome = true := by
  simp only [run]
  cases a.run next place <;> simp

theorem isSome_run_wordEdge : (wordEdge.run next place).isSome = true ↔
    isWordEdge place = true ∧ (next place).isSome = true := by
  simp only [run]
  split <;> simp [*]

theorem isSome_run_any {ps : List Pattern} : ((any ps).run next place).isSome = true ↔
    ∃ p ∈ ps, (p.run next place).isSome = true := by
  induction ps with
  | nil =>
    simp only [any, run]
    split <;> simp
  | cons p ps ih =>
    cases ps with
    | nil => simp [any]
    | cons p' ps => simp only [any, isSome_run_alt, ih, List.mem_cons, exists_eq_or_imp]

theorem getLast?_cons_or (c : Char) (s : List Char) (before : Option Char) :
    (c :: s).getLast?.or before = s.getLast?.or (some c) := by
  cases h : s.getLast? <;> simp [List.getLast?_cons, h]

theorem isSome_run_text {s rest : List Char} {before : Option Char}
    {parts : List (Nat × List Char)} :
    ((all (s.map char)).run next ⟨before, rest, parts⟩).isSome = true ↔
      ∃ behind, rest = s ++ behind ∧
        (next ⟨s.getLast?.or before, behind, parts⟩).isSome = true := by
  induction s generalizing before rest with
  | nil => simp [all, run]
  | cons c s ih =>
    rw [List.map_cons, run_all_cons, char, getLast?_cons_or]
    cases rest with
    | nil => simp [run]
    | cons d rest =>
      by_cases hd : d = c
      · simp [run, hd, ih]
      · simp [run, hd]

theorem isSome_run_anyText {xs : List String} {s : List Char} {before : Option Char}
    {parts : List (Nat × List Char)} :
    ((anyText xs).run next ⟨before, s, parts⟩).isSome = true ↔
      ∃ x ∈ xs, ∃ behind, s = x.toList ++ behind ∧
        (next ⟨x.toList.getLast?.or before, behind, parts⟩).isSome = true := by
  rw [anyText, isSome_run_any]
  constructor
  · rintro ⟨_, hp, hrun⟩
    obtain ⟨x, hx, rfl⟩ := List.mem_map.1 hp
    exact ⟨x, hx, isSome_run_text.1 hrun⟩
  · rintro ⟨x, hx, hrun⟩
    exact ⟨text x, List.mem_map.2 ⟨x, hx, rfl⟩, isSome_run_text.2 hrun⟩

theorem isSome_searchFrom {p : Pattern} {before : Option Char} {s : List Char} :
    (p.searchFrom before s).isSome = true ↔ ∃ lead rest, s = lead ++ rest ∧
      (p.run some ⟨lead.getLast?.or before, rest, []⟩).isSome = true := by
  induction s generalizing before with
  | nil => simp [searchFrom, and_assoc]
  | cons c s ih =>
    simp only [searchFrom]
    constructor
    · split
      · next place hplace => exact fun _ => ⟨[], c :: s, rfl, by simp [hplace]⟩
      · intro h
        obtain ⟨lead, rest, rfl, hrun⟩ := ih.1 h
        exact ⟨c :: lead, rest, rfl, by rwa [getLast?_cons_or]⟩
    · rintro ⟨lead, rest, hs, hrun⟩
      split
      · rfl
      · next hnone =>
        cases lead with
        | nil =>
          subst hs
          simp [hnone] at hrun
        | cons d lead =>
          cases hs
          exact ih.2 ⟨lead, rest, rfl, by rwa [getLast?_cons_or] at hrun⟩

end CodeRetrieval.Text.Pattern
