import CodeRetrieval.Session
import Mathlib.Data.List.DropRight

/-!
A session holds the turns of its last exchanges. Turns go one at a time, so between the question and
the answer of a record the oldest exchange may be only half there; after every record whole
exchanges are left.
-/

set_option autoImplicit false

namespace CodeRetrieval

structure Exchange where
  question : String
  answer : String
  deriving DecidableEq, Repr

namespace Exchange

def turns (e : Exchange) : List Turn := [⟨.user, e.question⟩, ⟨.assistant, e.answer⟩]

theorem length_flatMap_turns (es : List Exchange) : (es.flatMap turns).length = 2 * es.length := by
  induction es with
  | nil => rfl
  | cons e es ih =>
    simp only [List.flatMap_cons, List.length_append, ih, List.length_cons, turns, List.length_nil]
    omega

theorem drop_flatMap_turns (es : List Exchange) (k : Nat) :
    (es.flatMap turns).drop (2 * k) = (es.drop k).flatMap turns := by
  induction k generalizing es with
  | zero => rfl
  | succ k ih =>
    cases es with
    | nil => simp
    | cons e es => simpa [turns, Nat.mul_succ] using ih es

theorem rtake_flatMap_turns (es : List Exchange) (n : Nat) :
    (es.flatMap turns).rtake (2 * n) = (es.rtake n).flatMap turns := by
  rw [List.rtake, List.rtake, length_flatMap_turns, ← Nat.mul_sub, drop_flatMap_turns]

def shown (e : Exchange) : List String :=
  ["User: " ++ firstChars e.question, "Assistant: " ++ firstChars e.answer]
where
  firstChars (text : String) : String :=
    String.ofList (text.toList.take 200) ++ if 200 < text.toList.length then "..." else ""

end Exchange

section Last

variable {α : Type} {xs ys : List α} {n : Nat}

theorem length_rtake_le : (xs.rtake n).length ≤ n := by
  rw [List.rtake, List.length_drop]
  omega

theorem rtake_rtake_append : (xs.rtake n ++ ys).rtake n = (xs ++ ys).rtake n := by
  have hfront : xs.rtake n ++ ys = (xs ++ ys).drop (xs.length - n) := by
    rw [List.rtake, List.drop_append_of_le_length (by omega)]
  rw [hfront, List.rtake, List.rtake, List.drop_drop, List.length_drop, List.length_append]
  congr 1
  omega

end Last

inductive SessionStep where
  | record (e : Exchange)
  | clear
  deriving DecidableEq, Repr

namespace SessionStep

def exchange? : SessionStep → Option Exchange
  | record e => some e
  | clear => none

def sinceClear (steps : List SessionStep) : List Exchange :=
  (steps.rtakeWhile (·.exchange?.isSome)).filterMap exchange?

@[simp] theorem sinceClear_nil : sinceClear [] = [] := rfl

@[simp] theorem sinceClear_concat_record (steps : List SessionStep) (e : Exchange) :
    sinceClear (steps ++ [record e]) = sinceClear steps ++ [e] := by
  rw [sinceClear, List.rtakeWhile_concat_pos _ _ _ rfl, List.filterMap_append]
  rfl

@[simp] theorem sinceClear_concat_clear (steps : List SessionStep) :
    sinceClear (steps ++ [clear]) = [] := by
  rw [sinceClear, List.rtakeWhile_concat_neg _ _ _ (by simp [exchange?])]
  rfl

end SessionStep

namespace Session

open SessionStep

variable {s : Session} {es : List Exchange}

def step (s : Session) : SessionStep → Session
  | .record e => s.record e.question e.answer
  | .clear => s.clear

def after (s : Session) (steps : List SessionStep) : Session := steps.foldl step s

theorem after_concat (s : Session) (steps : List SessionStep) (last : SessionStep) :
    s.after (steps ++ [last]) = (s.after steps).step last := by
  rw [after, List.foldl_concat]
  rfl

@[simp] theorem maxTurns_push (s : Session) (t : Turn) : (s.push t).maxTurns = s.maxTurns := by
  simp only [push]
  split <;> rfl

/-- At most the room that there is. -/
def Fits (s : Session) : Prop := s.turns.length ≤ 2 * s.maxTurns

theorem turns_push (h : s.Fits) (t : Turn) :
    (s.push t).turns = (s.turns ++ [t]).rtake (2 * s.maxTurns) := by
  unfold Fits at h
  unfold push
  by_cases hnone : 2 * s.maxTurns = 0
  · have hempty : s.turns = [] := List.length_eq_zero_iff.1 (by omega)
    simp [hnone, hempty, List.rtake]
  · rw [if_neg hnone, List.rtake, List.length_append, List.length_singleton,
      List.drop_append_of_le_length (by omega)]

theorem fits_push (h : s.Fits) (t : Turn) : (s.push t).Fits := by
  rw [Fits, turns_push h, maxTurns_push]
  exact length_rtake_le

/-- The last of some exchanges, as many as there is room for. -/
def Holds (s : Session) (es : List Exchange) : Prop :=
  s.turns = (es.rtake s.maxTurns).flatMap Exchange.turns

theorem Holds.fits (h : s.Holds es) : s.Fits := by
  rw [Fits, h, Exchange.length_flatMap_turns]
  exact Nat.mul_le_mul_left 2 length_rtake_le

theorem Holds.record (h : s.Holds es) (e : Exchange) :
    (s.record e.question e.answer).Holds (es ++ [e]) := by
  have hturns : (s.record e.question e.answer).turns =
      (s.turns ++ e.turns).rtake (2 * s.maxTurns) := by
    rw [Session.record, turns_push (fits_push h.fits _), turns_push h.fits, maxTurns_push,
      rtake_rtake_append, List.append_assoc]
    rfl
  rw [Holds, hturns, h, Session.record, maxTurns_push, maxTurns_push,
    ← Exchange.rtake_flatMap_turns, rtake_rtake_append, ← Exchange.rtake_flatMap_turns,
    List.flatMap_append, List.flatMap_singleton]

theorem holds_nil (h : s.turns = []) : s.Holds [] := by
  rw [Holds, h, List.rtake_nil, List.flatMap_nil]

theorem maxTurns_step (s : Session) (last : SessionStep) : (s.step last).maxTurns = s.maxTurns := by
  cases last with
  | record e => rw [step, Session.record, maxTurns_push, maxTurns_push]
  | clear => rfl

theorem holds_after (n : Nat) (steps : List SessionStep) :
    ((new n).after steps).maxTurns = n ∧ ((new n).after steps).Holds (sinceClear steps) := by
  induction steps using List.reverseRecOn with
  | nil => exact ⟨rfl, holds_nil rfl⟩
  | append_singleton steps last ih =>
    obtain ⟨hmax, hholds⟩ := ih
    rw [after_concat]
    refine ⟨(maxTurns_step _ _).trans hmax, ?_⟩
    cases last with
    | record e =>
      rw [sinceClear_concat_record]
      exact hholds.record e
    | clear =>
      rw [sinceClear_concat_clear]
      exact holds_nil rfl

theorem preview_eq (text : String) : preview text = Exchange.shown.firstChars text := by
  rw [preview, Exchange.shown.firstChars, shownChars, ← String.length_toList]
  by_cases hlong : text.toList.length ≤ 200
  · rw [if_pos hlong, if_neg (by omega), List.take_of_length_le hlong, String.ofList_toList,
      String.append_empty]
  · rw [if_neg hlong, if_pos (by omega)]
    rfl

theorem map_showTurn_turns (e : Exchange) : e.turns.map showTurn = e.shown := by
  simp [Exchange.turns, showTurn, preview_eq, Exchange.shown, Role.label]

theorem enhance_eq (h : s.turns = es.flatMap Exchange.turns) (question : String) :
    s.enhance question = if es.isEmpty then question else
      "Previous conversation:\n" ++ Text.join "\n" ((es.rtake 2).flatMap Exchange.shown) ++
        "\n\nCurrent question: " ++ question := by
  have hempty : s.turns.isEmpty = es.isEmpty := by
    rw [h]
    cases es <;> rfl
  have hlast : s.turns.drop (s.turns.length - shownTurns) =
      (es.rtake 2).flatMap Exchange.turns := by
    rw [h]
    exact Exchange.rtake_flatMap_turns es 2
  rw [enhance, hempty, hlast, List.map_flatMap]
  simp only [map_showTurn_turns]

theorem enhance_eq_iff (h : s.turns = es.flatMap Exchange.turns) (question : String) :
    s.enhance question = question ↔ es = [] := by
  rw [enhance_eq h]
  constructor
  · intro heq
    by_contra hne
    rw [if_neg (by simpa using hne)] at heq
    have hlength := congrArg String.length heq
    simp only [String.length_append] at hlength
    have hmore : 0 < "Previous conversation:\n".length := by decide
    omega
  · rintro rfl
    rfl

end Session

end CodeRetrieval
