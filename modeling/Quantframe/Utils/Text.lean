import Quantframe.Lib.Utf8
import Quantframe.LogParser.Dialog

/-!
# Long texts

How texts are cut to a length and how a marker is put at a line and a column.
-/

namespace Quantframe.Utils

open Lib
open LogParser (Text stripSuffix)

/-- How a call panics on the texts it is given. What a disk does is left out: `dolog` unwraps the opening of its log
file. -/
inductive Panic where
  /-- A slice that ends inside a character or past the end of its text. -/
  | notCharBoundary (index : Nat)
  | outOfRange (index : Nat)
  deriving DecidableEq, Repr

/-- The call comes back, when the log file can be opened. -/
def Returns {α : Type} (r : Except Panic α) : Prop := ∃ a, r = .ok a

def showNat (n : Nat) : Text := (toString n).toList

/-- `&text[..index]`. -/
def strTo (text : Text) (index : Nat) : Except Panic Text :=
  (sliceTo text index).elim (.error (.notCharBoundary index)) .ok

/-- `str::lines`: neither the newline nor a carriage return before it belongs to the line. -/
def strLines (text : Text) : List Text :=
  (splitInclusive text).map fun line =>
    ((stripSuffix ['\n'] line).map fun line => (stripSuffix ['\r'] line).getD line).getD line
where
  splitInclusive : Text → List Text
    | [] => []
    | c :: text =>
      if c = '\n' then [c] :: splitInclusive text
      else
        match splitInclusive text with
        | [] => [[c]]
        | line :: rest => (c :: line) :: rest

/-- `lines.join("\n")`. -/
def joinLines : List Text → Text
  | [] => []
  | line :: rest => line ++ rest.flatMap ('\n' :: ·)

/-- Each character with the byte it starts at. -/
def charIndices : Nat → Text → List (Nat × Char)
  | _, [] => []
  | at_, c :: text => (at_, c) :: charIndices (at_ + c.utf8Size) text

/-- `String::insert_str`. -/
def insertStr (text : Text) (index : Nat) (more : Text) : Except Panic Text := do
  let front ← strTo text index
  return front ++ (more ++ text.drop front.length)

def truncateWithIndicator (text : Text) (maxLength : Nat) (truncationBuffer : Option Nat) :
    Except Panic (Text × Bool) := do
  let buffer := truncationBuffer.getD 50
  if byteLen text ≤ maxLength then return (text, false)
  else
    let front ← strTo text (maxLength - buffer)
    return (front ++ "... [TRUNCATED - ".toList ++ showNat (byteLen text) ++ " total chars]".toList, true)

def withLabel (label text : Text) : Text := " | ".toList ++ label ++ ": ".toList ++ text

/-- The labelled text for an output with a limit. -/
def textWithin (text : Text) (maxLength buffer : Nat) (label : Text) : Except Panic Text :=
  if maxLength < byteLen text then do
    let (truncated, _) ← truncateWithIndicator text maxLength (some buffer)
    return withLabel label truncated
  else return withLabel label text

/-- The text for the console and the text for the file. -/
def smartTextProcessing (text : Text) (consoleMaxLength : Nat) (fileMaxLength : Option Nat) (label : Text) :
    Except Panic (Option Text × Option Text) :=
  if text.isEmpty then return (none, none)
  else do
    let consoleText ← textWithin text consoleMaxLength 50 label
    let fileText ←
      (match fileMaxLength with
      | some fileMax => textWithin text fileMax 100 label
      | none => .ok (withLabel label text))
    return (some consoleText, some fileText)

/-- Lines and columns count from 1; a position outside the text inserts nothing. -/
def insertAt (content : Text) (line column : Nat) (text : Text) : Except Panic Text :=
  let lines := strLines content
  let lineIdx := line - 1
  let colIdx := column - 1
  match lines[lineIdx]? with
  | some targetLine =>
    if colIdx ≤ targetLine.length then do
      let bytePos := ((charIndices 0 targetLine)[colIdx]?.map Prod.fst).getD (byteLen targetLine)
      let targetLine ← insertStr targetLine bytePos text
      return joinLines (lines.set lineIdx targetLine)
    else return joinLines lines
  | none => return joinLines lines

/-! ### What a call that comes back did -/

section Returns

variable {α β : Type} {r : Except Panic α} {f : α → Except Panic β} {text : Text}

@[simp] theorem returns_ok (a : α) : Returns (.ok a : Except Panic α) := ⟨a, rfl⟩

@[simp] theorem returns_pure (a : α) : Returns (pure a : Except Panic α) := ⟨a, rfl⟩

theorem returns_bind : Returns (r >>= f) ↔ ∃ a, r = .ok a ∧ Returns (f a) := by
  cases r with
  | error panic =>
      constructor
      · rintro ⟨b, hb⟩
        cases hb
      · rintro ⟨a, ha, _⟩
        cases ha
  | ok a =>
      constructor
      · intro h
        exact ⟨a, rfl, h⟩
      · rintro ⟨a', ha, h⟩
        cases ha
        exact h

/-- Two calls, the second of which comes back or not whatever the first gave. -/
theorem returns_bind_iff {p : Prop} (hf : ∀ a, Returns (f a) ↔ p) : Returns (r >>= f) ↔ Returns r ∧ p := by
  rw [returns_bind]
  constructor
  · rintro ⟨a, ha, h⟩
    exact ⟨⟨a, ha⟩, (hf a).mp h⟩
  · rintro ⟨⟨a, ha⟩, hp⟩
    exact ⟨a, ha, (hf a).mpr hp⟩

theorem returns_bind_of (hf : ∀ a, Returns (f a)) : Returns (r >>= f) ↔ Returns r := by
  rw [returns_bind_iff fun a => iff_true_intro (hf a), and_true]

theorem returns_strTo {index : Nat} : Returns (strTo text index) ↔ Boundary text index := by
  rw [strTo, ← sliceTo_isSome_iff]
  cases sliceTo text index with
  | none =>
      constructor
      · rintro ⟨_, h⟩
        cases h
      · intro h
        cases h
  | some front => exact ⟨fun _ => rfl, fun _ => returns_ok front⟩

theorem returns_truncateWithIndicator {maxLength : Nat} {buffer : Option Nat} :
    Returns (truncateWithIndicator text maxLength buffer) ↔ MayCut maxLength (maxLength - buffer.getD 50) text := by
  rw [truncateWithIndicator, MayCut]
  split
  · next hshort =>
      constructor
      · intro _ hlong
        exact absurd hlong (by omega)
      · intro _
        exact returns_pure _
  · next hlong =>
      rw [returns_bind_of fun _ => returns_pure _, returns_strTo]
      constructor
      · intro h _
        exact h
      · intro h
        exact h (by omega)

theorem returns_textWithin {max buffer : Nat} {label : Text} :
    Returns (textWithin text max buffer label) ↔ MayCut max (max - buffer) text := by
  rw [textWithin]
  split
  · exact (returns_bind_of fun _ => returns_pure _).trans returns_truncateWithIndicator
  · next hshort =>
      exact ⟨fun _ hlong => absurd hlong hshort, fun _ => returns_pure _⟩

theorem returns_smartTextProcessing {consoleMax : Nat} {fileMax : Option Nat} {label : Text} :
    Returns (smartTextProcessing text consoleMax fileMax label) ↔
      MayCut consoleMax (consoleMax - 50) text ∧ ∀ max, fileMax = some max → MayCut max (max - 100) text := by
  by_cases hempty : text = []
  · have hnever (max cut : Nat) : MayCut max cut [] := fun h => absurd h (Nat.not_lt_zero _)
    rw [hempty]
    exact ⟨fun _ => ⟨hnever _ _, fun _ _ => hnever _ _⟩, fun _ => returns_pure _⟩
  · cases fileMax with
    | none =>
        rw [smartTextProcessing, if_neg fun h => hempty (List.isEmpty_iff.mp h),
          returns_bind_of fun _ => (returns_bind_of fun _ => returns_pure _).mpr (returns_ok _), returns_textWithin]
        exact ⟨fun h => ⟨h, fun max hmax => by cases hmax⟩, And.left⟩
    | some max =>
        rw [smartTextProcessing, if_neg fun h => hempty (List.isEmpty_iff.mp h),
          returns_bind_iff fun _ => returns_bind_of fun _ => returns_pure _, returns_textWithin, returns_textWithin]
        constructor
        · rintro ⟨hconsole, hfile⟩
          refine ⟨hconsole, fun max' hmax => ?_⟩
          cases hmax
          exact hfile
        · rintro ⟨hconsole, hfile⟩
          exact ⟨hconsole, hfile max rfl⟩

/-- What stands before a line and a column that the text has. -/
def textBefore (content : Text) (line column : Nat) : Option Text :=
  match (strLines content)[line - 1]? with
  | some target =>
    if column - 1 ≤ target.length then
      some (((strLines content).take (line - 1)).flatMap (· ++ ['\n']) ++ target.take (column - 1))
    else none
  | none => none

/-- The text with a newline, and nothing else, between its lines. -/
def unixLines (content : Text) : Text := joinLines (strLines content)

theorem joinLines_append (front : List Text) (line : Text) (back : List Text) :
    joinLines (front ++ line :: back) = front.flatMap (· ++ ['\n']) ++ (line ++ back.flatMap ('\n' :: ·)) := by
  induction front with
  | nil => rfl
  | cons first front ih =>
      rw [List.flatMap_cons, List.append_assoc, ← ih, List.cons_append, joinLines, List.append_assoc,
        List.append_cancel_left_eq]
      cases front with
      | nil => rfl
      | cons second front => rfl

theorem bytePos_eq (target : Text) (at_ k : Nat) :
    ((charIndices at_ target)[k]?.map Prod.fst).getD (at_ + byteLen target) = at_ + byteLen (target.take k) := by
  induction target generalizing at_ k with
  | nil => rw [List.take_nil, charIndices, List.getElem?_nil, Option.map_none, Option.getD_none]
  | cons c target ih =>
      cases k with
      | zero => rfl
      | succ k =>
          rw [charIndices, List.getElem?_cons_succ, List.take_succ_cons, byteLen, byteLen, ← Nat.add_assoc,
            ← Nat.add_assoc, ih]

theorem insertStr_append (front back more : Text) :
    insertStr (front ++ back) (byteLen front) more = .ok (front ++ (more ++ back)) := by
  rw [insertStr, strTo, sliceTo_append]
  exact congrArg (fun rest => Except.ok (front ++ (more ++ rest))) List.drop_left

theorem insertAt_of_none {content : Text} {line column : Nat} (h : textBefore content line column = none)
    (text : Text) : insertAt content line column text = .ok (unixLines content) := by
  rw [textBefore] at h
  split at h
  · next target htarget =>
      split at h
      · cases h
      · next hcolumn =>
          simp only [insertAt, htarget, if_neg hcolumn]
          rfl
  · next hnone =>
      simp only [insertAt, hnone]
      rfl

/-- The text is put where the position is, whatever characters stand around it. -/
theorem insertAt_of_some {content front : Text} {line column : Nat} (h : textBefore content line column = some front) :
    ∃ back, unixLines content = front ++ back ∧
      ∀ text, insertAt content line column text = .ok (front ++ (text ++ back)) := by
  rw [textBefore] at h
  split at h
  · next target htarget =>
      split at h
      · next hcolumn =>
          rw [Option.some.injEq] at h
          obtain ⟨hline, hget⟩ := List.getElem?_eq_some_iff.mp htarget
          have hsplit : strLines content =
              (strLines content).take (line - 1) ++ target :: (strLines content).drop (line - 1 + 1) := by
            rw [← hget, List.cons_getElem_drop_succ, List.take_append_drop]
          refine ⟨target.drop (column - 1) ++ ((strLines content).drop (line - 1 + 1)).flatMap ('\n' :: ·), ?_, ?_⟩
          · rw [unixLines, hsplit, joinLines_append, ← hsplit, ← h, List.append_assoc,
              ← List.append_assoc (target.take _), List.take_append_drop]
          · intro text
            have hpos := bytePos_eq target 0 (column - 1)
            rw [Nat.zero_add, Nat.zero_add] at hpos
            have hinsert := insertStr_append (target.take (column - 1)) (target.drop (column - 1)) text
            rw [List.take_append_drop] at hinsert
            have hset := List.set_eq_take_append_cons_drop (l := strLines content) (i := line - 1)
              (a := target.take (column - 1) ++ (text ++ target.drop (column - 1)))
            rw [if_pos hline] at hset
            simp only [insertAt, htarget, if_pos hcolumn, hpos, hinsert]
            show Except.ok (joinLines _) = _
            rw [hset, joinLines_append, ← h]
            simp only [List.append_assoc]
      · cases h
  · cases h

end Returns

end Quantframe.Utils
