import Mathlib.Data.List.Induction
import Quantframe.Helper.Request
import Quantframe.Lib.Lines
import Quantframe.LogParser.Dialog

/-!
# The queue file

Append-only JSONL, replayed oldest first. The file is a sequence of bytes that is read as UTF-8; an
append may stop after any number of its bytes.
-/

namespace Quantframe.Helper

open Lib LogParser

/-- `serde_json` for the lines of the queue. -/
structure Json where
  toText : QueuedEvent → Text
  fromText : Text → Option QueuedEvent

/-- What a serializer that keeps to one line of JSON does with an event. -/
structure Json.RoundTrips (json : Json) (event : QueuedEvent) : Prop where
  back : json.fromText (json.toText event) = some event
  noNewline : '\n' ∉ json.toText event
  noReturn : '\r' ∉ json.toText event
  notBlank : trim (json.toText event) ≠ []

def utf8 (text : Text) : Bytes := text.flatMap String.utf8EncodeChar

/-- Strict decoding. -/
def fromUtf8 (bytes : Bytes) : Option Text :=
  (String.fromUTF8? bytes.toByteArray).map String.toList

/-- `none` when the file does not exist. -/
abbrev File := Option Bytes

def read (file : File) : Bytes := file.getD []

structure Queue where
  path : String
  json : Json

/-- How far an append gets: not at all, up to some bytes, or to the disk. -/
inductive Append where
  | refused
  | torn (written : Nat)
  | synced
  deriving DecidableEq, Repr

/-- A carriage return before the newline belongs to neither. -/
def stripReturn (line : Text) : Text := if line.getLast? = some '\r' then line.dropLast else line

/-- `str::lines`; a last line without its newline is left as it is. -/
def textLines (text : Text) : List Text :=
  let ls := lines '\n' text
  if text.getLast? = some '\n' then ls.map stripReturn else ls.dropLast.map stripReturn ++ ls.getLast?.toList

def notBlank (line : Text) : Bool := trim line ≠ []

namespace Queue

variable (q : Queue)

def lines (file : File) : Except String (List Text) :=
  match file with
  | none => .ok []
  | some bytes =>
    match fromUtf8 bytes with
    | some text => .ok ((textLines text).filter notBlank)
    | none => .error ("cannot read " ++ q.path ++ ": stream did not contain valid UTF-8")

def record (event : QueuedEvent) : Bytes := utf8 (q.json.toText event ++ ['\n'])

def push (file : File) (event : QueuedEvent) (append : Append) : Except String Unit × File :=
  match append with
  | .refused => (.error ("cannot open " ++ q.path), file)
  | .torn written => (.error ("cannot write " ++ q.path), some (read file ++ (q.record event).take written))
  | .synced => (.ok (), some (read file ++ q.record event))

def join : List Text → Text
  | [] => []
  | [line] => line
  | line :: ls => line ++ '\n' :: join ls

def joinLines (ls : List Text) : Text :=
  let text := join ls
  if text ≠ [] then text ++ ['\n'] else text

/-- Replaced atomically: the file is the old one or the new one. -/
def pop (file : File) : Except String Unit × File :=
  match q.lines file with
  | .error e => (.error e, file)
  | .ok [] => (.ok (), file)
  | .ok (_ :: rest) => (.ok (), some (utf8 (joinLines rest)))

def peekLoop : Nat → File → Except String (Option QueuedEvent) × File
  | 0, file => (.ok none, file)
  | fuel + 1, file =>
    match q.lines file with
    | .error e => (.error e, file)
    | .ok [] => (.ok none, file)
    | .ok (first :: _) =>
      match q.json.fromText first with
      | some event => (.ok (some event), file)
      | none =>
        match q.pop file with
        | (.error e, file') => (.error e, file')
        | (.ok (), file') => peekLoop fuel file'

/-- Every turn but the last drops a line. -/
def peekFuel (file : File) : Nat := ((q.lines file).toOption.getD []).length + 1

/-- The oldest event. A corrupt line is dropped so the queue can't wedge. -/
def peek (file : File) : Except String (Option QueuedEvent) × File :=
  q.peekLoop (q.peekFuel file) file

/-- Appends everything still pending, oldest first, keeping whatever could not be written. -/
def persist (file : File) : List (QueuedEvent × Append) → List QueuedEvent × File
  | [] => ([], file)
  | (event, append) :: pending =>
    match q.push file event append with
    | (.ok (), file') => persist file' pending
    | (.error _, file') =>
      let (kept, file'') := persist file' pending
      (event :: kept, file'')

end Queue

/-! ### Texts and their bytes -/

theorem utf8_append (a b : Text) : utf8 (a ++ b) = utf8 a ++ utf8 b := List.flatMap_append

theorem fromUtf8_utf8 (text : Text) : fromUtf8 (utf8 text) = some text := by
  have hbytes : (utf8 text).toByteArray = (String.ofList text).toByteArray := rfl
  rw [fromUtf8, hbytes, String.fromUTF8?, dif_pos (String.ofList text).isValidUTF8, Option.map_some]
  exact congrArg some String.toList_ofList

theorem utf8_of_fromUtf8 {bytes : Bytes} {text : Text} (h : fromUtf8 bytes = some text) :
    bytes = utf8 text := by
  obtain ⟨s, hs, rfl⟩ := Option.map_eq_some_iff.mp h
  rw [String.fromUTF8?] at hs
  split at hs
  · next hvalid =>
      obtain ⟨text', htext'⟩ := hvalid
      have hbytes : bytes = utf8 text' := List.toByteArray_inj.mp htext'
      rw [hbytes, fromUtf8_utf8] at h
      cases h
      exact hbytes
  · cases hs

/-- Only an ASCII character has an ASCII byte. -/
theorem val_of_ascii_mem {b : UInt8} {c : Char} (hb : b.toNat < 128)
    (h : b ∈ String.utf8EncodeChar c) : c.val.toNat = b.toNat := by
  have hbyte : ∀ n, b = UInt8.ofNat n ↔ b.toNat = n % 256 := by
    intro n
    rw [← UInt8.toNat_inj, UInt8.toNat_ofNat']
  simp only [String.utf8EncodeChar] at h
  split at h
  · simp only [List.mem_singleton, hbyte] at h
    omega
  · split at h
    · simp only [List.mem_cons, List.not_mem_nil, or_false, hbyte] at h
      omega
    · split at h
      · simp only [List.mem_cons, List.not_mem_nil, or_false, hbyte] at h
        omega
      · simp only [List.mem_cons, List.not_mem_nil, or_false, hbyte] at h
        omega

theorem mem_utf8 {a : Char} {b : UInt8} {text : Text} (hb : b.toNat < 128)
    (ha : a.val.toNat = b.toNat) : b ∈ utf8 text ↔ a ∈ text := by
  rw [utf8, List.mem_flatMap]
  constructor
  · rintro ⟨c, hc, hbyte⟩
    have hsame : c = a := Char.toNat_inj.mp ((val_of_ascii_mem hb hbyte).trans ha.symm)
    exact hsame ▸ hc
  · intro hmem
    refine ⟨a, hmem, ?_⟩
    have hsmall : b.toNat ≤ 127 := by omega
    simp only [String.utf8EncodeChar, ha, if_pos hsmall, UInt8.ofNat_toNat, List.mem_singleton]

theorem newline_mem_utf8 {text : Text} : newline ∈ utf8 text ↔ '\n' ∈ text :=
  mem_utf8 (by decide) rfl

theorem return_mem_utf8 {text : Text} : (13 : UInt8) ∈ utf8 text ↔ '\r' ∈ text :=
  mem_utf8 (by decide) rfl

theorem utf8_injective {a b : Text} (h : utf8 a = utf8 b) : a = b := by
  have hback := fromUtf8_utf8 a
  rw [h, fromUtf8_utf8] at hback
  exact (Option.some.inj hback).symm

/-- A file that ends with a newline byte ends with a newline. -/
theorem closed_of_utf8 {text : Text} (h : Closed newline (utf8 text)) : Closed '\n' text := by
  induction text using List.reverseRecOn with
  | nil => exact .nil _
  | append_singleton body c _ =>
      rw [utf8_append] at h
      rcases h with hnil | ⟨front, hfront⟩
      · have hbytes := (List.append_eq_nil_iff.mp hnil).2
        have hc : c ∈ ([c] : Text) := List.mem_singleton_self c
        have hempty : utf8 [c] = utf8 [] := hbytes
        rw [utf8_injective hempty] at hc
        exact absurd hc List.not_mem_nil
      · have hlast : newline ∈ utf8 [c] := by
          rcases List.eq_nil_or_concat (utf8 [c]) with hempty | ⟨init, b, hinit⟩
          · have hnil : utf8 [c] = utf8 [] := hempty
            exact absurd (utf8_injective hnil) (List.cons_ne_nil _ _)
          · rw [hinit, List.concat_eq_append, ← List.append_assoc] at hfront
            rw [hinit, List.concat_eq_append, (List.append_inj' hfront rfl).2]
            exact List.mem_append_right _ (List.mem_singleton_self _)
        rw [← List.mem_singleton.mp (newline_mem_utf8.mp hlast)]
        exact .snoc _ _

/-! ### The lines of the file -/

theorem textLines_closed {front : Text} (hclosed : Closed '\n' front) :
    textLines front = (Lib.lines '\n' front).map stripReturn := by
  rw [textLines]
  rcases hclosed with rfl | ⟨body, rfl⟩
  · rfl
  · rw [if_pos List.getLast?_concat]

theorem textLines_append {front : Text} (hclosed : Closed '\n' front) (text : Text) :
    textLines (front ++ text) = textLines front ++ textLines text := by
  by_cases hempty : text = []
  · rw [hempty, List.append_nil]
    exact (List.append_nil _).symm
  · have hlines : Lib.lines '\n' text ≠ [] := lines_ne_nil hempty
    rw [textLines_closed hclosed, textLines, textLines, lines_append hclosed,
      List.getLast?_append_of_ne_nil _ hempty]
    split
    · rw [List.map_append]
    · rw [List.dropLast_append_of_ne_nil hlines, List.getLast?_append_of_ne_nil _ hlines, List.map_append,
        List.append_assoc]

theorem textLines_of_no_return {text : Text} (h : '\r' ∉ text) :
    textLines text = Lib.lines '\n' text := by
  have hsame : ∀ line ∈ Lib.lines '\n' text, stripReturn line = id line := by
    intro line hline
    rw [stripReturn, if_neg, id]
    intro hlast
    exact h (mem_of_mem_lines hline (List.mem_of_getLast? hlast)).1
  rw [textLines]
  split
  · rw [List.map_congr_left hsame, List.map_id]
  · rw [List.map_congr_left fun line hline => hsame line (List.mem_of_mem_dropLast hline), List.map_id,
      List.dropLast_eq_take, List.take_append_getLast?]

def kept (text : Text) : List Text := (textLines text).filter notBlank

theorem kept_append {front : Text} (hclosed : Closed '\n' front) (text : Text) :
    kept (front ++ text) = kept front ++ kept text := by
  rw [kept, textLines_append hclosed, List.filter_append, kept, kept]

/-- A line as the queue writes it. -/
structure Clean (line : Text) : Prop where
  noNewline : '\n' ∉ line
  noReturn : '\r' ∉ line
  notBlank : notBlank line = true

theorem clean_of_mem_kept {text line : Text} (h : '\r' ∉ text) (hline : line ∈ kept text) :
    Clean line := by
  rw [kept, textLines_of_no_return h, List.mem_filter] at hline
  refine ⟨?_, ?_, hline.2⟩
  · exact fun hmem => (mem_of_mem_lines hline.1 hmem).2 rfl
  · exact fun hmem => h (mem_of_mem_lines hline.1 hmem).1

theorem kept_line {line : Text} (h : Clean line) : kept (line ++ ['\n']) = [line] := by
  have hreturn : '\r' ∉ line ++ ['\n'] := by
    rw [List.mem_append, List.mem_singleton, not_or]
    exact ⟨h.noReturn, by decide⟩
  rw [kept, textLines_of_no_return hreturn, lines_cons_line h.noNewline, Lib.lines,
    List.filter_cons_of_pos h.notBlank, List.filter_nil]

theorem Clean.ne_nil {line : Text} (h : Clean line) : line ≠ [] := by
  intro hnil
  have := h.notBlank
  rw [hnil] at this
  exact absurd this (by decide)

theorem joinLines_eq {ls : List Text} (hls : ∀ line ∈ ls, Clean line) :
    Queue.joinLines ls = unlines '\n' ls := by
  have hjoin : ∀ (line : Text) (ls : List Text),
      Queue.join (line :: ls) ++ ['\n'] = unlines '\n' (line :: ls) := by
    intro line ls
    induction ls generalizing line with
    | nil => simp [Queue.join, unlines]
    | cons next ls ih =>
        rw [Queue.join, unlines, List.flatMap_cons, ← unlines, ← ih next]
        · simp
        · exact fun h => by cases h
  cases ls with
  | nil => rfl
  | cons line ls =>
      have hne : Queue.join (line :: ls) ≠ [] := by
        have hline := (hls line List.mem_cons_self).ne_nil
        cases ls with
        | nil => exact hline
        | cons next ls =>
            rw [Queue.join]
            · exact fun h => hline (List.append_eq_nil_iff.mp h).1
            · exact fun h => by cases h
      rw [Queue.joinLines]
      simp only [hne, ne_eq, not_false_eq_true, if_true]
      exact hjoin line ls

theorem closed_joinLines {ls : List Text} (hls : ∀ line ∈ ls, Clean line) :
    Closed '\n' (Queue.joinLines ls) := by
  rw [joinLines_eq hls]
  induction ls using List.reverseRecOn with
  | nil => exact .nil _
  | append_singleton ls line _ =>
      rw [unlines, List.flatMap_append, List.flatMap_singleton, ← List.append_assoc]
      exact .snoc _ _

theorem noReturn_joinLines {ls : List Text} (hls : ∀ line ∈ ls, Clean line) :
    '\r' ∉ Queue.joinLines ls := by
  rw [joinLines_eq hls, unlines, List.mem_flatMap]
  rintro ⟨line, hline, hmem⟩
  rw [List.mem_append, List.mem_singleton] at hmem
  exact hmem.elim (hls line hline).noReturn (by decide)

theorem kept_joinLines {ls : List Text} (hls : ∀ line ∈ ls, Clean line) :
    kept (Queue.joinLines ls) = ls := by
  rw [kept, textLines_of_no_return (noReturn_joinLines hls), joinLines_eq hls,
    lines_unlines fun line hline => (hls line hline).noNewline, List.filter_eq_self]
  exact fun line hline => (hls line hline).notBlank

end Quantframe.Helper
