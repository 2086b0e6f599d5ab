import Quantframe.LogParser.Dialog

/-!
# The scanner of EE.log

A chunk-safe state machine: the buffer holds the bytes that may still matter, and one turn of the
loop either consumes a complete marker or waits for more bytes.
-/

namespace Quantframe.LogParser

open Lib Trades

/-- Longest tail worth keeping while waiting for a marker: a dialog line plus slack. -/
def keepTail : Nat := 64 * 1024

structure Pending where
  eeTimestamp : String
  dialog : Text
  deriving DecidableEq, Repr

structure Scanner where
  buf : Bytes
  pending : Option Pending
  deriving DecidableEq, Repr

def find (haystack : Bytes) (m : Marker) (from_ : Nat) : Option Nat :=
  if from_ > haystack.length then none
  else (search m.bytes (haystack.drop from_)).map (· + from_)

/-- Start of the line that contains a position. -/
def lineStart (buf : Bytes) (at_ : Nat) : Nat := lastLineStart newline (buf.take at_)

/-- The first word of a line. -/
def timestampOf (line : Bytes) : String :=
  let words := (splitBy isWhitespace (fromUtf8Lossy line)).filter (· ≠ [])
  String.ofList (words.head?.getD [])

inductive Kind where
  | success
  | discard
  | restart
  deriving DecidableEq, Repr

/-- What ends the wait for a result. -/
def results : List (Marker × Kind) :=
  [(.success, .success), (.failed, .discard), (.cancelled, .discard), (.acceptFailed, .discard),
    (.start, .restart)]

structure Candidate where
  pos : Nat
  marker : Marker
  kind : Kind
  deriving DecidableEq, Repr

def candidates (buf : Bytes) : List Candidate :=
  results.filterMap fun (m, kind) => (find buf m 0).map fun pos => ⟨pos, m, kind⟩

/-- `min_by_key` on the position: of equals the first. -/
def earliest : List Candidate → Option Candidate
  | [] => none
  | c :: cs =>
    match earliest cs with
    | some best => if best.pos < c.pos then some best else some c
    | none => some c

namespace Scanner

def new : Scanner := ⟨[], none⟩

/-- Forgets everything, e.g. after EE.log was truncated. -/
def reset (_ : Scanner) : Scanner := new

/-- Keeps the current (possibly partial) last line so a marker split across chunks is still
found. -/
def keepTailFromLineStart (s : Scanner) : Scanner :=
  let keep := min (lineStart s.buf s.buf.length) s.buf.length
  let keep := if s.buf.length - keep > keepTail then s.buf.length - keepTail else keep
  { s with buf := s.buf.drop keep }

inductive Turn where
  | wait (s : Scanner)
  | next (events : List TradeEvent) (s : Scanner)

variable (sha256 : Bytes → Bytes)

def Pending.event (p : Pending) : TradeEvent :=
  ⟨eventId sha256 p.eeTimestamp p.dialog, parseDialog p.eeTimestamp p.dialog⟩

/-- One turn of the loop of `feed`. -/
def turn (s : Scanner) : Turn :=
  match s.pending with
  | none =>
    match find s.buf .start 0 with
    | none => .wait s.keepTailFromLineStart
    | some start =>
      let dialogFrom := start + Marker.start.bytes.length
      match find s.buf .end dialogFrom with
      | none => .wait { s with buf := s.buf.drop (lineStart s.buf start) }
      | some end_ =>
        let eeTimestamp := timestampOf ((s.buf.take start).drop (lineStart s.buf start))
        let dialog := fromUtf8Lossy ((s.buf.take end_).drop dialogFrom)
        .next [] ⟨s.buf.drop (end_ + Marker.end.bytes.length), some ⟨eeTimestamp, dialog⟩⟩
  | some pending =>
    match earliest (candidates s.buf) with
    | none => .wait s.keepTailFromLineStart
    | some c =>
      match c.kind with
      | .success =>
        .next [Pending.event sha256 pending] ⟨s.buf.drop (c.pos + c.marker.bytes.length), none⟩
      | .discard => .next [] ⟨s.buf.drop (c.pos + c.marker.bytes.length), none⟩
      | .restart => .next [] ⟨s.buf, none⟩

/-- A bound on the turns that are left. -/
def weight (s : Scanner) : Nat := 2 * s.buf.length + if s.pending.isSome then 1 else 0

def loop : Nat → Scanner → List TradeEvent × Scanner
  | 0, s => ([], s)
  | fuel + 1, s =>
    match turn sha256 s with
    | .wait s' => ([], s')
    | .next events s' =>
      let (rest, final) := loop fuel s'
      (events ++ rest, final)

def feed (s : Scanner) (chunk : Bytes) : List TradeEvent × Scanner :=
  let s := { s with buf := s.buf ++ chunk }
  loop sha256 (s.weight + 1) s

/-- The chunks in order, and the events they returned one after the other. -/
def feedAll (s : Scanner) : List Bytes → List TradeEvent × Scanner
  | [] => ([], s)
  | chunk :: chunks =>
    let (events, s') := feed sha256 s chunk
    let (rest, final) := feedAll s' chunks
    (events ++ rest, final)

end Scanner

/-- Scans a whole file. -/
def scanAll (sha256 : Bytes → Bytes) (bytes : Bytes) : List TradeEvent :=
  (Scanner.new.feed sha256 bytes).1

/-! ### Markers -/

theorem newline_not_mem (m : Marker) : newline ∉ m.bytes := by
  cases m <;> decide +kernel

theorem bytes_ne_nil (m : Marker) : m.bytes ≠ [] := by
  cases m <;> decide +kernel

theorem bytes_pos (m : Marker) : 0 < m.bytes.length := List.length_pos_iff.mpr (bytes_ne_nil m)

/-- No marker occurs in another. -/
theorem marker_of_inside {m m' : Marker} (h : m.bytes <:+: m'.bytes) : m = m' := by
  revert h
  cases m <;> cases m' <;> decide +kernel

theorem find_zero (buf : Bytes) (m : Marker) : find buf m 0 = search m.bytes buf := by
  rw [find, if_neg (Nat.not_lt_zero _), List.drop_zero]
  exact Option.map_id'

theorem find_bound {buf : Bytes} {m : Marker} {from_ i : Nat} (h : find buf m from_ = some i) :
    from_ ≤ i ∧ i + m.bytes.length ≤ buf.length := by
  rw [find] at h
  split at h
  · cases h
  · next hfrom =>
      obtain ⟨j, hj, rfl⟩ := Option.map_eq_some_iff.mp h
      have hbound := search_bound (bytes_ne_nil m) hj
      rw [List.length_drop] at hbound
      omega

theorem find_append {buf : Bytes} {m : Marker} {from_ i : Nat} (h : find buf m from_ = some i)
    (more : Bytes) : find (buf ++ more) m from_ = some i := by
  have hbound := find_bound h
  rw [find, if_neg (by rw [List.length_append]; omega),
    List.drop_append_of_le_length (by omega)]
  rw [find, if_neg (by omega)] at h
  obtain ⟨j, hj, rfl⟩ := Option.map_eq_some_iff.mp h
  rw [search_append (bytes_ne_nil m) hj, Option.map_some]

/-- A search that starts behind the front does not see it. -/
theorem find_shift_from (front buf : Bytes) (m : Marker) (from_ : Nat) :
    find (front ++ buf) m (front.length + from_) = (find buf m from_).map (front.length + ·) := by
  rw [find, find, List.length_append]
  by_cases hfrom : from_ > buf.length
  · rw [if_pos hfrom, if_pos (by omega), Option.map_none]
  · rw [if_neg hfrom, if_neg (by omega), drop_append_ge (Nat.le_add_right _ _),
      Nat.add_sub_cancel_left, Option.map_map]
    congr 1
    funext j
    simp only [Function.comp_apply]
    omega

theorem find_shift {front : Bytes} (buf : Bytes) {m : Marker} (hclosed : Closed newline front)
    (habsent : ¬ m.bytes <:+: front) :
    find (front ++ buf) m 0 = (find buf m 0).map (front.length + ·) := by
  rw [find_zero, find_zero, search_shift (newline_not_mem m) hclosed habsent]

theorem lineStart_append {buf more : Bytes} {at_ : Nat} (h : at_ ≤ buf.length) :
    lineStart (buf ++ more) at_ = lineStart buf at_ := by
  rw [lineStart, List.take_append_of_le_length h, lineStart]

theorem lineStart_shift {front buf : Bytes} (hclosed : Closed newline front) (at_ : Nat) :
    lineStart (front ++ buf) (front.length + at_) = front.length + lineStart buf at_ := by
  rw [lineStart, List.take_length_add_append, lastLineStart_shift hclosed, lineStart]

/-! ### The earliest result -/

/-- A result occurs at a position and none begins before it. -/
structure First (buf : Bytes) (c : Candidate) : Prop where
  listed : (c.marker, c.kind) ∈ results
  occurs : c.marker.bytes <+: buf.drop c.pos
  fits : c.pos + c.marker.bytes.length ≤ buf.length
  before : ∀ r ∈ results, ∀ j < c.pos, ¬ r.1.bytes <+: buf.drop j

theorem earliest_none {cs : List Candidate} : earliest cs = none ↔ cs = [] := by
  cases cs with
  | nil => exact ⟨fun _ => rfl, fun _ => rfl⟩
  | cons c cs =>
      rw [earliest]
      constructor
      · intro h
        split at h
        · split at h <;> cases h
        · cases h
      · nofun

theorem earliest_some {cs : List Candidate} {c : Candidate} (h : earliest cs = some c) :
    c ∈ cs ∧ ∀ c' ∈ cs, c.pos ≤ c'.pos := by
  induction cs generalizing c with
  | nil => cases h
  | cons d cs ih =>
      rw [earliest] at h
      split at h
      · next best hbest =>
          obtain ⟨hmem, hmin⟩ := ih hbest
          split at h
          · next hlt =>
              cases h
              refine ⟨List.mem_cons_of_mem _ hmem, ?_⟩
              intro c' hc'
              rcases List.mem_cons.mp hc' with rfl | hc'
              · exact Nat.le_of_lt hlt
              · exact hmin c' hc'
          · next hge =>
              cases h
              refine ⟨List.mem_cons_self, ?_⟩
              intro c' hc'
              rcases List.mem_cons.mp hc' with rfl | hc'
              · exact Nat.le_refl _
              · exact Nat.le_trans (Nat.le_of_not_lt hge) (hmin c' hc')
      · next hnone =>
          cases h
          rw [earliest_none] at hnone
          subst hnone
          refine ⟨List.mem_cons_self, ?_⟩
          intro c' hc'
          rcases List.mem_cons.mp hc' with rfl | hc'
          · exact Nat.le_refl _
          · exact absurd hc' List.not_mem_nil

theorem mem_candidates {buf : Bytes} {c : Candidate} :
    c ∈ candidates buf ↔ (c.marker, c.kind) ∈ results ∧ find buf c.marker 0 = some c.pos := by
  simp only [candidates, List.mem_filterMap, Option.map_eq_some_iff]
  constructor
  · rintro ⟨⟨m, kind⟩, hr, pos, hpos, rfl⟩
    exact ⟨hr, hpos⟩
  · rintro ⟨hr, hpos⟩
    exact ⟨(c.marker, c.kind), hr, c.pos, hpos, rfl⟩

theorem no_result {buf : Bytes} (h : earliest (candidates buf) = none) :
    ∀ r ∈ results, ¬ r.1.bytes <:+: buf := by
  rw [earliest_none] at h
  intro r hr
  rw [← search_none, ← find_zero]
  cases hfound : find buf r.1 0 with
  | none => rfl
  | some pos =>
      have hmem : (⟨pos, r.1, r.2⟩ : Candidate) ∈ candidates buf := mem_candidates.mpr ⟨hr, hfound⟩
      rw [h] at hmem
      exact absurd hmem List.not_mem_nil

theorem first_of_earliest {buf : Bytes} {c : Candidate} (h : earliest (candidates buf) = some c) :
    First buf c := by
  obtain ⟨hmem, hmin⟩ := earliest_some h
  obtain ⟨hlisted, hfound⟩ := mem_candidates.mp hmem
  refine ⟨hlisted, ?_, (find_bound hfound).2, ?_⟩
  · rw [find_zero] at hfound
    exact search_occurs hfound
  · intro r hr j hj hoccurs
    cases hr' : find buf r.1 0 with
    | none =>
        rw [find_zero, search_none] at hr'
        exact hr' (hoccurs.isInfix.trans (List.drop_suffix j buf).isInfix)
    | some pos =>
        have hle := hmin ⟨pos, r.1, r.2⟩ (mem_candidates.mpr ⟨hr, hr'⟩)
        rw [find_zero] at hr'
        exact search_first hr' (Nat.lt_of_lt_of_le hj hle) hoccurs

/-- The earliest result is the only one there: no marker is the beginning of another. -/
theorem First.unique {buf : Bytes} {c c' : Candidate} (h : First buf c) (h' : First buf c') :
    c = c' := by
  have hpos : c.pos = c'.pos := by
    rcases Nat.lt_trichotomy c.pos c'.pos with hlt | heq | hgt
    · exact absurd h.occurs (h'.before _ h.listed _ hlt)
    · exact heq
    · exact absurd h'.occurs (h.before _ h'.listed _ hgt)
  have hmarker : c.marker = c'.marker := by
    have hleft := h.occurs
    rw [hpos] at hleft
    rcases List.prefix_or_prefix_of_prefix hleft h'.occurs with hpre | hpre
    · exact marker_of_inside hpre.isInfix
    · exact (marker_of_inside hpre.isInfix).symm
  have hkind : ∀ r ∈ results, ∀ r' ∈ results, r.1 = r'.1 → r.2 = r'.2 := by decide
  obtain ⟨pos, marker, kind⟩ := c
  obtain ⟨pos', marker', kind'⟩ := c'
  cases hpos
  cases hmarker
  cases hkind _ h.listed _ h'.listed rfl
  rfl

theorem earliest_of_first {buf : Bytes} {c : Candidate} (h : First buf c) :
    earliest (candidates buf) = some c := by
  cases hfound : earliest (candidates buf) with
  | none =>
      have hword := h.occurs.isInfix.trans (List.drop_suffix _ _).isInfix
      exact absurd hword (no_result hfound _ h.listed)
  | some c' => rw [(first_of_earliest hfound).unique h]

theorem First.append {buf : Bytes} {c : Candidate} (h : First buf c) (more : Bytes) :
    First (buf ++ more) c := by
  refine ⟨h.listed, (prefix_append_of_fits h.fits).mpr h.occurs, ?_, ?_⟩
  · have := h.fits
    rw [List.length_append]
    omega
  · intro r hr j hj hoccurs
    by_cases hfits : j + r.1.bytes.length ≤ buf.length
    · exact h.before r hr j hj ((prefix_append_of_fits hfits).mp hoccurs)
    · -- it would reach over the whole of the earliest result
      have hfitsc := h.fits
      have hinside : c.marker.bytes <:+: r.1.bytes := by
        have hshift : c.marker.bytes <+: (buf ++ more).drop (j + (c.pos - j)) := by
          rw [show j + (c.pos - j) = c.pos by omega]
          exact (prefix_append_of_fits h.fits).mpr h.occurs
        rw [← List.drop_drop] at hshift
        obtain ⟨rest, hrest⟩ := hoccurs
        rw [← hrest, prefix_append_of_fits (by omega)] at hshift
        exact hshift.isInfix.trans (List.drop_suffix _ _).isInfix
      have hsame := marker_of_inside hinside
      rw [hsame] at hfitsc
      omega

theorem First.shift {front buf : Bytes} {c : Candidate} (hclosed : Closed newline front)
    (habsent : ∀ r ∈ results, ¬ r.1.bytes <:+: front) (h : First buf c) :
    First (front ++ buf) { c with pos := front.length + c.pos } := by
  refine ⟨h.listed, ?_, ?_, ?_⟩
  · rw [drop_append_ge (Nat.le_add_right _ _), Nat.add_sub_cancel_left]
    exact h.occurs
  · have := h.fits
    rw [List.length_append]
    change front.length + c.pos + c.marker.bytes.length ≤ _
    omega
  · intro r hr j hj
    rcases Nat.lt_or_ge j front.length with hlt | hge
    · exact prefix_drop_closed (newline_not_mem _) hclosed (habsent r hr) hlt
    · rw [drop_append_ge hge]
      exact h.before r hr _ (by change j < front.length + c.pos at hj; omega)

end Quantframe.LogParser
