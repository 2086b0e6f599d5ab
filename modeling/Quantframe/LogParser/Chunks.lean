import Quantframe.LogParser.Scanner

/-!
# Feeding in any chunks

A turn that consumes a marker takes the same marker when more bytes follow, and what a waiting
scanner throws away are whole lines without the markers it waits for. So a scanner that has thrown
them away does with the bytes to come what one that still has them would do.
-/

namespace Quantframe.LogParser.Scanner

open Lib Trades

variable {sha256 : Bytes → Bytes}

/-- The turns that consume something. -/
inductive Turns (sha256 : Bytes → Bytes) : Scanner → List TradeEvent → Scanner → Prop
  | done (s : Scanner) : Turns sha256 s [] s
  | next {s s' t : Scanner} {events rest : List TradeEvent} :
      turn sha256 s = .next events s' → Turns sha256 s' rest t → Turns sha256 s (events ++ rest) t

/-- The loop of `feed`: turns, and then the wait it breaks off in. -/
inductive Runs (sha256 : Bytes → Bytes) : Scanner → List TradeEvent → Scanner → Prop
  | wait {s s' : Scanner} : turn sha256 s = .wait s' → Runs sha256 s [] s'
  | next {s s' t : Scanner} {events rest : List TradeEvent} :
      turn sha256 s = .next events s' → Runs sha256 s' rest t → Runs sha256 s (events ++ rest) t

theorem Runs.unique {s t t' : Scanner} {events events' : List TradeEvent}
    (h : Runs sha256 s events t) (h' : Runs sha256 s events' t') : events = events' ∧ t = t' := by
  induction h generalizing events' t' with
  | wait hwait =>
      cases h' with
      | wait hwait' =>
          rw [hwait] at hwait'
          cases hwait'
          exact ⟨rfl, rfl⟩
      | next hnext _ =>
          rw [hwait] at hnext
          cases hnext
  | next hnext _ ih =>
      cases h' with
      | wait hwait =>
          rw [hnext] at hwait
          cases hwait
      | next hnext' hrest =>
          rw [hnext] at hnext'
          cases hnext'
          obtain ⟨rfl, rfl⟩ := ih hrest
          exact ⟨rfl, rfl⟩

theorem Runs.split {s t : Scanner} {events : List TradeEvent} (h : Runs sha256 s events t) :
    ∃ v, Turns sha256 s events v ∧ turn sha256 v = .wait t := by
  induction h with
  | wait hwait => exact ⟨_, .done _, hwait⟩
  | next hnext _ ih =>
      obtain ⟨v, hturns, hwait⟩ := ih
      exact ⟨v, .next hnext hturns, hwait⟩

theorem Turns.runs {s v t : Scanner} {events rest : List TradeEvent}
    (h : Turns sha256 s events v) (hrest : Runs sha256 v rest t) :
    Runs sha256 s (events ++ rest) t := by
  induction h with
  | done s => exact hrest
  | next hnext _ ih =>
      rw [List.append_assoc]
      exact .next hnext (ih hrest)

/-! ### What one turn does -/

/-- The ways a turn can consume something. -/
inductive Consumes (sha256 : Bytes → Bytes) : Scanner → List TradeEvent → Scanner → Prop
  | dialog {buf : Bytes} {start end_ : Nat} (hstart : find buf .start 0 = some start)
      (hend : find buf .end (start + Marker.start.bytes.length) = some end_) :
      Consumes sha256 ⟨buf, none⟩ []
        ⟨buf.drop (end_ + Marker.end.bytes.length),
          some ⟨timestampOf ((buf.take start).drop (lineStart buf start)),
            fromUtf8Lossy ((buf.take end_).drop (start + Marker.start.bytes.length))⟩⟩
  | success {buf : Bytes} {pending : Pending} {c : Candidate} (hfirst : First buf c)
      (hkind : c.kind = .success) :
      Consumes sha256 ⟨buf, some pending⟩ [Pending.event sha256 pending]
        ⟨buf.drop (c.pos + c.marker.bytes.length), none⟩
  | discard {buf : Bytes} {pending : Pending} {c : Candidate} (hfirst : First buf c)
      (hkind : c.kind = .discard) :
      Consumes sha256 ⟨buf, some pending⟩ [] ⟨buf.drop (c.pos + c.marker.bytes.length), none⟩
  | restart {buf : Bytes} {pending : Pending} {c : Candidate} (hfirst : First buf c)
      (hkind : c.kind = .restart) : Consumes sha256 ⟨buf, some pending⟩ [] ⟨buf, none⟩

theorem turn_next {s s' : Scanner} {events : List TradeEvent} :
    turn sha256 s = .next events s' ↔ Consumes sha256 s events s' := by
  constructor
  · intro h
    obtain ⟨buf, pending⟩ := s
    cases pending with
    | none =>
        simp only [turn] at h
        split at h
        · cases h
        · next start hstart =>
            split at h
            · cases h
            · next end_ hend =>
                cases h
                exact .dialog hstart hend
    | some pending =>
        simp only [turn] at h
        split at h
        · cases h
        · next c hc =>
            have hfirst := first_of_earliest hc
            split at h
            · next hkind => cases h; exact .success hfirst hkind
            · next hkind => cases h; exact .discard hfirst hkind
            · next hkind => cases h; exact .restart hfirst hkind
  · intro h
    cases h with
    | dialog hstart hend => simp only [turn, hstart, hend]
    | success hfirst hkind => simp only [turn, earliest_of_first hfirst, hkind]
    | discard hfirst hkind => simp only [turn, earliest_of_first hfirst, hkind]
    | restart hfirst hkind => simp only [turn, earliest_of_first hfirst, hkind]

/-- The markers a scanner looks for. -/
def watched (s : Scanner) : List Marker :=
  if s.pending.isSome then results.map Prod.fst else [.start]

/-- The ways a turn can break off, and the front of the buffer it throws away. -/
inductive Waits : Scanner → Scanner → Prop
  | open_ {buf : Bytes} {start : Nat} (hstart : find buf .start 0 = some start)
      (hend : find buf .end (start + Marker.start.bytes.length) = none) :
      Waits ⟨buf, none⟩ ⟨buf.drop (lineStart buf start), none⟩
  | tail {s : Scanner} (habsent : ∀ m ∈ s.watched, ¬ m.bytes <:+: s.buf) :
      Waits s s.keepTailFromLineStart

theorem turn_wait {s s' : Scanner} : turn sha256 s = .wait s' ↔ Waits s s' := by
  constructor
  · intro h
    obtain ⟨buf, pending⟩ := s
    cases pending with
    | none =>
        simp only [turn] at h
        split at h
        · next hstart =>
            cases h
            rw [find_zero, search_none] at hstart
            refine .tail ?_
            intro m hm
            rw [List.mem_singleton.mp hm]
            exact hstart
        · next start hstart =>
            split at h
            · next hend =>
                cases h
                exact .open_ hstart hend
            · cases h
    | some pending =>
        simp only [turn] at h
        split at h
        · next hnone =>
            cases h
            refine .tail ?_
            intro m hm
            obtain ⟨r, hr, rfl⟩ := List.mem_map.mp hm
            exact no_result hnone r hr
        · split at h <;> cases h
  · intro h
    cases h with
    | open_ hstart hend => simp only [turn, hstart, hend]
    | tail habsent =>
        obtain ⟨buf, pending⟩ := s
        cases pending with
        | none =>
            have hnone : find buf .start 0 = none := by
              rw [find_zero, search_none]
              exact habsent .start List.mem_cons_self
            simp only [turn, hnone]
        | some pending =>
            have hnone : earliest (candidates buf) = none := by
              rw [earliest_none, candidates, List.filterMap_eq_nil_iff]
              intro r hr
              rw [Option.map_eq_none_iff, find_zero, search_none]
              exact habsent r.1 (List.mem_map_of_mem hr)
            simp only [turn, hnone]

theorem Consumes.weight_lt {s s' : Scanner} {events : List TradeEvent}
    (h : Consumes sha256 s events s') : s'.weight < s.weight := by
  cases h with
  | dialog hstart hend =>
      have hbound := find_bound hend
      have hpos := bytes_pos .end
      simp only [weight, List.length_drop, Option.isSome_some, Option.isSome_none, if_true,
        Bool.false_eq_true, if_false]
      omega
  | success hfirst hkind | discard hfirst hkind =>
      have hpos := bytes_pos (Candidate.marker ‹Candidate›)
      have hfits := hfirst.fits
      simp only [weight, List.length_drop, Option.isSome_some, Option.isSome_none, if_true,
        Bool.false_eq_true, if_false]
      omega
  | restart hfirst hkind =>
      simp only [weight, Option.isSome_some, Option.isSome_none, if_true, Bool.false_eq_true,
        if_false]
      omega

/-- The fuel of `feed` never runs out. -/
theorem loop_runs {fuel : Nat} {s : Scanner} (h : s.weight < fuel) :
    Runs sha256 s (loop sha256 fuel s).1 (loop sha256 fuel s).2 := by
  induction fuel generalizing s with
  | zero => exact absurd h (Nat.not_lt_zero _)
  | succ fuel ih =>
      rw [loop]
      cases hturn : turn sha256 s with
      | wait s' => exact .wait hturn
      | next events s' =>
          have hlt := (turn_next.mp hturn).weight_lt
          exact .next hturn (ih (by omega))

def extend (s : Scanner) (more : Bytes) : Scanner := { s with buf := s.buf ++ more }

theorem extend_extend (s : Scanner) (x y : Bytes) : (s.extend x).extend y = s.extend (x ++ y) := by
  simp only [extend, List.append_assoc]

variable (sha256) in
theorem feed_runs (s : Scanner) (chunk : Bytes) :
    Runs sha256 (s.extend chunk) (feed sha256 s chunk).1 (feed sha256 s chunk).2 :=
  loop_runs (Nat.lt_succ_self _)

/-- Bytes that follow do not change a turn that consumes something. -/
theorem Consumes.extend {s s' : Scanner} {events : List TradeEvent}
    (h : Consumes sha256 s events s') (more : Bytes) :
    Consumes sha256 (s.extend more) events (s'.extend more) := by
  cases h with
  | @dialog buf start end_ hstart hend =>
      have hs := find_bound hstart
      have he := find_bound hend
      have h : Consumes sha256 ⟨buf ++ more, none⟩ [] _ :=
        .dialog (find_append hstart more) (find_append hend more)
      rw [List.drop_append_of_le_length he.2, List.take_append_of_le_length (by omega),
        List.take_append_of_le_length (by omega), lineStart_append (by omega)] at h
      exact h
  | @success buf pending c hfirst hkind =>
      have h : Consumes sha256 ⟨buf ++ more, some pending⟩ _ _ :=
        .success (hfirst.append more) hkind
      rw [List.drop_append_of_le_length hfirst.fits] at h
      exact h
  | @discard buf pending c hfirst hkind =>
      have h : Consumes sha256 ⟨buf ++ more, some pending⟩ _ _ :=
        .discard (hfirst.append more) hkind
      rw [List.drop_append_of_le_length hfirst.fits] at h
      exact h
  | restart hfirst hkind => exact .restart (hfirst.append more) hkind

theorem Turns.extend {s v : Scanner} {events : List TradeEvent} (h : Turns sha256 s events v)
    (more : Bytes) : Turns sha256 (s.extend more) events (v.extend more) := by
  induction h with
  | done s => exact .done _
  | next hnext _ ih => exact .next (turn_next.mpr ((turn_next.mp hnext).extend more)) ih

/-! ### A scanner that has thrown lines away -/

/-- `s` has whole lines in front of the buffer of `t`, without a marker it looks for. -/
structure Ahead (s t : Scanner) (front : Bytes) : Prop where
  buf : s.buf = front ++ t.buf
  pending : s.pending = t.pending
  closed : Closed newline front
  absent : ∀ m ∈ s.watched, ¬ m.bytes <:+: front

theorem Ahead.refl (s : Scanner) : Ahead s s [] := by
  refine ⟨rfl, rfl, .nil _, ?_⟩
  intro m _ h
  exact bytes_ne_nil m (List.infix_nil.mp h)

theorem keepTail_ahead {s t : Scanner} {front : Bytes} (h : Ahead s t front) :
    s.keepTailFromLineStart = t.keepTailFromLineStart := by
  obtain ⟨sbuf, spending⟩ := s
  obtain ⟨tbuf, tpending⟩ := t
  have hclosed := h.closed
  have hbuf : sbuf = front ++ tbuf := h.buf
  have hpending : spending = tpending := h.pending
  subst hbuf hpending
  have hle : lineStart tbuf tbuf.length ≤ tbuf.length := by
    obtain ⟨lines, line, hsplit, hlines, hline⟩ := exists_lastLine newline tbuf
    rw [lineStart, List.take_length, hsplit, lastLineStart_append hlines hline,
      List.length_append]
    exact Nat.le_add_right _ _
  simp only [keepTailFromLineStart, List.length_append, lineStart_shift hclosed,
    Nat.min_eq_left hle, Nat.min_eq_left (Nat.add_le_add_left hle front.length),
    Nat.add_sub_add_left]
  split
  · next hlong =>
      rw [drop_append_ge (by omega),
        show front.length + tbuf.length - keepTail - front.length = tbuf.length - keepTail by omega]
  · rw [drop_append_ge (Nat.le_add_right _ _), Nat.add_sub_cancel_left]

theorem Ahead.waits {s t u : Scanner} {front : Bytes} (h : Ahead s t front) (hwait : Waits t u) :
    Waits s u := by
  cases hwait with
  | @open_ buf start hstart hend =>
      obtain ⟨sbuf, spending⟩ := s
      obtain ⟨rfl, rfl, hclosed, habsent⟩ := h
      have hfind := find_shift buf hclosed (habsent .start List.mem_cons_self)
      rw [hstart, Option.map_some] at hfind
      have hnone := find_shift_from front buf .end (start + Marker.start.bytes.length)
      rw [hend, Option.map_none, ← Nat.add_assoc] at hnone
      have hwaits := Waits.open_ hfind hnone
      rw [lineStart_shift hclosed, drop_append_ge (Nat.le_add_right _ _),
        Nat.add_sub_cancel_left] at hwaits
      exact hwaits
  | tail habsent =>
      rw [← keepTail_ahead h]
      refine .tail ?_
      intro m hm
      have hsame : t.watched = s.watched := by rw [watched, watched, h.pending]
      rw [← search_none, h.buf, search_shift (newline_not_mem m) h.closed (h.absent m hm),
        Option.map_eq_none_iff, search_none]
      exact habsent m (hsame ▸ hm)

theorem Ahead.consumes {s t t' : Scanner} {front : Bytes} {events : List TradeEvent}
    (h : Ahead s t front) (hnext : Consumes sha256 t events t') :
    ∃ s' front', Consumes sha256 s events s' ∧ Ahead s' t' front' := by
  obtain ⟨sbuf, spending⟩ := s
  cases hnext with
  | @dialog buf start end_ hstart hend =>
      obtain ⟨rfl, rfl, hclosed, habsent⟩ := h
      have hfind := find_shift buf hclosed (habsent .start List.mem_cons_self)
      rw [hstart, Option.map_some] at hfind
      have hfind' := find_shift_from front buf .end (start + Marker.start.bytes.length)
      rw [hend, Option.map_some, ← Nat.add_assoc] at hfind'
      refine ⟨_, [], .dialog hfind hfind', ?_⟩
      rw [lineStart_shift hclosed, Nat.add_assoc, Nat.add_assoc, List.take_length_add_append,
        List.take_length_add_append]
      simp only [drop_append_ge (Nat.le_add_right _ _), Nat.add_sub_cancel_left]
      exact .refl _
  | @success buf pending c hfirst hkind =>
      obtain ⟨rfl, rfl, hclosed, habsent⟩ := h
      have hshift := hfirst.shift hclosed fun r hr => habsent r.1 (List.mem_map_of_mem hr)
      refine ⟨_, [], .success hshift hkind, ?_⟩
      simp only [Nat.add_assoc, drop_append_ge (Nat.le_add_right _ _), Nat.add_sub_cancel_left]
      exact .refl _
  | @discard buf pending c hfirst hkind =>
      obtain ⟨rfl, rfl, hclosed, habsent⟩ := h
      have hshift := hfirst.shift hclosed fun r hr => habsent r.1 (List.mem_map_of_mem hr)
      refine ⟨_, [], .discard hshift hkind, ?_⟩
      simp only [Nat.add_assoc, drop_append_ge (Nat.le_add_right _ _), Nat.add_sub_cancel_left]
      exact .refl _
  | @restart buf pending c hfirst hkind =>
      obtain ⟨rfl, rfl, hclosed, habsent⟩ := h
      have hshift := hfirst.shift hclosed fun r hr => habsent r.1 (List.mem_map_of_mem hr)
      refine ⟨_, front, .restart hshift hkind, rfl, rfl, hclosed, ?_⟩
      intro m hm
      rw [List.mem_singleton.mp hm]
      exact habsent .start (show Marker.start ∈ results.map Prod.fst by decide)

theorem Ahead.runs {s t u : Scanner} {front : Bytes} {events : List TradeEvent}
    (h : Ahead s t front) (hruns : Runs sha256 t events u) : Runs sha256 s events u := by
  induction hruns generalizing s front with
  | wait hwait => exact .wait (turn_wait.mpr (h.waits (turn_wait.mp hwait)))
  | next hnext _ ih =>
      obtain ⟨s', front', hs', hahead⟩ := h.consumes (turn_next.mp hnext)
      exact .next (turn_next.mpr hs') (ih hahead)

/-- No line of some bytes is longer than what a waiting scanner keeps. -/
def ShortLines (bytes : Bytes) : Prop :=
  ∀ line, line <:+: bytes → newline ∉ line → line.length ≤ keepTail

/-- A waiting scanner throws away whole lines without the markers it waits for. -/
theorem Waits.ahead {s u : Scanner} (h : Waits s u) (hshort : ShortLines s.buf) :
    ∃ front, Ahead s u front := by
  cases h with
  | @open_ buf start hstart hend =>
      obtain ⟨lines, line, hsplit, hlines, hline⟩ := exists_lastLine newline (buf.take start)
      have hat : lineStart buf start = lines.length := by
        rw [lineStart, hsplit, lastLineStart_append hlines hline]
      have hbuf : buf = lines ++ (line ++ buf.drop start) := by
        rw [← List.append_assoc, ← hsplit, List.take_append_drop]
      refine ⟨lines, ?_, rfl, hlines, ?_⟩
      · change buf = lines ++ buf.drop (lineStart buf start)
        conv_lhs => rw [hbuf]
        rw [hat]
        conv_rhs => rw [hbuf, List.drop_left]
      · intro m hm hword
        rw [List.mem_singleton.mp hm] at hword
        obtain ⟨left, right, hmid⟩ := hword
        have hlen : lines.length ≤ start := by
          have := congrArg List.length hsplit
          rw [List.length_append] at this
          have := List.length_take_le start buf
          omega
        have hpos := bytes_pos .start
        have hmidlen := congrArg List.length hmid
        simp only [List.length_append] at hmidlen
        rw [find_zero] at hstart
        refine search_first hstart (j := left.length) (by omega) ?_
        rw [hbuf, ← hmid, List.append_assoc, List.append_assoc, List.drop_left]
        exact List.prefix_append _ _
  | tail habsent =>
      obtain ⟨lines, line, hsplit, hlines, hline⟩ := exists_lastLine newline s.buf
      have hat : lineStart s.buf s.buf.length = lines.length := by
        rw [lineStart, List.take_length, hsplit, lastLineStart_append hlines hline]
      have hlen : s.buf.length = lines.length + line.length := by
        rw [hsplit, List.length_append]
      have hshortLine : line.length ≤ keepTail := by
        refine hshort line ?_ hline
        rw [hsplit]
        exact (List.suffix_append lines line).isInfix
      have hkeep : s.keepTailFromLineStart = { s with buf := s.buf.drop lines.length } := by
        simp only [keepTailFromLineStart, hat]
        rw [hlen, Nat.min_eq_left (Nat.le_add_right _ _), Nat.add_sub_cancel_left,
          if_neg (Nat.not_lt.mpr hshortLine)]
      rw [hkeep]
      refine ⟨lines, ?_, rfl, hlines, ?_⟩
      · change s.buf = lines ++ s.buf.drop lines.length
        rw [hsplit, List.drop_left]
      · intro m hm hword
        refine habsent m hm (hword.trans ?_)
        rw [hsplit]
        exact (List.prefix_append lines line).isInfix

theorem Consumes.suffix {s s' : Scanner} {events : List TradeEvent}
    (h : Consumes sha256 s events s') : s'.buf <:+ s.buf := by
  cases h with
  | dialog _ _ | success _ _ | discard _ _ => exact List.drop_suffix _ _
  | restart _ _ => exact List.suffix_refl _

theorem Turns.suffix {s v : Scanner} {events : List TradeEvent} (h : Turns sha256 s events v) :
    v.buf <:+ s.buf := by
  induction h with
  | done s => exact List.suffix_refl _
  | next hnext _ ih => exact ih.trans (turn_next.mp hnext).suffix

theorem Ahead.extend {s t : Scanner} {front : Bytes} (h : Ahead s t front) (more : Bytes) :
    Ahead (s.extend more) (t.extend more) front := by
  refine ⟨?_, h.pending, h.closed, h.absent⟩
  rw [Scanner.extend, h.buf, List.append_assoc]
  rfl

/-- What the loop of `feed` leaves is a part of what was there. -/
theorem Runs.suffix {s u : Scanner} {events : List TradeEvent} (h : Runs sha256 s events u)
    (hshort : ShortLines s.buf) : u.buf <:+ s.buf := by
  obtain ⟨v, hturns, hwait⟩ := h.split
  have hv := hturns.suffix
  have hshortv : ShortLines v.buf := fun line hline => hshort line (hline.trans hv.isInfix)
  obtain ⟨front, hahead⟩ := (turn_wait.mp hwait).ahead hshortv
  refine List.IsSuffix.trans ?_ hv
  rw [hahead.buf]
  exact List.suffix_append _ _

/-- Two chunks, one after the other or at once. -/
theorem Runs.extend {s u w : Scanner} {events rest : List TradeEvent} {more : Bytes}
    (h : Runs sha256 s events u) (hshort : ShortLines s.buf)
    (hmore : Runs sha256 (u.extend more) rest w) :
    Runs sha256 (s.extend more) (events ++ rest) w := by
  obtain ⟨v, hturns, hwait⟩ := h.split
  have hshortv : ShortLines v.buf :=
    fun line hline => hshort line (hline.trans hturns.suffix.isInfix)
  obtain ⟨front, hahead⟩ := (turn_wait.mp hwait).ahead hshortv
  exact (hturns.extend more).runs ((hahead.extend more).runs hmore)

theorem feedAll_runs {s : Scanner} {chunks : List Bytes} (hne : chunks ≠ [])
    (hshort : ShortLines (s.buf ++ chunks.flatten)) :
    Runs sha256 (s.extend chunks.flatten) (feedAll sha256 s chunks).1 (feedAll sha256 s chunks).2 := by
  induction chunks generalizing s with
  | nil => exact absurd rfl hne
  | cons chunk chunks ih =>
      have hfirst := feed_runs sha256 s chunk
      rw [List.flatten_cons, ← List.append_assoc] at hshort
      have hshort' : ShortLines (s.extend chunk).buf :=
        fun line hline => hshort line (hline.trans (List.prefix_append _ _).isInfix)
      by_cases hnil : chunks = []
      · subst hnil
        simpa only [feedAll, List.flatten_cons, List.flatten_nil, List.append_nil] using hfirst
      · rw [List.flatten_cons, ← extend_extend]
        refine hfirst.extend hshort' (ih hnil ?_)
        intro line hline
        refine hshort line (hline.trans ?_)
        obtain ⟨front, hfront⟩ := hfirst.suffix hshort'
        refine List.IsSuffix.isInfix ⟨front, ?_⟩
        rw [← List.append_assoc, hfront]
        rfl

/-- However a log is cut into chunks, the events are those of the whole log. -/
theorem feed_chunks (sha256 : Bytes → Bytes) (bytes : Bytes)
    (hshort : ∀ run, run <:+: bytes → newline ∉ run → run.length ≤ 64 * 1024)
    (chunks : List Bytes) (hcut : chunks.flatten = bytes) :
    (new.feedAll sha256 chunks).1 = (new.feed sha256 bytes).1 := by
  subst hcut
  by_cases hnil : chunks = []
  · subst hnil
    have hempty := feed_runs sha256 new []
    have habsent : ∀ m ∈ new.watched, ¬ m.bytes <:+: new.buf :=
      fun m _ h => bytes_ne_nil m (List.infix_nil.mp h)
    exact (hempty.unique (.wait (turn_wait.mpr (.tail habsent)))).1.symm
  · exact ((feedAll_runs (s := new) hnil hshort).unique (feed_runs sha256 new chunks.flatten)).1

/-- A purchase of one blueprint for 30 platinum, up to the game's answer. -/
def purchaseLog : Bytes :=
  ("422.424 Script [Info]: Dialog.lua: " ++ Marker.start.text ++
    "\n\rPlatinum x 30\r\n\r\nand will receive from PlayerA\uE000 the following:\n\r" ++
    "Wolf Sledge Handle" ++ Marker.end.text ++ "\n427.411 Script [Info]: Dialog.lua: " ++
    "Dialog::CreateOk(description=The trade was successful!, title=)\n").toUTF8.data.toList

/-- The digest of the one dialog of `purchaseLog`. -/
def purchaseDigest (_ : Bytes) : Bytes :=
  [0xb1, 0x86, 0xa1, 0x25, 0xe2, 0xfd, 0x0a, 0x27, 0x9f, 0x48, 0x6e, 0x06,
    0xe1, 0x74, 0xdf, 0x2f, 0x30, 0x27, 0x0a, 0xc5, 0x58, 0x15, 0xe1, 0x53,
    0xb1, 0x60, 0xfc, 0x93, 0x3e, 0xc7, 0x5f, 0x4c]

/-- Cut inside the badge of the player's name and inside the success marker. -/
theorem feed_chunks_purchase :
    (new.feedAll purchaseDigest [purchaseLog.take 180, [], (purchaseLog.drop 180).take 180,
      purchaseLog.drop 360]).1 = (new.feed purchaseDigest purchaseLog).1 :=
  feed_chunks purchaseDigest purchaseLog
    (fun _ hrun _ => Nat.le_trans hrun.length_le (by decide +kernel)) _ (by
      simp only [List.flatten_cons, List.flatten_nil, List.append_nil, List.nil_append]
      rw [show 360 = 180 + 180 from rfl, ← List.drop_drop, List.take_append_drop,
        List.take_append_drop])

end Quantframe.LogParser.Scanner
