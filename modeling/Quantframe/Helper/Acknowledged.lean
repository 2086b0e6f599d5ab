import Quantframe.Helper.Queue
import Quantframe.Lib.Machine

/-!
# Acknowledged events

Any sequence of calls on the queue, with appends that stop after some of their bytes. What the
helper was told is on the disk is kept in `acked`, what it has removed in `popped`.
-/

namespace Quantframe.Helper.Queue

open Lib LogParser

structure State where
  file : File
  acked : List QueuedEvent
  popped : List QueuedEvent
  deriving DecidableEq, Repr

/-- A crash is a call that gets no further, and a restart. -/
inductive Call where
  | push (event : QueuedEvent) (append : Append)
  | peek
  /-- Cut off after some turns of its loop. -/
  | cutPeek (turns : Nat)
  | pop
  | restart
  deriving DecidableEq, Repr

variable (q : Queue)

/-- The event in the line that `pop` removes. -/
def head (file : File) : Option QueuedEvent :=
  match q.lines file with
  | .ok (first :: _) => q.json.fromText first
  | _ => none

def step : Machine State Call
  | s, .push event append =>
    let (result, file) := q.push s.file event append
    let acked := match result with
      | .ok () => s.acked ++ [event]
      | .error _ => s.acked
    some { s with file := file, acked := acked }
  | s, .peek => some { s with file := (q.peek s.file).2 }
  | s, .cutPeek turns => some { s with file := (q.peekLoop turns s.file).2 }
  | s, .pop => some { s with file := (q.pop s.file).2, popped := s.popped ++ (q.head s.file).toList }
  | s, .restart => some s

def init : State := ⟨none, [], []⟩

/-- What `peek` returns when each event it returns is popped. -/
inductive Drains : File → List QueuedEvent → Prop
  | empty {file file' : File} : q.peek file = (.ok none, file') → Drains file []
  | next {file file' file'' : File} {event : QueuedEvent} {events : List QueuedEvent} :
      q.peek file = (.ok (some event), file') → q.pop file' = (.ok (), file'') →
      Drains file'' events → Drains file (event :: events)

/-- An append that succeeds begins on a line of its own, and one that does not stops between two
characters. -/
def Unspoilt (s : State) : Call → Prop
  | .push _ .synced => Closed newline (read s.file)
  | .push event (.torn written) => (fromUtf8 ((q.record event).take written)).isSome = true
  | _ => True

/-! ### What the calls do to a readable file -/

/-- A file that reads as a text without carriage returns. -/
structure Reads (file : File) (text : Text) : Prop where
  bytes : file = some (utf8 text) ∨ (file = none ∧ text = [])
  noReturn : '\r' ∉ text

def events (text : Text) : List QueuedEvent := (kept text).filterMap q.json.fromText

variable {q}

theorem Reads.lines {file : File} {text : Text} (h : Reads file text) :
    q.lines file = .ok (kept text) := by
  rcases h.bytes with rfl | ⟨rfl, rfl⟩
  · rw [Queue.lines]
    simp only [fromUtf8_utf8]
    rfl
  · rfl

theorem Reads.read {file : File} {text : Text} (h : Reads file text) : read file = utf8 text := by
  rcases h.bytes with rfl | ⟨rfl, rfl⟩ <;> rfl

theorem Reads.joined {ls : List Text} (hls : ∀ line ∈ ls, Clean line) :
    Reads (some (utf8 (joinLines ls))) (joinLines ls) :=
  ⟨.inl rfl, noReturn_joinLines hls⟩

theorem Reads.clean {file : File} {text line : Text} (h : Reads file text) (hline : line ∈ kept text) :
    Clean line :=
  clean_of_mem_kept h.noReturn hline

theorem pop_empty {file : File} {text : Text} (h : Reads file text) (hkept : kept text = []) :
    q.pop file = (.ok (), file) := by
  simp only [pop, h.lines, hkept]

theorem pop_line {file : File} {text first : Text} {rest : List Text} (h : Reads file text)
    (hkept : kept text = first :: rest) :
    q.pop file = (.ok (), some (utf8 (joinLines rest))) := by
  simp only [pop, h.lines, hkept]

theorem clean_rest {file : File} {text first : Text} {rest : List Text} (h : Reads file text)
    (hkept : kept text = first :: rest) : ∀ line ∈ rest, Clean line :=
  fun _ hline => h.clean (hkept ▸ List.mem_cons_of_mem _ hline)

/-- What a turn of the loop of `peek` leaves: the same file, or one of finished lines with the same
events. -/
structure Pruned (q : Queue) (text : Text) (file' : File) (text' : Text) : Prop where
  reads : Reads file' text'
  same : q.events text' = q.events text
  fewer : (kept text').length ≤ (kept text).length
  closed : text' = text ∨ Closed '\n' text'

theorem Pruned.refl {file : File} {text : Text} (h : Reads file text) : Pruned q text file text :=
  ⟨h, rfl, Nat.le_refl _, .inl rfl⟩

/-- The oldest event that can be read is the one in the first line, or there is none. -/
def Found (q : Queue) (result : Except String (Option QueuedEvent)) (text : Text) : Prop :=
  (result = .ok none ∧ kept text = []) ∨
    ∃ first rest event, result = .ok (some event) ∧ kept text = first :: rest ∧
      q.json.fromText first = some event

theorem peekLoop_spec (fuel : Nat) {file : File} {text : Text} (h : Reads file text) :
    ∃ text', Pruned q text (q.peekLoop fuel file).2 text' ∧
      ((kept text).length < fuel → Found q (q.peekLoop fuel file).1 text') := by
  induction fuel generalizing file text with
  | zero => exact ⟨text, .refl h, fun hfuel => absurd hfuel (Nat.not_lt_zero _)⟩
  | succ fuel ih =>
      cases hkept : kept text with
      | nil =>
          simp only [peekLoop, h.lines, hkept]
          exact ⟨text, .refl h, fun _ => .inl ⟨rfl, hkept⟩⟩
      | cons first rest =>
          cases hfirst : q.json.fromText first with
          | some event =>
              simp only [peekLoop, h.lines, hkept, hfirst]
              exact ⟨text, .refl h, fun _ => .inr ⟨first, rest, event, rfl, hkept, hfirst⟩⟩
          | none =>
              have hclean := clean_rest h hkept
              obtain ⟨text', ⟨hreads, hsame, hfewer, hclosed⟩, hfound⟩ := ih (Reads.joined hclean)
              simp only [peekLoop, h.lines, hkept, hfirst, pop_line h hkept]
              rw [kept_joinLines hclean] at hfewer hfound
              refine ⟨text', ⟨hreads, ?_, ?_, .inr ?_⟩, ?_⟩
              · rw [hsame, events, events, kept_joinLines hclean, hkept,
                  List.filterMap_cons_none hfirst]
              · rw [hkept, List.length_cons]
                omega
              · rcases hclosed with rfl | hclosed
                · exact closed_joinLines hclean
                · exact hclosed
              · intro hfuel
                rw [List.length_cons] at hfuel
                exact hfound (by omega)

theorem peek_spec {file : File} {text : Text} (h : Reads file text) :
    ∃ text', Pruned q text (q.peek file).2 text' ∧ Found q (q.peek file).1 text' := by
  obtain ⟨text', hpruned, hfound⟩ := peekLoop_spec (q := q) (q.peekFuel file) h
  refine ⟨text', hpruned, hfound ?_⟩
  rw [peekFuel, h.lines]
  exact Nat.lt_succ_self _

/-- A readable file is drained in the order of its lines. -/
theorem drains {file : File} {text : Text} (h : Reads file text) : q.Drains file (q.events text) := by
  induction hn : (kept text).length using Nat.strong_induction_on generalizing file text with
  | _ n ih =>
      obtain ⟨text', ⟨hreads, hsame, hfewer, _⟩, hfound⟩ := peek_spec (q := q) h
      rw [← hsame]
      rcases hfound with ⟨hnone, hempty⟩ | ⟨first, rest, event, hsome, hkept, hfirst⟩
      · rw [events, hempty]
        exact .empty (Prod.ext hnone rfl)
      · have hclean := clean_rest hreads hkept
        have hlen : (kept (joinLines rest)).length < n := by
          rw [kept_joinLines hclean]
          rw [hkept, List.length_cons] at hfewer
          omega
        have hrest := ih _ hlen (Reads.joined hclean) rfl
        rw [events, kept_joinLines hclean] at hrest
        rw [events, hkept, List.filterMap_cons_some hfirst]
        exact .next (Prod.ext hsome rfl) (pop_line hreads hkept) hrest

/-! ### What a run keeps -/

/-- The acknowledged events are the removed ones and those in the finished lines, in order. -/
structure Sound (q : Queue) (s : State) (front tail : Text) : Prop where
  reads : Reads s.file (front ++ tail)
  closed : Closed '\n' front
  tail : '\n' ∉ tail
  acked : s.acked.Sublist (s.popped ++ q.events front)

theorem events_append {front : Text} (hclosed : Closed '\n' front) (text : Text) :
    q.events (front ++ text) = q.events front ++ q.events text := by
  rw [events, kept_append hclosed, List.filterMap_append, events, events]

theorem Sound.of_closed {s : State} {text : Text} (hreads : Reads s.file text)
    (hclosed : Closed '\n' text) (hacked : s.acked.Sublist (s.popped ++ q.events text)) :
    Sound q s text [] :=
  ⟨by rw [List.append_nil]; exact hreads, hclosed, List.not_mem_nil, hacked⟩

theorem Sound.all {s : State} {front tail : Text} (h : Sound q s front tail) :
    s.acked.Sublist (s.popped ++ q.events (front ++ tail)) := by
  rw [events_append h.closed, ← List.append_assoc]
  exact h.acked.trans (List.sublist_append_left _ _)

theorem Sound.pruned {s : State} {front tail text' : Text} {file' : File}
    (h : Sound q s front tail) (hpruned : Pruned q (front ++ tail) file' text') :
    ∃ front' tail', Sound q { s with file := file' } front' tail' := by
  obtain ⟨hreads, hsame, _, hclosed⟩ := hpruned
  rcases hclosed with rfl | hclosed
  · exact ⟨front, tail, hreads, h.closed, h.tail, h.acked⟩
  · refine ⟨text', [], .of_closed hreads hclosed ?_⟩
    change s.acked.Sublist (s.popped ++ q.events text')
    rw [hsame]
    exact h.all

theorem Sound.pop {s : State} {front tail : Text} (h : Sound q s front tail) :
    ∃ front' tail', Sound q
      ⟨(q.pop s.file).2, s.acked, s.popped ++ (q.head s.file).toList⟩ front' tail' := by
  cases hkept : kept (front ++ tail) with
  | nil =>
      have hhead : q.head s.file = none := by simp only [head, h.reads.lines, hkept]
      rw [pop_empty h.reads hkept, hhead, Option.toList_none, List.append_nil]
      exact ⟨front, tail, h⟩
  | cons first rest =>
      have hhead : q.head s.file = q.json.fromText first := by
        simp only [head, h.reads.lines, hkept]
      have hclean := clean_rest h.reads hkept
      rw [pop_line h.reads hkept, hhead]
      refine ⟨joinLines rest, [], .of_closed (Reads.joined hclean) (closed_joinLines hclean) ?_⟩
      have hall := h.all
      rw [events, hkept] at hall
      change s.acked.Sublist (s.popped ++ (q.json.fromText first).toList ++ q.events (joinLines rest))
      rw [events, kept_joinLines hclean, List.append_assoc]
      cases hfirst : q.json.fromText first with
      | none =>
          rw [List.filterMap_cons_none hfirst] at hall
          exact hall
      | some event =>
          rw [List.filterMap_cons_some hfirst] at hall
          exact hall

theorem record_eq (event : QueuedEvent) :
    q.record event = utf8 (q.json.toText event) ++ [newline] := by
  rw [record, utf8_append]
  rfl

theorem Reads.append {file : File} {text more : Text} (h : Reads file text) (hmore : '\r' ∉ more) :
    Reads (some (Helper.read file ++ utf8 more)) (text ++ more) := by
  refine ⟨.inl ?_, ?_⟩
  · rw [h.read, ← utf8_append]
  · rw [List.mem_append, not_or]
    exact ⟨h.noReturn, hmore⟩

theorem RoundTrips.clean {json : Json} {event : QueuedEvent} (h : json.RoundTrips event) :
    Clean (json.toText event) :=
  ⟨h.noNewline, h.noReturn, decide_eq_true h.notBlank⟩

theorem Sound.synced {s : State} {front tail : Text} {event : QueuedEvent}
    (h : Sound q s front tail) (hjson : q.json.RoundTrips event)
    (hline : Closed newline (read s.file)) :
    ∃ front' tail', Sound q
      ⟨some (read s.file ++ q.record event), s.acked ++ [event], s.popped⟩ front' tail' := by
  have hclean := RoundTrips.clean hjson
  have hclosed : Closed '\n' (front ++ tail) := closed_of_utf8 (h.reads.read ▸ hline)
  have hreturn : '\r' ∉ q.json.toText event ++ ['\n'] := by
    rw [List.mem_append, List.mem_singleton, not_or]
    exact ⟨hclean.noReturn, by decide⟩
  refine ⟨front ++ tail ++ (q.json.toText event ++ ['\n']), [],
    .of_closed (h.reads.append hreturn) ?_ ?_⟩
  · rw [← List.append_assoc]
    exact .snoc _ _
  · have hnew : q.events (q.json.toText event ++ ['\n']) = [event] := by
      rw [events, kept_line hclean, List.filterMap_cons_some hjson.back, List.filterMap_nil]
    rw [events_append hclosed, hnew, ← List.append_assoc]
    exact h.all.append (List.Sublist.refl _)

/-- A line that is cut between two characters is whole, or has no newline. -/
theorem torn_text {event : QueuedEvent} {written : Nat} {part : Text}
    (hjson : q.json.RoundTrips event) (hpart : fromUtf8 ((q.record event).take written) = some part) :
    '\r' ∉ part ∧ ('\n' ∉ part ∨ part = q.json.toText event ++ ['\n']) := by
  have hclean := RoundTrips.clean hjson
  have hbytes := utf8_of_fromUtf8 hpart
  constructor
  · intro hmem
    have hbyte : (13 : UInt8) ∈ q.record event :=
      List.mem_of_mem_take (hbytes ▸ return_mem_utf8.mpr hmem)
    rw [record, return_mem_utf8, List.mem_append, List.mem_singleton] at hbyte
    exact hbyte.elim hclean.noReturn (by decide)
  · rcases Nat.lt_or_ge written (q.record event).length with hlt | hge
    · refine .inl fun hmem => ?_
      have hbyte : newline ∈ (q.record event).take written := hbytes ▸ newline_mem_utf8.mpr hmem
      rw [record_eq] at hlt hbyte
      rw [List.length_append, List.length_singleton] at hlt
      rw [List.take_append_of_le_length (by omega)] at hbyte
      exact hclean.noNewline (newline_mem_utf8.mp (List.mem_of_mem_take hbyte))
    · rw [List.take_of_length_le hge, record] at hbytes
      exact .inr (utf8_injective hbytes).symm

theorem Sound.torn {s : State} {front tail : Text} {event : QueuedEvent} {written : Nat}
    (h : Sound q s front tail) (hjson : q.json.RoundTrips event)
    (hcut : (fromUtf8 ((q.record event).take written)).isSome = true) :
    ∃ front' tail',
      Sound q { s with file := some (read s.file ++ (q.record event).take written) } front' tail' := by
  obtain ⟨part, hpart⟩ := Option.isSome_iff_exists.mp hcut
  obtain ⟨hreturn, hshape⟩ := torn_text hjson hpart
  have hreads := h.reads.append hreturn
  rw [← utf8_of_fromUtf8 hpart] at hreads
  rcases hshape with hline | hwhole
  · refine ⟨front, tail ++ part, ?_, h.closed, ?_, h.acked⟩
    · rw [← List.append_assoc]
      exact hreads
    · rw [List.mem_append, not_or]
      exact ⟨h.tail, hline⟩
  · refine ⟨front ++ tail ++ part, [], .of_closed hreads ?_ ?_⟩
    · rw [hwhole, ← List.append_assoc]
      exact .snoc _ _
    · rw [List.append_assoc, events_append h.closed, ← List.append_assoc]
      exact h.acked.trans (List.sublist_append_left _ _)

/-- The event of a push, if it is one, is written as one line of JSON. -/
def Written (q : Queue) (call : Call) : Prop :=
  ∀ event append, call = .push event append → q.json.RoundTrips event

theorem Sound.step {s t : State} {call : Call} {front tail : Text} (h : Sound q s front tail)
    (hjson : Written q call)
    (hunspoilt : q.Unspoilt s call) (hstep : q.step s call = some t) :
    ∃ front' tail', Sound q t front' tail' := by
  cases call with
  | push event append =>
      have hevent := hjson event append rfl
      cases append with
      | refused =>
          cases hstep
          exact ⟨front, tail, h⟩
      | torn written =>
          cases hstep
          exact h.torn hevent hunspoilt
      | synced =>
          cases hstep
          exact h.synced hevent hunspoilt
  | peek =>
      cases hstep
      obtain ⟨text', hpruned, _⟩ := peek_spec (q := q) h.reads
      exact h.pruned hpruned
  | cutPeek turns =>
      cases hstep
      obtain ⟨text', hpruned, _⟩ := peekLoop_spec (q := q) turns h.reads
      exact h.pruned hpruned
  | pop =>
      cases hstep
      exact h.pop
  | restart =>
      cases hstep
      exact ⟨front, tail, h⟩

/-- In a run with no append on an unfinished line and none cut inside a character, `peek` and `pop`
give back, in order, every acknowledged event that has not been removed yet. -/
theorem no_acked_event_lost (q : Queue) (calls : List Call) (s : State)
    (hjson : ∀ event append, .push event append ∈ calls → q.json.RoundTrips event)
    (hrun : Trace q.step init calls s) (hunspoilt : Along q.step q.Unspoilt init calls) :
    ∃ events, q.Drains s.file events ∧ s.acked.Sublist (s.popped ++ events) := by
  have hwritten : ∀ call ∈ calls, Written q call := by
    rintro call hcall event append rfl
    exact hjson event append hcall
  have hinit : ∃ front tail, Sound q init front tail :=
    ⟨[], [], .of_closed ⟨.inr ⟨rfl, rfl⟩, List.not_mem_nil⟩ (.nil _) (List.Sublist.refl _)⟩
  have hstep : ∀ (a : State) (call : Call) (b : State), (∃ front tail, Sound q a front tail) →
      q.Unspoilt a call ∧ Written q call → q.step a call = some b →
      ∃ front tail, Sound q b front tail := by
    rintro a call b ⟨front, tail, h⟩ ⟨hun, hwr⟩ hab
    exact h.step hwr hun hab
  have hsound := hrun.invariant_along hstep (hunspoilt.and_mem hwritten) hinit
  obtain ⟨front, tail, h⟩ := hsound
  exact ⟨_, drains h.reads, h.all⟩

/-- `persist` is a push for each pending event, and keeps those that were not acknowledged. -/
theorem persist_run (s : State) (pending : List (QueuedEvent × Append)) :
    ∃ t, Trace q.step s (pending.map fun p => .push p.1 p.2) t ∧
      t.file = (q.persist s.file pending).2 ∧
      t.acked = s.acked ++ (pending.filter fun p => p.2 = .synced).map Prod.fst ∧
      (q.persist s.file pending).1 = (pending.filter fun p => p.2 ≠ .synced).map Prod.fst := by
  induction pending generalizing s with
  | nil => exact ⟨s, .nil s, rfl, (List.append_nil _).symm, rfl⟩
  | cons p pending ih =>
      obtain ⟨event, append⟩ := p
      cases append with
      | refused =>
          obtain ⟨t, hrun, hfile, hacked, hkept⟩ := ih s
          exact ⟨t, .cons rfl hrun, hfile, hacked, congrArg (event :: ·) hkept⟩
      | torn written =>
          obtain ⟨t, hrun, hfile, hacked, hkept⟩ :=
            ih { s with file := some (read s.file ++ (q.record event).take written) }
          exact ⟨t, .cons rfl hrun, hfile, hacked, congrArg (event :: ·) hkept⟩
      | synced =>
          obtain ⟨t, hrun, hfile, hacked, hkept⟩ :=
            ih { s with file := some (read s.file ++ q.record event), acked := s.acked ++ [event] }
          refine ⟨t, .cons rfl hrun, hfile, ?_, hkept⟩
          rw [hacked, List.append_assoc]
          rfl

/-! ### Appends that stop -/

def sampleEvent (id player : String) : QueuedEvent :=
  ⟨id, "2026-09-15T10:00:00Z", ⟨player, "1.000", [⟨"Platinum", 30, none⟩],
    [⟨"Wolf Sledge Handle", 1, none⟩]⟩⟩

/-- The characters of an ASCII text. -/
def ascii (text : String) : Text := text.toUTF8.data.toList.map fun b => Char.ofNat b.toNat

def sampleLine (id player : String) : Text :=
  ascii "\x7b\"event_id\":\"" ++ id.toList ++
    ascii "\",\"detected_at\":\"2026-09-15T10:00:00Z\",\"trade\":\x7b\"player_name\":\"" ++
    player.toList ++
    ascii "\",\"ee_timestamp\":\"1.000\",\"offered\":[\x7b\"name\":\"Platinum\"," ++
    ascii "\"quantity\":30\x7d],\"received\":[\x7b\"name\":\"Wolf Sledge Handle\"," ++
    ascii "\"quantity\":1\x7d]\x7d\x7d"

/-- The events `a` and `b` and their lines. -/
def sampleQueue : Queue where
  path := "trade-queue.jsonl"
  json :=
    { toText := fun event => sampleLine event.eventId event.trade.playerName
      fromText := fun line =>
        if line = sampleLine "a" "PlayerA" then some (sampleEvent "a" "PlayerA")
        else if line = sampleLine "b" "Zo\u00e9" then some (sampleEvent "b" "Zo\u00e9")
        else none }

def tornThenRetried : List Call :=
  [.push (sampleEvent "a" "PlayerA") (.torn 40), .push (sampleEvent "a" "PlayerA") .synced]

def tornInACharacter : List Call :=
  [.push (sampleEvent "b" "Zo\u00e9") (.torn 80), .push (sampleEvent "b" "Zo\u00e9") .synced]

/-- A retry after a torn line is acknowledged and lost, and one after a torn character leaves a
queue that can never be read. -/
theorem acked_event_lost :
    (∃ s, Trace sampleQueue.step init tornThenRetried s ∧
      ¬ ∃ events, sampleQueue.Drains s.file events ∧ s.acked.Sublist (s.popped ++ events)) ∧
    ∃ s, Trace sampleQueue.step init tornInACharacter s ∧
      s.acked = [sampleEvent "b" "Zo\u00e9"] ∧ (sampleQueue.peek s.file).1.isOk = false := by
  constructor
  · refine ⟨replay sampleQueue.step init tornThenRetried, trace_replay rfl, ?_⟩
    have hstate : (replay sampleQueue.step init tornThenRetried).acked =
        [sampleEvent "a" "PlayerA"] ∧
        (replay sampleQueue.step init tornThenRetried).popped = [] ∧
        (sampleQueue.peek (replay sampleQueue.step init tornThenRetried).file).1.toOption =
          some none := by decide +kernel
    rintro ⟨events, hdrains, hacked⟩
    rw [hstate.1, hstate.2.1] at hacked
    have hpeek := hstate.2.2
    cases hdrains with
    | empty _ => cases hacked
    | next hsome _ _ =>
        rw [hsome] at hpeek
        cases hpeek
  · exact ⟨replay sampleQueue.step init tornInACharacter, trace_replay rfl, by decide +kernel,
      by decide +kernel⟩

def unspoilt (q : Queue) (s : State) : Call → Bool
  | .push _ .synced => (read s.file).getLast?.all fun b => b = newline
  | .push event (.torn written) => (fromUtf8 ((q.record event).take written)).isSome
  | _ => true

theorem unspoilt_of_check (s : State) (call : Call) (h : q.unspoilt s call = true) :
    q.Unspoilt s call := by
  cases call with
  | push event append =>
      cases append with
      | refused => trivial
      | torn written => exact h
      | synced =>
          change (read s.file).getLast?.all (fun b => b = newline) = true at h
          change Closed newline (read s.file)
          rcases List.eq_nil_or_concat (read s.file) with hnil | ⟨front, b, hconcat⟩
          · exact .inl hnil
          · rw [List.concat_eq_append] at hconcat
            rw [hconcat, List.getLast?_concat, Option.all_some, decide_eq_true_eq] at h
            exact .inr ⟨front, by rw [hconcat, h]⟩
  | peek | cutPeek _ | pop | restart => trivial

def sampleCalls : List Call :=
  [.push (sampleEvent "a" "PlayerA") .synced, .push (sampleEvent "b" "Zo\u00e9") .refused, .restart,
    .push (sampleEvent "b" "Zo\u00e9") .synced, .peek, .pop, .push (sampleEvent "a" "PlayerA") (.torn 40),
    .cutPeek 1]

theorem sample_roundTrips : sampleQueue.json.RoundTrips (sampleEvent "a" "PlayerA") ∧
    sampleQueue.json.RoundTrips (sampleEvent "b" "Zo\u00e9") :=
  ⟨⟨by decide +kernel, by decide +kernel, by decide +kernel, by decide +kernel⟩,
    ⟨by decide +kernel, by decide +kernel, by decide +kernel, by decide +kernel⟩⟩

theorem sampleCalls_written (event : QueuedEvent) (append : Append)
    (hpush : .push event append ∈ sampleCalls) : sampleQueue.json.RoundTrips event := by
  simp only [sampleCalls, List.mem_cons, Call.push.injEq, List.not_mem_nil, reduceCtorEq, or_false,
    false_or] at hpush
  rcases hpush with ⟨rfl, _⟩ | ⟨rfl, _⟩ | ⟨rfl, _⟩ | ⟨rfl, _⟩
  · exact sample_roundTrips.1
  · exact sample_roundTrips.2
  · exact sample_roundTrips.2
  · exact sample_roundTrips.1

theorem sampleCalls_run :
    Trace sampleQueue.step init sampleCalls (replay sampleQueue.step init sampleCalls) :=
  trace_replay rfl

theorem sampleCalls_unspoilt : alongAll sampleQueue.step sampleQueue.unspoilt init sampleCalls = true := by
  decide +kernel

/-- Two events around a refused append and a restart, and a torn line at the end. -/
theorem no_acked_event_lost_two_events :
    ∃ events, sampleQueue.Drains (replay sampleQueue.step init sampleCalls).file events ∧
      (replay sampleQueue.step init sampleCalls).acked.Sublist
        ((replay sampleQueue.step init sampleCalls).popped ++ events) :=
  no_acked_event_lost sampleQueue sampleCalls (replay sampleQueue.step init sampleCalls)
    sampleCalls_written sampleCalls_run (along_of_all unspoilt_of_check sampleCalls_unspoilt)

end Quantframe.Helper.Queue
