import Quantframe.Helper.Queue
import Quantframe.LogParser.Chunks

/-!
# The tail of EE.log

Follows the log from its current end. A new game session is known by the length of the file alone: shorter than what
was read, or gone.
-/

namespace Quantframe.Helper

open LogParser

structure Tail where
  offset : Nat
  scanner : Scanner
  warnedMissing : Bool

namespace Tail

variable (sha256 : Bytes → Bytes)

def startAtEnd (file : File) : Tail := ⟨(read file).length, .new, false⟩

/-- A file shorter than the last offset means a new session. -/
def restartIfShorter (t : Tail) (len : Nat) : Tail :=
  let t := { t with warnedMissing := false }
  if len < t.offset then { t with offset := 0, scanner := t.scanner.reset } else t

/-- Reads what was appended since the last poll; opening, seeking and reading may fail. -/
def poll (t : Tail) (file : File) (readable : Bool) : List TradeEvent × Tail :=
  match file with
  | none => ([], { offset := 0, scanner := t.scanner.reset, warnedMissing := true })
  | some content =>
    let t := t.restartIfShorter content.length
    if content.length = t.offset then ([], t)
    else if !readable then ([], t)
    else
      let bytes := (content.drop t.offset).take (content.length - t.offset)
      let (events, scanner) := t.scanner.feed sha256 bytes
      (events, { t with offset := t.offset + bytes.length, scanner := scanner })

/-- The chunk that a poll feeds to the scanner, if any. -/
def chunks (t : Tail) (file : File) : List Bytes :=
  match file with
  | none => []
  | some content =>
    let t := t.restartIfShorter content.length
    if content.length = t.offset then [] else [content.drop t.offset]

variable {t : Tail} {file : File} {content : Bytes}

theorem restartIfShorter_of_ge {len : Nat} (h : t.offset ≤ len) :
    t.restartIfShorter len = { t with warnedMissing := false } := by
  rw [restartIfShorter]
  exact if_neg (Nat.not_lt.mpr h)

theorem restartIfShorter_of_lt {len : Nat} (h : len < t.offset) : t.restartIfShorter len = ⟨0, .new, false⟩ := by
  rw [restartIfShorter]
  exact if_pos h

theorem restartIfShorter_offset (len : Nat) : (t.restartIfShorter len).offset ≤ len := by
  rcases Nat.lt_or_ge len t.offset with hlt | hge
  · rw [restartIfShorter_of_lt hlt]
    exact Nat.zero_le _
  · rw [restartIfShorter_of_ge hge]
    exact hge

theorem feedAll_single (s : Scanner) (chunk : Bytes) : s.feedAll sha256 [chunk] = s.feed sha256 chunk := by
  simp only [Scanner.feedAll, List.append_nil, Prod.mk.eta]

/-- A poll that can read feeds the rest of the file, once, and ends at its end. -/
theorem poll_some (t : Tail) (content : Bytes) :
    t.poll sha256 (some content) true =
      let fed := (t.restartIfShorter content.length).scanner.feedAll sha256 (t.chunks (some content))
      (fed.1, ⟨content.length, fed.2, false⟩) := by
  have hoffset : (t.restartIfShorter content.length).offset ≤ content.length := restartIfShorter_offset _
  have hwarned : (t.restartIfShorter content.length).warnedMissing = false := by
    rw [restartIfShorter]
    split <;> rfl
  have hall : (content.drop (t.restartIfShorter content.length).offset).take
      (content.length - (t.restartIfShorter content.length).offset) =
      content.drop (t.restartIfShorter content.length).offset :=
    List.take_of_length_le (by rw [List.length_drop])
  generalize hseen : t.restartIfShorter content.length = seen at *
  rw [poll, chunks]
  simp only [hseen]
  by_cases hend : content.length = seen.offset
  · rw [if_pos hend, if_pos hend, hend, ← hwarned]
    rfl
  · rw [if_neg hend, if_neg hend, feedAll_single, hall, List.length_drop, Nat.add_sub_cancel' hoffset, hwarned]
    rfl

/-- A poll that cannot read loses nothing: the next one does what this one would have done. -/
theorem poll_again (t : Tail) (file : File) :
    (t.poll sha256 file false).2.poll sha256 file true = t.poll sha256 file true := by
  cases file with
  | none => rfl
  | some content =>
      have hunread : (t.poll sha256 (some content) false).2 = t.restartIfShorter content.length := by
        simp only [poll, Bool.not_false, if_true, ite_self]
      have hidem : (t.restartIfShorter content.length).restartIfShorter content.length =
          t.restartIfShorter content.length := by
        rw [restartIfShorter_of_ge (restartIfShorter_offset _)]
        rcases Nat.lt_or_ge content.length t.offset with hlt | hge
        · rw [restartIfShorter_of_lt hlt]
        · rw [restartIfShorter_of_ge hge]
      rw [hunread, poll_some, poll_some, chunks, chunks, hidem]

end Tail

/-! ### Sessions -/

/-- What befalls the log between two polls. A new session truncates or replaces it, and what is then there may also be
longer than what was read. -/
inductive Change where
  | appended (bytes : Bytes)
  | deleted
  | restarted (content : Bytes)

namespace Change

def apply (file : File) : Change → File
  | .appended bytes => some (read file ++ bytes)
  | .deleted => none
  | .restarted content => some content

/-- Appending to a log that is not there creates it. -/
def newSession (file : File) : Change → Bool
  | .appended _ => file.isNone
  | .deleted => true
  | .restarted _ => true

end Change

/-- The tail with the session it follows: where the tail began in it, the chunks fed of it and the trades reported. -/
structure Watch where
  file : File
  start : Nat
  tail : Tail
  fed : List Bytes
  reported : List TradeEvent

namespace Watch

variable (sha256 : Bytes → Bytes)

def begin (file : File) : Watch := ⟨file, (read file).length, .startAtEnd file, [], []⟩

/-- The log changes and is polled. -/
def step (w : Watch) (change : Change) : Watch :=
  let file := change.apply w.file
  let old := if change.newSession w.file then { w with start := 0, fed := [], reported := [] } else w
  let (events, tail) := w.tail.poll sha256 file true
  { file := file
    start := old.start
    tail := tail
    fed := old.fed ++ w.tail.chunks file
    reported := old.reported ++ events }

def run (w : Watch) (history : List Change) : Watch := history.foldl (step sha256) w

/-- Every byte of the session is fed once and in order, and the trades are those that a scanner finds in these bytes
alone. -/
structure Faithful (w : Watch) : Prop where
  fed : w.fed.flatten = (read w.file).drop w.start
  own : Scanner.new.feedAll sha256 w.fed = (w.reported, w.tail.scanner)

end Watch

/-- A new session is seen when its file is shorter than the last one was, or the last one had nothing in it. -/
def Change.Seen (file : File) : Change → Prop
  | .restarted content => read file = [] ∨ content.length < (read file).length
  | _ => True

def AllSeen (file : File) : List Change → Prop
  | [] => True
  | change :: history => change.Seen file ∧ AllSeen (change.apply file) history

namespace Watch

variable {sha256 : Bytes → Bytes} {w : Watch} {change : Change}

/-- Faithful, and the tail has read to the end. -/
structure Settled (sha256 : Bytes → Bytes) (w : Watch) : Prop extends Faithful sha256 w where
  offset : w.tail.offset = (read w.file).length
  start : w.start ≤ (read w.file).length

theorem settled_begin (file : File) : (begin file).Settled sha256 where
  fed := List.drop_length.symm
  own := rfl
  offset := rfl
  start := Nat.le_refl _

theorem feedAll_append (s : Scanner) (before after : List Bytes) :
    s.feedAll sha256 (before ++ after) =
      ((s.feedAll sha256 before).1 ++ ((s.feedAll sha256 before).2.feedAll sha256 after).1,
        ((s.feedAll sha256 before).2.feedAll sha256 after).2) := by
  induction before generalizing s with
  | nil => rfl
  | cons chunk before ih =>
      rw [List.cons_append, Scanner.feedAll, Scanner.feedAll]
      simp only [ih, List.append_assoc]

theorem feed_nil : Scanner.new.feed sha256 [] = ([], .new) := rfl

theorem feedAll_empty {chunks : List Bytes} (h : chunks.flatten = []) :
    Scanner.new.feedAll sha256 chunks = ([], .new) := by
  induction chunks with
  | nil => rfl
  | cons chunk chunks ih =>
      obtain ⟨hchunk, hrest⟩ := List.append_eq_nil_iff.mp h
      rw [Scanner.feedAll, hchunk, feed_nil]
      simp only [ih hrest, List.append_nil]

/-- Nothing of an empty log is in the scanner. -/
theorem Settled.scanner_of_empty (h : w.Settled sha256) (hempty : read w.file = []) : w.tail.scanner = .new := by
  have hfed : w.fed.flatten = [] := by rw [h.fed, hempty, List.drop_nil]
  have hown := h.own
  rw [feedAll_empty hfed] at hown
  exact (congrArg Prod.snd hown).symm

/-- A poll that finds a log feeds what is left of it. -/
theorem flatten_chunks (t : Tail) (content : Bytes) :
    (t.chunks (some content)).flatten = content.drop (t.restartIfShorter content.length).offset := by
  rw [Tail.chunks]
  split
  · next hend => rw [← hend, List.drop_length, List.flatten_nil]
  · rw [List.flatten_cons, List.flatten_nil, List.append_nil]

/-- A session that the tail meets at offset 0 with nothing in the scanner. -/
theorem settled_of_new {content : Bytes} (hfile : change.apply w.file = some content)
    (hnew : change.newSession w.file = true) (hoffset : (w.tail.restartIfShorter content.length).offset = 0)
    (hscanner : (w.tail.restartIfShorter content.length).scanner = .new) : (w.step sha256 change).Settled sha256 := by
  have hpoll := Tail.poll_some sha256 w.tail content
  rw [hscanner] at hpoll
  have hchunks := flatten_chunks w.tail content
  rw [hoffset, List.drop_zero] at hchunks
  rw [Watch.step, hfile, hpoll, hnew]
  exact
    { fed := hchunks
      own := rfl
      offset := rfl
      start := Nat.zero_le _ }

/-- A log that grows is read on. -/
theorem Settled.appended (h : w.Settled sha256) (bytes : Bytes) : (w.step sha256 (.appended bytes)).Settled sha256 := by
  have hge : w.tail.offset ≤ (read w.file ++ bytes).length := by
    rw [h.offset, List.length_append]
    exact Nat.le_add_right _ _
  have hseen := Tail.restartIfShorter_of_ge hge
  cases hfile : w.file with
  | none =>
      have hempty : read w.file = [] := by rw [hfile]; rfl
      refine settled_of_new rfl (by rw [Change.newSession, hfile]; rfl) ?_ ?_
      · rw [hseen]
        exact h.offset.trans (congrArg List.length hempty)
      · rw [hseen]
        exact h.scanner_of_empty hempty
  | some content =>
      have hread : read w.file = content := by rw [hfile]; rfl
      have hchunks := flatten_chunks w.tail (content ++ bytes)
      rw [hread] at hseen
      rw [hseen] at hchunks
      have hoffset := h.offset
      rw [hread] at hoffset
      have hold := h.fed
      have hstart := h.start
      rw [hread] at hold hstart
      have hpoll := Tail.poll_some sha256 w.tail (content ++ bytes)
      rw [hseen] at hpoll
      have happly : Change.apply w.file (.appended bytes) = some (content ++ bytes) := by rw [Change.apply, hread]
      have hsame : Change.newSession w.file (.appended bytes) = false := by rw [Change.newSession, hfile]; rfl
      rw [Watch.step, happly, hpoll, hsame]
      refine
        { fed := ?_
          own := ?_
          offset := rfl
          start := ?_ }
      · change (w.fed ++ w.tail.chunks (some (content ++ bytes))).flatten = (content ++ bytes).drop w.start
        rw [List.flatten_append, hold, hchunks, hoffset, List.drop_left, List.drop_append_of_le_length hstart]
      · change Scanner.new.feedAll sha256 (w.fed ++ _) = _
        rw [feedAll_append, h.own]
        rfl
      · change w.start ≤ (content ++ bytes).length
        rw [List.length_append]
        exact Nat.le_add_right_of_le hstart

theorem Settled.deleted (_ : w.Settled sha256) : (w.step sha256 .deleted).Settled sha256 where
  fed := rfl
  own := rfl
  offset := rfl
  start := Nat.zero_le _

theorem Settled.restarted {content : Bytes} (h : w.Settled sha256) (hseen : Change.Seen w.file (.restarted content)) :
    (w.step sha256 (.restarted content)).Settled sha256 := by
  rcases Nat.lt_or_ge content.length w.tail.offset with hlt | hge
  · have hreset := Tail.restartIfShorter_of_lt hlt
    exact settled_of_new rfl rfl (by rw [hreset]) (by rw [hreset])
  · have hempty : read w.file = [] := hseen.resolve_right fun hlt => by
      rw [h.offset] at hge
      exact Nat.not_lt.mpr hge hlt
    have hkept := Tail.restartIfShorter_of_ge hge
    refine settled_of_new rfl rfl ?_ ?_
    · rw [hkept]
      exact h.offset.trans (congrArg List.length hempty)
    · rw [hkept]
      exact h.scanner_of_empty hempty

theorem Settled.step (h : w.Settled sha256) (hseen : change.Seen w.file) : (w.step sha256 change).Settled sha256 := by
  cases change with
  | appended bytes => exact h.appended bytes
  | deleted => exact h.deleted
  | restarted content => exact h.restarted hseen

/-- Of a session that is not seen, the first bytes are never fed. -/
theorem Settled.seen_of_faithful (h : w.Settled sha256) (hfaithful : (w.step sha256 change).Faithful sha256) :
    change.Seen w.file := by
  cases change with
  | appended bytes => trivial
  | deleted => trivial
  | restarted content =>
      by_contra hunseen
      obtain ⟨hread, hlonger⟩ := not_or.mp hunseen
      have hge : w.tail.offset ≤ content.length := by
        rw [h.offset]
        exact Nat.not_lt.mp hlonger
      have hchunks := flatten_chunks w.tail content
      rw [Tail.restartIfShorter_of_ge hge] at hchunks
      have hall : content.drop w.tail.offset = content := hchunks.symm.trans hfaithful.fed
      have hpos : 0 < w.tail.offset := by
        rw [h.offset]
        exact List.length_pos_iff.mpr hread
      have hlength := congrArg List.length hall
      rw [List.length_drop] at hlength
      omega

theorem Settled.run_faithful_iff (h : w.Settled sha256) (history : List Change) :
    (∀ before, before <+: history → (w.run sha256 before).Faithful sha256) ↔ AllSeen w.file history := by
  induction history generalizing w with
  | nil =>
      refine ⟨fun _ => trivial, fun _ before hbefore => ?_⟩
      rw [List.prefix_nil.mp hbefore]
      exact h.toFaithful
  | cons change history ih =>
      constructor
      · intro hall
        have hseen : change.Seen w.file :=
          h.seen_of_faithful (hall [change] (List.prefix_append [change] history))
        refine ⟨hseen, (ih (h.step hseen)).mp fun before hbefore => ?_⟩
        exact hall (change :: before) (List.cons_prefix_cons.mpr ⟨rfl, hbefore⟩)
      · rintro ⟨hseen, hrest⟩ before hbefore
        cases before with
        | nil => exact h.toFaithful
        | cons first before =>
            obtain ⟨rfl, hprefix⟩ := List.cons_prefix_cons.mp hbefore
            exact (ih (h.step hseen)).mpr hrest before hprefix

end Watch

/-- The tail keeps the sessions apart and misses nothing of them exactly in the histories in which every new session
is seen. -/
theorem tail_faithful_iff (sha256 : Bytes → Bytes) (file : File) (history : List Change) :
    (∀ before, before <+: history → ((Watch.begin file).run sha256 before).Faithful sha256) ↔ AllSeen file history :=
  (Watch.settled_begin file).run_faithful_iff history

/-- A session that ends in a dialog without an answer. -/
def askedLog : Bytes := Scanner.purchaseLog.take 320

/-- The log of the next session: as long, and then a success that answers no dialog of its own. -/
def answeredLog : Bytes := List.replicate 320 120 ++ Scanner.purchaseLog.drop 320

theorem tail_mixes_sessions :
    ((Watch.begin none).run Scanner.purchaseDigest [.appended askedLog, .restarted answeredLog]).reported.length = 1 ∧
      scanAll Scanner.purchaseDigest askedLog = [] ∧ scanAll Scanner.purchaseDigest answeredLog = [] ∧
      ¬ ((Watch.begin none).run Scanner.purchaseDigest [.appended askedLog, .restarted answeredLog]).Faithful
        Scanner.purchaseDigest := by
  refine ⟨by decide +kernel, by decide +kernel, by decide +kernel, fun h => ?_⟩
  exact absurd h.fed (by decide +kernel)

end Quantframe.Helper
