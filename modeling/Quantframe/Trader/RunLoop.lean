import Quantframe.Lib.Log
import Quantframe.Lib.Machine
import Quantframe.Lib.Search
import Quantframe.Trader.Lifecycle
import Quantframe.Utils.Error
import Quantframe.Utils.Objects

/-!
# The engine's loop

A loop runs cycles between readings of the `running` flag and of the market breaker. Whoever stops it clears the flag
from outside, at any moment: each reading is a step of its own, and so is a stop.
-/

namespace Quantframe.Trader.RunLoop

open Lib
open LogParser (Text)
open Utils (Error Json LogLevel getMember)

def maxConsecutiveFailures : Nat := 5

def unreachable : Text := "warframe.market unreachable".toList

def contains (text word : Text) : Bool := (search word text).isSome

/-- The property `type`, empty where there is none. -/
def typeOf (error : Error) : Text :=
  match (error.properties.bind Json.asObject).bind fun map => getMember map "type".toList with
  | some (.string type) => type
  | _ => []

def criticalTypes : List Text :=
  ["ParsingError".toList, "BadRequest".toList, "Unknown".toList, "InternalServerError".toList, "InvalidType".toList]

/-- These error types stop the trader; everything else is a warning. -/
def classify (error : Error) : LogLevel := if criticalTypes.contains (typeOf error) then .critical else .warning

/-- The gate's refusal, wherever its text was put. -/
def isMarketRefusal (jsonText : Json → Text) (error : Error) : Bool :=
  contains error.message unreachable || contains error.cause unreachable ||
    error.properties.any fun properties => contains (jsonText properties) unreachable

/-! ### The machine -/

structure Pauses where
  pause : Nat
  idlePause : Nat

/-- Where the loop stands, by what it does next. -/
inductive Point where
  /-- The flag is read. -/
  | top
  /-- The breaker is read before the cycle. -/
  | gate
  /-- The cycle runs. -/
  | cycle
  /-- The breaker is read before an error is classified. -/
  | guard (error : Error)
  /-- The breaker is read after the cycle. -/
  | settle (processed : Option Nat)
  /-- The failures are counted. -/
  | count (processed : Option Nat)
  /-- The pause goes on for so many nanoseconds. -/
  | sleep (left : Nat)
  | exit (how : EngineExit)

/-- What happens next, with what the outside answers. -/
inductive Event where
  /-- `running` is cleared from outside. -/
  | stop
  | readRunning
  | readBreaker (blocked : Bool)
  | result (r : Except Error Nat)
  | readFailures (failures : Nat)
  /-- The flag is read in the pause, and a slice of it slept unless the pause is over. -/
  | slice

structure Loop where
  point : Point
  running : Bool
  justStarted : Bool

def start : Loop := ⟨.top, true, true⟩

def Loop.leave (s : Loop) (how : EngineExit) : Loop := { s with point := .exit how, running := false }

def sliceNanos : Nat := 1000000000

def criticalMessage (error : Error) : String := String.ofList (error.component ++ ": ".toList ++ error.message)

def step (jsonText : Json → Text) (pauses : Pauses) : Machine Loop Event := fun s event =>
  match s.point, event with
  | _, .stop => some { s with running := false }
  | .top, .readRunning =>
      if s.running then some { s with point := .gate } else some { s with point := .exit .stopped }
  | .gate, .readBreaker blocked => if blocked then some (s.leave .marketBlocked) else some { s with point := .cycle }
  | .cycle, .result (.ok n) => some { s with point := .settle (some n) }
  | .cycle, .result (.error e) =>
      if isMarketRefusal jsonText e then some (s.leave .marketBlocked) else some { s with point := .guard e }
  | .guard e, .readBreaker blocked =>
      if blocked then some (s.leave .marketBlocked)
      else if classify e = .critical then some (s.leave (.critical (criticalMessage e)))
      else some { s with point := .settle none }
  | .settle processed, .readBreaker blocked =>
      if blocked then some (s.leave .marketBlocked) else some { s with point := .count processed }
  | .count processed, .readFailures failures =>
      if maxConsecutiveFailures ≤ failures then some (s.leave (.orderFailures failures))
      else some { s with point := .sleep (if processed = some 0 then pauses.idlePause else pauses.pause) }
  | .sleep left, .slice =>
      if left ≠ 0 ∧ s.running then some { s with point := .sleep (left - sliceNanos) }
      else some { s with point := .top, justStarted := false }
  | _, _ => none

/-! ### What an event does -/

/-- A reading that finds the breaker open or probing, or a cycle that the market refused. -/
def Event.blocks (jsonText : Json → Text) : Event → Bool
  | .readBreaker blocked => blocked
  | .result (.error e) => isMarketRefusal jsonText e
  | _ => false

/-- Between the end of a cycle and the next reading of the flag. -/
def Point.afterCycle : Point → Bool
  | .guard _ | .settle _ | .count _ | .sleep _ => true
  | _ => false

/-- An event that neither ends a cycle nor reads or clears the flag. -/
def Event.inner : Event → Bool
  | .readBreaker _ | .readFailures _ | .slice => true
  | _ => false

inductive Moves (jsonText : Json → Text) (s : Loop) : Event → Loop → Prop where
  | stop : Moves jsonText s .stop { s with running := false }
  | read : s.point = .top → s.running = true → Moves jsonText s .readRunning { s with point := .gate }
  | stopped : s.point = .top → s.running = false → Moves jsonText s .readRunning { s with point := .exit .stopped }
  | begin : s.point = .gate → Moves jsonText s (.readBreaker false) { s with point := .cycle }
  | answer {r : Except Error Nat} {next : Point} : s.point = .cycle → Event.blocks jsonText (.result r) = false →
      next.afterCycle = true → Moves jsonText s (.result r) { s with point := next }
  | pass {event : Event} {next : Point} : s.point.afterCycle = true → event.inner = true →
      event.blocks jsonText = false → next.afterCycle = true → Moves jsonText s event { s with point := next }
  | again : s.point.afterCycle = true → Moves jsonText s .slice { s with point := .top, justStarted := false }
  | blocked {event : Event} : (∀ how, s.point ≠ .exit how) → event.blocks jsonText = true →
      Moves jsonText s event (s.leave .marketBlocked)
  | failed {event : Event} {how : EngineExit} : (∀ how, s.point ≠ .exit how) → event.blocks jsonText = false →
      how ≠ .marketBlocked → Moves jsonText s event (s.leave how)

section Runs

variable {jsonText : Json → Text} {pauses : Pauses} {s t : Loop} {event : Event} {before : List Event}

/-- Wherever the market can block the loop, it leaves; otherwise it goes on. -/
theorem leaves_or_goes {blocked : Bool} {next : Option Loop}
    (h : (if blocked = true then some (s.leave .marketBlocked) else next) = some t) :
    (blocked = true ∧ t = s.leave .marketBlocked) ∨ (blocked = false ∧ next = some t) := by
  cases blocked with
  | false => exact .inr ⟨rfl, h⟩
  | true => exact .inl ⟨rfl, (Option.some.inj h).symm⟩

theorem moves_of_step (h : step jsonText pauses s event = some t) : Moves jsonText s event t := by
  obtain ⟨point, running, justStarted⟩ := s
  unfold step at h
  split at h
  · cases h
    exact .stop
  · next heq =>
      cases heq
      split at h
      · next hrunning =>
          cases h
          exact .read rfl hrunning
      · next hrunning =>
          cases h
          exact .stopped rfl (Bool.eq_false_iff.mpr hrunning)
  -- the breaker before the cycle
  · next heq =>
      cases heq
      obtain ⟨hblocked, rfl⟩ | ⟨rfl, h⟩ := leaves_or_goes h
      · exact .blocked (by simp) hblocked
      · cases h
        exact .begin rfl
  · next heq =>
      cases heq
      cases h
      exact .answer rfl rfl rfl
  · next heq =>
      cases heq
      obtain ⟨hrefused, rfl⟩ | ⟨hrefused, h⟩ := leaves_or_goes h
      · exact .blocked (by simp) hrefused
      · cases h
        exact .answer rfl hrefused rfl
  -- the breaker before an error is classified
  · next heq =>
      cases heq
      obtain ⟨hblocked, rfl⟩ | ⟨hblocked, h⟩ := leaves_or_goes h
      · exact .blocked (by simp) hblocked
      · split at h
        · cases h
          exact .failed (by simp) hblocked (by simp)
        · cases h
          exact .pass rfl rfl hblocked rfl
  -- and after it
  · next heq =>
      cases heq
      obtain ⟨hblocked, rfl⟩ | ⟨hblocked, h⟩ := leaves_or_goes h
      · exact .blocked (by simp) hblocked
      · cases h
        exact .pass rfl rfl hblocked rfl
  · next heq =>
      cases heq
      split at h
      · cases h
        exact .failed (by simp) rfl (by simp)
      · cases h
        exact .pass rfl rfl rfl rfl
  · next heq =>
      cases heq
      split at h
      · cases h
        exact .pass rfl rfl rfl rfl
      · cases h
        exact .again rfl
  · cases h

/-- No cycle has ended. -/
def NoResult (events : List Event) : Prop := ∀ r, .result r ∉ events

/-- The flag was still set when it was last read. -/
def FlagRead (events : List Event) : Prop :=
  ∃ earlier later, events = earlier ++ .readRunning :: later ∧ .stop ∉ earlier ∧ .readRunning ∉ later

/-- What the events so far have made of the point that the loop stands at. -/
def Stands (jsonText : Json → Text) (events : List Event) (s : Loop) : Prop :=
  match s.point with
  | .top => (s.justStarted = true ↔ NoResult events) ∧ ∀ e ∈ events, e.blocks jsonText = false
  | .gate | .cycle =>
      (s.justStarted = true ↔ NoResult events) ∧ FlagRead events ∧ ∀ e ∈ events, e.blocks jsonText = false
  | .exit how => s.running = false ∧ (how = .marketBlocked ↔ ∃ e ∈ events, e.blocks jsonText = true)
  | _ => ¬ NoResult events ∧ ∀ e ∈ events, e.blocks jsonText = false

structure History (jsonText : Json → Text) (events : List Event) (s : Loop) : Prop where
  flag : s.running = true → .stop ∉ events
  stands : Stands jsonText events s

theorem stands_of_afterCycle (h : s.point.afterCycle = true) : Stands jsonText before s ↔
    ¬ NoResult before ∧ ∀ e ∈ before, e.blocks jsonText = false := by
  obtain ⟨point, running, justStarted⟩ := s
  cases point with
  | top | gate | cycle | exit how => cases h
  | guard error | settle processed | count processed | sleep left => exact Iff.rfl

/-- Nothing has blocked a loop that goes on. -/
theorem History.going (h : History jsonText before s) (hgoing : ∀ how, s.point ≠ .exit how) :
    ∀ e ∈ before, e.blocks jsonText = false := by
  obtain ⟨point, running, justStarted⟩ := s
  have hstands := h.stands
  cases point with
  | top => exact hstands.2
  | gate | cycle => exact hstands.2.2
  | exit how => exact absurd rfl (hgoing how)
  | guard error | settle processed | count processed | sleep left => exact hstands.2

theorem noResult_concat (h : ∀ r, event ≠ .result r) : NoResult (before ++ [event]) ↔ NoResult before := by
  refine forall_congr' fun r => not_congr ?_
  rw [List.mem_append, List.mem_singleton]
  exact or_iff_left fun heq => h r heq.symm

theorem not_noResult_concat (before : List Event) (r : Except Error Nat) : ¬ NoResult (before ++ [.result r]) :=
  fun h => h r (List.mem_append_right _ (List.mem_singleton_self _))

theorem FlagRead.concat (h : FlagRead before) (hevent : event ≠ .readRunning) : FlagRead (before ++ [event]) := by
  obtain ⟨earlier, later, rfl, hstop, hread⟩ := h
  refine ⟨earlier, later ++ [event], by rw [List.append_assoc, List.cons_append], hstop, ?_⟩
  rw [List.mem_append, List.mem_singleton, not_or]
  exact ⟨hread, hevent.symm⟩

/-- A stop changes nothing but the flag. -/
theorem History.stop (h : History jsonText before s) :
    History jsonText (before ++ [.stop]) { s with running := false } := by
  have hresult : NoResult (before ++ [.stop]) ↔ NoResult before := noResult_concat (by simp)
  have hblocks (hall : ∀ e ∈ before, e.blocks jsonText = false) : ∀ e ∈ before ++ [.stop], e.blocks jsonText = false :=
    forall_concat hall rfl
  obtain ⟨point, running, justStarted⟩ := s
  refine ⟨fun hrunning => absurd hrunning Bool.false_ne_true, ?_⟩
  have hstands := h.stands
  cases point with
  | top => exact ⟨hstands.1.trans hresult.symm, hblocks hstands.2⟩
  | gate | cycle =>
      exact ⟨hstands.1.trans hresult.symm, hstands.2.1.concat (by simp), hblocks hstands.2.2⟩
  | exit how =>
      refine ⟨rfl, hstands.2.trans ?_⟩
      simp [Event.blocks]
  | guard error | settle processed | count processed | sleep left =>
      exact ⟨fun hno => hstands.1 (hresult.mp hno), hblocks hstands.2⟩

theorem stop_concat (h : .stop ∉ before) (hevent : event ≠ .stop) : .stop ∉ before ++ [event] := by
  rw [List.mem_append, List.mem_singleton, not_or]
  exact ⟨h, hevent.symm⟩

theorem blocks_of_concat (h : ∀ e ∈ before, e.blocks jsonText = false) (hevent : event.blocks jsonText = false) :
    ¬ ∃ e ∈ before ++ [event], e.blocks jsonText = true := by
  rintro ⟨e, he, hblocks⟩
  rw [forall_concat (P := fun e => e.blocks jsonText = false) h hevent e he] at hblocks
  cases hblocks

/-- Each step keeps the history. -/
theorem History.concat (h : History jsonText before s) (hmove : Moves jsonText s event t) :
    History jsonText (before ++ [event]) t := by
  obtain ⟨point, running, justStarted⟩ := s
  have hstands := h.stands
  cases hmove with
  | stop => exact h.stop
  | read hpoint hrunning =>
      cases hpoint
      refine ⟨fun hset => stop_concat (h.flag hset) (by simp), ?_, ?_, ?_⟩
      · exact hstands.1.trans (noResult_concat (by simp)).symm
      · exact ⟨before, [], rfl, h.flag hrunning, List.not_mem_nil⟩
      · exact forall_concat hstands.2 rfl
  | stopped hpoint hrunning =>
      cases hpoint
      refine ⟨fun hset => stop_concat (h.flag hset) (by simp), hrunning, ?_⟩
      exact iff_of_false (by simp) (blocks_of_concat hstands.2 rfl)
  | begin hpoint =>
      cases hpoint
      refine ⟨fun hset => stop_concat (h.flag hset) (by simp), ?_, ?_, ?_⟩
      · exact hstands.1.trans (noResult_concat (by simp)).symm
      · exact hstands.2.1.concat (by simp)
      · exact forall_concat hstands.2.2 rfl
  | @answer r next hpoint hblocks hnext =>
      cases hpoint
      refine ⟨fun hset => stop_concat (h.flag hset) (by simp), (stands_of_afterCycle hnext).mpr ⟨?_, ?_⟩⟩
      · exact not_noResult_concat before r
      · exact forall_concat hstands.2.2 hblocks
  | pass hpoint hinner hblocks hnext =>
      obtain ⟨hresult, hnone⟩ := (stands_of_afterCycle hpoint).mp hstands
      have hevent : event ≠ .stop ∧ ∀ r, event ≠ .result r := by
        constructor
        · rintro rfl
          cases hinner
        · rintro r rfl
          cases hinner
      refine ⟨fun hset => stop_concat (h.flag hset) hevent.1, (stands_of_afterCycle hnext).mpr ⟨fun hno => ?_, ?_⟩⟩
      · exact hresult ((noResult_concat hevent.2).mp hno)
      · exact forall_concat hnone hblocks
  | again hpoint =>
      obtain ⟨hresult, hnone⟩ := (stands_of_afterCycle hpoint).mp hstands
      refine ⟨fun hset => stop_concat (h.flag hset) (by simp), iff_of_false Bool.false_ne_true fun hno => ?_, ?_⟩
      · exact hresult ((noResult_concat (by simp)).mp hno)
      · exact forall_concat hnone rfl
  | blocked hgoing hblocks =>
      refine ⟨fun hset => absurd hset Bool.false_ne_true, rfl, iff_of_true rfl ⟨event, ?_, hblocks⟩⟩
      exact List.mem_append_right _ (List.mem_singleton_self _)
  | failed hgoing hblocks hhow =>
      refine ⟨fun hset => absurd hset Bool.false_ne_true, rfl, iff_of_false hhow ?_⟩
      exact blocks_of_concat (h.going hgoing) hblocks

theorem history_start : History jsonText [] start where
  flag _ := List.not_mem_nil
  stands := ⟨iff_of_true rfl fun _ => List.not_mem_nil, fun _ he => absurd he List.not_mem_nil⟩

theorem history_of_trace {events : List Event} (h : Trace (step jsonText pauses) start events s) :
    History jsonText events s := by
  have hrun : History jsonText ([] ++ events) s :=
    h.history (fun before s event t hs ht => hs.concat (moves_of_step ht)) history_start
  rwa [List.nil_append] at hrun

/-- How the loop reports a blocked market, when its first cycle runs and when none starts. -/
structure Reports (jsonText : Json → Text) (events : List Event) (s : Loop) : Prop where
  exits : ∀ how, s.point = .exit how →
    s.running = false ∧ (how = .marketBlocked ↔ ∃ e ∈ events, e.blocks jsonText = true)
  justStarted : s.point = .cycle → (s.justStarted = true ↔ NoResult events)
  starts : s.point = .cycle → FlagRead events ∧ ∀ e ∈ events, e.blocks jsonText = false

theorem exit_of_blocks (h : step jsonText pauses s event = some t) (hblocks : event.blocks jsonText = true) :
    t.point = .exit .marketBlocked := by
  cases moves_of_step h with
  | blocked _ _ => rfl
  | stop | read _ _ | stopped _ _ | begin _ | again _ => cases hblocks
  | answer _ hnot _ | pass _ _ hnot _ | failed _ hnot _ =>
      rw [hblocks] at hnot
      cases hnot

/-- In every run a return is by a blocked market exactly when a reading was blocked or a cycle was refused, which ends
the loop at once; and a cycle starts only if the flag was set when the loop last read it. -/
theorem runLoop_reports (jsonText : Json → Text) (pauses : Pauses) (events : List Event) (s : Loop)
    (h : Trace (step jsonText pauses) start events s) :
    Reports jsonText events s ∧ ∀ event t, event.blocks jsonText = true → step jsonText pauses s event = some t →
      t.point = .exit .marketBlocked := by
  have hhistory := history_of_trace h
  obtain ⟨point, running, justStarted⟩ := s
  refine ⟨⟨?_, ?_, ?_⟩, fun event t hblocks hstep => exit_of_blocks hstep hblocks⟩
  · rintro how rfl
    exact hhistory.stands
  · rintro rfl
    exact hhistory.stands.1
  · rintro rfl
    exact hhistory.stands.2

end Runs

def refusal : Error where
  component := "WFMClient".toList
  message := "warframe.market unreachable: breaker open until 14:05 UTC".toList
  cause := []
  logLevel := .error
  properties := some (.object [("type".toList, .string "ParsingError".toList)])
  location := none

def oneSecond : Pauses := ⟨1000000000, 30000000000⟩

/-- An error that would be critical, but for the refusal in its message. -/
theorem runLoop_reports_refusal :
    Reports (fun _ => []) [.readRunning, .readBreaker false, .result (.error refusal)] (start.leave .marketBlocked) :=
  (runLoop_reports (fun _ => []) oneSecond [.readRunning, .readBreaker false, .result (.error refusal)]
    (start.leave .marketBlocked) (.cons rfl (.cons rfl (.cons rfl (.nil _))))).1

/-- A stop between the reading of the flag and the cycle comes too late for it. -/
theorem cycle_starts_after_stop :
    ∃ s t, Trace (step (fun _ => []) oneSecond) start [.readRunning, .stop] s ∧ s.running = false ∧
      step (fun _ => []) oneSecond s (.readBreaker false) = some t ∧ t.point = .cycle :=
  ⟨⟨.gate, false, true⟩, ⟨.cycle, false, true⟩, .cons rfl (.cons rfl (.nil _)), rfl, rfl, rfl⟩

end Quantframe.Trader.RunLoop
