import Quantframe.Trades.AtMostOnce

/-!
# Status, reason and alert of a row

`set_status` writes the status of a row together with its reason; the sweep relabels and marks the
rows it has read earlier by their id alone. A relabelling that comes after the row has been settled
overwrites the reason of a finished event.
-/

namespace Quantframe.Trades
open Quantframe.Lib

/-- An applied event has no reason, an ignored one has been reviewed. -/
def HelperEvent.Consistent (e : HelperEvent) : Prop :=
  (e.status = .applied → e.reason = none) ∧ (e.status = .ignored → e.reason = some reviewed)

instance (e : HelperEvent) : Decidable e.Consistent := inferInstanceAs (Decidable (_ ∧ _))

theorem HelperEvent.consistent_of_needsReview {e : HelperEvent} (h : e.status = .needsReview) :
    e.Consistent := by
  refine ⟨fun ha => ?_, fun hi => ?_⟩
  · cases h.symm.trans ha
  · cases h.symm.trans hi

namespace HelperEvents

variable {t t' : HelperEvents}

def Consistent (t : HelperEvents) : Prop := ∀ e ∈ t.rows, e.Consistent

def Alerted (t : HelperEvents) (id : String) : Prop := ∃ e, t.get id = some e ∧ e.alertedAt.isSome = true

theorem consistent_empty : empty.Consistent := fun _ h => absurd h List.not_mem_nil

theorem Consistent.insert {e : HelperEvent} {h : t.get e.eventId = none} (ht : t.Consistent)
    (he : e.Consistent) : (t.insert e h).Consistent := by
  intro e' he'
  rcases List.mem_append.mp he' with hold | hnew
  · exact ht e' hold
  · cases List.mem_singleton.mp hnew
    exact he

theorem Consistent.update {id : String} {f : HelperEvent → HelperEvent}
    {hf : ∀ e, (f e).eventId = e.eventId} (ht : t.Consistent)
    (h : ∀ e ∈ t.rows, e.eventId = id → (f e).Consistent) : (t.update id f hf).Consistent := by
  intro e' he'
  obtain ⟨e, he, rfl⟩ := List.mem_map.mp he'
  split
  · next hid => exact h e he (beq_iff_eq.mp hid)
  · exact ht e he

theorem get_mem {id : String} {e : HelperEvent} (h : t.get id = some e) : e ∈ t.rows := List.mem_of_find?_eq_some h

theorem get_of_mem {e : HelperEvent} (h : e ∈ t.rows) : t.get e.eventId = some e := by
  cases hget : t.get e.eventId with
  | none => exact absurd (List.mem_map_of_mem h) (get_eq_none.mp hget)
  | some e' =>
      have hids := List.inj_on_of_nodup_map t.primaryKey (get_mem hget) h (get_eventId hget)
      rw [hids]

/-- The rows due for an alert are distinct rows of the table that have not been alerted. -/
theorem needingAlert_spec (t : HelperEvents) (stuckBefore : Timestamp) :
    ((t.needingAlert stuckBefore).map HelperEvent.eventId).Nodup ∧
      ∀ e ∈ t.needingAlert stuckBefore, t.has e.eventId = true ∧ ¬t.Alerted e.eventId := by
  have hperm := List.mergeSort_perm (t.rows.filter fun e =>
    e.status == .needsReview && e.alertedAt.isNone &&
      e.reason.any fun reason =>
        like "apply_failed:".toList reason.toList ||
          (reason == applying && decide (e.receivedAt ≤ stuckBefore)))
    fun a b => decide (a.receivedAt ≤ b.receivedAt)
  constructor
  · exact (hperm.map _).nodup_iff.mpr (t.primaryKey.sublist (List.filter_sublist.map _))
  · intro e he
    obtain ⟨hrow, hdue⟩ := List.mem_filter.mp (hperm.mem_iff.mp he)
    have hget := get_of_mem hrow
    rw [Bool.and_eq_true, Bool.and_eq_true] at hdue
    refine ⟨by rw [has, hget]; rfl, ?_⟩
    rintro ⟨e', he', hsome⟩
    cases hget.symm.trans he'
    rw [Option.isNone_iff_eq_none.mp hdue.1.2] at hsome
    cases hsome

theorem Alerted.update {id id' : String} {f : HelperEvent → HelperEvent}
    {hf : ∀ e, (f e).eventId = e.eventId} (ht : t.Alerted id)
    (h : ∀ e, e.alertedAt.isSome = true → (f e).alertedAt.isSome = true) : (t.update id' f hf).Alerted id := by
  obtain ⟨e, he, hsome⟩ := ht
  rw [Alerted, get_update]
  split
  · exact ⟨f e, by rw [he, Option.map_some], h e hsome⟩
  · exact ⟨e, he, hsome⟩

end HelperEvents

/-! ### What a step does to the reason and to the alert -/

/-- Steps that keep status and reason together and raise no alert. -/
def Op.books : Op → Bool
  | .insert event => event.status == .needsReview
  | .setStatus _ .applied reason _ _ => reason == none
  | .setStatus _ .ignored reason _ _ => reason == some reviewed
  | .needingAlert _ | .markAlerted .. | .setReason .. | .alert _ => false
  | _ => true

def Op.alerts (id : String) : Op → Bool
  | .alert event => event.eventId == id
  | _ => false

theorem Op.books_of_looksUp {o : Op} (h : o.looksUp = true) : o.books = true := by
  cases o with
  | foldSets | price => rfl
  | _ => cases h

theorem Op.alerts_of_books {o : Op} (h : o.books = true) (id : String) : o.alerts id = false := by
  cases o with
  | alert => cases h
  | _ => rfl

def Op.marksAlerted : Op → Bool
  | .markAlerted .. => true
  | _ => false

/-- The step relabels a row that is no longer in review. -/
def Op.late (t : HelperEvents) : Op → Bool
  | .setReason id _ => (t.statusOf id).any (· != .needsReview)
  | _ => false

section Answer

variable {t t' : HelperEvents} {choice : Choice} {o : Op} {r : Reply o}

theorem answer_consistent (h : answer o choice t = some (r, t')) (ho : o.books = true)
    (ht : t.Consistent) : t'.Consistent := by
  cases o with
  | needingAlert | markAlerted | setReason | alert => cases ho
  | insert event =>
      cases choice with
      | works =>
          simp only [answer] at h
          split at h
          · cases h
            exact ht.insert (HelperEvent.consistent_of_needsReview (beq_iff_eq.mp ho))
          · cases h
            exact ht
      | fails | items => cases h <;> exact ht
  | setStatus id status reason resolution reviewedAt =>
      cases choice with
      | works =>
          cases h
          refine ht.update fun e _ _ => ?_
          cases status with
          | applied => exact ⟨fun _ => beq_iff_eq.mp ho, fun h => by cases h⟩
          | needsReview => exact HelperEvent.consistent_of_needsReview rfl
          | ignored => exact ⟨(fun h => by cases h), fun _ => beq_iff_eq.mp ho⟩
      | fails | items => cases h <;> exact ht
  | _ => cases choice <;> cases h <;> exact ht

/-- A mark stays, whatever is written to the row afterwards. -/
theorem answer_alerted (h : answer o choice t = some (r, t')) {id : String} (ht : t.Alerted id) :
    t'.Alerted id := by
  cases o with
  | insert event =>
      cases choice with
      | works =>
          simp only [answer] at h
          split at h
          · next hnone =>
              cases h
              obtain ⟨e, he, hsome⟩ := ht
              refine ⟨e, ?_, hsome⟩
              rw [HelperEvents.get_insert, if_neg ?_]
              · exact he
              · rintro rfl
                cases hnone.symm.trans he
          · cases h
            exact ht
      | fails | items => cases h <;> exact ht
  | setStatus | setReason =>
      cases choice with
      | works =>
          cases h
          exact ht.update fun _ hsome => hsome
      | fails | items => cases h <;> exact ht
  | markAlerted =>
      cases choice with
      | works =>
          cases h
          exact ht.update fun _ _ => rfl
      | fails | items => cases h <;> exact ht
  | _ => cases choice <;> cases h <;> exact ht

/-- Steps of the sweep other than the relabelling leave status and reason alone. -/
theorem answer_marks {id : String} {at_ : DateTime} {r : Reply (.markAlerted id at_)}
    (h : answer (.markAlerted id at_) choice t = some (r, t')) (ht : t.Consistent) : t'.Consistent := by
  cases choice with
  | works =>
      cases h
      exact ht.update fun e he _ => ht e he
  | fails | items => cases h <;> exact ht

theorem answer_marked {id : String} {at_ : DateTime} {r : Reply (.markAlerted id at_)}
    (h : answer (.markAlerted id at_) .works t = some (r, t')) (hid : t.has id = true) : t'.Alerted id := by
  cases h
  obtain ⟨e, he⟩ := Option.isSome_iff_exists.mp hid
  exact ⟨_, by rw [HelperEvents.get_update, if_pos rfl, he, Option.map_some], rfl⟩

theorem late_eq_false {id reason : String} (h : Op.late t (.setReason id reason) = false) {e : HelperEvent}
    (he : e ∈ t.rows) (hid : e.eventId = id) : e.status = .needsReview := by
  have hstatus : t.statusOf id = some e.status := by
    rw [← hid, HelperEvents.statusOf, HelperEvents.get_of_mem he]
    rfl
  rw [Op.late, hstatus, Option.any_some, bne_eq_false_iff_eq] at h
  exact h

/-- Relabelling keeps the rows consistent exactly when the row is still in review. -/
theorem answer_relabels {id : String} {b : Except Error Bool} (ht : t.Consistent)
    (h : answer (.setReason id applyInterrupted) .works t = some (b, t')) :
    t'.Consistent ↔ Op.late t (.setReason id applyInterrupted) = false := by
  cases h
  constructor
  · intro hc
    rw [Bool.eq_false_iff]
    intro hlate
    obtain ⟨status, hstatus, hne⟩ := (Option.any_eq_true ..).mp hlate
    obtain ⟨e, he, rfl⟩ := Option.map_eq_some_iff.mp hstatus
    have hmem : { e with reason := some applyInterrupted } ∈
        (t.update id (fun e => { e with reason := some applyInterrupted }) fun _ => rfl).rows := by
      have hget : (t.update id (fun e => { e with reason := some applyInterrupted }) fun _ => rfl).get id =
          some { e with reason := some applyInterrupted } := by
        rw [HelperEvents.get_update, if_pos rfl, he, Option.map_some]
      exact HelperEvents.get_mem hget
    have hrow := hc _ hmem
    cases hs : e.status with
    | needsReview => exact bne_iff_ne.mp hne hs
    | applied => cases hrow.1 hs
    | ignored => exact absurd (Option.some.inj (hrow.2 hs)) (by decide)
  · intro hlate
    refine ht.update ?_
    intro e he hid
    have hreview := late_eq_false hlate he hid
    exact HelperEvent.consistent_of_needsReview hreview

end Answer

/-! ### How far a sweep has come -/

def Call.isSweep : Call → Bool
  | .sweepAlerts _ => true
  | _ => false

/-- Where a call stands with the rows it has read; only a sweep leaves `idle`. -/
inductive Sweep where
  | idle
  /-- The rows still to alert on. -/
  | due (events : List HelperEvent)
  /-- The alert is out and not marked. -/
  | alerted (id : String) (events : List HelperEvent)

inductive Sweep.Moves (call : Call) : Sweep → (o : Op) → Reply o → Sweep → Prop
  | books {o r} (ho : o.books = true) : Moves call .idle o r .idle
  | selected {stuckBefore events} (hc : call.isSweep = true) :
      Moves call .idle (.needingAlert stuckBefore) (.ok events) (.due events)
  | notSelected {stuckBefore error} : Moves call .idle (.needingAlert stuckBefore) (.error error) .idle
  | relabels {event events r} :
      Moves call (.due (event :: events)) (.setReason event.eventId applyInterrupted) r (.due (event :: events))
  | alerts {event event' events r} (hid : event'.eventId = event.eventId) :
      Moves call (.due (event :: events)) (.alert event') r (.alerted event.eventId events)
  | marked {id at_ events b} : Moves call (.alerted id events) (.markAlerted id at_) (.ok b) (.due events)
  | notMarked {id at_ events error} :
      Moves call (.alerted id events) (.markAlerted id at_) (.error error) .idle

/-- A call does not return between an alert and its mark. -/
def Sweep.Settled {α : Type} (q : Sweep) (_ : α) : Prop := ∀ id events, q ≠ .alerted id events

def Sweep.protocol (call : Call) : Protocol Op Reply Sweep where
  replies _ _ := True
  moves := Sweep.Moves call

section Follows

variable {call : Call} {α : Type}

theorem Sweep.settled_idle {a : α} : Sweep.Settled .idle a := fun _ _ => nofun

theorem Sweep.settled_due {events : List HelperEvent} {a : α} : Sweep.Settled (.due events) a := fun _ _ => nofun

/-- The program keeps to the steps of the other calls. -/
abbrev Books (call : Call) (p : Steps α) : Prop := p.Follows (Sweep.protocol call) (fun q _ => q = .idle) .idle

theorem books_op {o : Op} {next : Reply o → Steps α} (ho : o.books = true) (hnext : ∀ r, Books call (next r)) :
    Books call (Prog.op o next) := fun r _ => ⟨.idle, .books ho, hnext r⟩

theorem Books.bind {β : Type} {p : Steps α} {f : α → Steps β} (hp : Books call p) (hf : ∀ a, Books call (f a)) :
    Books call (p >>= f) := by
  refine Prog.Follows.bind (hp.mono ?_)
  rintro _ a rfl
  exact hf a

theorem Books.bindE {β : Type} {p : Handler α} {f : α → Handler β} (hp : Books call p.run)
    (hf : ∀ a, Books call (f a).run) : Books call (p >>= f).run := by
  refine Books.bind hp fun r => ?_
  cases r with
  | ok a => exact hf a
  | error _ => rfl

theorem applyItems_books (direction : Direction) (items : List ResolvedItem) (player : String)
    (at_ : Timestamp) (completed : List String) :
    Books call (applyItems direction items player at_ completed) := by
  induction items generalizing completed with
  | nil => rfl
  | cons item items ih =>
      refine books_op rfl fun r => ?_
      cases r with
      | error error => rfl
      | ok _ => exact ih _

theorem applyAndRecord_books (event : HelperEvent) (direction : Direction) (resolution : Resolution)
    (at_ : Option DateTime) : Books call (applyAndRecord event direction resolution at_).run := by
  refine Books.bind (Books.bind (applyItems_books ..) fun _ => rfl) ?_
  intro r
  cases r with
  | error _ => rfl
  | ok result =>
      cases result with
      | ok _ =>
          refine books_op rfl fun r => ?_
          cases r with
          | error _ => rfl
          | ok _ => exact books_op rfl fun _ => rfl
      | error failure =>
          refine books_op rfl fun r => ?_
          cases r with
          | error _ => rfl
          | ok _ => exact books_op rfl fun _ => rfl

theorem reviewable_books (id : String) : Books call (reviewable id).run := by
  refine books_op rfl fun r => ?_
  cases r with
  | error _ => rfl
  | ok found =>
      cases found with
      | none => rfl
      | some event =>
          by_cases hs : event.status = .needsReview
          · simp only [Prog.bind, ExceptT.bindCont, ne_eq, hs, not_true_eq_false, if_false]
            rfl
          · simp only [Prog.bind, ExceptT.bindCont, ne_eq, hs, not_false_eq_true, if_true]
            rfl

theorem alertEach_follows (now : DateTime) (events : List HelperEvent) (alerted : Nat) :
    (alertEach now events alerted).run.Follows (Sweep.protocol call) Sweep.Settled (.due events) := by
  induction events generalizing alerted with
  | nil => exact Sweep.settled_due
  | cons event events ih =>
      have hmark : ∀ event' : HelperEvent, event'.eventId = event.eventId →
          (do
            alert event'
            let _ ← Events.markAlerted event'.eventId now
            alertEach now events (alerted + 1) : Handler Nat).run.Follows (Sweep.protocol call)
              Sweep.Settled (.due (event :: events)) := by
        intro event' hid r _
        refine ⟨_, .alerts hid, ?_⟩
        rw [← hid]
        intro r _
        cases r with
        | error _ => exact ⟨_, .notMarked, Sweep.settled_idle⟩
        | ok _ => exact ⟨_, .marked, ih _⟩
      unfold alertEach
      by_cases happlying : event.reason = some applying
      · simp only [if_pos happlying]
        intro r _
        refine ⟨_, .relabels, ?_⟩
        cases r with
        | error _ => exact Sweep.settled_due
        | ok _ => exact hmark _ rfl
      · simp only [if_neg happlying]
        exact hmark event rfl

theorem Books.settled {p : Steps α} (h : Books call p) :
    p.Follows (Sweep.protocol call) Sweep.Settled .idle := by
  refine h.mono ?_
  rintro _ a rfl
  exact Sweep.settled_idle

theorem body_follows (call : Call) : call.body.Follows (Sweep.protocol call) Sweep.Settled .idle := by
  cases call with
  | handleIncoming env deviceName incoming now =>
      refine Books.settled (keeps_map ?_)
      simp only [handleIncoming]
      split
      · rfl
      · refine books_op rfl fun r => ?_
        cases r with
        | error _ => rfl
        | ok found =>
            cases found with
            | true => rfl
            | false =>
                refine resolveEvent_follows (fun o r ho => .books (Op.books_of_looksUp ho)) (fun _ => rfl) ?_
                rintro ⟨resolution, reviewReason⟩
                refine books_op rfl fun r => ?_
                cases r with
                | error error =>
                    refine books_op rfl fun r => ?_
                    cases r with
                    | error _ => rfl
                    | ok found => cases found <;> rfl
                | ok _ =>
                    cases reviewReason with
                    | some reason => exact books_op rfl fun _ => rfl
                    | none =>
                        cases hd : resolution.direction with
                        | none => exact books_op rfl fun _ => rfl
                        | some direction => exact Books.bindE (applyAndRecord_books ..) fun _ => rfl
  | applyReviewed env eventId items now =>
      refine Books.settled (keeps_map (Books.bindE (reviewable_books _) fun event => ?_))
      simp only
      split
      · rfl
      · split
        · rfl
        · split
          · rfl
          · refine Books.bindE (applyAndRecord_books ..) ?_
            rintro ⟨event, result⟩
            cases result with
            | error _ => rfl
            | ok _ => rfl
  | ignore eventId now =>
      refine Books.settled (keeps_map (Books.bindE (reviewable_books _) fun event => ?_))
      refine books_op rfl fun r => ?_
      cases r with
      | error _ => rfl
      | ok _ => rfl
  | sweepAlerts now =>
      refine keeps_map ?_
      intro r _
      cases r with
      | error error => exact ⟨_, .notSelected, fun _ _ h => by cases h⟩
      | ok events => exact ⟨_, .selected rfl, alertEach_follows now events 0⟩

end Follows

/-! ### Runs -/

namespace Server

/-- How often a row has been alerted on. -/
def alertsOf (s : Server) (id : String) : Nat := s.log.countP fun entry => entry.2.1.alerts id

/-- Status and reason agree in every row, and no row has been alerted on twice. -/
def Tidy (s : Server) : Prop := s.shared.Consistent ∧ ∀ id, s.alertsOf id ≤ 1

/-- Sweeps run one after another, and an alert that is out is marked: the `UPDATE` works and the
sweep is not dropped before it. -/
def Orderly (s : Server) : CallLabel Call Choice → Prop
  | .start call => call.isSweep = true → ∀ c ∈ s.calls, c.call.isSweep = true → c.live = true →
      c.rest.next? = none
  | .step _ .works => True
  | .step i _ => ¬s.Next i Op.marksAlerted
  | .drop i => ¬s.Next i Op.marksAlerted

/-- No sweep relabels a row that has been settled since the sweep read it. -/
def Timely (s : Server) : CallLabel Call Choice → Prop
  | .step i .works => ¬s.Next i (Op.late s.shared)
  | _ => True

/-- Call `i` is a sweep that has not returned. -/
def Sweeping (s : Server) (i : Nat) : Prop :=
  ∃ c, s.calls[i]? = some c ∧ c.call.isSweep = true ∧ c.live = true ∧ c.rest.next? ≠ none

abbrev Swept (s : Server) (φ : Nat → Sweep) : Prop :=
  Calls.Phased Sweep.protocol (fun _ => Sweep.Settled) .idle s φ

/-- Rows a sweep has read and not alerted on yet. -/
def Due (s : Server) (events : List HelperEvent) : Prop :=
  (events.map HelperEvent.eventId).Nodup ∧
    ∀ e ∈ events, s.shared.has e.eventId = true ∧ s.alertsOf e.eventId = 0

def Owes (s : Server) : Sweep → Prop
  | .idle => True
  | .due events => s.Due events
  | .alerted id events => s.shared.has id = true ∧ id ∉ events.map HelperEvent.eventId ∧ s.Due events

structure Alerting (s : Server) (φ : Nat → Sweep) : Prop where
  consistent : s.shared.Consistent
  sweeps : ∀ i, φ i ≠ .idle → ∃ c, s.calls[i]? = some c ∧ c.call.isSweep = true
  alone : ∀ i j, s.Sweeping i → s.Sweeping j → i = j
  owes : ∀ i, s.Sweeping i → s.Owes (φ i)
  /-- An alert is marked, or about to be. -/
  alerted : ∀ id, s.alertsOf id = 0 ∨ (s.alertsOf id = 1 ∧
    (s.shared.Alerted id ∨ ∃ i events, s.Live i ∧ φ i = .alerted id events))

variable {s t : Server} {φ φ' : Nat → Sweep} {i j : Nat} {id : String}

theorem Alerting.init {shared : HelperEvents} (h : shared.Consistent) :
    Alerting (Calls.init shared) fun _ => .idle where
  consistent := h
  sweeps _ h := absurd rfl h
  alone _ _ := fun ⟨_, hi, _⟩ => nomatch hi.symm.trans List.getElem?_nil
  owes _ _ := trivial
  alerted _ := .inl rfl

theorem Alerting.tidy (h : s.Alerting φ) : s.Tidy := by
  refine ⟨h.consistent, fun id => ?_⟩
  rcases h.alerted id with h0 | ⟨h1, -⟩
  · rw [h0]
    exact Nat.zero_le 1
  · exact h1.le

/-- A sweep whose alert is out is about to mark it. -/
theorem Swept.marking (hs : s.Swept φ) {c : Running Call Op Reply (Except Error Returned)}
    (hi : s.calls[i]? = some c) {events : List HelperEvent} (hq : φ i = .alerted id events) :
    s.Next i Op.marksAlerted := by
  refine hs.next_of_unsettled (fun _ o => ?_) hi (fun _ h => h id events hq) ?_
  · obtain ⟨r, -⟩ := exists_reply o
    exact ⟨r, trivial⟩
  · intro o r q hm
    rw [hq] at hm
    cases hm with
    | marked | notMarked => rfl

theorem Alerting.sweeping (hs : s.Swept φ) (h : s.Alerting φ) (hl : s.Live i) {events : List HelperEvent}
    (hq : φ i = .alerted id events) : s.Sweeping i := by
  obtain ⟨c, hi, hc⟩ := h.sweeps i (by rw [hq]; nofun)
  obtain ⟨d, hd, hlive⟩ := hl
  cases hi.symm.trans hd
  obtain ⟨e, o, he, ho, -⟩ := hs.marking hi hq
  cases hi.symm.trans he
  exact ⟨c, hi, hc, hlive, by rw [ho]; nofun⟩

section Turn

variable {c : Call} {o : Op} {next : Reply o → Steps (Except Error Returned)} {choice : Choice} {r : Reply o}
  {shared : HelperEvents} {q : Sweep}

/-- The server after a step of call `i`. -/
abbrev after (s : Server) (i : Nat) (c : Call) (rest : Steps (Except Error Returned)) (shared : HelperEvents)
    (entry : (o : Op) × Reply o) : Server :=
  ⟨shared, s.calls.set i ⟨c, rest, true⟩, s.log ++ [(i, entry)]⟩

theorem alertsOf_after {rest : Steps (Except Error Returned)} (id : String) :
    (s.after i c rest shared ⟨o, r⟩).alertsOf id = s.alertsOf id + if o.alerts id then 1 else 0 := by
  rw [alertsOf, List.countP_append, List.countP_singleton]
  rfl

theorem sweeping_of_after (hi : s.calls[i]? = some ⟨c, .op o next, true⟩)
    (h : (s.after i c (next r) shared ⟨o, r⟩).Sweeping j) : s.Sweeping j := by
  obtain ⟨d, hd, hsweep, hlive, hrest⟩ := h
  rcases Calls.getElem?_set_cases hd with ⟨rfl, rfl⟩ | ⟨-, hd⟩
  · exact ⟨_, hi, hsweep, rfl, nofun⟩
  · exact ⟨d, hd, hsweep, hlive, hrest⟩

theorem live_after (hi : s.calls[i]? = some ⟨c, .op o next, true⟩) (h : s.Live j) :
    (s.after i c (next r) shared ⟨o, r⟩).Live j := by
  by_cases hji : j = i
  · subst hji
    exact ⟨_, List.getElem?_set_self (Calls.getElem?_lt hi), rfl⟩
  · exact Calls.live_set_ne hji h

theorem Due.after {events : List HelperEvent} (h : s.Due events) (ha : answer o choice s.shared = some (r, shared))
    {rest : Steps (Except Error Returned)} (ho : ∀ e ∈ events, o.alerts e.eventId = false) :
    (s.after i c rest shared ⟨o, r⟩).Due events := by
  refine ⟨h.1, fun e he => ⟨answer_has ha (h.2 e he).1, ?_⟩⟩
  rw [alertsOf_after, ho e he]
  exact (h.2 e he).2

/-- What a step of call `i` keeps, given what it leaves the call itself to do. -/
theorem Alerting.turn (h : s.Alerting φ) (hi : s.calls[i]? = some ⟨c, .op o next, true⟩)
    (ha : answer o choice s.shared = some (r, shared)) (hconsistent : shared.Consistent)
    (hsweep : q ≠ .idle → c.isSweep = true)
    (hquiet : c.isSweep = false → ∀ id, o.alerts id = false)
    (howes : (s.after i c (next r) shared ⟨o, r⟩).Owes q)
    (halert : ∀ id, o.alerts id = true → s.alertsOf id = 0 ∧ ∃ events, q = .alerted id events)
    (hmark : ∀ id events, φ i = .alerted id events → shared.Alerted id) :
    Alerting (s.after i c (next r) shared ⟨o, r⟩) (Function.update φ i q) where
  consistent := hconsistent
  sweeps j hj := by
    by_cases hji : j = i
    · subst hji
      rw [Function.update_self] at hj
      exact ⟨_, List.getElem?_set_self (Calls.getElem?_lt hi), hsweep hj⟩
    · rw [Function.update_of_ne hji] at hj
      obtain ⟨d, hd, hc⟩ := h.sweeps j hj
      exact ⟨d, (List.getElem?_set_ne (Ne.symm hji)).trans hd, hc⟩
  alone j k hj hk := h.alone j k (sweeping_of_after hi hj) (sweeping_of_after hi hk)
  owes j hj := by
    by_cases hji : j = i
    · subst hji
      rw [Function.update_self]
      exact howes
    · rw [Function.update_of_ne hji]
      have hsj := sweeping_of_after hi hj
      have howner : c.isSweep = false := by
        rw [Bool.eq_false_iff]
        intro hc
        exact hji (h.alone j i hsj ⟨_, hi, hc, rfl, nofun⟩)
      have hno : ∀ events : List HelperEvent, ∀ e ∈ events, o.alerts e.eventId = false :=
        fun _ e _ => hquiet howner e.eventId
      have howed := h.owes j hsj
      cases hq : φ j with
      | idle => trivial
      | due events =>
          rw [hq] at howed
          exact howed.after ha (hno events)
      | alerted id events =>
          rw [hq] at howed
          exact ⟨answer_has ha howed.1, howed.2.1, howed.2.2.after ha (hno events)⟩
  alerted id := by
    rw [alertsOf_after]
    cases halerts : o.alerts id with
    | true =>
        obtain ⟨hzero, events, hq⟩ := halert id halerts
        refine .inr ⟨by rw [hzero]; rfl, .inr ⟨i, events, live_after hi ⟨_, hi, rfl⟩, ?_⟩⟩
        rw [Function.update_self, hq]
    | false =>
        rcases h.alerted id with hzero | ⟨hone, hmarked | ⟨j, events, hl, hq⟩⟩
        · exact .inl hzero
        · exact .inr ⟨hone, .inl (answer_alerted ha hmarked)⟩
        · refine .inr ⟨hone, ?_⟩
          by_cases hji : j = i
          · subst hji
            exact .inl (hmark id events hq)
          · exact .inr ⟨j, events, live_after hi hl, by rw [Function.update_of_ne hji, hq]⟩

theorem Alerting.turn_idle (h : s.Alerting φ) (hi : s.calls[i]? = some ⟨c, .op o next, true⟩)
    (ha : answer o choice s.shared = some (r, shared)) (hconsistent : shared.Consistent)
    (hno : ∀ id, o.alerts id = false) (hq : φ i = .idle) :
    Alerting (s.after i c (next r) shared ⟨o, r⟩) (Function.update φ i .idle) := by
  refine h.turn hi ha hconsistent (fun hne => absurd rfl hne) (fun _ => hno) trivial ?_ ?_
  · intro id halerts
    cases (hno id).symm.trans halerts
  · intro id events hid
    cases hq.symm.trans hid

/-- The rows a sweep selects have not been alerted on: no other sweep is under way. -/
theorem Alerting.selected (hs : s.Swept φ) (h : s.Alerting φ) {stuckBefore : Timestamp}
    (hi : s.Sweeping i) (hq : φ i = .idle) : s.Due (s.shared.needingAlert stuckBefore) := by
  obtain ⟨hnodup, hrows⟩ := s.shared.needingAlert_spec stuckBefore
  refine ⟨hnodup, fun e he => ⟨(hrows e he).1, ?_⟩⟩
  rcases h.alerted e.eventId with hzero | ⟨-, hmarked | ⟨j, events, hl, hj⟩⟩
  · exact hzero
  · exact absurd hmarked (hrows e he).2
  · cases h.alone i j hi (h.sweeping hs hl hj)
    cases hq.symm.trans hj

theorem Alerting.op (hs : s.Swept φ) (h : s.Alerting φ) (hi : s.calls[i]? = some ⟨c, .op o next, true⟩)
    (ha : answer o choice s.shared = some (r, shared)) (hm : Sweep.Moves c (φ i) o r q)
    (horderly : s.Orderly (.step i choice)) (htimely : s.Timely (.step i choice)) :
    Alerting (s.after i c (next r) shared ⟨o, r⟩) (Function.update φ i q) := by
  have hsweeping : c.isSweep = true → s.Sweeping i := fun hc => ⟨_, hi, hc, rfl, nofun⟩
  have hsweeper : φ i ≠ .idle → c.isSweep = true := by
    intro hne
    obtain ⟨d, hd, hc⟩ := h.sweeps i hne
    cases hi.symm.trans hd
    exact hc
  have howes := fun hc => h.owes i (hsweeping hc)
  generalize hq : φ i = p at hm hsweeper howes
  cases hm with
  | books ho => exact h.turn_idle hi ha (answer_consistent ha ho h.consistent) (Op.alerts_of_books ho) hq
  | notSelected =>
      have hsame : shared = s.shared := by cases choice <;> cases ha; rfl
      exact h.turn_idle hi ha (hsame ▸ h.consistent) (fun _ => rfl) hq
  | @selected stuckBefore events hc =>
      have hreply : events = s.shared.needingAlert (ts stuckBefore) ∧ shared = s.shared := by
        cases choice <;> cases ha
        exact ⟨rfl, rfl⟩
      obtain ⟨rfl, hsame⟩ := hreply
      refine h.turn hi ha (hsame ▸ h.consistent) (fun _ => hc) (fun _ _ => rfl) ?_ nofun ?_
      · exact (h.selected hs (hsweeping hc) hq).after ha fun _ _ => rfl
      · intro id events hid
        cases hq.symm.trans hid
  | @relabels event events =>
      have hc := hsweeper nofun
      have hconsistent : shared.Consistent := by
        cases choice with
        | works =>
            refine (answer_relabels h.consistent ha).mpr (Bool.eq_false_iff.mpr ?_)
            exact fun hlate => htimely ⟨_, _, hi, rfl, hlate⟩
        | fails | items => cases ha <;> exact h.consistent
      refine h.turn hi ha hconsistent (fun _ => hc) (fun _ _ => rfl) ?_ nofun ?_
      · exact (howes hc).after ha fun _ _ => rfl
      · intro id events hid
        cases hq.symm.trans hid
  | @alerts event event' events _ hid =>
      have hc := hsweeper nofun
      have hsame : shared = s.shared := by cases choice <;> cases ha; rfl
      obtain ⟨hnodup, hrows⟩ := howes hc
      obtain ⟨hnotin, hnodup⟩ := List.nodup_cons.mp hnodup
      refine h.turn hi ha (hsame ▸ h.consistent) (fun _ => hc) ?_ ?_ ?_ ?_
      · intro hno
        cases hc.symm.trans hno
      · refine ⟨answer_has ha (hrows event List.mem_cons_self).1, hnotin, ?_⟩
        refine Due.after ⟨hnodup, fun e he => hrows e (List.mem_cons_of_mem _ he)⟩ ha ?_
        intro e he
        refine beq_false_of_ne ?_
        rw [hid]
        intro heq
        exact hnotin (heq ▸ List.mem_map_of_mem he)
      · intro id halerts
        have hrow := beq_iff_eq.mp halerts
        rw [hid] at hrow
        subst hrow
        exact ⟨(hrows event List.mem_cons_self).2, events, rfl⟩
      · intro id events hid
        cases hq.symm.trans hid
  | @marked id at_ events b =>
      have hc := hsweeper nofun
      obtain ⟨hhas, -, hdue⟩ := howes hc
      refine h.turn hi ha (answer_marks ha h.consistent) (fun _ => hc) (fun _ _ => rfl) ?_ nofun ?_
      · exact hdue.after ha fun _ _ => rfl
      · intro id' events' hid
        cases hq.symm.trans hid
        cases choice with
        | works => exact answer_marked ha hhas
        | fails | items => cases ha
  | notMarked =>
      have hnext : s.Next i Op.marksAlerted := ⟨_, _, hi, rfl, rfl⟩
      cases choice with
      | works => cases ha
      | fails | items => exact absurd hnext horderly

end Turn

theorem Alerting.step (hs : s.Swept φ) (h : s.Alerting φ) {l : CallLabel Call Choice}
    (horderly : s.Orderly l) (htimely : s.Timely l)
    (hstep : Calls.PhasedStep Call.body answer Sweep.protocol s φ l t φ') : t.Alerting φ' := by
  cases hstep with
  | start c =>
      have hkept : ∀ {j : Nat} {d : Running Call Op Reply (Except Error Returned)}, s.calls[j]? = some d →
          (s.calls ++ [⟨c, c.body, true⟩])[j]? = some d :=
        fun hd => (List.getElem?_append_left (Calls.getElem?_lt hd)).trans hd
      have hnew : ∀ {j : Nat} {log : List (Nat × (o : Op) × Reply o)},
          Sweeping ⟨s.shared, s.calls ++ [⟨c, c.body, true⟩], log⟩ j →
            (j = s.calls.length ∧ c.isSweep = true) ∨ s.Sweeping j := by
        rintro j log ⟨d, hd, hsweep, hlive, hrest⟩
        rcases Calls.getElem?_append_cases hd with ⟨rfl, rfl⟩ | hd
        · exact .inl ⟨rfl, hsweep⟩
        · exact .inr ⟨d, hd, hsweep, hlive, hrest⟩
      have hfirst : ∀ {j : Nat}, c.isSweep = true → ¬s.Sweeping j := by
        rintro j hc ⟨d, hd, hsweep, hlive, hrest⟩
        exact hrest (horderly hc d (List.mem_of_getElem? hd) hsweep hlive)
      refine ⟨h.consistent, ?_, ?_, ?_, ?_⟩
      · intro j hj
        obtain ⟨d, hd, hc⟩ := h.sweeps j hj
        exact ⟨d, hkept hd, hc⟩
      · intro j k hj hk
        rcases hnew hj with ⟨rfl, hc⟩ | hj <;> rcases hnew hk with ⟨rfl, hc'⟩ | hk
        · rfl
        · exact absurd hk (hfirst hc)
        · exact absurd hj (hfirst hc')
        · exact h.alone j k hj hk
      · intro j hj
        rcases hnew hj with ⟨rfl, -⟩ | hj
        · rw [hs.fresh _ (Nat.le_refl _)]
          trivial
        · exact h.owes j hj
      · intro id
        rcases h.alerted id with hzero | ⟨hone, hmarked | ⟨j, events, ⟨d, hd, hl⟩, hq⟩⟩
        · exact .inl hzero
        · exact .inr ⟨hone, .inl hmarked⟩
        · exact .inr ⟨hone, .inr ⟨j, events, ⟨d, hkept hd, hl⟩, hq⟩⟩
  | step hi ha _ hm => exact h.op hs hi ha hm horderly htimely
  | @drop i c rest hi =>
      have hold : ∀ {j : Nat}, Sweeping ⟨s.shared, s.calls.set i ⟨c, rest, false⟩, s.log⟩ j →
          s.Sweeping j := by
        rintro j ⟨d, hd, hsweep, hlive, hrest⟩
        rcases Calls.getElem?_set_cases hd with ⟨rfl, rfl⟩ | ⟨-, hd⟩
        · cases hlive
        · exact ⟨d, hd, hsweep, hlive, hrest⟩
      refine ⟨h.consistent, ?_, fun j k hj hk => h.alone j k (hold hj) (hold hk),
        fun j hj => h.owes j (hold hj), ?_⟩
      · intro j hj
        obtain ⟨d, hd, hc⟩ := h.sweeps j hj
        by_cases hji : j = i
        · subst hji
          cases hi.symm.trans hd
          exact ⟨_, List.getElem?_set_self (Calls.getElem?_lt hi), hc⟩
        · exact ⟨d, (List.getElem?_set_ne (Ne.symm hji)).trans hd, hc⟩
      · intro id
        rcases h.alerted id with hzero | ⟨hone, hmarked | ⟨j, events, hl, hq⟩⟩
        · exact .inl hzero
        · exact .inr ⟨hone, .inl hmarked⟩
        · refine .inr ⟨hone, .inr ⟨j, events, Calls.live_set_ne ?_ hl, hq⟩⟩
          rintro rfl
          exact horderly (hs.marking hi hq)

/-- A step that leads to a tidy state relabels no settled row. -/
theorem Alerting.timely (hs : s.Swept φ) (h : s.Alerting φ) {l : CallLabel Call Choice}
    (hrun : Server.step s l = some t) (ht : t.Tidy) : s.Timely l := by
  cases Calls.step_cases hrun with
  | start | drop => trivial
  | @step i choice c o next r shared hi ha =>
      cases choice with
      | fails | items => trivial
      | works =>
          rintro ⟨d, o', hd, ho, hlate⟩
          cases hi.symm.trans hd
          cases ho
          cases o with
          | setReason id reason =>
              obtain ⟨q, hm, -⟩ := hs.follows i _ hi r trivial
              have hreason : reason = applyInterrupted := by
                generalize φ i = p at hm
                cases hm with
                | books ho => cases ho
                | relabels => rfl
              subst hreason
              have hnot := (answer_relabels h.consistent ha).mp ht.1
              exact Bool.eq_false_iff.mp hnot hlate
          | _ => cases hlate

/-- In every run in which sweeps take turns, the rows keep status and reason together and are alerted
on at most once as long as no sweep relabels a row that has been settled since it was read, and no
longer. -/
theorem tidy_iff_timely {shared : HelperEvents} {ls : List (CallLabel Call Choice)} (run : Run shared ls s)
    (hshared : shared.Consistent) (orderly : Along Server.step Orderly (Calls.init shared) ls) :
    (∀ t, Visits Server.step (Calls.init shared) ls t → t.Tidy) ↔
      Along Server.step Timely (Calls.init shared) ls := by
  have htidy : ∀ s : Server, (∃ φ, s.Swept φ ∧ s.Alerting φ) → s.Tidy := fun _ ⟨_, _, h⟩ => h.tidy
  refine run.good_iff_along htidy ?_ ?_ orderly ⟨_, Calls.Phased.init, .init hshared⟩
  · rintro s l t ⟨φ, hs, h⟩ horderly htimely hrun
    obtain ⟨φ', hstep, ht⟩ := hs.step body_follows (fun _ _ _ _ _ _ _ => trivial) hrun
    exact ⟨φ', ht, h.step hs horderly htimely hstep⟩
  · rintro s l t ⟨φ, hs, h⟩ - hrun ht
    exact h.timely hs hrun ht

instance (s : Server) : DecidablePred s.Orderly
  | .start call => inferInstanceAs (Decidable (call.isSweep = true → _))
  | .step _ .works => isTrue trivial
  | .step i (.fails _) => inferInstanceAs (Decidable ¬s.Next i Op.marksAlerted)
  | .step i (.items _) => inferInstanceAs (Decidable ¬s.Next i Op.marksAlerted)
  | .drop i => inferInstanceAs (Decidable ¬s.Next i Op.marksAlerted)

instance (s : Server) : DecidablePred s.Timely
  | .start _ => isTrue trivial
  | .step i .works => inferInstanceAs (Decidable ¬s.Next i (Op.late s.shared))
  | .step _ (.fails _) => isTrue trivial
  | .step _ (.items _) => isTrue trivial
  | .drop _ => isTrue trivial

/-- The application fails, a sweep alerts on it, a review books it; the next sweep finds nothing. -/
def failedLabels : List (CallLabel Call Choice) :=
  [.start raceIncoming, .step 0 .works, .step 0 (.items [raceItem]), .step 0 .works,
    .step 0 (.fails ⟨"HandleItem", "not in stock"⟩), .step 0 .works, .step 0 .works,
    .start (.sweepAlerts (seconds 60)), .step 1 .works, .start raceReview, .step 2 .works, .step 1 .works,
    .step 2 .works, .step 2 .works, .step 1 .works, .step 2 .works, .start (.sweepAlerts (seconds 120)),
    .step 3 .works]

theorem tidy_iff_timely_failed :
    (replay Server.step (Calls.init .empty) failedLabels : Server).Tidy := by
  have run : Run .empty failedLabels (replay Server.step (Calls.init .empty) failedLabels) :=
    trace_replay (by decide +kernel)
  have orderly : Along Server.step Orderly (Calls.init .empty) failedLabels :=
    along_of_decide (by decide +kernel)
  have timely : Along Server.step Timely (Calls.init .empty) failedLabels :=
    along_of_decide (by decide +kernel)
  exact (tidy_iff_timely run HelperEvents.consistent_empty orderly).mpr timely _ (.last run)

instance (t : HelperEvents) : Decidable t.Consistent := inferInstanceAs (Decidable (∀ e ∈ t.rows, e.Consistent))

/-- The sweep reads the row while its application is still under way; the application is then recorded
before the sweep relabels the row. -/
def lateLabels : List (CallLabel Call Choice) :=
  [.start raceIncoming, .step 0 .works, .step 0 (.items [raceItem]), .step 0 .works,
    .start (.sweepAlerts (seconds 181)), .step 1 .works, .step 0 .works, .step 0 .works, .step 0 .works,
    .step 1 .works, .step 1 .works, .step 1 .works]

/-- Both calls return and leave an applied row that says its application was interrupted. -/
theorem relabelled_after_applied :
    Run .empty lateLabels (replay Server.step (Calls.init .empty) lateLabels) ∧
      Along Server.step Orderly (Calls.init .empty) lateLabels ∧
      (∀ c ∈ (replay Server.step (Calls.init .empty) lateLabels : Server).calls, c.rest.next? = none) ∧
      ¬(replay Server.step (Calls.init .empty) lateLabels : Server).Tidy := by
  refine ⟨trace_replay (by decide +kernel), along_of_decide (by decide +kernel), ?_, ?_⟩
  · have hdone : (replay Server.step (Calls.init .empty) lateLabels : Server).calls.all
        (fun c => c.rest.next?.isNone) = true := by decide +kernel
    intro c hc
    exact Option.isNone_iff_eq_none.mp (List.all_eq_true.mp hdone c hc)
  · intro h
    exact absurd h.1 (by decide +kernel)

end Server

end Quantframe.Trades
