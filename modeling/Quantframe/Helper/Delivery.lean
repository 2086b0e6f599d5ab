import Quantframe.Helper.Request

/-!
# Delivery from the helper to the server

The helper's loop and the server's handlers as one machine. The helper waits between retries; a
helper that may send at any time has all of its runs. Appends to the queue file and rewrites of
it are atomic.
-/

namespace Quantframe.Helper
open Quantframe.Lib Quantframe.Trades

/-- Where the drain loop of `run` stands. -/
inductive Loop where
  | idle
  /-- Awaiting `send` of the event, as call `request` of the server. -/
  | sending (event : QueuedEvent) (request : Nat)
  | answered (event : QueuedEvent) (result : HttpResult)

abbrev Handlers := Calls HelperEvents Request Op Reply Response

structure Delivery where
  queue : List QueuedEvent
  /-- Detected, and not yet on disk. -/
  pending : List QueuedEvent
  loop : Loop
  server : Handlers
  /-- Events removed from the queue, each with the outcome that removed it. -/
  popped : List (QueuedEvent × TradeOutcome)

inductive DeliveryLabel where
  | detect (events : List QueuedEvent)
  | push (i : Nat)
  | send (device : Device) (readable : Bool) (env : TradeEnv) (now : DateTime)
  /-- Any request may also reach the server from elsewhere. -/
  | server (l : CallLabel Request Choice)
  | receive (body : Except String String)
  /-- The request is lost, times out, or is answered before it reaches the route. -/
  | giveUp (result : HttpResult)
  | pop (works : Bool)
  | crash

namespace Delivery

def step : Machine Delivery DeliveryLabel
  | s, .detect events => some { s with pending := s.pending ++ events }
  | s, .push i =>
      s.pending[i]?.map fun event =>
        { s with queue := s.queue ++ [event], pending := s.pending.eraseIdx i }
  | s, .send device readable env now =>
      match s.loop, s.queue with
      | .idle, event :: _ =>
          (Calls.step Request.body answer s.server (.start ⟨event, device, readable, env, now⟩)).map
            fun server => { s with loop := .sending event s.server.calls.length, server }
      | _, _ => none
  | s, .server l => (Calls.step Request.body answer s.server l).map fun server => { s with server }
  | s, .receive body =>
      match s.loop with
      | .sending event request =>
          match s.server.calls[request]? with
          | some ⟨_, .done response, true⟩ =>
              some { s with loop := .answered event (.reply response.status body) }
          | _ => none
      | _ => none
  | s, .giveUp result =>
      match s.loop with
      | .sending event _ =>
          if result.succeeds then none
          else some { s with loop := .answered event result }
      | _ => none
  | s, .pop works =>
      match s.loop with
      | .answered _ result =>
          let outcome := TradeOutcome.of result
          match outcome.removesFromQueue && works, s.queue with
          | true, event :: queue =>
              some { s with loop := .idle, queue, popped := s.popped ++ [(event, outcome)] }
          | _, _ => some { s with loop := .idle }
      | _ => none
  | s, .crash => some { s with loop := .idle, pending := [] }

/-- A helper that has just been started over some queue file, and a server without requests. -/
def init (queue : List QueuedEvent) (events : HelperEvents) : Delivery :=
  ⟨queue, [], .idle, Calls.init events, []⟩

abbrev Run (queue : List QueuedEvent) (events : HelperEvents) (ls : List DeliveryLabel) (s : Delivery) :
    Prop := Trace step (init queue events) ls s

inductive Step (s : Delivery) : DeliveryLabel → Delivery → Prop
  | detect (events : List QueuedEvent) : Step s (.detect events) { s with pending := s.pending ++ events }
  | push {i event} (h : s.pending[i]? = some event) :
      Step s (.push i) { s with queue := s.queue ++ [event], pending := s.pending.eraseIdx i }
  | send {device readable env now event rest} (hl : s.loop = .idle) (hq : s.queue = event :: rest) :
      Step s (.send device readable env now)
        { s with
          loop := .sending event s.server.calls.length
          server := { s.server with calls := s.server.calls ++
            [⟨⟨event, device, readable, env, now⟩,
              Request.body ⟨event, device, readable, env, now⟩, true⟩] } }
  | server {l server} (h : Calls.step Request.body answer s.server l = some server) :
      Step s (.server l) { s with server }
  | receive {body event request req response} (hl : s.loop = .sending event request)
      (hr : s.server.calls[request]? = some ⟨req, .done response, true⟩) :
      Step s (.receive body) { s with loop := .answered event (.reply response.status body) }
  | giveUp {result event request} (hl : s.loop = .sending event request)
      (hr : result.succeeds = false) :
      Step s (.giveUp result) { s with loop := .answered event result }
  | popped {event result head rest} (hl : s.loop = .answered event result)
      (hr : (TradeOutcome.of result).removesFromQueue = true) (hq : s.queue = head :: rest) :
      Step s (.pop true)
        { s with loop := .idle, queue := rest, popped := s.popped ++ [(head, .of result)] }
  | kept {event result works} (hl : s.loop = .answered event result) :
      Step s (.pop works) { s with loop := .idle }
  | crash : Step s .crash { s with loop := .idle, pending := [] }

theorem step_cases {s t : Delivery} {l : DeliveryLabel} (h : step s l = some t) : Step s l t := by
  cases l with
  | detect events => cases h; exact .detect events
  | push i =>
      obtain ⟨event, hi, ht⟩ := Option.map_eq_some_iff.mp h
      cases ht
      exact .push hi
  | send device readable env now =>
      simp only [step] at h
      split at h
      · next hl hq => cases h; exact .send hl hq
      · cases h
  | server l =>
      obtain ⟨server, hs, ht⟩ := Option.map_eq_some_iff.mp h
      cases ht
      exact .server hs
  | receive body =>
      simp only [step] at h
      split at h
      · next hl =>
          split at h
          · next hr => cases h; exact .receive hl hr
          · cases h
      · cases h
  | giveUp result =>
      simp only [step] at h
      split at h
      · next hl =>
          split at h
          · cases h
          · next hr => cases h; exact .giveUp hl (Bool.eq_false_of_not_eq_true hr)
      · cases h
  | pop works =>
      simp only [step] at h
      split at h
      · next hl =>
          split at h
          · next hr hq =>
              rw [Bool.and_eq_true] at hr
              obtain ⟨hr, rfl⟩ := hr
              cases h
              exact .popped hl hr hq
          · cases h; exact .kept hl
      · cases h
  | crash => cases h; exact .crash

/-! ### What the server keeps -/

/-- Call `i` has had the applier started. -/
def Started (s : Handlers) (i : Nat) : Prop :=
  (∃ o r, (i, ⟨o, r⟩) ∈ s.log ∧ o.applies = true) ∨ s.Next i Op.applies

abbrev Staged (s : Handlers) (φ : Nat → Stage) : Prop :=
  Calls.Phased (fun req => stageProtocol req.event.eventId) (fun _ => Replied) .fresh s φ

structure ServerSound (s : Handlers) (φ : Nat → Stage) : Prop where
  /-- A request past its start has a row. -/
  present : ∀ i c, s.calls[i]? = some c → φ i ≠ .fresh → s.shared.has c.call.event.eventId = true
  once : ∀ i j c d, i ≠ j → s.calls[i]? = some c → s.calls[j]? = some d →
    c.call.event.eventId = d.call.event.eventId → φ i = .inserted → φ j ≠ .inserted
  logged : ∀ i o r, (i, ⟨o, r⟩) ∈ s.log → o.applies = true → φ i = .inserted

theorem ServerSound.step {s t : Handlers} {φ φ' : Nat → Stage} {l : CallLabel Request Choice}
    (hs : Staged s φ) (h : ServerSound s φ)
    (hstep : Calls.PhasedStep Request.body answer (fun req => stageProtocol req.event.eventId) s φ l t φ') :
    ServerSound t φ' ∧ ∀ id, s.shared.has id = true → t.shared.has id = true := by
  cases hstep with
  | start req =>
      refine ⟨⟨?_, ?_, h.logged⟩, fun _ hid => hid⟩
      · intro i c hi hq
        rcases Calls.getElem?_append_cases hi with ⟨rfl, -⟩ | hi
        · exact absurd (hs.fresh _ (Nat.le_refl _)) hq
        · exact h.present i c hi hq
      · intro i j c d hij hi hj hid hqi hqj
        rcases Calls.getElem?_append_cases hi with ⟨rfl, -⟩ | hi
        · cases (hs.fresh _ (Nat.le_refl _)).symm.trans hqi
        · rcases Calls.getElem?_append_cases hj with ⟨rfl, -⟩ | hj
          · cases (hs.fresh _ (Nat.le_refl _)).symm.trans hqj
          · exact h.once i j c d hij hi hj hid hqi hqj
  | @step i choice req o next r shared q hi ha hr hm =>
      have hhas : ∀ id, s.shared.has id = true → shared.has id = true := fun _ => answer_has ha
      have hcall : ∀ {j : Nat} {d : Running Request Op Reply Response}, (s.calls.set i ⟨req, next r, true⟩)[j]? = some d →
          ∃ d' : Running Request Op Reply Response, s.calls[j]? = some d' ∧ d'.call = d.call :=
        fun hj => Calls.call_of_set hi hj rfl
      have hself : Function.update φ i q i = q := Function.update_self ..
      have hother : ∀ {j}, j ≠ i → Function.update φ i q j = φ j := fun hj => Function.update_of_ne hj ..
      have hsame : φ i ≠ .fresh → q = φ i := fun hq => hm.stays hq
      have hlearns : φ i = .fresh → q ≠ .fresh →
          shared.has req.event.eventId = true ∧ (q = .inserted → s.shared.has req.event.eventId = false) :=
        fun hq => (hq ▸ hm).learns ha
      have hfirst : ∀ {j d}, j ≠ i → s.calls[j]? = some d → d.call.event.eventId = req.event.eventId →
          φ j = .inserted → q ≠ .inserted := by
        intro j d hji hj hid hqj hq
        by_cases hfresh : φ i = .fresh
        · have hno := (hlearns hfresh (by rw [hq]; nofun)).2 hq
          have hyes := h.present j d hj (by rw [hqj]; nofun)
          rw [hid, hno] at hyes
          cases hyes
        · exact h.once i j _ d (Ne.symm hji) hi hj hid.symm ((hsame hfresh).symm.trans hq) hqj
      refine ⟨⟨?_, ?_, ?_⟩, hhas⟩
      · intro j d hj hq
        obtain ⟨d', hd', hcd⟩ := hcall hj
        rw [← hcd]
        by_cases hji : j = i
        · subst hji
          cases hi.symm.trans hd'
          rw [hself] at hq
          by_cases hfresh : φ j = .fresh
          · exact (hlearns hfresh hq).1
          · exact hhas _ (h.present j _ hi hfresh)
        · rw [hother hji] at hq
          exact hhas _ (h.present j d' hd' hq)
      · intro j k c d hjk hj hk hid hqj hqk
        obtain ⟨c', hc', hcc⟩ := hcall hj
        obtain ⟨d', hd', hcd⟩ := hcall hk
        rw [← hcc, ← hcd] at hid
        by_cases hji : j = i
        · subst hji
          cases hi.symm.trans hc'
          rw [hother (Ne.symm hjk)] at hqk
          exact hfirst (Ne.symm hjk) hd' hid.symm hqk (hself.symm.trans hqj)
        · rw [hother hji] at hqj
          by_cases hki : k = i
          · subst hki
            cases hi.symm.trans hd'
            exact hfirst hji hc' hid hqj (hself.symm.trans hqk)
          · exact h.once j k c' d' hjk hc' hd' hid hqj ((hother hki).symm.trans hqk)
      · intro j o' r' hmem ho
        rw [List.mem_append, List.mem_singleton] at hmem
        rcases hmem with hmem | hmem
        · have hinserted := h.logged j o' r' hmem ho
          by_cases hji : j = i
          · subst hji
            rw [hself, hsame (by rw [hinserted]; nofun)]
            exact hinserted
          · rw [hother hji]
            exact hinserted
        · cases hmem
          rw [hself]
          exact (hm.applies ho).2
  | @drop i req rest hi =>
      have hcall : ∀ {j : Nat} {d : Running Request Op Reply Response}, (s.calls.set i ⟨req, rest, false⟩)[j]? = some d →
          ∃ d' : Running Request Op Reply Response, s.calls[j]? = some d' ∧ d'.call = d.call :=
        fun hj => Calls.call_of_set hi hj rfl
      refine ⟨⟨?_, ?_, h.logged⟩, fun _ hid => hid⟩
      · intro j d hj hq
        obtain ⟨d', hd', hcd⟩ := hcall hj
        exact hcd ▸ h.present j d' hd' hq
      · intro j k c d hjk hj hk hid
        obtain ⟨c', hc', hcc⟩ := hcall hj
        obtain ⟨d', hd', hcd⟩ := hcall hk
        exact h.once j k c' d' hjk hc' hd' (by rw [hcc, hcd, hid])

/-! ### What the helper keeps -/

/-- What the drain loop knows of the event it is working on. -/
def LoopKnows (s : Delivery) : Prop :=
  match s.loop with
  | .idle => True
  | .sending event request =>
      s.queue.head? = some event ∧ ∃ c, s.server.calls[request]? = some c ∧ c.call.event = event
  | .answered event result =>
      s.queue.head? = some event ∧ (result.succeeds = true → s.server.shared.has event.eventId = true)

/-- Why an event was removed. -/
def Excused (events : HelperEvents) (popped : QueuedEvent × TradeOutcome) : Prop :=
  (∃ status, popped.2 = .accepted status) ∧ events.has popped.1.eventId = true ∨
    ∃ status, popped.2 = .dropped status ∧ status ∈ permanent

structure Sound (s : Delivery) (φ : Nat → Stage) : Prop where
  staged : Staged s.server φ
  server : ServerSound s.server φ
  loop : s.LoopKnows
  popped : ∀ p ∈ s.popped, Excused s.server.shared p

theorem Excused.mono {t t' : HelperEvents} {p : QueuedEvent × TradeOutcome}
    (h : Excused t p) (hhas : ∀ id, t.has id = true → t'.has id = true) : Excused t' p := by
  rcases h with ⟨haccepted, hid⟩ | hdropped
  · exact .inl ⟨haccepted, hhas _ hid⟩
  · exact .inr hdropped

/-- Appending to the queue does not change its head. -/
theorem head?_append_of_some {queue : List QueuedEvent} {event other : QueuedEvent}
    (h : queue.head? = some event) : (queue ++ [other]).head? = some event := by
  cases queue with
  | nil => cases h
  | cons head rest => exact h

/-- The server runs on; a call keeps its event, and rows stay. -/
theorem LoopKnows.server {s : Delivery} {server : Handlers} (h : s.LoopKnows)
    (hcalls : ∀ (i : Nat) (c : Running Request Op Reply Response), s.server.calls[i]? = some c →
      ∃ d, server.calls[i]? = some d ∧ d.call = c.call)
    (hhas : ∀ id, s.server.shared.has id = true → server.shared.has id = true) :
    LoopKnows { s with server } := by
  obtain ⟨queue, pending, loop, server', popped⟩ := s
  cases loop with
  | idle => trivial
  | sending event request =>
      obtain ⟨hhead, c, hc, hevent⟩ := h
      obtain ⟨d, hd, hcall⟩ := hcalls request c hc
      exact ⟨hhead, d, hd, hcall ▸ hevent⟩
  | answered event result => exact ⟨h.1, fun hr => hhas _ (h.2 hr)⟩

variable {s t : Delivery} {φ : Nat → Stage}

theorem Sound.serve (h : Sound s φ) {l : CallLabel Request Choice} {server : Handlers}
    (hstep : Calls.step Request.body answer s.server l = some server) :
    ∃ φ', Staged server φ' ∧ ServerSound server φ' ∧
      ∀ id, s.server.shared.has id = true → server.shared.has id = true := by
  obtain ⟨φ', hmove, hstaged⟩ := h.staged.step body_follows (fun _ _ _ _ _ _ _ => trivial) hstep
  obtain ⟨hsound, hhas⟩ := h.server.step h.staged hmove
  exact ⟨φ', hstaged, hsound, hhas⟩

theorem Sound.step (h : Sound s φ) {l : DeliveryLabel} (hstep : step s l = some t) : ∃ φ', Sound t φ' := by
  cases step_cases hstep with
  | detect events => exact ⟨φ, h.staged, h.server, h.loop, h.popped⟩
  | @push i event hi =>
      refine ⟨φ, h.staged, h.server, ?_, h.popped⟩
      have hloop := h.loop
      unfold LoopKnows at hloop ⊢
      cases hl : s.loop with
      | idle => trivial
      | sending | answered =>
          rw [hl] at hloop
          exact ⟨head?_append_of_some hloop.1, hloop.2⟩
  | @send device readable env now event rest hl hq =>
      obtain ⟨φ', hstaged, hserver, hhas⟩ :=
        h.serve (l := .start ⟨event, device, readable, env, now⟩) rfl
      refine ⟨φ', hstaged, hserver, ?_, fun p hp => (h.popped p hp).mono hhas⟩
      exact ⟨by rw [hq]; rfl, _, List.getElem?_concat_length, rfl⟩
  | @server l server hs =>
      obtain ⟨φ', hstaged, hserver, hhas⟩ := h.serve hs
      exact ⟨φ', hstaged, hserver, h.loop.server (fun _ _ hi => Calls.call_kept hs hi) hhas,
        fun p hp => (h.popped p hp).mono hhas⟩
  | @receive body event request req response hl hr =>
      refine ⟨φ, h.staged, h.server, ?_, h.popped⟩
      have hloop := h.loop
      simp only [LoopKnows, hl] at hloop
      obtain ⟨hhead, c, hc, hevent⟩ := hloop
      cases hr.symm.trans hc
      refine ⟨hhead, fun hsuccess => ?_⟩
      have hknows : φ request ≠ .fresh := h.staged.follows request _ hr hsuccess
      exact hevent ▸ h.server.present request _ hr hknows
  | @giveUp result event request hl hr =>
      refine ⟨φ, h.staged, h.server, ?_, h.popped⟩
      have hloop := h.loop
      simp only [LoopKnows, hl] at hloop
      exact ⟨hloop.1, fun hsuccess => by cases hr.symm.trans hsuccess⟩
  | @popped event result head rest hl hr hq =>
      refine ⟨φ, h.staged, h.server, trivial, ?_⟩
      have hloop := h.loop
      simp only [LoopKnows, hl, hq, List.head?_cons, Option.some.injEq] at hloop
      intro p hp
      rcases List.mem_append.mp hp with hp | hp
      · exact h.popped p hp
      · cases List.mem_singleton.mp hp
        rcases TradeOutcome.of_removes hr with ⟨haccepted, hsuccess⟩ | hdropped
        · exact .inl ⟨haccepted, hloop.1 ▸ hloop.2 hsuccess⟩
        · exact .inr hdropped
  | kept => exact ⟨φ, h.staged, h.server, trivial, h.popped⟩
  | crash => exact ⟨φ, h.staged, h.server, trivial, h.popped⟩

theorem Sound.init {queue : List QueuedEvent} {events : HelperEvents} :
    Sound (init queue events) fun _ => .fresh := by
  refine ⟨Calls.Phased.init, ⟨?_, ?_, ?_⟩, trivial, ?_⟩
  · intro i c _ hq
    exact absurd rfl hq
  · intro i j c d _ _ _ _ hq
    cases hq
  · intro i o r hmem
    cases hmem
  · intro p hp
    cases hp

/-- Delivery at the queue's boundary. An event leaves the queue only after a 2xx, when its row
exists, or after a permanent 4xx; and of all the requests for one event at most one starts the
applier. -/
theorem delivered_exactly_once {queue : List QueuedEvent} {events : HelperEvents}
    {ls : List DeliveryLabel} (run : Run queue events ls s) :
    (∀ p ∈ s.popped, (∃ status, p.2 = .accepted status) ∧ s.server.shared.has p.1.eventId = true ∨
        ∃ status, p.2 = .dropped status ∧ status ∈ permanent) ∧
      ∀ (i j : Nat) (c d : Running Request Op Reply Response), s.server.calls[i]? = some c →
        s.server.calls[j]? = some d → c.call.event.eventId = d.call.event.eventId →
        Started s.server i → Started s.server j → i = j := by
  have hnext : ∀ (a : Delivery) (l : DeliveryLabel) (b : Delivery),
      (∃ φ, Sound a φ) → Delivery.step a l = some b → ∃ φ, Sound b φ := by
    rintro a l b ⟨φ, h⟩ hstep
    exact h.step hstep
  obtain ⟨φ, h⟩ := run.invariant hnext ⟨_, Sound.init⟩
  refine ⟨h.popped, ?_⟩
  have hinserted : ∀ i, Started s.server i → φ i = .inserted := by
    rintro i (⟨o, r, hmem, ho⟩ | hnext)
    · exact h.server.logged i o r hmem ho
    · obtain ⟨_, _, _, _, ho, hmove⟩ := h.staged.next (fun _ o => ⟨(exists_reply o).choose, trivial⟩) hnext
      exact (hmove.applies ho).1
  intro i j c d hi hj hid hsi hsj
  by_cases hij : i = j
  · exact hij
  · exact absurd (hinserted j hsj) (h.server.once i j c d hij hi hj hid (hinserted i hsi))

/-! ### A reply that is lost -/

def lostEvent : QueuedEvent :=
  ⟨"00000000000000000000000000000000000000000000000000000000000000cc", "2026-09-15T10:00:00Z",
    ⟨"PlayerB", "1170.388", [⟨"Arcane Nullifier", 1, none⟩], [⟨"Platinum", 70, none⟩]⟩⟩

def lostItem : ResolvedItem :=
  ⟨"Arcane Nullifier", "arcane_nullifier", "id_nullifier", "Arcane Nullifier", none, 1, 70, "name"⟩

def lostEnv : TradeEnv where
  autoTrade := true
  tradableItems := []
  resolveTrade := fun _ => .ok ⟨⟨some .sale, 70, [lostItem], []⟩, []⟩
  setCandidates := fun _ => []
  parseFromRfc3339 := fun _ => .ok 0

/-- The first request times out while it applies the trade; the second finds the row. -/
def lostLabels : List DeliveryLabel :=
  [.detect [lostEvent], .push 0, .send (.known "gaming-pc") true lostEnv 0, .server (.step 0 .works),
    .server (.step 0 (.items [lostItem])), .server (.step 0 .works), .giveUp (.error "timed out"),
    .pop true, .server (.step 0 .works), .server (.drop 0), .send (.known "gaming-pc") true lostEnv 0,
    .server (.step 1 .works), .receive (.ok "duplicate"), .pop true]

theorem delivered_exactly_once_after_timeout :
    let s := replay step (init [] .empty) lostLabels
    s.popped = [(lostEvent, .accepted "duplicate")] ∧
      s.server.shared.has lostEvent.eventId = true := by
  intro s
  have run : Run [] .empty lostLabels s := trace_replay (by decide +kernel)
  have hpopped : s.popped = [(lostEvent, .accepted "duplicate")] := by decide +kernel
  refine ⟨hpopped, ?_⟩
  rcases (delivered_exactly_once run).1 _ (hpopped ▸ List.mem_singleton_self _) with
    ⟨-, hrow⟩ | ⟨_, hdropped, -⟩
  · exact hrow
  · cases hdropped

end Delivery

end Quantframe.Helper
