import Quantframe.Trades.Pipeline

/-!
# What a call may do to its event

Every call of the pipeline keeps to `Moves`: it applies items and records an outcome only after it
has inserted the row or has seen it in need of review.
-/

namespace Quantframe.Trades
open Quantframe.Lib

/-- Where a call stands with its event. -/
inductive Phase where
  | fresh
  /-- The items still to apply; none are left while the result is not recorded. -/
  | applying (rest : List ResolvedItem)
  | failed
  | ignoring
  | booked
  | ignored
  | closed

/-- The call has taken the event up, and still has to apply items or to record an outcome. -/
def Phase.claims : Phase → Bool
  | .applying _ | .failed | .ignoring => true
  | _ => false

/-- Steps that neither take an event up nor say what became of it. -/
def Op.quiet : Op → Bool
  | .insert _ | .get _ | .setStatus .. | .applyItem .. => false
  | _ => true

/-- The remote requests made to resolve a trade. -/
def Op.looksUp : Op → Bool
  | .foldSets _ | .price _ => true
  | _ => false

theorem Op.quiet_of_looksUp {o : Op} (h : o.looksUp = true) : o.quiet = true := by
  cases o with
  | foldSets | price => rfl
  | _ => cases h

/-- Applier calls and the writes that end an event. -/
def Op.acts : Op → Bool
  | .applyItem .. | .setStatus .. => true
  | _ => false

def Op.applies : Op → Bool
  | .applyItem .. => true
  | _ => false

inductive Moves (call : Call) : Phase → (o : Op) → Reply o → Phase → Prop
  | quiet {q o r} (hq : q.claims = false) (ho : o.quiet = true) : Moves call q o r q
  | notInserted {event error} : Moves call .fresh (.insert event) (.error error) .fresh
  | inserted {event q} (hid : call.eventId? = some event.eventId) (hs : event.status = .needsReview)
      (hq : q = .closed ∨ ∃ rest, q = .applying rest) : Moves call .fresh (.insert event) (.ok ()) q
  | refused {id r} : Moves call .fresh (.get id) r .closed
  | reviewing {id event q} (hid : call.eventId? = some id) (hs : event.status = .needsReview)
      (hq : q = .ignoring ∨ ∃ rest, q = .applying rest) :
      Moves call .fresh (.get id) (.ok (some event)) q
  | applied {direction item rest player at_} :
      Moves call (.applying (item :: rest)) (.applyItem direction item player at_) (.ok ()) (.applying rest)
  | failed {direction item rest player at_ error} :
      Moves call (.applying (item :: rest)) (.applyItem direction item player at_) (.error error) .failed
  | booked {id reason resolution at_ r} (hid : call.eventId? = some id) :
      Moves call (.applying []) (.setStatus id .applied reason resolution at_) r .booked
  | parked {id reason resolution at_ r} (hid : call.eventId? = some id) :
      Moves call .failed (.setStatus id .needsReview reason resolution at_) r .closed
  | ignored {id reason resolution at_ b} (hid : call.eventId? = some id) :
      Moves call .ignoring (.setStatus id .ignored reason resolution at_) (.ok b) .ignored
  | notIgnored {id reason resolution at_ error} (hid : call.eventId? = some id) :
      Moves call .ignoring (.setStatus id .ignored reason resolution at_) (.error error) .closed

/-- A row found by its id has that id. -/
def Replies : (o : Op) → Reply o → Prop
  | .get id, r => ∀ event, r = .ok (some event) → event.eventId = id
  | _, _ => True

theorem answer_replies {o : Op} {choice : Choice} {t t' : HelperEvents} {r : Reply o}
    (h : answer o choice t = some (r, t')) : Replies o r := by
  cases o with
  | get id =>
      intro event hr
      cases choice with
      | works =>
          cases h
          exact HelperEvents.get_eventId (Except.ok.inj hr)
      | fails | items => cases h <;> cases hr
  | _ => trivial

theorem exists_reply (o : Op) : ∃ r : Reply o, Replies o r := by
  cases o with
  | foldSets => exact ⟨[], trivial⟩
  | notify | alert => exact ⟨(), trivial⟩
  | get id => exact ⟨.ok none, fun _ h => nomatch h⟩
  | _ => exact ⟨.error ⟨"", ""⟩, trivial⟩

/-- A call returns only when it owes its event nothing. -/
def Settled {α : Type} (q : Phase) (_ : α) : Prop := q.claims = false

def protocol (call : Call) : Protocol Op Reply Phase where
  replies := Replies
  moves := Moves call

variable {call : Call}

theorem keeps_quiet {α : Type} {o : Op} {next : Reply o → Steps α} {q : Phase} (hq : q.claims = false)
    (ho : o.quiet = true) (hnext : ∀ r, (next r).Follows (protocol call) Settled q) :
    (Prog.op o next).Follows (protocol call) Settled q :=
  fun r _ => ⟨q, .quiet hq ho, hnext r⟩

theorem applyItems_follows (direction : Direction) (items : List ResolvedItem) (player : String)
    (at_ : Timestamp) (completed : List String) :
    (applyItems direction items player at_ completed).Follows (protocol call)
      (fun q r => match r with | .ok _ => q = .applying [] | .error _ => q = .failed)
      (.applying items) := by
  induction items generalizing completed with
  | nil => rfl
  | cons item items ih =>
      intro r _
      cases r with
      | error error => exact ⟨.failed, .failed, rfl⟩
      | ok _ => exact ⟨.applying items, .applied, ih _⟩

theorem applyAndRecord_keeps {α : Type} {event : HelperEvent} {direction : Direction}
    {resolution : Resolution} {at_ : Option DateTime} {f : HelperEvent × Except Error Unit → Handler α}
    (hid : call.eventId? = some event.eventId)
    (hf : ∀ r q, q.claims = false → (f r).run.Follows (protocol call) Settled q) :
    (applyAndRecord event direction resolution at_ >>= f).run.Follows (protocol call) Settled
      (.applying resolution.items) := by
  refine Prog.Follows.bind (Prog.Follows.bind ?_)
  refine Prog.Follows.bind ((applyItems_follows direction resolution.items _ _ []).mono ?_)
  intro q r hr
  cases r with
  | ok _ =>
      cases hr
      intro r _
      refine ⟨.booked, .booked hid, ?_⟩
      cases r with
      | error error => rfl
      | ok b => exact keeps_quiet rfl rfl fun _ => hf _ _ rfl
  | error failure =>
      cases hr
      intro r _
      refine ⟨.closed, .parked hid, ?_⟩
      cases r with
      | error error => rfl
      | ok b => exact keeps_quiet rfl rfl fun _ => hf _ _ rfl

/-- The phase in which the caller of `reviewable` goes on is chosen when the row is read. -/
theorem reviewable_keeps {α : Type} {id : String} {f : HelperEvent → Handler α}
    (hid : call.eventId? = some id)
    (hf : ∀ event, event.eventId = id → ∃ q, (q = .closed ∨ q = .ignoring ∨ ∃ rest, q = .applying rest) ∧
      (f event).run.Follows (protocol call) Settled q) :
    (reviewable id >>= f).run.Follows (protocol call) Settled .fresh := by
  refine Prog.Follows.bindE ?_
  intro r hr
  cases r with
  | error error => exact ⟨.closed, .refused, rfl⟩
  | ok found =>
      cases found with
      | none => exact ⟨.closed, .refused, rfl⟩
      | some event =>
          by_cases hs : event.status = .needsReview
          · obtain ⟨q, hq, hkeeps⟩ := hf event (hr event rfl)
            refine ⟨q, ?_, ?_⟩
            · rcases hq with rfl | hq
              · exact .refused
              · exact .reviewing hid hs hq
            · simp only [Prog.bind, ExceptT.bindCont, ne_eq, hs, not_true_eq_false, if_false]
              exact hkeeps
          · refine ⟨.closed, .refused, ?_⟩
            simp only [Prog.bind, ExceptT.bindCont, ne_eq, hs, not_false_eq_true, if_true]
            exact rfl

theorem keeps_map {α β Q : Type} {P : Protocol Op Reply Q} {post : Q → Prop} {f : α → β} {p : Handler α}
    {q : Q} (h : p.run.Follows P (fun q _ => post q) q) :
    (f <$> p : Handler β).run.Follows P (fun q _ => post q) q := by
  refine Prog.Follows.bind (h.mono ?_)
  intro q r hq
  cases r with
  | ok _ => exact hq
  | error _ => exact hq

theorem alertEach_keeps (now : DateTime) (events : List HelperEvent) (alerted : Nat) :
    (alertEach now events alerted).run.Follows (protocol call) Settled .fresh := by
  induction events generalizing alerted with
  | nil => rfl
  | cons event events ih =>
      have hmark : ∀ event : HelperEvent,
          (Events.markAlerted event.eventId now >>= fun _ => alertEach now events (alerted + 1) :
            Handler Nat).run.Follows (protocol call) Settled .fresh := by
        intro event
        refine keeps_quiet rfl rfl ?_
        intro r
        cases r with
        | error _ => rfl
        | ok _ => exact ih _
      unfold alertEach
      by_cases happlying : event.reason = some applying
      · simp only [if_pos happlying]
        refine keeps_quiet rfl rfl ?_
        intro r
        cases r with
        | error _ => rfl
        | ok _ => exact keeps_quiet rfl rfl fun _ => hmark _
      · simp only [if_neg happlying]
        exact keeps_quiet rfl rfl fun _ => hmark _

/-- `resolve_event` only reads. -/
theorem resolveEvent_follows {Q α : Type} {P : Protocol Op Reply Q} {q : Q} {post : Q → Except Error α → Prop}
    {env : TradeEnv} {trade : RawTrade} {f : Resolution × Option String → Handler α}
    (hlooks : ∀ (o : Op) (r : Reply o), o.looksUp = true → P.moves q o r q)
    (herror : ∀ e, post q (.error e)) (hf : ∀ r, (f r).run.Follows P post q) :
    (resolveEvent env trade >>= f).run.Follows P post q := by
  have hprice : ∀ (resolution : Resolution) (g : Resolution → Handler (Resolution × Option String)),
      (∀ r, (g r >>= f).run.Follows P post q) →
        ((price resolution >>= g) >>= f).run.Follows P post q := by
    intro resolution g hg
    unfold price
    split
    · exact hg resolution
    · intro r _
      refine ⟨q, hlooks _ r rfl, ?_⟩
      cases r with
      | error e => exact herror e
      | ok priced => exact hg priced
  unfold resolveEvent
  split
  · exact hf _
  · next resolved _ =>
      by_cases hsets : (env.setCandidates resolved.resolution.items).isEmpty = true
      · simp only [if_pos hsets]
        exact hprice _ _ fun r => hf _
      · simp only [if_neg hsets]
        exact fun items _ => ⟨q, hlooks _ items rfl, hprice _ _ fun r => hf _⟩

theorem body_keeps (call : Call) : call.body.Follows (protocol call) Settled .fresh := by
  cases call with
  | handleIncoming env deviceName incoming now =>
      refine keeps_map ?_
      simp only [handleIncoming]
      split
      · rfl
      · next detectedAt _ =>
          refine keeps_quiet rfl rfl ?_
          intro r
          cases r with
          | error _ => rfl
          | ok found =>
              cases found with
              | true => rfl
              | false =>
                  refine resolveEvent_follows (fun _ _ ho => .quiet rfl (Op.quiet_of_looksUp ho)) (fun _ => rfl) ?_
                  rintro ⟨resolution, reviewReason⟩
                  intro r _
                  cases r with
                  | error error =>
                      refine ⟨.fresh, .notInserted, keeps_quiet rfl rfl ?_⟩
                      intro r
                      cases r with
                      | error _ => rfl
                      | ok found => cases found <;> rfl
                  | ok _ =>
                      cases reviewReason with
                      | some reason =>
                          exact ⟨.closed, .inserted rfl rfl (.inl rfl), keeps_quiet rfl rfl fun _ => rfl⟩
                      | none =>
                          cases hd : resolution.direction with
                          | none =>
                              exact ⟨.closed, .inserted rfl rfl (.inl rfl),
                                keeps_quiet rfl rfl fun _ => rfl⟩
                          | some direction =>
                              exact ⟨_, .inserted rfl rfl (.inr ⟨resolution.items, rfl⟩),
                                applyAndRecord_keeps rfl fun _ _ hq => hq⟩
  | applyReviewed env eventId items now =>
      refine keeps_map (reviewable_keeps rfl ?_)
      intro event hid
      simp only
      split
      · exact ⟨.closed, .inl rfl, rfl⟩
      · split
        · exact ⟨.closed, .inl rfl, rfl⟩
        · split
          · exact ⟨.closed, .inl rfl, rfl⟩
          · refine ⟨_, .inr (.inr ⟨_, rfl⟩), applyAndRecord_keeps (congrArg some hid.symm) ?_⟩
            rintro ⟨event, result⟩ q hq
            cases result with
            | error _ => exact hq
            | ok _ => exact hq
  | ignore eventId now =>
      refine keeps_map (reviewable_keeps rfl ?_)
      intro event hid
      refine ⟨.ignoring, .inr (.inl rfl), ?_⟩
      intro r _
      cases r with
      | error error => exact ⟨_, .notIgnored rfl, rfl⟩
      | ok _ => exact ⟨_, .ignored rfl, rfl⟩
  | sweepAlerts now =>
      refine keeps_map (keeps_quiet rfl rfl ?_)
      intro r
      cases r with
      | error error => rfl
      | ok events => exact alertEach_keeps now events 0

end Quantframe.Trades
