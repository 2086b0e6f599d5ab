import Quantframe.Trades.Phases

/-!
# One trade request

The helper's client, and the route the server answers it with.
-/

namespace Quantframe.Helper
open Quantframe.Lib Quantframe.Trades

/-- One line of the queue file and the body of `POST /helper/trade`. -/
structure QueuedEvent where
  eventId : String
  detectedAt : String
  trade : RawTrade
  deriving DecidableEq, Repr

def QueuedEvent.incoming (event : QueuedEvent) : IncomingTrade :=
  ⟨event.eventId, event.detectedAt, event.trade⟩

/-! ### The client -/

/-- What comes back from `send`: a status with a body that may not be readable, or no reply. -/
inductive HttpResult where
  | reply (status : Nat) (body : Except String String)
  | error (reason : String)

def isSuccess (status : Nat) : Bool := 200 ≤ status && status < 300

def HttpResult.succeeds : HttpResult → Bool
  | .reply status _ => isSuccess status
  | .error _ => false

inductive TradeOutcome where
  /-- A 2xx, with the server's status. -/
  | accepted (status : String)
  /-- 401: the device key is wrong or revoked. -/
  | rejected
  /-- A 4xx the server will never accept. -/
  | dropped (status : Nat)
  /-- Network trouble or any other status; retried. -/
  | failed (reason : String)
  deriving DecidableEq, Repr

/-- The statuses after which the helper gives an event up. -/
def permanent : List Nat := [400, 404, 409, 413, 422]

/-- `TradeClient::send`, once the request is over. -/
def TradeOutcome.of : HttpResult → TradeOutcome
  | .reply status body =>
      if isSuccess status then
        match body with
        | .ok serverStatus => .accepted serverStatus
        | .error e => .accepted ("accepted, unreadable reply: " ++ e)
      else if status = 401 then .rejected
      else if status ∈ permanent then .dropped status
      else .failed ("server returned " ++ toString status)
  | .error reason => .failed reason

def TradeOutcome.removesFromQueue : TradeOutcome → Bool
  | .accepted _ | .dropped _ => true
  | _ => false

/-- An outcome that removes the event comes from a 2xx or a permanent 4xx. -/
theorem TradeOutcome.of_removes {result : HttpResult} (h : (TradeOutcome.of result).removesFromQueue = true) :
    ((∃ status, TradeOutcome.of result = .accepted status) ∧ result.succeeds = true) ∨
      ∃ status, TradeOutcome.of result = .dropped status ∧ status ∈ permanent := by
  cases result with
  | error reason => cases h
  | reply status body =>
      simp only [TradeOutcome.of] at h ⊢
      by_cases hsuccess : isSuccess status = true
      · rw [if_pos hsuccess]
        cases body <;> exact .inl ⟨⟨_, rfl⟩, hsuccess⟩
      · rw [if_neg hsuccess] at h ⊢
        by_cases hrejected : status = 401
        · rw [if_pos hrejected] at h
          cases h
        · rw [if_neg hrejected] at h ⊢
          by_cases hpermanent : status ∈ permanent
          · rw [if_pos hpermanent]
            exact .inr ⟨status, rfl, hpermanent⟩
          · rw [if_neg hpermanent] at h
            cases h

/-! ### The route -/

/-- What `require_device_key` makes of the request. -/
inductive Device where
  | notReady
  | noKey
  | unknownKey
  | failed
  | known (name : String)

structure Request where
  event : QueuedEvent
  device : Device
  /-- Whether the body still parses when it arrives. -/
  readable : Bool
  env : TradeEnv
  now : DateTime

structure Response where
  status : Nat
  outcome : Option Outcome
  deriving DecidableEq, Repr

def helperTrade (req : Request) (deviceName : String) : Steps Response :=
  if !req.readable then return ⟨400, none⟩
  else
    match validate req.env req.event.incoming with
    | .error _ => return ⟨400, none⟩
    | .ok _ => do
        match ← (handleIncoming req.env deviceName req.event.incoming req.now).run with
        | .ok outcome => return ⟨200, some outcome⟩
        | .error _ => return ⟨500, none⟩

def Request.body (req : Request) : Steps Response :=
  match req.device with
  | .notReady => return ⟨503, none⟩
  | .noKey | .unknownKey => return ⟨401, none⟩
  | .failed => return ⟨500, none⟩
  | .known deviceName => helperTrade req deviceName

/-! ### What a request knows of its row -/

inductive Stage where
  | fresh
  /-- The row was there already. -/
  | present
  /-- This request has inserted the row. -/
  | inserted
  deriving DecidableEq, Repr

inductive StageMoves (id : String) : Stage → (o : Op) → Reply o → Stage → Prop
  | quiet {q : Stage} {o : Op} {r : Reply o} (ho : o.quiet = true) : StageMoves id q o r q
  | found : StageMoves id .fresh (.exists id) (.ok true) .present
  | notInserted {event : HelperEvent} {error : Error} :
      StageMoves id .fresh (.insert event) (.error error) .fresh
  | inserted {event : HelperEvent} (hid : event.eventId = id) :
      StageMoves id .fresh (.insert event) (.ok ()) .inserted
  | acts {o : Op} {r : Reply o} (ho : o.acts = true) : StageMoves id .inserted o r .inserted

def stageProtocol (id : String) : Protocol Op Reply Stage where
  replies := fun _ _ => True
  moves := StageMoves id

variable {id : String}

section Moves

variable {q q' : Stage} {o : Op} {r : Reply o}

theorem StageMoves.stays (h : StageMoves id q o r q')
    (hq : q ≠ .fresh) : q' = q := by
  cases h with
  | quiet | acts => rfl
  | found | notInserted | inserted => exact absurd rfl hq

/-- How a request learns of its row. -/
theorem StageMoves.learns {choice : Choice}
    {t t' : HelperEvents} (h : StageMoves id .fresh o r q') (ha : answer o choice t = some (r, t'))
    (hq : q' ≠ .fresh) : t'.has id = true ∧ (q' = .inserted → t.has id = false) := by
  cases h with
  | quiet | notInserted => exact absurd rfl hq
  | found => exact ⟨answer_has ha (answer_exists ha), nofun⟩
  | inserted hid =>
      subst hid
      rcases answer_insert ha with ⟨_, hr, -⟩ | ⟨-, hnone, hstatus⟩
      · cases hr
      · constructor
        · rw [HelperEvents.has_iff, hstatus, if_pos rfl]
          exact Option.some_ne_none _
        · intro _
          exact Bool.eq_false_of_not_eq_true fun hhas => HelperEvents.has_iff.mp hhas hnone

theorem StageMoves.applies (h : StageMoves id q o r q')
    (ho : o.applies = true) : q = .inserted ∧ q' = .inserted := by
  cases h with
  | quiet hquiet =>
      cases o with
      | applyItem => cases hquiet
      | _ => cases ho
  | acts => exact ⟨rfl, rfl⟩
  | found | notInserted | inserted => cases ho

end Moves

theorem follows_quiet {α : Type} {o : Op} {next : Reply o → Steps α} {post : Stage → α → Prop} {q : Stage}
    (ho : o.quiet = true) (hnext : ∀ r, (next r).Follows (stageProtocol id) post q) :
    (Prog.op o next).Follows (stageProtocol id) post q :=
  fun r _ => ⟨q, .quiet ho, hnext r⟩

theorem applyItems_inserted (direction : Direction) (items : List ResolvedItem) (player : String)
    (at_ : Timestamp) (completed : List String) :
    (applyItems direction items player at_ completed).Follows (stageProtocol id)
      (fun q _ => q = .inserted) .inserted := by
  induction items generalizing completed with
  | nil => rfl
  | cons item items ih =>
      intro r _
      refine ⟨.inserted, .acts rfl, ?_⟩
      cases r with
      | error error => rfl
      | ok _ => exact ih _

theorem applyAndRecord_inserted {α : Type} {event : HelperEvent} {direction : Direction}
    {resolution : Resolution} {at_ : Option DateTime} {f : HelperEvent × Except Error Unit → Handler α}
    {post : Stage → Except Error α → Prop} (herror : ∀ e, post .inserted (.error e))
    (hf : ∀ r, (f r).run.Follows (stageProtocol id) post .inserted) :
    (applyAndRecord event direction resolution at_ >>= f).run.Follows (stageProtocol id) post .inserted := by
  refine Prog.Follows.bind (Prog.Follows.bind ?_)
  refine Prog.Follows.bind ((applyItems_inserted direction resolution.items _ _ []).mono ?_)
  intro q r hq
  subst hq
  cases r with
  | ok _ =>
      intro r _
      refine ⟨.inserted, .acts rfl, ?_⟩
      cases r with
      | error error => exact herror error
      | ok b => exact follows_quiet rfl fun _ => hf _
  | error failure =>
      intro r _
      refine ⟨.inserted, .acts rfl, ?_⟩
      cases r with
      | error error => exact herror error
      | ok b => exact follows_quiet rfl fun _ => hf _

/-- A request that succeeds has found its row or has inserted it. -/
def Knows {α : Type} (q : Stage) (r : Except Error α) : Prop := ∀ a, r = .ok a → q ≠ .fresh

theorem handleIncoming_follows (env : TradeEnv) (deviceName : String) (incoming : IncomingTrade)
    (now : DateTime) :
    (handleIncoming env deviceName incoming now).run.Follows (stageProtocol incoming.eventId) Knows .fresh := by
  have hknown : ∀ {q : Stage} {r : Except Error Outcome}, q ≠ .fresh → Knows q r := fun hq _ _ => hq
  unfold handleIncoming
  split
  · exact nofun
  · intro r _
    cases r with
    | error _ => exact ⟨.fresh, .quiet rfl, nofun⟩
    | ok found =>
        cases found with
        | true => exact ⟨.present, .found, hknown nofun⟩
        | false =>
            refine ⟨.fresh, .quiet rfl, ?_⟩
            refine resolveEvent_follows (fun _ _ ho => .quiet (Op.quiet_of_looksUp ho)) (fun _ => nofun) ?_
            rintro ⟨resolution, reviewReason⟩
            intro r _
            cases r with
            | error error =>
                refine ⟨.fresh, .notInserted, ?_⟩
                intro r _
                cases r with
                | error _ => exact ⟨.fresh, .quiet rfl, nofun⟩
                | ok found =>
                    cases found with
                    | true => exact ⟨.present, .found, hknown nofun⟩
                    | false => exact ⟨.fresh, .quiet rfl, nofun⟩
            | ok _ =>
                refine ⟨.inserted, .inserted rfl, ?_⟩
                cases reviewReason with
                | some reason => exact follows_quiet rfl fun _ => hknown nofun
                | none =>
                    cases hd : resolution.direction with
                    | none => exact follows_quiet rfl fun _ => hknown nofun
                    | some direction =>
                        exact applyAndRecord_inserted (fun _ => hknown nofun) fun _ => hknown nofun

/-- The route answers 2xx only when it knows of the row. -/
def Replied (q : Stage) (response : Response) : Prop := isSuccess response.status = true → q ≠ .fresh

theorem body_follows (req : Request) :
    req.body.Follows (stageProtocol req.event.eventId) Replied .fresh := by
  have hfails : ∀ {q : Stage} {status : Nat}, isSuccess status = false → Replied q ⟨status, none⟩ := by
    intro q status hstatus hsuccess
    cases hstatus.symm.trans hsuccess
  unfold Request.body
  split
  · exact hfails rfl
  · exact hfails rfl
  · exact hfails rfl
  · exact hfails rfl
  · next deviceName _ =>
      unfold helperTrade
      split
      · exact hfails rfl
      · split
        · exact hfails rfl
        · refine Prog.Follows.bind
            ((handleIncoming_follows req.env deviceName req.event.incoming req.now).mono ?_)
          intro q r hq
          cases r with
          | ok outcome => exact fun _ => hq outcome rfl
          | error _ => exact hfails rfl

end Quantframe.Helper
