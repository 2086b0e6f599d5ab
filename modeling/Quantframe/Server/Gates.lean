import Quantframe.Lib.Log
import Quantframe.Server.Routes

/-!
# The gates

What must have gone before for a request to be let through: a login with the right password for a page or a command,
and few enough attempts for a login. What the server keeps in its maps and queues is described by the history of all
requests, in whatever order their steps came.
-/

namespace Quantframe.Server

open Lib LogParser
open Trades (DateTime)

/-! ### What the history says -/

section History

variable (o : Outside) (hash origin : Text)

/-- The request is a read that is no websocket, or carries the server's own origin. -/
def OriginAllowed (req : Request) : Prop :=
  (req.method = .get ∨ req.method = .head) ∧ req.path ≠ "/ws".toList ∨
    (req.headers.get .origin).bind toStr = some origin

/-- The login with the right password. -/
def Verifies (id : Nat) (_ : List Event) (e : Event) : Prop :=
  ∃ req now password, e = .request id req now .verified ∧
    router req.method req.path = (.originOnly, .loginSubmit) ∧ OriginAllowed origin req ∧
    req.form = some password ∧ o.verifyPassword password hash = true

/-- A session begins, for a login with the right password. -/
def SignsIn (token : Text) (at_ : Nat) (before : List Event) (e : Event) : Prop :=
  ∃ id bytes, e = .signIn id bytes at_ ∧ hexEncode bytes.toList = token ∧ Happened (Verifies o hash origin id) before

def LogsOut (token : Text) (_ : List Event) (e : Event) : Prop :=
  ∃ id req now, e = .request id req now .loggedOut ∧ tokenFromHeaders req.headers = some token

/-- The token's session began less than thirty days ago, and it has not logged out since. -/
def Live (log : List Event) (token : Text) (now : Nat) : Prop :=
  ∃ at_, Since (SignsIn o hash origin token at_) (LogsOut token) log ∧ now < at_ + secs cookieMaxAgeSecs

/-- The request has what the session's gate asks for. -/
def Entitled (before : List Event) (req : Request) (now : Nat) : Prop :=
  OriginAllowed origin req ∧ ∃ token, tokenFromHeaders req.headers = some token ∧ Live o hash origin before token now

/-- The request is let through to a command. -/
def Commands (id : Nat) (name : Text) (before : List Event) (e : Event) : Prop :=
  ∃ req now, e = .request id req now (.serve (.rpc name)) ∧ Entitled o hash origin before req now

end History

/-- The instant a password was looked at. -/
def Event.attempt : Event → Option Nat
  | .request _ _ now answer => if answer.tried then some now else none
  | _ => none

def attempts (log : List Event) : List Nat := log.filterMap Event.attempt

theorem checkOrigin_iff {s : ServerState} {req : Request} :
    s.checkOrigin req = true ↔ OriginAllowed s.publicOrigin req := by
  have hsame : (((req.headers.get .origin).bind toStr).any fun value => value == s.publicOrigin) = true ↔
      (req.headers.get .origin).bind toStr = some s.publicOrigin := by
    rw [Option.any_eq_true]
    simp only [beq_iff_eq]
    exact exists_eq_right
  simp only [ServerState.checkOrigin, OriginAllowed]
  split
  · next hasked =>
      rw [hsame, or_iff_right]
      rintro ⟨hread, hpath⟩
      rcases hasked with hwrite | hws
      · exact hwrite hread
      · exact hpath hws
  · next hfree =>
      rw [not_or, not_not] at hfree
      exact iff_of_true rfl (.inl ⟨hfree.1, hfree.2⟩)

/-! ### Steps -/

namespace Running

variable {o : Outside} {s t : Running}

theorem step_request {id now : Nat} {req : Request} {answer : Answer}
    (h : s.step o (.request id req now answer) = some t) :
    s.clock ≤ now ∧ s.flight.lookup id = none ∧ Served o s.toServerState req now answer t.toServerState ∧
      t.clock = now ∧ t.flight = match answer.phase with
        | some phase => s.flight.insertOrReplace (id, phase)
        | none => s.flight := by
  simp only [step] at h
  split at h
  · next hguard =>
      obtain ⟨hclock, hfree, rfl⟩ := hguard
      cases h
      exact ⟨hclock, hfree, serve_served, rfl, rfl⟩
  · cases h

theorem step_signIn {id now : Nat} {bytes : Random} (h : s.step o (.signIn id bytes now) = some t) :
    s.clock ≤ now ∧ s.flight.lookup id = some (id, .verified) ∧
      t = { s with sessions := (s.sessions.create bytes now).2, clock := now, flight := s.flight.delete id } := by
  simp only [step] at h
  split at h
  · next hguard =>
      cases h
      exact ⟨hguard.1, hguard.2, rfl⟩
  · cases h

theorem step_seen {id : Nat} {device : DeviceIdentity} {now : DateTime}
    (h : s.step o (.seen id device now) = some t) :
    ∃ handler, s.flight.lookup id = some (id, .identified device handler) ∧
      t = { s with keys := Keys.markSeen s.keys device.id now
                   flight := s.flight.insertOrReplace (id, .serving handler) } := by
  simp only [step] at h
  split at h
  · next id' known handler hlookup =>
      split at h
      · next hsame =>
          cases h
          cases Table.key_of_lookup hlookup
          exact ⟨handler, hsame ▸ hlookup, rfl⟩
      · cases h
  · cases h

theorem runs_iff {id : Nat} {command : Text} : s.runs o id command = true ↔
    ∃ name, s.flight.lookup id = some (id, .serving (.rpc name)) ∧ o.percentDecode name = some command := by
  rw [runs]
  split
  · next id' name hlookup =>
      cases Table.key_of_lookup hlookup
      simp [hlookup]
  · next hnone =>
      refine iff_of_false (by simp) ?_
      rintro ⟨name, hlookup, -⟩
      exact hnone _ _ hlookup

theorem step_create {id : Nat} {name : Text} {random : Except String Random} {now : DateTime}
    {result : Except KeyError CreatedDevice} (h : s.step o (.create id name random now result) = some t) :
    s.runs o id "helper_device_create".toList = true ∧
      ((∃ created keys, Keys.create o.sha256 o.conflict s.keys name random now = .ok (created, keys) ∧
          result = .ok created ∧ t = { s with keys }) ∨
        (∃ e, Keys.create o.sha256 o.conflict s.keys name random now = .error e ∧ result = .error e) ∧ t = s) := by
  simp only [step] at h
  split at h
  · next hruns =>
      refine ⟨hruns, ?_⟩
      split at h
      · next created keys hcreate =>
          split at h
          · next hresult =>
              cases h
              exact .inl ⟨created, keys, hcreate, hresult, rfl⟩
          · cases h
      · next e hcreate =>
          split at h
          · next hresult =>
              cases h
              exact .inr ⟨⟨e, hcreate, hresult⟩, rfl⟩
          · cases h
  · cases h

theorem step_revoke {id : Nat} {device : Int} {now : DateTime} {changed : Bool}
    (h : s.step o (.revoke id device now changed) = some t) :
    s.runs o id "helper_device_revoke".toList = true ∧ (Keys.revoke s.keys device now).1 = changed ∧
      t = { s with keys := (Keys.revoke s.keys device now).2 } := by
  simp only [step] at h
  split at h
  · next hguard =>
      cases h
      exact ⟨hguard.1, hguard.2, rfl⟩
  · cases h

theorem step_devices {id : Nat} {shown : List HelperDevice} (h : s.step o (.devices id shown) = some t) :
    s.runs o id "helper_devices".toList = true ∧ Keys.list s.keys = shown ∧ t = s := by
  simp only [step] at h
  split at h
  · next hguard =>
      cases h
      exact ⟨hguard.1, hguard.2, rfl⟩
  · cases h

/-! ### What is kept of the history -/

section Follows

variable {hash origin : Text} {log : List Event} {e : Event}

theorem live_concat {token : Text} {now : Nat} : Live o hash origin (log ++ [e]) token now ↔
    (∃ at_, SignsIn o hash origin token at_ log e ∧ now < at_ + secs cookieMaxAgeSecs) ∨
      Live o hash origin log token now ∧ ¬ LogsOut token log e := by
  simp only [Live, since_concat]
  constructor
  · rintro ⟨at_, hsigns | ⟨hsince, hkeeps⟩, hnow⟩
    · exact .inl ⟨at_, hsigns, hnow⟩
    · exact .inr ⟨⟨at_, hsince, hnow⟩, hkeeps⟩
  · rintro (⟨at_, hsigns, hnow⟩ | ⟨⟨at_, hsince, hnow⟩, hkeeps⟩)
    · exact ⟨at_, .inl hsigns, hnow⟩
    · exact ⟨at_, .inr ⟨hsince, hkeeps⟩, hnow⟩

theorem attempts_concat : attempts (log ++ [e]) = attempts log ++ e.attempt.toList := by
  rw [attempts, attempts, List.filterMap_append]
  cases hattempt : e.attempt with
  | none => rw [List.filterMap_cons_none hattempt, List.filterMap_nil, Option.toList_none]
  | some now => rw [List.filterMap_cons_some hattempt, List.filterMap_nil, Option.toList_some]

variable (o hash origin) in
/-- Sessions, attempts and requests under way are what the history says. -/
structure Follows (log : List Event) (s : Running) : Prop where
  passwordHash : s.passwordHash = hash
  publicOrigin : s.publicOrigin = origin
  ttl : s.sessions.ttl = secs cookieMaxAgeSecs
  max : s.limiter.max = 5
  window : s.limiter.window = secs 60
  lives : ∀ token later, s.clock ≤ later → (s.sessions.Lives token later ↔ Live o hash origin log token later)
  past : ∀ token at_, Happened (SignsIn o hash origin token at_) log → at_ ≤ s.clock
  attempts : (LoginLimiter.expiry (secs 60)).Keeps 5 s.clock (attempts log) s.limiter.attempts
  verified : ∀ id, s.flight.lookup id = some (id, .verified) → Happened (Verifies o hash origin id) log
  helpers : ∀ id device handler, s.flight.lookup id = some (id, .identified device handler) →
    ∀ name, handler ≠ .rpc name
  commands : ∀ id name, s.flight.lookup id = some (id, .serving (.rpc name)) →
    Happened (Commands o hash origin id name) log

theorem start_follows {keys : HelperKeys} : Follows o hash origin [] (start hash origin keys) where
  passwordHash := rfl
  publicOrigin := rfl
  ttl := rfl
  max := rfl
  window := rfl
  lives token later _ := iff_of_false (Sessions.not_lives_new _) fun ⟨_, hsince, _⟩ => not_since_nil hsince
  past _ _ h := absurd h not_happened_nil
  attempts := Expiry.keeps_nil _ _ _
  verified id h := by cases h
  helpers id device handler h := by cases h
  commands id name h := by cases h

/-- The steps that touch neither sessions nor attempts. -/
theorem Follows.quiet (h : Follows o hash origin log s) (hsessions : t.sessions = s.sessions)
    (hlimiter : t.limiter = s.limiter) (hhash : t.passwordHash = s.passwordHash)
    (horigin : t.publicOrigin = s.publicOrigin) (hclock : t.clock = s.clock)
    (hflight : ∀ id phase, t.flight.lookup id = some (id, phase) →
      s.flight.lookup id = some (id, phase) ∨ ∃ handler, phase = .serving handler ∧ ∀ name, handler ≠ .rpc name)
    (hnoRequest : ∀ id req now answer, e ≠ .request id req now answer)
    (hnoSignIn : ∀ id bytes now, e ≠ .signIn id bytes now) : Follows o hash origin (log ++ [e]) t where
  passwordHash := hhash.trans h.passwordHash
  publicOrigin := horigin.trans h.publicOrigin
  ttl := by rw [hsessions, h.ttl]
  max := by rw [hlimiter, h.max]
  window := by rw [hlimiter, h.window]
  lives token later hlater := by
    have hsigns : ∀ at_, ¬ SignsIn o hash origin token at_ log e := by
      rintro at_ ⟨id, bytes, he, -⟩
      exact hnoSignIn _ _ _ he
    have hlogs : ¬ LogsOut token log e := by
      rintro ⟨id, req, now, he, -⟩
      exact hnoRequest _ _ _ _ he
    rw [hsessions, h.lives token later (hclock ▸ hlater), live_concat]
    simp [hsigns, hlogs]
  past token at_ hhappened := by
    rw [hclock]
    rcases happened_concat.mp hhappened with ⟨id, bytes, he, -⟩ | hold
    · exact absurd he (hnoSignIn _ _ _)
    · exact h.past token at_ hold
  attempts := by
    have hnone : e.attempt = none := by
      cases e with
      | request id req now answer => exact absurd rfl (hnoRequest _ _ _ _)
      | _ => rfl
    rw [attempts_concat, hnone, Option.toList_none, List.append_nil, hlimiter, hclock]
    exact h.attempts
  verified id hlookup := by
    rcases hflight id _ hlookup with hold | ⟨handler, hphase, -⟩
    · exact happened_concat.mpr (.inr (h.verified id hold))
    · cases hphase
  helpers id device handler hlookup := by
    rcases hflight id _ hlookup with hold | ⟨handler, hphase, -⟩
    · exact h.helpers id device handler hold
    · cases hphase
  commands id name hlookup := by
    rcases hflight id _ hlookup with hold | ⟨handler, hphase, hnot⟩
    · exact happened_concat.mpr (.inr (h.commands id name hold))
    · cases hphase
      exact absurd rfl (hnot name)

/-- What the request was let through with. -/
theorem Follows.entitled (h : Follows o hash origin log s) {req : Request} {now : Nat} (hclock : s.clock ≤ now) :
    (s.checkOrigin req = true ∧ ∃ token, tokenFromHeaders req.headers = some token ∧ s.sessions.Lives token now) ↔
      Entitled o hash origin log req now := by
  rw [checkOrigin_iff, h.publicOrigin, Entitled]
  refine and_congr_right fun _ => exists_congr fun token => and_congr_right fun _ => ?_
  exact h.lives token now hclock

theorem Follows.request (h : Follows o hash origin log s) {id now : Nat} {req : Request} {answer : Answer}
    (hstep : s.step o (.request id req now answer) = some t) :
    Follows o hash origin (log ++ [.request id req now answer]) t := by
  obtain ⟨hclock, hfree, hserved, htclock, hflight⟩ := step_request hstep
  obtain ⟨hhash, horigin, httl, hmax, hwindow, -⟩ := hserved.fixed
  -- a request that was under way before, or this one
  have hlookup : ∀ id' phase, t.flight.lookup id' = some (id', phase) →
      s.flight.lookup id' = some (id', phase) ∨ id' = id ∧ answer.phase = some phase := by
    intro id' phase hfound
    rw [hflight] at hfound
    cases hphase : answer.phase with
    | none =>
        rw [hphase] at hfound
        exact .inl hfound
    | some phase' =>
        rw [hphase, Table.lookup_insertOrReplace] at hfound
        split at hfound
        · next hid =>
            cases hfound
            exact .inr ⟨rfl, rfl⟩
        · exact .inl hfound
  refine ⟨?_, ?_, ?_, ?_, ?_, ?_, ?_, ?_, ?_, ?_, ?_⟩
  · exact hhash.trans h.passwordHash
  · exact horigin.trans h.publicOrigin
  · exact httl.trans h.ttl
  · exact hmax.trans h.max
  · exact hwindow.trans h.window
  · intro token later hlater
    rw [htclock] at hlater
    have hsigns : ∀ at_, ¬ SignsIn o hash origin token at_ log (.request id req now answer) := by
      rintro at_ ⟨id', bytes, he, -⟩
      cases he
    have hlogs : LogsOut token log (.request id req now answer) ↔
        answer = .loggedOut ∧ tokenFromHeaders req.headers = some token := by
      constructor
      · rintro ⟨id', req', now', he, htoken⟩
        cases he
        exact ⟨rfl, htoken⟩
      · rintro ⟨rfl, htoken⟩
        exact ⟨id, req, now, rfl, htoken⟩
    rw [hserved.lives hlater, h.lives token later (hclock.trans hlater), live_concat, hlogs]
    simp [hsigns]
  · intro token at_ hhappened
    rw [htclock]
    rcases happened_concat.mp hhappened with ⟨id', bytes, he, -⟩ | hold
    · cases he
    · exact (h.past token at_ hold).trans hclock
  · rw [attempts_concat, htclock]
    have hkeeps := h.attempts
    rcases hserved.limiter with ⟨hsame, hnot⟩ | ⟨hacquired, htried⟩
    · have hnone : (Event.request id req now answer).attempt = none := if_neg (Bool.eq_false_iff.mp hnot)
      rw [hnone, Option.toList_none, List.append_nil, hsame]
      exact hkeeps.advance hclock
    · have hafter := hkeeps.acquire_snd hclock
      have hattempt : (Event.request id req now answer).attempt = if answer.tried then some now else none := rfl
      rw [hacquired, hattempt, htried, LoginLimiter.tryAcquire_eq, h.window, h.max]
      split at hafter
      · next hallowed =>
          rw [if_pos hallowed]
          exact hafter
      · next hrefused =>
          rw [if_neg hrefused, Option.toList_none, List.append_nil]
          exact hafter
  · intro id' hfound
    rw [happened_concat]
    rcases hlookup id' _ hfound with hold | ⟨rfl, hphase⟩
    · exact .inr (h.verified id' hold)
    · have hverified : answer = .verified := by
        cases answer with
        | verified => rfl
        | _ => cases hphase
      obtain ⟨hguard, hallowed, password, hform, hright⟩ := hserved.verified hverified
      rw [checkOrigin_iff, h.publicOrigin] at hallowed
      rw [h.passwordHash] at hright
      exact .inl ⟨req, now, password, hverified ▸ rfl, hguard, hallowed, hform, hright⟩
  · intro id' device handler hfound name
    rcases hlookup id' _ hfound with hold | ⟨rfl, hphase⟩
    · exact h.helpers id' device handler hold name
    · have hidentified : answer = .identified device handler := by
        cases answer with
        | identified device' handler' =>
            cases hphase
            rfl
        | _ => cases hphase
      obtain ⟨hguard, -⟩ := hserved.identified hidentified
      intro hrpc
      have houter := @router_session req.method _ (router_of_rpc ((congrArg Prod.snd hguard).trans hrpc))
      rw [hguard] at houter
      cases houter
  · intro id' name hfound
    rw [happened_concat]
    rcases hlookup id' _ hfound with hold | ⟨rfl, hphase⟩
    · exact .inr (h.commands id' name hold)
    · have hserve : answer = .serve (.rpc name) := by
        cases answer with
        | serve handler =>
            cases hphase
            rfl
        | _ => cases hphase
      have hguard := hserved.guard_of_rpc hserve
      obtain ⟨-, hentitled⟩ := (hserved.serve_iff hguard).mp hserve
      exact .inl ⟨req, now, hserve ▸ rfl, (h.entitled hclock).mp hentitled⟩

theorem Follows.signIn (h : Follows o hash origin log s) {id now : Nat} {bytes : Random}
    (hstep : s.step o (.signIn id bytes now) = some t) : Follows o hash origin (log ++ [.signIn id bytes now]) t := by
  obtain ⟨hclock, hwaits, rfl⟩ := step_signIn hstep
  have hsigns : ∀ token at_, SignsIn o hash origin token at_ log (.signIn id bytes now) ↔
      hexEncode bytes.toList = token ∧ now = at_ := by
    intro token at_
    constructor
    · rintro ⟨id', bytes', he, htoken, -⟩
      cases he
      exact ⟨htoken, rfl⟩
    · rintro ⟨htoken, rfl⟩
      exact ⟨id, bytes, rfl, htoken, h.verified id hwaits⟩
  have hlogs : ∀ token, ¬ LogsOut token log (.signIn id bytes now) := by
    rintro token ⟨id', req, now', he, -⟩
    cases he
  have hdelete : ∀ {id' phase}, (s.flight.delete id).lookup id' = some (id', phase) →
      s.flight.lookup id' = some (id', phase) := Table.lookup_of_delete
  refine ⟨h.passwordHash, h.publicOrigin, h.ttl, h.max, h.window, ?_, ?_, ?_, ?_, ?_, ?_⟩
  · intro token later hlater
    rw [Sessions.lives_create, live_concat, h.ttl]
    simp only [hsigns, hlogs, not_false_eq_true, and_true]
    have hold := h.lives token later (hclock.trans hlater)
    split
    · next htoken =>
        constructor
        · intro hlives
          exact .inl ⟨now, ⟨htoken.symm, rfl⟩, hlives⟩
        · rintro (⟨at_, ⟨-, rfl⟩, hlives⟩ | ⟨at_, hsince, hlives⟩)
          · exact hlives
          -- an older session of the token ends no later
          · exact hlives.trans_le (Nat.add_le_add_right ((h.past token at_ hsince.happened).trans hclock) _)
    · next hother =>
        rw [hold]
        refine (or_iff_right ?_).symm
        rintro ⟨at_, ⟨htoken, -⟩, -⟩
        exact hother htoken.symm
  · intro token at_ hhappened
    rcases happened_concat.mp hhappened with hnew | hold
    · exact ((hsigns token at_).mp hnew).2.ge
    · exact (h.past token at_ hold).trans hclock
  · rw [attempts_concat]
    exact (List.append_nil _).symm ▸ h.attempts.advance hclock
  · intro id' hfound
    exact happened_concat.mpr (.inr (h.verified id' (hdelete hfound)))
  · intro id' device handler hfound
    exact h.helpers id' device handler (hdelete hfound)
  · intro id' name hfound
    exact happened_concat.mpr (.inr (h.commands id' name (hdelete hfound)))

theorem follows_step (h : Follows o hash origin log s) (hstep : s.step o e = some t) :
    Follows o hash origin (log ++ [e]) t := by
  cases e with
  | request id req now answer => exact h.request hstep
  | signIn id bytes now => exact h.signIn hstep
  | seen id device now =>
      obtain ⟨handler, hfound, rfl⟩ := step_seen hstep
      refine h.quiet rfl rfl rfl rfl rfl ?_ (by rintro _ _ _ _ ⟨⟩) (by rintro _ _ _ ⟨⟩)
      intro id' phase hlookup
      rw [Table.lookup_insertOrReplace] at hlookup
      split at hlookup
      · next hid =>
          cases hlookup
          exact .inr ⟨handler, rfl, h.helpers id device handler hfound⟩
      · exact .inl hlookup
  | create id name random now result =>
      obtain ⟨-, ⟨created, keys, -, -, rfl⟩ | ⟨-, rfl⟩⟩ := step_create hstep
      · exact h.quiet rfl rfl rfl rfl rfl (fun _ _ => .inl) (by rintro _ _ _ _ ⟨⟩) (by rintro _ _ _ ⟨⟩)
      · exact h.quiet rfl rfl rfl rfl rfl (fun _ _ => .inl) (by rintro _ _ _ _ ⟨⟩) (by rintro _ _ _ ⟨⟩)
  | revoke id device now changed =>
      obtain ⟨-, -, rfl⟩ := step_revoke hstep
      exact h.quiet rfl rfl rfl rfl rfl (fun _ _ => .inl) (by rintro _ _ _ _ ⟨⟩) (by rintro _ _ _ ⟨⟩)
  | devices id shown =>
      obtain ⟨-, -, rfl⟩ := step_devices hstep
      exact h.quiet rfl rfl rfl rfl rfl (fun _ _ => .inl) (by rintro _ _ _ _ ⟨⟩) (by rintro _ _ _ ⟨⟩)
  | close id =>
      cases hstep
      refine h.quiet rfl rfl rfl rfl rfl ?_ (by rintro _ _ _ _ ⟨⟩) (by rintro _ _ _ ⟨⟩)
      intro id' phase hlookup
      exact .inl (Table.lookup_of_delete hlookup)

end Follows

/-! ### The gates -/

section Gates

variable {hash origin : Text} {log : List Event}

/-- A login form sent to the server from its own page. -/
structure SubmitsLogin (origin : Text) (req : Request) (password : Text) : Prop where
  method : req.method = .post
  path : req.path = "/login".toList
  origin : (req.headers.get .origin).bind toStr = some origin
  form : req.form = some password

/-- The times that are at most a minute old. -/
def recent (times : List Nat) (now : Nat) : Nat := times.countP fun t => decide (now ≤ t + secs 60)

/-- Behind the gate a handler gets the requests that are entitled, and no others. -/
def SessionGate (o : Outside) (hash origin : Text) (before : List Event) (e : Event) : Prop :=
  ∀ id req now answer, e = .request id req now answer → req.path ∉ outerPaths →
    ∀ handler, answer = .serve handler ↔
      handler = (router req.method req.path).2 ∧ Entitled o hash origin before req now

theorem Follows.sessionGate {e : Event} (h : Follows o hash origin log s) (hstep : s.step o e = some t) :
    SessionGate o hash origin log e := by
  rintro id req now answer rfl hpath handler
  obtain ⟨hclock, -, hserved, -⟩ := step_request hstep
  have hguard : router req.method req.path = (.session, (router req.method req.path).2) :=
    Prod.ext (router_session hpath) rfl
  rw [hserved.serve_iff hguard, h.entitled hclock]

/-- Over all runs, whatever requests come in whatever order: outside the five open paths nothing is served but to a
request of the right origin whose token began with a login with the right password less than thirty days ago and has
not logged out since; and such a request always is. -/
theorem session_gate (keys : HelperKeys) (hrun : Trace (step o) (start hash origin keys) log s) :
    Throughout (SessionGate o hash origin) log := by
  have hall := hrun.throughout (fun _ _ _ _ h hstep => ⟨follows_step h hstep, h.sessionGate hstep⟩) start_follows
  exact hall.2

/-- A hash that is the password itself. -/
def plainly : Outside := ⟨fun password hash => password == hash, id, "taken", some⟩

def ownOrigin : Text := "http://qf".toList

def loginOf (password : Text) : Request :=
  ⟨.post, "/login".toList, ⟨[(.origin, ascii ownOrigin)]⟩, some password⟩

def zeros : Random := Vector.replicate 32 0

/-- A request with the cookie of the session. -/
def withCookie (method : Method) (path : Text) : Request :=
  ⟨method, path, ⟨[(.origin, ascii ownOrigin), (.cookie, ascii (cookieText [(cookieName, hexEncode zeros.toList)]))]⟩,
    none⟩

/-- A login, a page, the logout and the page again. -/
theorem session_gate_evening : Throughout (SessionGate plainly "horse".toList ownOrigin)
    [.request 0 (loginOf "horse".toList) 0 .verified, .signIn 0 zeros 1,
      .request 1 (withCookie .get "/stock".toList) 2 (.serve .spa),
      .request 2 (withCookie .post "/logout".toList) 3 .loggedOut,
      .request 3 (withCookie .get "/stock".toList) 4 .toLogin] :=
  session_gate HelperKeys.empty (trace_replay (by decide +kernel))

/-! #### Login attempts -/

theorem load_eq_recent {times : List Nat} {now : Nat} (h : ∀ t ∈ times, t ≤ now) :
    (LoginLimiter.expiry (secs 60)).load times now = recent times now := by
  rw [Expiry.load, recent]
  refine List.countP_congr fun t ht => ?_
  have hle := h t ht
  simp only [hle, Expiry.alive, LoginLimiter.expiry, Bool.and_eq_true, decide_eq_true_eq, Bool.not_eq_true',
    decide_eq_false_iff_not, true_and]
  omega

/-- A password is looked at when fewer than five were in the minute before, and the right one opens a session. -/
def AttemptsLimited (o : Outside) (hash origin : Text) (before : List Event) (e : Event) : Prop :=
  ∀ id req now answer password, e = .request id req now answer → SubmitsLogin origin req password →
    (answer.tried = true ↔ recent (attempts before) now < 5) ∧
      (answer = .verified ↔ answer.tried = true ∧ o.verifyPassword password hash = true)

theorem router_login : router .post "/login".toList = (.originOnly, .loginSubmit) := by
  rw [router, if_neg (by decide), if_pos rfl, if_pos rfl]

theorem Follows.attemptsLimited {e : Event} (h : Follows o hash origin log s) (hstep : s.step o e = some t) :
    AttemptsLimited o hash origin log e := by
  rintro id req now answer password rfl hlogin
  obtain ⟨hclock, -, hserved, -⟩ := step_request hstep
  have hguard : router req.method req.path = (.originOnly, .loginSubmit) := by
    rw [hlogin.method, hlogin.path, router_login]
  have horigin : s.checkOrigin req = true := by
    rw [checkOrigin_iff, h.publicOrigin]
    exact .inr hlogin.origin
  have hpast : ∀ at_ ∈ Server.attempts log, at_ ≤ now := fun at_ hin => (h.attempts.takenPast at_ hin).trans hclock
  have hacquire : (s.limiter.tryAcquire now).1 = true ↔ recent (Server.attempts log) now < 5 := by
    rw [LoginLimiter.tryAcquire_eq, h.window, h.max, h.attempts.acquire_fst hclock, load_eq_recent hpast]
  rw [hserved.login hguard horigin hlogin.form, ← hacquire, h.passwordHash]
  cases (s.limiter.tryAcquire now).1 with
  | false => simp [Answer.tried]
  | true =>
      cases o.verifyPassword password hash with
      | false => simp [Answer.tried]
      | true => simp [Answer.tried]

/-- Over all runs: whoever sends the logins and in whatever order, a password is looked at exactly when fewer than five
were in the minute before, and no minute has more than five. -/
theorem login_limit (keys : HelperKeys) (hrun : Trace (step o) (start hash origin keys) log s) :
    Throughout (AttemptsLimited o hash origin) log ∧
      ∀ begin_, ((attempts log).countP fun t => decide (begin_ ≤ t ∧ t ≤ begin_ + secs 60)) ≤ 5 := by
  have hall := hrun.throughout (fun _ _ _ _ h hstep => ⟨follows_step h hstep, h.attemptsLimited hstep⟩) start_follows
  refine ⟨hall.2, fun begin_ => ?_⟩
  have hbounded := hall.1.attempts.bounded (begin_ + secs 60)
  refine (List.countP_mono_left fun t _ hin => ?_).trans hbounded
  rw [decide_eq_true_eq] at hin
  simp only [Expiry.alive, LoginLimiter.expiry, Bool.and_eq_true, decide_eq_true_eq, Bool.not_eq_true',
    decide_eq_false_iff_not]
  omega

/-- Five wrong passwords, and the right one within the minute. -/
def sixAttempts : List Event :=
  ((List.range 5).map fun n => .request n (loginOf "cow".toList) n .wrongPassword) ++
    [.request 5 (loginOf "horse".toList) (secs 60) .tooMany]

theorem login_limit_sixth : Throughout (AttemptsLimited plainly "horse".toList ownOrigin) sixAttempts ∧
    ∀ begin_, ((attempts sixAttempts).countP fun t => decide (begin_ ≤ t ∧ t ≤ begin_ + secs 60)) ≤ 5 :=
  login_limit HelperKeys.empty (trace_replay (by decide +kernel))

end Gates

end Running

end Quantframe.Server
