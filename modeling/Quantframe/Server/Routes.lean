import Quantframe.Lib.Machine
import Quantframe.Server.Keys

/-!
# The routes

Which requests the router lets through to which handler, and the server as a machine that many requests drive at once.
A request takes one step under each lock and with each statement, and others may come in between.
-/

namespace Quantframe.Server

open Lib LogParser
open Trades (DateTime)

/-! ### Requests -/

inductive Method where
  | get | head | post
  | other (name : String)
  deriving DecidableEq, Repr

structure Request where
  method : Method
  path : Text
  headers : HeaderMap
  /-- The password of the login form, when the body is one. -/
  form : Option Text

inductive Handler where
  | healthz | loginPage | loginSubmit | logout
  /-- With the path segment of the name, percent-encoded as it came. -/
  | rpc (name : Text)
  | ws | sounds | spa | heartbeat | trade
  | methodNotAllowed
  deriving DecidableEq, Repr

/-- Which middleware a request passes. -/
inductive Guard where
  | originOnly | session | deviceKey
  deriving DecidableEq, Repr

def getRoute (method : Method) (handler : Handler) : Handler :=
  if method = .get ∨ method = .head then handler else .methodNotAllowed

def postRoute (method : Method) (handler : Handler) : Handler :=
  if method = .post then handler else .methodNotAllowed

def nested (dir path : Text) : Bool := path == dir || (dir ++ ['/']).isPrefixOf path

/-- The one segment of `/rpc/{name}`. -/
def rpcName (path : Text) : Option Text :=
  (stripPrefix "/rpc/".toList path).filter fun name => !name.isEmpty && !name.contains '/'

def router (method : Method) (path : Text) : Guard × Handler :=
  if path = "/healthz".toList then (.originOnly, getRoute method .healthz)
  else if path = "/login".toList then
    (.originOnly, if method = .post then .loginSubmit else getRoute method .loginPage)
  else if path = "/logout".toList then (.originOnly, postRoute method .logout)
  else if path = "/helper/heartbeat".toList then (.deviceKey, postRoute method .heartbeat)
  else if path = "/helper/trade".toList then (.deviceKey, postRoute method .trade)
  else
    match rpcName path with
    | some name => (.session, postRoute method (.rpc name))
    | none =>
      if path = "/ws".toList then (.session, getRoute method .ws)
      else if nested "/sounds/builtin".toList path || nested "/sounds/custom".toList path then (.session, .sounds)
      else (.session, .spa)

/-! ### One request -/

/-- What becomes of a request in its first step. -/
inductive Answer where
  /-- 403, the origin is not allowed. -/
  | forbidden
  /-- 401, to a request that is no page. -/
  | unauthorized
  /-- The redirect of a page to `/login`. -/
  | toLogin
  /-- 401, the device key is wrong or revoked. -/
  | badKey
  /-- 429, too many login attempts. -/
  | tooMany
  /-- The body of the login is no form. -/
  | badForm
  /-- The redirect to `/login?error=1`. -/
  | wrongPassword
  /-- The password is right, and a session comes next. -/
  | verified
  /-- The cookie is cleared. -/
  | loggedOut
  /-- The key is a device's, and the time it was seen comes next. -/
  | identified (device : DeviceIdentity) (handler : Handler)
  | serve (handler : Handler)
  deriving DecidableEq, Repr

/-- Code outside: `Argon2::verify_password`, `Sha256::digest`, what the driver says of a hash that is there, and the
percent-decoding of a path segment. -/
structure Outside where
  verifyPassword : Text → Text → Bool
  sha256 : Bytes → Bytes
  conflict : String
  percentDecode : Text → Option Text

structure ServerState where
  sessions : Sessions
  limiter : LoginLimiter
  passwordHash : Text
  publicOrigin : Text
  keys : HelperKeys

namespace ServerState

variable (o : Outside) (s : ServerState) (req : Request)

/-- What `check_origin` lets pass. -/
def checkOrigin : Bool :=
  let isRead := req.method = .get ∨ req.method = .head
  if ¬ isRead ∨ req.path = "/ws".toList then
    ((req.headers.get .origin).bind toStr).any fun origin => origin == s.publicOrigin
  else true

def requireSession (handler : Handler) (now : Nat) : Answer × ServerState :=
  match tokenFromHeaders req.headers with
  | none => (refused, s)
  | some token =>
    let (valid, sessions) := s.sessions.isValid token now
    (if valid then .serve handler else refused, { s with sessions })
where
  refused : Answer :=
    if "/rpc/".toList.isPrefixOf req.path || req.path == "/ws".toList || "/sounds/".toList.isPrefixOf req.path then
      .unauthorized
    else .toLogin

/-- `login_submit` up to the new session. -/
def loginSubmit (now : Nat) : Answer × ServerState :=
  match req.form with
  | none => (.badForm, s)
  | some password =>
    let (allowed, limiter) := s.limiter.tryAcquire now
    (if !allowed then .tooMany
      else if !o.verifyPassword password s.passwordHash then .wrongPassword
      else .verified, { s with limiter })

def logout : Answer × ServerState :=
  match tokenFromHeaders req.headers with
  | none => (.loggedOut, s)
  | some token => (.loggedOut, { s with sessions := s.sessions.remove token })

/-- `require_device_key` up to the update of `authenticate`. -/
def requireDeviceKey (handler : Handler) : Answer :=
  match (bearerFromHeaders req.headers).bind (Keys.identify o.sha256 s.keys) with
  | none => .badKey
  | some device => .identified device handler

/-- The first step of a request. -/
def serve (now : Nat) : Answer × ServerState :=
  match router req.method req.path with
  | (.deviceKey, handler) => (s.requireDeviceKey o req handler, s)
  | (.session, handler) => if s.checkOrigin req then s.requireSession req handler now else (.forbidden, s)
  | (.originOnly, handler) =>
    if s.checkOrigin req then
      match handler with
      | .loginSubmit => s.loginSubmit o req now
      | .logout => s.logout req
      | handler => (.serve handler, s)
    else (.forbidden, s)

end ServerState

/-! ### What the first step does -/

/-- The answers to a login whose password was looked at. -/
def Answer.tried : Answer → Bool
  | .verified | .wrongPassword => true
  | _ => false

section Router

variable {method : Method} {path name : Text} {handler : Handler}

theorem getRoute_ne_rpc (h : handler ≠ .rpc name) : getRoute method handler ≠ .rpc name := by
  rw [getRoute]
  split
  · exact h
  · intro heq
    cases heq

theorem postRoute_ne_rpc (h : handler ≠ .rpc name) : postRoute method handler ≠ .rpc name := by
  rw [postRoute]
  split
  · exact h
  · intro heq
    cases heq

/-- The paths outside the session. -/
def outerPaths : List Text :=
  ["/healthz".toList, "/login".toList, "/logout".toList, "/helper/heartbeat".toList, "/helper/trade".toList]

/-- Every other path needs a session, whether something is routed there or not. -/
theorem router_session (h : path ∉ outerPaths) : (router method path).1 = .session := by
  simp only [outerPaths, List.mem_cons, List.not_mem_nil, or_false, not_or] at h
  obtain ⟨hhealthz, hlogin, hlogout, hheartbeat, htrade⟩ := h
  rw [router, if_neg hhealthz, if_neg hlogin, if_neg hlogout, if_neg hheartbeat, if_neg htrade]
  split
  · rfl
  · split
    · rfl
    · split
      · rfl
      · rfl

def helperPaths : List Text := ["/helper/heartbeat".toList, "/helper/trade".toList]

theorem router_device (h : path ∈ helperPaths) : (router method path).1 = .deviceKey := by
  simp only [helperPaths, List.mem_cons, List.not_mem_nil, or_false] at h
  obtain rfl | rfl := h
  · rfl
  · rfl

/-- A command is routed behind the session only. -/
theorem router_of_rpc (h : (router method path).2 = .rpc name) : path ∉ outerPaths := by
  intro hin
  simp only [outerPaths, List.mem_cons, List.not_mem_nil, or_false] at hin
  obtain rfl | rfl | rfl | rfl | rfl := hin
  · exact getRoute_ne_rpc (by rintro ⟨⟩) h
  · change (if method = .post then Handler.loginSubmit else getRoute method .loginPage) = .rpc name at h
    split at h
    · cases h
    · exact getRoute_ne_rpc (by rintro ⟨⟩) h
  · exact postRoute_ne_rpc (by rintro ⟨⟩) h
  · exact postRoute_ne_rpc (by rintro ⟨⟩) h
  · exact postRoute_ne_rpc (by rintro ⟨⟩) h

end Router

/-- All that the first step of a request can do. -/
inductive Served (o : Outside) (s : ServerState) (req : Request) (now : Nat) : Answer → ServerState → Prop
  | device {handler : Handler} (hguard : router req.method req.path = (.deviceKey, handler)) :
      Served o s req now (s.requireDeviceKey o req handler) s
  | forbidden (hguard : (router req.method req.path).1 ≠ .deviceKey) (horigin : s.checkOrigin req = false) :
      Served o s req now .forbidden s
  | noToken (hguard : (router req.method req.path).1 = .session) (horigin : s.checkOrigin req = true)
      (htoken : tokenFromHeaders req.headers = none) : Served o s req now (ServerState.requireSession.refused req) s
  | refused {token : Text} (hguard : (router req.method req.path).1 = .session) (horigin : s.checkOrigin req = true)
      (htoken : tokenFromHeaders req.headers = some token) (hvalid : (s.sessions.isValid token now).1 = false) :
      Served o s req now (ServerState.requireSession.refused req)
        { s with sessions := (s.sessions.isValid token now).2 }
  | session {handler : Handler} {token : Text} (hguard : router req.method req.path = (.session, handler))
      (horigin : s.checkOrigin req = true) (htoken : tokenFromHeaders req.headers = some token)
      (hvalid : (s.sessions.isValid token now).1 = true) :
      Served o s req now (.serve handler) { s with sessions := (s.sessions.isValid token now).2 }
  | badForm (hguard : router req.method req.path = (.originOnly, .loginSubmit)) (horigin : s.checkOrigin req = true)
      (hform : req.form = none) : Served o s req now .badForm s
  | tooMany {password : Text} (hguard : router req.method req.path = (.originOnly, .loginSubmit))
      (horigin : s.checkOrigin req = true) (hform : req.form = some password)
      (hallowed : (s.limiter.tryAcquire now).1 = false) :
      Served o s req now .tooMany { s with limiter := (s.limiter.tryAcquire now).2 }
  | tried {password : Text} (hguard : router req.method req.path = (.originOnly, .loginSubmit))
      (horigin : s.checkOrigin req = true) (hform : req.form = some password)
      (hallowed : (s.limiter.tryAcquire now).1 = true) :
      Served o s req now (if o.verifyPassword password s.passwordHash then .verified else .wrongPassword)
        { s with limiter := (s.limiter.tryAcquire now).2 }
  | nobody (hguard : router req.method req.path = (.originOnly, .logout)) (horigin : s.checkOrigin req = true)
      (htoken : tokenFromHeaders req.headers = none) : Served o s req now .loggedOut s
  | logout {token : Text} (hguard : router req.method req.path = (.originOnly, .logout))
      (horigin : s.checkOrigin req = true) (htoken : tokenFromHeaders req.headers = some token) :
      Served o s req now .loggedOut { s with sessions := s.sessions.remove token }
  | anyone {handler : Handler} (hguard : router req.method req.path = (.originOnly, handler))
      (hlogin : handler ≠ .loginSubmit) (hlogout : handler ≠ .logout) (horigin : s.checkOrigin req = true) :
      Served o s req now (.serve handler) s

section Served

variable {o : Outside} {s t : ServerState} {req : Request} {handler : Handler} {now : Nat} {answer : Answer}

theorem requireSession_served (hguard : router req.method req.path = (.session, handler))
    (horigin : s.checkOrigin req = true) :
    Served o s req now (s.requireSession req handler now).1 (s.requireSession req handler now).2 := by
  have hsession : (router req.method req.path).1 = .session := by rw [hguard]
  rw [ServerState.requireSession]
  cases htoken : tokenFromHeaders req.headers with
  | none => exact .noToken hsession horigin htoken
  | some token =>
      cases hvalid : (s.sessions.isValid token now).1 with
      | true =>
          simp only [hvalid, if_true]
          exact .session hguard horigin htoken hvalid
      | false =>
          simp only [hvalid, Bool.false_eq_true, if_false]
          exact .refused hsession horigin htoken hvalid

theorem loginSubmit_served (hguard : router req.method req.path = (.originOnly, .loginSubmit))
    (horigin : s.checkOrigin req = true) :
    Served o s req now (s.loginSubmit o req now).1 (s.loginSubmit o req now).2 := by
  rw [ServerState.loginSubmit]
  cases hform : req.form with
  | none => exact .badForm hguard horigin hform
  | some password =>
      cases hallowed : (s.limiter.tryAcquire now).1 with
      | false =>
          simp only [hallowed, Bool.not_false, if_true]
          exact .tooMany hguard horigin hform hallowed
      | true =>
          have htried := Served.tried (o := o) hguard horigin hform hallowed
          cases hright : o.verifyPassword password s.passwordHash with
          | true =>
              rw [hright] at htried
              simpa [hallowed, hright] using htried
          | false =>
              rw [hright] at htried
              simpa [hallowed, hright] using htried

theorem logout_served (hguard : router req.method req.path = (.originOnly, .logout))
    (horigin : s.checkOrigin req = true) : Served o s req now (s.logout req).1 (s.logout req).2 := by
  rw [ServerState.logout]
  cases htoken : tokenFromHeaders req.headers with
  | none => exact .nobody hguard horigin htoken
  | some token => exact .logout hguard horigin htoken

theorem serve_served : Served o s req now (s.serve o req now).1 (s.serve o req now).2 := by
  rw [ServerState.serve]
  split
  · next handler hguard => exact .device hguard
  · next handler hguard =>
      split
      · next horigin => exact requireSession_served hguard horigin
      · next horigin =>
          exact .forbidden (by rw [hguard]; intro h; cases h) (Bool.not_eq_true _ ▸ horigin)
  · next handler hguard =>
      split
      · next horigin =>
          split
          · exact loginSubmit_served hguard horigin
          · exact logout_served hguard horigin
          · next hlogin hlogout => exact .anyone hguard hlogin hlogout horigin
      · next horigin =>
          exact .forbidden (by rw [hguard]; intro h; cases h) (Bool.not_eq_true _ ▸ horigin)

theorem refused_ne_serve : ServerState.requireSession.refused req ≠ .serve handler := by
  rw [ServerState.requireSession.refused]
  split
  · intro h
    cases h
  · intro h
    cases h

theorem requireDeviceKey_eq_identified {device : DeviceIdentity} {handler' : Handler} :
    s.requireDeviceKey o req handler = .identified device handler' ↔
      handler' = handler ∧ ∃ key, bearerFromHeaders req.headers = some key ∧
        Keys.identify o.sha256 s.keys key = some device := by
  rw [ServerState.requireDeviceKey]
  cases hdevice : (bearerFromHeaders req.headers).bind (Keys.identify o.sha256 s.keys) with
  | none =>
      constructor
      · intro h
        cases h
      · rintro ⟨-, key, hkey, hfound⟩
        rw [hkey, Option.bind_some, hfound] at hdevice
        cases hdevice
  | some known =>
      simp only [Answer.identified.injEq]
      constructor
      · rintro ⟨rfl, rfl⟩
        exact ⟨rfl, Option.bind_eq_some_iff.mp hdevice⟩
      · rintro ⟨rfl, key, hkey, hfound⟩
        rw [hkey, Option.bind_some, hfound] at hdevice
        exact ⟨(Option.some.inj hdevice).symm, rfl⟩

theorem requireDeviceKey_cases (o : Outside) (s : ServerState) (req : Request) (handler : Handler) :
    s.requireDeviceKey o req handler = .badKey ∨
      ∃ device, s.requireDeviceKey o req handler = .identified device handler := by
  rw [ServerState.requireDeviceKey]
  split
  · exact .inl rfl
  · exact .inr ⟨_, rfl⟩

theorem refused_cases (req : Request) :
    ServerState.requireSession.refused req = .unauthorized ∨ ServerState.requireSession.refused req = .toLogin := by
  rw [ServerState.requireSession.refused]
  split
  · exact .inl rfl
  · exact .inr rfl

namespace Served

/-- What no request changes. -/
theorem fixed (h : Served o s req now answer t) :
    t.passwordHash = s.passwordHash ∧ t.publicOrigin = s.publicOrigin ∧ t.sessions.ttl = s.sessions.ttl ∧
      t.limiter.max = s.limiter.max ∧ t.limiter.window = s.limiter.window ∧ t.keys = s.keys := by
  have hlimiter : (s.limiter.tryAcquire now).2.max = s.limiter.max ∧
      (s.limiter.tryAcquire now).2.window = s.limiter.window := by
    rw [LoginLimiter.tryAcquire_eq]
    exact ⟨rfl, rfl⟩
  cases h with
  | tooMany | tried => exact ⟨rfl, rfl, rfl, hlimiter.1, hlimiter.2, rfl⟩
  | _ => exact ⟨rfl, rfl, rfl, rfl, rfl, rfl⟩

/-- A session ends before its time only with the logout that carries its token. -/
theorem lives (h : Served o s req now answer t) {token : Text} {later : Nat} (hlater : now ≤ later) :
    t.sessions.Lives token later ↔
      s.sessions.Lives token later ∧ ¬ (answer = .loggedOut ∧ tokenFromHeaders req.headers = some token) := by
  cases h with
  | @device handler hguard =>
      rcases requireDeviceKey_cases o s req handler with heq | ⟨device, heq⟩
      · simp [heq]
      · simp [heq]
  | noToken => rcases refused_cases req with heq | heq <;> simp [heq]
  | refused =>
      rw [Sessions.lives_isValid _ hlater]
      rcases refused_cases req with heq | heq <;> simp [heq]
  | session =>
      rw [Sessions.lives_isValid _ hlater]
      simp
  | tried =>
      split
      · simp
      · simp
  | nobody hguard horigin htoken => simp [htoken]
  | logout hguard horigin htoken =>
      rw [Sessions.lives_remove, htoken]
      simp [eq_comm, and_comm]
  | _ => simp

/-- A password is looked at with the leave of the limiter. -/
theorem limiter (h : Served o s req now answer t) :
    t.limiter = s.limiter ∧ answer.tried = false ∨
      t.limiter = (s.limiter.tryAcquire now).2 ∧ answer.tried = (s.limiter.tryAcquire now).1 := by
  cases h with
  | @device handler hguard =>
      rcases requireDeviceKey_cases o s req handler with heq | ⟨device, heq⟩
      · exact .inl ⟨rfl, heq ▸ rfl⟩
      · exact .inl ⟨rfl, heq ▸ rfl⟩
  | noToken | refused =>
      rcases refused_cases req with heq | heq
      · exact .inl ⟨rfl, heq ▸ rfl⟩
      · exact .inl ⟨rfl, heq ▸ rfl⟩
  | tooMany hguard horigin hform hallowed => exact .inr ⟨rfl, hallowed.symm⟩
  | tried hguard horigin hform hallowed =>
      refine .inr ⟨rfl, ?_⟩
      rw [hallowed]
      split
      · rfl
      · rfl
  | _ => exact .inl ⟨rfl, rfl⟩

theorem verified (h : Served o s req now answer t) (hverified : answer = .verified) :
    router req.method req.path = (.originOnly, .loginSubmit) ∧ s.checkOrigin req = true ∧
      ∃ password, req.form = some password ∧ o.verifyPassword password s.passwordHash = true := by
  cases h with
  | @device handler hguard =>
      rcases requireDeviceKey_cases o s req handler with heq | ⟨device, heq⟩
      · cases heq.symm.trans hverified
      · cases heq.symm.trans hverified
  | noToken | refused =>
      rcases refused_cases req with heq | heq
      · cases heq.symm.trans hverified
      · cases heq.symm.trans hverified
  | tried hguard horigin hform hallowed =>
      split at hverified
      · next hright => exact ⟨hguard, horigin, _, hform, hright⟩
      · cases hverified
  | _ => cases hverified

theorem device_eq (h : Served o s req now answer t) (hguard : router req.method req.path = (.deviceKey, handler)) :
    answer = s.requireDeviceKey o req handler := by
  cases h with
  | device hother =>
      rw [hguard] at hother
      cases hother
      rfl
  | forbidden hother =>
      rw [hguard] at hother
      exact absurd rfl hother
  | noToken hother | refused hother | session hother | badForm hother | tooMany hother | tried hother | nobody hother
  | logout hother | anyone hother =>
      rw [hguard] at hother
      cases hother

/-- A login form from the right origin is held up by the limiter only. -/
theorem login (h : Served o s req now answer t) (hguard : router req.method req.path = (.originOnly, .loginSubmit))
    (horigin : s.checkOrigin req = true) {password : Text} (hform : req.form = some password) :
    answer = if (s.limiter.tryAcquire now).1 then
      if o.verifyPassword password s.passwordHash then .verified else .wrongPassword
    else .tooMany := by
  cases h with
  | tooMany hother hright hsame hallowed => rw [hallowed, if_neg Bool.false_ne_true]
  | tried hother hright hsame hallowed =>
      rw [hform] at hsame
      cases hsame
      rw [hallowed, if_pos rfl]
  | badForm hother hright hsame =>
      rw [hform] at hsame
      cases hsame
  | forbidden hother hwrong =>
      rw [horigin] at hwrong
      cases hwrong
  | noToken hother | refused hother =>
      rw [hguard] at hother
      cases hother
  | anyone hother hlogin =>
      rw [hguard] at hother
      cases hother
      exact absurd rfl hlogin
  | device hother | session hother | nobody hother | logout hother =>
      rw [hguard] at hother
      cases hother

/-- The session's gate: what is served behind it came from the right origin with a token that lives. -/
theorem serve_iff (h : Served o s req now answer t) (hguard : router req.method req.path = (.session, handler))
    {handler' : Handler} :
    answer = .serve handler' ↔ handler' = handler ∧ s.checkOrigin req = true ∧
      ∃ token, tokenFromHeaders req.headers = some token ∧ s.sessions.Lives token now := by
  have hnot : ∀ {guard : Guard} {other : Handler}, router req.method req.path = (guard, other) → guard = .session := by
    intro guard other heq
    rw [hguard] at heq
    cases heq
    rfl
  cases h with
  | device hother => cases hnot hother
  | badForm hother | tooMany hother | tried hother | nobody hother | logout hother | anyone hother =>
      cases hnot hother
  | forbidden hother horigin => simp [horigin]
  | noToken hother horigin htoken => simp [htoken, refused_ne_serve]
  | refused hother horigin htoken hvalid =>
      rw [Bool.eq_false_iff, ne_eq, Sessions.isValid_fst] at hvalid
      simp [htoken, refused_ne_serve, hvalid]
  | session hother horigin htoken hvalid =>
      rw [Sessions.isValid_fst] at hvalid
      rw [hguard] at hother
      cases hother
      simp [horigin, htoken, hvalid, eq_comm]

/-- A command is served behind the session's gate only. -/
theorem guard_of_rpc (h : Served o s req now answer t) {name : Text} (hrpc : answer = .serve (.rpc name)) :
    router req.method req.path = (.session, .rpc name) := by
  cases h with
  | @device handler hguard =>
      rcases requireDeviceKey_cases o s req handler with heq | ⟨device, heq⟩
      · cases heq.symm.trans hrpc
      · cases heq.symm.trans hrpc
  | noToken | refused => exact absurd hrpc refused_ne_serve
  | tried =>
      split at hrpc
      · cases hrpc
      · cases hrpc
  | session hguard =>
      cases hrpc
      exact hguard
  | anyone hguard =>
      cases hrpc
      have houter := @router_session req.method _ (router_of_rpc (congrArg Prod.snd hguard))
      rw [hguard] at houter
      cases houter
  | _ => cases hrpc

theorem identified (h : Served o s req now answer t) {device : DeviceIdentity} {handler' : Handler}
    (hidentified : answer = .identified device handler') :
    router req.method req.path = (.deviceKey, handler') ∧ ∃ key, bearerFromHeaders req.headers = some key ∧
      Keys.identify o.sha256 s.keys key = some device := by
  cases h with
  | device hguard =>
      obtain ⟨rfl, hkey⟩ := requireDeviceKey_eq_identified.mp hidentified
      exact ⟨hguard, hkey⟩
  | noToken | refused =>
      rcases refused_cases req with heq | heq
      · cases heq.symm.trans hidentified
      · cases heq.symm.trans hidentified
  | tried =>
      split at hidentified
      · cases hidentified
      · cases hidentified
  | _ => cases hidentified

end Served

end Served

/-! ### Many requests at once -/

/-- How far a request has come. -/
inductive Phase where
  | verified
  | identified (device : DeviceIdentity) (handler : Handler)
  | serving (handler : Handler)
  deriving DecidableEq, Repr

def Answer.phase : Answer → Option Phase
  | .verified => some .verified
  | .identified device handler => some (.identified device handler)
  | .serve handler => some (.serving handler)
  | _ => none

structure Running extends ServerState where
  /-- The latest instant read. -/
  clock : Nat
  flight : Table (Prod.fst : Nat × Phase → Nat)

inductive Event where
  | request (id : Nat) (req : Request) (now : Nat) (answer : Answer)
  /-- `Sessions::create`, after the password. -/
  | signIn (id : Nat) (bytes : Random) (now : Nat)
  /-- The update of `authenticate`. -/
  | seen (id : Nat) (device : DeviceIdentity) (now : DateTime)
  /-- `helper_device_create`. -/
  | create (id : Nat) (name : Text) (random : Except String Random) (now : DateTime)
      (result : Except KeyError CreatedDevice)
  /-- `helper_device_revoke`. -/
  | revoke (id : Nat) (device : Int) (now : DateTime) (changed : Bool)
  /-- `helper_devices`. -/
  | devices (id : Nat) (shown : List HelperDevice)
  /-- The request is over. -/
  | close (id : Nat)

namespace Running

variable (o : Outside)

/-- `main`, with the table as it was left. -/
def start (passwordHash publicOrigin : Text) (keys : HelperKeys) : Running where
  sessions := Sessions.new (secs (30 * 24 * 60 * 60))
  limiter := LoginLimiter.new 5 (secs 60)
  passwordHash := passwordHash
  publicOrigin := publicOrigin
  keys := keys
  clock := 0
  flight := Table.empty

/-- The request runs the command. -/
def runs (s : Running) (id : Nat) (command : Text) : Bool :=
  match s.flight.lookup id with
  | some (_, .serving (.rpc name)) => o.percentDecode name == some command
  | _ => false

def step : Machine Running Event
  | s, .request id req now answer =>
    if s.clock ≤ now ∧ s.flight.lookup id = none ∧ (s.serve o req now).1 = answer then
      some { toServerState := (s.serve o req now).2
             clock := now
             flight := match answer.phase with
               | some phase => s.flight.insertOrReplace (id, phase)
               | none => s.flight }
    else none
  | s, .signIn id bytes now =>
    if s.clock ≤ now ∧ s.flight.lookup id = some (id, .verified) then
      some { s with sessions := (s.sessions.create bytes now).2, clock := now, flight := s.flight.delete id }
    else none
  | s, .seen id device now =>
    match s.flight.lookup id with
    | some (_, .identified known handler) =>
      if known = device then
        some { s with keys := Keys.markSeen s.keys device.id now
                      flight := s.flight.insertOrReplace (id, .serving handler) }
      else none
    | _ => none
  | s, .create id name random now result =>
    if s.runs o id "helper_device_create".toList then
      match Keys.create o.sha256 o.conflict s.keys name random now with
      | .ok (created, keys) => if result = .ok created then some { s with keys } else none
      | .error e => if result = .error e then some s else none
    else none
  | s, .revoke id device now changed =>
    if s.runs o id "helper_device_revoke".toList ∧ (Keys.revoke s.keys device now).1 = changed then
      some { s with keys := (Keys.revoke s.keys device now).2 }
    else none
  | s, .devices id shown =>
    if s.runs o id "helper_devices".toList ∧ Keys.list s.keys = shown then some s else none
  | s, .close id => some { s with flight := s.flight.delete id }

end Running

end Quantframe.Server
