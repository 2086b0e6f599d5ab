import Quantframe.Server.Gates

/-!
# Devices

Which helper requests are a device's, and what the list of devices shows. The table outlives the process: it is
described by the history of the commands that ran and of the keys that were sent, over all restarts of the server.
-/

namespace Quantframe.Server

open Lib LogParser
open Trades (DateTime Timestamp ts)

/-- A row as it was inserted. -/
def HelperKey.issued (r : HelperKey) : HelperKey := { r with lastSeenAt := none, revokedAt := none }

/-- A step of the process, or its restart with a password and an origin. -/
inductive Moment where
  | event (e : Event)
  | restart (passwordHash publicOrigin : Text)

/-- A process: what it was started with, and its history. -/
structure Era where
  passwordHash : Text
  publicOrigin : Text
  log : List Event

def Era.next (era : Era) : Moment → Era
  | .event e => { era with log := era.log ++ [e] }
  | .restart passwordHash publicOrigin => ⟨passwordHash, publicOrigin, []⟩

/-- The process there is after a history, when the first one was started with `hash` and `origin`. -/
def eraOf (hash origin : Text) (log : List Moment) : Era := log.foldl Era.next ⟨hash, origin, []⟩

theorem eraOf_concat (hash origin : Text) (log : List Moment) (m : Moment) :
    eraOf hash origin (log ++ [m]) = (eraOf hash origin log).next m := by
  rw [eraOf, List.foldl_append, List.foldl_cons, List.foldl_nil, eraOf]

/-- The table is kept over a restart, sessions and attempts are not. -/
def Running.service (o : Outside) : Machine Running Moment
  | s, .event e => s.step o e
  | s, .restart passwordHash publicOrigin => some (start passwordHash publicOrigin s.keys)

section History

variable (o : Outside) (hash origin : Text)

/-- The command runs, for a request that this process let through the session's gate. -/
def Ran (id : Nat) (command : String) (before : List Moment) : Prop :=
  ∃ name, o.percentDecode name = some command.toList ∧
    Happened (Commands o (eraOf hash origin before).passwordHash (eraOf hash origin before).publicOrigin id name)
      (eraOf hash origin before).log

/-- A key is made and its row inserted. -/
def Issues (row : HelperKey) (before : List Moment) (m : Moment) : Prop :=
  ∃ id text bytes now created, m = .event (.create id text (.ok bytes) now (.ok created)) ∧
    Ran o hash origin id "helper_device_create" before ∧ created.key = keyPrefix ++ hexEncode bytes.toList ∧
    row = ⟨created.device, Keys.hashKey o.sha256 created.key⟩ ∧ row.name = trim text ∧ row.createdAt = ts now

end History

/-- Somebody revokes the device, or tries to. -/
def Revokes (device : Int) (_ : List Moment) (m : Moment) : Prop :=
  ∃ id now changed, m = .event (.revoke id device now changed)

def RevokedAt (device : Int) (at_ : Timestamp) (_ : List Moment) (m : Moment) : Prop :=
  ∃ id now, m = .event (.revoke id device now true) ∧ ts now = at_

def SeenAt (device : Int) (at_ : Timestamp) (_ : List Moment) (m : Moment) : Prop :=
  ∃ id name now, m = .event (.seen id ⟨device, name⟩ now) ∧ ts now = at_

def Sees (device : Int) (before : List Moment) (m : Moment) : Prop := ∃ at_, SeenAt device at_ before m

/-- A row is inserted or changed. -/
def Moment.writes : Moment → Bool
  | .event (.create _ _ _ _ (.ok _)) | .event (.revoke ..) | .event (.seen ..) => true
  | .event _ | .restart .. => false

namespace Running

variable {o : Outside} {s t : Running} {hash origin : Text} {log : List Moment} {m : Moment}

variable (o hash origin) in
/-- The table is what the history says. -/
structure Ledger (log : List Moment) (s : Running) : Prop where
  issued : ∀ r ∈ s.keys.rows, Happened (Issues o hash origin r.issued) log
  kept : ∀ row, Happened (Issues o hash origin row) log → ∃ r ∈ s.keys.rows, r.issued = row
  active : ∀ r ∈ s.keys.rows, r.revokedAt = none ↔ Since (Issues o hash origin r.issued) (Revokes r.id) log
  revoked : ∀ r ∈ s.keys.rows, ∀ at_, r.revokedAt = some at_ ↔ Happened (RevokedAt r.id at_) log
  revokedRow : ∀ device at_, Happened (RevokedAt device at_) log → ∃ r ∈ s.keys.rows, r.id = device
  seen : ∀ r ∈ s.keys.rows, ∀ at_, r.lastSeenAt = some at_ ↔ Since (SeenAt r.id at_) (Sees r.id) log
  seenRow : ∀ device, Happened (Sees device) log → ∃ r ∈ s.keys.rows, r.id = device
  underWay : ∀ id device handler, s.flight.lookup id = some (id, .identified device handler) →
    ∃ r ∈ s.keys.rows, r.id = device.id

variable (o hash origin) in
/-- The process that runs is what its own history says. -/
def Current (log : List Moment) (s : Running) : Prop :=
  Follows o (eraOf hash origin log).passwordHash (eraOf hash origin log).publicOrigin (eraOf hash origin log).log s

theorem start_ledger : Ledger o hash origin [] (start hash origin HelperKeys.empty) where
  issued r hr := by cases hr
  kept row h := absurd h not_happened_nil
  active r hr := by cases hr
  revoked r hr := by cases hr
  revokedRow device at_ h := absurd h not_happened_nil
  seen r hr := by cases hr
  seenRow device h := absurd h not_happened_nil
  underWay id device handler h := by cases h

/-- A step that rewrites rows in place: a row says afterwards what it said before and what the step says of its
device. -/
theorem Ledger.rewrite (h : Ledger o hash origin log s) (f : HelperKey → HelperKey)
    (hrows : ∀ r, r ∈ t.keys.rows ↔ ∃ old ∈ s.keys.rows, r = f old) (hissued : ∀ r, (f r).issued = r.issued)
    (hissues : ∀ row, ¬ Issues o hash origin row log m)
    (hactive : ∀ r ∈ s.keys.rows, (f r).revokedAt = none ↔ r.revokedAt = none ∧ ¬ Revokes r.id log m)
    (hrevoked : ∀ r ∈ s.keys.rows, ∀ at_,
      (f r).revokedAt = some at_ ↔ RevokedAt r.id at_ log m ∨ r.revokedAt = some at_)
    (hrevokedRow : ∀ device at_, RevokedAt device at_ log m → ∃ r ∈ s.keys.rows, r.id = device)
    (hseen : ∀ r ∈ s.keys.rows, ∀ at_,
      (f r).lastSeenAt = some at_ ↔ SeenAt r.id at_ log m ∨ r.lastSeenAt = some at_ ∧ ¬ Sees r.id log m)
    (hseenRow : ∀ device, Sees device log m → ∃ r ∈ s.keys.rows, r.id = device)
    (hflight : ∀ id device handler, t.flight.lookup id = some (id, .identified device handler) →
      s.flight.lookup id = some (id, .identified device handler) ∨ ∃ r ∈ s.keys.rows, r.id = device.id) :
    Ledger o hash origin (log ++ [m]) t := by
  have hid : ∀ r, (f r).id = r.id := by
    intro r
    have hissued_id : (f r).issued.id = r.issued.id := by rw [hissued]
    exact hissued_id
  have hkept : ∀ device, (∃ r ∈ s.keys.rows, r.id = device) → ∃ r ∈ t.keys.rows, r.id = device := by
    intro device hrow
    obtain ⟨r, hr, rfl⟩ := hrow
    exact ⟨f r, (hrows _).mpr ⟨r, hr, rfl⟩, hid r⟩
  constructor
  · intro r hr
    obtain ⟨old, hold, rfl⟩ := (hrows r).mp hr
    rw [hissued]
    exact happened_concat.mpr (.inr (h.issued old hold))
  · intro row hrow
    obtain ⟨old, hold, rfl⟩ := h.kept row ((happened_concat.mp hrow).resolve_left (hissues row))
    exact ⟨f old, (hrows _).mpr ⟨old, hold, rfl⟩, hissued old⟩
  · intro r hr
    obtain ⟨old, hold, rfl⟩ := (hrows r).mp hr
    rw [hissued, hid, since_concat, or_iff_right (hissues _), ← h.active old hold]
    exact hactive old hold
  · intro r hr at_
    obtain ⟨old, hold, rfl⟩ := (hrows r).mp hr
    rw [hid, happened_concat, ← h.revoked old hold at_]
    exact hrevoked old hold at_
  · intro device at_ hat
    apply hkept
    rcases happened_concat.mp hat with hnow | hbefore
    · exact hrevokedRow device at_ hnow
    · exact h.revokedRow device at_ hbefore
  · intro r hr at_
    obtain ⟨old, hold, rfl⟩ := (hrows r).mp hr
    rw [hid, since_concat, ← h.seen old hold at_]
    exact hseen old hold at_
  · intro device hsaw
    apply hkept
    rcases happened_concat.mp hsaw with hnow | hbefore
    · exact hseenRow device hnow
    · exact h.seenRow device hbefore
  · intro id device handler hfound
    apply hkept
    rcases hflight id device handler hfound with hbefore | hrow
    · exact h.underWay id device handler hbefore
    · exact hrow

/-- The steps that write no row. -/
theorem Ledger.quiet (h : Ledger o hash origin log s) (hkeys : t.keys = s.keys) (hwrites : m.writes = false)
    (hflight : ∀ id device handler, t.flight.lookup id = some (id, .identified device handler) →
      s.flight.lookup id = some (id, .identified device handler) ∨ ∃ r ∈ s.keys.rows, r.id = device.id) :
    Ledger o hash origin (log ++ [m]) t := by
  have hissues : ∀ row, ¬ Issues o hash origin row log m := by
    rintro row ⟨id, text, bytes, now, created, rfl, -⟩
    cases hwrites
  have hrevokes : ∀ device, ¬ Revokes device log m := by
    rintro device ⟨id, now, changed, rfl⟩
    cases hwrites
  have hsees : ∀ device, ¬ Sees device log m := by
    rintro device ⟨at_, id, name, now, rfl, -⟩
    cases hwrites
  have hrevoked : ∀ device at_, ¬ RevokedAt device at_ log m := by
    rintro device at_ ⟨id, now, he, -⟩
    exact hrevokes device ⟨id, now, true, he⟩
  have hseen : ∀ device at_, ¬ SeenAt device at_ log m := fun device at_ hat => hsees device ⟨at_, hat⟩
  refine h.rewrite (fun r => r) (fun r => ?_) (fun _ => rfl) hissues ?_ ?_ ?_ ?_ ?_ hflight
  · rw [hkeys]
    exact exists_eq_right'.symm
  · intro r _
    exact (and_iff_left (hrevokes r.id)).symm
  · intro r _ at_
    exact (or_iff_right (hrevoked r.id at_)).symm
  · intro device at_ hat
    exact absurd hat (hrevoked device at_)
  · intro r _ at_
    rw [or_iff_right (hseen r.id at_), and_iff_left (hsees r.id)]
  · intro device hsaw
    exact absurd hsaw (hsees device)

theorem Ledger.ran (hcurrent : Current o hash origin log s) {id : Nat} {command : String}
    (hruns : s.runs o id command.toList = true) : Ran o hash origin id command log := by
  obtain ⟨name, hserving, hdecoded⟩ := runs_iff.mp hruns
  exact ⟨name, hdecoded, hcurrent.commands id name hserving⟩

theorem Ledger.create (h : Ledger o hash origin log s) (hcurrent : Current o hash origin log s) {id : Nat}
    {name : Text} {random : Except String Random} {now : DateTime} {created : CreatedDevice} {keys : HelperKeys}
    (hruns : s.runs o id "helper_device_create".toList = true)
    (hcreate : Keys.create o.sha256 o.conflict s.keys name random now = .ok (created, keys)) :
    Ledger o hash origin (log ++ [.event (.create id name random now (.ok created))]) { s with keys } := by
  obtain ⟨-, ⟨bytes, rfl, hkey⟩, hdevice, hrows⟩ := Keys.create_eq_ok hcreate
  have hissues : ∀ row, Issues o hash origin row log (.event (.create id name (.ok bytes) now (.ok created))) ↔
      row = ⟨created.device, Keys.hashKey o.sha256 created.key⟩ := by
    intro row
    constructor
    · rintro ⟨id', text, bytes', now', created', he, -, -, hrow, -⟩
      cases he
      exact hrow
    · rintro rfl
      exact ⟨id, name, bytes, now, created, rfl, Ledger.ran hcurrent hruns, hkey, rfl, by rw [hdevice], by rw [hdevice]⟩
  have hrevokes : ∀ device, ¬ Revokes device log (.event (.create id name (.ok bytes) now (.ok created))) := by
    rintro device ⟨id', now', changed, he⟩
    cases he
  have hrevoked : ∀ device at_,
      ¬ RevokedAt device at_ log (.event (.create id name (.ok bytes) now (.ok created))) := by
    rintro device at_ ⟨id', now', he, -⟩
    cases he
  have hseen : ∀ device at_, ¬ SeenAt device at_ log (.event (.create id name (.ok bytes) now (.ok created))) := by
    rintro device at_ ⟨id', name', now', he, -⟩
    cases he
  have hsees : ∀ device, ¬ Sees device log (.event (.create id name (.ok bytes) now (.ok created))) :=
    fun device ⟨at_, hat⟩ => hseen device at_ hat
  -- the new id is no row's
  have hnew : ∀ r ∈ s.keys.rows, r.id ≠ created.device.id := by
    intro r hr heq
    have hle := Keys.id_le_length hr
    rw [heq, hdevice] at hle
    dsimp only at hle
    omega
  have hother : ∀ r ∈ s.keys.rows, r.issued ≠ ⟨created.device, Keys.hashKey o.sha256 created.key⟩ := by
    intro r hr heq
    exact hnew r hr (congrArg (fun row : HelperKey => row.id) heq)
  have hsame : (⟨created.device, Keys.hashKey o.sha256 created.key⟩ : HelperKey).issued =
      ⟨created.device, Keys.hashKey o.sha256 created.key⟩ := by
    rw [HelperKey.issued, hdevice]
  have hin : ∀ r, r ∈ keys.rows ↔ r ∈ s.keys.rows ∨ r = ⟨created.device, Keys.hashKey o.sha256 created.key⟩ := by
    intro r
    rw [hrows, List.mem_append, List.mem_singleton]
  constructor
  · intro r hr
    rw [happened_concat, hissues]
    rcases (hin r).mp hr with hold | rfl
    · exact .inr (h.issued r hold)
    · exact .inl hsame
  · intro row hrow
    rw [happened_concat, hissues] at hrow
    rcases hrow with rfl | hold
    · exact ⟨_, (hin _).mpr (.inr rfl), hsame⟩
    · obtain ⟨r, hr, hrow⟩ := h.kept row hold
      exact ⟨r, (hin r).mpr (.inl hr), hrow⟩
  · intro r hr
    rw [since_concat, hissues]
    rcases (hin r).mp hr with hold | rfl
    · rw [h.active r hold, or_iff_right (hother r hold), and_iff_left (hrevokes r.id)]
    · exact iff_of_true (by rw [hdevice]) (.inl hsame)
  · intro r hr at_
    rw [happened_concat, or_iff_right (hrevoked r.id at_)]
    rcases (hin r).mp hr with hold | rfl
    · exact h.revoked r hold at_
    · refine iff_of_false (by rw [hdevice]; rintro ⟨⟩) fun hat => ?_
      obtain ⟨r, hold, hid⟩ := h.revokedRow _ at_ hat
      exact hnew r hold hid
  · intro device at_ hat
    obtain ⟨r, hold, hid⟩ := h.revokedRow device at_ ((happened_concat.mp hat).resolve_left (hrevoked device at_))
    exact ⟨r, (hin r).mpr (.inl hold), hid⟩
  · intro r hr at_
    rw [since_concat, or_iff_right (hseen r.id at_), and_iff_left (hsees r.id)]
    rcases (hin r).mp hr with hold | rfl
    · exact h.seen r hold at_
    · refine iff_of_false (by rw [hdevice]; rintro ⟨⟩) fun hat => ?_
      obtain ⟨before, e, after, hlog, hsaw, -⟩ := hat.happened
      obtain ⟨r, hold, hid⟩ := h.seenRow _ ⟨before, e, after, hlog, ⟨at_, hsaw⟩, fun _ _ _ _ => not_false⟩
      exact hnew r hold hid
  · intro device hsaw
    obtain ⟨r, hold, hid⟩ := h.seenRow device ((happened_concat.mp hsaw).resolve_left (hsees device))
    exact ⟨r, (hin r).mpr (.inl hold), hid⟩
  · intro id' device handler hfound
    obtain ⟨r, hold, hid⟩ := h.underWay id' device handler hfound
    exact ⟨r, (hin r).mpr (.inl hold), hid⟩

theorem Ledger.revoke (h : Ledger o hash origin log s) {id : Nat} {device : Int} {now : DateTime} {changed : Bool}
    (hchanged : (Keys.revoke s.keys device now).1 = changed) :
    Ledger o hash origin (log ++ [.event (.revoke id device now changed)])
      { s with keys := (Keys.revoke s.keys device now).2 } := by
  have hissues : ∀ row, ¬ Issues o hash origin row log (.event (.revoke id device now changed)) := by
    rintro row ⟨id', text, bytes, now', created, he, -⟩
    cases he
  have hrevokes : ∀ device', Revokes device' log (.event (.revoke id device now changed)) ↔ device' = device := by
    intro device'
    constructor
    · rintro ⟨id', now', changed', he⟩
      cases he
      rfl
    · rintro rfl
      exact ⟨id, now, changed, rfl⟩
  have hrevoked : ∀ device' at_, RevokedAt device' at_ log (.event (.revoke id device now changed)) ↔
      device' = device ∧ (∃ r ∈ s.keys.rows, r.id = device ∧ r.revokedAt = none) ∧ ts now = at_ := by
    intro device' at_
    rw [← @Keys.revoke_fst s.keys now device, hchanged]
    constructor
    · rintro ⟨id', now', he, hat⟩
      cases he
      exact ⟨rfl, rfl, hat⟩
    · rintro ⟨rfl, rfl, hat⟩
      exact ⟨id, now, rfl, hat⟩
  have hsees : ∀ device', ¬ Sees device' log (.event (.revoke id device now changed)) := by
    rintro device' ⟨at_, id', name, now', he, -⟩
    cases he
  have hseen : ∀ device' at_, ¬ SeenAt device' at_ log (.event (.revoke id device now changed)) :=
    fun device' at_ hat => hsees device' ⟨at_, hat⟩
  refine h.rewrite _ (fun _ => Keys.mem_revoke) (fun _ => rfl) hissues ?_ ?_ ?_ ?_ ?_ fun _ _ _ => .inl
  · intro r hr
    rw [hrevokes]
    split
    · next hboth => exact iff_of_false (by rintro ⟨⟩) fun hnot => hnot.2 hboth.1
    · next hnot => exact ⟨fun hnone => ⟨hnone, fun hid => hnot ⟨hid, hnone⟩⟩, fun hboth => hboth.1⟩
  · intro r hr at_
    rw [hrevoked]
    split
    · next hboth =>
        rw [hboth.2, or_iff_left (by rintro ⟨⟩), Option.some.injEq]
        exact ⟨fun hat => ⟨hboth.1, ⟨r, hr, hboth⟩, hat⟩, fun hall => hall.2.2⟩
    · next hnot =>
        refine (or_iff_right ?_).symm
        rintro ⟨hid, ⟨r', hr', hid', hnone⟩, -⟩
        rw [Keys.eq_of_id hr' hr (hid'.trans hid.symm)] at hnone
        exact hnot ⟨hid, hnone⟩
  · intro device' at_ hat
    obtain ⟨rfl, ⟨r, hr, hid, -⟩, -⟩ := (hrevoked device' at_).mp hat
    exact ⟨r, hr, hid⟩
  · intro r _ at_
    rw [or_iff_right (hseen r.id at_), and_iff_left (hsees r.id)]
  · intro device' hsaw
    exact absurd hsaw (hsees device')

theorem Ledger.markSeen (h : Ledger o hash origin log s) {id : Nat} {device : DeviceIdentity} {handler : Handler}
    {now : DateTime} (hfound : s.flight.lookup id = some (id, .identified device handler)) :
    Ledger o hash origin (log ++ [.event (.seen id device now)])
      { s with keys := Keys.markSeen s.keys device.id now
               flight := s.flight.insertOrReplace (id, .serving handler) } := by
  have hissues : ∀ row, ¬ Issues o hash origin row log (.event (.seen id device now)) := by
    rintro row ⟨id', text, bytes, now', created, he, -⟩
    cases he
  have hrevokes : ∀ device', ¬ Revokes device' log (.event (.seen id device now)) := by
    rintro device' ⟨id', now', changed, he⟩
    cases he
  have hrevoked : ∀ device' at_, ¬ RevokedAt device' at_ log (.event (.seen id device now)) := by
    rintro device' at_ ⟨id', now', he, -⟩
    cases he
  have hseen : ∀ device' at_,
      SeenAt device' at_ log (.event (.seen id device now)) ↔ device' = device.id ∧ ts now = at_ := by
    intro device' at_
    constructor
    · rintro ⟨id', name, now', he, hat⟩
      cases he
      exact ⟨rfl, hat⟩
    · rintro ⟨rfl, hat⟩
      exact ⟨id, device.name, now, rfl, hat⟩
  have hsees : ∀ device', Sees device' log (.event (.seen id device now)) ↔ device' = device.id := by
    intro device'
    simp [Sees, hseen]
  refine h.rewrite _ (fun _ => Keys.mem_markSeen) (fun _ => rfl) hissues ?_ ?_ ?_ ?_ ?_ ?_
  · intro r _
    exact (and_iff_left (hrevokes r.id)).symm
  · intro r _ at_
    exact (or_iff_right (hrevoked r.id at_)).symm
  · intro device' at_ hat
    exact absurd hat (hrevoked device' at_)
  · intro r _ at_
    rw [hseen, hsees]
    split
    · next hid => simp [hid]
    · next hother => simp [hother]
  · intro device' hsaw
    rw [(hsees device').mp hsaw]
    exact h.underWay id device handler hfound
  · intro id' device' handler' hlookup
    rw [Table.lookup_insertOrReplace] at hlookup
    split at hlookup
    · cases hlookup
    · exact .inl hlookup

theorem ledger_step (h : Ledger o hash origin log s) (hcurrent : Current o hash origin log s) {e : Event}
    (hstep : s.step o e = some t) : Ledger o hash origin (log ++ [.event e]) t := by
  cases e with
  | request id req now answer =>
      obtain ⟨-, -, hserved, -, hflight⟩ := step_request hstep
      obtain ⟨-, -, -, -, -, hkeys⟩ := hserved.fixed
      refine h.quiet hkeys rfl ?_
      intro id' device handler hlookup
      rw [hflight] at hlookup
      cases hphase : answer.phase with
      | none =>
          rw [hphase] at hlookup
          exact .inl hlookup
      | some phase =>
          rw [hphase, Table.lookup_insertOrReplace] at hlookup
          split at hlookup
          · cases hlookup
            have hidentified : answer = .identified device handler := by
              cases answer with
              | identified device' handler' =>
                  cases hphase
                  rfl
              | _ => cases hphase
            obtain ⟨-, key, -, hfound⟩ := hserved.identified hidentified
            obtain ⟨-, r, hr, -, -, rfl⟩ := Keys.identify_eq_some.mp hfound
            exact .inr ⟨r, hr, rfl⟩
          · exact .inl hlookup
  | signIn id bytes now =>
      obtain ⟨-, -, rfl⟩ := step_signIn hstep
      refine h.quiet rfl rfl ?_
      intro id' device handler hlookup
      exact .inl (Table.lookup_of_delete hlookup)
  | seen id device now =>
      obtain ⟨handler, hfound, rfl⟩ := step_seen hstep
      exact h.markSeen hfound
  | create id name random now result =>
      obtain ⟨hruns, ⟨created, keys, hcreate, rfl, rfl⟩ | ⟨⟨error, -, rfl⟩, rfl⟩⟩ := step_create hstep
      · exact h.create hcurrent hruns hcreate
      · exact h.quiet rfl rfl fun _ _ _ => .inl
  | revoke id device now changed =>
      obtain ⟨-, hchanged, rfl⟩ := step_revoke hstep
      exact h.revoke hchanged
  | devices id shown =>
      obtain ⟨-, -, rfl⟩ := step_devices hstep
      exact h.quiet rfl rfl fun _ _ _ => .inl
  | close id =>
      cases hstep
      refine h.quiet rfl rfl ?_
      intro id' device handler hlookup
      exact .inl (Table.lookup_of_delete hlookup)

/-- Nothing is under way after a restart, and the table is as it was. -/
theorem Ledger.restart (h : Ledger o hash origin log s) (passwordHash publicOrigin : Text) :
    Ledger o hash origin (log ++ [.restart passwordHash publicOrigin]) (start passwordHash publicOrigin s.keys) := by
  refine h.quiet rfl rfl ?_
  intro id device handler hlookup
  cases hlookup

variable (o hash origin) in
/-- All that the server keeps. -/
structure Described (log : List Moment) (s : Running) : Prop where
  current : Current o hash origin log s
  ledger : Ledger o hash origin log s

theorem start_described : Described o hash origin [] (start hash origin HelperKeys.empty) :=
  ⟨start_follows, start_ledger⟩

theorem described_step (h : Described o hash origin log s) (hstep : s.service o m = some t) :
    Described o hash origin (log ++ [m]) t := by
  cases m with
  | event e =>
      refine ⟨?_, ledger_step h.ledger h.current hstep⟩
      rw [Current, eraOf_concat]
      exact follows_step h.current hstep
  | restart passwordHash publicOrigin =>
      cases hstep
      refine ⟨?_, h.ledger.restart passwordHash publicOrigin⟩
      rw [Current, eraOf_concat]
      exact start_follows

/-! ### The gate of the helper -/

/-- A helper's request is a device's when its key was made for the device, by a command that itself came through the
session's gate, and nobody revoked the device since. -/
def DeviceGate (o : Outside) (hash origin : Text) (before : List Moment) (m : Moment) : Prop :=
  ∀ id req now answer, m = .event (.request id req now answer) → req.path ∈ helperPaths →
    ∀ device handler, answer = .identified device handler ↔
      handler = (router req.method req.path).2 ∧
        ∃ key row, bearerFromHeaders req.headers = some key ∧ keyPrefix <+: key ∧
          row.keyHash = Keys.hashKey o.sha256 key ∧ device = ⟨row.id, row.name⟩ ∧
          Since (Issues o hash origin row) (Revokes row.id) before

/-- The rows that are in use are those that were made and not revoked since. -/
theorem Ledger.exists_active (h : Ledger o hash origin log s) {P : HelperKey → Prop}
    (hP : ∀ r, P r.issued ↔ P r) : (∃ r ∈ s.keys.rows, r.revokedAt = none ∧ P r) ↔
      ∃ row, Since (Issues o hash origin row) (Revokes row.id) log ∧ P row := by
  constructor
  · rintro ⟨r, hr, hactive, hrow⟩
    exact ⟨r.issued, (h.active r hr).mp hactive, (hP r).mpr hrow⟩
  · rintro ⟨row, hsince, hrow⟩
    obtain ⟨r, hr, rfl⟩ := h.kept row hsince.happened
    exact ⟨r, hr, (h.active r hr).mpr hsince, (hP r).mp hrow⟩

theorem Ledger.deviceGate (h : Ledger o hash origin log s) (hstep : s.service o m = some t) :
    DeviceGate o hash origin log m := by
  rintro id req now answer rfl hpath device handler
  obtain ⟨-, -, hserved, -⟩ := step_request hstep
  have hguard : router req.method req.path = (.deviceKey, (router req.method req.path).2) :=
    Prod.ext (router_device hpath) rfl
  rw [hserved.device_eq hguard, requireDeviceKey_eq_identified]
  refine and_congr_right fun _ => exists_congr fun key => ?_
  have hrows := h.exists_active (P := fun r => r.keyHash = Keys.hashKey o.sha256 key ∧ device = ⟨r.id, r.name⟩)
    fun _ => Iff.rfl
  rw [Keys.identify_eq_some]
  constructor
  · rintro ⟨hkey, hstarts, r, hr, hhash, hactive, hdevice⟩
    obtain ⟨row, hsince, hrow⟩ := hrows.mp ⟨r, hr, hactive, hhash, hdevice⟩
    exact ⟨row, hkey, hstarts, hrow.1, hrow.2, hsince⟩
  · rintro ⟨row, hkey, hstarts, hhash, hdevice, hsince⟩
    obtain ⟨r, hr, hactive, hrow⟩ := hrows.mpr ⟨row, hsince, hhash, hdevice⟩
    exact ⟨hkey, hstarts, r, hr, hrow.1, hactive, hrow.2⟩

/-- Over all runs and restarts: a helper's request counts for a device exactly when its key was made for it, by a command
let through the session's gate, and the device was not revoked since. -/
theorem device_gate (hrun : Trace (service o) (start hash origin HelperKeys.empty) log s) :
    Throughout (DeviceGate o hash origin) log := by
  have hall := hrun.throughout (fun _ _ _ _ h hstep => ⟨described_step h hstep, h.ledger.deviceGate hstep⟩)
    start_described
  exact hall.2

def pcKey : Text := keyPrefix ++ hexEncode zeros.toList

def pcName : Text := "pc".toList

def heartbeat : Request :=
  ⟨.post, "/helper/heartbeat".toList, ⟨[(.authorization, ascii ("Bearer ".toList ++ pcKey))]⟩, none⟩

def commandOf (name : Text) : Request := withCookie .post ("/rpc/".toList ++ name)

/-- A login and a device that is made. -/
def pcMade : List Event :=
  [.request 0 (loginOf "horse".toList) 0 .verified, .signIn 0 zeros 1,
    .request 1 (commandOf "helper_device_create".toList) 2 (.serve (.rpc "helper_device_create".toList)),
    .create 1 " pc ".toList (.ok zeros) 0 (.ok ⟨⟨1, pcName, 0, none, none⟩, pcKey⟩)]

/-- The device sends a heartbeat, is revoked after another login and sends another. -/
def pcRevoked : List Event :=
  [.request 0 heartbeat 0 (.identified ⟨1, pcName⟩ .heartbeat), .seen 0 ⟨1, pcName⟩ 0,
    .request 1 (loginOf "cow".toList) 1 .verified, .signIn 1 zeros 2,
    .request 2 (commandOf "helper_device_revoke".toList) 3 (.serve (.rpc "helper_device_revoke".toList)),
    .revoke 2 1 0 true, .request 3 heartbeat 4 .badKey]

/-- The server is restarted in between, with another password. -/
def pcRun : List Moment :=
  pcMade.map .event ++ .restart "cow".toList ownOrigin :: pcRevoked.map .event

theorem device_gate_revoked : Throughout (DeviceGate plainly "horse".toList ownOrigin) pcRun :=
  device_gate (trace_replay (by decide +kernel))

/-! ### The list of devices -/

/-- A device as the history shows it. -/
def Shows (o : Outside) (hash origin : Text) (before : List Moment) (d : HelperDevice) : Prop :=
  ∃ row, Happened (Issues o hash origin row) before ∧
    d.id = row.id ∧ d.name = row.name ∧ d.createdAt = row.createdAt ∧
    (∀ at_, d.lastSeenAt = some at_ ↔ Since (SeenAt row.id at_) (Sees row.id) before) ∧
    ∀ at_, d.revokedAt = some at_ ↔ Happened (RevokedAt row.id at_) before

/-- The list has every device once, the active ones first and the newest first in each group; a revocation is answered
with true when the device is there and nobody revoked it before. -/
structure DevicesTold (o : Outside) (hash origin : Text) (before : List Moment) (m : Moment) : Prop where
  inOrder : ∀ id shown, m = .event (.devices id shown) →
    shown.Pairwise fun a b => Keys.deviceRank a < Keys.deviceRank b
  complete : ∀ id shown, m = .event (.devices id shown) → ∀ d, d ∈ shown ↔ Shows o hash origin before d
  once : ∀ id device now changed, m = .event (.revoke id device now changed) →
    (changed = true ↔ ∃ row, Since (Issues o hash origin row) (Revokes row.id) before ∧ row.id = device)

theorem Ledger.mem_list_iff (h : Ledger o hash origin log s) (d : HelperDevice) :
    d ∈ Keys.list s.keys ↔ Shows o hash origin log d := by
  rw [Keys.mem_list]
  constructor
  · rintro ⟨r, hr, rfl⟩
    exact ⟨r.issued, h.issued r hr, rfl, rfl, rfl, h.seen r hr, h.revoked r hr⟩
  · rintro ⟨row, hissued, hid, hname, hcreated, hseen, hrevoked⟩
    obtain ⟨r, hr, rfl⟩ := h.kept row hissued
    refine ⟨r, hr, ?_⟩
    have hlast : r.lastSeenAt = d.lastSeenAt := Option.ext fun at_ => (h.seen r hr at_).trans (hseen at_).symm
    have hgone : r.revokedAt = d.revokedAt := Option.ext fun at_ => (h.revoked r hr at_).trans (hrevoked at_).symm
    cases d
    exact HelperDevice.mk.injEq .. ▸ ⟨hid.symm, hname.symm, hcreated.symm, hlast, hgone⟩

theorem Ledger.devicesTold (h : Ledger o hash origin log s) (hstep : s.service o m = some t) :
    DevicesTold o hash origin log m := by
  constructor
  · rintro id shown rfl
    obtain ⟨-, rfl, -⟩ := step_devices hstep
    exact Keys.pairwise_list s.keys
  · rintro id shown rfl d
    obtain ⟨-, rfl, -⟩ := step_devices hstep
    exact h.mem_list_iff d
  · rintro id device now changed rfl
    obtain ⟨-, hchanged, -⟩ := step_revoke hstep
    have hrows := h.exists_active (P := fun r => r.id = device) fun _ => Iff.rfl
    rw [← hchanged, Keys.revoke_fst, ← hrows]
    exact exists_congr fun r => and_congr_right fun _ => and_comm

/-- Over all runs and restarts: the list of devices is what the history of commands and keys makes it, and no device is
revoked twice. -/
theorem devices_told (hrun : Trace (service o) (start hash origin HelperKeys.empty) log s) :
    Throughout (DevicesTold o hash origin) log := by
  have hall := hrun.throughout (fun _ _ _ _ h hstep => ⟨described_step h hstep, h.ledger.devicesTold hstep⟩)
    start_described
  exact hall.2

theorem devices_told_revoked : Throughout (DevicesTold plainly "horse".toList ownOrigin) (pcRun ++
    [.event (.revoke 2 1 0 false),
      .event (.request 4 (commandOf "helper_devices".toList) 5 (.serve (.rpc "helper_devices".toList))),
      .event (.devices 4 [⟨1, pcName, 0, some 0, some 0⟩])]) :=
  devices_told (trace_replay (by decide +kernel))

end Running

end Quantframe.Server
