import Mathlib.Data.List.Nodup
import Mathlib.Data.List.Sort
import Quantframe.Trades.Types

/-!
# The `helper_events` table and the steps that touch it

`Op` lists every statement and remote request of the trade pipeline; each is one atomic step.
`answer` is what one of them does to the table. A statement may fail, and then changes nothing.
-/

namespace Quantframe.Trades

/-- Rows in the order of their insertion; `event_id` is the primary key. -/
structure HelperEvents where
  rows : List HelperEvent
  primaryKey : (rows.map HelperEvent.eventId).Nodup

namespace HelperEvents

def empty : HelperEvents := ⟨[], List.nodup_nil⟩

def get (t : HelperEvents) (id : String) : Option HelperEvent := t.rows.find? fun e => e.eventId == id

def has (t : HelperEvents) (id : String) : Bool := (t.get id).isSome

theorem get_eq_none {t : HelperEvents} {id : String} :
    t.get id = none ↔ id ∉ t.rows.map HelperEvent.eventId := by
  simp only [get, List.find?_eq_none, beq_iff_eq, List.mem_map, not_exists, not_and]

theorem get_eventId {t : HelperEvents} {id : String} {e : HelperEvent} (h : t.get id = some e) :
    e.eventId = id := by
  have := List.find?_some h
  exact beq_iff_eq.mp this

def insert (t : HelperEvents) (e : HelperEvent) (h : t.get e.eventId = none) : HelperEvents where
  rows := t.rows ++ [e]
  primaryKey := by
    rw [List.map_append, List.map_singleton, ← List.concat_eq_append]
    exact t.primaryKey.concat (get_eq_none.mp h)

/-- `UPDATE helper_events SET … WHERE event_id = id`. -/
def update (t : HelperEvents) (id : String) (f : HelperEvent → HelperEvent)
    (hf : ∀ e, (f e).eventId = e.eventId) : HelperEvents where
  rows := t.rows.map fun e => if e.eventId == id then f e else e
  primaryKey := by
    rw [List.map_map]
    have hsame : (HelperEvent.eventId ∘ fun e => if e.eventId == id then f e else e) =
        HelperEvent.eventId := by
      funext e
      simp only [Function.comp_apply]
      split
      · exact hf e
      · rfl
    rw [hsame]
    exact t.primaryKey

theorem get_insert {t : HelperEvents} {e : HelperEvent} {h : t.get e.eventId = none} (id : String) :
    (t.insert e h).get id = if id = e.eventId then some e else t.get id := by
  simp only [get, insert, List.find?_append]
  by_cases hid : id = e.eventId
  · subst hid
    rw [if_pos rfl]
    have hnone : t.rows.find? (fun e' => e'.eventId == e.eventId) = none := h
    rw [hnone, Option.none_or, List.find?_cons, beq_self_eq_true]
  · rw [if_neg hid]
    have hmiss : [e].find? (fun e' => e'.eventId == id) = none := by
      rw [List.find?_cons, beq_false_of_ne (Ne.symm hid), List.find?_nil]
    rw [hmiss, Option.or_none]

theorem get_update {t : HelperEvents} {id : String} {f : HelperEvent → HelperEvent}
    {hf : ∀ e, (f e).eventId = e.eventId} (id' : String) :
    (t.update id f hf).get id' = if id' = id then (t.get id').map f else t.get id' := by
  simp only [get, update, List.find?_map]
  have hsame : ((fun e : HelperEvent => e.eventId == id') ∘
      fun e => if e.eventId == id then f e else e) = fun e => e.eventId == id' := by
    funext e
    simp only [Function.comp_apply]
    split
    · rw [hf e]
    · rfl
  rw [hsame]
  cases hfind : t.rows.find? fun e => e.eventId == id' with
  | none => simp only [Option.map_none, ite_self]
  | some e =>
      have hid := List.find?_some hfind
      rw [beq_iff_eq] at hid
      simp only [Option.map_some, hid, beq_iff_eq]
      split <;> rfl

def statusOf (t : HelperEvents) (id : String) : Option Status := (t.get id).map HelperEvent.status

/-- `reason LIKE 'pattern%'`: `_` stands for any character, and ASCII case does not matter. -/
def like : List Char → List Char → Bool
  | [], _ => true
  | _ :: _, [] => false
  | p :: ps, c :: cs => (p == '_' || p.toLower == c.toLower) && like ps cs

/-- Rows the housekeeping sweep must alert on, oldest first. -/
def needingAlert (t : HelperEvents) (stuckBefore : Timestamp) : List HelperEvent :=
  let due := t.rows.filter fun e =>
    e.status == .needsReview && e.alertedAt.isNone &&
      e.reason.any fun reason =>
        like "apply_failed:".toList reason.toList ||
          (reason == applying && decide (e.receivedAt ≤ stuckBefore))
  due.mergeSort fun a b => decide (a.receivedAt ≤ b.receivedAt)

end HelperEvents

inductive Op where
  | exists (id : String)
  | insert (event : HelperEvent)
  | get (id : String)
  | setStatus (id : String) (status : Status) (reason : Option String)
      (resolution : Option Resolution) (reviewedAt : Option DateTime)
  | needingAlert (stuckBefore : DateTime)
  | markAlerted (id : String) (at_ : DateTime)
  | setReason (id : String) (reason : String)
  /-- `parts_for` and `fold_sets` on these items. -/
  | foldSets (items : List ResolvedItem)
  /-- Reads the medians, then prices the items. -/
  | price (resolution : Resolution)
  | applyItem (direction : Direction) (item : ResolvedItem) (player : String) (detectedAt : Timestamp)
  | notify (event : HelperEvent)
  | alert (event : HelperEvent)

abbrev Reply : Op → Type
  | .exists _ => Except Error Bool
  | .insert _ => Except Error Unit
  | .get _ => Except Error (Option HelperEvent)
  | .setStatus .. => Except Error Bool
  | .needingAlert _ => Except Error (List HelperEvent)
  | .markAlerted .. => Except Error Bool
  | .setReason .. => Except Error Bool
  | .foldSets _ => List ResolvedItem
  | .price _ => Except Error Resolution
  | .applyItem .. => Except Error Unit
  | .notify _ => Unit
  | .alert _ => Unit

/-- What the outside decides about a step. -/
inductive Choice where
  | works
  | fails (error : Error)
  | items (items : List ResolvedItem)

def setStatusRow (status : Status) (reason : Option String) (resolution : Option Resolution)
    (reviewedAt : Option DateTime) (e : HelperEvent) : HelperEvent :=
  { e with status, reason, resolution, reviewedAt := reviewedAt.map ts }

theorem setStatusRow_eventId (status : Status) (reason : Option String) (resolution : Option Resolution)
    (reviewedAt : Option DateTime) (e : HelperEvent) :
    (setStatusRow status reason resolution reviewedAt e).eventId = e.eventId := rfl

/-- The error of an `INSERT` that violates the primary key. -/
def uniqueViolation : Error :=
  ⟨"HelperEvents:Insert", "UNIQUE constraint failed: helper_events.event_id"⟩

def answer (o : Op) (choice : Choice) (t : HelperEvents) : Option (Reply o × HelperEvents) :=
  match o, choice with
  | .exists id, .works => some (.ok (t.has id), t)
  | .exists _, .fails e => some (.error e, t)
  | .insert event, .works =>
      if h : t.get event.eventId = none then some (.ok (), t.insert event h)
      else some (.error uniqueViolation, t)
  | .insert _, .fails e => some (.error e, t)
  | .get id, .works => some (.ok (t.get id), t)
  | .get _, .fails e => some (.error e, t)
  | .setStatus id status reason resolution reviewedAt, .works =>
      some (.ok (t.has id),
        t.update id _ (setStatusRow_eventId status reason resolution reviewedAt))
  | .setStatus .., .fails e => some (.error e, t)
  | .needingAlert stuckBefore, .works => some (.ok (t.needingAlert (ts stuckBefore)), t)
  | .needingAlert _, .fails e => some (.error e, t)
  | .markAlerted id at_, .works =>
      some (.ok (t.has id), t.update id (fun e => { e with alertedAt := some (ts at_) }) fun _ => rfl)
  | .markAlerted .., .fails e => some (.error e, t)
  | .setReason id reason, .works =>
      some (.ok (t.has id), t.update id (fun e => { e with reason := some reason }) fun _ => rfl)
  | .setReason .., .fails e => some (.error e, t)
  | .foldSets _, .items items => some (items, t)
  | .price resolution, .items items => some (.ok { resolution with items }, t)
  | .price _, .fails e => some (.error e, t)
  | .applyItem .., .works => some (.ok (), t)
  | .applyItem .., .fails e => some (.error e, t)
  | .notify _, .works => some ((), t)
  | .alert _, .works => some ((), t)
  | _, _ => none

/-! ### What a step does to the status of a row -/

variable {t t' : HelperEvents} {choice : Choice}

theorem HelperEvents.statusOf_update {id : String} {f : HelperEvent → HelperEvent}
    {hf : ∀ e, (f e).eventId = e.eventId} {g : Status → Status}
    (hg : ∀ e, (f e).status = g e.status) (id' : String) :
    (t.update id f hf).statusOf id' = if id' = id then (t.statusOf id').map g else t.statusOf id' := by
  simp only [statusOf, get_update]
  split
  · simp only [Option.map_map]
    exact congrFun (congrArg _ (funext hg)) _
  · rfl

/-- Only an insertion and `set_status` touch the status of a row. -/
def Op.writesStatus : Op → Bool
  | .insert _ | .setStatus .. => true
  | _ => false

theorem answer_statusOf {o : Op} {r : Reply o} (h : answer o choice t = some (r, t'))
    (ho : o.writesStatus = false) (id : String) : t'.statusOf id = t.statusOf id := by
  have hsame : ∀ (id' : String) (f : HelperEvent → HelperEvent) (hf : ∀ e, (f e).eventId = e.eventId),
      (∀ e, (f e).status = e.status) → (t.update id' f hf).statusOf id = t.statusOf id := by
    intro id' f hf hstatus
    rw [HelperEvents.statusOf_update (g := fun x => x) hstatus]
    simp only [Option.map_id', ite_self]
  cases o with
  | insert | setStatus => cases ho
  | markAlerted | setReason =>
      cases choice with
      | works =>
          cases h
          exact hsame _ _ _ fun _ => rfl
      | fails | items => cases h <;> rfl
  | _ => cases choice <;> cases h <;> rfl

theorem answer_exists {id : String} {b : Bool}
    (h : answer (.exists id) choice t = some (.ok b, t')) : t.has id = b := by
  cases choice with
  | works =>
      simp only [answer, Option.some.injEq, Prod.mk.injEq, Except.ok.injEq] at h
      exact h.1
  | fails | items => cases h

theorem answer_get {id : String} {event : HelperEvent}
    (h : answer (.get id) choice t = some (.ok (some event), t')) : t.get id = some event := by
  cases choice with
  | works =>
      simp only [answer, Option.some.injEq, Prod.mk.injEq, Except.ok.injEq] at h
      exact h.1
  | fails | items => cases h

theorem answer_insert {event : HelperEvent} {r : Except Error Unit}
    (h : answer (.insert event) choice t = some (r, t')) :
    (∃ error, r = .error error ∧ t' = t) ∨
      (r = .ok () ∧ t.statusOf event.eventId = none ∧
        ∀ id, t'.statusOf id = if id = event.eventId then some event.status else t.statusOf id) := by
  cases choice with
  | works =>
      simp only [answer] at h
      split at h
      · next hnone =>
          cases h
          refine .inr ⟨rfl, by rw [HelperEvents.statusOf, hnone]; rfl, ?_⟩
          intro id
          simp only [HelperEvents.statusOf, HelperEvents.get_insert]
          split <;> rfl
      · cases h
        exact .inl ⟨_, rfl, rfl⟩
  | fails error =>
      cases h
      exact .inl ⟨_, rfl, rfl⟩
  | items => cases h

theorem answer_setStatus {id : String} {status : Status} {reason : Option String}
    {resolution : Option Resolution} {at_ : Option DateTime} {r : Except Error Bool}
    (h : answer (.setStatus id status reason resolution at_) choice t = some (r, t')) :
    ((∃ error, r = .error error) ∧ t' = t ∧ choice ≠ .works) ∨
      (r = .ok (t.has id) ∧
        ∀ id', t'.statusOf id' =
          if id' = id then (t.statusOf id').map fun _ => status else t.statusOf id') := by
  cases choice with
  | works =>
      cases h
      exact .inr ⟨rfl, HelperEvents.statusOf_update fun _ => rfl⟩
  | fails error =>
      cases h
      exact .inl ⟨⟨_, rfl⟩, rfl, nofun⟩
  | items => cases h

theorem HelperEvents.has_iff {id : String} : t.has id = true ↔ t.statusOf id ≠ none := by
  rw [HelperEvents.has, HelperEvents.statusOf, Ne, Option.map_eq_none_iff, Option.isSome_iff_ne_none]

/-- No step deletes a row. -/
theorem answer_has {o : Op} {r : Reply o} (h : answer o choice t = some (r, t')) {id : String}
    (hid : t.has id = true) : t'.has id = true := by
  rw [HelperEvents.has_iff] at hid ⊢
  cases o with
  | insert event =>
      rcases answer_insert h with ⟨_, -, rfl⟩ | ⟨-, -, hstatus⟩
      · exact hid
      · rw [hstatus]
        split
        · exact Option.some_ne_none _
        · exact hid
  | setStatus id' =>
      rcases answer_setStatus h with ⟨-, rfl, -⟩ | ⟨-, hstatus⟩
      · exact hid
      · rw [hstatus]
        split
        · exact mt Option.map_eq_none_iff.mp hid
        · exact hid
  | _ =>
      rw [answer_statusOf h rfl]
      exact hid

end Quantframe.Trades
