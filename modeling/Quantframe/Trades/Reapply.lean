import Quantframe.Trades.Pipeline

/-!
# Re-applying a failed trade

The calls of this module run one at a time and the database works. When the applier fails on an
item, the row keeps the whole resolution, so a review of the stored items starts from the first.
-/

namespace Quantframe.Trades
open Quantframe.Lib

/-- What the applier is told about one line of a trade. -/
structure Line where
  direction : Direction
  slug : String
  subType : Option SubType
  quantity : Int
  price : Int
  player : String
  detectedAt : Timestamp
  deriving DecidableEq, Repr

def Line.of (direction : Direction) (player : String) (detectedAt : Timestamp) (item : ResolvedItem) :
    Line :=
  ⟨direction, item.slug, item.subType, item.quantity, item.price, player, detectedAt⟩

/-- The applier calls so far, and the lines that were applied. -/
structure World where
  events : HelperEvents
  attempts : Nat
  applied : List Line

/-- What the outside answers; `fails n` is the error of the applier's call number `n`. -/
structure Outside where
  fails : Nat → Option Error
  fold : List ResolvedItem → List ResolvedItem
  priced : Resolution → List ResolvedItem

namespace Outside

def choice (out : Outside) (attempts : Nat) : Op → Choice
  | .applyItem .. => (out.fails attempts).elim .works .fails
  | .foldSets items => .items (out.fold items)
  | .price resolution => .items (out.priced resolution)
  | _ => .works

def attempted (out : Outside) (w : World) : Op → World
  | .applyItem direction item player detectedAt =>
      { w with
        attempts := w.attempts + 1
        applied :=
          if (out.fails w.attempts).isNone then w.applied ++ [.of direction player detectedAt item]
          else w.applied }
  | _ => w

theorem answers (out : Outside) (o : Op) (attempts : Nat) (t : HelperEvents) :
    (Trades.answer o (out.choice attempts o) t).isSome = true := by
  cases o with
  | insert event =>
      simp only [choice, Trades.answer]
      split <;> rfl
  | applyItem =>
      simp only [choice]
      cases out.fails attempts <;> rfl
  | _ => rfl

/-- Performs one operation. -/
def perform (out : Outside) (o : Op) (w : World) : Reply o × World :=
  let result := (Trades.answer o (out.choice w.attempts o) w.events).get (out.answers o _ _)
  (result.1, { out.attempted w o with events := result.2 })

theorem perform_of_answer (out : Outside) {o : Op} {w : World} {r : Reply o} {t : HelperEvents}
    (h : Trades.answer o (out.choice w.attempts o) w.events = some (r, t)) :
    out.perform o w = (r, { out.attempted w o with events := t }) := by
  rw [perform, Option.get_of_eq_some _ h]

end Outside

theorem eval_attempt {α β : Type} (out : Outside) (p : Handler α) (f : Except Error α → Handler β)
    (w : World) :
    (attempt p >>= f).run.eval out.perform w =
      (f (p.run.eval out.perform w).1).run.eval out.perform (p.run.eval out.perform w).2 :=
  Prog.eval_liftE out.perform p.run f w

/-- The line the review of an item stands for. -/
def ReviewItem.of (item : ResolvedItem) : ReviewItem :=
  ⟨item.slug, item.subType, item.quantity, item.price⟩

variable (out : Outside) {w w' : World}

theorem perform_applyItem_ok {direction : Direction} {item : ResolvedItem} {player : String}
    {detectedAt : Timestamp} (h : out.fails w.attempts = none) :
    out.perform (.applyItem direction item player detectedAt) w =
      (.ok (), ⟨w.events, w.attempts + 1, w.applied ++ [.of direction player detectedAt item]⟩) := by
  simp only [Outside.perform, Outside.attempted, Outside.choice, h]
  rfl

theorem perform_applyItem_fails {direction : Direction} {item : ResolvedItem} {player : String}
    {detectedAt : Timestamp} {e : Error} (h : out.fails w.attempts = some e) :
    out.perform (.applyItem direction item player detectedAt) w =
      (.error e, ⟨w.events, w.attempts + 1, w.applied⟩) := by
  simp only [Outside.perform, Outside.attempted, Outside.choice, h]
  rfl

variable {direction : Direction} {player : String} {detectedAt : Timestamp}

theorem applyItems_step {item : ResolvedItem} {items : List ResolvedItem} {completed : List String}
    {r : Except Error Unit}
    (h : out.perform (.applyItem direction item player detectedAt) w = (r, w')) :
    (applyItems direction (item :: items) player detectedAt completed).eval out.perform w =
      (match r with
        | .error e => (.error ⟨completed, e⟩, w')
        | .ok _ => (applyItems direction items player detectedAt
            (completed ++ [completedItem item])).eval out.perform w') := by
  refine (Prog.eval_bind out.perform _ _ w).trans ?_
  simp only [applyItem, Prog.eval_perform, h]
  cases r <;> rfl

/-- The applier succeeds on `before` and fails on the item after it. -/
theorem applyItems_stops {before : List ResolvedItem} {item : ResolvedItem} {after : List ResolvedItem}
    {e : Error} (completed : List String)
    (hbefore : ∀ n < before.length, out.fails (w.attempts + n) = none)
    (hitem : out.fails (w.attempts + before.length) = some e) :
    (applyItems direction (before ++ item :: after) player detectedAt completed).eval out.perform w =
      (.error ⟨completed ++ before.map completedItem, e⟩,
        ⟨w.events, w.attempts + before.length + 1,
          w.applied ++ before.map (Line.of direction player detectedAt)⟩) := by
  induction before generalizing w completed with
  | nil =>
      refine (applyItems_step out (perform_applyItem_fails out hitem)).trans ?_
      simp only [List.map_nil, List.append_nil, List.length_nil, Nat.add_zero]
  | cons first before ih =>
      have hfirst : out.fails w.attempts = none := hbefore 0 (Nat.succ_pos _)
      refine (applyItems_step out (perform_applyItem_ok out hfirst)).trans ?_
      have hshift : ∀ n, w.attempts + 1 + n = w.attempts + (n + 1) := by
        intro n
        omega
      refine (ih _ ?_ ?_).trans ?_
      · intro n hn
        rw [hshift]
        exact hbefore (n + 1) (Nat.succ_lt_succ hn)
      · rw [hshift]
        exact hitem
      · simp only [hshift, List.map_cons, List.length_cons, List.append_assoc, List.singleton_append]

theorem applyItems_ok {items : List ResolvedItem} {completed : List String}
    (h : (applyItems direction items player detectedAt completed).eval out.perform w = (.ok (), w')) :
    w'.events = w.events ∧
      w'.applied = w.applied ++ items.map (Line.of direction player detectedAt) := by
  induction items generalizing w completed with
  | nil =>
      cases h
      exact ⟨rfl, (List.append_nil _).symm⟩
  | cons item items ih =>
      cases hfails : out.fails w.attempts with
      | some e =>
          rw [applyItems_step out (perform_applyItem_fails out hfails)] at h
          cases h
      | none =>
          rw [applyItems_step out (perform_applyItem_ok out hfails)] at h
          obtain ⟨hevents, happlied⟩ := ih h
          refine ⟨hevents, happlied.trans ?_⟩
          simp only [List.map_cons, List.append_assoc, List.singleton_append]

/-! ### The automatic application that stops -/

theorem applyAndRecord_stops {event : HelperEvent} {resolution : Resolution} {at_ : Option DateTime}
    {before : List ResolvedItem} {item : ResolvedItem} {after : List ResolvedItem} {e : Error}
    (hitems : resolution.items = before ++ item :: after)
    (hbefore : ∀ n < before.length, out.fails (w.attempts + n) = none)
    (hitem : out.fails (w.attempts + before.length) = some e) :
    (applyAndRecord event direction resolution at_).run.eval out.perform w =
      (.ok ({ event with
          status := .needsReview
          reason := some (applyFailed ++ e.component)
          resolution := some resolution }, .error e),
        ⟨w.events.update event.eventId _
            (setStatusRow_eventId .needsReview (some (applyFailed ++ e.component)) (some resolution) none),
          w.attempts + before.length + 1,
          w.applied ++ before.map (Line.of direction event.payload.playerName event.detectedAt)⟩) := by
  have hstop : (applyItems direction resolution.items event.payload.playerName event.detectedAt []).eval
      out.perform w = _ := hitems ▸ applyItems_stops out [] hbefore hitem
  unfold applyAndRecord
  rw [Prog.eval_liftE, hstop]
  rfl

theorem applyAndRecord_applied {event event' : HelperEvent} {resolution : Resolution}
    {at_ : Option DateTime} {w' : World}
    (h : (applyAndRecord event direction resolution at_).run.eval out.perform w = (.ok (event', .ok ()), w')) :
    w'.applied =
      w.applied ++ resolution.items.map (Line.of direction event.payload.playerName event.detectedAt) := by
  unfold applyAndRecord at h
  rw [Prog.eval_liftE] at h
  cases hitems : (applyItems direction resolution.items event.payload.playerName event.detectedAt []).eval
      out.perform w with
  | mk r w₁ =>
      rw [hitems] at h
      cases r with
      | ok _ =>
          cases h
          exact (applyItems_ok out hitems).2
      | error failure => cases h

/-! ### From the failure to the review -/

theorem resolveEvent_world (env : TradeEnv) (trade : RawTrade) (w : World) :
    ((resolveEvent env trade).run.eval out.perform w).2 = w := by
  have hprice : ∀ (resolution : Resolution) (f : Resolution → Resolution × Option String),
      ((price resolution >>= fun r => pure (f r) : Handler (Resolution × Option String)).run.eval
        out.perform w).2 = w := by
    intro resolution f
    unfold price
    split <;> rfl
  unfold resolveEvent
  split
  · rfl
  · next resolved _ =>
      by_cases hsets : (env.setCandidates resolved.resolution.items).isEmpty = true
      · simp only [if_pos hsets]
        exact hprice _ _
      · simp only [if_neg hsets]
        exact hprice _ _

theorem handleIncoming_stops {env : TradeEnv} {deviceName : String} {incoming : IncomingTrade}
    {now at_ : DateTime} {resolution : Resolution} {before : List ResolvedItem} {item : ResolvedItem}
    {after : List ResolvedItem} {e : Error} (hvalid : validate env incoming = .ok at_)
    (hnew : w.events.get incoming.eventId = none)
    (hresolve : ((resolveEvent env incoming.trade).run.eval out.perform w).1 = .ok (resolution, none))
    (hdirection : resolution.direction = some direction)
    (hitems : resolution.items = before ++ item :: after)
    (hbefore : ∀ n < before.length, out.fails (w.attempts + n) = none)
    (hitem : out.fails (w.attempts + before.length) = some e)
    {r : Except Error Outcome}
    (h : (handleIncoming env deviceName incoming now).run.eval out.perform w = (r, w')) :
    w'.applied =
        w.applied ++ before.map (Line.of direction incoming.trade.playerName (ts at_)) ∧
      ∃ row, w'.events.get incoming.eventId = some row ∧ row.status = .needsReview ∧
        row.resolution = some resolution ∧ row.payload = incoming.trade ∧ row.detectedAt = ts at_ := by
  have hexists : (Events.exists incoming.eventId).run.eval out.perform w = (.ok false, w) := by
    show (Except.ok (w.events.get incoming.eventId).isSome, w) = _
    rw [hnew]
    rfl
  have hresolved : (resolveEvent env incoming.trade).run.eval out.perform w = (.ok (resolution, none), w) :=
    Prod.ext hresolve (resolveEvent_world out env incoming.trade w)
  unfold handleIncoming at h
  rw [hvalid] at h
  simp only at h
  rw [Prog.eval_bindE_ok out.perform hexists, if_neg Bool.false_ne_true,
    Prog.eval_bindE_ok out.perform hresolved, eval_attempt] at h
  simp only [hdirection, Option.getD_none] at h
  generalize hevent : HelperEvent.mk incoming.eventId deviceName (ts now) (ts at_) .needsReview
    (some applying) incoming.trade (some resolution) none none = event at h
  have hid : event.eventId = incoming.eventId := by rw [← hevent]
  have hpayload : event.payload = incoming.trade := by rw [← hevent]
  have hdetected : event.detectedAt = ts at_ := by rw [← hevent]
  have hnone : w.events.get event.eventId = none := hid ▸ hnew
  have hinsert : (Events.insert event).run.eval out.perform w =
      (.ok (), { w with events := w.events.insert event hnone }) :=
    out.perform_of_answer (dif_pos hnone)
  rw [hinsert] at h
  simp only at h
  rw [Prog.eval_bindE_ok out.perform (applyAndRecord_stops out
    (w := ⟨w.events.insert event hnone, w.attempts, w.applied⟩) hitems hbefore hitem)] at h
  cases h
  constructor
  · show w.applied ++ before.map (Line.of direction event.payload.playerName event.detectedAt) = _
    rw [hpayload, hdetected]
  · have hrow : ((w.events.insert event hnone).update event.eventId _ (setStatusRow_eventId .needsReview
        (some (applyFailed ++ e.component)) (some resolution) none)).get incoming.eventId =
          some (setStatusRow .needsReview (some (applyFailed ++ e.component)) (some resolution) none event) := by
      rw [HelperEvents.get_update, if_pos hid.symm, HelperEvents.get_insert, if_pos hid.symm, Option.map_some]
    exact ⟨_, hrow, rfl, rfl, hpayload, hdetected⟩

theorem reviewItem_line {env : TradeEnv} {item resolved : ResolvedItem}
    (h : reviewItem env (.of item) = .ok resolved) :
    Line.of direction player detectedAt resolved = Line.of direction player detectedAt item := by
  unfold reviewItem at h
  split at h
  · cases h
  · next found hfound =>
      split at h
      · cases h
      · have hslug : found.wfmUrl = item.slug := by
          have := List.find?_some hfound
          exact beq_iff_eq.mp this
        cases h
        simp only [Line.of, hslug, ReviewItem.of]

theorem reviewItems_lines {env : TradeEnv} {items resolved : List ResolvedItem}
    (h : (items.map ReviewItem.of).mapM (reviewItem env) = .ok resolved) :
    resolved.map (Line.of direction player detectedAt) = items.map (Line.of direction player detectedAt) := by
  induction items generalizing resolved with
  | nil =>
      cases h
      rfl
  | cons item items ih =>
      rw [List.map_cons, List.mapM_cons] at h
      cases hitem : reviewItem env (.of item) with
      | error e =>
          rw [hitem] at h
          cases h
      | ok first =>
          rw [hitem] at h
          cases hrest : (items.map ReviewItem.of).mapM (reviewItem env) with
          | error e =>
              rw [hrest] at h
              cases h
          | ok rest =>
              rw [hrest] at h
              cases h
              rw [List.map_cons, List.map_cons, reviewItem_line hitem, ih hrest]

theorem applyReviewed_applied {env : TradeEnv} {id : String} {now : DateTime} {row event : HelperEvent}
    {resolution : Resolution} (hrow : w.events.get id = some row)
    (hresolution : row.resolution = some resolution) (hdirection : resolution.direction = some direction)
    (h : (applyReviewed env id (resolution.items.map ReviewItem.of) now).run.eval out.perform w =
      (.ok event, w')) :
    w'.applied =
      w.applied ++ resolution.items.map (Line.of direction row.payload.playerName row.detectedAt) := by
  have hread : (reviewable id).run.eval out.perform w =
      (if row.status = .needsReview then .ok row else
        .error (reviewError ("This trade is already " ++ row.status.asStr ++
          "; only trades that need review can change")), w) := by
    unfold reviewable
    have hget : (Events.get id).run.eval out.perform w = (.ok (some row), w) :=
      out.perform_of_answer (congrArg (fun r => some (Except.ok r, w.events)) hrow)
    rw [Prog.eval_bindE_ok out.perform hget]
    by_cases hs : row.status = .needsReview
    · simp only [ne_eq, hs, not_true_eq_false, if_false, if_true]
      rfl
    · simp only [ne_eq, hs, not_false_eq_true, if_false, if_true]
      rfl
  unfold applyReviewed at h
  by_cases hs : row.status = .needsReview
  · rw [if_pos hs] at hread
    rw [Prog.eval_bindE_ok out.perform hread] at h
    simp only [hresolution, Option.getD_some, hdirection] at h
    split at h
    · cases h
    · split at h
      · cases h
      · next resolved hresolved =>
          cases hrecord : (applyAndRecord row direction
              ⟨some direction, resolution.platinum, resolved, resolution.extras⟩ (some now)).run.eval out.perform w with
          | mk r w₁ =>
              cases r with
              | error e =>
                  rw [Prog.eval_bindE_error out.perform hrecord] at h
                  cases h
              | ok recorded =>
                  obtain ⟨event', result⟩ := recorded
                  rw [Prog.eval_bindE_ok out.perform hrecord] at h
                  cases result with
                  | error e => cases h
                  | ok _ =>
                      cases h
                      rw [applyAndRecord_applied out hrecord, reviewItems_lines hresolved]
  · rw [if_neg hs] at hread
    rw [Prog.eval_bindE_error out.perform hread] at h
    cases h

/-- When the applier stops at item `before.length + 1` and the stored items are later reviewed with
success, the items before it are applied twice and the rest once. -/
theorem reapply_repeats_prefix {out out' : Outside} {env env' : TradeEnv} {deviceName : String}
    {incoming : IncomingTrade} {now now' at_ : DateTime} {resolution : Resolution}
    {direction : Direction} {before after : List ResolvedItem} {item : ResolvedItem} {e : Error}
    {w w₁ w₂ w₃ : World} {r : Except Error Outcome} {event : HelperEvent}
    (hvalid : validate env incoming = .ok at_) (hnew : w.events.get incoming.eventId = none)
    (hresolve : ((resolveEvent env incoming.trade).run.eval out.perform w).1 = .ok (resolution, none))
    (hdirection : resolution.direction = some direction)
    (hitems : resolution.items = before ++ item :: after)
    (hbefore : ∀ n < before.length, out.fails (w.attempts + n) = none)
    (hitem : out.fails (w.attempts + before.length) = some e)
    (hincoming : (handleIncoming env deviceName incoming now).run.eval out.perform w = (r, w₁))
    (hkept : ∀ row, w₁.events.get incoming.eventId = some row → ∃ row', w₂.events.get incoming.eventId = some row' ∧
      row'.resolution = row.resolution ∧ row'.payload = row.payload ∧ row'.detectedAt = row.detectedAt)
    (hreview : (applyReviewed env' incoming.eventId (resolution.items.map ReviewItem.of) now').run.eval
      out'.perform w₂ = (.ok event, w₃)) :
    let line := Line.of direction incoming.trade.playerName (ts at_)
    w₁.applied = w.applied ++ before.map line ∧
      w₃.applied = w₂.applied ++ (before.map line ++ line item :: after.map line) := by
  intro line
  obtain ⟨happlied, row, hrow, -, hresolution, hpayload, hdetected⟩ :=
    handleIncoming_stops out hvalid hnew hresolve hdirection hitems hbefore hitem hincoming
  refine ⟨happlied, ?_⟩
  obtain ⟨row', hrow', hsame, hsamePayload, hsameDetected⟩ := hkept row hrow
  have hagain := applyReviewed_applied out' hrow' (hsame.trans hresolution) hdirection hreview
  rw [hagain, hsamePayload, hsameDetected, hpayload, hdetected, hitems, List.map_append, List.map_cons]

/-! ### Two items, the second of which fails -/

def pairId : String := "00000000000000000000000000000000000000000000000000000000000000bb"

def pairItems : List ResolvedItem :=
  [⟨"Adaptation", "adaptation", "id_adaptation", "Adaptation", none, 1, 20, "name"⟩,
    ⟨"Mesa Prime Set", "mesa_prime_set", "id_mesa_prime_set", "Mesa Prime Set", none, 1, 80, "name"⟩]

def pairResolution : Resolution := ⟨some .purchase, 100, pairItems, []⟩

def pairEnv : TradeEnv where
  autoTrade := true
  tradableItems :=
    [⟨"Adaptation", "id_adaptation", "adaptation"⟩, ⟨"Mesa Prime Set", "id_mesa_prime_set", "mesa_prime_set"⟩]
  resolveTrade := fun _ => .ok ⟨pairResolution, []⟩
  setCandidates := fun _ => []
  parseFromRfc3339 := fun _ => .ok 0

def pairIncoming : IncomingTrade :=
  ⟨pairId, "1970-01-01T00:00:00Z", ⟨"PlayerA", "422.424", [⟨"Platinum", 100, none⟩],
    [⟨"Adaptation", 1, none⟩, ⟨"Mesa Prime Set", 1, none⟩]⟩⟩

def rejectsSecond : Outside where
  fails n := if n = 1 then some ⟨"HandleItem", "WFM rejected the order"⟩ else none
  fold items := items
  priced resolution := resolution.items

def pairStopped : Except Error Outcome × World :=
  (handleIncoming pairEnv "gaming-pc" pairIncoming 0).run.eval rejectsSecond.perform ⟨.empty, 0, []⟩

def pairReviewed : Except Error HelperEvent × World :=
  (applyReviewed pairEnv pairId (pairItems.map ReviewItem.of) 0).run.eval rejectsSecond.perform pairStopped.2

theorem reapply_repeats_prefix_pair :
    let line := Line.of .purchase "PlayerA" 0
    pairStopped.2.applied = [] ++ (pairItems.take 1).map line ∧
      pairReviewed.2.applied =
        pairStopped.2.applied ++ ((pairItems.take 1).map line ++ (pairItems.drop 1).map line) := by
  have hok : pairReviewed.1.toOption.isSome = true := by decide +kernel
  obtain ⟨event, hevent⟩ : ∃ event, pairReviewed.1 = .ok event := by
    cases h : pairReviewed.1 with
    | ok event => exact ⟨event, rfl⟩
    | error e =>
        rw [h] at hok
        cases hok
  have hresolve : ((resolveEvent pairEnv pairIncoming.trade).run.eval rejectsSecond.perform
      ⟨.empty, 0, []⟩).1 = .ok (pairResolution, none) := rfl
  have hitems : pairResolution.items = pairItems.take 1 ++ pairItems[1] :: [] := rfl
  have hincoming : (handleIncoming pairEnv "gaming-pc" pairIncoming 0).run.eval rejectsSecond.perform
      ⟨.empty, 0, []⟩ = (pairStopped.1, pairStopped.2) := rfl
  have hreview : (applyReviewed pairEnv pairIncoming.eventId (pairResolution.items.map ReviewItem.of) 0).run.eval
      rejectsSecond.perform pairStopped.2 = (.ok event, pairReviewed.2) := Prod.ext hevent rfl
  exact reapply_repeats_prefix rfl rfl hresolve rfl hitems (by decide) rfl hincoming
    (fun row hrow => ⟨row, hrow, rfl, rfl, rfl⟩) hreview

/-- The first item is applied a second time by the review. -/
theorem reapply_not_once :
    pairStopped.1 = .ok ⟨"needs_review", some "apply_failed: HandleItem"⟩ ∧
      pairReviewed.1.toOption.isSome = true ∧
      ¬pairReviewed.2.applied.Perm (pairItems.map (Line.of .purchase "PlayerA" 0)) := by
  refine ⟨rfl, by decide +kernel, ?_⟩
  intro hperm
  exact absurd hperm.length_eq (by decide +kernel)

end Quantframe.Trades
