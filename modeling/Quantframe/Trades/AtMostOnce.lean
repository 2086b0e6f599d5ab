import Quantframe.Trades.Book

/-!
# At most one application of an event

A row is `needs_review` from its insertion until an outcome is recorded, so the review guard lets
a second call through while the first is still at work. Runs in which no call takes up an event
that another call is acting on book each event at most once.
-/

namespace Quantframe.Trades
open Quantframe.Lib

def Op.recordsApplied : Op → Bool
  | .setStatus _ .applied _ _ _ => true
  | _ => false

def Op.recordsIgnored : Op → Bool
  | .setStatus _ .ignored _ _ _ => true
  | _ => false

namespace Server

def About (s : Server) (i : Nat) (id : String) : Prop :=
  ∃ c, s.calls[i]? = some c ∧ c.call.eventId? = some id

instance (s : Server) (i : Nat) (id : String) : Decidable (s.About i id) :=
  decidable_of_iff ((s.calls[i]?.bind fun c => c.call.eventId?) = some id) Option.bind_eq_some_iff

/-- `apply_items` of call `i` has succeeded: this is recorded, or is about to be. -/
def Finished (s : Server) (i : Nat) : Prop :=
  s.Next i Op.recordsApplied ∨ ∃ o r, (i, ⟨o, r⟩) ∈ s.log ∧ o.recordsApplied = true

/-- Call `i` has marked its event ignored. -/
def Ignored (s : Server) (i : Nat) : Prop :=
  ∃ id reason resolution at_, (i, ⟨.setStatus id .ignored reason resolution at_, .ok true⟩) ∈ s.log

/-- Of two calls about one event at most one applies it, and none applies an item once another has
finished or ignored it. -/
def AppliedAtMostOnce (s : Server) : Prop :=
  ∀ (id : String) (i j : Nat), i ≠ j → s.About i id → s.About j id →
    ¬(s.Finished i ∧ s.Finished j) ∧
      (s.Finished j ∨ s.Ignored j → ¬(s.Live i ∧ s.Next i Op.applies))

/-- Call `i` still has an applier call or its outcome to write. -/
def Acting (s : Server) (i : Nat) (id : String) : Prop := s.About i id ∧ s.Live i ∧ s.Next i Op.acts

/-- No call takes up an event on which another is acting, two ignores apart, and the write that
records a finished application neither fails nor is cut off. -/
def Clean (s : Server) : CallLabel Call Choice → Prop
  | .start _ => True
  | .step i choice =>
      (s.Next i Op.recordsApplied → choice = .works) ∧
        ∀ (t : Server) (id : String) (j : Nat), Server.step s (.step i choice) = some t → j ≠ i →
          ¬s.Acting i id → t.Acting i id → s.Acting j id →
            t.Next i Op.recordsIgnored ∧ s.Next j Op.recordsIgnored
  | .drop i => ¬s.Next i Op.recordsApplied

end Server

/-! ### Phases and next steps -/

variable {call : Call} {q q' : Phase} {o : Op} {r : Reply o}

theorem Op.quiet_eq_false (h : o.acts = true ∨ o.recordsApplied = true ∨ o.recordsIgnored = true ∨
    o.applies = true) : o.quiet = false := by
  cases o with
  | setStatus | applyItem => rfl
  | _ => rcases h with h | h | h | h <;> cases h

theorem Moves.claims_iff (h : Moves call q o r q') : q.claims = true ↔ o.acts = true := by
  cases h with
  | quiet hq hquiet =>
      rw [hq]
      exact ⟨nofun, fun ho => by cases hquiet.symm.trans (Op.quiet_eq_false (.inl ho))⟩
  | _ => simp [Op.acts, Phase.claims]

theorem Moves.recordsApplied (h : Moves call q o r q') (ho : o.recordsApplied = true) :
    q = .applying [] ∧ q' = .booked := by
  cases h with
  | quiet _ hquiet => cases hquiet.symm.trans (Op.quiet_eq_false (.inr (.inl ho)))
  | booked => exact ⟨rfl, rfl⟩
  | _ => cases ho

theorem Moves.recordsIgnored (h : Moves call q o r q') (ho : o.recordsIgnored = true) :
    q = .ignoring := by
  cases h with
  | quiet _ hquiet => cases hquiet.symm.trans (Op.quiet_eq_false (.inr (.inr (.inl ho))))
  | ignored | notIgnored => rfl
  | _ => cases ho

theorem Moves.ignored_of_ok {id : String} {reason : Option String} {resolution : Option Resolution}
    {at_ : Option DateTime} {b : Bool}
    (h : Moves call q (.setStatus id .ignored reason resolution at_) (.ok b) q') : q' = .ignored := by
  cases h with
  | quiet _ hquiet => cases hquiet
  | ignored => rfl

theorem Moves.of_applying_nil (h : Moves call (.applying []) o r q') : o.recordsApplied = true := by
  cases h with
  | quiet hq => cases hq
  | booked => rfl

theorem Moves.of_applies (h : Moves call q o r q') (ho : o.applies = true) :
    ∃ item rest, q = .applying (item :: rest) := by
  cases h with
  | quiet _ hquiet => cases hquiet.symm.trans (Op.quiet_eq_false (.inr (.inr (.inr ho))))
  | applied | failed => exact ⟨_, _, rfl⟩
  | _ => cases ho

/-- The phases a call ends in do not change. -/
theorem Moves.booked_stays (h : Moves call .booked o r q') : q' = .booked := by
  cases h
  rfl

theorem Moves.ignored_stays (h : Moves call .ignored o r q') : q' = .ignored := by
  cases h
  rfl

namespace Server

variable {s t : Server} {φ : Nat → Phase} {i : Nat}

abbrev Phased (s : Server) (φ : Nat → Phase) : Prop := Calls.Phased protocol (fun _ => Settled) .fresh s φ

theorem Phased.next (hs : s.Phased φ) {p : Op → Bool} (h : s.Next i p) :
    ∃ call o r q, p o = true ∧ Moves call (φ i) o r q :=
  Calls.Phased.next hs (fun _ => exists_reply) h

theorem Phased.next_of_claims (hs : s.Phased φ) {c : Running Call Op Reply (Except Error Returned)}
    (hi : s.calls[i]? = some c) (hq : (φ i).claims = true) {p : Op → Bool}
    (hp : ∀ call o r q, Moves call (φ i) o r q → p o = true) : s.Next i p := by
  refine Calls.Phased.next_of_unsettled hs (fun _ => exists_reply) hi ?_ (hp c.call)
  intro _ hsettled
  cases hq.symm.trans hsettled

/-- Call `i` has taken event `id` up and is still at it. -/
def Claims (s : Server) (φ : Nat → Phase) (id : String) (i : Nat) : Prop :=
  s.About i id ∧ s.Live i ∧ (φ i).claims = true

theorem Phased.acting_iff (hs : s.Phased φ) {id : String} : s.Acting i id ↔ s.Claims φ id i := by
  constructor
  · rintro ⟨habout, hlive, hnext⟩
    obtain ⟨_, _, _, _, hp, hmove⟩ := hs.next hnext
    exact ⟨habout, hlive, hmove.claims_iff.mpr hp⟩
  · rintro ⟨⟨c, hi, hid⟩, hlive, hq⟩
    exact ⟨⟨c, hi, hid⟩, hlive, hs.next_of_claims hi hq fun _ _ _ _ hm => hm.claims_iff.mp hq⟩

end Server

/-! ### Runs -/

namespace Server

variable {s t : Server} {φ φ' : Nat → Phase} {i : Nat} {id : String}

/-- What the log says of a call agrees with its phase. -/
structure Logged (s : Server) (φ : Nat → Phase) : Prop where
  booked : ∀ i o r, (i, ⟨o, r⟩) ∈ s.log → o.recordsApplied = true → φ i = .booked
  ignored : ∀ i, s.Ignored i → φ i = .ignored

structure Sound (s : Server) (φ : Nat → Phase) : Prop where
  exclusive : ∀ id, Exclusive (s.shared.statusOf id) (fun i => s.About i id) s.Live φ
  logged : s.Logged φ

theorem Sound.init {shared : HelperEvents} :
    Sound (Calls.init shared) fun _ => .fresh := by
  have hnone : ∀ {i : Nat} {id : String}, ¬About (Calls.init shared) i id := by
    rintro i id ⟨c, hi, -⟩
    cases hi.symm.trans List.getElem?_nil
  refine ⟨fun id => ⟨?_, ?_, ?_, ?_, ?_⟩, ⟨?_, ?_⟩⟩
  · exact fun i j _ hi => (hnone hi).elim
  · exact fun i hi => (hnone hi).elim
  · exact fun j hj => (hnone hj).elim
  · exact fun i j _ hi => (hnone hi).elim
  · exact fun i hi => (hnone hi).elim
  · intro i o r h
    cases h
  · rintro i ⟨_, _, _, _, h⟩
    cases h

section Set

variable {shared : HelperEvents} {log : List (Nat × (o : Op) × Reply o)} {j : Nat}
  {c c' : Running Call Op Reply (Except Error Returned)}

/-- Replacing a call by what is left of it changes neither its event nor the others. -/
theorem about_of_set (hi : s.calls[i]? = some c) (h : About ⟨shared, s.calls.set i c', log⟩ j id)
    (hc : c'.call = c.call) : s.About j id := by
  obtain ⟨d, hd, hid⟩ := h
  rcases Calls.getElem?_set_cases hd with ⟨rfl, rfl⟩ | ⟨-, hd⟩
  · exact ⟨c, hi, hc ▸ hid⟩
  · exact ⟨d, hd, hid⟩

end Set

theorem Logged.step (h : s.Logged φ) {call : Call} {o : Op} {r : Reply o} {q : Phase}
    (hm : Moves call (φ i) o r q) (hlog : t.log = s.log ++ [(i, ⟨o, r⟩)]) :
    t.Logged (Function.update φ i q) := by
  constructor
  · intro j o' r' hmem ho
    rw [hlog, List.mem_append, List.mem_singleton] at hmem
    rcases hmem with hmem | hmem
    · have hbooked := h.booked j o' r' hmem ho
      by_cases hji : j = i
      · subst hji
        rw [Function.update_self]
        exact (hbooked ▸ hm).booked_stays
      · rw [Function.update_of_ne hji]
        exact hbooked
    · cases hmem
      rw [Function.update_self]
      exact (hm.recordsApplied ho).2
  · rintro j ⟨id, reason, resolution, at_, hmem⟩
    rw [hlog, List.mem_append, List.mem_singleton] at hmem
    rcases hmem with hmem | hmem
    · have hignored := h.ignored j ⟨id, reason, resolution, at_, hmem⟩
      by_cases hji : j = i
      · subst hji
        rw [Function.update_self]
        exact (hignored ▸ hm).ignored_stays
      · rw [Function.update_of_ne hji]
        exact hignored
    · cases hmem
      rw [Function.update_self]
      exact hm.ignored_of_ok

theorem Sound.step (hs : s.Phased φ) (ht : t.Phased φ') (h : s.Sound φ) {l : CallLabel Call Choice}
    (hclean : s.Clean l) (hrun : Server.step s l = some t)
    (hstep : Calls.PhasedStep Call.body answer protocol s φ l t φ') : t.Sound φ' := by
  cases hstep with
  | start c =>
      refine ⟨fun id => (h.exclusive id).mono ?_ ?_ ?_, ⟨h.logged.booked, h.logged.ignored⟩⟩
      · rintro j ⟨d, hd, hid⟩ hfresh
        rcases Calls.getElem?_append_cases hd with ⟨rfl, rfl⟩ | hd
        · exact absurd (hs.fresh _ (Nat.le_refl _)) hfresh
        · exact ⟨d, hd, hid⟩
      · rintro j - hfresh ⟨d, hd, hlive⟩
        rcases Calls.getElem?_append_cases hd with ⟨rfl, rfl⟩ | hd
        · exact absurd (hs.fresh _ (Nat.le_refl _)) hfresh
        · exact ⟨d, hd, hlive⟩
      · rintro j ⟨d, hd, hid⟩ hq
        rcases Calls.getElem?_append_cases hd with ⟨rfl, rfl⟩ | hold
        · cases (hs.fresh _ (Nat.le_refl _)).symm.trans hq
        · obtain ⟨e, he, hlive⟩ := (h.exclusive id).atWork j ⟨d, hold, hid⟩ hq
          refine ⟨e, ?_, hlive⟩
          rw [List.getElem?_append_left (Calls.getElem?_lt he)]
          exact he
  | @step i choice c o next r shared q hi ha hr hm =>
      refine ⟨fun id => ?_, h.logged.step hm rfl⟩
      have hexclusive : Exclusive (shared.statusOf id) (fun j => s.About j id) s.Live
          (Function.update φ i q) := by
        by_cases hid : c.eventId? = some id
        · refine (h.exclusive id).turn ⟨_, hi, hid⟩ ⟨_, hi, rfl⟩ (hm.turn ha hid) ?_ ?_
          · intro hq
            exact hclean.1 ⟨_, o, hi, rfl, (hq ▸ hm).of_applying_nil⟩
          · intro hfree hq j hji hj hlj hcj
            have hnot : ¬s.Acting i id := by
              intro hact
              cases hfree.symm.trans (hs.acting_iff.mp hact).2.2
            have htakes : Acting _ i id := ht.acting_iff.mpr
              ⟨⟨_, List.getElem?_set_self (Calls.getElem?_lt hi), hid⟩,
                ⟨_, List.getElem?_set_self (Calls.getElem?_lt hi), rfl⟩,
                by rw [Function.update_self]; exact hq⟩
            obtain ⟨hti, hsj⟩ := hclean.2 _ id j hrun hji hnot htakes (hs.acting_iff.mpr ⟨hj, hlj, hcj⟩)
            obtain ⟨_, _, _, _, hp, hmove⟩ := ht.next hti
            obtain ⟨_, _, _, _, hp', hmove'⟩ := hs.next hsj
            exact ⟨Function.update_self i q φ ▸ hmove.recordsIgnored hp, hmove'.recordsIgnored hp'⟩
        · rw [hm.elsewhere ha hid]
          refine (h.exclusive id).congr ?_
          rintro j ⟨d, hd, hdid⟩
          refine Function.update_of_ne ?_ ..
          rintro rfl
          cases hi.symm.trans hd
          exact hid hdid
      refine hexclusive.mono ?_ ?_ ?_
      · exact fun j hj _ => about_of_set hi hj rfl
      · exact fun j _ _ hl => Calls.live_set hi (fun _ => rfl) hl
      · intro j hj hq
        by_cases hji : j = i
        · subst hji
          exact ⟨_, List.getElem?_set_self (Calls.getElem?_lt hi), rfl⟩
        · exact Calls.live_set_ne hji (hexclusive.atWork j (about_of_set hi hj rfl) hq)
  | @drop i c rest hi =>
      refine ⟨fun id => (h.exclusive id).mono ?_ ?_ ?_, ⟨h.logged.booked, h.logged.ignored⟩⟩
      · exact fun j hj _ => about_of_set hi hj rfl
      · exact fun j _ _ hl => Calls.live_set hi (fun _ => rfl) hl
      · intro j hj hq
        by_cases hji : j = i
        · subst hji
          refine absurd (hs.next_of_claims hi (by rw [hq]; rfl) ?_) hclean
          exact fun _ _ _ _ hm => (hq ▸ hm).of_applying_nil
        · exact Calls.live_set_ne hji ((h.exclusive id).atWork j (about_of_set hi hj rfl) hq)

abbrev Run (shared : HelperEvents) (ls : List (CallLabel Call Choice)) (s : Server) : Prop :=
  Trace Server.step (Calls.init shared) ls s

theorem run_sound {shared : HelperEvents} {ls : List (CallLabel Call Choice)} (run : Run shared ls s)
    (clean : Along Server.step Clean (Calls.init shared) ls) : ∃ φ, s.Phased φ ∧ s.Sound φ := by
  refine Calls.phased_invariant body_keeps ?_ ?_ run clean Calls.Phased.init Sound.init
  · exact fun _ _ _ _ _ _ => answer_replies
  · exact fun _ _ _ _ _ hs ht hsound hclean hrun hstep => hsound.step hs ht hclean hrun hstep

theorem Sound.finished (hs : s.Phased φ) (h : s.Sound φ) (hf : s.Finished i) :
    φ i = .applying [] ∨ φ i = .booked := by
  rcases hf with hnext | ⟨o, r, hmem, ho⟩
  · obtain ⟨_, _, _, _, hp, hmove⟩ := hs.next hnext
    exact .inl (hmove.recordsApplied hp).1
  · exact .inr (h.logged.booked i o r hmem ho)

/-- In every clean run an event is applied at most once. -/
theorem applied_at_most_once {shared : HelperEvents} {ls : List (CallLabel Call Choice)}
    (run : Run shared ls s) (clean : Along Server.step Clean (Calls.init shared) ls) :
    s.AppliedAtMostOnce := by
  obtain ⟨φ, hs, hsound⟩ := run_sound run clean
  intro id i j hij hi hj
  have hex := hsound.exclusive id
  have hover : ∀ {i j}, s.About i id → s.About j id → s.Live i → (φ i).claims = true → φ i ≠ .ignoring →
      φ j ≠ .booked ∧ φ j ≠ .ignored := by
    intro i j hi hj hl hc hne
    exact ⟨fun hb => hne ((hex.ended j hj (.inl hb)).2.2 i hi hl hc),
      fun hb => hne ((hex.ended j hj (.inr hb)).2.2 i hi hl hc)⟩
  constructor
  · rintro ⟨hfi, hfj⟩
    rcases hsound.finished hs hfi with hqi | hqi <;> rcases hsound.finished hs hfj with hqj | hqj
    · have halone := hex.alone i j hij hi hj (hex.atWork i hi hqi) (hex.atWork j hj hqj)
        (by rw [hqi]; rfl) (by rw [hqj]; rfl)
      cases hqi.symm.trans halone
    · exact (hover hi hj (hex.atWork i hi hqi) (by rw [hqi]; rfl) (by rw [hqi]; nofun)).1 hqj
    · exact (hover hj hi (hex.atWork j hj hqj) (by rw [hqj]; rfl) (by rw [hqj]; nofun)).1 hqi
    · exact hex.once i j hij hi hj hqi hqj
  · rintro hend ⟨hl, hnext⟩
    obtain ⟨_, _, _, _, hp, hmove⟩ := hs.next hnext
    obtain ⟨item, rest, hqi⟩ := hmove.of_applies hp
    have hc : (φ i).claims = true := by rw [hqi]; rfl
    have hne : φ i ≠ .ignoring := by rw [hqi]; nofun
    rcases hend with hfj | hgj
    · rcases hsound.finished hs hfj with hqj | hqj
      · exact hne (hex.alone i j hij hi hj hl (hex.atWork j hj hqj) hc (by rw [hqj]; rfl))
      · exact (hover hi hj hl hc hne).1 hqj
    · exact (hover hi hj hl hc hne).2 (hsound.logged.ignored j hgj)

/-- Whether every other call owes its event nothing. -/
def othersDone (s : Server) (i : Nat) : Bool :=
  (List.range s.calls.length).all fun j => j == i || !decide (s.Next j Op.acts)

/-- An executable condition under which a step is clean. -/
def stepsAlone (s : Server) : CallLabel Call Choice → Bool
  | .start _ => true
  | .step i .works => s.othersDone i
  | .step i _ => !decide (s.Next i Op.recordsApplied) && s.othersDone i
  | .drop i => !decide (s.Next i Op.recordsApplied)

theorem not_acting_of_othersDone (h : s.othersDone i = true) {j : Nat} (hji : j ≠ i) (id : String) :
    ¬s.Acting j id := by
  rintro ⟨⟨c, hj, -⟩, -, hnext⟩
  have hmem := List.all_eq_true.mp h j (List.mem_range.mpr (Calls.getElem?_lt hj))
  rw [beq_false_of_ne hji, Bool.false_or, Bool.not_eq_true', decide_eq_false_iff_not] at hmem
  exact hmem hnext

theorem clean_of_stepsAlone {l : CallLabel Call Choice} (h : s.stepsAlone l = true) : s.Clean l := by
  cases l with
  | start c => trivial
  | drop i =>
      rw [stepsAlone, Bool.not_eq_true', decide_eq_false_iff_not] at h
      exact h
  | step i choice =>
      have hdone : s.othersDone i = true ∧ (s.Next i Op.recordsApplied → choice = .works) := by
        cases choice with
        | works => exact ⟨h, fun _ => rfl⟩
        | fails | items =>
            simp only [stepsAlone, Bool.and_eq_true, Bool.not_eq_true', decide_eq_false_iff_not] at h
            exact ⟨h.2, fun hnext => absurd hnext h.1⟩
      refine ⟨hdone.2, ?_⟩
      intro t id j _ hji _ _ hacting
      exact absurd hacting (not_acting_of_othersDone hdone.1 hji id)

/-! ### A race -/

def raceId : String := "00000000000000000000000000000000000000000000000000000000000000aa"

def raceItem : ResolvedItem :=
  ⟨"Arcane Nullifier", "arcane_nullifier", "id_nullifier", "Arcane Nullifier", none, 1, 70, "name"⟩

def raceEnv : TradeEnv where
  autoTrade := true
  tradableItems := [⟨"Arcane Nullifier", "id_nullifier", "arcane_nullifier"⟩]
  resolveTrade := fun _ => .ok ⟨⟨some .sale, 70, [raceItem], []⟩, []⟩
  setCandidates := fun _ => []
  parseFromRfc3339 := fun _ => .ok 0

def raceTrade : RawTrade :=
  ⟨"PlayerB", "1170.388", [⟨"Arcane Nullifier", 1, none⟩], [⟨"Platinum", 70, none⟩]⟩

def raceIncoming : Call := .handleIncoming raceEnv "gaming-pc" ⟨raceId, "2026-09-15T10:00:00Z", raceTrade⟩ 0

def raceReview : Call := .applyReviewed raceEnv raceId [⟨"arcane_nullifier", none, 1, 70⟩] 0

/-- The event is applied and recorded before the review starts, which is then refused. -/
theorem applied_at_most_once_in_turn :
    (replay Server.step (Calls.init .empty)
      [.start raceIncoming, .step 0 .works, .step 0 (.items [raceItem]), .step 0 .works,
        .step 0 .works, .step 0 .works, .step 0 .works, .start raceReview, .step 1 .works] :
      Server).AppliedAtMostOnce :=
  applied_at_most_once (trace_replay (by decide +kernel))
    (along_of_all (fun _ _ => clean_of_stepsAlone) (by decide +kernel))

/-- The review passes its guard after the insertion and before the first item is applied. -/
def raceLabels : List (CallLabel Call Choice) :=
  [.start raceIncoming, .step 0 .works, .step 0 (.items [raceItem]), .step 0 .works,
    .start raceReview, .step 1 .works, .step 0 .works, .step 1 .works]

/-- A review beside the automatic application books the event a second time. -/
theorem applied_twice :
    Run .empty raceLabels (replay Server.step (Calls.init .empty) raceLabels) ∧
      ¬(replay Server.step (Calls.init .empty) raceLabels).AppliedAtMostOnce := by
  refine ⟨trace_replay (by decide +kernel), ?_⟩
  intro h
  have hnot := (h raceId 0 1 (by decide) (by decide +kernel) (by decide +kernel)).1
  exact hnot ⟨.inl (by decide +kernel), .inl (by decide +kernel)⟩

end Server

end Quantframe.Trades
