import Quantframe.Trader.Controller

/-!
# At most one trading engine

An engine that has not finished is either the one `running` names or the one a call that has taken
the handle waits for. A call dropped during that wait loses the engine; nothing else does.
-/

namespace Quantframe.Trader.Controller

open Lib
open Trades (DateTime Error)

section Engines

variable (engines : List Engine)

/-- Engine `i` has been spawned and has not finished. -/
def Unfinished (i : Nat) : Prop := ∃ e, engines[i]? = some e ∧ e.exit = none

def Finished (i : Nat) (dryRun : Bool) : Prop :=
  ∃ e, engines[i]? = some e ∧ e.exit.isSome = true ∧ e.dryRun = dryRun

/-- Handle `r` names the only engine that may not have finished. -/
structure Sole (r : Running) : Prop where
  spawned : ∃ e, engines[r.engine]? = some e ∧ e.dryRun = r.dryRun
  only : ∀ i, Unfinished engines i → i = r.engine

/-- A deletion of the live buy orders: its engine has finished, was no dry-run, and the market was
not blocked when the wait for it was over. -/
def Justified (d : Deletion) : Prop :=
  Finished engines d.engine false ∧ d.block = none ∧ d.reason.isMarketBlocked = false

end Engines

/-- A call that waits for an engine is dropped only once that engine has finished. -/
def Kept (s : Controller) : Label → Prop
  | .cancel => ∀ caller running reason now,
      s.awaiting = some (.join caller running reason now) → s.engineFinished running.engine = true
  | _ => True

def joining (s : Controller) : Bool :=
  match s.awaiting with
  | some (.join ..) => true
  | _ => false

/-- What a call that waits has made sure of. -/
def AwaitSound (inner : Inner) (engines : List Engine) : Await → Prop
  | .join _ r _ _ => inner.running = none ∧ inner.state = .stopping ∧ Sole engines r
  | .invisible _ r _ _ _ => inner.running = none ∧ Finished engines r.engine r.dryRun
  | .saveFlags next => inner.running.isSome = true → next.dryRun = inner.options.dryRun
  | _ => inner.running = none

structure Sound (s : Controller) : Prop where
  trading : ∀ r, s.inner.running = some r → s.inner.state = .trading ∧ Sole s.engines r
  idle : s.inner.running = none → s.joining = false → ∀ i, ¬ Unfinished s.engines i
  waits : ∀ a, s.awaiting = some a → AwaitSound s.inner s.engines a
  deletions : ∀ d ∈ s.deletions, Justified s.engines d

variable {s t : Controller} {p : Platform} {now : DateTime} {engines : List Engine} {i j : Nat}

theorem Sound.init (options : TraderOptions) : (new options).Sound where
  trading r hr := by cases hr
  idle _ _ i := by
    rintro ⟨e, he, _⟩
    cases he
  waits a ha := by cases ha
  deletions d hd := absurd hd List.not_mem_nil

/-! ### Engines -/

theorem unfinished_spawn {e : Engine} (h : Unfinished (engines ++ [e]) i) :
    Unfinished engines i ∨ i = engines.length := by
  obtain ⟨e', he', hexit⟩ := h
  rw [List.getElem?_append] at he'
  split at he'
  · exact .inl ⟨e', he', hexit⟩
  · next hi =>
      rcases Nat.eq_or_lt_of_le (Nat.le_of_not_lt hi) with heq | hlt
      · exact .inr heq.symm
      · rw [List.getElem?_eq_none (Nat.sub_pos_of_lt hlt)] at he'
        cases he'

theorem Finished.spawn {e : Engine} {dryRun : Bool} (h : Finished engines i dryRun) :
    Finished (engines ++ [e]) i dryRun := by
  obtain ⟨e', he', hexit⟩ := h
  exact ⟨e', (List.getElem?_append_left (List.getElem?_eq_some_iff.mp he').1).trans he', hexit⟩

/-- A change of one engine that keeps its mode and never takes its exit back. -/
structure Later (f : Engine → Engine) : Prop where
  dryRun : ∀ e, (f e).dryRun = e.dryRun
  exit : ∀ e, (f e).exit = none → e.exit = none

variable {f : Engine → Engine}

theorem unfinished_modify (hf : Later f) (h : Unfinished (engines.modify j f) i) :
    Unfinished engines i := by
  obtain ⟨e, he, hexit⟩ := h
  rw [List.getElem?_modify] at he
  obtain ⟨e', he', rfl⟩ := Option.map_eq_some_iff.mp he
  refine ⟨e', he', ?_⟩
  split at hexit
  · exact hf.exit e' hexit
  · exact hexit

theorem getElem?_modified (hf : Later f) {e : Engine} (h : engines[i]? = some e) :
    ∃ e', (engines.modify j f)[i]? = some e' ∧ e'.dryRun = e.dryRun ∧
      (e.exit.isSome = true → e'.exit.isSome = true) := by
  rw [List.getElem?_modify, h]
  refine ⟨_, rfl, ?_⟩
  split
  · refine ⟨hf.dryRun e, fun hsome => ?_⟩
    rw [Option.isSome_iff_ne_none] at hsome ⊢
    exact fun hnone => hsome (hf.exit e hnone)
  · exact ⟨rfl, id⟩

theorem Finished.modify (hf : Later f) {dryRun : Bool} (h : Finished engines i dryRun) :
    Finished (engines.modify j f) i dryRun := by
  obtain ⟨e, he, hexit, hmode⟩ := h
  obtain ⟨e', he', hmode', hexit'⟩ := getElem?_modified (j := j) hf he
  exact ⟨e', he', hexit' hexit, hmode'.trans hmode⟩

theorem Sole.modify (hf : Later f) {r : Running} (h : Sole engines r) : Sole (engines.modify j f) r where
  spawned := by
    obtain ⟨e, he, hmode⟩ := h.spawned
    obtain ⟨e', he', hmode', _⟩ := getElem?_modified (j := j) hf he
    exact ⟨e', he', hmode'.trans hmode⟩
  only i hi := h.only i (unfinished_modify hf hi)

theorem Justified.modify (hf : Later f) {d : Deletion} (h : Justified engines d) :
    Justified (engines.modify j f) d := ⟨h.1.modify hf, h.2⟩

/-- Whatever happens to an engine alone keeps the controller sound. -/
theorem Sound.modify (hf : Later f) (h : s.Sound) :
    Sound { s with engines := s.engines.modify j f } where
  trading r hr := ⟨(h.trading r hr).1, (h.trading r hr).2.modify hf⟩
  idle hr hjoin i hi := h.idle hr hjoin i (unfinished_modify hf hi)
  waits a ha := by
    have hsound := h.waits a ha
    cases a with
    | join caller r reason now => exact ⟨hsound.1, hsound.2.1, hsound.2.2.modify hf⟩
    | invisible caller r reason block now => exact ⟨hsound.1, hsound.2.modify hf⟩
    | ingame | deleteLiveBuyOrders | recordStop | saveFlags => exact hsound
  deletions d hd := (h.deletions d hd).modify hf

theorem later_halt : Later fun e => { e with flag := false } := ⟨fun _ => rfl, fun _ h => h⟩

theorem later_exit (exit : Except String EngineExit) : Later fun e => { e with exit := some exit } :=
  ⟨fun _ => rfl, fun _ h => by cases h⟩

/-! ### The calls -/

theorem joining_of_idle (h : s.awaiting = none) : s.joining = false := by rw [joining, h]

theorem Sound.reply (h : s.Sound) (hjoin : s.joining = false) (r : Reply) : (s.reply r).Sound where
  trading := h.trading
  idle hr _ := h.idle hr hjoin
  waits a ha := by cases ha
  deletions := h.deletions

theorem Sound.broadcast (h : s.Sound) : (s.broadcast p).Sound :=
  ⟨h.trading, h.idle, h.waits, h.deletions⟩

/-- Waiting for anything but an engine. -/
theorem Sound.await (h : s.Sound) (hjoin : s.joining = false) {a : Await} (ha : AwaitSound s.inner s.engines a) :
    Sound { s with awaiting := some a } where
  trading := h.trading
  idle hr _ := h.idle hr hjoin
  waits a' ha' := by
    cases ha'
    exact ha
  deletions := h.deletions

/-- Without a handle the state may change freely. -/
theorem Sound.idleInner (h : s.Sound) {inner : Inner} (hr : s.inner.running = none)
    (hr' : inner.running = none) (hwait : s.awaiting = none) : Sound { s with inner } where
  trading r hsome := by
    rw [hr'] at hsome
    cases hsome
  idle _ hjoin := h.idle hr hjoin
  waits a ha := by
    rw [hwait] at ha
    cases ha
  deletions := h.deletions

theorem Sound.spawnEngine (h : s.Sound) (hjoin : s.joining = false) (hr : s.inner.running = none) :
    (s.spawnEngine p now).Sound where
  trading r hsome := by
    cases hsome
    refine ⟨rfl, ⟨_, List.getElem?_concat_length, rfl⟩, fun i hi => ?_⟩
    rcases unfinished_spawn hi with hold | rfl
    · exact absurd hold (h.idle hr hjoin i)
    · rfl
  idle hnone := by cases hnone
  waits a ha := by cases ha
  deletions d hd := ⟨(h.deletions d hd).1.spawn, (h.deletions d hd).2⟩

theorem Sound.finish (h : s.Sound) (hwait : s.awaiting = none) (caller : Caller)
    (reason : Option StopReason) : (s.finish p caller reason now).Sound := by
  rw [Controller.finish]
  cases hr : s.inner.running with
  | none =>
      cases caller with
      | stop | tick => exact h.reply (joining_of_idle hwait) _
  | some r =>
      have hsole := (h.trading r hr).2.modify (j := r.engine) later_halt
      exact {
        trading := fun r' hr' => by cases hr'
        idle := fun _ hjoin => by cases hjoin
        waits := fun a ha => by
          cases ha
          exact ⟨rfl, rfl, hsole⟩
        deletions := fun d hd => (h.deletions d hd).modify later_halt }

theorem Sound.start (h : s.Sound) (hwait : s.awaiting = none) : (s.start p now).Sound := by
  have hjoin := joining_of_idle hwait
  rw [Controller.start]
  split
  · exact h.reply hjoin _
  · next hr =>
      rw [Bool.not_eq_true, Option.isSome_eq_false_iff, Option.isNone_iff_eq_none] at hr
      split
      · exact h.reply hjoin _
      · split
        · exact h.await hjoin hr
        · exact h.spawnEngine hjoin hr

theorem Sound.tick (h : s.Sound) (hwait : s.awaiting = none) : (s.tick p now).Sound := by
  have hjoin := joining_of_idle hwait
  rw [Controller.tick]
  cases hr : s.inner.running with
  | none =>
      dsimp only
      split
      · have hidle : Sound { s with
            inner := { s.inner with state := p.idleState s.inner.options.dryRun } } :=
          h.idleInner hr hr hwait
        exact hidle.broadcast.reply hjoin _
      · exact h.reply hjoin _
  | some r =>
      dsimp only
      split
      · exact h.finish hwait _ _
      · split
        · exact h.finish hwait _ _
        · exact h.reply hjoin _

theorem Sound.setOptions (h : s.Sound) (hwait : s.awaiting = none) (dryRun delete : Option Bool) :
    (s.setOptions dryRun delete).Sound := by
  rw [Controller.setOptions]
  split
  · exact h.reply (joining_of_idle hwait) _
  · next hrefused =>
      refine h.await (joining_of_idle hwait) fun hr => ?_
      rw [hr, Bool.true_and, Bool.not_eq_true] at hrefused
      cases dryRun with
      | none => rfl
      | some value => simpa using hrefused

/-! ### What follows a wait -/

theorem joining_of_wait {a : Await} (hwait : s.awaiting = some a)
    (ha : ∀ caller r reason now, a ≠ .join caller r reason now) : s.joining = false := by
  rw [joining, hwait]
  cases a with
  | join caller r reason now => exact absurd rfl (ha caller r reason now)
  | ingame | invisible | deleteLiveBuyOrders | recordStop | saveFlags => rfl

theorem Sole.finished {r : Running} {e : Engine} {exit : Except String EngineExit}
    (h : Sole engines r) (he : engines[r.engine]? = some e) (hexit : e.exit = some exit) :
    Finished engines r.engine r.dryRun ∧ ∀ i, ¬ Unfinished engines i := by
  obtain ⟨e', hsame, hmode⟩ := h.spawned
  rw [he] at hsame
  cases hsame
  refine ⟨⟨_, he, by rw [hexit]; rfl, hmode⟩, fun i hi => ?_⟩
  obtain rfl := h.only i hi
  obtain ⟨e'', he'', hnone⟩ := hi
  rw [he] at he''
  cases he''
  rw [hexit] at hnone
  cases hnone

theorem Sound.joined (h : s.Sound) {caller : Caller} {r : Running} {reason : Option StopReason}
    {at_ : DateTime} {e : Engine} {exit : Except String EngineExit}
    (hwait : s.awaiting = some (.join caller r reason at_)) (he : s.engines[r.engine]? = some e)
    (hexit : e.exit = some exit) : (s.joined p caller r reason at_ exit).Sound := by
  obtain ⟨hr, _, hsole⟩ := h.waits _ hwait
  obtain ⟨hfinished, hnone⟩ := hsole.finished he hexit
  exact {
    trading := h.trading
    idle := fun _ _ => hnone
    waits := fun a ha => by
      cases ha
      exact ⟨hr, hfinished⟩
    deletions := h.deletions }

theorem Sound.madeInvisible (h : s.Sound) {caller : Caller} {r : Running} {reason : StopReason}
    {block : Option String} {at_ : DateTime}
    (hwait : s.awaiting = some (.invisible caller r reason block at_)) :
    (s.madeInvisible caller r reason block at_).Sound := by
  obtain ⟨hr, hfinished⟩ := h.waits _ hwait
  have hjoin : s.joining = false := joining_of_wait hwait fun _ _ _ _ => by simp
  rw [Controller.madeInvisible]
  split
  · next hdelete =>
      simp only [Bool.and_eq_true, Bool.not_eq_true', Bool.or_eq_false_iff] at hdelete
      obtain ⟨⟨_, hlive⟩, hblock, hreason⟩ := hdelete
      rw [hlive] at hfinished
      rw [Option.isSome_eq_false_iff, Option.isNone_iff_eq_none] at hblock
      have hwaits : Sound { s with awaiting := some (.deleteLiveBuyOrders caller r reason at_) } :=
        h.await hjoin hr
      refine { hwaits with deletions := fun d hd => ?_ }
      rcases List.mem_append.mp hd with hd | hd
      · exact h.deletions d hd
      · obtain rfl := List.mem_singleton.mp hd
        exact ⟨hfinished, hblock, hreason⟩
  · exact h.await hjoin hr

theorem Sound.resume (h : s.Sound) {outcome : Except Error Unit} {a : Await}
    (hwait : s.awaiting = some a) (hstep : s.resume outcome p a = some t) : t.Sound := by
  cases a with
  | ingame at_ =>
      have hjoin : s.joining = false := joining_of_wait hwait fun _ _ _ _ => by simp
      cases outcome with
      | ok => cases hstep; exact h.spawnEngine hjoin (h.waits _ hwait)
      | error e => cases hstep; exact h.reply hjoin _
  | join caller r reason at_ =>
      obtain ⟨exit, hexit, rfl⟩ := Option.map_eq_some_iff.mp hstep
      obtain ⟨e, he, hexit⟩ := Option.bind_eq_some_iff.mp hexit
      exact h.joined hwait he hexit
  | invisible caller r reason block at_ => cases hstep; exact h.madeInvisible hwait
  | deleteLiveBuyOrders caller r reason at_ =>
      have hjoin : s.joining = false := joining_of_wait hwait fun _ _ _ _ => by simp
      have hr : s.inner.running = none := h.waits _ hwait
      cases hstep
      exact h.await hjoin hr
  | recordStop caller r reason at_ =>
      have hjoin : s.joining = false := joining_of_wait hwait fun _ _ _ _ => by simp
      have hr : s.inner.running = none := h.waits _ hwait
      cases hstep
      cases caller with
      | stop | tick =>
          exact {
            trading := fun r' hr' => by
              rw [show s.inner.running = some r' from hr'] at hr
              cases hr
            idle := fun _ _ => h.idle hr hjoin
            waits := fun a ha => by cases ha
            deletions := h.deletions }
  | saveFlags next =>
      have hjoin : s.joining = false := joining_of_wait hwait fun _ _ _ _ => by simp
      cases outcome with
      | ok =>
          cases hstep
          exact {
            trading := fun r hr => by
              have hr : s.inner.running = some r := hr
              refine ⟨?_, (h.trading r hr).2⟩
              simp only [Controller.flagsSaved, Controller.reply, Controller.broadcast, hr,
                Option.isNone_some, Bool.false_eq_true, if_false]
              exact (h.trading r hr).1
            idle := fun hr _ => h.idle hr hjoin
            waits := fun a ha => by cases ha
            deletions := h.deletions }
      | error e => cases hstep; exact h.reply hjoin _

/-- A call that is dropped leaves no engine behind if the wait it was dropped in is not for one. -/
theorem Sound.cancel (h : s.Sound) (hkept : s.Kept .cancel) : Sound { s with awaiting := none } where
  trading := h.trading
  idle hr _ := by
    by_cases hjoin : s.joining = false
    · exact h.idle hr hjoin
    · rw [joining] at hjoin
      split at hjoin
      · next caller r reason at_ hwait =>
          obtain ⟨_, _, hsole⟩ := h.waits _ hwait
          have hfinished := hkept caller r reason at_ hwait
          rw [engineFinished, Option.any_eq_true] at hfinished
          obtain ⟨e, he, hexit⟩ := hfinished
          obtain ⟨exit, hexit⟩ := Option.isSome_iff_exists.mp hexit
          exact (hsole.finished he hexit).2
      · exact absurd rfl hjoin
  waits a ha := by cases ha
  deletions := h.deletions

theorem Sound.step {l : Label} (h : s.Sound) (hkept : s.Kept l)
    (hstep : Controller.step s l = some t) : t.Sound := by
  cases l with
  | start p now =>
      obtain ⟨hwait, hstep⟩ := Option.ite_none_right_eq_some.mp hstep
      cases hstep
      exact h.start (Option.isNone_iff_eq_none.mp hwait)
  | stop p reason now =>
      obtain ⟨hwait, hstep⟩ := Option.ite_none_right_eq_some.mp hstep
      cases hstep
      exact h.finish (Option.isNone_iff_eq_none.mp hwait) _ _
  | tick p now =>
      obtain ⟨hwait, hstep⟩ := Option.ite_none_right_eq_some.mp hstep
      cases hstep
      exact h.tick (Option.isNone_iff_eq_none.mp hwait)
  | setOptions dryRun delete =>
      obtain ⟨hwait, hstep⟩ := Option.ite_none_right_eq_some.mp hstep
      cases hstep
      exact h.setOptions (Option.isNone_iff_eq_none.mp hwait) _ _
  | resume outcome p =>
      obtain ⟨a, hwait, hstep⟩ := Option.bind_eq_some_iff.mp hstep
      exact h.resume hwait hstep
  | cancel =>
      obtain ⟨_, hstep⟩ := Option.ite_none_right_eq_some.mp hstep
      cases hstep
      exact h.cancel hkept
  | engineExits i exit =>
      simp only [Controller.step] at hstep
      split at hstep
      · cases hstep
        exact h.modify (later_exit exit)
      · cases hstep

/-! ### What no step does while an engine has not finished -/

theorem Sound.busy (h : s.Sound) (hi : Unfinished s.engines i) :
    s.inner.running.isSome = true ∨ s.joining = true := by
  cases hr : s.inner.running with
  | some r => exact .inl rfl
  | none =>
      cases hjoin : s.joining with
      | true => exact .inr rfl
      | false => exact absurd hi (h.idle hr hjoin i)

theorem engines_finish (caller : Caller) (reason : Option StopReason) :
    (s.finish p caller reason now).engines.length = s.engines.length ∧
      (s.finish p caller reason now).inner.options = s.inner.options := by
  rw [Controller.finish]
  cases s.inner.running with
  | none => cases caller <;> exact ⟨rfl, rfl⟩
  | some r => exact ⟨List.length_modify .., rfl⟩

/-- No engine is spawned and the mode stays. -/
theorem Sound.quiet {l : Label} (h : s.Sound) (hi : Unfinished s.engines i)
    (hstep : Controller.step s l = some t) :
    t.engines.length = s.engines.length ∧ t.inner.options.dryRun = s.inner.options.dryRun := by
  have hbusy := h.busy hi
  have hrunning : s.awaiting = none → s.inner.running.isSome = true := fun hwait =>
    hbusy.resolve_right (by rw [joining_of_idle hwait]; simp)
  cases l with
  | start p now =>
      obtain ⟨hwait, hstep⟩ := Option.ite_none_right_eq_some.mp hstep
      cases hstep
      rw [Controller.start, if_pos (hrunning (Option.isNone_iff_eq_none.mp hwait))]
      exact ⟨rfl, rfl⟩
  | stop p reason now =>
      obtain ⟨_, hstep⟩ := Option.ite_none_right_eq_some.mp hstep
      cases hstep
      exact ⟨(engines_finish _ _).1, by rw [Controller.stop, (engines_finish _ _).2]⟩
  | tick p now =>
      obtain ⟨_, hstep⟩ := Option.ite_none_right_eq_some.mp hstep
      cases hstep
      rw [Controller.tick]
      cases s.inner.running with
      | none =>
          dsimp only
          split <;> exact ⟨rfl, rfl⟩
      | some r =>
          dsimp only
          split
          · exact ⟨(engines_finish _ _).1, by rw [(engines_finish _ _).2]⟩
          · split
            · exact ⟨(engines_finish _ _).1, by rw [(engines_finish _ _).2]⟩
            · exact ⟨rfl, rfl⟩
  | setOptions dryRun delete =>
      obtain ⟨_, hstep⟩ := Option.ite_none_right_eq_some.mp hstep
      cases hstep
      rw [Controller.setOptions]
      split <;> exact ⟨rfl, rfl⟩
  | resume outcome p =>
      obtain ⟨a, hwait, hstep⟩ := Option.bind_eq_some_iff.mp hstep
      have hsound := h.waits a hwait
      cases a with
      | ingame at_ =>
          have hjoin : s.joining = false := joining_of_wait hwait fun _ _ _ _ => by simp
          exact absurd hi (h.idle hsound hjoin i)
      | join caller r reason at_ =>
          obtain ⟨exit, _, rfl⟩ := Option.map_eq_some_iff.mp hstep
          exact ⟨rfl, rfl⟩
      | invisible caller r reason block at_ =>
          cases hstep
          rw [Controller.madeInvisible]
          split <;> exact ⟨rfl, rfl⟩
      | deleteLiveBuyOrders caller r reason at_ => cases hstep; exact ⟨rfl, rfl⟩
      | recordStop caller r reason at_ => cases hstep; cases caller <;> exact ⟨rfl, rfl⟩
      | saveFlags next =>
          have hjoin : s.joining = false := joining_of_wait hwait fun _ _ _ _ => by simp
          cases outcome with
          | ok =>
              cases hstep
              exact ⟨rfl, hsound (hbusy.resolve_right (by rw [hjoin]; simp))⟩
          | error e => cases hstep; exact ⟨rfl, rfl⟩
  | cancel =>
      obtain ⟨_, hstep⟩ := Option.ite_none_right_eq_some.mp hstep
      cases hstep
      exact ⟨rfl, rfl⟩
  | engineExits j exit =>
      simp only [Controller.step] at hstep
      split at hstep
      · cases hstep
        exact ⟨List.length_modify .., rfl⟩
      · cases hstep

theorem Sound.sole (h : s.Sound) (hi : Unfinished s.engines i) :
    (s.inner.state = .trading ∨ s.inner.state = .stopping) ∧ ∀ j, Unfinished s.engines j → j = i := by
  rcases h.busy hi with hr | hjoin
  · obtain ⟨r, hr⟩ := Option.isSome_iff_exists.mp hr
    obtain ⟨hstate, hsole⟩ := h.trading r hr
    exact ⟨.inl hstate, fun j hj => (hsole.only j hj).trans (hsole.only i hi).symm⟩
  · rw [joining] at hjoin
    split at hjoin
    · next caller r reason at_ hwait =>
        obtain ⟨_, hstate, hsole⟩ := h.waits _ hwait
        exact ⟨.inr hstate, fun j hj => (hsole.only j hj).trans (hsole.only i hi).symm⟩
    · cases hjoin

/-- In every run in which no call is dropped while it waits for an unfinished engine: at most one
engine is unfinished; as long as one is, the state is trading or stopping, no step spawns another
and none changes the mode; and live buy orders are deleted only for an engine that has ended. -/
theorem one_engine {options : TraderOptions} {ls : List Label} (run : Run options ls s)
    (kept : Along step Kept (new options) ls) :
    (∀ i, Unfinished s.engines i →
      (∀ j, Unfinished s.engines j → j = i) ∧
      (s.inner.state = .trading ∨ s.inner.state = .stopping) ∧
      ∀ l t, step s l = some t →
        t.engines.length = s.engines.length ∧ t.inner.options.dryRun = s.inner.options.dryRun) ∧
    ∀ d ∈ s.deletions, Justified s.engines d := by
  have hsound : s.Sound :=
    run.invariant_along (fun _ _ _ hs hk hstep => hs.step hk hstep) kept (Sound.init options)
  refine ⟨fun i hi => ?_, hsound.deletions⟩
  obtain ⟨hstate, honly⟩ := hsound.sole hi
  exact ⟨honly, hstate, fun l t hstep => hsound.quiet hi hstep⟩

/-- Dropped in any wait but the one for an engine. -/
def dropsNoJoin (s : Controller) : Label → Bool
  | .cancel => !s.joining
  | _ => true

theorem kept_of_dropsNoJoin {l : Label} (h : s.dropsNoJoin l = true) : s.Kept l := by
  cases l with
  | cancel =>
      intro caller r reason at_ hwait
      rw [dropsNoJoin, joining, hwait] at h
      cases h
  | start | stop | tick | setOptions | resume | engineExits => trivial

/-! ### Two runs -/

def healthy : Platform where
  session := ⟨true, true, false, true, none⟩
  helper := ⟨true, true, some 3⟩
  gameDataLoaded := true
  autoDelete := false
  marketBlock := none

/-- A live start is dropped before its engine exists, the next one trades until it is stopped. -/
def liveRun : List Label :=
  [.start healthy 0, .cancel, .start healthy 1, .resume (.ok ()) healthy, .stop healthy .userStop 2,
    .engineExits 0 (.ok .stopped), .resume (.ok ()) healthy, .resume (.ok ()) healthy,
    .resume (.ok ()) healthy, .resume (.ok ()) healthy, .tick healthy 3]

theorem one_engine_live_run :
    Justified (replay step (new ⟨false, true, none, none⟩) liveRun).engines ⟨0, .userStop, none⟩ := by
  have run := @trace_replay _ _ step (new ⟨false, true, none, none⟩) liveRun (by decide +kernel)
  have kept := @along_of_all _ _ step Kept dropsNoJoin (fun _ _ => kept_of_dropsNoJoin)
    (new ⟨false, true, none, none⟩) liveRun (by decide +kernel)
  exact (one_engine run kept).2 _ (by decide +kernel)

/-- A stop whose caller goes away while the engine winds down, a tick and a start. -/
def lostRun : List Label :=
  [.start healthy 0, .stop healthy .userStop 1, .cancel, .tick healthy 2, .start healthy 3]

theorem two_engines :
    ¬ ∀ options ls s, Run options ls s → ∀ i j, Unfinished s.engines i → Unfinished s.engines j → i = j := by
  intro h
  have run := @trace_replay _ _ step (new ⟨true, true, none, none⟩) lostRun (by decide +kernel)
  have hsame := h _ _ _ run 0 1 ⟨⟨true, false, none⟩, rfl, rfl⟩ ⟨⟨true, true, none⟩, rfl, rfl⟩
  exact absurd hsame (by decide)

end Quantframe.Trader.Controller
