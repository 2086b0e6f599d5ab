import Quantframe.Trades.Phases

/-!
# The book of one event

The status of the event's row together with the phases of the calls about it: what a step of the
pipeline does to them, and the invariant that lets only one call act at a time.
-/

namespace Quantframe.Trades
open Quantframe.Lib

inductive Turn (choice : Choice) : Option Status → Phase → Option Status → Phase → Prop
  | idle {st : Option Status} {q : Phase} (hq : q.claims = false) : Turn choice st q st q
  | inserted {q : Phase} (hq : q = .closed ∨ ∃ rest, q = .applying rest) :
      Turn choice none .fresh (some .needsReview) q
  | refused {st} : Turn choice st .fresh st .closed
  | reviewing {q : Phase} (hq : q = .ignoring ∨ ∃ rest, q = .applying rest) :
      Turn choice (some .needsReview) .fresh (some .needsReview) q
  | applied {st item rest} : Turn choice st (.applying (item :: rest)) st (.applying rest)
  | failed {st item rest} : Turn choice st (.applying (item :: rest)) st .failed
  | booked {st} : Turn choice st (.applying []) (st.map fun _ => .applied) .booked
  | lost {st} (hc : choice ≠ .works) : Turn choice st (.applying []) st .booked
  | parked {st} : Turn choice st .failed (st.map fun _ => .needsReview) .closed
  | notParked {st} : Turn choice st .failed st .closed
  | ignored {st} : Turn choice st .ignoring (st.map fun _ => .ignored) .ignored
  | notIgnored {st} : Turn choice st .ignoring st .closed

variable {call : Call} {q q' : Phase} {o : Op} {r : Reply o} {t t' : HelperEvents} {choice : Choice}
  {id : String}

theorem Op.writesStatus_eq_false (h : o.quiet = true) : o.writesStatus = false := by
  cases o with
  | insert | setStatus => cases h
  | _ => rfl

/-- A call about another event leaves this one alone. -/
theorem Moves.elsewhere (h : Moves call q o r q') (ha : answer o choice t = some (r, t'))
    (hid : call.eventId? ≠ some id) : t'.statusOf id = t.statusOf id := by
  have hne : ∀ {id' : String}, call.eventId? = some id' → id ≠ id' := by
    rintro id' hid' rfl
    exact hid hid'
  cases h with
  | quiet _ hquiet => exact answer_statusOf ha (Op.writesStatus_eq_false hquiet) id
  | notInserted =>
      rcases answer_insert ha with ⟨_, -, rfl⟩ | ⟨hr, -⟩
      · rfl
      · cases hr
  | inserted hid' =>
      rcases answer_insert ha with ⟨_, hr, -⟩ | ⟨-, -, hstatus⟩
      · cases hr
      · rw [hstatus, if_neg (hne hid')]
  | refused | reviewing | applied | failed => exact answer_statusOf ha rfl id
  | booked hid' | parked hid' | ignored hid' | notIgnored hid' =>
      rcases answer_setStatus ha with ⟨-, rfl, -⟩ | ⟨-, hstatus⟩
      · rfl
      · rw [hstatus, if_neg (hne hid')]

theorem Moves.turn (h : Moves call q o r q') (ha : answer o choice t = some (r, t'))
    (hid : call.eventId? = some id) : Turn choice (t.statusOf id) q (t'.statusOf id) q' := by
  cases h with
  | quiet hq hquiet =>
      rw [answer_statusOf ha (Op.writesStatus_eq_false hquiet) id]
      exact .idle hq
  | notInserted =>
      rcases answer_insert ha with ⟨_, -, rfl⟩ | ⟨hr, -⟩
      · exact .idle rfl
      · cases hr
  | inserted hid' hs hq =>
      cases hid.symm.trans hid'
      rcases answer_insert ha with ⟨_, hr, -⟩ | ⟨-, hnone, hstatus⟩
      · cases hr
      · rw [hnone, hstatus, if_pos rfl, hs]
        exact .inserted hq
  | refused =>
      rw [answer_statusOf ha rfl id]
      exact .refused
  | reviewing hid' hs hq =>
      cases hid.symm.trans hid'
      have hfound : t.statusOf id = some .needsReview := by
        rw [HelperEvents.statusOf, answer_get ha, Option.map_some, hs]
      rw [answer_statusOf ha rfl id, hfound]
      exact .reviewing hq
  | applied =>
      rw [answer_statusOf ha rfl id]
      exact .applied
  | failed =>
      rw [answer_statusOf ha rfl id]
      exact .failed
  | booked hid' =>
      cases hid.symm.trans hid'
      rcases answer_setStatus ha with ⟨-, rfl, hc⟩ | ⟨-, hstatus⟩
      · exact .lost hc
      · rw [hstatus, if_pos rfl]
        exact .booked
  | parked hid' =>
      cases hid.symm.trans hid'
      rcases answer_setStatus ha with ⟨-, rfl, -⟩ | ⟨-, hstatus⟩
      · exact .notParked
      · rw [hstatus, if_pos rfl]
        exact .parked
  | ignored hid' =>
      cases hid.symm.trans hid'
      rcases answer_setStatus ha with ⟨⟨_, hr⟩, -⟩ | ⟨-, hstatus⟩
      · cases hr
      · rw [hstatus, if_pos rfl]
        exact .ignored
  | notIgnored hid' =>
      rcases answer_setStatus ha with ⟨-, rfl, -⟩ | ⟨hr, -⟩
      · exact .notIgnored
      · cases hr

/-- `about` are the calls about the event, `live` those that have not been dropped. -/
structure Exclusive (st : Option Status) (about live : Nat → Prop) (φ : Nat → Phase) : Prop where
  /-- Only ignores act beside another call. -/
  alone : ∀ i j, i ≠ j → about i → about j → live i → live j →
    (φ i).claims = true → (φ j).claims = true → φ i = .ignoring
  present : ∀ i, about i → live i → (φ i).claims = true → st ≠ none
  /-- After an end of the event only ignores are left. -/
  ended : ∀ j, about j → φ j = .booked ∨ φ j = .ignored →
    st ≠ some .needsReview ∧ st ≠ none ∧
      ∀ i, about i → live i → (φ i).claims = true → φ i = .ignoring
  once : ∀ i j, i ≠ j → about i → about j → φ i = .booked → φ j ≠ .booked
  atWork : ∀ i, about i → φ i = .applying [] → live i

variable {st st' : Option Status} {about live about' live' : Nat → Prop} {φ : Nat → Phase} {i : Nat}

/-- Calls that start are fresh, and dropped ones had not finished. -/
theorem Exclusive.mono (h : Exclusive st about live φ)
    (habout : ∀ j, about' j → φ j ≠ .fresh → about j)
    (hlive : ∀ j, about' j → φ j ≠ .fresh → live' j → live j)
    (hwork : ∀ j, about' j → φ j = .applying [] → live' j) : Exclusive st about' live' φ := by
  have hclaims : ∀ {j}, (φ j).claims = true → φ j ≠ .fresh := by
    intro j hj hfresh
    rw [hfresh] at hj
    cases hj
  refine ⟨?_, ?_, ?_, ?_, hwork⟩
  · intro i j hij hi hj hli hlj hci hcj
    exact h.alone i j hij (habout i hi (hclaims hci)) (habout j hj (hclaims hcj))
      (hlive i hi (hclaims hci) hli) (hlive j hj (hclaims hcj) hlj) hci hcj
  · intro i hi hli hci
    exact h.present i (habout i hi (hclaims hci)) (hlive i hi (hclaims hci) hli) hci
  · intro j hj hend
    have hfresh : φ j ≠ .fresh := by
      rcases hend with hend | hend <;> rw [hend] <;> nofun
    obtain ⟨hreview, hnone, hrest⟩ := h.ended j (habout j hj hfresh) hend
    refine ⟨hreview, hnone, ?_⟩
    intro i hi hli hci
    exact hrest i (habout i hi (hclaims hci)) (hlive i hi (hclaims hci) hli) hci
  · intro i j hij hi hj hbi hbj
    exact h.once i j hij (habout i hi (by rw [hbi]; nofun)) (habout j hj (by rw [hbj]; nofun)) hbi hbj

/-- The phases of calls about other events do not matter. -/
theorem Exclusive.congr {φ' : Nat → Phase} (h : Exclusive st about live φ)
    (hsame : ∀ j, about j → φ' j = φ j) : Exclusive st about live φ' := by
  refine ⟨?_, ?_, ?_, ?_, ?_⟩
  · intro i j hij hi hj
    rw [hsame i hi, hsame j hj]
    exact h.alone i j hij hi hj
  · intro i hi
    rw [hsame i hi]
    exact h.present i hi
  · intro j hj
    rw [hsame j hj]
    intro hend
    obtain ⟨hreview, hnone, hrest⟩ := h.ended j hj hend
    refine ⟨hreview, hnone, ?_⟩
    intro i hi
    rw [hsame i hi]
    exact hrest i hi
  · intro i j hij hi hj
    rw [hsame i hi, hsame j hj]
    exact h.once i j hij hi hj
  · intro i hi
    rw [hsame i hi]
    exact h.atWork i hi

theorem Turn.keeps_row {q q' : Phase} (h : Turn choice st q st' q') (hst : st ≠ none) : st' ≠ none := by
  cases h with
  | inserted | reviewing => nofun
  | booked | parked | ignored => exact mt Option.map_eq_none_iff.mp hst
  | _ => exact hst

theorem Turn.row_of_claims {q q' : Phase} (h : Turn choice st q st' q')
    (hst : q.claims = true → st ≠ none) (hq : q'.claims = true) : st' ≠ none := by
  cases h with
  | inserted | reviewing => nofun
  | applied | failed => exact hst rfl
  | idle hidle => cases hidle.symm.trans hq
  | _ => cases hq

/-- How a call comes to have ended the event. -/
theorem Turn.of_end {q q' : Phase} (h : Turn choice st q st' q') (hq : q' = .booked ∨ q' = .ignored) :
    (q = q' ∧ st' = st) ∨ (q = .applying [] ∧ q' = .booked ∧
        (st' = st.map (fun _ => .applied) ∨ choice ≠ .works)) ∨
      (q = .ignoring ∧ st' = st.map fun _ => .ignored) := by
  cases h with
  | idle => exact .inl ⟨rfl, rfl⟩
  | inserted hq' | reviewing hq' => rcases hq' with rfl | ⟨_, rfl⟩ <;> rcases hq with hq | hq <;> cases hq
  | booked => exact .inr (.inl ⟨rfl, rfl, .inl rfl⟩)
  | lost hc => exact .inr (.inl ⟨rfl, rfl, .inr hc⟩)
  | ignored => exact .inr (.inr ⟨rfl, rfl⟩)
  | _ => rcases hq with hq | hq <;> cases hq

/-- Once the event is over, only ignores still write. -/
theorem Turn.after_end {q q' : Phase} (h : Turn choice st q st' q') (hreview : st ≠ some .needsReview)
    (hst : st ≠ none) (hq : q.claims = true → q = .ignoring) :
    st' ≠ some .needsReview ∧ st' ≠ none ∧ q'.claims = false := by
  cases h with
  | idle hq' => exact ⟨hreview, hst, hq'⟩
  | inserted => exact absurd rfl hst
  | reviewing => exact absurd rfl hreview
  | refused => exact ⟨hreview, hst, rfl⟩
  | notIgnored => exact ⟨hreview, hst, rfl⟩
  | ignored =>
      obtain ⟨x, rfl⟩ := Option.ne_none_iff_exists'.mp hst
      exact ⟨nofun, nofun, rfl⟩
  | _ => cases hq rfl

/-- A turn of call `i`, which takes the event up only when no other call acts on it. -/
theorem Exclusive.turn (h : Exclusive st about live φ) {q : Phase} (hi : about i) (hl : live i)
    (hturn : Turn choice st (φ i) st' q) (hworks : φ i = .applying [] → choice = .works)
    (halone : (φ i).claims = false → q.claims = true →
      ∀ j, j ≠ i → about j → live j → (φ j).claims = true → q = .ignoring ∧ φ j = .ignoring) :
    Exclusive st' about live (Function.update φ i q) := by
  have hself : Function.update φ i q i = q := Function.update_self ..
  have hother : ∀ {j}, j ≠ i → Function.update φ i q j = φ j := fun hj => Function.update_of_ne hj ..
  have hbeside : ∀ {j}, j ≠ i → about j → live j → (φ j).claims = true → q.claims = true →
      q = .ignoring ∧ φ j = .ignoring := by
    intro j hj hja hjl hjc hqc
    cases hc : (φ i).claims with
    | false => exact halone hc hqc j hj hja hjl hjc
    | true =>
        have hign := h.alone i j (Ne.symm hj) hi hja hl hjl hc hjc
        rw [hign] at hturn
        cases hturn with
        | idle hq => cases hq
        | ignored | notIgnored => cases hqc
  have hpresent : (φ i).claims = true → st ≠ none := h.present i hi hl
  refine ⟨?_, ?_, ?_, ?_, ?_⟩
  · intro j k hjk hj hk hlj hlk hcj hck
    by_cases hji : j = i
    · subst hji
      rw [hself] at hcj ⊢
      rw [hother (Ne.symm hjk)] at hck
      exact (hbeside (Ne.symm hjk) hk hlk hck hcj).1
    · rw [hother hji] at hcj ⊢
      by_cases hki : k = i
      · subst hki
        rw [hself] at hck
        exact (hbeside hji hj hlj hcj hck).2
      · rw [hother hki] at hck
        exact h.alone j k hjk hj hk hlj hlk hcj hck
  · intro j hj hlj hcj
    by_cases hji : j = i
    · subst hji
      rw [hself] at hcj
      exact hturn.row_of_claims hpresent hcj
    · rw [hother hji] at hcj
      exact hturn.keeps_row (h.present j hj hlj hcj)
  · intro j hj hend
    by_cases hji : j = i
    · subst hji
      rw [hself] at hend
      have hothers : ∀ k, about k → live k → (Function.update φ j q k).claims = true → k ≠ j := by
        rintro k - - hck rfl
        rw [hself] at hck
        rcases hend with rfl | rfl <;> cases hck
      rcases hturn.of_end hend with ⟨hq, rfl⟩ | ⟨hq, -, hst⟩ | ⟨hq, hst⟩
      · obtain ⟨hreview, hnone, hrest⟩ := h.ended j hj (hq ▸ hend)
        refine ⟨hreview, hnone, ?_⟩
        intro k hk hlk hck
        have hkj := hothers k hk hlk hck
        rw [hother hkj] at hck ⊢
        exact hrest k hk hlk hck
      · have hc : (φ j).claims = true := by rw [hq]; rfl
        obtain ⟨x, hx⟩ := Option.ne_none_iff_exists'.mp (hpresent hc)
        rcases hst with rfl | hst
        · rw [hx]
          refine ⟨nofun, nofun, ?_⟩
          intro k hk hlk hck
          have hkj := hothers k hk hlk hck
          rw [hother hkj] at hck
          cases hq.symm.trans (h.alone j k (Ne.symm hkj) hi hk hl hlk hc hck)
        · exact absurd (hworks hq) hst
      · have hc : (φ j).claims = true := by rw [hq]; rfl
        obtain ⟨x, hx⟩ := Option.ne_none_iff_exists'.mp (hpresent hc)
        rw [hst, hx]
        refine ⟨nofun, nofun, ?_⟩
        intro k hk hlk hck
        have hkj := hothers k hk hlk hck
        rw [hother hkj] at hck ⊢
        exact h.alone k j hkj hk hi hlk hl hck hc
    · rw [hother hji] at hend
      obtain ⟨hreview, hnone, hrest⟩ := h.ended j hj hend
      obtain ⟨hreview', hnone', hdone⟩ := hturn.after_end hreview hnone (hrest i hi hl)
      refine ⟨hreview', hnone', ?_⟩
      intro k hk hlk hck
      by_cases hki : k = i
      · subst hki
        rw [hself, hdone] at hck
        cases hck
      · rw [hother hki] at hck ⊢
        exact hrest k hk hlk hck
  · have hbook : ∀ j, j ≠ i → about j → φ j = .booked → q ≠ .booked := by
      rintro j hji hj hbj hq
      obtain ⟨-, -, hrest⟩ := h.ended j hj (.inl hbj)
      rcases hturn.of_end (.inl hq) with ⟨hbi, -⟩ | ⟨happlying, -⟩ | ⟨hign, -⟩
      · exact h.once i j (Ne.symm hji) hi hj (hbi.trans hq) hbj
      · cases happlying.symm.trans (hrest i hi hl (by rw [happlying]; rfl))
      · rw [hign, hq] at hturn
        cases hturn
    intro j k hjk hj hk hbj hbk
    by_cases hji : j = i
    · subst hji
      exact hbook k (Ne.symm hjk) hk ((hother (Ne.symm hjk)).symm.trans hbk) (hself.symm.trans hbj)
    · by_cases hki : k = i
      · subst hki
        exact hbook j hji hj ((hother hji).symm.trans hbj) (hself.symm.trans hbk)
      · exact h.once j k hjk hj hk ((hother hji).symm.trans hbj) ((hother hki).symm.trans hbk)
  · intro j hj hq
    by_cases hji : j = i
    · exact hji ▸ hl
    · exact h.atWork j hj ((hother hji).symm.trans hq)

end Quantframe.Trades
