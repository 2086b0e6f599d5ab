import Mathlib.Data.List.Pairwise
import Mathlib.Order.Lattice

/-!
# Sliding windows

A queue of times, the oldest in front. What has expired is dropped from the front, and a new time is taken in while
there is room. Over times that do not run back the queue says as much as the whole list of the times taken in.
-/

namespace Quantframe.Lib

variable {T : Type} [LinearOrder T]

/-- When a time no longer counts. What has expired stays so, and what is older has expired as well. -/
structure Expiry (T : Type) [LinearOrder T] where
  expired : T → T → Bool
  later : ∀ {now later t : T}, now ≤ later → expired now t = true → expired later t = true
  older : ∀ {now t older : T}, older ≤ t → expired now t = true → expired now older = true

namespace Expiry

variable {E : Expiry T} {now clock : T} {max : Nat} {queue taken : List T}

def alive (E : Expiry T) (now t : T) : Bool := !E.expired now t

/-- Drops the front, then takes the time in unless the queue is full. -/
def acquire (E : Expiry T) (max : Nat) (queue : List T) (now : T) : Bool × List T :=
  let kept := queue.dropWhile (E.expired now)
  if max ≤ kept.length then (false, kept) else (true, kept ++ [now])

theorem alive_of_le {t : T} (h : now ≤ clock) (halive : E.alive clock t = true) : E.alive now t = true := by
  rw [alive, Bool.not_eq_true'] at halive ⊢
  cases hexpired : E.expired now t with
  | false => rfl
  | true => exact absurd (E.later h hexpired) (Bool.eq_false_iff.mp halive)

/-- Nothing in a queue in order has expired behind what has not. -/
theorem dropWhile_expired (h : queue.Pairwise (· ≤ ·)) (now : T) :
    queue.dropWhile (E.expired now) = queue.filter (E.alive now) := by
  induction queue with
  | nil => rfl
  | cons t queue ih =>
      obtain ⟨hfirst, hrest⟩ := List.pairwise_cons.mp h
      cases hexpired : E.expired now t with
      | true =>
          rw [List.dropWhile_cons_of_pos hexpired, List.filter_cons_of_neg (by simp [alive, hexpired]), ih hrest]
      | false =>
          have hall : ∀ t' ∈ t :: queue, E.alive now t' = true := by
            intro t' ht'
            rw [alive, Bool.not_eq_true', Bool.eq_false_iff]
            intro hgone
            have hle : t ≤ t' := by
              rcases List.mem_cons.mp ht' with rfl | hin
              · exact le_refl _
              · exact hfirst t' hin
            exact Bool.eq_false_iff.mp hexpired (E.older hle hgone)
          rw [List.dropWhile_cons_of_neg (by simp [hexpired]), List.filter_eq_self.mpr hall]

/-- The times taken in up to an instant that still count at it. -/
def load (E : Expiry T) (taken : List T) (now : T) : Nat :=
  taken.countP fun t => decide (t ≤ now) && E.alive now t

/-- What the queue says of the times taken in so far. -/
structure Keeps (E : Expiry T) (max : Nat) (clock : T) (taken queue : List T) : Prop where
  inOrder : queue.Pairwise (· ≤ ·)
  queuePast : ∀ t ∈ queue, t ≤ clock
  takenPast : ∀ t ∈ taken, t ≤ clock
  counts : ∀ now, clock ≤ now → queue.filter (E.alive now) = taken.filter (E.alive now)
  bounded : ∀ now, E.load taken now ≤ max

theorem keeps_nil (E : Expiry T) (max : Nat) (clock : T) : E.Keeps max clock [] [] where
  inOrder := List.Pairwise.nil
  queuePast := by simp
  takenPast := by simp
  counts _ _ := rfl
  bounded _ := Nat.zero_le _

theorem Keeps.advance (h : E.Keeps max clock taken queue) (hclock : clock ≤ now) : E.Keeps max now taken queue where
  inOrder := h.inOrder
  queuePast t ht := (h.queuePast t ht).trans hclock
  takenPast t ht := (h.takenPast t ht).trans hclock
  counts later hlater := h.counts later (hclock.trans hlater)
  bounded := h.bounded

theorem load_of_past (h : ∀ t ∈ taken, t ≤ now) : E.load taken now = (taken.filter (E.alive now)).length := by
  rw [load, ← List.countP_eq_length_filter]
  refine List.countP_congr fun t ht => ?_
  simp [h t ht]

/-- What is left of the queue is as long as what counts. -/
theorem Keeps.length_kept (h : E.Keeps max clock taken queue) (hclock : clock ≤ now) :
    (queue.dropWhile (E.expired now)).length = E.load taken now := by
  rw [dropWhile_expired h.inOrder, h.counts now hclock, load_of_past (h.advance hclock).takenPast]

theorem filter_alive_filter (h : now ≤ clock) (l : List T) :
    (l.filter (E.alive now)).filter (E.alive clock) = l.filter (E.alive clock) := by
  rw [List.filter_filter]
  refine List.filter_congr fun t _ => ?_
  rw [Bool.and_eq_left_iff_imp]
  exact alive_of_le h

theorem Keeps.drop (h : E.Keeps max clock taken queue) (hclock : clock ≤ now) :
    E.Keeps max now taken (queue.dropWhile (E.expired now)) where
  inOrder := h.inOrder.sublist (List.dropWhile_sublist _)
  queuePast t ht := (h.queuePast t ((List.dropWhile_sublist _).subset ht)).trans hclock
  takenPast := (h.advance hclock).takenPast
  counts later hlater := by
    rw [dropWhile_expired h.inOrder, filter_alive_filter hlater, h.counts later (hclock.trans hlater)]
  bounded := h.bounded

theorem load_concat (taken : List T) (t now : T) :
    E.load (taken ++ [t]) now = E.load taken now + if t ≤ now ∧ E.alive now t = true then 1 else 0 := by
  simp [load, List.countP_append, List.countP_singleton]

/-- What counts at a later instant and was there before counted then. -/
theorem load_le_of_past (hpast : ∀ t ∈ taken, t ≤ now) (h : now ≤ clock) : E.load taken clock ≤ E.load taken now := by
  refine List.countP_mono_left fun t ht hcounts => ?_
  rw [Bool.and_eq_true] at hcounts ⊢
  exact ⟨decide_eq_true (hpast t ht), alive_of_le h hcounts.2⟩

theorem Keeps.concat (h : E.Keeps max now taken queue) (hroom : E.load taken now < max) :
    E.Keeps max now (taken ++ [now]) (queue ++ [now]) where
  inOrder := List.pairwise_append.mpr ⟨h.inOrder, List.pairwise_singleton _ _, fun t ht t' ht' => by
    rw [List.mem_singleton.mp ht']
    exact h.queuePast t ht⟩
  queuePast := List.forall_mem_append.mpr ⟨h.queuePast, List.forall_mem_singleton.mpr (le_refl now)⟩
  takenPast := List.forall_mem_append.mpr ⟨h.takenPast, List.forall_mem_singleton.mpr (le_refl now)⟩
  counts later hlater := by rw [List.filter_append, List.filter_append, h.counts later hlater]
  bounded later := by
    rw [load_concat]
    split
    · next hcounts =>
        have hle := load_le_of_past (E := E) h.takenPast hcounts.1
        exact Nat.succ_le_of_lt (Nat.lt_of_le_of_lt hle hroom)
    · exact h.bounded later

/-- A time is taken in exactly when fewer than `max` of those before it still count. -/
theorem Keeps.acquire_fst (h : E.Keeps max clock taken queue) (hclock : clock ≤ now) :
    (E.acquire max queue now).1 = true ↔ E.load taken now < max := by
  simp only [acquire, h.length_kept hclock]
  split
  · next hfull => simp [hfull]
  · next hroom => simpa using hroom

theorem Keeps.acquire_snd (h : E.Keeps max clock taken queue) (hclock : clock ≤ now) :
    E.Keeps max now (if (E.acquire max queue now).1 then taken ++ [now] else taken) (E.acquire max queue now).2 := by
  have hdrop := h.drop hclock
  have hfst := h.acquire_fst hclock
  simp only [acquire] at hfst ⊢
  split
  · exact hdrop
  · next hroom =>
      rw [if_neg hroom] at hfst
      exact hdrop.concat (hfst.mp rfl)

end Expiry

end Quantframe.Lib
