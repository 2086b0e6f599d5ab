import Mathlib.Data.List.Sort
import Mathlib.Data.Prod.Lex
import Quantframe.Lib.Ranking
import Quantframe.Server.Auth

/-!
# Device keys

The helper's keys. Only the hash of a key is stored; a device is revoked and never deleted.
-/

namespace Quantframe.Server

open Lib LogParser
open Trades (DateTime Timestamp ts)

def keyPrefix : Text := "qfh_".toList

def maxNameChars : Nat := 64

structure HelperDevice where
  id : Int
  name : Text
  createdAt : Timestamp
  lastSeenAt : Option Timestamp
  revokedAt : Option Timestamp
  deriving DecidableEq, Repr

structure CreatedDevice where
  device : HelperDevice
  /-- Shown once. -/
  key : Text
  deriving DecidableEq, Repr

/-- A device whose key is valid and not revoked. -/
structure DeviceIdentity where
  id : Int
  name : Text
  deriving DecidableEq, Repr

structure KeyError where
  component : String
  message : String
  deriving DecidableEq, Repr

/-- A row of `helper_keys`. -/
structure HelperKey extends HelperDevice where
  keyHash : Text

/-- `helper_keys`. The ids count up and none is given twice; no two rows have one hash. -/
structure HelperKeys where
  rows : List HelperKey
  ids : rows.map (·.id) = (List.range rows.length).map fun i : Nat => (i : Int) + 1
  uniqueHash : (rows.map HelperKey.keyHash).Nodup

namespace HelperKeys

def empty : HelperKeys := ⟨[], rfl, List.nodup_nil⟩

/-- `UPDATE helper_keys SET … WHERE …`, of columns that are no key. -/
def update (t : HelperKeys) (p : HelperKey → Bool) (f : HelperKey → HelperKey)
    (hid : ∀ r, (f r).id = r.id) (hhash : ∀ r, (f r).keyHash = r.keyHash) : HelperKeys where
  rows := t.rows.map fun r => if p r then f r else r
  ids := by
    have hsame : ((fun r : HelperKey => r.id) ∘ fun r => if p r then f r else r) = fun r => r.id := by
      funext r
      simp only [Function.comp_apply]
      split
      · exact hid r
      · rfl
    rw [List.map_map, hsame, List.length_map, t.ids]
  uniqueHash := by
    have hsame : (HelperKey.keyHash ∘ fun r => if p r then f r else r) = HelperKey.keyHash := by
      funext r
      simp only [Function.comp_apply]
      split
      · exact hhash r
      · rfl
    rw [List.map_map, hsame]
    exact t.uniqueHash

/-- `INSERT INTO helper_keys (name, key_hash, created_at)`, unless the hash is there. -/
def insert (t : HelperKeys) (name keyHash : Text) (createdAt : Timestamp) : Option (HelperKey × HelperKeys) :=
  let row : HelperKey := ⟨⟨t.rows.length + 1, name, createdAt, none, none⟩, keyHash⟩
  if h : (t.rows.map HelperKey.keyHash).contains keyHash = true then none
  else some (row,
    { rows := t.rows ++ [row]
      ids := by
        rw [List.map_append, t.ids, List.length_append, List.length_singleton, List.range_succ, List.map_append]
        rfl
      uniqueHash := by
        rw [List.map_append, List.map_singleton, ← List.concat_eq_append]
        exact t.uniqueHash.concat fun hin => h (List.contains_iff_mem.mpr hin) })

end HelperKeys

namespace Keys

-- `Sha256::digest`, and what the driver says of a hash that is there already
variable (sha256 : Bytes → Bytes) (conflict : String)

def hashKey (key : Text) : Text := hexEncode (sha256 (String.ofList key).toUTF8.toList)

/-- From the bytes of the OS, or why it gave none. -/
def generateKey (random : Except String Random) : Except KeyError Text :=
  match random with
  | .error e => .error ⟨"HelperLink:Key", "OS random number generator unavailable: " ++ e⟩
  | .ok bytes => .ok (keyPrefix ++ hexEncode bytes.toList)

def create (t : HelperKeys) (name : Text) (random : Except String Random) (now : DateTime) :
    Except KeyError (CreatedDevice × HelperKeys) :=
  let name := trim name
  if name.isEmpty || decide (maxNameChars < name.length) then
    .error ⟨"HelperLink:Create", "Device name must be 1-64 characters"⟩
  else do
    let key ← generateKey random
    match t.insert name (hashKey sha256 key) (ts now) with
    | none => .error ⟨"HelperLink:Create", conflict⟩
    | some (row, t) => .ok (⟨row.toHelperDevice, key⟩, t)

/-- Active devices before revoked ones, newest first in each group. -/
def deviceRank (d : HelperDevice) : Bool ×ₗ Int := toLex (d.revokedAt.isSome, -d.id)

def list (t : HelperKeys) : List HelperDevice :=
  (t.rows.map HelperKey.toHelperDevice).mergeSort fun a b => decide (deviceRank a ≤ deviceRank b)

/-- False when there is no such device or it was revoked before. -/
def revoke (t : HelperKeys) (id : Int) (now : DateTime) : Bool × HelperKeys :=
  (t.rows.any fun r => decide (r.id = id) && r.revokedAt.isNone,
    t.update (fun r => decide (r.id = id) && r.revokedAt.isNone) (fun r => { r with revokedAt := some (ts now) })
      (fun _ => rfl) fun _ => rfl)

/-- The lookup of `authenticate`. -/
def identify (t : HelperKeys) (key : Text) : Option DeviceIdentity :=
  if !keyPrefix.isPrefixOf key then none
  else
    (t.rows.find? fun r => decide (r.keyHash = hashKey sha256 key) && r.revokedAt.isNone).map fun r => ⟨r.id, r.name⟩

/-- The update of `authenticate`. -/
def markSeen (t : HelperKeys) (id : Int) (now : DateTime) : HelperKeys :=
  t.update (fun r => decide (r.id = id)) (fun r => { r with lastSeenAt := some (ts now) }) (fun _ => rfl) fun _ => rfl

/-! ### What the statements do -/

section Rows

variable {sha256 conflict}

variable {t u : HelperKeys} {r : HelperKey} {name key : Text} {now : DateTime} {id : Int}

theorem nodup_ids (t : HelperKeys) : (t.rows.map (·.id)).Nodup := by
  rw [t.ids]
  apply List.nodup_range.map
  intro i j h
  replace h : (i : Int) + 1 = j + 1 := h
  omega

theorem eq_of_id {r' : HelperKey} (hr : r ∈ t.rows) (hr' : r' ∈ t.rows) (h : r.id = r'.id) : r = r' :=
  List.inj_on_of_nodup_map (nodup_ids t) hr hr' h

/-- An id was counted. -/
theorem id_le_length (hr : r ∈ t.rows) : r.id ≤ t.rows.length := by
  have hid : r.id ∈ t.rows.map (·.id) := List.mem_map.mpr ⟨r, hr, rfl⟩
  rw [t.ids, List.mem_map] at hid
  obtain ⟨i, hi, heq⟩ := hid
  have hlt := List.mem_range.mp hi
  omega

/-- What a successful `create` returns and inserts. -/
theorem create_eq_ok {random : Except String Random} {created : CreatedDevice}
    (h : create sha256 conflict t name random now = .ok (created, u)) :
    (trim name ≠ [] ∧ (trim name).length ≤ maxNameChars) ∧
      (∃ bytes, random = .ok bytes ∧ created.key = keyPrefix ++ hexEncode bytes.toList) ∧
      created.device = ⟨t.rows.length + 1, trim name, ts now, none, none⟩ ∧
      u.rows = t.rows ++ [⟨created.device, hashKey sha256 created.key⟩] := by
  simp only [create] at h
  split at h
  · cases h
  · next hname =>
      simp only [Bool.or_eq_true, List.isEmpty_iff, decide_eq_true_eq, not_or, Nat.not_lt] at hname
      refine ⟨hname, ?_⟩
      cases random with
      | error e => cases h
      | ok bytes =>
          simp only [generateKey, Except.bind, bind] at h
          simp only [HelperKeys.insert] at h
          split at h
          · cases h
          · next row u' hinsert =>
              split at hinsert
              · cases hinsert
              · cases hinsert
                cases h
                exact ⟨⟨bytes, rfl, rfl⟩, rfl, rfl⟩

theorem identify_eq_some {device : DeviceIdentity} : identify sha256 t key = some device ↔
    keyPrefix <+: key ∧ ∃ r ∈ t.rows, r.keyHash = hashKey sha256 key ∧ r.revokedAt = none ∧
      device = ⟨r.id, r.name⟩ := by
  rw [identify]
  split
  · next hother =>
      refine iff_of_false (by rintro ⟨⟩) ?_
      rintro ⟨hstarts, -⟩
      rw [List.isPrefixOf_iff_prefix.mpr hstarts] at hother
      cases hother
  · next hstarts =>
      simp only [Bool.not_eq_true', Bool.not_eq_false, List.isPrefixOf_iff_prefix] at hstarts
      rw [Option.map_eq_some_iff, and_iff_right hstarts]
      constructor
      · rintro ⟨r, hfound, rfl⟩
        have hr := List.find?_some hfound
        rw [Bool.and_eq_true, decide_eq_true_eq, Option.isNone_iff_eq_none] at hr
        exact ⟨r, List.mem_of_find?_eq_some hfound, hr.1, hr.2, rfl⟩
      · rintro ⟨r, hr, hhash, hactive, rfl⟩
        cases hfound : t.rows.find? fun r => decide (r.keyHash = hashKey sha256 key) && r.revokedAt.isNone with
        | none =>
            have hno := List.find?_eq_none.mp hfound r hr
            simp [hhash, hactive] at hno
        | some r' =>
            have hr' := List.find?_some hfound
            rw [Bool.and_eq_true, decide_eq_true_eq] at hr'
            have hsame := List.inj_on_of_nodup_map t.uniqueHash (List.mem_of_find?_eq_some hfound) hr
              (hr'.1.trans hhash.symm)
            exact ⟨r', rfl, hsame ▸ rfl⟩

theorem mem_revoke : r ∈ (revoke t id now).2.rows ↔ ∃ old ∈ t.rows,
    r = { old with revokedAt := if old.id = id ∧ old.revokedAt = none then some (ts now) else old.revokedAt } := by
  simp only [revoke, HelperKeys.update, List.mem_map]
  refine exists_congr fun old => and_congr_right fun _ => ?_
  rw [eq_comm]
  by_cases hactive : old.id = id ∧ old.revokedAt = none
  · rw [if_pos hactive, if_pos (by simp [hactive])]
  · rw [if_neg hactive, if_neg (by simpa using hactive)]

theorem revoke_fst : (revoke t id now).1 = true ↔ ∃ r ∈ t.rows, r.id = id ∧ r.revokedAt = none := by
  simp only [revoke, List.any_eq_true, Bool.and_eq_true, decide_eq_true_eq, Option.isNone_iff_eq_none]

theorem mem_markSeen : r ∈ (markSeen t id now).rows ↔ ∃ old ∈ t.rows,
    r = { old with lastSeenAt := if old.id = id then some (ts now) else old.lastSeenAt } := by
  simp only [markSeen, HelperKeys.update, List.mem_map]
  refine exists_congr fun old => and_congr_right fun _ => ?_
  rw [eq_comm]
  by_cases hid : old.id = id
  · rw [if_pos hid, if_pos (decide_eq_true hid)]
  · rw [if_neg hid, if_neg (by simpa using hid)]

theorem mem_list {d : HelperDevice} : d ∈ list t ↔ ∃ r ∈ t.rows, r.toHelperDevice = d := by
  rw [list, List.mem_mergeSort, List.mem_map]

/-- No two devices stand at one place of the list. -/
theorem pairwise_list (t : HelperKeys) : (list t).Pairwise fun a b => deviceRank a < deviceRank b := by
  have hsorted : (list t).Pairwise fun a b => deviceRank a ≤ deviceRank b := by
    refine (List.pairwise_mergeSort ?_ ?_ _).imp of_decide_eq_true
    · intro a b c hab hbc
      exact decide_eq_true ((of_decide_eq_true hab).trans (of_decide_eq_true hbc))
    · intro a b
      rcases le_total (deviceRank a) (deviceRank b) with hle | hle
      · simp [hle]
      · simp [hle]
  have hseparates : Ranking.Separates deviceRank (list t) := by
    intro a ha b hb hrank
    obtain ⟨r, hr, rfl⟩ := mem_list.mp ha
    obtain ⟨r', hr', rfl⟩ := mem_list.mp hb
    have hid := congrArg Prod.snd (toLex.injective hrank)
    rw [eq_of_id hr hr' (Int.neg_inj.mp hid)]
  have hnodup : (list t).Nodup := by
    rw [list, (List.mergeSort_perm _ _).nodup_iff]
    refine List.Nodup.of_map HelperDevice.id ?_
    rw [List.map_map]
    exact nodup_ids t
  exact Ranking.pairwise_lt hseparates hnodup hsorted

end Rows

end Keys

end Quantframe.Server
