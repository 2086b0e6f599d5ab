import Mathlib.Data.List.Nodup
import Quantframe.Utils.Masking

/-!
# Objects and paths

An object is a map in the order of its keys. A path leads through members to a value.
-/

namespace Quantframe.Utils

open LogParser (Text splitBy)

/-- `Map::get`. -/
def getMember (members : Members) (key : Text) : Option Json :=
  (members.find? fun m => decide (m.1 = key)).map Prod.snd

/-- `Map::insert`: a member gives way to one with the same key. -/
def insertMember (members : Members) (key : Text) (value : Json) : Members :=
  if (getMember members key).isSome then members.map fun m => if m.1 = key then (key, value) else m
  else members.takeWhile (fun m => decide (m.1 < key)) ++ (key, value) ::
    members.dropWhile fun m => decide (m.1 < key)

namespace Json

def asObject : Json → Option Members
  | .object members => some members
  | _ => none

def isObject (value : Json) : Bool := value.asObject.isSome

end Json

/-- What holds of an object once it holds of the values of its members, holds of all values. -/
theorem object_induction {P : Json → Prop} (h : ∀ value, (∀ members, value = .object members → ∀ m ∈ members, P m.2) →
    P value) (value : Json) : P value := by
  apply h value
  intro members hvalue m hm
  have hsize : sizeOf m.2 < sizeOf value := by
    have hmember := List.sizeOf_lt_of_mem hm
    obtain ⟨key, inner⟩ := m
    subst hvalue
    simp only [Json.object.sizeOf_spec, Prod.mk.sizeOf_spec] at hmember ⊢
    omega
  exact object_induction h m.2
termination_by sizeOf value

/-- Member by member along the segments of a path. -/
def getSegments : Json → List Text → Option Json
  | current, [] => some current
  | .object map, segment :: segments => (getMember map segment).bind fun current => getSegments current segments
  | _, _ :: _ => none

theorem getSegments_object {map : Members} {segment : Text} {path : List Text} :
    getSegments (.object map) (segment :: path) =
      (getMember map segment).bind fun current => getSegments current path := rfl

/-- A path goes on only in an object. -/
theorem getSegments_cons {value found : Json} {segment : Text} {path : List Text}
    (h : getSegments value (segment :: path) = some found) :
    ∃ map current, value = .object map ∧ getMember map segment = some current ∧
      getSegments current path = some found := by
  cases value with
  | object map =>
      obtain ⟨current, hcurrent, hfound⟩ := Option.bind_eq_some_iff.mp h
      exact ⟨map, current, rfl, hcurrent, hfound⟩
  | null | bool b | number literal | string text | array items => cases h

def segmentsOf (path : Text) : List Text := splitBy (· == '.') path

def getJsonValue (object : Json) (path : Text) : Option Json := getSegments object (segmentsOf path)

section Members

variable {members : Members} {key other : Text} {value : Json}

theorem getMember_eq_none : getMember members key = none ↔ key ∉ members.map Prod.fst := by
  simp only [getMember, Option.map_eq_none_iff, List.find?_eq_none, decide_eq_true_eq, List.mem_map, not_exists, not_and]

theorem mem_of_getMember (h : getMember members key = some value) : (key, value) ∈ members := by
  obtain ⟨m, hm, rfl⟩ := Option.map_eq_some_iff.mp h
  have hkey := List.find?_some hm
  rw [← of_decide_eq_true hkey]
  exact List.mem_of_find?_eq_some hm

theorem getMember_of_mem (h : (members.map Prod.fst).Nodup) (hmem : (key, value) ∈ members) :
    getMember members key = some value := by
  cases hfound : getMember members key with
  | none => exact absurd (List.mem_map_of_mem hmem) (getMember_eq_none.mp hfound)
  | some found =>
      have hsame := List.inj_on_of_nodup_map h (mem_of_getMember hfound) hmem rfl
      exact congrArg some (Prod.ext_iff.mp hsame).2

theorem getMember_append (front back : Members) (key : Text) :
    getMember (front ++ back) key = (getMember front key).or (getMember back key) := by
  rw [getMember, getMember, getMember, List.find?_append, Option.map_or]

theorem getMember_cons (m : Text × Json) (members : Members) (key : Text) :
    getMember (m :: members) key = if m.1 = key then some m.2 else getMember members key := by
  rw [getMember, List.find?_cons]
  split
  · next h => rw [if_pos (of_decide_eq_true h), Option.map_some]
  · next h => rw [if_neg (of_decide_eq_false h), getMember]

theorem getMember_replace (members : Members) (key : Text) (value : Json) (other : Text) :
    getMember (members.map fun m => if m.1 = key then (key, value) else m) other =
      if other = key then (getMember members key).map fun _ => value else getMember members other := by
  induction members with
  | nil => split <;> rfl
  | cons m members ih =>
      rw [List.map_cons, getMember_cons, ih, getMember_cons, getMember_cons]
      by_cases hm : m.1 = key
      · by_cases hother : other = key
        · subst hother
          simp only [hm, if_true, Option.map_some]
        · simp only [hm, if_true, Ne.symm hother, hother, if_false]
      · by_cases hother : other = key
        · subst hother
          simp only [hm, if_true, if_false]
        · simp only [hm, hother, if_false]

theorem getMember_insertMember (members : Members) (key : Text) (value : Json) (other : Text) :
    getMember (insertMember members key value) other = if other = key then some value else getMember members other := by
  rw [insertMember]
  split
  · next hsome =>
      obtain ⟨old, hold⟩ := Option.isSome_iff_exists.mp hsome
      rw [getMember_replace, hold, Option.map_some]
  · next hnone =>
      have hmembers : members.takeWhile (fun m => decide (m.1 < key)) ++ members.dropWhile (fun m => decide (m.1 < key)) =
          members := List.takeWhile_append_dropWhile
      have hkey : getMember members key = none := Option.not_isSome_iff_eq_none.mp hnone
      rw [getMember_append, getMember_cons]
      by_cases hother : other = key
      · subst hother
        rw [← hmembers, getMember_append, Option.or_eq_none_iff] at hkey
        rw [hkey.1, if_pos rfl, if_pos rfl, Option.none_or]
      · rw [if_neg (Ne.symm hother), if_neg hother, ← getMember_append, hmembers]

theorem insertMember_keys_nodup (h : (members.map Prod.fst).Nodup) (key : Text) (value : Json) :
    ((insertMember members key value).map Prod.fst).Nodup := by
  rw [insertMember]
  split
  · have hkeys : (Prod.fst ∘ fun m : Text × Json => if m.1 = key then (key, value) else m) = Prod.fst := by
      funext m
      rw [Function.comp_apply]
      split
      · next hm => exact hm.symm
      · rfl
    rwa [List.map_map, hkeys]
  · next hnone =>
      have hkey := getMember_eq_none.mp (Option.not_isSome_iff_eq_none.mp hnone)
      rw [← List.takeWhile_append_dropWhile (p := fun m => decide (m.1 < key)) (l := members), List.map_append] at h hkey
      rw [List.map_append, List.map_cons, List.nodup_middle, List.nodup_cons]
      exact ⟨hkey, h⟩

end Members

end Quantframe.Utils
