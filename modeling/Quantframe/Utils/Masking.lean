import Quantframe.LogParser.Dialog

/-!
# Masking sensitive data

`maskSensitiveData` walks an object. What masking is for is said of every key that occurs in it, also in an array.
-/

namespace Quantframe.Utils

open LogParser (Text)

inductive Json where
  | null
  | bool (b : Bool)
  | number (literal : Text)
  | string (text : Text)
  | array (items : List Json)
  | object (members : List (Text × Json))

abbrev Members := List (Text × Json)

def mask : Json := .string "*********".toList

mutual

/-- An object is walked; any other value is masked under a listed key. -/
def maskValue (properties : List Text) (key : Text) : Json → Json
  | .object subObject => .object (maskSensitiveData properties subObject)
  | value => if key ∈ properties then mask else value

def maskSensitiveData (properties : List Text) : Members → Members
  | [] => []
  | (key, value) :: rest => (key, maskValue properties key value) :: maskSensitiveData properties rest

end

/-! ### What masking is for -/

/-- A value stands under a key somewhere in another. -/
inductive Under (key : Text) (value : Json) : Json → Prop where
  | here {members : Members} : (key, value) ∈ members → Under key value (.object members)
  | member {members : Members} {other : Text} {inner : Json} :
      (other, inner) ∈ members → Under key value inner → Under key value (.object members)
  | item {items : List Json} {inner : Json} : inner ∈ items → Under key value inner → Under key value (.array items)

mutual

/-- A value with nothing left under the listed keys. -/
def blank (properties : List Text) : Json → Json
  | .array items => .array (blankItems properties items)
  | .object members => .object (blankMembers properties members)
  | value => value

def blankItems (properties : List Text) : List Json → List Json
  | [] => []
  | value :: rest => blank properties value :: blankItems properties rest

def blankMembers (properties : List Text) : Members → Members
  | [] => []
  | (key, value) :: rest =>
    (key, if key ∈ properties then .null else blank properties value) :: blankMembers properties rest

end

/-- No secret is left, and nothing but the secrets has changed. -/
structure LeavesNoSecret (properties : List Text) (before after : Members) : Prop where
  masked : ∀ key value, Under key value (.object after) → key ∈ properties → value = mask
  unchanged : blankMembers properties after = blankMembers properties before

/-! ### The walk -/

/-- The members that lie in no array. -/
inductive Reached (key : Text) (value : Json) : Members → Prop where
  | here {members : Members} : (key, value) ∈ members → Reached key value members
  | inside {members subObject : Members} {other : Text} :
      (other, .object subObject) ∈ members → Reached key value subObject → Reached key value members

section Walk

variable {properties : List Text} {key : Text} {value : Json} {members : Members}

theorem maskSensitiveData_eq (properties : List Text) (members : Members) :
    maskSensitiveData properties members = members.map fun m => (m.1, maskValue properties m.1 m.2) := by
  induction members with
  | nil => rfl
  | cons member rest ih =>
      obtain ⟨key, value⟩ := member
      rw [maskSensitiveData, ih, List.map_cons]

theorem mem_maskSensitiveData : (key, value) ∈ maskSensitiveData properties members ↔
    ∃ original, (key, original) ∈ members ∧ maskValue properties key original = value := by
  rw [maskSensitiveData_eq, List.mem_map]
  constructor
  · rintro ⟨⟨key', original⟩, hmem, heq⟩
    cases heq
    exact ⟨original, hmem, rfl⟩
  · rintro ⟨original, hmem, rfl⟩
    exact ⟨(key, original), hmem, rfl⟩

theorem Reached.under (h : Reached key value members) : Under key value (.object members) := by
  induction h with
  | here hmem => exact .here hmem
  | inside hmem _ ih => exact .member hmem ih

/-- What stands in a member stands in the object. -/
theorem Reached.under_inside {inner : Text} {secret : Json} (h : Reached key value members)
    (hinner : Under inner secret value) : Under inner secret (.object members) := by
  induction h with
  | here hmem => exact .member hmem hinner
  | inside hmem _ ih => exact .member hmem ih

theorem Reached.masked (h : Reached key value members) (properties : List Text) :
    Reached key (maskValue properties key value) (maskSensitiveData properties members) := by
  induction h with
  | here hmem => exact .here (mem_maskSensitiveData.mpr ⟨_, hmem, rfl⟩)
  | inside hmem _ ih => exact .inside (mem_maskSensitiveData.mpr ⟨_, hmem, by rw [maskValue]⟩) ih

theorem maskValue_eq (h : ∀ subObject, value ≠ .object subObject) :
    maskValue properties key value = if key ∈ properties then mask else value := by
  cases value with
  | object subObject => exact absurd rfl (h subObject)
  | null => rfl
  | bool b => rfl
  | number literal => rfl
  | string text => rfl
  | array items => rfl

/-- A value that is no object keeps what stands in it when its key is not listed. -/
theorem under_maskValue {inner : Text} {secret : Json} (h : ∀ subObject, value ≠ .object subObject)
    (hunder : Under inner secret (maskValue properties key value)) : key ∉ properties ∧ Under inner secret value := by
  rw [maskValue_eq h] at hunder
  split at hunder
  · cases hunder
  · next hkey => exact ⟨hkey, hunder⟩

mutual

theorem blank_maskValue (properties : List Text) {key : Text} (hkey : key ∉ properties) :
    ∀ value : Json, blank properties (maskValue properties key value) = blank properties value
  | .object subObject => by rw [maskValue, blank, blank, blank_maskSensitiveData properties subObject]
  | .null | .bool _ | .number _ | .string _ | .array _ => by rw [maskValue_eq (by simp), if_neg hkey]

/-- The walk changes nothing but values under listed keys. -/
theorem blank_maskSensitiveData (properties : List Text) : ∀ members : Members,
    blankMembers properties (maskSensitiveData properties members) = blankMembers properties members
  | [] => rfl
  | (key, value) :: rest => by
      rw [maskSensitiveData, blankMembers, blankMembers, blank_maskSensitiveData properties rest]
      by_cases hkey : key ∈ properties
      · rw [if_pos hkey, if_pos hkey]
      · rw [if_neg hkey, if_neg hkey, blank_maskValue properties hkey value]

end

/-- A secret that stays: an object under a listed key, or a listed key inside an array under another one. -/
def Missed (properties : List Text) (key : Text) (value : Json) : Prop :=
  (key ∈ properties ∧ ∃ subObject, value = .object subObject) ∨
    (key ∉ properties ∧ ∃ items, value = .array items ∧
      ∃ inner secret, Under inner secret value ∧ inner ∈ properties ∧ secret ≠ mask)

theorem masked_of_none_missed (h : ∀ key value, Reached key value members → ¬ Missed properties key value)
    (hunder : Under key value (.object (maskSensitiveData properties members))) (hkey : key ∈ properties) :
    value = mask := by
  generalize hafter : Json.object (maskSensitiveData properties members) = after at hunder
  induction hunder generalizing members with
  | here hmem =>
      cases hafter
      obtain ⟨original, horiginal, rfl⟩ := mem_maskSensitiveData.mp hmem
      have hnot := h key original (.here horiginal)
      rw [maskValue_eq fun subObject hobject => hnot (.inl ⟨hkey, subObject, hobject⟩), if_pos hkey]
  | @member _ other inner hmem hinner ih =>
      cases hafter
      obtain ⟨original, horiginal, rfl⟩ := mem_maskSensitiveData.mp hmem
      by_cases hobject : ∃ subObject, original = .object subObject
      · obtain ⟨subObject, rfl⟩ := hobject
        exact ih (fun key value hreached => h key value (.inside horiginal hreached)) rfl
      · obtain ⟨hother, hunder⟩ := under_maskValue (fun subObject h => hobject ⟨subObject, h⟩) hinner
        by_contra hsecret
        cases hunder with
        | here _ => exact hobject ⟨_, rfl⟩
        | member _ _ => exact hobject ⟨_, rfl⟩
        | item hitem hinside =>
            exact h other _ (.here horiginal) (.inr ⟨hother, _, rfl, key, value, .item hitem hinside, hkey, hsecret⟩)
  | item hmem hinner ih => cases hafter

/-- What the walk reaches decides. -/
theorem masking_leaves_no_secret_iff (properties : List Text) (members : Members) :
    LeavesNoSecret properties members (maskSensitiveData properties members) ↔
      ∀ key value, Reached key value members → ¬ Missed properties key value := by
  constructor
  · intro h key value hreached hmissed
    have hafter := hreached.masked properties
    rcases hmissed with ⟨hkey, subObject, rfl⟩ | ⟨hkey, items, rfl, inner, secret, hinner, hlisted, hsecret⟩
    · have hmask := h.masked key _ hafter.under hkey
      cases hmask
    · rw [maskValue_eq (by simp), if_neg hkey] at hafter
      exact hsecret (h.masked inner secret (hafter.under_inside hinner) hlisted)
  · intro h
    exact ⟨fun key value hunder hkey => masked_of_none_missed h hunder hkey,
      blank_maskSensitiveData properties members⟩

/-- A password in an array of objects stays as it is. -/
theorem password_in_array_unmasked :
    ¬ LeavesNoSecret ["password".toList]
      [("users".toList, .array [.object [("password".toList, .string "hunter2".toList)]])]
      (maskSensitiveData ["password".toList]
        [("users".toList, .array [.object [("password".toList, .string "hunter2".toList)]])]) := by
  intro h
  have hunder : Under "password".toList (.string "hunter2".toList) (.object (maskSensitiveData ["password".toList]
      [("users".toList, .array [.object [("password".toList, .string "hunter2".toList)]])])) :=
    .member List.mem_cons_self (.item List.mem_cons_self (.here List.mem_cons_self))
  have hmask := h.masked _ _ hunder List.mem_cons_self
  rw [mask, Json.string.injEq] at hmask
  exact absurd hmask (by decide)

end Walk

end Quantframe.Utils
