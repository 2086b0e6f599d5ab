import Quantframe.Utils.Objects

/-!
# Completing a file

A file is completed by what a tree of defaults requires. Where the file has no object but the tree has an empty one,
nothing is missing and nothing is changed.
-/

namespace Quantframe.Utils

open LogParser (Text)

def joined (path key : Text) : Text := if path = [] then key else path ++ '.' :: key

mutual

/-- The completed value and the properties that were missing. -/
def validateJson (path : Text) (json : Json) : Json → Json × List Text
  | .object requiredObj =>
      let (jsonObj, missing) := validateMembers path (json.asObject.getD []) requiredObj
      (.object jsonObj, missing)
  | _ => (json, [])

def validateMembers (path : Text) (jsonObj : Members) : Members → Members × List Text
  | [] => (jsonObj, [])
  | (key, value) :: rest =>
      let fullPath := joined path key
      let (jsonObj, missing) :=
        match getMember jsonObj key with
        | none => (insertMember jsonObj key value, [fullPath])
        | some existing =>
            if value.isObject then
              let (sub, subMissing) := validateJson fullPath existing value
              if subMissing.isEmpty then (jsonObj, []) else (insertMember jsonObj key sub, subMissing)
            -- never, as the arm before takes all objects
            else if value.isObject && !existing.isObject then (insertMember jsonObj key value, [fullPath])
            else (jsonObj, [])
      let (jsonObj, more) := validateMembers path jsonObj rest
      (jsonObj, missing ++ more)

end

/-- What a member becomes by a required value, and what is reported. -/
def become (path key : Text) (value : Json) : Option Json → Json × List Text
  | none => (value, [joined path key])
  | some existing =>
      if value.isObject = true ∧ (validateJson (joined path key) existing value).2 ≠ [] then
        validateJson (joined path key) existing value
      else (existing, [])

/-- Each object has each key once, as a map does. -/
def Keyed (value : Json) : Prop :=
  ∀ path members, getSegments value path = some (.object members) → (members.map Prod.fst).Nodup

/-- A tree of maps. -/
structure Document where
  value : Json
  keyed : Keyed value

/-- Where the tree requires an empty object, the file has no other value. -/
def NoEmptyConflict (json required : Json) : Prop :=
  ∀ p, getSegments required p = some (.object []) → ∀ value, getSegments json p = some value → value.isObject = true

section Validation

variable {path key : Text} {json required value : Json} {jsonObj requiredObj : Members} {p : List Text}

theorem become_some {existing : Json}
    (h : ¬ (value.isObject = true ∧ (validateJson (joined path key) existing value).2 ≠ [])) :
    become path key value (some existing) = (existing, []) := if_neg h

theorem become_sub {existing : Json} (hobject : value.isObject = true)
    (hsub : (validateJson (joined path key) existing value).2 ≠ []) :
    become path key value (some existing) = validateJson (joined path key) existing value := if_pos ⟨hobject, hsub⟩

/-- A required member changes no other, and nothing if it reports nothing. -/
theorem validateMembers_cons (path key : Text) (value : Json) (jsonObj rest : Members) :
    ∃ jsonObj', validateMembers path jsonObj ((key, value) :: rest) =
        ((validateMembers path jsonObj' rest).1,
          (become path key value (getMember jsonObj key)).2 ++ (validateMembers path jsonObj' rest).2) ∧
      (∀ other, getMember jsonObj' other =
        if other = key then some (become path key value (getMember jsonObj key)).1 else getMember jsonObj other) ∧
      ((become path key value (getMember jsonObj key)).2 = [] → jsonObj' = jsonObj) := by
  rw [validateMembers]
  cases hmember : getMember jsonObj key with
  | none =>
      refine ⟨insertMember jsonObj key value, rfl, fun other => ?_, fun h => absurd h (List.cons_ne_nil _ _)⟩
      exact getMember_insertMember jsonObj key value other
  | some existing =>
      have hsame (other : Text) :
          getMember jsonObj other = if other = key then some existing else getMember jsonObj other := by
        split
        · next heq => rw [heq, hmember]
        · rfl
      by_cases hobject : value.isObject = true
      · by_cases hsub : (validateJson (joined path key) existing value).2 = []
        · rw [become_some fun h => h.2 hsub]
          refine ⟨jsonObj, ?_, hsame, fun _ => rfl⟩
          simp only [hobject, hsub, if_true, List.isEmpty_nil]
        · rw [become_sub hobject hsub]
          refine ⟨insertMember jsonObj key (validateJson (joined path key) existing value).1, ?_, fun other => ?_,
            fun h => absurd h hsub⟩
          · simp only [hobject, if_true, List.isEmpty_iff, hsub, if_false]
          · exact getMember_insertMember jsonObj key _ other
      · rw [become_some fun h => hobject h.1]
        refine ⟨jsonObj, ?_, hsame, fun _ => rfl⟩
        simp only [Bool.eq_false_iff.mpr hobject, Bool.false_eq_true, if_false, Bool.false_and]

/-- The members of a result. -/
theorem getMember_validateMembers (h : (requiredObj.map Prod.fst).Nodup) (path : Text) (jsonObj : Members) (key : Text) :
    getMember (validateMembers path jsonObj requiredObj).1 key =
      match getMember requiredObj key with
      | some value => some (become path key value (getMember jsonObj key)).1
      | none => getMember jsonObj key := by
  induction requiredObj generalizing jsonObj with
  | nil => rfl
  | cons m rest ih =>
      obtain ⟨key', value⟩ := m
      obtain ⟨hkey', hrest⟩ := List.nodup_cons.mp h
      obtain ⟨jsonObj', heq, hmembers, -⟩ := validateMembers_cons path key' value jsonObj rest
      rw [heq, ih hrest, hmembers, getMember_cons]
      by_cases hkey : key = key'
      · subst hkey
        rw [getMember_eq_none.mpr hkey', if_pos rfl, if_pos rfl]
      · rw [if_neg hkey, if_neg (Ne.symm hkey)]

/-- What is reported of each required member. -/
theorem validateMembers_missing (h : (requiredObj.map Prod.fst).Nodup) (path : Text) (jsonObj : Members) :
    (validateMembers path jsonObj requiredObj).2 =
      requiredObj.flatMap fun m => (become path m.1 m.2 (getMember jsonObj m.1)).2 := by
  induction requiredObj generalizing jsonObj with
  | nil => rfl
  | cons m rest ih =>
      obtain ⟨key, value⟩ := m
      obtain ⟨hkey, hrest⟩ := List.nodup_cons.mp h
      obtain ⟨jsonObj', heq, hmembers, -⟩ := validateMembers_cons path key value jsonObj rest
      have hothers : ∀ m ∈ rest, getMember jsonObj' m.1 = getMember jsonObj m.1 := fun m hm => by
        rw [hmembers, if_neg]
        exact fun hsame => hkey (List.mem_map.mpr ⟨m, hm, hsame⟩)
      have hlater : (rest.flatMap fun m => (become path m.1 m.2 (getMember jsonObj' m.1)).2) =
          rest.flatMap fun m => (become path m.1 m.2 (getMember jsonObj m.1)).2 :=
        List.flatMap_congr fun m hm => by rw [hothers m hm]
      rw [heq, ih hrest, List.flatMap_cons, hlater]

/-- A walk that reports nothing changes nothing. -/
theorem validateMembers_eq_self (h : (validateMembers path jsonObj requiredObj).2 = []) :
    (validateMembers path jsonObj requiredObj).1 = jsonObj := by
  induction requiredObj generalizing jsonObj with
  | nil => rfl
  | cons m rest ih =>
      obtain ⟨key, value⟩ := m
      obtain ⟨jsonObj', heq, -, hkept⟩ := validateMembers_cons path key value jsonObj rest
      rw [heq] at h ⊢
      obtain ⟨hone, hrest⟩ := List.append_eq_nil_iff.mp h
      have hsame := ih hrest
      rw [hkept hone] at hsame ⊢
      exact hsame

/-! ### What a result is -/

theorem asObject_eq (h : json.isObject = true) : json = .object (json.asObject.getD []) := by
  cases json with
  | object members => rfl
  | null | bool b | number literal | string text | array items => cases h

theorem isObject_validateJson (path : Text) (json : Json) (h : required.isObject = true) :
    (validateJson path json required).1.isObject = true := by
  cases required with
  | object members => rfl
  | null | bool b | number literal | string text | array items => cases h

theorem validateJson_of_not_object (path : Text) (json : Json) (h : ¬ required.isObject = true) :
    validateJson path json required = (json, []) := by
  cases required with
  | object members => exact absurd rfl h
  | null | bool b | number literal | string text | array items => rfl

/-- Without a report an object is unchanged. -/
theorem validateJson_eq_self (hjson : json.isObject = true) (h : (validateJson path json required).2 = []) :
    (validateJson path json required).1 = json := by
  cases required with
  | object members =>
      have hsame : (validateMembers path (json.asObject.getD []) members).1 = json.asObject.getD [] :=
        validateMembers_eq_self h
      rw [asObject_eq hjson]
      exact congrArg Json.object hsame
  | null | bool b | number literal | string text | array items => rfl

/-- Only for an empty object can it be that something else is replaced without a report. -/
theorem requiredObj_eq_nil (hjson : ¬ json.isObject = true) (h : (validateJson path json (.object requiredObj)).2 = []) :
    requiredObj = [] := by
  cases requiredObj with
  | nil => rfl
  | cons m rest =>
      obtain ⟨key, value⟩ := m
      have hempty : json.asObject.getD [] = [] := by
        cases hobj : json.asObject with
        | none => rfl
        | some members => exact absurd (by rw [Json.isObject, hobj]; rfl) hjson
      rw [validateJson, hempty] at h
      obtain ⟨jsonObj', heq, -, -⟩ := validateMembers_cons path key value [] rest
      rw [heq] at h
      exact absurd (List.append_eq_nil_iff.mp h).1 (List.cons_ne_nil _ _)

theorem Keyed.member (h : Keyed (.object requiredObj)) (hmember : getMember requiredObj key = some value) :
    Keyed value := by
  intro p members hat
  refine h (key :: p) members ?_
  rw [getSegments_object, hmember]
  exact hat

theorem getSegments_validateJson (h : Keyed (.object requiredObj)) (hvalue : getMember requiredObj key = some value)
    (path : Text) (json : Json) (p : List Text) :
    getSegments (validateJson path json (.object requiredObj)).1 (key :: p) =
      getSegments (become path key value (getMember (json.asObject.getD []) key)).1 p := by
  rw [validateJson, getSegments_object, getMember_validateMembers (h [] requiredObj rfl), hvalue]
  rfl

/-- What the tree says nothing of stays, and so does what stands in place of an empty object. -/
theorem validateJson_keeps {found : Json} (hkeyed : Keyed required) (hat : getSegments json p = some found)
    (hp : p ≠ []) (hrequired : ∀ members, getSegments required p = some (.object members) → members = []) :
    getSegments (validateJson path json required).1 p = some found := by
  induction p generalizing path json required with
  | nil => exact absurd rfl hp
  | cons key p ih =>
      obtain ⟨obj, existing, rfl, hexisting, hrest⟩ := getSegments_cons hat
      by_cases hobject : required.isObject = true
      · rw [asObject_eq hobject] at hkeyed hrequired ⊢
        cases hvalue : getMember (required.asObject.getD []) key with
        | none =>
            rw [validateJson, getSegments_object, getMember_validateMembers (hkeyed [] _ rfl), hvalue]
            exact hat
        | some value =>
            have hinner (q : List Text) : getSegments (.object (required.asObject.getD [])) (key :: q) =
                getSegments value q := by rw [getSegments_object, hvalue, Option.bind_some]
            have hfound : getMember ((Json.object obj).asObject.getD []) key = some existing := hexisting
            rw [getSegments_validateJson hkeyed hvalue, hfound]
            by_cases hsub : value.isObject = true ∧ (validateJson (joined path key) existing value).2 ≠ []
            · rw [become_sub hsub.1 hsub.2]
              cases p with
              | nil =>
                  have hfound := (hinner []).trans (congrArg some (asObject_eq hsub.1))
                  have hempty := hrequired (value.asObject.getD []) hfound
                  rw [asObject_eq hsub.1, hempty] at hsub
                  exact absurd rfl hsub.2
              | cons next p =>
                  apply ih (hkeyed.member hvalue) hrest (List.cons_ne_nil _ _)
                  intro members hmembers
                  exact hrequired members ((hinner _).trans hmembers)
            · rw [become_some hsub]
              exact hrest
      · rw [validateJson_of_not_object path _ hobject]
        exact hat

theorem NoEmptyConflict.child {existing value : Json} (h : NoEmptyConflict json (.object requiredObj))
    (hvalue : getMember requiredObj key = some value)
    (hexisting : getMember (json.asObject.getD []) key = some existing) : NoEmptyConflict existing value := by
  intro p hp result hresult
  refine h (key :: p) ?_ result ?_
  · rw [getSegments_object, hvalue]
    exact hp
  · cases json with
    | object obj =>
        have hmember : getMember obj key = some existing := hexisting
        rw [getSegments_object, hmember]
        exact hresult
    | null | bool b | number literal | string text | array items => cases hexisting

/-- What is required is there, as an object where an object is. -/
theorem validateJson_complete {found : Json} (hkeyed : Keyed required) (hconflict : NoEmptyConflict json required)
    (hat : getSegments required p = some found) :
    ∃ result, getSegments (validateJson path json required).1 p = some result ∧
      (found.isObject = true → result.isObject = true) := by
  induction p generalizing path json required with
  | nil =>
      cases hat
      exact ⟨_, rfl, isObject_validateJson path json⟩
  | cons key p ih =>
      obtain ⟨requiredObj, value, rfl, hvalue, hrest⟩ := getSegments_cons hat
      rw [getSegments_validateJson hkeyed hvalue]
      cases hexisting : getMember (json.asObject.getD []) key with
      | none => exact ⟨found, hrest, id⟩
      | some existing =>
          have hchild := hconflict.child hvalue hexisting
          by_cases hsub : value.isObject = true ∧ (validateJson (joined path key) existing value).2 ≠ []
          · rw [become_sub hsub.1 hsub.2]
            exact ih (hkeyed.member hvalue) hchild hrest
          · rw [become_some hsub]
            by_cases hobject : value.isObject = true
            · have hnone : (validateJson (joined path key) existing value).2 = [] :=
                not_not.mp fun hne => hsub ⟨hobject, hne⟩
              -- a member that reports nothing is an object, or an empty object is required of it
              have hexistingObject : existing.isObject = true := by
                by_contra hnot
                rw [asObject_eq hobject] at hnone
                have hempty := requiredObj_eq_nil hnot hnone
                exact hnot (hchild [] (congrArg some ((asObject_eq hobject).trans (congrArg _ hempty))) existing rfl)
              obtain ⟨result, hresult, hsame⟩ := ih (hkeyed.member hvalue) hchild hrest
              rw [validateJson_eq_self hexistingObject hnone] at hresult
              exact ⟨result, hresult, hsame⟩
            · cases p with
              | nil =>
                  cases hrest
                  exact ⟨existing, rfl, fun h => absurd h hobject⟩
              | cons next p =>
                  obtain ⟨map, -, rfl, -, -⟩ := getSegments_cons hrest
                  exact absurd rfl hobject

/-! ### Once more -/

theorem validateJson_missing (hkeyed : Keyed (.object requiredObj)) (path : Text) (json : Json) :
    (validateJson path json (.object requiredObj)).2 =
      requiredObj.flatMap fun m => (become path m.1 m.2 (getMember (json.asObject.getD []) m.1)).2 :=
  validateMembers_missing (hkeyed [] requiredObj rfl) path _

/-- A tree has all that it requires. -/
theorem validateJson_itself (hkeyed : Keyed required) (path : Text) : (validateJson path required required).2 = [] := by
  induction required using object_induction generalizing path with
  | h required ih =>
      by_cases hobject : required.isObject = true
      · obtain ⟨requiredObj, rfl⟩ : ∃ members, required = .object members := ⟨_, asObject_eq hobject⟩
        rw [validateJson_missing hkeyed, List.flatMap_eq_nil_iff]
        rintro ⟨key, value⟩ hm
        have hvalue := getMember_of_mem (hkeyed [] requiredObj rfl) hm
        have hmember : getMember ((Json.object requiredObj).asObject.getD []) key = some value := hvalue
        rw [hmember, become_some]
        intro hsub
        exact hsub.2 (ih requiredObj rfl (key, value) hm (hkeyed.member hvalue) (joined path key))
      · rw [validateJson_of_not_object path _ hobject]

/-- A completed value has nothing missing. -/
theorem validateJson_again (hkeyed : Keyed required) (path : Text) (json : Json) :
    (validateJson path (validateJson path json required).1 required).2 = [] := by
  induction required using object_induction generalizing path json with
  | h required ih =>
      by_cases hobject : required.isObject = true
      · obtain ⟨requiredObj, rfl⟩ : ∃ members, required = .object members := ⟨_, asObject_eq hobject⟩
        rw [validateJson_missing hkeyed, List.flatMap_eq_nil_iff]
        rintro ⟨key, value⟩ hm
        have hvalue := getMember_of_mem (hkeyed [] requiredObj rfl) hm
        have hmember : getMember ((validateJson path json (.object requiredObj)).1.asObject.getD []) key =
            some (become path key value (getMember (json.asObject.getD []) key)).1 := by
          have hresult := getMember_validateMembers (hkeyed [] requiredObj rfl) path (json.asObject.getD []) key
          rw [hvalue] at hresult
          exact hresult
        rw [hmember]
        cases getMember (json.asObject.getD []) key with
        | none =>
            rw [become, become_some]
            intro hsub
            exact hsub.2 (validateJson_itself (hkeyed.member hvalue) (joined path key))
        | some existing =>
            by_cases hsub : value.isObject = true ∧ (validateJson (joined path key) existing value).2 ≠ []
            · rw [become_sub hsub.1 hsub.2, become_some]
              intro hagain
              exact hagain.2 (ih requiredObj rfl (key, value) hm (hkeyed.member hvalue) (joined path key) existing)
            · rw [become_some hsub, become_some hsub]
      · rw [validateJson_of_not_object path _ hobject, validateJson_of_not_object path _ hobject]

end Validation

/-- The file is completed, and only completed. -/
structure Completes (path : Text) (json required : Json) : Prop where
  complete : ∀ p found, getSegments required p = some found →
    ∃ result, getSegments (validateJson path json required).1 p = some result ∧
      (found.isObject = true → result.isObject = true)
  kept : ∀ p found, getSegments json p = some found → (∀ members, getSegments required p ≠ some (.object members)) →
    getSegments (validateJson path json required).1 p = some found
  reported : (validateJson path json required).2 = [] → (validateJson path json required).1 = json
  again : validateJson path (validateJson path json required).1 required = ((validateJson path json required).1, [])

section Main

variable {path : Text} {json required : Json}

theorem validateJson_kept {p : List Text} {found : Json} (hkeyed : Keyed required) (hat : getSegments json p = some found)
    (hrequired : ∀ members, getSegments required p ≠ some (.object members)) :
    getSegments (validateJson path json required).1 p = some found := by
  cases p with
  | nil =>
      have hobject : ¬ required.isObject = true := fun h => hrequired _ (congrArg some (asObject_eq h))
      rw [validateJson_of_not_object path json hobject]
      exact hat
  | cons key p =>
      exact validateJson_keeps hkeyed hat (List.cons_ne_nil _ _) fun members h => absurd h (hrequired members)

theorem completes_of_noEmptyConflict (hkeyed : Keyed required) (h : NoEmptyConflict json required) :
    Completes path json required where
  complete _ _ hat := validateJson_complete hkeyed h hat
  kept _ _ hat hrequired := validateJson_kept hkeyed hat hrequired
  reported hnone := by
    by_cases hjson : json.isObject = true
    · exact validateJson_eq_self hjson hnone
    · by_cases hobject : required.isObject = true
      · rw [asObject_eq hobject] at hnone h
        rw [requiredObj_eq_nil hjson hnone] at h
        exact absurd (h [] rfl json rfl) hjson
      · rw [validateJson_of_not_object path json hobject]
  again := by
    have hnone := validateJson_again hkeyed path json
    by_cases hobject : required.isObject = true
    · exact Prod.ext (validateJson_eq_self (isObject_validateJson path json hobject) hnone) hnone
    · rw [validateJson_of_not_object path json hobject, validateJson_of_not_object path json hobject]

theorem Completes.noEmptyConflict (hkeyed : Keyed required) (h : Completes path json required) :
    NoEmptyConflict json required := by
  intro p hrequired found hat
  cases p with
  | nil =>
      cases hrequired
      cases hat
      have hsame := h.reported rfl
      rw [← hsame]
      rfl
  | cons key p =>
      have hempty : ∀ members, getSegments required (key :: p) = some (.object members) → members = [] := by
        intro members hmembers
        rw [hrequired] at hmembers
        cases hmembers
        rfl
      have hkept : getSegments (validateJson path json required).1 (key :: p) = _ :=
        validateJson_keeps hkeyed hat (List.cons_ne_nil _ _) hempty
      obtain ⟨result, hresult, hobject⟩ := h.complete _ _ hrequired
      cases hkept.symm.trans hresult
      exact hobject rfl

end Main

/-- Exactly where the file has no other value in place of an empty object that is required. -/
theorem validateJson_completes_iff (path : Text) (json : Json) (required : Document) :
    Completes path json required.value ↔ NoEmptyConflict json required.value :=
  ⟨fun h => h.noEmptyConflict required.keyed, fun h => completes_of_noEmptyConflict required.keyed h⟩

/-- A number where an empty object is required. -/
def numberFile : Json := .object [("sounds".toList, .number "5".toList)]

def emptyRequired : Document where
  value := .object [("sounds".toList, .object [])]
  keyed path members h := by
    cases path with
    | nil =>
        cases h
        exact List.nodup_singleton _
    | cons key path =>
        obtain ⟨map, current, hmap, hcurrent, hrest⟩ := getSegments_cons h
        cases hmap
        rw [getMember_cons] at hcurrent
        split at hcurrent
        · cases hcurrent
          cases path with
          | nil =>
              cases hrest
              exact List.nodup_nil
          | cons next path => cases hrest
        · cases hcurrent

theorem validateJson_leaves_number : ¬ Completes [] numberFile emptyRequired.value := by
  intro h
  obtain ⟨result, hresult, hobject⟩ := h.complete ["sounds".toList] (.object []) rfl
  have hnumber : getSegments (validateJson [] numberFile emptyRequired.value).1 ["sounds".toList] =
      some (.number "5".toList) := rfl
  cases hnumber.symm.trans hresult
  exact absurd (hobject rfl) Bool.false_ne_true

end Quantframe.Utils
