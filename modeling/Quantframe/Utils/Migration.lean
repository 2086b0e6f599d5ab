import Mathlib.Tactic.Push
import Quantframe.Lib.Log
import Quantframe.Utils.Objects

/-!
# Migrated settings

Values of an old file are extracted by path into a tree of their own, which is then merged over the file member by
member: one level deep.
-/

namespace Quantframe.Utils

open Lib
open LogParser (Text)

/-- `set_json_value`, with an object for each segment that is missing; none is its panic. -/
def setSegments (value : Json) : Json → List Text → Option Json
  | root, [] => some root
  | .object map, [segment] => some (.object (insertMember map segment value))
  | root, [_] => some root
  | .object map, segment :: segments =>
      (setSegments value ((getMember map segment).getD (.object [])) segments).map fun child =>
        .object (insertMember map segment child)
  | _, _ :: _ :: _ => none

def setJsonValue (root : Json) (path : Text) (value : Json) : Option Json := setSegments value root (segmentsOf path)

/-- Source paths with their target paths, in the order in which they are gone through. -/
abbrev Mapping := List (Text × Text)

def extractOne (object : Json) (result : Json) (entry : Text × Text) : Option Json :=
  match getJsonValue object entry.1 with
  | some value => setJsonValue result entry.2 value
  | none => some result

def extractJsonValues (object : Json) (mapping : Mapping) : Option Json :=
  mapping.foldlM (extractOne object) (.object [])

def mergeJson (target source : Json) : Json :=
  match target, source with
  | .object targetMap, .object sourceMap =>
      .object (sourceMap.foldl (fun map m => insertMember map m.1 m.2) targetMap)
  | _, _ => source

/-! ### Paths -/

/-- Neither path leads through the end of the other. -/
def Apart (p q : List Text) : Prop := ¬ p <+: q ∧ ¬ q <+: p

instance (p q : List Text) : Decidable (Apart p q) := inferInstanceAs (Decidable (_ ∧ _))

theorem Apart.symm {p q : List Text} (h : Apart p q) : Apart q p := ⟨h.2, h.1⟩

theorem apart_cons {segment : Text} {p q : List Text} : Apart (segment :: p) (segment :: q) ↔ Apart p q := by
  simp only [Apart, List.prefix_cons_inj]

section Paths

variable {root root' value : Json} {map : Members} {segment : Text} {path other : List Text}

theorem getSegments_empty (hpath : path ≠ []) : getSegments (.object []) path = none := by
  cases path with
  | nil => exact absurd rfl hpath
  | cons segment path => rfl

/-- Where a value is set among objects. -/
structure SetAt (value : Json) (path : List Text) (root root' : Json) : Prop where
  value : getSegments root' path = some value
  apart : ∀ other, Apart other path → getSegments root' other = getSegments root other
  above : ∀ other, other <+: path → other ≠ path → ∃ map, getSegments root' other = some (.object map)

/-- A path of which nothing above its end is anything but an object. -/
def Open (root : Json) (path : List Text) : Prop :=
  ∀ other, other <+: path → other ≠ path → ∀ value, getSegments root other = some value → value.isObject = true

theorem Open.object (h : Open root (segment :: path)) : ∃ map, root = .object map := by
  have hroot := h [] List.nil_prefix (List.cons_ne_nil _ _).symm root rfl
  cases root with
  | object map => exact ⟨map, rfl⟩
  | null | bool b | number literal | string text | array items => cases hroot

theorem Open.child (h : Open (.object map) (segment :: path)) :
    Open ((getMember map segment).getD (.object [])) path := by
  intro other hprefix hne value hvalue
  cases hmember : getMember map segment with
  | none =>
      rw [hmember, Option.getD_none] at hvalue
      cases other with
      | nil =>
          cases hvalue
          rfl
      | cons first other => cases hvalue
  | some child =>
      rw [hmember, Option.getD_some] at hvalue
      refine h (segment :: other) ((List.prefix_cons_inj _).mpr hprefix) (fun heq => hne (List.cons.inj heq).2) value ?_
      rw [getSegments_object, hmember]
      exact hvalue

theorem setSegments_cons {next : Text}
    (hset : setSegments value ((getMember map segment).getD (.object [])) (next :: path) = some root') :
    setSegments value (.object map) (segment :: next :: path) =
      some (.object (insertMember map segment root')) := by
  rw [setSegments, hset, Option.map_some]
  simp

theorem getSegments_insertMember {current : Json} :
    getSegments (.object (insertMember map segment current)) (segment :: path) = getSegments current path := by
  rw [getSegments_object, getMember_insertMember, if_pos rfl, Option.bind_some]

theorem getSegments_insertMember_ne {current : Json} {first : Text} (h : first ≠ segment) :
    getSegments (.object (insertMember map segment current)) (first :: path) =
      getSegments (.object map) (first :: path) := by
  rw [getSegments_object, getMember_insertMember, if_neg h, getSegments_object]

theorem setAt_single (map : Members) (segment : Text) (value : Json) :
    SetAt value [segment] (.object map) (.object (insertMember map segment value)) where
  value := getSegments_insertMember
  apart other hapart := by
    cases other with
    | nil => exact absurd List.nil_prefix hapart.1
    | cons first other =>
        refine getSegments_insertMember_ne fun heq => hapart.2 ?_
        subst heq
        exact List.prefix_append [first] other
  above other hprefix hne := by
    cases other with
    | nil => exact ⟨_, rfl⟩
    | cons first other =>
        obtain ⟨rfl, hrest⟩ := List.cons_prefix_cons.mp hprefix
        rw [List.prefix_nil.mp hrest] at hne
        exact absurd rfl hne

theorem SetAt.cons {child : Json} (h : SetAt value path ((getMember map segment).getD (.object [])) child) :
    SetAt value (segment :: path) (.object map) (.object (insertMember map segment child)) where
  value := getSegments_insertMember.trans h.value
  apart other hapart := by
    cases other with
    | nil => exact absurd List.nil_prefix hapart.1
    | cons first other =>
        by_cases heq : first = segment
        · subst heq
          have hother := apart_cons.mp hapart
          rw [getSegments_insertMember, h.apart other hother, getSegments_object]
          cases hmember : getMember map first with
          | none => exact getSegments_empty fun hnil => hother.1 (hnil ▸ List.nil_prefix)
          | some found => rfl
        · exact getSegments_insertMember_ne heq
  above other hprefix hne := by
    cases other with
    | nil => exact ⟨_, rfl⟩
    | cons first other =>
        obtain ⟨rfl, hrest⟩ := List.cons_prefix_cons.mp hprefix
        rw [getSegments_insertMember]
        exact h.above other hrest fun heq => hne (congrArg _ heq)

/-- An open path can be set. -/
theorem setSegments_of_open (value : Json) (hopen : Open root path) (hpath : path ≠ []) :
    ∃ root', setSegments value root path = some root' ∧ SetAt value path root root' := by
  induction path generalizing root with
  | nil => exact absurd rfl hpath
  | cons segment path ih =>
      obtain ⟨map, rfl⟩ := hopen.object
      cases path with
      | nil => exact ⟨_, rfl, setAt_single map segment value⟩
      | cons next path =>
          obtain ⟨child, hset, hat⟩ := ih hopen.child (List.cons_ne_nil _ _)
          exact ⟨_, setSegments_cons hset, hat.cons⟩

theorem keys_nodup_setSegments (h : setSegments value (.object map) path = some root')
    (hnodup : (map.map Prod.fst).Nodup) : ∃ map', root' = .object map' ∧ (map'.map Prod.fst).Nodup := by
  cases path with
  | nil =>
      cases h
      exact ⟨map, rfl, hnodup⟩
  | cons segment path =>
      cases path with
      | nil =>
          cases h
          exact ⟨_, rfl, insertMember_keys_nodup hnodup segment value⟩
      | cons next path =>
          rw [setSegments] at h
          · obtain ⟨child, -, rfl⟩ := Option.map_eq_some_iff.mp h
            exact ⟨_, rfl, insertMember_keys_nodup hnodup segment child⟩
          · exact List.cons_ne_nil _ _

end Paths

/-! ### Extraction -/

/-- A tree that holds the entries and nothing besides. -/
structure Holds (entries : List (List Text × Json)) (root : Json) : Prop where
  keys : ∃ map, root = .object map ∧ (map.map Prod.fst).Nodup
  values : ∀ e ∈ entries, getSegments root e.1 = some e.2
  above : ∀ e ∈ entries, ∀ path, path <+: e.1 → path ≠ e.1 → ∃ map, getSegments root path = some (.object map)
  only : ∀ path, path ≠ [] → (∀ e ∈ entries, Apart path e.1) → getSegments root path = none

section Extraction

variable {entries : List (List Text × Json)} {root file : Json} {path : List Text} {value : Json} {mapping : Mapping}

theorem holds_nil : Holds [] (.object []) where
  keys := ⟨[], rfl, List.nodup_nil⟩
  values _ he := absurd he List.not_mem_nil
  above _ he := absurd he List.not_mem_nil
  only _ hpath _ := getSegments_empty hpath

/-- A path apart from all entries is open. -/
theorem Holds.isOpen (h : Holds entries root) (hapart : ∀ e ∈ entries, Apart path e.1) : Open root path := by
  intro other hprefix hne value hvalue
  by_cases hall : ∀ e ∈ entries, Apart other e.1
  · by_cases hother : other = []
    · obtain ⟨map, hmap, -⟩ := h.keys
      subst hother
      cases hvalue
      rw [hmap]
      rfl
    · rw [h.only other hother hall] at hvalue
      cases hvalue
  · push Not at hall
    obtain ⟨e, he, hnot⟩ := hall
    have habove : other <+: e.1 ∧ other ≠ e.1 := by
      by_cases hprefix' : other <+: e.1
      · exact ⟨hprefix', fun heq => (hapart e he).2 (heq ▸ hprefix)⟩
      · have hback : e.1 <+: other := not_not.mp fun hback => hnot ⟨hprefix', hback⟩
        exact absurd (hback.trans hprefix) (hapart e he).2
    obtain ⟨map, hmap⟩ := h.above e he other habove.1 habove.2
    rw [hmap] at hvalue
    cases hvalue
    rfl

theorem Holds.concat (h : Holds entries root) (hpath : path ≠ []) (hapart : ∀ e ∈ entries, Apart path e.1)
    (value : Json) : ∃ root', setSegments value root path = some root' ∧ Holds (entries ++ [(path, value)]) root' := by
  obtain ⟨root', hset, hat⟩ := setSegments_of_open value (h.isOpen hapart) hpath
  obtain ⟨map, rfl, hnodup⟩ := h.keys
  refine ⟨root', hset, keys_nodup_setSegments hset hnodup, ?_, ?_, ?_⟩
  · refine forall_concat ?_ hat.value
    intro e he
    rw [hat.apart e.1 (hapart e he).symm]
    exact h.values e he
  · refine forall_concat ?_ hat.above
    intro e he other hprefix hne
    by_cases hother : Apart other path
    · rw [hat.apart other hother]
      exact h.above e he other hprefix hne
    · by_cases hbelow : other <+: path
      · exact hat.above other hbelow fun heq => (hapart e he).1 (heq ▸ hprefix)
      · have hback : path <+: other := not_not.mp fun hback => hother ⟨hbelow, hback⟩
        exact absurd (hback.trans hprefix) (hapart e he).1
  · intro other hother hall
    rw [List.forall_mem_append, List.forall_mem_singleton] at hall
    rw [hat.apart other hall.2]
    exact h.only other hother hall.1

/-- The entries that a mapping finds in a file. -/
def entriesOf (file : Json) (mapping : Mapping) : List (List Text × Json) :=
  mapping.filterMap fun entry => (getJsonValue file entry.1).map fun value => (segmentsOf entry.2, value)

/-- Each target lies apart from the others. -/
def Separate (mapping : Mapping) : Prop :=
  (mapping.map fun entry => segmentsOf entry.2).Pairwise Apart ∧ ∀ entry ∈ mapping, segmentsOf entry.2 ≠ []

theorem foldlM_extractOne (h : Holds entries root) (hmapping : Separate mapping)
    (hentries : ∀ entry ∈ mapping, ∀ e ∈ entries, Apart (segmentsOf entry.2) e.1) :
    ∃ root', mapping.foldlM (extractOne file) root = some root' ∧ Holds (entries ++ entriesOf file mapping) root' := by
  induction mapping generalizing entries root with
  | nil => exact ⟨root, rfl, by rwa [entriesOf, List.filterMap_nil, List.append_nil]⟩
  | cons entry mapping ih =>
      obtain ⟨hpairwise, hne⟩ := hmapping
      rw [List.map_cons, List.pairwise_cons] at hpairwise
      have hrest : Separate mapping := ⟨hpairwise.2, fun e he => hne e (List.mem_cons_of_mem _ he)⟩
      rw [List.foldlM_cons, entriesOf, List.filterMap_cons]
      cases hvalue : getJsonValue file entry.1 with
      | none =>
          have hone : extractOne file root entry = some root := by rw [extractOne, hvalue]
          rw [hone]
          exact ih h hrest fun e he => hentries e (List.mem_cons_of_mem _ he)
      | some value =>
          obtain ⟨root', hset, hholds⟩ :=
            h.concat (hne entry List.mem_cons_self) (hentries entry List.mem_cons_self) value
          have hlater : ∀ e ∈ mapping, ∀ e' ∈ entries ++ [(segmentsOf entry.2, value)],
              Apart (segmentsOf e.2) e'.1 := by
            intro e he
            refine forall_concat (hentries e (List.mem_cons_of_mem _ he)) ?_
            exact (hpairwise.1 _ (List.mem_map_of_mem he)).symm
          have hone : extractOne file root entry = some root' := by
            rw [extractOne, hvalue]
            exact hset
          obtain ⟨last, hlast, hall⟩ := ih hholds hrest hlater
          rw [List.append_assoc] at hall
          rw [hone]
          exact ⟨last, hlast, hall⟩

/-- Where the targets lie apart, extraction goes through, and finds just the values of the sources. -/
theorem extractJsonValues_holds (file : Json) (h : Separate mapping) :
    ∃ result, extractJsonValues file mapping = some result ∧ Holds (entriesOf file mapping) result :=
  foldlM_extractOne holds_nil h fun _ _ _ he => absurd he List.not_mem_nil

end Extraction

/-! ### The merge -/

section Merge

variable {target source : Members} {key : Text} {path : List Text} {segment : Text}

theorem getMember_foldl_insertMember (h : (source.map Prod.fst).Nodup) (target : Members) (key : Text) :
    getMember (source.foldl (fun map m => insertMember map m.1 m.2) target) key =
      (getMember source key).or (getMember target key) := by
  induction source generalizing target with
  | nil => rfl
  | cons m source ih =>
      obtain ⟨hm, hsource⟩ := List.nodup_cons.mp h
      rw [List.foldl_cons, ih hsource, getMember_insertMember, getMember_cons]
      by_cases hkey : key = m.1
      · rw [if_pos hkey, if_pos hkey.symm, getMember_eq_none.mpr (hkey ▸ hm), Option.none_or, Option.some_or]
      · rw [if_neg hkey, if_neg (Ne.symm hkey)]

/-- One level deep: a member of the source hides all of the target under its key. -/
theorem getSegments_mergeJson (h : (source.map Prod.fst).Nodup) :
    getSegments (mergeJson (.object target) (.object source)) (segment :: path) =
      if (getMember source segment).isSome then getSegments (.object source) (segment :: path)
      else getSegments (.object target) (segment :: path) := by
  rw [mergeJson, getSegments_object, getMember_foldl_insertMember h, getSegments_object, getSegments_object]
  cases getMember source segment with
  | none => rfl
  | some current => rfl

end Merge

/-! ### The settings -/

/-- The paths of an old file and where their values live now. -/
def legacyMapping : Mapping :=
  [
    ("live_scraper.report_to_wfm".toList, "live_scraper.general.report_to_wfm".toList),
    ("live_scraper.auto_delete".toList, "live_scraper.general.auto_delete".toList),
    ("live_scraper.auto_trade".toList, "live_scraper.general.auto_trade".toList),
    ("live_scraper.stock_mode".toList, "live_scraper.general.stock_mode".toList),
    ("live_scraper.trade_modes".toList, "live_scraper.general.trade_modes".toList),
    ("live_scraper.should_delete_other_types".toList, "live_scraper.general.delete_conflicting_orders".toList),
    ("live_scraper.stock_item.blacklist".toList, "live_scraper.items.general.blacklist".toList),
    ("live_scraper.stock_item.buy_list".toList, "live_scraper.items.general.buy_list".toList),
    ("live_scraper.stock_item.volume_threshold".toList, "live_scraper.items.wtb.volume_threshold".toList),
    ("live_scraper.stock_item.profit_threshold".toList, "live_scraper.items.wtb.profit_threshold".toList),
    ("live_scraper.stock_item.avg_price_cap".toList, "live_scraper.items.wtb.avg_price_cap".toList),
    ("live_scraper.stock_item.trading_tax_cap".toList, "live_scraper.items.wtb.trading_tax_cap".toList),
    ("live_scraper.stock_item.max_total_price_cap".toList, "live_scraper.items.wtb.max_total_price_cap".toList),
    ("live_scraper.stock_item.price_shift_threshold".toList, "live_scraper.items.wtb.price_shift_threshold".toList),
    ("live_scraper.stock_item.buy_quantity".toList, "live_scraper.items.wtb.buy_quantity".toList),
    ("live_scraper.stock_item.min_wtb_profit_margin".toList, "live_scraper.items.wtb.min_wtb_profit_margin".toList),
    ("live_scraper.stock_item.quantity_per_trade".toList, "live_scraper.items.wtb.quantity_per_trade".toList),
    ("live_scraper.stock_item.max_stock_quantity".toList, "live_scraper.items.wtb.max_stock_quantity".toList),
    ("live_scraper.stock_item.min_sma".toList, "live_scraper.items.wts.min_sma".toList),
    ("live_scraper.stock_item.min_profit".toList, "live_scraper.items.wts.min_profit".toList)
  ]

/-- The file after the two steps of a load; the mapping is a hash map, gone through in some order. -/
def migrate (order : Mapping) (file : Json) : Option Json := (extractJsonValues file order).map (mergeJson file)

def liveScraper : Text := "live_scraper".toList

/-- The file holds a value at the old path. -/
def Held (file : Json) (entry : Text × Text) : Prop := (getJsonValue file entry.1).isSome = true

/-- The values at the old paths are at the new ones. -/
def Moved (file after : Json) : Prop :=
  ∀ entry ∈ legacyMapping, ∀ value, getJsonValue file entry.1 = some value → getJsonValue after entry.2 = some value

/-- A path that no moved value comes from or goes to. -/
def Untouched (file : Json) (path : List Text) : Prop :=
  ∀ entry ∈ legacyMapping, Held file entry → Apart path (segmentsOf entry.1) ∧ Apart path (segmentsOf entry.2)

structure LosesNothing (file after : Json) : Prop where
  moved : Moved file after
  kept : ∀ path value, getSegments file path = some value → Untouched file path → getSegments after path = some value

/-- Beside the moved values there is nothing in `live_scraper`. -/
def OnlyMoved (file : Json) : Prop :=
  ∀ path value, getSegments file (liveScraper :: path) = some value → ¬ Untouched file (liveScraper :: path)

section Settings

variable {order : Mapping} {file : Json} {entry : Text × Text} {path : List Text} {value : Json}

/-- The new paths lie apart, and all paths lie in `live_scraper`. -/
theorem legacyMapping_paths : Separate legacyMapping ∧ ∀ entry ∈ legacyMapping,
    (segmentsOf entry.1).head? = some liveScraper ∧ (segmentsOf entry.2).head? = some liveScraper := by
  unfold Separate legacyMapping liveScraper
  -- the characters are read off the literals, since to evaluate these is slow
  repeat rw [String.toList_ofList]
  decide +kernel

theorem Separate.perm (h : Separate legacyMapping) (horder : order.Perm legacyMapping) : Separate order :=
  ⟨((horder.map _).pairwise_iff fun h => Apart.symm h).mpr h.1, fun entry hentry => h.2 entry (horder.mem_iff.mp hentry)⟩

theorem exists_segmentsOf (h : entry ∈ legacyMapping) : ∃ path, segmentsOf entry.2 = liveScraper :: path :=
  ⟨_, (List.cons_head?_tail (legacyMapping_paths.2 entry h).2).symm⟩

theorem mem_entriesOf {e : List Text × Json} : e ∈ entriesOf file order ↔
    ∃ entry ∈ order, getJsonValue file entry.1 = some e.2 ∧ segmentsOf entry.2 = e.1 := by
  simp only [entriesOf, List.mem_filterMap, Option.map_eq_some_iff]
  constructor
  · rintro ⟨entry, hentry, value, hvalue, rfl⟩
    exact ⟨entry, hentry, hvalue, rfl⟩
  · rintro ⟨entry, hentry, hvalue, hpath⟩
    exact ⟨entry, hentry, e.2, hvalue, Prod.ext hpath rfl⟩

theorem object_of_held (hentry : entry ∈ legacyMapping) (hheld : Held file entry) : ∃ map, file = .object map := by
  have hhead := List.cons_head?_tail (legacyMapping_paths.2 entry hentry).1
  rw [Held, getJsonValue, ← hhead] at hheld
  cases file with
  | object map => exact ⟨map, rfl⟩
  | null | bool b | number literal | string text | array items => cases hheld

/-- Under `live_scraper` the file is replaced by what was extracted, and nothing else changes. -/
theorem migrate_eq (horder : order.Perm legacyMapping) (hheld : ∃ entry ∈ legacyMapping, Held file entry) :
    ∃ result after, Holds (entriesOf file order) result ∧ migrate order file = some after ∧
      ∀ segment path, getSegments after (segment :: path) =
        if segment = liveScraper then getSegments result (segment :: path) else getSegments file (segment :: path) := by
  obtain ⟨entry, hentry, hheld⟩ := hheld
  obtain ⟨map, rfl⟩ := object_of_held hentry hheld
  obtain ⟨result, hresult, hholds⟩ := extractJsonValues_holds (.object map) (legacyMapping_paths.1.perm horder)
  obtain ⟨extracted, rfl, hnodup⟩ := hholds.keys
  refine ⟨.object extracted, mergeJson (.object map) (.object extracted), hholds, by rw [migrate, hresult]; rfl, ?_⟩
  intro segment path
  rw [getSegments_mergeJson hnodup]
  by_cases hsegment : segment = liveScraper
  · subst hsegment
    obtain ⟨value, hvalue⟩ := Option.isSome_iff_exists.mp hheld
    obtain ⟨rest, hrest⟩ := exists_segmentsOf hentry
    have hat := hholds.values (segmentsOf entry.2, value)
      (mem_entriesOf.mpr ⟨entry, horder.mem_iff.mpr hentry, hvalue, rfl⟩)
    rw [hrest, getSegments_object] at hat
    obtain ⟨current, hcurrent, -⟩ := Option.bind_eq_some_iff.mp hat
    rw [hcurrent, Option.isSome_some, if_pos rfl, if_pos rfl]
  · have hnone := hholds.only [segment] (List.cons_ne_nil _ _) fun e he => by
      obtain ⟨other, hother, -, hpath⟩ := mem_entriesOf.mp he
      obtain ⟨rest, hrest⟩ := exists_segmentsOf (horder.mem_iff.mp hother)
      rw [← hpath, hrest]
      constructor
      · exact fun hprefix => hsegment (List.cons_prefix_cons.mp hprefix).1
      · exact fun hprefix => hsegment (List.cons_prefix_cons.mp hprefix).1.symm
    rw [getSegments_object] at hnone
    cases hmember : getMember extracted segment with
    | none => rw [if_neg hsegment]; rfl
    | some current =>
        rw [hmember] at hnone
        cases hnone

/-- Of the old `live_scraper` nothing stays but what was extracted. -/
theorem Holds.none_of_untouched {result : Json} (h : Holds (entriesOf file order) result)
    (horder : order.Perm legacyMapping) (hpath : path ≠ []) (hother : Untouched file path) :
    getSegments result path = none := by
  apply h.only path hpath
  intro e he
  obtain ⟨entry, hentry, hfound, hsegments⟩ := mem_entriesOf.mp he
  rw [← hsegments]
  exact (hother entry (horder.mem_iff.mp hentry) (Option.isSome_of_eq_some hfound)).2

/-- Every moved value arrives. Everything else the file holds is still there exactly where `live_scraper` holds nothing
but moved values. -/
theorem migrate_losesNothing_iff (horder : order.Perm legacyMapping)
    (hheld : ∃ entry ∈ legacyMapping, Held file entry) :
    ∃ after, migrate order file = some after ∧ Moved file after ∧ (LosesNothing file after ↔ OnlyMoved file) := by
  obtain ⟨result, after, hholds, hmigrate, hafter⟩ := migrate_eq horder hheld
  have hmoved : Moved file after := by
    intro entry hentry value hvalue
    obtain ⟨rest, hrest⟩ := exists_segmentsOf hentry
    have hat := hholds.values (segmentsOf entry.2, value)
      (mem_entriesOf.mpr ⟨entry, horder.mem_iff.mpr hentry, hvalue, rfl⟩)
    rw [getJsonValue, hrest, hafter, if_pos rfl, ← hrest]
    exact hat
  refine ⟨after, hmigrate, hmoved, ?_⟩
  constructor
  · intro h path value hvalue hother
    have hkept := h.kept _ value hvalue hother
    rw [hafter, if_pos rfl, hholds.none_of_untouched horder (List.cons_ne_nil _ _) hother] at hkept
    cases hkept
  · intro h
    refine ⟨hmoved, ?_⟩
    intro path value hvalue hother
    cases path with
    | nil =>
        obtain ⟨entry, hentry, hheld⟩ := hheld
        exact absurd List.nil_prefix (hother entry hentry hheld).1.1
    | cons segment path =>
        by_cases hsegment : segment = liveScraper
        · subst hsegment
          exact absurd hother (h path value hvalue)
        · rw [hafter, if_neg hsegment]
          exact hvalue

end Settings

/-- Only values that move, beside another member of the file. -/
def oldFile : Json :=
  .object [("dark_mode".toList, .bool true), (liveScraper, .object [("auto_trade".toList, .bool true)])]

/-- An old path beside a setting of the new layout. -/
def mixedFile : Json :=
  .object [(liveScraper, .object [("auto_trade".toList, .bool true),
    ("general".toList, .object [("price_source".toList, .string "closed".toList)])])]

def autoTrade : Text × Text := ("live_scraper.auto_trade".toList, "live_scraper.general.auto_trade".toList)

theorem autoTrade_mem : autoTrade ∈ legacyMapping :=
  List.mem_cons_of_mem _ (List.mem_cons_of_mem _ List.mem_cons_self)

theorem migrate_oldFile_moved : ∃ after, migrate legacyMapping oldFile = some after ∧ Moved oldFile after := by
  have hheld : ∃ entry ∈ legacyMapping, Held oldFile entry := ⟨autoTrade, autoTrade_mem, rfl⟩
  obtain ⟨after, hmigrate, hmoved, -⟩ := migrate_losesNothing_iff (List.Perm.refl legacyMapping) hheld
  exact ⟨after, hmigrate, hmoved⟩

/-- The setting that stands beside the old path is lost. -/
theorem migrate_mixedFile_loses :
    (∃ entry ∈ legacyMapping, Held mixedFile entry) ∧
      ∃ after, migrate legacyMapping mixedFile = some after ∧ ¬ LosesNothing mixedFile after := by
  have hheld : ∃ entry ∈ legacyMapping, Held mixedFile entry := ⟨autoTrade, autoTrade_mem, rfl⟩
  obtain ⟨result, after, hholds, hmigrate, hafter⟩ := migrate_eq (List.Perm.refl _) hheld
  refine ⟨hheld, after, hmigrate, ?_⟩
  intro h
  have hother : Untouched mixedFile [liveScraper, "general".toList, "price_source".toList] := by
    unfold Untouched Held mixedFile legacyMapping liveScraper
    repeat rw [String.toList_ofList]
    decide +kernel
  have hkept := h.kept [liveScraper, "general".toList, "price_source".toList] (.string "closed".toList) rfl hother
  rw [hafter, if_pos rfl, hholds.none_of_untouched (List.Perm.refl _) (List.cons_ne_nil _ _) hother] at hkept
  cases hkept

end Quantframe.Utils
