import Quantframe.LogParser.Written
import Quantframe.Trader.Blend
import Quantframe.Trader.Collect

/-!
# Sub-type keys

The collector writes a sub-type as a text, prices are filed under that text and the trader asks for it. What is filed
is the sub-type that the text decodes to.
-/

namespace Quantframe.Trader

open Lib LogParser
open Trades (SubType)

/-- One `name=value` part. -/
def readField (s : SubType) (name value : Text) : SubType :=
  if name = "rank".toList then { s with rank := parseI64 value }
  else if name = "charges".toList then { s with charges := parseI64 value }
  else if name = "subtype".toList then { s with variant := some (String.ofList value) }
  else if name = "amber".toList then { s with amberStars := parseI64 value }
  else if name = "cyan".toList then { s with cyanStars := parseI64 value }
  else s

def readPart (s : SubType) (part : Text) : SubType :=
  match splitOnce ['='] part with
  | some (name, value) => readField s name value
  | none => s

def subTypeFromKey (key : String) : Option SubType :=
  if key = "" then none
  else some ((splitBy (· == ';') key.toList).foldl readPart ⟨none, none, none, none, none⟩)

def hasField (s : SubType) : Bool :=
  s.rank.isSome || s.charges.isSome || s.variant.isSome || s.amberStars.isSome || s.cyanStars.isSome

/-- The numbers are `i64` and the variant has no semicolon. -/
structure Writable (s : SubType) : Prop where
  rank : ∀ n, s.rank = some n → i64Min ≤ n ∧ n ≤ i64Max
  charges : ∀ n, s.charges = some n → i64Min ≤ n ∧ n ≤ i64Max
  variant : ∀ v, s.variant = some v → ';' ∉ v.toList
  amberStars : ∀ n, s.amberStars = some n → i64Min ≤ n ∧ n ≤ i64Max
  cyanStars : ∀ n, s.cyanStars = some n → i64Min ≤ n ∧ n ≤ i64Max

/-! ### Texts -/

section Splitting

variable {p : Char → Bool} {piece rest : Text} {pieces : List Text} {c : Char}

theorem splitBy_ne_nil (text : Text) : splitBy p text ≠ [] := by
  cases text with
  | nil => exact List.cons_ne_nil _ _
  | cons c text =>
      rw [splitBy]
      split
      · split
        · exact List.cons_ne_nil _ _
        · exact List.cons_ne_nil _ _
      · exact List.cons_ne_nil _ _

theorem splitBy_append (hpiece : ∀ c ∈ piece, p c = false) (hc : p c = true) (rest : Text) :
    splitBy p (piece ++ c :: rest) = piece :: splitBy p rest := by
  induction piece with
  | nil =>
      rw [List.nil_append, splitBy]
      split
      · next hsplit => rw [if_pos hc, hsplit]
      · next hsplit => exact absurd hsplit (splitBy_ne_nil rest)
  | cons d piece ih =>
      have hd : p d = false := hpiece d List.mem_cons_self
      rw [List.cons_append, splitBy, ih fun c hmem => hpiece c (List.mem_cons_of_mem _ hmem)]
      simp [hd]

theorem splitBy_of_forall (hpiece : ∀ c ∈ piece, p c = false) : splitBy p piece = [piece] := by
  induction piece with
  | nil => rfl
  | cons d piece ih =>
      have hd : p d = false := hpiece d List.mem_cons_self
      rw [splitBy, ih fun c hmem => hpiece c (List.mem_cons_of_mem _ hmem)]
      simp [hd]

/-- Pieces without the separator are read back. -/
theorem splitBy_intercalate (hne : pieces ≠ []) (hpieces : ∀ piece ∈ pieces, ∀ c ∈ piece, p c = false)
    (hc : p c = true) : splitBy p ([c].intercalate pieces) = pieces := by
  induction pieces with
  | nil => exact absurd rfl hne
  | cons piece pieces ih =>
      have hpiece := hpieces piece List.mem_cons_self
      cases pieces with
      | nil => rw [List.intercalate_singleton, splitBy_of_forall hpiece]
      | cons next pieces =>
          rw [List.intercalate_cons_cons, List.append_assoc, List.singleton_append, splitBy_append hpiece hc,
            ih (List.cons_ne_nil _ _) fun piece hmem => hpieces piece (List.mem_cons_of_mem _ hmem)]

theorem splitOnce_append {name : Text} (h : c ∉ name) (value : Text) :
    splitOnce [c] (name ++ c :: value) = some (name, value) := by
  have hfound : search [c] (name ++ c :: value) = some name.length := by
    apply search_of_occurs
    · rw [List.drop_left]
      exact List.prefix_append [c] value
    · intro j hj hoccurs
      rw [List.drop_append_of_le_length hj.le, List.drop_eq_getElem_cons hj] at hoccurs
      rw [List.cons_append, List.cons_prefix_cons] at hoccurs
      exact h (hoccurs.1 ▸ List.getElem_mem hj)
  rw [splitOnce, hfound, Option.map_some, List.take_left, List.length_singleton, ← List.drop_drop, List.drop_left]
  rfl

end Splitting

/-- A number is read back from its text, also a negative one. -/
theorem parseI64_toString {n : Int} (h : i64Min ≤ n ∧ n ≤ i64Max) : parseI64 (toString n).toList = some n := by
  rw [Int.toString_eq_repr, Int.repr_eq_if]
  split
  · next hnonneg =>
      have hfits : ((n.toNat : Nat) : Int) ≤ i64Max := by rw [Int.toNat_of_nonneg hnonneg]; exact h.2
      rw [Nat.toList_repr, parseI64_toDigits hfits, Int.toNat_of_nonneg hnonneg]
  · next hneg =>
      have hvalue : -(((-n).toNat : Nat) : Int) = n := by omega
      have hdigits : Nat.toDigits 10 (-n).toNat ≠ [] ∧ (Nat.toDigits 10 (-n).toNat).all Char.isDigit = true :=
        ⟨Nat.toDigits_ne_nil, List.all_eq_true.mpr (isDigit_toDigits _)⟩
      rw [String.toList_append, Nat.toList_repr]
      change parseI64 ('-' :: Nat.toDigits 10 (-n).toNat) = some n
      rw [parseI64]
      simp only [hdigits, ne_eq, not_false_eq_true, and_self, if_true, digitsValue_toDigits, hvalue, h]

theorem semicolon_toString (n : Int) : ';' ∉ (toString n).toList := by
  have hdigits (m : Nat) : ';' ∉ Nat.toDigits 10 m := fun hmem => absurd (isDigit_toDigits m _ hmem) (by decide)
  rw [Int.toString_eq_repr, Int.repr_eq_if]
  split
  · rw [Nat.toList_repr]
    exact hdigits _
  · rw [String.toList_append, Nat.toList_repr, List.mem_append, not_or]
    exact ⟨by decide, hdigits _⟩

/-! ### Decoding -/

section Decoding

variable {s : SubType}

/-- The fields that are set, as names with values. -/
def fieldsOf (s : SubType) : List (Text × Text) :=
  [s.rank.map fun r => ("rank".toList, (toString r).toList),
    s.charges.map fun n => ("charges".toList, (toString n).toList),
    s.variant.map fun v => ("subtype".toList, v.toList),
    s.amberStars.map fun a => ("amber".toList, (toString a).toList),
    s.cyanStars.map fun n => ("cyan".toList, (toString n).toList)].filterMap id

def part (field : Text × Text) : Text := field.1 ++ '=' :: field.2

theorem map_filterMap_id {α β : Type} (f : α → β) (l : List (Option α)) :
    (l.filterMap id).map f = (l.map (Option.map f)).filterMap id := by
  rw [List.map_filterMap, List.filterMap_map]
  rfl

theorem toList_keyOf (s : SubType) : (keyOf (some s)).toList = [';'].intercalate ((fieldsOf s).map part) := by
  have hstring (t : String) : toString t = t := rfl
  rw [keyOf, Collector.subTypeKey, String.toList_intercalate, fieldsOf, map_filterMap_id, map_filterMap_id]
  simp only [List.map_cons, List.map_nil, Option.map_map, Function.comp_def, hstring, String.toList_append, part]
  simp

def fieldNames : List Text := ["rank".toList, "charges".toList, "subtype".toList, "amber".toList, "cyan".toList]

theorem fieldNames_plain : ∀ name ∈ fieldNames, '=' ∉ name ∧ ';' ∉ name := by decide

theorem field_of_mem (h : Writable s) {field : Text × Text} (hmem : field ∈ fieldsOf s) :
    field.1 ∈ fieldNames ∧ ';' ∉ field.2 := by
  obtain ⟨o, ho, hfield⟩ := List.mem_filterMap.mp hmem
  simp only [List.mem_cons, List.not_mem_nil, or_false] at ho
  rcases ho with rfl | rfl | rfl | rfl | rfl
  · obtain ⟨n, -, rfl⟩ := Option.map_eq_some_iff.mp hfield
    exact ⟨by simp [fieldNames], semicolon_toString n⟩
  · obtain ⟨n, -, rfl⟩ := Option.map_eq_some_iff.mp hfield
    exact ⟨by simp [fieldNames], semicolon_toString n⟩
  · obtain ⟨v, hv, rfl⟩ := Option.map_eq_some_iff.mp hfield
    exact ⟨by simp [fieldNames], h.variant v hv⟩
  · obtain ⟨n, -, rfl⟩ := Option.map_eq_some_iff.mp hfield
    exact ⟨by simp [fieldNames], semicolon_toString n⟩
  · obtain ⟨n, -, rfl⟩ := Option.map_eq_some_iff.mp hfield
    exact ⟨by simp [fieldNames], semicolon_toString n⟩

theorem fieldsOf_eq_nil : fieldsOf s = [] ↔ hasField s = false := by
  obtain ⟨rank, charges, variant, amberStars, cyanStars⟩ := s
  simp [fieldsOf, hasField, and_assoc]

theorem splitBy_keyOf (h : Writable s) (hfield : hasField s = true) :
    splitBy (· == ';') (keyOf (some s)).toList = (fieldsOf s).map part := by
  rw [toList_keyOf]
  refine splitBy_intercalate ?_ ?_ (beq_self_eq_true _)
  · intro hnil
    rw [List.map_eq_nil_iff, fieldsOf_eq_nil, hfield] at hnil
    cases hnil
  · intro piece hpiece c hc
    obtain ⟨field, hmem, rfl⟩ := List.mem_map.mp hpiece
    obtain ⟨hname, hvalue⟩ := field_of_mem h hmem
    apply beq_eq_false_iff_ne.mpr
    rintro rfl
    rcases List.mem_append.mp hc with hc | hc
    · exact (fieldNames_plain _ hname).2 hc
    · exact hvalue ((List.mem_cons.mp hc).resolve_left (by decide))

theorem readPart_part (h : Writable s) {field : Text × Text} (hmem : field ∈ fieldsOf s) (acc : SubType) :
    readPart acc (part field) = readField acc field.1 field.2 := by
  rw [readPart, part, splitOnce_append (fieldNames_plain _ (field_of_mem h hmem).1).1]

theorem foldl_readPart (h : Writable s) (acc : SubType) :
    ((fieldsOf s).map part).foldl readPart acc = (fieldsOf s).foldl (fun acc f => readField acc f.1 f.2) acc := by
  rw [List.foldl_map]
  exact List.foldl_ext _ _ _ fun acc field hmem => readPart_part h hmem acc

theorem foldl_filterMap_cons {α β : Type} (f : α → β → α) (acc : α) (o : Option β) (os : List (Option β)) :
    ((o :: os).filterMap id).foldl f acc = (os.filterMap id).foldl f (o.elim acc (f acc)) := by
  cases o <;> rfl

section Fields

variable (acc : SubType) (value : Text)

theorem readField_rank : readField acc "rank".toList value = { acc with rank := parseI64 value } := if_pos rfl

theorem readField_charges : readField acc "charges".toList value = { acc with charges := parseI64 value } := by
  rw [readField, if_neg (by decide), if_pos rfl]

theorem readField_subtype :
    readField acc "subtype".toList value = { acc with variant := some (String.ofList value) } := by
  rw [readField, if_neg (by decide), if_neg (by decide), if_pos rfl]

theorem readField_amber : readField acc "amber".toList value = { acc with amberStars := parseI64 value } := by
  rw [readField, if_neg (by decide), if_neg (by decide), if_neg (by decide), if_pos rfl]

theorem readField_cyan : readField acc "cyan".toList value = { acc with cyanStars := parseI64 value } := by
  rw [readField, if_neg (by decide), if_neg (by decide), if_neg (by decide), if_neg (by decide), if_pos rfl]

end Fields

/-- Read in order, the parts set the fields one after the other. -/
theorem foldl_readField (h : Writable s) :
    (fieldsOf s).foldl (fun acc f => readField acc f.1 f.2) ⟨none, none, none, none, none⟩ = s := by
  obtain ⟨rank, charges, variant, amberStars, cyanStars⟩ := s
  rw [fieldsOf, foldl_filterMap_cons, foldl_filterMap_cons, foldl_filterMap_cons, foldl_filterMap_cons,
    foldl_filterMap_cons]
  let read (acc : SubType) (f : Text × Text) := readField acc f.1 f.2
  have hrank : (rank.map fun r => ("rank".toList, (toString r).toList)).elim ⟨none, none, none, none, none⟩
      (read ⟨none, none, none, none, none⟩) = ⟨rank, none, none, none, none⟩ := by
    cases rank with
    | none => rfl
    | some n => exact (readField_rank _ _).trans (by rw [parseI64_toString (h.rank n rfl)])
  have hcharges : (charges.map fun n => ("charges".toList, (toString n).toList)).elim ⟨rank, none, none, none, none⟩
      (read ⟨rank, none, none, none, none⟩) = ⟨rank, charges, none, none, none⟩ := by
    cases charges with
    | none => rfl
    | some n => exact (readField_charges _ _).trans (by rw [parseI64_toString (h.charges n rfl)])
  have hvariant : (variant.map fun v => ("subtype".toList, v.toList)).elim ⟨rank, charges, none, none, none⟩
      (read ⟨rank, charges, none, none, none⟩) = ⟨rank, charges, variant, none, none⟩ := by
    cases variant with
    | none => rfl
    | some v => exact (readField_subtype _ _).trans (by rw [String.ofList_toList])
  have hamber : (amberStars.map fun a => ("amber".toList, (toString a).toList)).elim
      ⟨rank, charges, variant, none, none⟩ (read ⟨rank, charges, variant, none, none⟩) =
      ⟨rank, charges, variant, amberStars, none⟩ := by
    cases amberStars with
    | none => rfl
    | some n => exact (readField_amber _ _).trans (by rw [parseI64_toString (h.amberStars n rfl)])
  have hcyan : (cyanStars.map fun n => ("cyan".toList, (toString n).toList)).elim
      ⟨rank, charges, variant, amberStars, none⟩ (read ⟨rank, charges, variant, amberStars, none⟩) =
      ⟨rank, charges, variant, amberStars, cyanStars⟩ := by
    cases cyanStars with
    | none => rfl
    | some n => exact (readField_cyan _ _).trans (by rw [parseI64_toString (h.cyanStars n rfl)])
  rw [hrank, hcharges, hvariant, hamber, hcyan]
  rfl

theorem intercalate_part_ne_nil (field : Text × Text) (fields : List (Text × Text)) :
    [';'].intercalate ((field :: fields).map part) ≠ [] := by
  cases fields with
  | nil =>
      rw [List.map_singleton, List.intercalate_singleton, part]
      exact List.append_ne_nil_of_right_ne_nil _ (List.cons_ne_nil _ _)
  | cons next fields =>
      rw [List.map_cons, List.map_cons, List.intercalate_cons_cons]
      exact List.append_ne_nil_of_left_ne_nil (List.append_ne_nil_of_right_ne_nil _ (List.cons_ne_nil _ _)) _

theorem keyOf_eq_empty : keyOf (some s) = "" ↔ hasField s = false := by
  rw [← fieldsOf_eq_nil, ← String.toList_inj, toList_keyOf]
  cases hfields : fieldsOf s with
  | nil => exact iff_of_true rfl rfl
  | cons field fields => exact iff_of_false (intercalate_part_ne_nil field fields) (List.cons_ne_nil _ _)

theorem subTypeFromKey_some (h : Writable s) (hfield : hasField s = true) :
    subTypeFromKey (keyOf (some s)) = some s := by
  have hkey : keyOf (some s) ≠ "" := fun hempty => by
    rw [keyOf_eq_empty, hfield] at hempty
    cases hempty
  rw [subTypeFromKey, if_neg hkey, splitBy_keyOf h hfield, foldl_readPart h, foldl_readField h]

/-- A key decodes to the sub-type that it encodes; one without fields is none. -/
theorem subTypeFromKey_keyOf (h : Writable s) :
    subTypeFromKey (keyOf (some s)) = if hasField s = true then some s else none := by
  split
  · next hfield => exact subTypeFromKey_some h hfield
  · next hfield => rw [keyOf_eq_empty.mpr (Bool.eq_false_iff.mpr hfield), subTypeFromKey, if_pos rfl]

end Decoding

/-! ### The price source -/

/-- The prices of the loaded rows under item and key. What is filed under a key is the sub-type it decodes to. -/
structure StatsPriceSource (F : Type) where
  items : Table (Prod.fst : (String × String) × PriceRow F → String × String)
  hasShift : List (String × String)
  filed : ∀ r ∈ items.rows, r.2.wfmId = r.1.1 ∧ r.2.subType = subTypeFromKey r.1.2

namespace StatsPriceSource

variable {F : Type}

/-- The price info of a row with a known url. -/
def infoOf (num : PriceFloats F) (wfmUrl : String) (e : Effective F) : PriceRow F where
  movingAvg := e.stats.movingAvg
  avgPrice := e.stats.avgPrice.getD (num.ofInt 0)
  warm := e.stats.warm
  guarded := e.guarded
  uuid := e.stats.itemId ++ ":" ++ e.stats.subType
  wfmUrl := wfmUrl
  wfmId := e.stats.itemId
  subType := subTypeFromKey e.stats.subType
  volume := e.stats.volume
  profit := e.stats.profit.getD (num.ofInt 0)
  tradingTax := 0
  weekPriceShift := e.weekPriceShift.getD (num.ofInt 0)
  maxRank := none

/-- Items whose id has no url are skipped. -/
def infos (num : PriceFloats F) (urlOf : String → Option String) (rows : List (Effective F)) :
    List ((String × String) × PriceRow F) :=
  rows.filterMap fun e => (urlOf e.stats.itemId).map fun url => (e.key, infoOf num url e)

theorem mem_infos {num : PriceFloats F} {urlOf : String → Option String} {rows : List (Effective F)}
    {r : (String × String) × PriceRow F} (h : r ∈ infos num urlOf rows) :
    ∃ e ∈ rows, ∃ url, urlOf e.stats.itemId = some url ∧ r = (e.key, infoOf num url e) := by
  obtain ⟨e, he, hinfo⟩ := List.mem_filterMap.mp h
  obtain ⟨url, hurl, rfl⟩ := Option.map_eq_some_iff.mp hinfo
  exact ⟨e, he, url, hurl, rfl⟩

/-- What is filed is one of the infos. -/
theorem mem_of_mem_filed {infos : List ((String × String) × PriceRow F)} {r : (String × String) × PriceRow F}
    (h : r ∈ (infos.foldl Table.insertOrReplace (.empty : Table Prod.fst)).rows) : r ∈ infos := by
  have hlookup := Table.lookup_of_mem h
  rw [Table.lookup_foldl_insertOrReplace, Table.lookup, Table.empty, List.find?_nil, Option.or_none] at hlookup
  exact List.mem_reverse.mp (List.mem_of_find?_eq_some hlookup)

def fromEffective (num : PriceFloats F) (rows : List (Effective F)) (urlOf : String → Option String) :
    StatsPriceSource F where
  items := (infos num urlOf rows).foldl Table.insertOrReplace .empty
  hasShift := (rows.filter fun e => (urlOf e.stats.itemId).isSome && e.weekPriceShift.isSome).map Effective.key
  filed := by
    intro r hr
    obtain ⟨e, -, url, -, rfl⟩ := mem_infos (mem_of_mem_filed hr)
    exact ⟨rfl, rfl⟩

/-- Another value for each key. -/
def withInfo (src : StatsPriceSource F) (f : PriceRow F → PriceRow F) (hid : ∀ info, (f info).wfmId = info.wfmId)
    (hsub : ∀ info, (f info).subType = info.subType) : StatsPriceSource F where
  items :=
    { rows := src.items.rows.map fun r => (r.1, f r.2)
      primaryKey := by
        rw [List.map_map]
        exact src.items.primaryKey }
  hasShift := src.hasShift
  filed := by
    intro r hr
    obtain ⟨r, hmem, rfl⟩ := List.mem_map.mp hr
    rw [hid, hsub]
    exact src.filed r hmem

def withTradeTax (src : StatsPriceSource F) (taxOf : String → Option Int) : StatsPriceSource F :=
  src.withInfo (fun info => { info with tradingTax := (taxOf info.wfmId).getD 0 }) (fun _ => rfl) fun _ => rfl

def withMaxRank (src : StatsPriceSource F) (maxRankOf : String → Option Int) : StatsPriceSource F :=
  src.withInfo (fun info => { info with maxRank := maxRankOf info.wfmId }) (fun _ => rfl) fun _ => rfl

def findBy (src : StatsPriceSource F) (wfmId : String) (subType : Option SubType) : Option (PriceRow F) :=
  (src.items.lookup (wfmId, keyOf subType)).map Prod.snd

/-- What the candidates are chosen from. -/
def prices (src : StatsPriceSource F) : PriceSource F where
  all := src.items.rows.map Prod.snd
  hasShift wfmId subTypeKey := decide ((wfmId, subTypeKey) ∈ src.hasShift)

/-- The source of a load: the rows with the tax and the greatest rank of their items. -/
def loaded (num : PriceFloats F) (rows : List (Effective F)) (urlOf : String → Option String)
    (taxOf maxRankOf : String → Option Int) : StatsPriceSource F :=
  ((fromEffective num rows urlOf).withTradeTax taxOf).withMaxRank maxRankOf

variable {num : PriceFloats F} {rows : List (Effective F)} {urlOf : String → Option String}
  {taxOf maxRankOf : String → Option Int} {src : StatsPriceSource F} {wfmId : String} {subType : Option SubType}
  {info : PriceRow F}

theorem mem_of_findBy (h : src.findBy wfmId subType = some info) : ((wfmId, keyOf subType), info) ∈ src.items.rows := by
  obtain ⟨r, hr, rfl⟩ := Option.map_eq_some_iff.mp h
  rw [← Table.key_of_lookup hr]
  exact Table.mem_of_lookup hr

theorem findBy_filed (h : src.findBy wfmId subType = some info) :
    info.wfmId = wfmId ∧ info.subType = subTypeFromKey (keyOf subType) :=
  src.filed _ (mem_of_findBy h)

/-- What a load files under a key. -/
theorem mem_loaded {r : (String × String) × PriceRow F} (h : r ∈ (loaded num rows urlOf taxOf maxRankOf).items.rows) :
    ∃ e ∈ rows, e.key = r.1 ∧ ∃ url, urlOf r.1.1 = some url ∧
      r.2 = { infoOf num url e with tradingTax := (taxOf r.1.1).getD 0, maxRank := maxRankOf r.1.1 } := by
  obtain ⟨r₁, hr₁, rfl⟩ := List.mem_map.mp h
  obtain ⟨r₀, hr₀, rfl⟩ := List.mem_map.mp hr₁
  obtain ⟨e, he, url, hurl, rfl⟩ := mem_infos (mem_of_mem_filed hr₀)
  exact ⟨e, he, rfl, url, hurl, rfl⟩

theorem findBy_loaded (h : (loaded num rows urlOf taxOf maxRankOf).findBy wfmId subType = some info) :
    ∃ e ∈ rows, e.key = (wfmId, keyOf subType) ∧ ∃ url, urlOf wfmId = some url ∧
      info = { infoOf num url e with tradingTax := (taxOf wfmId).getD 0, maxRank := maxRankOf wfmId } :=
  mem_loaded (mem_of_findBy h)

/-- Without a colon in the first part, two texts joined by one are told apart. -/
theorem join_injective {a b x y : String} (ha : ':' ∉ a.toList) (hb : ':' ∉ b.toList)
    (h : a ++ ":" ++ x = b ++ ":" ++ y) : a = b ∧ x = y := by
  have htexts : a.toList ++ ':' :: x.toList = b.toList ++ ':' :: y.toList := by
    simpa using congrArg String.toList h
  have hsplit := congrArg (splitOnce [':']) htexts
  rw [splitOnce_append ha, splitOnce_append hb, Option.some.injEq, Prod.mk.injEq] at hsplit
  exact ⟨String.ext hsplit.1, String.ext hsplit.2⟩

/-- The rows that candidates are chosen from have distinct uuids. -/
theorem uuid_nodup_prices (hids : ∀ e ∈ rows, ':' ∉ e.stats.itemId.toList) :
    ((loaded num rows urlOf taxOf maxRankOf).prices.all.map PriceRow.uuid).Nodup := by
  have huuid : ∀ r ∈ (loaded num rows urlOf taxOf maxRankOf).items.rows,
      ':' ∉ r.1.1.toList ∧ r.2.uuid = r.1.1 ++ ":" ++ r.1.2 := by
    intro r hr
    obtain ⟨e, he, hkey, url, -, hinfo⟩ := mem_loaded hr
    rw [← hkey, hinfo]
    exact ⟨hids e he, rfl⟩
  rw [prices, List.map_map]
  refine List.Nodup.map_on ?_ (List.Nodup.of_map _ (Table.primaryKey _))
  intro r hr r' hr' heq
  obtain ⟨hcolon, hr_uuid⟩ := huuid r hr
  obtain ⟨hcolon', hr'_uuid⟩ := huuid r' hr'
  have hparts := join_injective hcolon hcolon' (hr_uuid.symm.trans (heq.trans hr'_uuid))
  exact List.inj_on_of_nodup_map (Table.primaryKey _) hr hr' (Prod.ext hparts.1 hparts.2)

end StatsPriceSource

/-- The key of a sub-type decodes to it, so no other one with a field has that key, and the price of a sub-type is
that of a row loaded for it. -/
theorem subTypeKeys_decode (s : SubType) (h : Writable s) :
    subTypeFromKey (keyOf (some s)) = (if hasField s = true then some s else none) ∧
      (∀ t, Writable t → hasField s = true → hasField t = true → keyOf (some s) = keyOf (some t) → s = t) ∧
      ∀ (F : Type) (num : PriceFloats F) (rows : List (Effective F)) (urlOf : String → Option String)
        (taxOf maxRankOf : String → Option Int) (wfmId : String) (info : PriceRow F),
        (StatsPriceSource.loaded num rows urlOf taxOf maxRankOf).findBy wfmId (some s) = some info →
          info.wfmId = wfmId ∧ info.subType = (if hasField s = true then some s else none) ∧
            ∃ e ∈ rows, e.stats.itemId = wfmId ∧
              subTypeFromKey e.stats.subType = (if hasField s = true then some s else none) := by
  refine ⟨subTypeFromKey_keyOf h, ?_, ?_⟩
  · intro t ht hs htf heq
    have hsame := congrArg subTypeFromKey heq
    rw [subTypeFromKey_some h hs, subTypeFromKey_some ht htf] at hsame
    exact Option.some.inj hsame
  · intro F num rows urlOf taxOf maxRankOf wfmId info hinfo
    obtain ⟨hid, hsub⟩ := StatsPriceSource.findBy_filed hinfo
    obtain ⟨e, he, hkey, -⟩ := StatsPriceSource.findBy_loaded hinfo
    obtain ⟨hitem, hcolumn⟩ := Prod.ext_iff.mp hkey
    rw [← subTypeFromKey_keyOf h]
    exact ⟨hid, hsub, e, he, hitem, congrArg subTypeFromKey hcolumn⟩

/-- A variant that looks like another part. -/
def oddSubType : SubType := ⟨some (-5), none, some "=rank=3", none, some 9223372036854775807⟩

theorem oddSubType_writable : Writable oddSubType where
  rank n hn := by cases hn; decide
  charges n hn := by cases hn
  variant v hv := by cases hv; decide
  amberStars n hn := by cases hn
  cyanStars n hn := by cases hn; decide

theorem subTypeKeys_decode_odd : subTypeFromKey (keyOf (some oddSubType)) = some oddSubType :=
  (subTypeKeys_decode oddSubType oddSubType_writable).1

end Quantframe.Trader
