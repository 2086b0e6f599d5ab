import Quantframe.LogParser.Dialog

/-!
# In-game names to market items

A name is looked up in the item index by its normal form, then in the overrides. Lower-casing is the one of the
standard library, and nothing here depends on what it does.
-/

namespace Quantframe.Trades

open LogParser (Text isWhitespace isPrivateUse trim trimEndMatches splitBy)

/-- What the tradable item list says of an item's sub-types. -/
structure ItemSubType where
  maxRank : Option Int
  variants : Option (List String)
  deriving DecidableEq, Repr

structure TradableItem extends CacheTradableItem where
  subType : Option ItemSubType
  deriving DecidableEq, Repr

def TradableItem.maxRank (item : TradableItem) : Option Int := item.subType.bind ItemSubType.maxRank

def TradableItem.firstVariant (item : TradableItem) : Option String :=
  (item.subType.bind ItemSubType.variants).bind List.head?

def splitWhitespace (text : Text) : List Text := (splitBy isWhitespace text).filter (· ≠ [])

section Normalise

variable (lower : Text → Text)

/-- Trim, drop trailing private-use glyphs, collapse whitespace, lowercase. -/
def normalise (name : Text) : Text :=
  lower ([' '].intercalate (splitWhitespace (trimEndMatches isPrivateUse (trim name))))

/-- Of two items with one normal name the first is kept. -/
def byName (items : List TradableItem) (name : Text) : Option TradableItem :=
  items.find? fun item => normalise lower item.name.toList = normalise lower name

/-- Of two items with one slug the last is kept. -/
def itemBySlug (items : List TradableItem) (slug : String) : Option TradableItem :=
  items.reverse.find? fun item => item.wfmUrl = slug

/-- The `[names]` table, by normal name. -/
abbrev Overrides := Text → Option String

def Overrides.slugFor (overrides : Overrides) (name : Text) : Option String := overrides (normalise lower name)

/-- The log never names a variant, so the item's first listed one is taken. -/
def resolved (raw : RawItem) (item : TradableItem) (matchedBy : String) : ResolvedItem :=
  let variant := item.firstVariant
  let rank := raw.rank.map fun rank => item.maxRank.elim rank (min rank)
  { name := raw.name
    slug := item.wfmUrl
    wfmId := item.wfmId
    itemName := item.name
    subType := if rank.isSome || variant.isSome then some ⟨rank, none, variant, none, none⟩ else none
    quantity := raw.quantity
    price := 0
    matchedBy := matchedBy }

/-- English name first, then the overrides. -/
def resolveItem (index : List TradableItem) (overrides : Overrides) (raw : RawItem) : Option ResolvedItem :=
  match byName lower index raw.name.toList with
  | some item => some (resolved raw item "name")
  | none =>
      (overrides.slugFor lower raw.name.toList).bind fun slug =>
        (itemBySlug index slug).map fun item => resolved raw item "override"

/-- The item that a name leads to. -/
def itemNamed (index : List TradableItem) (overrides : Overrides) (name : Text) : Option TradableItem :=
  (byName lower index name).or ((overrides.slugFor lower name).bind (itemBySlug index))

end Normalise

/-! ### What is resolved -/

section Resolved

variable {lower : Text → Text} {index : List TradableItem} {overrides : Overrides} {raw : RawItem} {item : TradableItem}

theorem normalise_congr {name name' : Text} (h : trim name = trim name') :
    normalise lower name = normalise lower name' := by
  rw [normalise, normalise, h]

theorem itemNamed_congr {name name' : Text} (h : trim name = trim name') :
    itemNamed lower index overrides name = itemNamed lower index overrides name' := by
  rw [itemNamed, itemNamed, byName, byName, Overrides.slugFor, Overrides.slugFor, normalise_congr h]

/-- Resolving takes the item its name leads to. -/
theorem resolveItem_eq (lower : Text → Text) (index : List TradableItem) (overrides : Overrides) (raw : RawItem) :
    ∃ matchedBy, resolveItem lower index overrides raw =
      (itemNamed lower index overrides raw.name.toList).map fun item => resolved raw item matchedBy := by
  rw [resolveItem, itemNamed]
  cases byName lower index raw.name.toList with
  | some item => exact ⟨"name", rfl⟩
  | none =>
      refine ⟨"override", ?_⟩
      rw [Option.none_or, Option.map_bind]
      rfl

end Resolved

end Quantframe.Trades
