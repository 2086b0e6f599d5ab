import Quantframe.LogParser.Written
import Quantframe.Trader.Orders
import Quantframe.Trades.Resolve

/-!
# From a logged rank to the key of its row

A rank is read off the line, capped at the item's maximum and becomes part of the sub-type key. An arcane of rank 0
shows no glyph, and no rank is read.
-/

namespace Quantframe.Trades

open LogParser (Text trim platinumPrefix parseLine rankSuffix stripGlyphs isPrivateUse Written RankKind)
open Lib (i64Max)
open Trader (keyOf)

section Ranks

variable {lower : Text → Text} {index : List TradableItem} {overrides : Overrides} {item : TradableItem}

/-- The line resolves to the item with this rank, under the key that the rank has everywhere else. -/
def ReachesKey (lower : Text → Text) (index : List TradableItem) (overrides : Overrides) (item : TradableItem)
    (rank : Int) (line : Text) : Prop :=
  ∃ found, resolveItem lower index overrides (parseLine line) = some found ∧ found.slug = item.wfmUrl ∧
    found.wfmId = item.wfmId ∧ found.subType.bind SubType.rank = some rank ∧
    keyOf found.subType = Collector.subTypeKey (some rank) none item.firstVariant none none

theorem rank_resolved (raw : RawItem) (item : TradableItem) (matchedBy : String) :
    (resolved raw item matchedBy).subType.bind SubType.rank =
      raw.rank.map fun rank => item.maxRank.elim rank (min rank) := by
  rw [resolved]
  dsimp only
  cases raw.rank with
  | some rank => rfl
  | none =>
      split
      next => rfl
      next => rfl

/-- A line without a rank reaches none. -/
theorem not_reachesKey {rank : Int} {line : Text} (h : (parseLine line).rank = none) :
    ¬ ReachesKey lower index overrides item rank line := by
  rintro ⟨found, hfound, -, -, hrank, -⟩
  obtain ⟨matchedBy, hresolve⟩ := resolveItem_eq lower index overrides (parseLine line)
  rw [hresolve] at hfound
  obtain ⟨item', -, rfl⟩ := Option.map_eq_some_iff.mp hfound
  rw [rank_resolved, h] at hrank
  cases hrank

theorem reachesKey_of_parsed {name line : Text} {rank max : Int}
    (hitem : itemNamed lower index overrides name = some item) (hmax : item.maxRank = some max) (hrank : rank ≤ max)
    (hparsed : parseLine line = ⟨String.ofList (trim name), 1, some rank⟩) :
    ReachesKey lower index overrides item rank line := by
  obtain ⟨matchedBy, hresolve⟩ := resolveItem_eq lower index overrides (parseLine line)
  have hnamed : itemNamed lower index overrides (parseLine line).name.toList = some item := by
    rw [hparsed, String.toList_ofList, itemNamed_congr (LogParser.trim_trim name), hitem]
  rw [hnamed, Option.map_some] at hresolve
  have hcapped : (parseLine line).rank.map (fun rank => item.maxRank.elim rank (min rank)) = some rank := by
    rw [hparsed, hmax]
    exact congrArg some (min_eq_left hrank)
  have hsubType : (resolved (parseLine line) item matchedBy).subType =
      some ⟨some rank, none, item.firstVariant, none, none⟩ := by
    rw [resolved]
    dsimp only
    rw [hcapped]
    rfl
  refine ⟨_, hresolve, rfl, rfl, ?_, ?_⟩
  · rw [hsubType]
    rfl
  · rw [hsubType]
    rfl

/-- A rank reaches its key exactly where the line is no platinum line, and a mod has a name or an arcane has a rank
above 0. -/
theorem rank_reaches_key_iff (lower : Text → Text) (index : List TradableItem) (overrides : Overrides)
    (item : TradableItem) (name line : Text) (kind : RankKind) (max : Int) (rank : Nat)
    (hitem : itemNamed lower index overrides name = some item) (hmax : item.maxRank = some max) (hfits : max ≤ i64Max)
    (hrank : (rank : Int) ≤ max) (hline : Written name rank kind line) :
    ReachesKey lower index overrides item rank line ↔
      ¬ platinumPrefix <+: trim line ∧ (kind = .mod ∧ trim name ≠ [] ∨ kind = .arcane ∧ 0 < rank) := by
  by_cases hplatinum : platinumPrefix <+: trim line
  · exact iff_of_false (not_reachesKey (LogParser.parseLine_of_platinum hplatinum)) fun h => h.1 hplatinum
  · cases hline with
    | mod word hword =>
        by_cases hname : trim name = []
        · refine iff_of_false (not_reachesKey (LogParser.parseLine_blank_mod hword hname)) ?_
          rintro ⟨-, ⟨-, h⟩ | ⟨h, -⟩⟩
          · exact h hname
          · cases h
        · have hparsed := LogParser.parseLine_mod hword (hrank.trans hfits) hname hplatinum
          exact iff_of_true (reachesKey_of_parsed hitem hmax hrank hparsed) ⟨hplatinum, .inl ⟨rfl, hname⟩⟩
    | arcane glyphs hcount hglyphs hname hplain =>
        by_cases hsome : glyphs = []
        · have hzero : rank = 0 := by rw [← hcount, hsome, List.length_nil]
          rw [hsome, List.append_nil]
          refine iff_of_false (not_reachesKey (LogParser.parseLine_bare hname hplain)) ?_
          rintro ⟨-, ⟨h, -⟩ | ⟨-, h⟩⟩
          · cases h
          · omega
        · have hparsed := LogParser.parseLine_arcane hglyphs hname hsome hplatinum
          rw [hcount] at hparsed
          have hpos : 0 < rank := by
            rw [← hcount]
            exact List.length_pos_of_ne_nil hsome
          exact iff_of_true (reachesKey_of_parsed hitem hmax hrank hparsed) ⟨hplatinum, .inr ⟨rfl, hpos⟩⟩

end Ranks

/-! ### An arcane that goes up to rank 5 -/

def nullifier : TradableItem := ⟨⟨"Arcane Nullifier", "id-nullifier", "arcane_nullifier"⟩, some ⟨some 5, none⟩⟩

def nullifierName : Text := "arcane  NULLIFIER ".toList

/-- ASCII is enough for the name. -/
def lowerAscii (text : Text) : Text := text.map Char.toLower

theorem itemNamed_nullifier : itemNamed lowerAscii [nullifier] (fun _ => none) nullifierName = some nullifier := by
  decide +kernel

theorem rank_reaches_key_iff_nullifier :
    ReachesKey lowerAscii [nullifier] (fun _ => none) nullifier 3
      (nullifierName ++ ['\uE0B9', '\uE0B9', '\uE0B9']) := by
  have hline : Written nullifierName 3 .arcane (nullifierName ++ ['\uE0B9', '\uE0B9', '\uE0B9']) :=
    .arcane _ rfl (List.all_eq_true.mp (by decide)) (by decide +kernel) (by decide +kernel)
  refine (rank_reaches_key_iff lowerAscii [nullifier] (fun _ => none) nullifier nullifierName _ .arcane 5 3
    itemNamed_nullifier rfl (by decide) (by decide) hline).mpr ?_
  exact ⟨by decide +kernel, .inr ⟨rfl, by decide⟩⟩

/-- An arcane of rank 0 resolves to the item without a sub-type: its key is empty and not `rank=0`. -/
theorem rank_zero_lost :
    Written "Arcane Nullifier".toList 0 .arcane "Arcane Nullifier".toList ∧
      itemNamed lowerAscii [nullifier] (fun _ => none) "Arcane Nullifier".toList = some nullifier ∧
      ¬ ReachesKey lowerAscii [nullifier] (fun _ => none) nullifier 0 "Arcane Nullifier".toList ∧
      (resolveItem lowerAscii [nullifier] (fun _ => none) (parseLine "Arcane Nullifier".toList)).map
        (fun found => keyOf found.subType) = some "" ∧
      Collector.subTypeKey (some 0) none nullifier.firstVariant none none = "rank=0" := by
  have hplain : (parseLine "Arcane Nullifier".toList).rank = none := by decide +kernel
  refine ⟨?_, by decide +kernel, not_reachesKey hplain, by decide +kernel, by decide +kernel⟩
  have hline : Written "Arcane Nullifier".toList 0 .arcane ("Arcane Nullifier".toList ++ []) :=
    .arcane [] rfl (fun _ h => by cases h) (by decide +kernel) (by decide +kernel)
  rw [List.append_nil] at hline
  exact hline

end Quantframe.Trades
