import Quantframe.Lib.Search
import Quantframe.Lib.Words
import Quantframe.Trades.Types

/-!
# The text of a trade dialog

Texts are lists of characters; the string functions are those of the source's standard library.
-/

namespace Quantframe.LogParser

open Lib Trades

abbrev Text := List Char
abbrev Bytes := List UInt8

def newline : UInt8 := 10

/-! ### String functions -/

/-- The Unicode property `White_Space`. -/
def isWhitespace (c : Char) : Bool :=
  (0x9 ≤ c.val && c.val ≤ 0xD) || c.val == 0x20 || c.val == 0x85 || c.val == 0xA0 ||
    c.val == 0x1680 || (0x2000 ≤ c.val && c.val ≤ 0x200A) || c.val == 0x2028 || c.val == 0x2029 ||
    c.val == 0x202F || c.val == 0x205F || c.val == 0x3000

def trimEndMatches (p : Char → Bool) (text : Text) : Text := (text.reverse.dropWhile p).reverse

def trim (text : Text) : Text := trimEndMatches isWhitespace (text.dropWhile isWhitespace)

def stripPrefix (pre text : Text) : Option Text :=
  if pre <+: text then some (text.drop pre.length) else none

def stripSuffix (suf text : Text) : Option Text :=
  if suf <:+ text then some (text.take (text.length - suf.length)) else none

/-- The position of the last occurrence. -/
def rfind (word text : Text) : Option Nat :=
  (search word.reverse text.reverse).map fun k => text.length - word.length - k

def splitOnce (sep text : Text) : Option (Text × Text) :=
  (search sep text).map fun i => (text.take i, text.drop (i + sep.length))

def rsplitOnce (sep text : Text) : Option (Text × Text) :=
  (rfind sep text).map fun i => (text.take i, text.drop (i + sep.length))

/-- The pieces between the characters with a property. -/
def splitBy (p : Char → Bool) : Text → List Text
  | [] => [[]]
  | c :: cs =>
    match splitBy p cs with
    | piece :: pieces => if p c then [] :: piece :: pieces else (c :: piece) :: pieces
    | [] => [[c]]

def digitsValue (digits : Text) : Nat := digits.foldl (fun n c => 10 * n + (c.toNat - '0'.toNat)) 0

/-- `str::parse::<i64>`: an optional sign and at least one digit, in range. -/
def parseI64 (text : Text) : Option Int :=
  let (negative, digits) :=
    match text with
    | '-' :: rest => (true, rest)
    | '+' :: rest => (false, rest)
    | rest => (false, rest)
  if digits ≠ [] ∧ digits.all Char.isDigit then
    let value : Int := if negative then -(digitsValue digits : Int) else digitsValue digits
    if i64Min ≤ value ∧ value ≤ i64Max then some value else none
  else none

/-- Two's complement addition. -/
def addI64 (a b : Int) : Int := wrapI64 (a + b)

/-! ### Lossy UTF-8 -/

def isContinuation (b : UInt8) : Bool := 0x80 ≤ b && b ≤ 0xBF

/-- The range of the second byte after a lead byte of three or four. -/
def secondByteOk (lead second : UInt8) : Bool :=
  if lead == 0xE0 then 0xA0 ≤ second && second ≤ 0xBF
  else if lead == 0xED then 0x80 ≤ second && second ≤ 0x9F
  else if lead == 0xF0 then 0x90 ≤ second && second ≤ 0xBF
  else if lead == 0xF4 then 0x80 ≤ second && second ≤ 0x8F
  else isContinuation second

def bits (b : UInt8) (mask shift : Nat) : Nat := (b.toNat &&& mask) <<< shift

def replacement : Char := Char.ofNat 0xFFFD

/-- The first character of nonempty bytes and how many bytes it takes; for an ill-formed sequence
the replacement character and the length of its longest prefix that could have begun one. -/
def decodeFirst (lead : UInt8) (rest : Bytes) : Char × Nat :=
  if lead < 0x80 then (Char.ofNat lead.toNat, 1)
  else if 0xC2 ≤ lead ∧ lead ≤ 0xDF then
    match rest with
    | b :: _ =>
      if isContinuation b then (Char.ofNat (bits lead 0x1F 6 ||| bits b 0x3F 0), 2)
      else (replacement, 1)
    | [] => (replacement, 1)
  else if 0xE0 ≤ lead ∧ lead ≤ 0xEF then
    match rest with
    | b :: c :: _ =>
      if !secondByteOk lead b then (replacement, 1)
      else if !isContinuation c then (replacement, 2)
      else (Char.ofNat (bits lead 0x0F 12 ||| bits b 0x3F 6 ||| bits c 0x3F 0), 3)
    | [b] => (replacement, if secondByteOk lead b then 2 else 1)
    | [] => (replacement, 1)
  else if 0xF0 ≤ lead ∧ lead ≤ 0xF4 then
    match rest with
    | b :: c :: d :: _ =>
      if !secondByteOk lead b then (replacement, 1)
      else if !isContinuation c then (replacement, 2)
      else if !isContinuation d then (replacement, 3)
      else (Char.ofNat (bits lead 0x07 18 ||| bits b 0x3F 12 ||| bits c 0x3F 6 ||| bits d 0x3F 0), 4)
    | [b, c] =>
      (replacement, if !secondByteOk lead b then 1 else if !isContinuation c then 2 else 3)
    | [b] => (replacement, if secondByteOk lead b then 2 else 1)
    | [] => (replacement, 1)
  else (replacement, 1)

/-- `skip` bytes of the character before are still to be passed over. -/
def fromUtf8LossyFrom : Nat → Bytes → Text
  | _, [] => []
  | skip + 1, _ :: rest => fromUtf8LossyFrom skip rest
  | 0, lead :: rest =>
    let (c, len) := decodeFirst lead rest
    c :: fromUtf8LossyFrom (len - 1) rest

/-- `String::from_utf8_lossy`. -/
def fromUtf8Lossy (bytes : Bytes) : Text := fromUtf8LossyFrom 0 bytes

/-! ### The dialog -/

inductive Marker where
  | start
  | «end»
  | success
  | failed
  | cancelled
  | acceptFailed
  deriving DecidableEq, Repr

def Marker.text : Marker → String
  | .start =>
    "Dialog::CreateOkCancel(description=Are you sure you want to accept this trade? You are offering:"
  | .end => ", title= leftItem=/Menu/Confirm_Item_Ok, rightItem=/Menu/Confirm_Item_Cancel)"
  | .success => "description=The trade was successful!"
  | .failed => "description=The trade failed."
  | .cancelled => "description=The trade was cancelled"
  | .acceptFailed => "OnTradeAccepted failed"

def Marker.bytes (m : Marker) : Bytes := m.text.toUTF8.data.toList

def receiveFrom : Text := "and will receive from ".toList
def theFollowing : Text := " the following:".toList
def platinumPrefix : Text := "Platinum x ".toList

structure TradeEvent where
  eventId : String
  trade : RawTrade
  deriving DecidableEq, Repr

/-- Warframe appends rank icons and name badges from the private-use area. -/
def isPrivateUse (c : Char) : Bool := 0xE000 ≤ c.val && c.val ≤ 0xF8FF

/-- Removes trailing private-use characters and returns how many there were. -/
def stripGlyphs (text : Text) : Text × Nat :=
  let trimmed := trimEndMatches isPrivateUse text
  (trimmed, text.length - trimmed.length)

/-- `Adaptation (RARE RANK 10)`. -/
def rankSuffix (text : Text) : Option RawItem :=
  (rfind " (".toList text).bind fun open_ =>
    (stripSuffix [')'] (text.drop (open_ + 2))).bind fun inner =>
      (rsplitOnce " RANK ".toList inner).bind fun (_, rank) =>
        (parseI64 (trim rank)).map fun rank =>
          ⟨String.ofList (trim (text.take open_)), 1, some rank⟩

/-- One dialog piece. -/
def parseLine (piece : Text) : RawItem :=
  let piece := trim piece
  match stripPrefix platinumPrefix piece with
  | some amount => ⟨"Platinum", (parseI64 (trim amount)).getD 1, none⟩
  | none =>
    let (withoutGlyphs, glyphs) := stripGlyphs piece
    let withoutGlyphs := trim withoutGlyphs
    if glyphs > 0 then ⟨String.ofList withoutGlyphs, 1, some glyphs⟩
    else (rankSuffix withoutGlyphs).getD ⟨String.ofList withoutGlyphs, 1, none⟩

/-- An item that is listed again adds to its quantity. -/
def addPiece (items : List RawItem) (item : RawItem) : List RawItem :=
  match items.findIdx? fun i => i.name = item.name ∧ i.rank = item.rank with
  | some k => items.modify k fun i => { i with quantity := addI64 i.quantity item.quantity }
  | none => items ++ [item]

def parsePieces (text : Text) : List RawItem :=
  let pieces := ((splitBy (fun c => c = '\r' || c = '\n') text).map trim).filter (· ≠ [])
  (pieces.map parseLine).foldl addPiece []

/-- Splits the text between the `start` and `end` markers into the offered and received items. -/
def parseDialog (eeTimestamp : String) (dialog : Text) : RawTrade :=
  let (offeredText, rest) := (splitOnce receiveFrom dialog).getD (dialog, [])
  let (player, receivedText) := (splitOnce theFollowing rest).getD (rest, [])
  let (player, _) := stripGlyphs (trim player)
  { playerName := String.ofList (trim player)
    eeTimestamp := eeTimestamp
    offered := parsePieces offeredText
    received := parsePieces receivedText }

def hexByte (b : UInt8) : Text := [Nat.digitChar (b.toNat / 16), Nat.digitChar (b.toNat % 16)]

/-- Hex of the digest of the timestamp, a newline and the dialog. -/
def eventId (sha256 : Bytes → Bytes) (eeTimestamp : String) (dialog : Text) : String :=
  String.ofList ((sha256 (eeTimestamp.toUTF8.data.toList ++ [10] ++
    (String.ofList dialog).toUTF8.data.toList)).flatMap hexByte)

/-- Mod and arcane ranks, folded duplicates and the platinum of a dialog. -/
example : parseDialog "5380.793"
    ("\r\nPlatinum x 300\r\n\r\nand will receive from PlayerA\uE000 the following:\r\n".toList ++
      "Parry (COMMON RANK 0)\r\nParry (COMMON RANK 0)".toList) =
      ⟨"PlayerA", "5380.793", [⟨"Platinum", 300, none⟩], [⟨"Parry", 2, some 0⟩]⟩ := by
  decide +kernel

end Quantframe.LogParser
