import Quantframe.LogParser.Dialog

/-!
# Records of the trade handlers

The rows of the three tables a trade touches, the items the handlers are given, and the sets of
operation words they pass around. A JSON value is kept as its text.
-/

namespace Quantframe.Handlers

open LogParser (stripPrefix stripSuffix trim)
open Trades (SubType DateTime Error)

abbrev Json := String

inductive TransactionType where
  | sale
  | purchase
  deriving DecidableEq, Repr

inductive TransactionItemType where
  | item
  | riven
  deriving DecidableEq, Repr

inductive StockStatus where
  | pending
  | live
  | toLowProfit
  | noSellers
  | noBuyers
  | inActive
  | smaLimit
  | orderLimit
  | overpriced
  | underpriced
  | maxPriceDrop
  deriving DecidableEq, Repr

structure PriceHistory where
  createdAt : String
  price : Int
  deriving DecidableEq, Repr

/-- A row of `stock_item`. -/
structure StockItem where
  id : Int
  wfmId : String
  wfmUrl : String
  itemName : String
  itemUniqueName : String
  subType : Option SubType
  /-- Platinum for one unit. -/
  bought : Int
  listPrice : Option Int
  owned : Int
  isHidden : Bool
  status : StockStatus
  priceHistory : List PriceHistory
  updatedAt : DateTime
  createdAt : DateTime
  properties : Option Json
  deriving DecidableEq, Repr

/-- A row of `wish_list`. -/
structure WishListItem where
  id : Int
  wfmId : String
  wfmUrl : String
  itemName : String
  itemUniqueName : String
  subType : Option SubType
  quantity : Int
  listPrice : Option Int
  priceHistory : List PriceHistory
  status : StockStatus
  updatedAt : DateTime
  createdAt : DateTime
  isHidden : Bool
  properties : Option Json
  deriving DecidableEq, Repr

/-- A row of `transaction`. -/
structure Transaction where
  id : Int
  wfmId : String
  wfmUrl : String
  itemName : String
  itemType : TransactionItemType
  itemUniqueName : String
  subType : Option SubType
  tags : String
  transactionType : TransactionType
  quantity : Int
  userName : String
  /-- Platinum for the whole quantity. -/
  price : Int
  profit : Option Int
  credits : Int
  updatedAt : DateTime
  createdAt : DateTime
  properties : Option Json
  deriving DecidableEq, Repr

/-- What the item cache knows about a tradable item. -/
structure CacheItem where
  name : String
  uniqueName : String
  wfmId : String
  wfmUrl : String
  tradeTax : Int
  tags : List String
  variantToUniqueName : List (String × String)
  deriving DecidableEq, Repr

/-- `CreateStockItem` and `CreateWishListItem`, which have the same fields. -/
structure CreateItem where
  raw : String
  /-- Platinum for the whole quantity. -/
  bought : Option Int
  quantity : Int
  subType : Option SubType
  wfmId : String
  wfmUrl : String
  credits : Int
  itemName : String
  itemUniqueName : String
  tags : List String
  properties : Option Json
  isValidated : Bool
  deriving DecidableEq, Repr

abbrev CreateStockItem := CreateItem
abbrev CreateWishListItem := CreateItem

def CreateItem.new (raw : String) (subType : Option SubType) (quantity : Int) : CreateItem :=
  ⟨raw, none, quantity, subType, "", "", 0, "", "", [], none, false⟩

def CreateItem.setBought (item : CreateItem) (bought : Int) : CreateItem :=
  { item with bought := some bought }

/-- `bought.unwrap_or(0)`. -/
def CreateItem.price (item : CreateItem) : Int := item.bought.getD 0

def StockItem.new (item : CreateStockItem) : StockItem :=
  ⟨0, item.wfmId, item.wfmUrl, item.itemName, item.itemUniqueName, item.subType, item.price, none,
    item.quantity, false, .pending, [], 0, 0, item.properties⟩

def WishListItem.new (item : CreateWishListItem) : WishListItem :=
  ⟨0, item.wfmId, item.wfmUrl, item.itemName, item.itemUniqueName, item.subType, item.quantity, none,
    [], .pending, 0, 0, false, item.properties⟩

def CreateItem.transaction (item : CreateItem) (transactionType : TransactionType)
    (userName : String) : Transaction :=
  ⟨0, item.wfmId, item.wfmUrl, item.itemName, .item, item.itemUniqueName, item.subType,
    ",".intercalate item.tags, transactionType, item.quantity, userName, item.price, none,
    item.credits, 0, 0, none⟩

/-- `CreateStockItem::to_transaction`. -/
def CreateItem.stockTransaction (item : CreateStockItem) (userName : String) :
    Except String Transaction :=
  if !item.isValidated then .error "Stock item is not validated yet"
  else .ok (item.transaction (if 0 < item.price then .purchase else .sale) userName)

/-- `CreateWishListItem::to_transaction`. -/
def CreateItem.wishListTransaction (item : CreateWishListItem) (userName : String) :
    Except String Transaction :=
  if !item.isValidated then .error "Wish list item is not validated yet"
  else .ok (item.transaction .purchase userName)

/-! ### Operation sets -/

/-- `OperationSet`: words in the order they were added. -/
abbrev OperationSet := List String

namespace OperationSet

def has (s : OperationSet) (operation : String) : Bool := s.any (· == operation)

def add (s : OperationSet) (operation : String) : OperationSet :=
  if has s operation then s else s ++ [operation]

@[simp] theorem has_nil (operation : String) : has [] operation = false := rfl

theorem has_add (s : OperationSet) (operation other : String) :
    has (add s operation) other = (has s other || decide (operation = other)) := by
  unfold add
  split
  next h =>
    by_cases heq : operation = other
    · subst heq
      simp [h]
    · simp [heq]
  next => simp [has, List.any_append, Bool.beq_eq_decide_eq]

def ofList (operations : List String) : OperationSet := operations.foldl add []

def endsWith (s : OperationSet) (suffix : String) : Bool :=
  s.any fun op => (stripSuffix suffix.toList op.toList).isSome

/-- What follows the first `prefix:`, trimmed, unless it is empty. -/
def getValueAfter (s : OperationSet) (pre : String) : Option String :=
  ((s.findSome? fun op => stripPrefix (pre ++ ":").toList op.toList).map trim).bind fun value =>
    if value = [] then none else some (String.ofList value)

end OperationSet

/-- `DbErr` or a market request's error, as its text. -/
abbrev Failure := String

/-- `Error::from_db`. -/
def fromDb (component message : String) (_ : Failure) : Error := ⟨"Service:" ++ component, message⟩

/-- `Error::from_wfm`. -/
def fromWfm (component message : String) (_ : Failure) : Error := ⟨"WFMClient:" ++ component, message⟩

/-- `From<PoisonError<_>>`. -/
def fromPoison (_ : Failure) : Error := ⟨"Mutex", "Failed to lock mutex"⟩

end Quantframe.Handlers
