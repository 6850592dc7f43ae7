import Fauxchange.Exchange.Upstream
import Fauxchange.Fix.Price

/-! The `fauxchange.fix44.v1` dialect: tags, resource ceilings, closed value sets and decode errors. -/

namespace Fauxchange.Fix
open Exchange

namespace Tag
abbrev account : Nat := 1
abbrev beginSeqNo : Nat := 7
abbrev clOrdId : Nat := 11
abbrev commission : Nat := 12
abbrev commType : Nat := 13
abbrev cumQty : Nat := 14
abbrev endSeqNo : Nat := 16
abbrev execId : Nat := 17
abbrev lastPx : Nat := 31
abbrev lastQty : Nat := 32
abbrev msgSeqNum : Nat := 34
abbrev msgType : Nat := 35
abbrev newSeqNo : Nat := 36
abbrev orderId : Nat := 37
abbrev orderQty : Nat := 38
abbrev ordStatus : Nat := 39
abbrev ordType : Nat := 40
abbrev origClOrdId : Nat := 41
abbrev price : Nat := 44
abbrev refSeqNum : Nat := 45
abbrev senderCompId : Nat := 49
abbrev sendingTime : Nat := 52
abbrev side : Nat := 54
abbrev symbol : Nat := 55
abbrev targetCompId : Nat := 56
abbrev text : Nat := 58
abbrev timeInForce : Nat := 59
abbrev transactTime : Nat := 60
abbrev rptSeq : Nat := 83
abbrev encryptMethod : Nat := 98
abbrev cxlRejReason : Nat := 102
abbrev ordRejReason : Nat := 103
abbrev heartBtInt : Nat := 108
abbrev testReqId : Nat := 112
abbrev gapFillFlag : Nat := 123
abbrev expireTime : Nat := 126
abbrev resetSeqNumFlag : Nat := 141
abbrev noRelatedSym : Nat := 146
abbrev execType : Nat := 150
abbrev leavesQty : Nat := 151
abbrev mdReqId : Nat := 262
abbrev subscriptionRequestType : Nat := 263
abbrev marketDepth : Nat := 264
abbrev noMdEntryTypes : Nat := 267
abbrev noMdEntries : Nat := 268
abbrev mdEntryType : Nat := 269
abbrev mdEntryPx : Nat := 270
abbrev mdEntrySize : Nat := 271
abbrev mdUpdateAction : Nat := 279
abbrev mdReqRejReason : Nat := 281
abbrev refTagId : Nat := 371
abbrev refMsgType : Nat := 372
abbrev sessionRejectReason : Nat := 373
abbrev businessRejectReason : Nat := 380
abbrev cxlRejResponseTo : Nat := 434
abbrev secondaryExecId : Nat := 527
abbrev massCancelRequestType : Nat := 530
abbrev massCancelResponse : Nat := 531
abbrev totalAffectedOrders : Nat := 533
abbrev noAffectedOrders : Nat := 534
abbrev affectedOrderId : Nat := 535
abbrev username : Nat := 553
abbrev password : Nat := 554
abbrev lastLiquidityInd : Nat := 851
end Tag

def u32Max : Nat := 2 ^ 32 - 1
def u16Max : Nat := 2 ^ 16 - 1

def maxFieldsPerMessage : Nat := 4096
def maxGroupEntries : Nat := 1024

/-- The tags that are never a scalar field. `Symbol (55)` is a scalar in most messages. -/
def pureGroupMemberTags : List Nat :=
  [Tag.mdEntryType, Tag.mdEntryPx, Tag.mdEntrySize, Tag.mdUpdateAction, Tag.affectedOrderId]

inductive SessionRejectReason where
  | requiredTagMissing
  | valueIsIncorrect
  | incorrectDataFormat
  | compIdProblem
  | sendingTimeAccuracy
  | invalidMsgType
  | tagAppearsMoreThanOnce
  | incorrectNumInGroupCount
  | other (code : Nat)
  deriving DecidableEq, Repr

namespace SessionRejectReason

def toFix : SessionRejectReason → Nat
  | requiredTagMissing => 1
  | valueIsIncorrect => 5
  | incorrectDataFormat => 6
  | compIdProblem => 9
  | sendingTimeAccuracy => 10
  | invalidMsgType => 11
  | tagAppearsMoreThanOnce => 13
  | incorrectNumInGroupCount => 16
  | other code => code

/-- An unnamed code is kept. -/
def fromFix : Nat → SessionRejectReason
  | 1 => requiredTagMissing
  | 5 => valueIsIncorrect
  | 6 => incorrectDataFormat
  | 9 => compIdProblem
  | 10 => sendingTimeAccuracy
  | 11 => invalidMsgType
  | 13 => tagAppearsMoreThanOnce
  | 16 => incorrectNumInGroupCount
  | code => other code

theorem toFix_fromFix (code : Nat) : (fromFix code).toFix = code := by
  unfold fromFix
  split <;> rfl

end SessionRejectReason

inductive FixDecodeError where
  | framing
  | beginStringMismatch (actual : String)
  | missingRequiredField (tag : Nat)
  | missingConditionalField (tag : Nat) (condition : String)
  | missingRequiredChoice (first second : Nat)
  | incorrectDataFormat (tag : Nat) (reason : String)
  | valueIsIncorrect (tag : Nat) (value : String)
  | malformedSymbol (reason : String)
  | price (tag : Nat) (source : PriceSeamError)
  | emptyGroup (countTag : Nat)
  | groupCountMismatch (countTag declared decoded : Nat)
  | unsupportedApplicationMsgType (msgType : String)
  | unsupportedMsgType (msgType : String)
  | duplicateTag (tag : Nat)
  | tooManyFields (count max : Nat)
  | tooManyGroupEntries (countTag declared max : Nat)
  deriving DecidableEq, Repr

inductive FixRejectRoute where
  | sessionReject (reason : SessionRejectReason) (refTag : Option Nat)
  | businessMessageReject
  deriving DecidableEq, Repr

def FixDecodeError.rejectRoute : FixDecodeError → FixRejectRoute
  | framing => .sessionReject .incorrectDataFormat none
  | beginStringMismatch _ => .sessionReject .incorrectDataFormat (some 8)
  | missingRequiredField tag => .sessionReject .requiredTagMissing (some tag)
  | missingConditionalField tag _ => .sessionReject .requiredTagMissing (some tag)
  | missingRequiredChoice first _ => .sessionReject .requiredTagMissing (some first)
  | incorrectDataFormat tag _ => .sessionReject .incorrectDataFormat (some tag)
  | valueIsIncorrect tag _ => .sessionReject .valueIsIncorrect (some tag)
  | malformedSymbol _ => .sessionReject .valueIsIncorrect (some Tag.symbol)
  | price tag _ => .sessionReject .incorrectDataFormat (some tag)
  | emptyGroup countTag => .sessionReject .incorrectNumInGroupCount (some countTag)
  | groupCountMismatch countTag _ _ => .sessionReject .incorrectNumInGroupCount (some countTag)
  | unsupportedMsgType _ => .sessionReject .invalidMsgType (some Tag.msgType)
  | unsupportedApplicationMsgType _ => .businessMessageReject
  | duplicateTag tag => .sessionReject .tagAppearsMoreThanOnce (some tag)
  | tooManyFields _ _ => .sessionReject (.other 99) none
  | tooManyGroupEntries countTag _ _ => .sessionReject .incorrectNumInGroupCount (some countTag)

/-- `fix_closed_enum!`: a closed value set of one tag, each variant with its own wire value. -/
class FixEnum (α : Type) where
  tag : Nat
  variants : List α
  toFix : α → String
  complete : ∀ variant, variant ∈ variants
  distinct : ∀ variant ∈ variants, ∀ other ∈ variants, toFix variant = toFix other → variant = other
  printable : ∀ variant ∈ variants, toFix variant ≠ "" ∧ '\x01' ∉ (toFix variant).toList

export FixEnum (toFix)

/-- A value outside the set is refused, never defaulted. -/
def fromFix {α : Type} [FixEnum α] (value : String) : Except FixDecodeError α :=
  match (FixEnum.variants : List α).find? fun variant => toFix variant == value with
  | some variant => .ok variant
  | none => .error (.valueIsIncorrect (FixEnum.tag α) (truncateUntrusted value))

theorem fromFix_toFix {α : Type} [FixEnum α] (variant : α) : fromFix (toFix variant) = .ok variant := by
  unfold fromFix
  cases found : (FixEnum.variants : List α).find? fun other => toFix other == toFix variant with
  | none =>
    have missed := List.find?_eq_none.1 found variant (FixEnum.complete variant)
    simp at missed
  | some other =>
    have same : toFix other = toFix variant := by simpa using List.find?_some found
    have member := List.mem_of_find?_eq_some found
    rw [FixEnum.distinct other member variant (FixEnum.complete variant) same]

inductive OrderSide where
  | buy
  | sell
  deriving DecidableEq, Repr

instance : FixEnum OrderSide where
  tag := 54
  variants := [.buy, .sell]
  toFix | .buy => "1" | .sell => "2"
  complete variant := by cases variant <;> decide
  distinct := by decide
  printable := by decide

inductive OrdType where
  | market
  | limit
  deriving DecidableEq, Repr

instance : FixEnum OrdType where
  tag := 40
  variants := [.market, .limit]
  toFix | .market => "1" | .limit => "2"
  complete variant := by cases variant <;> decide
  distinct := by decide
  printable := by decide

/-- `TimeInForce (59)` as it stands on the wire. -/
inductive FixTif where
  | day
  | gtc
  | ioc
  | fok
  | gtd
  deriving DecidableEq, Repr

instance : FixEnum FixTif where
  tag := 59
  variants := [.day, .gtc, .ioc, .fok, .gtd]
  toFix | .day => "0" | .gtc => "1" | .ioc => "3" | .fok => "4" | .gtd => "6"
  complete variant := by cases variant <;> decide
  distinct := by decide
  printable := by decide

def FixTif.fromFixOrDefault : Option String → Except FixDecodeError FixTif
  | some raw => fromFix raw
  | none => .ok .gtc

inductive ExecType where
  | new
  | trade
  | canceled
  | replaced
  | rejected
  | expired
  deriving DecidableEq, Repr

instance : FixEnum ExecType where
  tag := 150
  variants := [.new, .trade, .canceled, .replaced, .rejected, .expired]
  toFix | .new => "0" | .trade => "F" | .canceled => "4" | .replaced => "5" | .rejected => "8" | .expired => "C"
  complete variant := by cases variant <;> decide
  distinct := by decide
  printable := by decide

inductive OrdStatus where
  | new
  | partiallyFilled
  | filled
  | canceled
  | replaced
  | rejected
  | expired
  deriving DecidableEq, Repr

instance : FixEnum OrdStatus where
  tag := 39
  variants := [.new, .partiallyFilled, .filled, .canceled, .replaced, .rejected, .expired]
  toFix
    | .new => "0" | .partiallyFilled => "1" | .filled => "2" | .canceled => "4" | .replaced => "5"
    | .rejected => "8" | .expired => "C"
  complete variant := by cases variant <;> decide
  distinct := by decide
  printable := by decide

inductive MassCancelRequestType where
  | security
  | all
  deriving DecidableEq, Repr

instance : FixEnum MassCancelRequestType where
  tag := 530
  variants := [.security, .all]
  toFix | .security => "1" | .all => "7"
  complete variant := by cases variant <;> decide
  distinct := by decide
  printable := by decide

inductive MassCancelResponse where
  | rejected
  | security
  | all
  deriving DecidableEq, Repr

instance : FixEnum MassCancelResponse where
  tag := 531
  variants := [.rejected, .security, .all]
  toFix | .rejected => "0" | .security => "1" | .all => "7"
  complete variant := by cases variant <;> decide
  distinct := by decide
  printable := by decide

inductive MdEntryType where
  | bid
  | offer
  | trade
  deriving DecidableEq, Repr

instance : FixEnum MdEntryType where
  tag := 269
  variants := [.bid, .offer, .trade]
  toFix | .bid => "0" | .offer => "1" | .trade => "2"
  complete variant := by cases variant <;> decide
  distinct := by decide
  printable := by decide

inductive SubscriptionRequestType where
  | snapshotPlusUpdates
  | unsubscribe
  deriving DecidableEq, Repr

instance : FixEnum SubscriptionRequestType where
  tag := 263
  variants := [.snapshotPlusUpdates, .unsubscribe]
  toFix | .snapshotPlusUpdates => "1" | .unsubscribe => "2"
  complete variant := by cases variant <;> decide
  distinct := by decide
  printable := by decide

inductive MdUpdateAction where
  | new
  | change
  | delete
  deriving DecidableEq, Repr

instance : FixEnum MdUpdateAction where
  tag := 279
  variants := [.new, .change, .delete]
  toFix | .new => "0" | .change => "1" | .delete => "2"
  complete variant := by cases variant <;> decide
  distinct := by decide
  printable := by decide

inductive CxlRejResponseTo where
  | orderCancelRequest
  | orderCancelReplaceRequest
  deriving DecidableEq, Repr

instance : FixEnum CxlRejResponseTo where
  tag := 434
  variants := [.orderCancelRequest, .orderCancelReplaceRequest]
  toFix | .orderCancelRequest => "1" | .orderCancelReplaceRequest => "2"
  complete variant := by cases variant <;> decide
  distinct := by decide
  printable := by decide

inductive LastLiquidityInd where
  | maker
  | taker
  deriving DecidableEq, Repr

instance : FixEnum LastLiquidityInd where
  tag := 851
  variants := [.maker, .taker]
  toFix | .maker => "1" | .taker => "2"
  complete variant := by cases variant <;> decide
  distinct := by decide
  printable := by decide

inductive CommType where
  | absolute
  deriving DecidableEq, Repr

instance : FixEnum CommType where
  tag := 13
  variants := [.absolute]
  toFix | .absolute => "3"
  complete variant := by cases variant; decide
  distinct := by decide
  printable := by decide

end Fauxchange.Fix
