import Fauxchange.Exchange.Envelope
import Fauxchange.Lib.PairMap

/-! The account-scoped `(account, ClOrdID) → order` correlation index the actor publishes into. -/

namespace Fauxchange.Exchange
open Lib

structure ClOrdIdRecord where
  orderId : VenueOrderId
  symbol : Symbol
  side : Side
  quantity : Nat
  sequence : Nat
  deriving DecidableEq, Repr

inductive ClOrdIdIndexError where
  | full (max : Nat)
  | accountFull (max : Nat)
  deriving DecidableEq, Repr

structure ClOrdIdIndex where
  map : PairMap AccountId ClientOrderId ClOrdIdRecord
  perAccount : Std.ExtTreeMap AccountId Nat
  maxEntries : Nat
  maxPerAccount : Nat

namespace ClOrdIdIndex

def withCeilings (maxEntries maxPerAccount : Nat) : ClOrdIdIndex :=
  ⟨∅, ∅, maxEntries, min maxPerAccount maxEntries⟩

/-- An existing key is upserted in place; a new key passes both ceilings or is refused. -/
def record (index : ClOrdIdIndex) (account : AccountId) (clOrdId : ClientOrderId)
    (entry : ClOrdIdRecord) : Except ClOrdIdIndexError Unit × ClOrdIdIndex :=
  if (account, clOrdId) ∈ index.map then
    (.ok (), { index with map := index.map.insert (account, clOrdId) entry })
  else if index.map.size ≥ index.maxEntries then (.error (.full index.maxEntries), index)
  else
    let accountCount := index.perAccount.getD account 0
    if accountCount ≥ index.maxPerAccount then (.error (.accountFull index.maxPerAccount), index)
    else
      (.ok (), { index with
        perAccount := index.perAccount.insert account (accountCount + 1)
        map := index.map.insert (account, clOrdId) entry })

def retire (index : ClOrdIdIndex) (account : AccountId) (clOrdId : ClientOrderId) : ClOrdIdIndex :=
  if (account, clOrdId) ∈ index.map then
    let kept := { index with map := index.map.erase (account, clOrdId) }
    match index.perAccount[account]? with
    | none => kept
    | some count =>
      if count - 1 = 0 then { kept with perAccount := index.perAccount.erase account }
      else { kept with perAccount := index.perAccount.insert account (count - 1) }
  else index

def resolve (index : ClOrdIdIndex) (account : AccountId) (clOrdId : ClientOrderId) :
    Option ClOrdIdRecord := index.map[(account, clOrdId)]?

end ClOrdIdIndex

/-- `record_or_warn`: a full index leaves the order uncorrelated. -/
def recordOrWarn (index : ClOrdIdIndex) (account : AccountId) (clOrdId : ClientOrderId)
    (entry : ClOrdIdRecord) : ClOrdIdIndex :=
  (index.record account clOrdId entry).2

/-- Publishes the correlation of a committed `(command, outcome)` pair. -/
def applyCommittedCorrelation (index : ClOrdIdIndex) (sequence : Nat) :
    VenueCommand → VenueOutcome → ClOrdIdIndex
  | .addOrder order, outcome =>
    match order.clientOrderId, outcome with
    | some clOrdId, .added .. | some clOrdId, .market .. =>
      recordOrWarn index order.account clOrdId
        ⟨order.orderId, order.symbol, order.side, order.quantity, sequence⟩
    | _, _ => index
  | .replace order, .replace cancelled add =>
    let index := match cancelled, order.origClientOrderId with
      | true, some original => index.retire order.account original
      | _, _ => index
    match add, order.clientOrderId with
    | .rejected .., _ => index
    | _, some clOrdId =>
      recordOrWarn index order.account clOrdId
        ⟨order.newOrderId, order.symbol, order.side, order.quantity, sequence⟩
    | _, none => index
  | _, _ => index

end Fauxchange.Exchange
