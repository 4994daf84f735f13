import Investor.Lib.Group
import Investor.Universe.Allocation
import Mathlib.Data.Prod.Lex
import Mathlib.Data.String.Basic

/-!
# The execution FIFO

`reconstruct_fifo` matches the buys and sells of an execution stream into books of closes and
open lots. The fills that cannot be read are skipped and counted; the others are given an
identity (account, venue, currency, symbol), split by exchange where one identity traded on
several, and each book is replayed in time order (`fifoBook`).

A time is its instant, a naive one read as UTC (`as_utc`).
-/

namespace Investor.Intraday

open Lib Universe

/-! ## Fills, closes and lots -/

structure FillRecord where
  symbol : String
  side : String
  quantity : ℚ
  price : ℚ
  executedAt : Option Int
  venue : String := ""
  currency : String := ""
  exchange : String := ""
  account : String := ""
  fee : Option ℚ := none
  fillId : String := ""
  deriving DecidableEq

inductive Basis
  | fill | unknownOpeningInventory
  deriving DecidableEq

structure FifoClose where
  symbol : String
  venue : String
  currency : String
  exchange : String
  account : String
  quantity : ℚ
  entryPrice : Option ℚ
  exitPrice : Option ℚ
  openedAt : Option Int
  closedAt : Option Int
  grossPnl : Option ℚ
  fee : Option ℚ
  basis : Basis
  deriving DecidableEq

structure OpenLot where
  quantity : ℚ
  price : ℚ
  openedAt : Int
  feePerShare : Option ℚ
  deriving DecidableEq

/-- `key`: what a book is of. -/
structure BookKey where
  account : String
  venue : String
  currency : String
  symbol : String
  deriving DecidableEq

structure FifoBook where
  key : BookKey
  exchange : String
  closes : List FifoClose
  openLots : List OpenLot
  deriving DecidableEq

structure FifoLedger where
  books : List FifoBook
  skippedFills : ℕ
  deriving DecidableEq

def DUST : ℚ := 1 / 1000000000000

/-! ## One book -/

/-- `as_utc(fill.executed_at)`; a fill without a time does not come to a book. -/
def FillRecord.when (f : FillRecord) : Int := f.executedAt.getD 0

def matchedClose (key : BookKey) (exchange : String) (f : FillRecord) (lot : OpenLot) (take : ℚ) :
    FifoClose :=
  let gross := (f.price - lot.price) * take
  let buyFee := lot.feePerShare.map (· * take)
  let sellFee := if 0 < f.quantity then f.fee.map (· * (take / f.quantity)) else none
  let fee := buyFee.bind fun b => sellFee.map (b + ·)
  { symbol := key.symbol, venue := key.venue, currency := key.currency, exchange,
    account := key.account, quantity := take, entryPrice := some lot.price,
    exitPrice := some f.price, openedAt := some lot.openedAt, closedAt := some f.when,
    grossPnl := some (roundTo 4 gross), fee := fee.map (roundTo 4), basis := .fill }

def unknownClose (key : BookKey) (exchange : String) (f : FillRecord) (qty : ℚ) : FifoClose :=
  { symbol := key.symbol, venue := key.venue, currency := key.currency, exchange,
    account := key.account, quantity := qty, entryPrice := none, exitPrice := some f.price,
    openedAt := none, closedAt := some f.when, grossPnl := none, fee := none,
    basis := .unknownOpeningInventory }

/-- The `while` loop of a sale: the closes, the lots after it and the quantity left. -/
def closeLots (key : BookKey) (exchange : String) (f : FillRecord) :
    ℚ → List OpenLot → List FifoClose × List OpenLot × ℚ
  | qtyLeft, [] => ([], [], qtyLeft)
  | qtyLeft, lot :: lots =>
    if qtyLeft ≤ DUST then ([], lot :: lots, qtyLeft)
    else
      let take := min lot.quantity qtyLeft
      let left := lot.quantity - take
      let close := matchedClose key exchange f lot take
      if left ≤ DUST then
        let rest := closeLots key exchange f (qtyLeft - take) lots
        (close :: rest.1, rest.2)
      else
        -- the lot covers the sale, so nothing is left and the loop ends
        ([close], { lot with quantity := left } :: lots, qtyLeft - take)

structure BookState where
  lots : List OpenLot := []
  closes : List FifoClose := []

def buyLot (f : FillRecord) : OpenLot :=
  { quantity := f.quantity, price := f.price, openedAt := f.when,
    feePerShare := if f.quantity ≤ 0 then none else f.fee.map (· / f.quantity) }

def replayFill (key : BookKey) (exchange : String) (s : BookState) (f : FillRecord) : BookState :=
  if f.side = "buy" then { s with lots := s.lots ++ [buyLot f] }
  else
    let sold := closeLots key exchange f f.quantity s.lots
    let unknown := if DUST < sold.2.2 then [unknownClose key exchange f sold.2.2] else []
    { lots := sold.2.1, closes := s.closes ++ sold.1 ++ unknown }

/-- `(as_utc(executed_at), 0 if buy else 1, fill_id)`. -/
def FillRecord.sortKey (f : FillRecord) : Int ×ₗ ℕ ×ₗ String :=
  toLex (f.when, toLex (if f.side = "buy" then 0 else 1, f.fillId))

/-- `_fifo_book`. -/
def fifoBook (key : BookKey) (exchange : String) (items : List FillRecord) : FifoBook :=
  let s := (sortedBy FillRecord.sortKey items).foldl (replayFill key exchange) {}
  { key, exchange, closes := s.closes, openLots := s.lots }

section Ledger

def FillRecord.bookKey (f : FillRecord) : BookKey := ⟨f.account, f.venue, f.currency, f.symbol⟩

variable [Casing]

/-! ## Identities -/

/-- `_blank`, where `""` and `"UNKNOWN"` are missing. -/
def blank (value : String) : Bool := Casing.upper (strip value) ∈ ["", "UNKNOWN"]

def onlyValue (values : List String) : String :=
  match values.dedup with
  | [value] => value
  | _ => ""

structure Identity where
  account : String
  venue : String
  currency : String
  deriving DecidableEq

def singleIdentity (items : List FillRecord) : Identity :=
  { account := onlyValue ((items.map fun f => strip f.account).filter (· ≠ ""))
    venue := onlyValue ((items.filter fun f => !blank f.venue).map
      fun f => Casing.upper (strip f.venue))
    currency := onlyValue ((items.filter fun f => !blank f.currency).map
      fun f => Casing.upper (strip f.currency)) }

def orOnly (value only : String) : String :=
  let next := Casing.upper (strip value)
  if blank next then (if only = "" then "UNKNOWN" else only) else next

def adoptIdentity (symbol : String) (identity : Identity) (f : FillRecord) : FillRecord :=
  { f with
    symbol
    side := Casing.lower (strip f.side)
    account := if strip f.account = "" then identity.account else strip f.account
    venue := orOnly f.venue identity.venue
    currency := orOnly f.currency identity.currency
    exchange := Casing.upper (strip f.exchange) }

def FillRecord.symbolKey (f : FillRecord) : String := Casing.upper f.symbol

/-- `_adopt_single_identity`. -/
def adoptSingleIdentity (fills : List FillRecord) : List FillRecord :=
  (groupsBy FillRecord.symbolKey fills).flatMap fun g =>
    g.2.map (adoptIdentity g.1 (singleIdentity g.2))

/-! ## The ledger -/

/-- The fills that are counted and left out. The last test is for a price that is no number. -/
def isSkipped (f : FillRecord) : Bool :=
  Casing.lower (strip f.side) ∉ ["buy", "sell"] ∨ f.executedAt = none ∨ f.quantity ≤ DUST ∨
    f.price ≤ 0 ∨ f.price ≠ f.price

def usableFills (fills : List FillRecord) : List FillRecord := fills.filter fun f => !isSkipped f

/-- The exchanges of one identity, each with its fills; one book if they do not differ. -/
def splitByExchange (items : List FillRecord) : List (String × List FillRecord) :=
  let exchanges := ((items.map (·.exchange)).filter (· ≠ "")).dedup
  if exchanges.length ≤ 1 then [(exchanges.headD "", items)]
  else groupsBy (fun f => if f.exchange = "" then "UNKNOWN" else f.exchange) items

structure BookItems where
  key : BookKey
  exchange : String
  items : List FillRecord

def bookItems (fills : List FillRecord) : List BookItems :=
  (groupsBy FillRecord.bookKey (adoptSingleIdentity (usableFills fills))).flatMap fun g =>
    (splitByExchange g.2).map fun e => ⟨g.1, e.1, e.2⟩

def BookItems.book (b : BookItems) : FifoBook := fifoBook b.key b.exchange b.items

/-- `(book.currency, book.venue, book.symbol, book.account)`. -/
def FifoBook.sortKey (b : FifoBook) : String ×ₗ String ×ₗ String ×ₗ String :=
  toLex (b.key.currency, toLex (b.key.venue, toLex (b.key.symbol, b.key.account)))

def reconstructFifo (fills : List FillRecord) : FifoLedger :=
  { books := sortedBy FifoBook.sortKey ((bookItems fills).map BookItems.book)
    skippedFills := (fills.filter isSkipped).length }

end Ledger

end Investor.Intraday
