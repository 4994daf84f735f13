import Investor.Agents.Sanitize
import Investor.Execution.OrderUpdates
import Investor.Intraday.Lifecycles
import Investor.Intraday.Pnl

/-!
# Postmarket settlement

`settle` closes the books of one session day at one venue. It replays every execution of the
venue's orders up to the end of the day (`reconstruct_fifo`), sums the closes of the day book by
book, and writes one settlement row and the realised results to the `trade_pnl` table, where the
row of a symbol is found again by the day and the venue in its payload.

The reconciliation and the position sync that come first are inputs, as is the account; the
event on the bus is left out.
-/

namespace Investor.Intraday

open Lib Market Execution Universe Agents

/-! ## Executions as fills -/

/-- A row of the `executions` table, its primary key included; its time is never null. -/
structure ExecutionRow extends Execution where
  id : String

def FEE_KEYS : List String := ["fee", "fees", "commission"]

def feeAt (payload : Dict Json) : Option (Option ℚ) :=
  (payload.firstAt FEE_KEYS fun v => !v.isNull).map fun v => v.float?.filter (0 ≤ ·)

/-- `fee_from_payload`. -/
def feeFromPayload (payload : Dict Json) : Option ℚ :=
  match feeAt payload with
  | some fee => fee
  | none =>
    match payload.at "commissionReport" with
    | .obj report =>
      let commission := Dict.at report "commission"
      if commission.isNull then none else (feeAt [("commission", commission)]).getD none
    | _ => none

section Settle

/-- `str(first or second or "")`. -/
def textOr (t : PyText) (first second : Json) : String :=
  t.text ((first.orElse second).orElse (.str ""))

def fillCurrency (recorded venue : String) : String :=
  if recorded ≠ "" then recorded
  else if venue = "AU" then "AUD"
  else if venue = "US" then "USD"
  else ""

section

variable [Casing]

/-- `fill_from_execution`, for an order that is there. -/
def fillFromExecution (t : PyText) (e : ExecutionRow) (order : Order) : Option FillRecord :=
  let side := Casing.lower (strip order.side)
  if side ∉ ["buy", "sell"] ∨ e.qty ≤ DUST ∨ !isSaneEquityPrice e.price then none
  else
    let part := fun key => textOr t (e.rawPayload.at key) (order.rawPayload.at key)
    let venue := Casing.upper (strip (part "venue"))
    some
      { symbol := Casing.upper e.symbol, side := side, quantity := e.qty, price := e.price
        executedAt := some e.executedAt, venue := venue
        currency := fillCurrency (Casing.upper (strip (part "currency"))) venue
        exchange := Casing.upper (strip (part "exchange"))
        account := strip (textOr t ((e.rawPayload.at "account").orElse
          (order.rawPayload.at "account")) (order.rawPayload.at "account_id"))
        fee := feeFromPayload e.rawPayload, fillId := e.id }

/-! ## The ledger of a venue -/

structure History where
  orders : OrderTable
  executions : List ExecutionRow

/-- What a settlement knows of the world: how values print, the instant a date begins at UTC
    (`datetime.fromisoformat`), and `POSITION_LOT_METHOD`. -/
structure SettlementConfig where
  text : PyText
  dayStart : String → Int
  positionLotMethod : String

/-- `timedelta(days=1)`, in microseconds. -/
def DAY : Int := 86400 * 1000000

/-- `day_start <= t < day_end`. -/
def SettlementConfig.onDay (cfg : SettlementConfig) (day : String) (at_ : Int) : Bool :=
  cfg.dayStart day ≤ at_ && at_ < cfg.dayStart day + DAY

/-- `_order_venue`. -/
def orderBook (t : PyText) (o : Order) : String :=
  Casing.upper (textOr t (o.rawPayload.at "venue") (.str "US"))

def bookOrders (cfg : SettlementConfig) (h : History) (book : Venue) : List Order :=
  h.orders.rows.filter fun o => orderBook cfg.text o = book.value

def bookExecutions (cfg : SettlementConfig) (h : History) (book : Venue) : List ExecutionRow :=
  h.executions.filter fun e => (bookOrders cfg h book).any (·.idempotencyKey = e.orderKey)

def fillsThrough (cfg : SettlementConfig) (h : History) (day : String) (book : Venue) :
    List FillRecord :=
  ((bookExecutions cfg h book).filter fun e => e.executedAt < cfg.dayStart day + DAY).filterMap
    fun e => ((bookOrders cfg h book).find? (·.idempotencyKey = e.orderKey)).bind
      (fillFromExecution cfg.text e)

def dayLedger (cfg : SettlementConfig) (h : History) (day : String) (book : Venue) : FifoLedger :=
  reconstructFifo (fillsThrough cfg h day book)

end

/-! ## The closes of the day -/

/-- `pnl_rows`, one for each book. -/
structure PnlRow where
  symbol : String
  currency : String
  grossRealizedPl : Option ℚ
  netRealizedPl : Option ℚ
  fees : Option ℚ
  feesKnown : Bool
  unknownBasisCount : ℕ
  pnlUnavailable : Option String
  conflict : Bool
  deriving DecidableEq

def dayCloses (cfg : SettlementConfig) (day : String) (b : FifoBook) : List FifoClose :=
  b.closes.filter fun c => c.closedAt.any (cfg.onDay day)

def knownCloses (cfg : SettlementConfig) (day : String) (b : FifoBook) : List FifoClose :=
  (dayCloses cfg day b).filter (·.grossPnl.isSome)

def grossOf (closes : List FifoClose) : ℚ := (closes.filterMap (·.grossPnl)).sum

def pnlRow (cfg : SettlementConfig) (day : String) (b : FifoBook) : PnlRow :=
  let closes := dayCloses cfg day b
  let known := knownCloses cfg day b
  let unknown := closes.filter (·.grossPnl.isNone)
  let gross := if known = [] then none else some (roundTo 4 (grossOf known))
  let fee := if known ≠ [] ∧ known.all (·.fee.isSome) then
    some (roundTo 4 (known.filterMap (·.fee)).sum) else none
  { symbol := b.key.symbol, currency := b.key.currency, grossRealizedPl := gross
    netRealizedPl := gross.map fun g => (fee.map fun f => roundTo 4 (g - f)).getD g
    fees := fee, feesKnown := fee.isSome && gross.isSome, unknownBasisCount := unknown.length
    pnlUnavailable := if gross.isSome ∨ unknown = [] then none
      else some "unknown_opening_inventory"
    conflict := false }

/-- Whether a book of the ledger has a row: its symbol was traded on the day, or it has closes. -/
def isListed [Casing] (cfg : SettlementConfig) (h : History) (day : String) (book : Venue) (b : FifoBook) :
    Bool :=
  ((fillsThrough cfg h day book).filter fun f => cfg.onDay day f.when).any
    (·.symbol = b.key.symbol) || dayCloses cfg day b ≠ []

def listedBooks [Casing] (cfg : SettlementConfig) (h : History) (day : String) (book : Venue) :
    List FifoBook :=
  (dayLedger cfg h day book).books.filter (isListed cfg h day book)

def pnlRows [Casing] (cfg : SettlementConfig) (h : History) (day : String) (book : Venue) : List PnlRow :=
  (listedBooks cfg h day book).map (pnlRow cfg day)

/-! ## The rows that are written -/

/-- A row of the `postmarket_settlements` table. -/
structure PostmarketSettlement where
  sessionDate : String
  reconciliationResult : Json
  accountSnapshot : Json
  orderCount : ℕ
  executionCount : ℕ
  overnightPositions : List String
  pnlSummary : List PnlRow
  payload : Dict Json

/-- A row of the `trade_pnl` table. -/
structure TradePnL where
  symbol : String
  grossRealizedPl : ℚ
  netRealizedPl : ℚ
  unrealizedPl : ℚ
  fees : ℚ
  estimatedSlippage : ℚ
  returnPct : ℚ
  method : String
  conflictWithBroker : Bool
  payload : Dict Json

structure SettlementTables where
  settlements : List PostmarketSettlement
  tradePnl : List TradePnL

/-- `settle(session_date=day, venue=book)`, and what it is told on the way. -/
structure SettleCall where
  day : String
  book : Venue
  recon : Dict Json
  sync : Json
  account : Json
  lifecycles : List Lifecycle
  updatedAt : String

/-- `_existing_settlement`. -/
def isSettlementOf [Casing] (t : PyText) (day : String) (book : Venue) (s : PostmarketSettlement) : Bool :=
  s.sessionDate = day ∧ Casing.upper (textOr t (s.payload.at "venue") (.str "US")) = book.value

/-- `lot_method`: what the column has room for. -/
def SettlementConfig.lotMethod (cfg : SettlementConfig) : String :=
  String.ofList ((if cfg.positionLotMethod = "" then "FIFO" else cfg.positionLotMethod).toList.take
    16)

def SettlementConfig.legacyMethod (cfg : SettlementConfig) (day : String) (book : Venue) :
    String :=
  cfg.lotMethod ++ ":" ++ day ++ ":" ++ book.value

/-- Whether `_existing_trade_pnl` takes a row for one of the day and the venue. -/
def isTagged [Casing] (cfg : SettlementConfig) (day : String) (book : Venue) (r : TradePnL) : Bool :=
  (cfg.text.text ((r.payload.at "session_date").orElse (.str "")) = day ∧
    Casing.upper (cfg.text.text ((r.payload.at "venue").orElse (.str ""))) = book.value) ∨
    r.method = cfg.legacyMethod day book

/-- `row_payload`. -/
def rowPayload (day : String) (book : Venue) (row : PnlRow) : Dict Json :=
  [("session_date", .str day), ("venue", .str book.value), ("currency", .str row.currency),
    ("fees_known", .bool row.feesKnown), ("unknown_basis_count", .num row.unknownBasisCount),
    ("pnl_unavailable", (row.pnlUnavailable.map Json.str).getD .null)]

def newTradePnl (cfg : SettlementConfig) (day : String) (book : Venue) (row : PnlRow) : TradePnL :=
  { symbol := row.symbol, grossRealizedPl := row.grossRealizedPl.getD 0
    netRealizedPl := row.netRealizedPl.getD 0, unrealizedPl := 0, fees := row.fees.getD 0
    estimatedSlippage := 0, returnPct := 0, method := cfg.lotMethod
    conflictWithBroker := row.conflict, payload := rowPayload day book row }

def updateTradePnl (cfg : SettlementConfig) (day : String) (book : Venue) (row : PnlRow)
    (r : TradePnL) : TradePnL :=
  { r with
    method := cfg.lotMethod, grossRealizedPl := row.grossRealizedPl.getD 0
    netRealizedPl := row.netRealizedPl.getD 0, unrealizedPl := 0, fees := row.fees.getD 0
    conflictWithBroker := row.conflict, payload := r.payload.merge (rowPayload day book row) }

/-- One round of the loop over `pnl_rows`. -/
def storeRow [Casing] (cfg : SettlementConfig) (day : String) (book : Venue) (rows : List TradePnL)
    (row : PnlRow) : List TradePnL :=
  upsertFirst (fun r => r.symbol = row.symbol && isTagged cfg day book r)
    (updateTradePnl cfg day book row) (newTradePnl cfg day book row) rows

def settlementOf [Casing] (cfg : SettlementConfig) (h : History) (c : SettleCall) : PostmarketSettlement :=
  let executions := bookExecutions cfg h c.book
  let dayExecs := executions.filter fun e => cfg.onDay c.day e.executedAt
  { sessionDate := c.day, reconciliationResult := c.recon.at "result"
    accountSnapshot := if c.account.isObj then c.account else .obj []
    orderCount := (bookOrders cfg h c.book).length
    -- a day without executions is settled on all of them
    executionCount := (if dayExecs = [] then executions else dayExecs).length
    overnightPositions := (c.lifecycles.filter fun lc =>
      lc.status ∈ [.open, .adding, .reducing, .pendingClose] ∧ lc.venue = c.book.value).map (·.symbol)
    pnlSummary := pnlRows cfg h c.day c.book
    payload := [("venue", .str c.book.value), ("position_sync", c.sync),
      ("recon", .obj (c.recon.erase "book")),
      ("execution_scope", .str "fifo_history_through_day_end"),
      ("session_fill_scope", .str (if dayExecs = [] ∧ executions ≠ [] then
        "all_executions_no_date_filter" else "session_day")),
      ("updated_at", .str c.updatedAt)] }

/-- `settle`. -/
def settle [Casing] (cfg : SettlementConfig) (h : History) (d : SettlementTables) (c : SettleCall) :
    SettlementTables :=
  { settlements := upsertFirst (isSettlementOf cfg.text c.day c.book)
      (fun _ => settlementOf cfg h c) (settlementOf cfg h c) d.settlements
    tradePnl := (pnlRows cfg h c.day c.book).foldl (storeRow cfg c.day c.book) d.tradePnl }

end Settle

end Investor.Intraday
