import Investor.Brokers.OrderRefs
import Investor.Execution.RowUpdates
import Investor.Intraday.LifecycleTracking
import Investor.Intraday.StopUpdates

/-!
# Protection stops

`_submit_protection_stop` rests a stop at the broker for an open lifecycle, and notes in
`protection_submitted` that it does. It looks for working stops of the lifecycle first: one at the
right price is taken as protection, those at another price are cancelled and a new one is submitted.
What counts as a working stop of the lifecycle is told by its key, `protect-stop:` and the id.

The lifecycles and the orders change by other hands too, one step of `PositionOp` each: the broker's
holdings are written to the lifecycles, the monitor trails a stop, the operator proposes one, an
order is cancelled, the statuses are synced. Only the trail clears the note.
-/

namespace Investor.Intraday

open Lib Schema Market Risk Execution Universe OrderBook

/-- `STOP_ORDER_TYPES`. -/
def STOP_ORDER_TYPES : List String := ["stop", "stp", "stop_limit"]

/-! ## Keys -/

/-- `f"{value:.4f}"`. -/
def fourDecimals (value : ℚ) : String :=
  let n := (roundHalfEven (|value| * 10 ^ 4)).toNat
  let places := Nat.toDigits 10 (n % 10 ^ 4)
  String.ofList ((if value < 0 then ['-'] else []) ++ Nat.toDigits 10 (n / 10 ^ 4) ++ '.' ::
    (List.replicate (4 - places.length) '0' ++ places))

def stopFront (u : Ibkr.Uuid) : String := "protect-stop:" ++ u.text

def stopKey (u : Ibkr.Uuid) (stop : ℚ) : String := stopFront u ++ (":" ++ fourDecimals stop)

def isKeyChar (c : Char) : Bool := c ≠ 'h' && c ≠ 'l' && c ≠ 'u'

theorem isKeyChar_of_isDigit {c : Char} (h : c.isDigit) : isKeyChar c := by
  unfold isKeyChar
  have hne : ∀ d : Char, d.isDigit = false → c ≠ d := by
    rintro d hd rfl
    rw [h] at hd
    cases hd
  simp [hne 'h' rfl, hne 'l' rfl, hne 'u' rfl]

theorem isKeyChar_fourDecimals (value : ℚ) : ∀ c ∈ (fourDecimals value).toList, isKeyChar c := by
  intro c hc
  unfold fourDecimals at hc
  simp only [String.toList_ofList, List.mem_append, List.mem_cons, List.mem_replicate] at hc
  rcases hc with (hsign | hwhole) | rfl | ⟨-, rfl⟩ | hplaces
  · split at hsign
    · rw [List.mem_singleton.mp hsign]
      rfl
    · cases hsign
  · exact isKeyChar_of_isDigit (Nat.isDigit_of_mem_toDigits (by decide) (by decide) hwhole)
  · rfl
  · rfl
  · exact isKeyChar_of_isDigit (Nat.isDigit_of_mem_toDigits (by decide) (by decide) hplaces)

theorem isKeyChar_text (u : Ibkr.Uuid) : ∀ c ∈ u.text.toList, isKeyChar c := by
  intro c hc
  have hhex : ∀ c ∈ u.hex, isKeyChar c := by
    have hdigits : ∀ c ∈ "0123456789abcdef".toList, isKeyChar c :=
      List.all_eq_true.mp (by decide)
    exact fun c hc => hdigits c (u.isHex c hc)
  unfold Ibkr.Uuid.text Ibkr.grouped at hc
  simp only [String.toList_ofList, List.mem_append, List.mem_cons] at hc
  rcases hc with hc | rfl | hc | rfl | hc | rfl | hc | rfl | hc
  · exact hhex c (List.mem_of_mem_take hc)
  · rfl
  · exact hhex c (List.mem_of_mem_drop (List.mem_of_mem_take hc))
  · rfl
  · exact hhex c (List.mem_of_mem_drop (List.mem_of_mem_take hc))
  · rfl
  · exact hhex c (List.mem_of_mem_drop (List.mem_of_mem_take hc))
  · rfl
  · exact hhex c (List.mem_of_mem_drop hc)

theorem isKeyChar_stopKey (u : Ibkr.Uuid) (stop : ℚ) :
    ∀ c ∈ (stopKey u stop).toList, isKeyChar c := by
  intro c hc
  unfold stopKey stopFront at hc
  simp only [String.toList_append, List.mem_append] at hc
  rcases hc with (hc | hc) | hc | hc
  · exact List.all_eq_true.mp (show "protect-stop:".toList.all isKeyChar = true by decide) c hc
  · exact isKeyChar_text u c hc
  · exact List.all_eq_true.mp (show ":".toList.all isKeyChar = true by decide) c hc
  · exact isKeyChar_fourDecimals stop c hc

theorem front_of_stopKey (u : Ibkr.Uuid) (stop : ℚ) : hasPrefix (stopKey u stop) (stopFront u) := by
  unfold hasPrefix stopKey
  rw [String.toList_append, List.isPrefixOf_iff_prefix]
  exact List.prefix_append _ _

theorem text_eq_of_fronts {u v : Ibkr.Uuid} {key : String} (hu : hasPrefix key (stopFront u))
    (hv : hasPrefix key (stopFront v)) : u.text = v.text := by
  have hlength : (stopFront u).toList.length = (stopFront v).toList.length := by
    rw [String.length_toList, String.length_toList, stopFront, stopFront, String.length_append,
      String.length_append, u.length_text, v.length_text]
  have hfront : (stopFront u).toList = (stopFront v).toList :=
    (List.prefix_of_prefix_length_le (List.isPrefixOf_iff_prefix.mp hu)
      (List.isPrefixOf_iff_prefix.mp hv) hlength.le).eq_of_length hlength
  unfold stopFront at hfront
  rw [String.toList_append, String.toList_append] at hfront
  exact String.toList_inj.mp (List.append_cancel_left hfront)

def Lifecycle.exitSide (r : Lifecycle) : Side := if 0 ≤ r.quantity then .sell else .buy

section Protect

theorem id_updateExitPolicy (cfg : MonitorSettings) (stop : Option ℚ) (r : Lifecycle) :
    (updateExitPolicy cfg stop r).id = r.id := by
  unfold updateExitPolicy
  split
  · rfl
  · split <;> rfl

variable [Casing]

/-! ## The stop of a lifecycle -/

def isOwnStop (u : Ibkr.Uuid) (r : Lifecycle) (o : Order) : Bool :=
  decide (o.symbol = Casing.upper r.symbol) && decide (o.side = r.exitSide.value) &&
    hasPrefix o.idempotencyKey (stopFront u) && STOP_ORDER_TYPES.contains (Casing.lower o.orderType) &&
    o.isWorking

def isStale (stop : ℚ) (o : Order) : Bool := decide (1 / 10 ^ 6 < |o.stopPrice.getD 0 - stop|)

def cancelEach (cancels : String → Except BrokerFault OrderResult) :
    List Order → OrderBook → OrderBook × Bool
  | [], b => (b, true)
  | o :: os, b =>
    if (b.orders.find? o.idempotencyKey).all (cancelFails cancels) then (b, false)
    else cancelEach cancels os (b.cancelOrder cancels o.idempotencyKey)

def stopIntent (cfg : Settings) (u : Ibkr.Uuid) (decisionId : String) (r : Lifecycle) (stop : ℚ) :
    ValidatedOrderIntent :=
  { symbol := Casing.upper r.symbol, side := r.exitSide, quantity := |r.quantity|
    orderType := "stop", limitPrice := none, stopPrice := some stop
    idempotencyKey := stopKey u stop, decisionId, thesis := "protection_stop"
    venue := some (if r.venue = "" then (venueForSymbol r.symbol cfg none).value else r.venue)
    conId := r.conId.filter (· ≠ 0), timeInForce := some "gtc", attribution := none }

theorem stopIntent_not_exit (cfg : Settings) (u : Ibkr.Uuid) (decisionId : String) (r : Lifecycle)
    (stop : ℚ) : isExitIntent (stopIntent cfg u decisionId r stop) = false := by
  have hmarkers : ∀ marker ∈ FLATTEN_MARKERS ++ PARTIAL_MARKERS,
      hasPart (stopKey u stop) marker = false := by
    intro marker hmarker
    have hall : ((FLATTEN_MARKERS ++ PARTIAL_MARKERS).all fun marker =>
        marker.toList.any fun c => !isKeyChar c) = true := by decide
    obtain ⟨c, hc, hno⟩ := List.any_eq_true.mp (List.all_eq_true.mp hall marker hmarker)
    rw [Bool.not_eq_true'] at hno
    rw [hasPart, decide_eq_false_iff_not]
    intro hpart
    rw [isKeyChar_stopKey u stop c (hpart.subset hc)] at hno
    cases hno
  have hlower : Casing.lower "protection_stop" = "protection_stop" :=
    Casing.lower_ascii _ (by decide)
  have hthesis : thesisFlattens (stopIntent cfg u decisionId r stop) = false := by
    unfold thesisFlattens
    show (hasPrefix (Casing.lower "protection_stop") "force_close" ||
      hasPrefix (Casing.lower "protection_stop") "hard_stop" ||
      hasPrefix (Casing.lower "protection_stop") "closing:") = false
    rw [hlower]
    decide
  unfold isExitIntent
  rw [hthesis, Bool.or_false, List.any_eq_false]
  intro marker hmarker
  simp [hmarkers marker hmarker, stopIntent]

def isLive (o : Order) : Bool :=
  !(["rejected", "cancelled", "canceled"].contains (Casing.lower o.status))

structure ProtectionCall where
  controls : TradingControlState
  answers : SubmitAnswers
  /-- The decision of the lifecycle, or a fresh id. -/
  decisionId : String

/-- What a call leaves: the note, the orders, and the number it returns, `none` where it raises. -/
structure ProtectionResult where
  protectionSubmitted : Bool
  orders : OrderBook
  returned : Option ℕ

/-- `_submit_protection_stop` from the submission on. -/
def submitStop (cfg : Settings) (u : Ibkr.Uuid) (c : ProtectionCall) (r : Lifecycle) (stop : ℚ)
    (b : OrderBook) : ProtectionResult :=
  let intent := stopIntent cfg u c.decisionId r stop
  if submitBlocked cfg c.controls true then ⟨false, b, some 0⟩
  else
    let after := b.submitOne cfg c.answers intent none
    match b.ordersMade cfg c.answers intent none with
    | none => ⟨r.protectionSubmitted, after, none⟩
    | some made => ⟨made.any isLive, after, some made.length⟩

/-- `_submit_protection_stop` of a lifecycle that is not noted, at its stop. -/
def restStop (cfg : Settings) (u : Ibkr.Uuid) (c : ProtectionCall) (r : Lifecycle) (stop : ℚ)
    (b : OrderBook) : ProtectionResult :=
  let working := b.orders.rows.filter (isOwnStop u r)
  let stale := working.filter (isStale stop)
  -- a stop that rests is noted before the controls are asked
  if !working.isEmpty && stale.isEmpty then ⟨true, b, some 0⟩
  else if !c.controls.isNewOrderAllowed then ⟨r.protectionSubmitted, b, some 0⟩
  else
    let cleared := cancelEach c.answers.cancels stale b
    if !cleared.2 then ⟨r.protectionSubmitted, cleared.1, some 0⟩
    else submitStop cfg u c r stop cleared.1

/-- `_submit_protection_stop`. -/
def submitProtectionStop (cfg : Settings) (u : Ibkr.Uuid) (c : ProtectionCall) (r : Lifecycle)
    (b : OrderBook) : ProtectionResult :=
  if r.protectionSubmitted then ⟨true, b, some 0⟩
  else
    match r.stopPrice with
    | none => ⟨false, b, some 0⟩
    | some stop => if |r.quantity| ≤ 0 then ⟨false, b, some 0⟩ else restStop cfg u c r stop b

/-! ## The lifecycles and the orders -/

structure Positions where
  lifecycles : LifecycleTable
  orders : OrderBook

/-- What the positions are kept with: the settings, the stop a watchlist book gives, and the ids of
    the lifecycles. No other lifecycle has the id of the one that is followed. -/
structure Keeping where
  settings : MonitorSettings
  horizonStop : Lifecycle → Option ℚ
  uuid : ℕ → Ibkr.Uuid
  followed : ℕ
  unique : ∀ i, (uuid i).text = (uuid followed).text → i = followed

inductive PositionOp
  /-- `_submit_protection_stop`. -/
  | protect (id : ℕ) (call : ProtectionCall)
  /-- `ensure_lifecycle_from_broker`, of one of the broker's holdings. -/
  | holding (p : Holding)
  /-- The end of `sync_from_broker_positions`. -/
  | closeFlat (held : List (String × String))
  | evaluate (id : ℕ) (columns : MonitorColumns) (o : Observation)
  | updateExitPolicy (id : ℕ) (stop : Option ℚ)
  | cancelOrder (cancels : String → Except BrokerFault OrderResult) (key : String)
  | syncStatuses (orderOf : String → Except BrokerFault OrderResult) (now : Int)

theorem nodup_ensure (horizonStop : Lifecycle → Option ℚ) (t : LifecycleTable) (p : Holding) :
    ((ensureLifecycleFromBroker horizonStop t.rows p).map Lifecycle.id).Nodup :=
  @ids_foldl horizonStop t.rows [p] _ t.unique

def ensureHolding (horizonStop : Lifecycle → Option ℚ) (t : LifecycleTable) (p : Holding) :
    LifecycleTable :=
  ⟨ensureLifecycleFromBroker horizonStop t.rows p, nodup_ensure horizonStop t p⟩

theorem id_closeFlat (held : List (String × String)) (r : Lifecycle) :
    (closeFlat held r).id = r.id := by
  unfold closeFlat
  split <;> rfl

/-- A lifecycle after `evaluate`. -/
def Lifecycle.evaluated (columns : MonitorColumns) (o : Observation) (r : Lifecycle) : Lifecycle :=
  (observed { r, columns with } o).toLifecycle

theorem id_evaluated (columns : MonitorColumns) (o : Observation) (r : Lifecycle) :
    (r.evaluated columns o).id = r.id := by
  unfold Lifecycle.evaluated observed Monitored.trailed
  split <;> rfl

def Positions.step (k : Keeping) (s : Positions) : PositionOp → Positions
  | .protect id call =>
    match s.lifecycles.find? id with
    | none => s
    | some r =>
      let result := submitProtectionStop k.settings.toSettings (k.uuid id) call r s.orders
      { lifecycles := s.lifecycles.updateAt id
          (fun r => { r with protectionSubmitted := result.protectionSubmitted }) fun _ => rfl
        orders := result.orders }
  | .holding p => { s with lifecycles := ensureHolding k.horizonStop s.lifecycles p }
  | .closeFlat held =>
    { s with lifecycles := s.lifecycles.update (closeFlat held) (id_closeFlat held) }
  | .evaluate id columns o =>
    { s with
      lifecycles := s.lifecycles.updateAt id (Lifecycle.evaluated columns o)
        (id_evaluated columns o) }
  | .updateExitPolicy id stop =>
    { s with
      lifecycles := s.lifecycles.updateAt id (updateExitPolicy k.settings stop)
        (id_updateExitPolicy k.settings stop) }
  | .cancelOrder cancels key => { s with orders := s.orders.cancelOrder cancels key }
  | .syncStatuses orderOf now => { s with orders := s.orders.syncStatusesFromBroker orderOf now }

end Protect

end Investor.Intraday
