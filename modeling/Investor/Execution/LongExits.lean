import Investor.Execution.IntentLifecycle

/-!
# The exits of long positions

`size_position` sizes an entry: it asks how many shares the risk to the stop buys, and of a sell it
asks that its stop is above its price, as the stop of a short is. `validate` sizes every intent
with it, exits too. The stop of a long position is below the price, and one that is missing is
sized as a stop at zero, so that an exit of a long position has no stop that passes.

The final gate of `submit_intent` is the same check. An intent that got past the first (by the
hand of an operator, say) is blocked there.
-/

namespace Investor.Execution.Pretrade

open Lib Market Core

section Exits

variable {cfg : Settings} {controls : TradingControlState} {a : PretradeArgs}

/-! ## Sells under the sizing of entries -/

section

variable [Casing]

theorem sizePosition_sell {inp : SizingInput} (hside : Casing.lower inp.side = "sell")
    (hstop : inp.stopPrice < inp.entryPrice) :
    sizePosition inp =
      some (refusedSize 0 |inp.entryPrice - inp.stopPrice| "stop_not_above_entry_for_short") := by
  have hdistance : ¬ |inp.entryPrice - inp.stopPrice| ≤ 0 :=
    not_le.mpr (abs_pos.mpr (sub_pos.mpr hstop).ne')
  unfold sizePosition
  simp [hdistance, hside, hstop.le]

theorem validate_sell {r : PretradeCheckResult} (h : validate cfg controls a = some r)
    (hside : Casing.lower a.side = "sell") (hstop : a.stopPrice.getD 0 < a.entryPrice) :
    r.status.goesOn = false ∧ r.approvedQuantity = 0 := by
  rcases validate_cases h with hrefused | ⟨_, _, _, sizing, hsizing, happroved, _⟩
  · exact hrefused
  · rw [sizePosition_sell hside hstop] at hsizing
    cases hsizing
    cases happroved

/-! ## Legitimate exits -/

/-- A sell of a long position, or of a part of it, that nothing is to be said against: the
    controls are active, and none of the conditions on the data, the market, the spread, the
    account, duplicates and expiry fails. -/
structure LongExit (cfg : Settings) (controls : TradingControlState) (a : PretradeArgs) : Prop where
  sells : Casing.lower a.side = "sell"
  positive : 0 < a.quantity
  held : a.quantity ≤ a.positionQty
  price : 0 < a.entryPrice
  stopBelow : ∀ stop, a.stopPrice = some stop → stop < a.entryPrice
  active : controls.state = .active
  unvetoed : a.hardVetoes = []
  unexpired : a.decisionExpired = false
  unblocked : a.accountBlocked = false
  openMarket : a.marketOpen ∨ cfg.enableExtendedHoursOrders
  tradable : a.assetTradable
  unduplicated : a.duplicateClientOrder = false
  unconflicted : a.conflictingOpenOrder = false
  goodData : cfg.dataQualityHardFailThreshold ≤ a.dataQualityScore
  freshQuote : ∀ age, a.quoteAgeSeconds = some age → age ≤ (cfg.latestQuoteMaxAgeSeconds : ℚ) * 20
  narrowSpread : ∀ bps, a.spreadBps = some bps → bps ≤ cfg.maxOrderSpreadBps

theorem LongExit.stop_lt (h : LongExit cfg controls a) : a.stopPrice.getD 0 < a.entryPrice := by
  cases hstop : a.stopPrice with
  | none => exact h.price
  | some stop => exact h.stopBelow stop hstop

theorem LongExit.violationsOf_eq (h : LongExit cfg controls a) : violationsOf cfg a = [] := by
  have hheld : ¬ a.positionQty ≤ 0 := not_le.mpr (h.positive.trans_le h.held)
  have hquote : a.quoteAgeSeconds.any ((cfg.latestQuoteMaxAgeSeconds : ℚ) * 20 < ·) = false := by
    cases hage : a.quoteAgeSeconds with
    | none => rfl
    | some age => simpa using h.freshQuote age hage
  have hspread : a.spreadBps.any (cfg.maxOrderSpreadBps < ·) = false := by
    cases hbps : a.spreadBps with
    | none => rfl
    | some bps => simpa using h.narrowSpread bps hbps
  have hmarket : (!a.marketOpen && !cfg.enableExtendedHoursOrders) = false := by
    rcases h.openMarket with hopen | hextended
    · simp [hopen]
    · simp [hextended]
  unfold violationsOf
  simp [h.unexpired, h.unblocked, hmarket, h.tradable, h.unduplicated, h.unconflicted,
    not_lt.mpr h.goodData, hquote, hspread, h.sells, hheld]

theorem LongExit.validate_eq (h : LongExit cfg controls a) :
    validate cfg controls a = some (violated a ["stop_not_above_entry_for_short"] (warningsOf cfg a)
      (refusedSize 0 |a.entryPrice - a.stopPrice.getD 0| "stop_not_above_entry_for_short")) := by
  have hsize : sizePosition (sizingInput cfg a) = some (refusedSize 0
      |a.entryPrice - a.stopPrice.getD 0| "stop_not_above_entry_for_short") :=
    sizePosition_sell h.sells h.stop_lt
  unfold validate
  simp [h.active, h.unvetoed, h.sells, hsize, h.violationsOf_eq, refusedSize, Option.filter]

def ExitPasses (cfg : Settings) (controls : TradingControlState) (a : PretradeArgs) : Prop :=
  ∃ r, validate cfg controls a = some r ∧ r.status.goesOn ∧ r.approvedQuantity = a.quantity

/-! ## The final gate -/

structure Proposes (intent : OrderIntent) (a : PretradeArgs) : Prop where
  exits : intentIsExit intent
  side : intent.side = a.side
  quantity : orderedQty intent = a.quantity
  price : intent.entryPrice = some a.entryPrice
  stop : intent.stopPrice = a.stopPrice

/-- The final gate of `submit_intent` does not block the intent. -/
def FinalGatePasses (cfg : Settings) (controls : TradingControlState) (intent : OrderIntent)
    (now : Int) : Prop :=
  ∃ hard, validate cfg controls (finalCheck cfg intent now) = some hard ∧
    ¬ (hard.status = .rejected ∨ hard.status = .systemBlocked)

end

theorem goesOn_of_not_refused {status : PretradeStatus}
    (h : ¬ (status = .rejected ∨ status = .systemBlocked)) : status.goesOn := by
  cases status with
  | rejected => exact absurd (Or.inl rfl) h
  | systemBlocked => exact absurd (Or.inr rfl) h
  | approved | approvedWithReduction | requiresManualApproval => rfl

/-- **No legitimate exit of a long position passes**, neither the check nor the final gate. -/
theorem longExit_blocked [Casing] (h : LongExit cfg controls a) :
    ¬ ExitPasses cfg controls a ∧ ∀ intent, Proposes intent a → ∀ now,
      ¬ FinalGatePasses cfg controls intent now := by
  constructor
  · rintro ⟨r, hr, hgoes, _⟩
    exact Bool.false_ne_true ((validate_sell hr h.sells h.stop_lt).1.symm.trans hgoes)
  · rintro intent hterms now ⟨hard, hcheck, hgoes⟩
    have hsells : Casing.lower (finalCheck cfg intent now).side = "sell" := by
      show Casing.lower intent.side = "sell"
      rw [hterms.side, h.sells]
    have hstop : (finalCheck cfg intent now).stopPrice.getD 0 <
        (finalCheck cfg intent now).entryPrice := by
      show intent.stopPrice.getD 0 < intent.entryPrice.getD 0
      rw [hterms.stop, hterms.price]
      exact h.stop_lt
    exact Bool.false_ne_true
      ((validate_sell hcheck hsells hstop).1.symm.trans (goesOn_of_not_refused hgoes))

end Exits

/-! ## A whole position that cannot be closed -/

section Held

attribute [local instance] asciiCasing

def activeControls : TradingControlState :=
  { state := .active, reason := none, changedAt := 0, canceledOpenOrders := false }

def closeTen : PretradeArgs :=
  { side := "sell", quantity := 10, entryPrice := 100, stopPrice := some 95, equity := 25000,
    cash := 25000, buyingPower := 25000, grossExposure := 1000, positionQty := 10,
    dataQualityScore := 1, quoteAgeSeconds := some 0, spreadBps := some 10, hardVetoes := [],
    assetTradable := true, marketOpen := true, accountBlocked := false,
    duplicateClientOrder := false, conflictingOpenOrder := false, decisionExpired := false,
    openPositions := 1 }

theorem longExit_closeTen : LongExit mockSettings activeControls closeTen where
  sells := by decide +kernel
  positive := by decide +kernel
  held := by decide +kernel
  price := by decide +kernel
  stopBelow := by rintro _ ⟨⟩; decide +kernel
  active := rfl
  unvetoed := rfl
  unexpired := rfl
  unblocked := rfl
  openMarket := Or.inl rfl
  tradable := rfl
  unduplicated := rfl
  unconflicted := rfl
  goodData := by decide +kernel
  freshQuote := by rintro _ ⟨⟩; decide +kernel
  narrowSpread := by rintro _ ⟨⟩; decide +kernel

/-- The position cannot be closed: the check approves nothing of the ten shares. -/
theorem closeTen_rejected : LongExit mockSettings activeControls closeTen ∧
    ¬ ExitPasses mockSettings activeControls closeTen := by
  refine ⟨longExit_closeTen, ?_⟩
  rintro ⟨r, hr, -, hwhole⟩
  rw [longExit_closeTen.validate_eq] at hr
  cases hr
  exact absurd hwhole (by decide +kernel)

theorem closeTen_blocked : ¬ ExitPasses mockSettings activeControls closeTen ∧
    ∀ intent, Proposes intent closeTen → ∀ now,
      ¬ FinalGatePasses mockSettings activeControls intent now :=
  longExit_blocked longExit_closeTen

end Held

end Investor.Execution.Pretrade
