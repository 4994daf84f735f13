import Investor.Execution.LongExits

/-!
# The limits of an approved buy

`validate` gives `size_position` four limits on a buy: the risk of a trade, the share of the equity
that a position may have, the buying power and the cash floor. It gives it the shares that are held
of the symbol as well. The sizing caps the quantity by the first three, and looks neither at
the shares that are held nor at the cash floor, which its comment leaves to the caller. The
caller does not look either.

So the risk and the buying power are kept by every approval, and the holding and the cash only
where some number that bounds the quantity happens to leave them alone.
-/

namespace Investor.Execution.Pretrade

open Lib Market Core Universe

section Limits

variable {cfg : Settings} {controls : TradingControlState} {a : PretradeArgs}
  {r : PretradeCheckResult}

/-! ## The size of a buy -/

def riskShares (cfg : Settings) (a : PretradeArgs) : ℚ :=
  a.equity * (cfg.riskPerTradePct / 100) / |a.entryPrice - a.stopPrice.getD 0|

def positionShares (cfg : Settings) (a : PretradeArgs) : ℚ :=
  a.equity * (cfg.maxPositionPct / 100) / a.entryPrice

def powerShares (a : PretradeArgs) : ℚ := a.buyingPower / a.entryPrice

def entryShares (cfg : Settings) (a : PretradeArgs) : ℚ :=
  min (min (riskShares cfg a) (positionShares cfg a)) (powerShares a)

def sizedEntry (cfg : Settings) (a : PretradeArgs) : SizingResult :=
  { approved := true, quantity := roundTo 6 (entryShares cfg a),
    notional := roundTo 2 (entryShares cfg a * a.entryPrice),
    riskAmount := a.equity * (cfg.riskPerTradePct / 100),
    stopDistance := |a.entryPrice - a.stopPrice.getD 0|, reason := none }

structure Sizable (cfg : Settings) (a : PretradeArgs) : Prop where
  price : 0 < a.entryPrice
  stop : a.stopPrice.getD 0 < a.entryPrice
  riskBudget : 0 < a.equity * (cfg.riskPerTradePct / 100)
  positionCap : 0 < a.equity * (cfg.maxPositionPct / 100)
  power : 0 < a.buyingPower

theorem Sizable.distance_pos (h : Sizable cfg a) : 0 < |a.entryPrice - a.stopPrice.getD 0| :=
  abs_pos.mpr (sub_pos.mpr h.stop).ne'

theorem Sizable.entryShares_pos (h : Sizable cfg a) : 0 < entryShares cfg a :=
  lt_min (lt_min (div_pos h.riskBudget h.distance_pos) (div_pos h.positionCap h.price))
    (div_pos h.power h.price)

theorem cappedQty_sizingInput (cfg : Settings) (hprice : 0 < a.entryPrice) :
    cappedQty (sizingInput cfg a) |a.entryPrice - a.stopPrice.getD 0|
      (a.equity * (cfg.riskPerTradePct / 100)) = max 0 (entryShares cfg a) := by
  unfold cappedQty sizingInput
  simp [capAt, hprice, entryShares, riskShares, positionShares, powerShares]

theorem cappedQty_of_price_nonpos {distance riskAmount : ℚ} (hprice : a.entryPrice ≤ 0) :
    cappedQty (sizingInput cfg a) distance riskAmount = 0 := by
  unfold cappedQty sizingInput
  simp [capAt, not_lt.mpr hprice]

theorem sizable_of_entryShares_pos (hprice : 0 < a.entryPrice)
    (hstop : a.stopPrice.getD 0 < a.entryPrice) (hshares : 0 < entryShares cfg a) :
    Sizable cfg a := by
  obtain ⟨hboth, hpower⟩ := lt_min_iff.mp hshares
  obtain ⟨hrisk, hposition⟩ := lt_min_iff.mp hboth
  have hdistance : 0 < |a.entryPrice - a.stopPrice.getD 0| := abs_pos.mpr (sub_pos.mpr hstop).ne'
  exact ⟨hprice, hstop, (div_pos_iff_of_pos_right hdistance).mp hrisk,
    (div_pos_iff_of_pos_right hprice).mp hposition, (div_pos_iff_of_pos_right hprice).mp hpower⟩

theorem entryShares_mul_le (cfg : Settings) (hprice : 0 < a.entryPrice) :
    entryShares cfg a * a.entryPrice ≤ a.buyingPower :=
  (le_div_iff₀ hprice).mp (min_le_right _ _)

theorem sizePosition_buy_iff [Casing] (hside : Casing.lower a.side = "buy") {sizing : SizingResult} :
    (sizePosition (sizingInput cfg a) = some sizing ∧ sizing.approved) ↔
      Sizable cfg a ∧ sizing = sizedEntry cfg a := by
  have hlower : Casing.lower (sizingInput cfg a).side = "buy" := hside
  have hsell : ¬ "buy" = "sell" := by decide
  constructor
  · rintro ⟨hsize, happroved⟩
    unfold sizePosition at hsize
    simp only [hlower, true_and, hsell, false_and, if_false, and_true] at hsize
    split_ifs at hsize with hdistance hstop hzero hnone hpower
    all_goals
      cases hsize
    all_goals try
      cases happroved
    have hprice : 0 < a.entryPrice := by
      by_contra hneg
      exact hnone (cappedQty_of_price_nonpos (not_lt.mp hneg)).le
    have hqty := cappedQty_sizingInput cfg hprice
    have hshares : 0 < entryShares cfg a := by
      by_contra hneg
      exact hnone (hqty.trans (max_eq_left (not_lt.mp hneg))).le
    refine ⟨sizable_of_entryShares_pos hprice (not_le.mp hstop) hshares, ?_⟩
    rw [max_eq_right hshares.le] at hqty
    unfold sizedEntry
    rw [← hqty]
    rfl
  · rintro ⟨hsizable, rfl⟩
    refine ⟨?_, rfl⟩
    have hqty : cappedQty (sizingInput cfg a) |(sizingInput cfg a).entryPrice -
        (sizingInput cfg a).stopPrice| ((sizingInput cfg a).portfolioEquity *
          ((sizingInput cfg a).riskPerTradePct / 100)) = entryShares cfg a :=
      (cappedQty_sizingInput cfg hsizable.price).trans (max_eq_right hsizable.entryShares_pos.le)
    have hpower : ¬ (sizingInput cfg a).availableBuyingPower + 1 / 1000000 <
        entryShares cfg a * (sizingInput cfg a).entryPrice := by
      have hle := entryShares_mul_le cfg hsizable.price
      show ¬ a.buyingPower + 1 / 1000000 < entryShares cfg a * a.entryPrice
      linarith
    have hdistance : ¬ |(sizingInput cfg a).entryPrice - (sizingInput cfg a).stopPrice| ≤ 0 :=
      not_le.mpr hsizable.distance_pos
    have hstop : ¬ (sizingInput cfg a).entryPrice ≤ (sizingInput cfg a).stopPrice :=
      not_le.mpr hsizable.stop
    have hprice : ¬ (sizingInput cfg a).entryPrice = 0 := hsizable.price.ne'
    unfold sizePosition
    simp only [hlower, true_and, hsell, false_and, if_false, and_true, hqty, hdistance, hstop,
      hprice, not_le.mpr hsizable.entryShares_pos, hpower]
    rfl

/-! ## Which buys are approved -/

structure Approvable [Casing] (cfg : Settings) (controls : TradingControlState) (a : PretradeArgs) :
    Prop extends Sizable cfg a where
  active : controls.state = .active
  unvetoed : a.hardVetoes = []
  unviolated : violationsOf cfg a = []
  stopGiven : a.stopPrice.isSome

theorem not_goesOn_blocked {violations : List String} :
    ¬ (blocked a violations).status.goesOn := by
  rw [blocked_goesOn]
  exact Bool.false_ne_true

/-- A buy goes on exactly if it is approvable, at the size its limits leave. -/
theorem validate_buy_iff [Casing] (hside : Casing.lower a.side = "buy") :
    (validate cfg controls a = some r ∧ r.status.goesOn) ↔
      Approvable cfg controls a ∧ r = passed cfg a (warningsOf cfg a) (sizedEntry cfg a) := by
  constructor
  · rintro ⟨hr, hgoes⟩
    rcases validate_cases hr with ⟨hrefused, _⟩ |
      ⟨hactive, hunvetoed, hunviolated, sizing, hsizing, happroved, rfl⟩
    · exact absurd (hrefused.symm.trans hgoes) Bool.false_ne_true
    · obtain ⟨hsizable, rfl⟩ := (sizePosition_buy_iff hside).mp ⟨hsizing, happroved⟩
      refine ⟨⟨hsizable, hactive, hunvetoed, hunviolated, ?_⟩, rfl⟩
      by_contra hnone
      have hstop : a.stopPrice.isNone ∧ Casing.lower a.side = "buy" :=
        ⟨by simpa using hnone, hside⟩
      unfold validate at hr
      simp only [hactive, hunvetoed, hstop, and_self, if_true, reduceCtorEq, if_false, ne_eq,
        not_true_eq_false, Option.some.injEq] at hr
      exact not_goesOn_blocked (hr ▸ hgoes)
  · rintro ⟨h, rfl⟩
    constructor
    · have hstop : ¬ (a.stopPrice.isNone ∧ Casing.lower a.side = "buy") := by
        intro hnone
        have := h.stopGiven
        rw [Option.isNone_iff_eq_none.mp hnone.1] at this
        cases this
      have hsize := ((sizePosition_buy_iff hside).mpr ⟨h.toSizable, rfl⟩).1
      unfold validate
      simp only [h.active, h.unvetoed, h.unviolated, hstop, hsize, reduceCtorEq, if_false, ne_eq,
        not_true_eq_false, Option.map_some]
      rfl
    · unfold passed
      dsimp only
      split
      · rfl
      · split <;> rfl

/-! ## The limits -/

def quantityRounding : ℚ := 1 / 2 / 10 ^ 6

/-- The four limits of an approved buy, up to the rounding of its quantity. -/
structure ApprovedWithin (cfg : Settings) (a : PretradeArgs) (r : PretradeCheckResult) : Prop where
  holding : (a.positionQty + r.approvedQuantity) * a.entryPrice ≤
    a.equity * (cfg.maxPositionPct / 100) + quantityRounding * a.entryPrice
  cash : a.equity * (cfg.minCashPct / 100) - quantityRounding * a.entryPrice ≤ r.cashAfter
  risk : r.approvedQuantity * r.stopDistance ≤
    a.equity * (cfg.riskPerTradePct / 100) + quantityRounding * r.stopDistance
  power : r.approvedNotional ≤ a.buyingPower + quantityRounding * a.entryPrice

/-- The holding and the cash are within their limits with this many shares bought. -/
def Affordable (cfg : Settings) (a : PretradeArgs) (shares : ℚ) : Prop :=
  (a.positionQty + shares) * a.entryPrice ≤
      a.equity * (cfg.maxPositionPct / 100) + quantityRounding * a.entryPrice ∧
    a.equity * (cfg.minCashPct / 100) - quantityRounding * a.entryPrice ≤
      a.cash - shares * a.entryPrice

/-- The numbers that bound the quantity of a buy: what is asked for, and what the risk, the
    position limit and the buying power allow. -/
def offeredShares (cfg : Settings) (a : PretradeArgs) : List ℚ :=
  [a.quantity, roundTo 6 (riskShares cfg a), roundTo 6 (positionShares cfg a),
    roundTo 6 (powerShares a)]

theorem Affordable.mono {fewer shares : ℚ} (hprice : 0 < a.entryPrice) (h : fewer ≤ shares)
    (hshares : Affordable cfg a shares) : Affordable cfg a fewer := by
  have hcost : fewer * a.entryPrice ≤ shares * a.entryPrice :=
    mul_le_mul_of_nonneg_right h hprice.le
  refine ⟨?_, ?_⟩
  · have := hshares.1
    rw [add_mul] at this ⊢
    linarith
  · have := hshares.2
    linarith

theorem affordable_min (hprice : 0 < a.entryPrice) {x y : ℚ} :
    Affordable cfg a (min x y) ↔ Affordable cfg a x ∨ Affordable cfg a y := by
  constructor
  · intro h
    rcases min_choice x y with hmin | hmin
    · exact Or.inl (hmin ▸ h)
    · exact Or.inr (hmin ▸ h)
  · rintro (h | h)
    · exact h.mono hprice (min_le_left x y)
    · exact h.mono hprice (min_le_right x y)

theorem affordable_approved (hprice : 0 < a.entryPrice) :
    Affordable cfg a (min a.quantity (roundTo 6 (entryShares cfg a))) ↔
      ∃ shares ∈ offeredShares cfg a, Affordable cfg a shares := by
  have hmono : Monotone (roundTo 6) := fun _ _ => roundTo_mono 6
  unfold entryShares
  rw [hmono.map_min, hmono.map_min, affordable_min hprice, affordable_min hprice,
    affordable_min hprice]
  simp [offeredShares, or_assoc]

theorem roundTo_le (q : ℚ) : roundTo 6 q ≤ q + quantityRounding := by
  have h := (abs_le.mp (abs_roundTo_sub_le 6 q)).2
  unfold quantityRounding
  linarith

theorem approved_mul_le {unit budget : ℚ} (hunit : 0 < unit)
    (hshares : entryShares cfg a ≤ budget / unit) :
    min a.quantity (roundTo 6 (entryShares cfg a)) * unit ≤ budget + quantityRounding * unit := by
  have hqty : min a.quantity (roundTo 6 (entryShares cfg a)) ≤ budget / unit + quantityRounding :=
    (min_le_right _ _).trans ((roundTo_le _).trans (add_le_add_left hshares _))
  calc min a.quantity (roundTo 6 (entryShares cfg a)) * unit
      ≤ (budget / unit + quantityRounding) * unit := mul_le_mul_of_nonneg_right hqty hunit.le
    _ = budget + quantityRounding * unit := by rw [add_mul, div_mul_cancel₀ _ hunit.ne']

theorem approvedWithin_passed_iff [Casing] (h : Sizable cfg a) (hside : Casing.lower a.side = "buy") :
    ApprovedWithin cfg a (passed cfg a (warningsOf cfg a) (sizedEntry cfg a)) ↔
      Affordable cfg a (min a.quantity (roundTo 6 (entryShares cfg a))) := by
  have hcash : (passed cfg a (warningsOf cfg a) (sizedEntry cfg a)).cashAfter =
      a.cash - min a.quantity (roundTo 6 (entryShares cfg a)) * a.entryPrice := by
    simp [passed, hside, sizedEntry]
  constructor
  · intro hwithin
    exact ⟨hwithin.holding, hcash ▸ hwithin.cash⟩
  · rintro ⟨hholding, hfloor⟩
    refine ⟨hholding, hcash ▸ hfloor, ?_, ?_⟩
    · exact approved_mul_le h.distance_pos ((min_le_left _ _).trans (min_le_left _ _))
    · exact approved_mul_le h.price (min_le_right _ _)

/-- **When an approval keeps its limits.** The buy is not approved, or what bounds its quantity
    leaves the holding and the cash alone. -/
theorem approvedWithin_iff [Casing] (hside : Casing.lower a.side = "buy") :
    (∀ r, validate cfg controls a = some r → r.status.goesOn → ApprovedWithin cfg a r) ↔
      ¬ Approvable cfg controls a ∨ ∃ shares ∈ offeredShares cfg a, Affordable cfg a shares := by
  constructor
  · intro hwithin
    by_cases h : Approvable cfg controls a
    · obtain ⟨hr, hgoes⟩ := (validate_buy_iff hside).mpr ⟨h, rfl⟩
      exact Or.inr ((affordable_approved h.price).mp
        ((approvedWithin_passed_iff h.toSizable hside).mp (hwithin _ hr hgoes)))
    · exact Or.inl h
  · intro hwhen r hr hgoes
    obtain ⟨h, rfl⟩ := (validate_buy_iff hside).mp ⟨hr, hgoes⟩
    rcases hwhen with hnot | haffordable
    · exact absurd h hnot
    · exact (approvedWithin_passed_iff h.toSizable hside).mpr
        ((affordable_approved h.price).mpr haffordable)

end Limits

/-! ## A position bought twice -/

section Twice

attribute [local instance] asciiCasing

def buyTwice : PretradeArgs :=
  { side := "buy", quantity := 25, entryPrice := 100, stopPrice := some 99, equity := 25000,
    cash := 22500, buyingPower := 22500, grossExposure := 2500, positionQty := 25,
    dataQualityScore := 1, quoteAgeSeconds := some 0, spreadBps := some 10, hardVetoes := [],
    assetTradable := true, marketOpen := true, accountBlocked := false,
    duplicateClientOrder := false, conflictingOpenOrder := false, decisionExpired := false,
    openPositions := 1 }

/-- The check approves it in full, and a fifth of the equity is held. -/
theorem buyTwice_overweight :
    ¬ ∀ r, validate mockSettings activeControls buyTwice = some r → r.status.goesOn →
      ApprovedWithin mockSettings buyTwice r := by
  intro hwithin
  have hfull : (validate mockSettings activeControls buyTwice).any (fun r =>
      r.status.goesOn && r.approvedQuantity = 25) = true := by decide +kernel
  cases hr : validate mockSettings activeControls buyTwice with
  | none => rw [hr] at hfull; cases hfull
  | some r =>
    rw [hr, Option.any_some, Bool.and_eq_true, decide_eq_true_eq] at hfull
    have hholding := (hwithin r hr hfull.1).holding
    rw [hfull.2] at hholding
    exact absurd hholding (by decide +kernel)

def firstShare : PretradeArgs := { buyTwice with positionQty := 0, quantity := 1 }

theorem firstShare_affordable :
    ∃ shares ∈ offeredShares mockSettings firstShare, Affordable mockSettings firstShare shares :=
  ⟨1, by decide +kernel, by unfold Affordable; decide +kernel⟩

/-- Of one share there is enough left in the cash, and none is held. -/
theorem firstShare_within :
    Approvable mockSettings activeControls firstShare ∧
      ∀ r, validate mockSettings activeControls firstShare = some r → r.status.goesOn →
        ApprovedWithin mockSettings firstShare r := by
  have hside : Casing.lower firstShare.side = "buy" := by decide +kernel
  have hgoes : (validate mockSettings activeControls firstShare).any (·.status.goesOn) = true := by
    decide +kernel
  refine ⟨?_, (approvedWithin_iff hside).mpr (Or.inr firstShare_affordable)⟩
  obtain ⟨r, hr, hr'⟩ := (Option.any_eq_true _ _).mp hgoes
  exact ((validate_buy_iff hside).mp ⟨hr, hr'⟩).1

end Twice

end Investor.Execution.Pretrade
