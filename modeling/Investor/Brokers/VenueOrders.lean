import Investor.Execution.OrderManager

/-!
# Limits that trade, at the ASX

`apply_marketable_limit` leans a limit through the quote: below the bid for a sale, above the
ask for a purchase, by a percentage of the reference price and by two cents at least, on a price
tick. A tighter limit of the caller's is kept.

The percentage stays inside the broker's collar of a tenth of the price. The two cents do not:
under about twenty cents they are more than a tenth, and under one cent the floor of the limit is
*above* the market. At the other end a purchase may lean past what counts as a price at all. For
every order and every quote, `shaped_well_iff` says in terms of the reference price where none of
this happens; that a limit once shaped is left alone holds throughout (`reshaped`).
-/

namespace Investor.Brokers

open Lib Market

/-! ## Shaping a limit -/

structure Quote where
  last : Option ℚ
  bid : Option ℚ
  ask : Option ℚ
  deriving DecidableEq

/-- The arguments of `apply_marketable_limit`, less the quote. -/
structure OrderTerms where
  venue : Option String
  exchange : Option String
  side : String
  orderType : Option String
  limitPrice : Option ℚ
  flatten : Bool
  deriving DecidableEq

section Shaping

section

variable [Casing]

/-- `str(side).lower() == "sell"`. -/
def isSell (side : String) : Bool := Casing.lower side = "sell"

/-- `reference_price`; `none` for its `ValueError`. -/
def referencePrice (side : String) (q : Quote) : Option ℚ :=
  let ordered := if isSell side then [q.bid, q.last, q.ask] else [q.ask, q.last, q.bid]
  ordered.findSome? (Option.filter Execution.isSaneEquityPrice)

/-- `uses_marketable_limit`. -/
def usesMarketableLimit (venue exchange : Option String) : Bool :=
  Execution.usesMarketableLimit (venue.getD "") ||
    ["ASX", "ASX2"].contains (Casing.upper (strip (exchange.getD "")))

/-- `existing`, for an order of a limit type. -/
def callerLimit (t : OrderTerms) : Option ℚ :=
  if Casing.lower ((t.orderType.filter (· ≠ "")).getD "market") ∈ ["limit", "lmt"] then
    t.limitPrice.filter Execution.isSaneEquityPrice
  else none

def isTighter (side : String) (want existing : ℚ) : Bool :=
  if isSell side then existing ≤ want else want ≤ existing

/-- `apply_marketable_limit`; `none` for its `ValueError`s. -/
def applyMarketableLimit (t : OrderTerms) (q : Quote) : Option (String × ℚ) :=
  if Execution.isRestingStop (t.orderType.getD "") then none
  else if !usesMarketableLimit t.venue t.exchange then none
  else
    (referencePrice t.side q).bind fun ref =>
      (Execution.aggressiveLimitPrice t.side ref t.flatten).map fun want =>
        ("limit", ((callerLimit t).filter (isTighter t.side want)).getD want)

/-! ## A limit that is shaped well -/

def IsMarketable (side : String) (ref price : ℚ) : Prop :=
  if isSell side then price ≤ ref else ref ≤ price

/-- **An order shaped well**: a limit comes out that trades at the reference price, that is
    inside the collar unless it is the caller's own, and that shaping it again leaves alone. -/
structure ShapedWell (t : OrderTerms) (q : Quote) (ref price : ℚ) : Prop where
  shaped : applyMarketableLimit t q = some ("limit", price)
  marketable : IsMarketable t.side ref price
  collared : callerLimit t = some price ∨ |price - ref| ≤ ref / 10
  reshaped : applyMarketableLimit { t with orderType := some "limit", limitPrice := some price } q =
    some ("limit", price)

def slip (flatten : Bool) (ref : ℚ) : ℚ := max (ref * (if flatten then 2 / 25 else 1 / 40)) (1 / 50)

/-- **A sale that can be shaped well**: at less than a cent the caller's limit is at the market or
    below; and at less than 20.05 cents there is a tick near two cents below the market, or near
    one cent, that is inside the collar or up to which the caller's limit reaches. -/
def SellShapeable (ref : ℚ) (limit : Option ℚ) : Prop :=
  (ref < 1 / 100 → ∃ existing ∈ limit, existing ≤ ref) ∧
  (401 / 2000 ≤ ref ∨ ∃ k : ℤ, (k : ℚ) / 10000 ≤ max (1 / 100) (ref - 1 / 50) + 1 / 20000 ∧
    (9 / 10 * ref ≤ k / 10000 ∨ ∃ existing ∈ limit, existing ≤ k / 10000))

/-- **A purchase that can be shaped well**: leaning leads to no price of a million, and at less
    than 20.05 cents there is a tick near two cents above the market that is inside the collar or
    that the caller's limit reaches. -/
def BuyShapeable (flatten : Bool) (ref : ℚ) (limit : Option ℚ) : Prop :=
  ref + slip flatten ref < 1000000 - 1 / 200 ∧
  (401 / 2000 ≤ ref ∨ ∃ k : ℤ, ref + 1 / 50 - 1 / 20000 < k / 10000 ∧
    ((k : ℚ) / 10000 ≤ 11 / 10 * ref ∨ ∃ existing ∈ limit, (k : ℚ) / 10000 ≤ existing))

def Shapeable (t : OrderTerms) (ref : ℚ) : Prop :=
  if isSell t.side then SellShapeable ref (callerLimit t)
  else BuyShapeable t.flatten ref (callerLimit t)

end

/-! ## The price leant to -/

section Price

variable {flatten : Bool} {ref x : ℚ}

theorem slip_ge (flatten : Bool) (ref : ℚ) : 1 / 50 ≤ slip flatten ref := le_max_right _ _

theorem slip_le (flatten : Bool) (href : 401 / 2000 ≤ ref) : slip flatten ref ≤ ref / 10 - 1 / 20000 := by
  unfold slip
  refine max_le ?_ (by linarith)
  split <;> linarith

theorem slip_le_half_cent (flatten : Bool) (href : 1 / 4 ≤ ref) : slip flatten ref ≤ ref / 10 - 1 / 200 := by
  unfold slip
  refine max_le ?_ (by linarith)
  split <;> linarith

theorem slip_of_lt (hpos : 0 < ref) (href : ref < 401 / 2000) : slip flatten ref = 1 / 50 := by
  unfold slip
  refine max_eq_right ?_
  split <;> linarith

def sellWant (flatten : Bool) (ref : ℚ) : ℚ :=
  roundEquityPrice (max (1 / 100) (ref - slip flatten ref))

def buyWant (flatten : Bool) (ref : ℚ) : ℚ := roundEquityPrice (ref + slip flatten ref)

theorem sellWant_near (flatten : Bool) (ref : ℚ) :
    |sellWant flatten ref - max (1 / 100) (ref - slip flatten ref)| ≤
      if 1 ≤ max (1 / 100) (ref - slip flatten ref) then 1 / 200 else 1 / 20000 :=
  abs_roundEquityPrice_sub_le (lt_of_lt_of_le (by norm_num) (le_max_left _ _))

theorem sellWant_le_iff (flatten : Bool) (hpos : 0 < ref) : sellWant flatten ref ≤ ref ↔ 1 / 100 ≤ ref := by
  have hnear := abs_le.mp (sellWant_near flatten ref)
  have hslip := slip_ge flatten ref
  rcases le_total (ref - slip flatten ref) (1 / 100) with hfloor | hfloor
  · rw [sellWant, max_eq_left hfloor]
    have hcent : roundEquityPrice (1 / 100) = 1 / 100 := by
      rw [roundEquityPrice_of_lt_one (by norm_num) (by norm_num), roundHalfUp]
      norm_num
    rw [hcent]
  · rw [max_eq_right hfloor] at hnear
    refine iff_of_true ?_ (by linarith)
    split_ifs at hnear <;> linarith

theorem sellWant_collared (href : 401 / 2000 ≤ ref) : |sellWant flatten ref - ref| ≤ ref / 10 := by
  have hnear := abs_le.mp (sellWant_near flatten ref)
  have hslip := slip_ge flatten ref
  have hless := slip_le flatten href
  rw [max_eq_right (by linarith)] at hnear
  rw [abs_le]
  split_ifs at hnear with hscale
  · have hfar : 1 / 4 ≤ ref := by linarith
    have hroom := slip_le_half_cent flatten hfar
    constructor <;> linarith
  · constructor <;> linarith

theorem sellWant_of_lt (hpos : 0 < ref) (href : ref < 401 / 2000) :
    sellWant flatten ref = roundHalfUp 10000 (max (1 / 100) (ref - 1 / 50)) := by
  rw [sellWant, slip_of_lt hpos href]
  exact roundEquityPrice_of_lt_one (lt_of_lt_of_le (by norm_num) (le_max_left _ _))
    (max_lt (by norm_num) (by linarith))

theorem le_sellWant_iff (hpos : 0 < ref) (href : ref < 401 / 2000) :
    x ≤ sellWant flatten ref ↔
      ∃ k : ℤ, x ≤ k / 10000 ∧ (k : ℚ) / 10000 ≤ max (1 / 100) (ref - 1 / 50) + 1 / 20000 := by
  rw [sellWant_of_lt hpos href, le_roundHalfUp_iff (by decide)]
  norm_num

theorem buyWant_near (flatten : Bool) (hpos : 0 < ref) : |buyWant flatten ref - (ref + slip flatten ref)| ≤
    if 1 ≤ ref + slip flatten ref then 1 / 200 else 1 / 20000 :=
  abs_roundEquityPrice_sub_le (by have := slip_ge flatten ref; linarith)

theorem le_buyWant (flatten : Bool) (hpos : 0 < ref) : ref ≤ buyWant flatten ref := by
  have hnear := abs_le.mp (buyWant_near flatten hpos)
  have hslip := slip_ge flatten ref
  split_ifs at hnear <;> linarith

theorem buyWant_collared (href : 401 / 2000 ≤ ref) : |buyWant flatten ref - ref| ≤ ref / 10 := by
  have hpos : 0 < ref := by linarith
  have hnear := abs_le.mp (buyWant_near flatten hpos)
  have hslip := slip_ge flatten ref
  have hless := slip_le flatten href
  rw [abs_le]
  split_ifs at hnear with hscale
  · have hfar : 1 / 4 ≤ ref := by linarith
    have hroom := slip_le_half_cent flatten hfar
    constructor <;> linarith
  · constructor <;> linarith

theorem buyWant_le_iff (hpos : 0 < ref) (href : ref < 401 / 2000) :
    buyWant flatten ref ≤ x ↔
      ∃ k : ℤ, ref + 1 / 50 - 1 / 20000 < k / 10000 ∧ (k : ℚ) / 10000 ≤ x := by
  rw [buyWant, slip_of_lt hpos href, roundEquityPrice_of_lt_one (by linarith) (by linarith),
    roundHalfUp_le_iff (by decide)]
  norm_num

theorem buyWant_lt_iff (hpos : 0 < ref) :
    buyWant flatten ref < 1000000 ↔ ref + slip flatten ref < 1000000 - 1 / 200 := by
  have hslip := slip_ge flatten ref
  by_cases hscale : 1 ≤ ref + slip flatten ref
  · rw [buyWant, roundEquityPrice_of_one_le hscale, roundHalfUp, div_lt_iff₀ (by norm_num)]
    have hfloor : ((⌊(ref + slip flatten ref) * (100 : ℕ) + 1 / 2⌋ : ℤ) : ℚ) <
        1000000 * (100 : ℕ) ↔ ⌊(ref + slip flatten ref) * (100 : ℕ) + 1 / 2⌋ < (100000000 : ℤ) := by
      rw [← Int.cast_lt (R := ℚ)]
      norm_num
    rw [hfloor, Int.floor_lt]
    norm_num
    constructor <;> intro h <;> linarith
  · have hnear := abs_le.mp (buyWant_near flatten hpos)
    rw [if_neg hscale] at hnear
    exact iff_of_true (by linarith) (by linarith)

end Price

/-! ## The limit -/

section Limit

variable {t : OrderTerms} {q : Quote} {side : String} {flatten : Bool} {ref want price : ℚ}

theorem isSane_iff (px : ℚ) : Execution.isSaneEquityPrice px = true ↔ 0 < px ∧ px < 1000000 := by
  simp [Execution.isSaneEquityPrice]

section

variable [Casing]

theorem referencePrice_sane (h : referencePrice side q = some ref) : 0 < ref ∧ ref < 1000000 := by
  obtain ⟨raw, -, hraw⟩ := List.exists_of_findSome?_eq_some h
  exact (isSane_iff ref).mp (Option.filter_eq_some_iff.mp hraw).2

theorem aggressiveLimitPrice_sell (hsell : isSell side = true) (hpos : 0 < ref)
    (hsane : ref < 1000000) :
    Execution.aggressiveLimitPrice side ref flatten = some (sellWant flatten ref) := by
  have hnear := abs_le.mp (sellWant_near flatten ref)
  have hslip := slip_ge flatten ref
  have hmax : max (1 / 100) (ref - slip flatten ref) < 1000000 - 1 / 200 :=
    max_lt (by norm_num) (by linarith)
  have hfloor : 1 / 100 ≤ max (1 / 100) (ref - slip flatten ref) := le_max_left _ _
  have hwant : Execution.isSaneEquityPrice (sellWant flatten ref) = true := by
    rw [isSane_iff]
    split_ifs at hnear <;> constructor <;> linarith
  unfold Execution.aggressiveLimitPrice
  rw [(isSane_iff ref).mpr ⟨hpos, hsane⟩]
  simp only [Bool.not_true, Bool.false_eq_true, if_false, of_decide_eq_true hsell, if_true]
  exact if_pos hwant

theorem aggressiveLimitPrice_buy (flatten : Bool) (hsell : isSell side = false) (hpos : 0 < ref)
    (hsane : ref < 1000000) :
    Execution.aggressiveLimitPrice side ref flatten =
      if ref + slip flatten ref < 1000000 - 1 / 200 then some (buyWant flatten ref) else none := by
  have hslip := slip_ge flatten ref
  have hmax : max (1 / 100) (ref + slip flatten ref) = ref + slip flatten ref :=
    max_eq_right (by linarith)
  have hwant : Execution.isSaneEquityPrice (buyWant flatten ref) = true ↔
      ref + slip flatten ref < 1000000 - 1 / 200 := by
    rw [isSane_iff, buyWant_lt_iff hpos]
    exact and_iff_right (hpos.trans_le (le_buyWant flatten hpos))
  unfold Execution.aggressiveLimitPrice
  rw [(isSane_iff ref).mpr ⟨hpos, hsane⟩]
  simp only [Bool.not_true, Bool.false_eq_true, if_false, of_decide_eq_false hsell]
  change (if Execution.isSaneEquityPrice (roundEquityPrice (max (1 / 100) (ref + slip flatten ref)))
    then some (roundEquityPrice (max (1 / 100) (ref + slip flatten ref))) else none) = _
  rw [hmax]
  exact if_congr hwant rfl rfl

theorem kept_tighter {existing : ℚ}
    (h : (callerLimit t).filter (isTighter t.side want) = some existing) :
    callerLimit t = some existing ∧ isTighter t.side want existing = true :=
  Option.filter_eq_some_iff.mp h

theorem isTighter_refl (side : String) (want : ℚ) : isTighter side want want = true := by
  unfold isTighter
  split <;> exact decide_eq_true le_rfl

theorem callerLimit_sane {existing : ℚ} (h : callerLimit t = some existing) :
    Execution.isSaneEquityPrice existing = true := by
  unfold callerLimit at h
  split at h
  · exact (Option.filter_eq_some_iff.mp h).2
  · cases h

theorem aggressiveLimitPrice_sane (h : Execution.aggressiveLimitPrice side ref flatten = some want) :
    Execution.isSaneEquityPrice want = true := by
  unfold Execution.aggressiveLimitPrice at h
  rw [Option.ite_none_left_eq_some] at h
  obtain ⟨-, h⟩ := h
  rw [Option.ite_none_right_eq_some] at h
  obtain ⟨hsane, h⟩ := h
  rw [← Option.some.inj h]
  exact hsane

theorem applyMarketableLimit_eq (hstop : Execution.isRestingStop (t.orderType.getD "") = false)
    (hau : usesMarketableLimit t.venue t.exchange = true)
    (href : referencePrice t.side q = some ref) :
    applyMarketableLimit t q = (Execution.aggressiveLimitPrice t.side ref t.flatten).map fun want =>
      ("limit", ((callerLimit t).filter (isTighter t.side want)).getD want) := by
  unfold applyMarketableLimit
  rw [hstop, hau, href]
  rfl

theorem applyMarketableLimit_reshaped (hstop : Execution.isRestingStop (t.orderType.getD "") = false)
    (hau : usesMarketableLimit t.venue t.exchange = true)
    (href : referencePrice t.side q = some ref)
    (h : applyMarketableLimit t q = some ("limit", price)) :
    applyMarketableLimit { t with orderType := some "limit", limitPrice := some price } q =
      some ("limit", price) := by
  rw [applyMarketableLimit_eq hstop hau href] at h
  obtain ⟨want, hwant, heq⟩ := Option.map_eq_some_iff.mp h
  obtain ⟨hsane, htighter⟩ : Execution.isSaneEquityPrice price = true ∧
      isTighter t.side want price = true := by
    cases hkept : (callerLimit t).filter (isTighter t.side want) with
    | none =>
      rw [hkept] at heq
      obtain rfl : want = price := congrArg Prod.snd heq
      exact ⟨aggressiveLimitPrice_sane hwant, isTighter_refl t.side want⟩
    | some existing =>
      rw [hkept] at heq
      obtain rfl : existing = price := congrArg Prod.snd heq
      exact ⟨callerLimit_sane (kept_tighter hkept).1, (kept_tighter hkept).2⟩
  -- the price is the caller's limit now, and it is tight enough to be kept
  have hlimit : callerLimit { t with orderType := some "limit", limitPrice := some price } =
      some price := by
    unfold callerLimit
    rw [show (Option.filter (· ≠ "") (some "limit")).getD "market" = "limit" by decide,
      Casing.lower_ascii "limit" (by decide), if_pos (by decide)]
    simp [hsane]
  have hlimitStop : Execution.isRestingStop "limit" = false := by
    unfold Execution.isRestingStop Execution.canonicalOrderType
    rw [show strip ((some "limit").getD "") = "limit" by decide,
      Casing.lower_ascii "limit" (by decide)]
    decide
  have hagain := applyMarketableLimit_eq
    (t := { t with orderType := some "limit", limitPrice := some price }) hlimitStop hau href
  rw [hlimit] at hagain
  rw [hagain]
  simp only [hwant, Option.map_some, Option.filter_some, htighter, if_true, Option.getD_some]

theorem shapedWell_iff_of_want (hstop : Execution.isRestingStop (t.orderType.getD "") = false)
    (hau : usesMarketableLimit t.venue t.exchange = true)
    (href : referencePrice t.side q = some ref)
    (hwant : Execution.aggressiveLimitPrice t.side ref t.flatten = some want) :
    (∃ price, ShapedWell t q ref price) ↔
      match (callerLimit t).filter (isTighter t.side want) with
      | some existing => IsMarketable t.side ref existing
      | none => IsMarketable t.side ref want ∧ |want - ref| ≤ ref / 10 := by
  have hshaped := applyMarketableLimit_eq hstop hau href
  rw [hwant, Option.map_some] at hshaped
  cases hkept : (callerLimit t).filter (isTighter t.side want) with
  | some existing =>
    rw [hkept] at hshaped
    constructor
    · rintro ⟨price, hwell⟩
      obtain rfl : existing = price :=
        congrArg Prod.snd (Option.some.inj (hshaped.symm.trans hwell.shaped))
      exact hwell.marketable
    · intro hmarketable
      exact ⟨existing, hshaped, hmarketable, .inl (kept_tighter hkept).1,
        applyMarketableLimit_reshaped hstop hau href hshaped⟩
  | none =>
    rw [hkept] at hshaped
    constructor
    · rintro ⟨price, hwell⟩
      obtain rfl : want = price :=
        congrArg Prod.snd (Option.some.inj (hshaped.symm.trans hwell.shaped))
      refine ⟨hwell.marketable, hwell.collared.resolve_left fun hlimit => ?_⟩
      -- a caller's limit at the price leant to would have been kept
      rw [hlimit, Option.filter_some, isTighter_refl] at hkept
      cases hkept
    · rintro ⟨hmarketable, hcollared⟩
      exact ⟨want, hshaped, hmarketable, .inr hcollared,
        applyMarketableLimit_reshaped hstop hau href hshaped⟩

end

theorem sellWant_collared_iff (hcent : 1 / 100 ≤ ref) :
    |sellWant flatten ref - ref| ≤ ref / 10 ↔ 9 / 10 * ref ≤ sellWant flatten ref := by
  have hpos : 0 < ref := by linarith
  have hle := (sellWant_le_iff flatten hpos).mpr hcent
  rw [abs_le]
  constructor
  · rintro ⟨hlow, -⟩
    linarith
  · intro hlow
    constructor <;> linarith

theorem sellShapeable_iff (flatten : Bool) (hpos : 0 < ref) (limit : Option ℚ) :
    SellShapeable ref limit ↔ (ref < 1 / 100 → ∃ existing ∈ limit, existing ≤ ref) ∧
      (401 / 2000 ≤ ref ∨ 9 / 10 * ref ≤ sellWant flatten ref ∨
        ∃ existing ∈ limit, existing ≤ sellWant flatten ref) := by
  unfold SellShapeable
  refine and_congr_right fun _ => ?_
  by_cases href : 401 / 2000 ≤ ref
  · simp only [href, true_or]
  · simp only [href, false_or, le_sellWant_iff hpos (not_le.mp href)]
    constructor
    · rintro ⟨k, hk, hnear | ⟨existing, hlimit, hle⟩⟩
      · exact .inl ⟨k, hnear, hk⟩
      · exact .inr ⟨existing, hlimit, k, hle, hk⟩
    · rintro (⟨k, hnear, hk⟩ | ⟨existing, hlimit, k, hle, hk⟩)
      · exact ⟨k, hk, .inl hnear⟩
      · exact ⟨k, hk, .inr ⟨existing, hlimit, hle⟩⟩

/-- A sale is shaped well exactly if a tick is left to it. -/
theorem shaped_sell_iff [Casing] (hstop : Execution.isRestingStop (t.orderType.getD "") = false)
    (hau : usesMarketableLimit t.venue t.exchange = true)
    (href : referencePrice t.side q = some ref) (hsell : isSell t.side = true) :
    (∃ price, ShapedWell t q ref price) ↔ SellShapeable ref (callerLimit t) := by
  obtain ⟨hpos, hsane⟩ := referencePrice_sane href
  have hcent := sellWant_le_iff t.flatten hpos
  rw [shapedWell_iff_of_want hstop hau href (aggressiveLimitPrice_sell hsell hpos hsane),
    sellShapeable_iff t.flatten hpos]
  simp only [IsMarketable, hsell, if_true]
  cases hkept : (callerLimit t).filter (isTighter t.side (sellWant t.flatten ref)) with
  | some existing =>
    obtain ⟨hlimit, htighter⟩ := kept_tighter hkept
    have hle : existing ≤ sellWant t.flatten ref := by simpa [isTighter, hsell] using htighter
    simp only [hlimit, Option.mem_some_iff, exists_eq_left']
    -- the limit is at or below the price leant to, so it only has to trade
    constructor
    · intro hmarket
      exact ⟨fun _ => hmarket, .inr (.inr hle)⟩
    · rintro ⟨hcheap, -⟩
      by_cases href' : ref < 1 / 100
      · exact hcheap href'
      · exact hle.trans (hcent.mpr (not_lt.mp href'))
  | none =>
    have hloose : ∀ existing ∈ callerLimit t, ¬ existing ≤ sellWant t.flatten ref := by
      intro existing hlimit hle
      rw [Option.mem_def.mp hlimit, Option.filter_some] at hkept
      simp [isTighter, hsell, hle] at hkept
    simp only [hcent]
    constructor
    · rintro ⟨hle, hcollar⟩
      exact ⟨fun hlt => absurd hle (not_le.mpr hlt),
        .inr (.inl ((sellWant_collared_iff hle).mp hcollar))⟩
    · rintro ⟨hcheap, hrest⟩
      -- under a cent a limit that trades would have been kept
      have hle : 1 / 100 ≤ ref := by
        refine not_lt.mp fun hlt => ?_
        obtain ⟨existing, hlimit, hexisting⟩ := hcheap hlt
        refine hloose existing hlimit (hexisting.trans ?_)
        exact (not_le.mp (hcent.not.mpr (not_le.mpr hlt))).le
      refine ⟨hle, ?_⟩
      rcases hrest with hfar | hnear | ⟨existing, hlimit, hexisting⟩
      · exact sellWant_collared hfar
      · exact (sellWant_collared_iff hle).mpr hnear
      · exact absurd hexisting (hloose existing hlimit)

theorem buyWant_collared_iff (hpos : 0 < ref) :
    |buyWant flatten ref - ref| ≤ ref / 10 ↔ buyWant flatten ref ≤ 11 / 10 * ref := by
  have hle := le_buyWant flatten hpos
  rw [abs_le]
  constructor
  · rintro ⟨-, hhigh⟩
    linarith
  · intro hhigh
    constructor <;> linarith

theorem buyShapeable_iff (hpos : 0 < ref) (limit : Option ℚ) :
    BuyShapeable flatten ref limit ↔ ref + slip flatten ref < 1000000 - 1 / 200 ∧
      (401 / 2000 ≤ ref ∨ buyWant flatten ref ≤ 11 / 10 * ref ∨
        ∃ existing ∈ limit, buyWant flatten ref ≤ existing) := by
  unfold BuyShapeable
  refine and_congr_right fun _ => ?_
  by_cases href : 401 / 2000 ≤ ref
  · simp only [href, true_or]
  · simp only [href, false_or, buyWant_le_iff hpos (not_le.mp href)]
    constructor
    · rintro ⟨k, hk, hnear | ⟨existing, hlimit, hle⟩⟩
      · exact .inl ⟨k, hk, hnear⟩
      · exact .inr ⟨existing, hlimit, k, hk, hle⟩
    · rintro (⟨k, hk, hnear⟩ | ⟨existing, hlimit, k, hk, hle⟩)
      · exact ⟨k, hk, .inl hnear⟩
      · exact ⟨k, hk, .inr ⟨existing, hlimit, hle⟩⟩

/-- A purchase is shaped well exactly if a tick is left to it, below a million. -/
theorem shaped_buy_iff [Casing] (hstop : Execution.isRestingStop (t.orderType.getD "") = false)
    (hau : usesMarketableLimit t.venue t.exchange = true)
    (href : referencePrice t.side q = some ref) (hsell : isSell t.side = false) :
    (∃ price, ShapedWell t q ref price) ↔ BuyShapeable t.flatten ref (callerLimit t) := by
  obtain ⟨hpos, hsane⟩ := referencePrice_sane href
  have hprice := aggressiveLimitPrice_buy t.flatten hsell hpos hsane
  have hmarket := le_buyWant t.flatten hpos
  rw [buyShapeable_iff hpos]
  -- above the ceiling no price is leant to, and the order is refused
  by_cases hroom : ref + slip t.flatten ref < 1000000 - 1 / 200
  swap
  · refine iff_of_false ?_ fun h => hroom h.1
    rintro ⟨price, hwell⟩
    have hshaped := hwell.shaped
    rw [applyMarketableLimit_eq hstop hau href, hprice, if_neg hroom] at hshaped
    cases hshaped
  rw [if_pos hroom] at hprice
  rw [shapedWell_iff_of_want hstop hau href hprice, and_iff_right hroom]
  simp only [IsMarketable, hsell, Bool.false_eq_true, if_false]
  cases hkept : (callerLimit t).filter (isTighter t.side (buyWant t.flatten ref)) with
  | some existing =>
    obtain ⟨hlimit, htighter⟩ := kept_tighter hkept
    have hle : buyWant t.flatten ref ≤ existing := by simpa [isTighter, hsell] using htighter
    exact iff_of_true (hmarket.trans hle) (.inr (.inr ⟨existing, hlimit, hle⟩))
  | none =>
    have hloose : ∀ existing ∈ callerLimit t, ¬ buyWant t.flatten ref ≤ existing := by
      intro existing hlimit hle
      rw [Option.mem_def.mp hlimit, Option.filter_some] at hkept
      simp [isTighter, hsell, hle] at hkept
    simp only [hmarket, true_and]
    constructor
    · intro hcollar
      exact .inr (.inl ((buyWant_collared_iff hpos).mp hcollar))
    · rintro (hfar | hnear | ⟨existing, hlimit, hexisting⟩)
      · exact buyWant_collared hfar
      · exact (buyWant_collared_iff hpos).mpr hnear
      · exact absurd hexisting (hloose existing hlimit)

end Limit

/-- **Exactly the shapeable orders are shaped well**, at whatever sane price the quote gives. -/
theorem shaped_well_iff [Casing] {t : OrderTerms} {q : Quote} {ref : ℚ}
    (hstop : Execution.isRestingStop (t.orderType.getD "") = false)
    (hau : usesMarketableLimit t.venue t.exchange = true)
    (href : referencePrice t.side q = some ref) :
    (∃ price, ShapedWell t q ref price) ↔ Shapeable t ref := by
  unfold Shapeable
  cases hsell : isSell t.side with
  | true => exact shaped_sell_iff hstop hau href hsell
  | false => exact shaped_buy_iff hstop hau href hsell

end Shaping

section Samples

attribute [local instance] asciiCasing

def pennySale : OrderTerms :=
  { venue := some "AU", exchange := some "ASX", side := "sell", orderType := some "market",
    limitPrice := none, flatten := true }

/-- A sale at one dollar, where the percentage is more than the two cents. -/
theorem shaped_well_dollar : Execution.isRestingStop "market" = false ∧
    usesMarketableLimit (some "AU") (some "ASX") = true ∧
    referencePrice "sell" ⟨some 1, some 1, none⟩ = some 1 ∧
    ((∃ price, ShapedWell pennySale ⟨some 1, some 1, none⟩ 1 price) ↔ Shapeable pennySale 1) := by
  have hstop : Execution.isRestingStop "market" = false := by decide +kernel
  have hau : usesMarketableLimit (some "AU") (some "ASX") = true := by decide +kernel
  have href : referencePrice "sell" ⟨some 1, some 1, none⟩ = some 1 := by decide +kernel
  exact ⟨hstop, hau, href, shaped_well_iff (t := pennySale) hstop hau href⟩

/-- **A penny stock is not sold**: at a bid of half a cent the limit is a whole one. -/
theorem penny_limit_off_market :
    ¬ ∀ (t : OrderTerms) (q : Quote) (ref : ℚ),
      Execution.isRestingStop (t.orderType.getD "") = false →
      usesMarketableLimit t.venue t.exchange = true → referencePrice t.side q = some ref →
      ∃ price, ShapedWell t q ref price := by
  intro hall
  have hshaped : applyMarketableLimit pennySale ⟨some (1 / 200), some (1 / 200), none⟩ =
      some ("limit", 1 / 100) := by decide +kernel
  obtain ⟨price, hwell⟩ := hall pennySale ⟨some (1 / 200), some (1 / 200), none⟩ (1 / 200)
    (by decide +kernel) (by decide +kernel) (by decide +kernel)
  obtain rfl : 1 / 100 = price :=
    congrArg Prod.snd (Option.some.inj (hshaped.symm.trans hwell.shaped))
  have hmarketable := hwell.marketable
  revert hmarketable
  rw [IsMarketable, if_pos (by decide +kernel)]
  norm_num

end Samples

end Investor.Brokers
