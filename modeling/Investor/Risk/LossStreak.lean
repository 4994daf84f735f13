import Investor.Intraday.StampRuns

/-!
# The losing run of the day

`loss_streak` counts losses back from the newest close up to the first win. What brought nothing
and what is not known is passed over, so closes of that kind may stand anywhere
(`lossStreak_of_measured`).

`current_loss_streak` gives it the newest rows of the day, at most `limit` of them, and the limit
counts rows of any kind. A loss behind the limit is not counted, and the halt is missed exactly if
too many neutral closes stand before the loss that is due to halt the day
(`currentLossStreak_limit`).
-/

namespace Investor.Risk

open Lib Intraday

/-! ## The streak -/

abbrev Close := Option Int × Option ℚ

/-- `LossStreak`. -/
structure LossStreak where
  consecutiveLosses : ℕ
  cooldownUntil : Option Int
  lastLossAt : Option Int
  deriving DecidableEq

/-- The loop of `loss_streak`: the losses so far, and when the last was. -/
def scanCloses : List Close → ℕ → Option Int → ℕ × Option Int
  | [], streak, lastLossAt => (streak, lastLossAt)
  | (_, none) :: rest, streak, lastLossAt => scanCloses rest streak lastLossAt
  | (closedAt, some value) :: rest, streak, lastLossAt =>
    if 0 < value then (streak, lastLossAt)
    else if value = 0 then scanCloses rest streak lastLossAt
    else scanCloses rest (streak + 1) (lastLossAt.or closedAt)

/-- `loss_streak`. -/
def lossStreak (closes : List Close) (cooldownMinutes : Int) : LossStreak :=
  let scanned := scanCloses closes 0 none
  { consecutiveLosses := scanned.1
    cooldownUntil :=
      if scanned.1 ≠ 0 ∧ 0 < cooldownMinutes then
        scanned.2.map (· + cooldownMinutes * 60000000)
      else none
    lastLossAt := scanned.2 }

/-! ## What is counted -/

def Win (c : Close) : Bool := c.2.any fun pnl => 0 < pnl

def Loss (c : Close) : Bool := c.2.any fun pnl => pnl < 0

/-- A close that brought nothing, or of which it is not known what it brought. -/
def Neutral (c : Close) : Bool := c.2.all fun pnl => pnl = 0

def losingRun (closes : List Close) : List Close := closes.takeWhile fun c => !Win c

def newestLossAt (closes : List Close) : Option Int := (closes.filter Loss).findSome? (·.1)

theorem neutral_of_not_loss {c : Close} (hwin : Win c = false) : Neutral c = !Loss c := by
  obtain ⟨closedAt, pnl⟩ := c
  cases pnl with
  | none => rfl
  | some pnl =>
    have hle : ¬0 < pnl := by simpa [Win] using hwin
    rcases lt_or_eq_of_le (not_lt.mp hle) with h | h
    · simp [Neutral, Loss, h, h.ne]
    · simp [Neutral, Loss, h]

theorem scanCloses_eq (closes : List Close) (streak : ℕ) (lastLossAt : Option Int) :
    scanCloses closes streak lastLossAt =
      (streak + (losingRun closes).countP Loss, lastLossAt.or (newestLossAt (losingRun closes))) := by
  induction closes generalizing streak lastLossAt with
  | nil => simp [scanCloses, losingRun, newestLossAt]
  | cons c rest ih =>
    obtain ⟨closedAt, pnl⟩ := c
    cases pnl with
    | none =>
      rw [scanCloses, ih]
      simp [losingRun, newestLossAt, Win, Loss]
    | some value =>
      rw [scanCloses]
      split
      · rename_i hwin
        simp [losingRun, newestLossAt, Win, hwin]
      · rename_i hwin
        split
        · rename_i hzero
          rw [ih]
          simp [losingRun, newestLossAt, Win, Loss, hzero]
        · rename_i hzero
          have hneg : value < 0 := lt_of_le_of_ne (not_lt.mp hwin) hzero
          rw [ih]
          cases closedAt <;> simp [losingRun, newestLossAt, Win, Loss, hwin, hneg] <;> omega

theorem lossStreak_eq (closes : List Close) (cooldownMinutes : Int) :
    lossStreak closes cooldownMinutes =
      { consecutiveLosses := (losingRun closes).countP Loss
        cooldownUntil :=
          if (losingRun closes).countP Loss ≠ 0 ∧ 0 < cooldownMinutes then
            (newestLossAt (losingRun closes)).map (· + cooldownMinutes * 60000000)
          else none
        lastLossAt := newestLossAt (losingRun closes) } := by
  rw [lossStreak, scanCloses_eq, Nat.zero_add, Option.none_or]

/-! ## Neutral closes -/

theorem filter_losingRun (closes : List Close) :
    (losingRun closes).filter Loss = (losingRun (closes.filter fun c => !Neutral c)).filter Loss := by
  induction closes with
  | nil => rfl
  | cons c rest ih =>
    cases hwin : Win c with
    | true =>
      have hneutral : Neutral c = false := by
        obtain ⟨closedAt, pnl⟩ := c
        cases pnl with
        | none => simp [Win] at hwin
        | some pnl =>
          have hpos : 0 < pnl := by simpa [Win] using hwin
          simp [Neutral, hpos.ne']
      simp [losingRun, hwin, hneutral]
    | false =>
      have hneutral := neutral_of_not_loss hwin
      unfold losingRun at ih ⊢
      cases hloss : Loss c with
      | true =>
        rw [hloss] at hneutral
        simp [hwin, hneutral, hloss, ih]
      | false =>
        rw [hloss] at hneutral
        simp [hwin, hneutral, hloss, ih]

theorem lossStreak_of_measured {closes closes' : List Close}
    (h : closes.filter (fun c => !Neutral c) = closes'.filter fun c => !Neutral c) (cooldownMinutes : Int) :
    lossStreak closes cooldownMinutes = lossStreak closes' cooldownMinutes := by
  have hrun : (losingRun closes).filter Loss = (losingRun closes').filter Loss := by
    rw [filter_losingRun, h, ← filter_losingRun]
  rw [lossStreak_eq, lossStreak_eq, newestLossAt, newestLossAt, List.countP_eq_length_filter,
    List.countP_eq_length_filter, hrun]

/-! ## The newest rows of the day -/

abbrev NewestClosed := NewestFirst fun r : ClosingLifecycle => r.closedAt.getD 0

def closedSince (since : Int) (rows : List ClosingLifecycle) : List ClosingLifecycle :=
  rows.filter fun r => decide (r.status = .closed) && r.closedAt.any fun t => decide (since ≤ t)

def closeOf (str : Json → String) (r : ClosingLifecycle) : Close := (r.closedAt, lifecyclePnl str r)

/-- `current_loss_streak`. -/
def currentLossStreak (str : Json → String) (o : NewestClosed) (rows : List ClosingLifecycle) (limit : ℕ)
    (since cooldownAfterLossMinutes : Int) : LossStreak :=
  lossStreak (((o.sort (closedSince since rows)).take limit).map (closeOf str)) cooldownAfterLossMinutes

def closesSince (str : Json → String) (o : NewestClosed) (rows : List ClosingLifecycle) (since : Int) :
    List Close :=
  (o.sort (closedSince since rows)).map (closeOf str)

theorem losingRun_take (closes : List Close) (n : ℕ) : losingRun (closes.take n) = (losingRun closes).take n :=
  List.take_takeWhile.symm

theorem lossStreak_take_iff (closes : List Close) (n : ℕ) (cooldownMinutes : Int) :
    lossStreak (closes.take n) cooldownMinutes = lossStreak closes cooldownMinutes ↔
      ∀ c ∈ (losingRun closes).drop n, Loss c = false := by
  constructor
  · intro h
    have hcount := congrArg LossStreak.consecutiveLosses h
    rw [lossStreak_eq, lossStreak_eq, losingRun_take] at hcount
    exact countP_take_eq_iff.mp hcount
  · intro h
    have hnone : ((losingRun closes).drop n).filter Loss = [] :=
      List.filter_eq_nil_iff.mpr fun c hc => by simp [h c hc]
    have hfilter : ((losingRun closes).take n).filter Loss = (losingRun closes).filter Loss := by
      conv_rhs => rw [← List.take_append_drop n (losingRun closes)]
      rw [List.filter_append, hnone, List.append_nil]
    rw [lossStreak_eq, lossStreak_eq, losingRun_take, newestLossAt, newestLossAt,
      List.countP_eq_length_filter, List.countP_eq_length_filter, hfilter]

theorem neutral_of_mem_losingRun {closes : List Close} {c : Close} (h : c ∈ losingRun closes) :
    Neutral c = !Loss c := by
  refine neutral_of_not_loss ?_
  have hwin := List.mem_takeWhile_imp h
  simpa using hwin

theorem lossStreak_take_threshold (closes : List Close) (n halt : ℕ) (cooldownMinutes : Int) :
    (halt ≤ (lossStreak closes cooldownMinutes).consecutiveLosses →
      halt ≤ (lossStreak (closes.take n) cooldownMinutes).consecutiveLosses) ↔
      ∀ front c back, losingRun closes = front ++ c :: back → Loss c = true →
        front.countP Loss + 1 = halt → front.countP Neutral + halt ≤ n := by
  rw [lossStreak_eq, lossStreak_eq, losingRun_take, le_countP_take_iff]
  refine forall_congr' fun front => forall_congr' fun c => forall_congr' fun back => ?_
  refine forall_congr' fun hsplit => forall_congr' fun _ => forall_congr' fun hcount => ?_
  -- what stands before it is a loss or neutral
  have hlength : front.length = front.countP Loss + front.countP Neutral := by
    have hneutral : front.countP Neutral = front.countP fun c => !Loss c :=
      List.countP_congr fun c hc => by
        rw [neutral_of_mem_losingRun (hsplit ▸ List.mem_append_left _ hc)]
    have hparts := List.length_eq_countP_add_countP Loss (l := front)
    rw [hneutral, hparts]
    simp
  omega

/-- **What the streak is, and when the limit hides it.** The streak counts the losses before the first win and
the cooldown runs from the newest; neutral closes are of no effect on it. Of the newest rows of the day it is
the streak of the whole day exactly if no loss of the run stands behind the limit, and the halt is never
missed exactly if the loss that is due to halt has at most `limit - halt` neutral closes before it. -/
theorem currentLossStreak_limit (str : Json → String) (o : NewestClosed) (rows : List ClosingLifecycle)
    (limit halt : ℕ) (since cooldownMinutes : Int) :
    (∀ closes, lossStreak closes cooldownMinutes =
      { consecutiveLosses := (losingRun closes).countP Loss
        cooldownUntil :=
          if (losingRun closes).countP Loss ≠ 0 ∧ 0 < cooldownMinutes then
            (newestLossAt (losingRun closes)).map (· + cooldownMinutes * 60000000)
          else none
        lastLossAt := newestLossAt (losingRun closes) }) ∧
    (∀ closes closes', closes.filter (fun c => !Neutral c) = closes'.filter (fun c => !Neutral c) →
      lossStreak closes cooldownMinutes = lossStreak closes' cooldownMinutes) ∧
    (currentLossStreak str o rows limit since cooldownMinutes =
        lossStreak (closesSince str o rows since) cooldownMinutes ↔
      ∀ c ∈ (losingRun (closesSince str o rows since)).drop limit, Loss c = false) ∧
    ((halt ≤ (lossStreak (closesSince str o rows since) cooldownMinutes).consecutiveLosses →
        halt ≤ (currentLossStreak str o rows limit since cooldownMinutes).consecutiveLosses) ↔
      ∀ front c back, losingRun (closesSince str o rows since) = front ++ c :: back → Loss c = true →
        front.countP Loss + 1 = halt → front.countP Neutral + halt ≤ limit) := by
  refine ⟨fun closes => lossStreak_eq closes cooldownMinutes,
    fun closes closes' h => lossStreak_of_measured h cooldownMinutes, ?_, ?_⟩
  · rw [currentLossStreak, List.map_take]
    exact lossStreak_take_iff _ _ _
  · rw [currentLossStreak, List.map_take]
    exact lossStreak_take_threshold _ _ _ _

section Sample

def closedRow (closedAt : ℕ) (realizedPl : ℚ) : ClosingLifecycle :=
  { id := closedAt, symbol := "AAPL", status := .closed, quantity := 0, averageEntryPrice := some 10
    currentPrice := none, venue := "US", currency := some "USD", conId := none, stopPrice := none
    protectionSubmitted := false, openedAt := some 0, closedAt := some (closedAt : Int), realizedPl
    metadataJson := [] }

def hiddenLosses : List ClosingLifecycle :=
  (List.range 5).map (fun i => closedRow (i + 1) (-100)) ++
    (List.range 50).map fun i => stampLifecycleClosePnl none (closedRow (i + 10) 0)

/-- Fifty closes that are not known hide a run of five losses, which is due to halt the day. -/
theorem unknown_closes_hide_losses : ¬∀ (str : Json → String) (o : NewestClosed)
    (rows : List ClosingLifecycle) (halt : ℕ) (since cooldownMinutes : Int),
    halt ≤ (lossStreak (closesSince str o rows since) cooldownMinutes).consecutiveLosses →
      halt ≤ (currentLossStreak str o rows 50 since cooldownMinutes).consecutiveLosses := by
  intro h
  have hdue : 5 ≤ (lossStreak (closesSince (fun _ => "") (lastAmong _ fun _ => false) hiddenLosses 0)
      30).consecutiveLosses := by
    decide +kernel
  have hseen := h (fun _ => "") (lastAmong _ fun _ => false) hiddenLosses 5 0 30 hdue
  have hnone : (currentLossStreak (fun _ => "") (lastAmong _ fun _ => false) hiddenLosses 50 0
      30).consecutiveLosses = 0 := by
    decide +kernel
  rw [hnone] at hseen
  omega

end Sample

end Investor.Risk
