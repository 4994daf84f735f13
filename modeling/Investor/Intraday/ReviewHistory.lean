import Investor.Intraday.PostTrade

/-!
# Which closed lifecycles are reviewed

The end of a session reviews the lifecycles that were last updated on the UTC day of the session's
date, and twenty of them at most. Neither is the same as to be closed in the session. A session
in Sydney that opens at 23:00 UTC begins on the day before its date; one in New York may be
settled after midnight; a row that is written again, by the broker's sync or by the review itself,
moves to another day.

A history is what the end of each session does, the reviews that are asked for by hand, and whatever
the rest of the system does to the lifecycles in between. A lifecycle is reviewed as closed once for
each end of a session that catches it and for each such review of it by hand (`reviewed_once_iff`).
-/

namespace Investor.Intraday

open Lib Market

section History

/-- The rest of the system changes lifecycles in any way, or reviews are written: by the end of a
    session, or for a call of the API or the command line. -/
inductive HistoryStep
  | elsewhere (change : ReviewedTable → ReviewedTable)
  | reviews (op : ReviewOp)

def ReviewStore.advance [Casing] (s : ReviewStore) : HistoryStep → ReviewStore
  | .elsewhere change => { s with lifecycles := change s.lifecycles }
  | .reviews op => s.step op

def reviewsClosed (id : ℕ) (v : PostTradeReviewRecord) : Bool :=
  v.positionLifecycleId = some id && v.outcome = "closed"

def closedReviews (id : ℕ) (s : ReviewStore) : ℕ := s.reviews.countP (reviewsClosed id)

/-- The request writes a review of the lifecycle as closed. -/
def ReviewRequest.catches (q : ReviewRequest) (c : ReviewCall) (id : ℕ) : Bool :=
  q.positionLifecycleId = some id && q.outcome = "closed" && c.stop ≠ some .unwritten

def reviewsRow (lc : ReviewedLifecycle) (c : ReviewCall) : Bool :=
  lc.status = .closed && c.stop ≠ some .unwritten

def PostmarketRun.catches (p : PostmarketRun) (id : ℕ) (t : ReviewedTable) : Bool :=
  (p.callFor id t).any fun found => reviewsRow found.1 found.2

def catchesIn (id : ℕ) (s : ReviewStore) : HistoryStep → Bool
  | .elsewhere _ => false
  | .reviews (.review q c) => q.catches c id
  | .reviews (.postmarket p) => p.catches id s.lifecycles

/-! ## What is counted -/

variable {id : ℕ} {calls : ℕ → ReviewCall} {s : ReviewStore} [Casing]

/-- One call more: its review counts if it is written, of the lifecycle and as closed. -/
theorem closedReviews_request (id : ℕ) (q : ReviewRequest) (c : ReviewCall) (s : ReviewStore) :
    closedReviews id (createReview q c s).2 =
      closedReviews id s + if q.catches c id then 1 else 0 := by
  unfold createReview
  split
  · rename_i hstop
    simp [ReviewRequest.catches, hstop]
  · rename_i hstop
    have hrow : reviewsClosed id (reviewRow q c s) = q.catches c id := by
      unfold reviewsClosed ReviewRequest.catches reviewRow
      rw [decide_eq_true hstop, Bool.and_true]
    have hcount : ∀ t e, closedReviews id ⟨t, s.reviews ++ [reviewRow q c s], e⟩ =
        closedReviews id s + if q.catches c id then 1 else 0 := by
      intro t e
      unfold closedReviews
      rw [List.countP_append, List.countP_singleton, hrow]
    dsimp only
    split <;> exact hcount _ _

theorem closedReviews_createReview (id : ℕ) (lc : ReviewedLifecycle) (c : ReviewCall) (s : ReviewStore) :
    closedReviews id (createReview (postmarketRequest lc) c s).2 =
      closedReviews id s + if lc.id = id ∧ reviewsRow lc c then 1 else 0 := by
  rw [closedReviews_request]
  by_cases hstatus : lc.status = .closed <;>
    simp [ReviewRequest.catches, postmarketRequest, reviewsRow, hstatus]

theorem closedReviews_reviewRows {rows : List ReviewedLifecycle}
    (hunique : (rows.map (·.id)).Nodup) (i : ℕ) (s : ReviewStore) :
    closedReviews id (reviewRows calls i rows s) = closedReviews id s +
      if (callOf calls id i rows).any fun found => reviewsRow found.1 found.2 then 1 else 0 := by
  induction rows generalizing i s with
  | nil => simp [reviewRows, callOf]
  | cons lc rest ih =>
    rw [List.map_cons, List.nodup_cons] at hunique
    have hgoes := createReview_postmarket_fst lc (calls i) s
    have hcount := closedReviews_createReview id lc (calls i) s
    cases hcall : createReview (postmarketRequest lc) (calls i) s with
    | mk goes s' =>
    rw [hcall] at hgoes hcount
    simp only at hgoes hcount
    rw [reviewRows, hcall, callOf]
    cases goes with
    | false =>
      have hstop : (calls i).stop ≠ none := of_decide_eq_false hgoes.symm
      by_cases hid : lc.id = id
      · simp [hcount, hid]
      · simp [hcount, hid, hstop]
    | true =>
      have hstop : (calls i).stop = none := of_decide_eq_true hgoes.symm
      simp only
      rw [ih hunique.2, hcount]
      by_cases hid : lc.id = id
      · have hrest : callOf calls id (i + 1) rest = none :=
          callOf_of_notMem (hid ▸ hunique.1)
        simp [hid, hrest]
      · simp [hid, hstop]

theorem closedReviews_advance (id : ℕ) (s : ReviewStore) (step : HistoryStep) :
    closedReviews id (s.advance step) =
      closedReviews id s + if catchesIn id s step then 1 else 0 := by
  cases step with
  | elsewhere change => rfl
  | reviews op =>
    cases op with
    | review q c => exact closedReviews_request id q c s
    | postmarket p => exact closedReviews_reviewRows (picks_nodup p s.lifecycles) 0 s

/-- **A lifecycle gets exactly one review as closed in a history if exactly one step of it catches
    it**, an end of a session or a review by hand, whatever happens in between. -/
theorem reviewed_once_iff (s : ReviewStore) (history : List HistoryStep) (id : ℕ) :
    closedReviews id (runFrom ReviewStore.advance s history) = closedReviews id s + 1 ↔
      timesMet ReviewStore.advance (catchesIn id) s history = 1 := by
  rw [measure_run (closedReviews_advance id) s history]
  exact Nat.add_left_cancel_iff

end History

section Samples

attribute [local instance] asciiCasing

def sydneyLifecycle : ReviewedLifecycle :=
  { soldLifecycle with
    symbol := "BHP", status := .open, venue := "AU", currency := some "AUD", closedAt := none
    updatedAt := 0 }

def sydneyStore : ReviewStore :=
  { lifecycles := ⟨[sydneyLifecycle], List.nodup_singleton _⟩, reviews := [], evaluations := [] }

def closedAtOpen (t : ReviewedTable) : ReviewedTable :=
  t.updateAt 1 (fun r => { r with
    status := .closed, closedAt := some (3 * DAY_MICROS - 1800000000)
    updatedAt := 3 * DAY_MICROS - 1800000000 }) fun _ => rfl

def sydneyEnd : PostmarketRun := { endOfSession 6 with venue := .au }

/-- **What is closed in the first hour of a session in Sydney is not reviewed**, though nothing
    stops the review. -/
theorem sydney_morning_unreviewed :
    ¬ ∀ (s : ReviewStore) (change : ReviewedTable → ReviewedTable) (p : PostmarketRun)
      (offset : Int) (r r' : ReviewedLifecycle) (closedAt : Int),
      |offset| < DAY_MICROS → s.lifecycles.find? r.id = some r → r.status ≠ .closed →
      (change s.lifecycles).find? r.id = some r' → r'.status = .closed →
      r'.venue = p.venue.value → r'.closedAt = some closedAt → r'.updatedAt = closedAt →
      (closedAt + offset) / DAY_MICROS = p.sessionDate → (∀ n, (p.calls n).stop = none) →
      closedReviews r.id (runFrom ReviewStore.advance s [.elsewhere change, .reviews (.postmarket p)]) =
        closedReviews r.id s + 1 := by
  intro hall
  have hone := hall sydneyStore closedAtOpen sydneyEnd (11 * 3600000000) sydneyLifecycle
    { sydneyLifecycle with
      status := .closed, closedAt := some (3 * DAY_MICROS - 1800000000)
      updatedAt := 3 * DAY_MICROS - 1800000000 }
    (3 * DAY_MICROS - 1800000000) (by decide) rfl (by decide) rfl rfl rfl rfl rfl (by decide)
    fun _ => rfl
  revert hone
  decide +kernel

end Samples

end Investor.Intraday
