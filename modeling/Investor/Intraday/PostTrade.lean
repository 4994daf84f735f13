import Investor.Lib.Datetime
import Investor.Intraday.CloseStamp

/-!
# Reviews after the trade

`PostTradeReviewService.create_review` writes a review of a trade and, where the outcome is a
close, marks the lifecycle closed at the time of the review. The settlement of a session reviews
the lifecycles that stand closed already, so that the time of the fill, which the close was
stamped with, is written over by the time of the review.

Who calls is told apart only by the arguments: a person (`ReviewOp.review`) or the session's end
(`ReviewOp.postmarket`), which picks its lifecycles by status, venue and the day of their last
update. In a run of such calls a closed lifecycle keeps its close exactly if none of them reviews
it as closed at another time (`close_kept_iff`).
-/

namespace Investor.Intraday

open Lib Market

/-! ## Rows -/

/-- `PositionLifecycle`, with the columns that a review reads or writes beside those of the close;
    instants in microseconds. -/
structure ReviewedLifecycle extends ClosingLifecycle where
  decisionId : Option String
  exitPolicy : Dict Json
  updatedAt : Int

abbrev ReviewedTable := KeyedTable fun r : ReviewedLifecycle => r.id

/-- What `judge_close` says of a trade. -/
structure TradeLesson where
  symbol : String
  strategyId : String
  layer : String
  executionVerdict : String
  strategyVerdict : Option String
  cause : String
  action : String
  countsForStrategy : Bool
  grossPnl : Option ℚ
  deriving DecidableEq

/-- `PostTradeReviewRecord`, less the columns that are always empty or repeat the lesson. -/
structure PostTradeReviewRecord where
  positionLifecycleId : Option ℕ
  decisionId : Option String
  symbol : String
  outcome : String
  exitReason : String
  pnl : Option ℚ
  thesisAccuracy : String
  lesson : Option TradeLesson
  universeHorizon : Option Json
  createdAt : Int

/-- `AgentOutcomeEvaluation`, less what is copied from the run unread. -/
structure AgentOutcomeEvaluation where
  agentName : String
  directionalView : Option String
  symbol : String
  outcome : String
  actualReturn : Option ℚ
  directionCorrect : Option Bool

structure AgentRun where
  agentName : String
  directionalView : Option String
  hasUuids : Bool

structure ReviewStore where
  lifecycles : ReviewedTable
  reviews : List PostTradeReviewRecord
  evaluations : List AgentOutcomeEvaluation

/-! ## A review -/

/-- The arguments of `create_review`. -/
structure ReviewRequest where
  positionLifecycleId : Option ℕ
  decisionId : Option String
  symbol : String
  outcome : String
  exitReason : String
  pnl : Option ℚ
  thesisStatus : String := "UNKNOWN"
  agentRuns : List AgentRun := []

/-- Where a call is stopped, by a timeout or by the database: before its review is on file, or
    before the lifecycle is touched. -/
inductive ReviewStop
  | unwritten | unclosed
  deriving DecidableEq

/-- What a call finds outside: the clock, the clock of the transaction, what `judge_close` makes of
    a lifecycle (nothing where it raises), and where the call is stopped. -/
structure ReviewCall where
  now : Int
  dbNow : Int
  lesson : ReviewedLifecycle → Option TradeLesson
  stop : Option ReviewStop

def CLOSING_OUTCOMES : List String := ["closed", "stopped", "take_profit"]

section Review

def reviewRow (q : ReviewRequest) (c : ReviewCall) (s : ReviewStore) : PostTradeReviewRecord :=
  let probe := q.positionLifecycleId.bind s.lifecycles.find?
  let lesson := probe.bind c.lesson
  { positionLifecycleId := q.positionLifecycleId, decisionId := q.decisionId, symbol := q.symbol
    outcome := q.outcome, exitReason := q.exitReason
    pnl := match lesson with
      | some lesson => lesson.grossPnl
      | none => q.pnl
    thesisAccuracy := q.thesisStatus, lesson
    universeHorizon := probe.bind fun lc => Dict.get? lc.exitPolicy "horizon"
    createdAt := c.now }

def agentEvaluation [Casing] (q : ReviewRequest) (pnl : Option ℚ) (run : AgentRun) :
    AgentOutcomeEvaluation :=
  { agentName := if run.agentName = "" then "unknown" else run.agentName
    directionalView := run.directionalView, symbol := Casing.upper q.symbol, outcome := q.outcome
    actualReturn := pnl
    directionCorrect := pnl.bind fun actual =>
      match run.directionalView with
      | some "BULLISH" => some (decide (0 < actual))
      | some "BEARISH" => some (decide (actual < 0))
      | _ => none }

/-- The row is closed at the time of the call, also where it was closed before. Only a row that is
    changed by it is updated. -/
def ReviewCall.close (c : ReviewCall) (r : ReviewedLifecycle) : ReviewedLifecycle :=
  if r.status = .closed ∧ r.closedAt = some c.now then r
  else { r with status := .closed, closedAt := some c.now, updatedAt := c.dbNow }

@[simp] theorem ReviewCall.close_id (c : ReviewCall) (r : ReviewedLifecycle) :
    (c.close r).id = r.id := by
  unfold ReviewCall.close
  split <;> rfl

def closeLifecycle (q : ReviewRequest) (c : ReviewCall) (t : ReviewedTable) : ReviewedTable :=
  match q.positionLifecycleId with
  | some id => if q.outcome ∈ CLOSING_OUTCOMES then t.updateAt id c.close c.close_id else t
  | none => t

/-- `create_review`: whether it comes to its end, and what it leaves. An agent run whose ids are no
    UUIDs raises. -/
def createReview [Casing] (q : ReviewRequest) (c : ReviewCall) (s : ReviewStore) : Bool × ReviewStore :=
  if c.stop = some .unwritten then (false, s)
  else
    let row := reviewRow q c s
    let evaluated := (q.agentRuns.takeWhile (·.hasUuids)).map (agentEvaluation q row.pnl)
    let s := { s with reviews := s.reviews ++ [row], evaluations := s.evaluations ++ evaluated }
    if c.stop = some .unclosed || !q.agentRuns.all (·.hasUuids) then (false, s)
    else (true, { s with lifecycles := closeLifecycle q c s.lifecycles })

/-! ## The reviews of a session's end -/

/-- The call of `create_review` that `run_postmarket` makes for a lifecycle. -/
def postmarketRequest (lc : ReviewedLifecycle) : ReviewRequest :=
  { positionLifecycleId := some lc.id, decisionId := lc.decisionId, symbol := lc.symbol
    outcome := if lc.status = .closed then "closed" else "pending_close"
    exitReason := "postmarket_review", pnl := none }

/-- A run of the step: of a venue and a session date (in days), in some order of the rows, with
    what each call finds outside. -/
structure PostmarketRun where
  venue : Venue
  sessionDate : Int
  order : List ReviewedLifecycle → List ReviewedLifecycle
  perm : ∀ rows, (order rows).Perm rows
  calls : ℕ → ReviewCall

def updatedOn (day : Int) (lc : ReviewedLifecycle) : Bool :=
  day * DAY_MICROS ≤ lc.updatedAt && lc.updatedAt < (day + 1) * DAY_MICROS

/-- The rows that are reviewed: `closed[:20]`. -/
def PostmarketRun.picks (p : PostmarketRun) (t : ReviewedTable) : List ReviewedLifecycle :=
  (p.order (t.rows.filter fun lc =>
    (lc.status = .closed || lc.status = .pendingClose) && lc.venue = p.venue.value &&
      updatedOn p.sessionDate lc)).take 20

/-- The reviews of some rows, from the call of a number on; the first that is stopped ends them. -/
def reviewRows [Casing] (calls : ℕ → ReviewCall) : ℕ → List ReviewedLifecycle → ReviewStore → ReviewStore
  | _, [], s => s
  | i, lc :: rest, s =>
    match createReview (postmarketRequest lc) (calls i) s with
    | (true, s') => reviewRows calls (i + 1) rest s'
    | (false, s') => s'

/-- `_posttrade`, the step of `run_postmarket`. -/
def PostmarketRun.posttrade [Casing] (p : PostmarketRun) (s : ReviewStore) : ReviewStore :=
  reviewRows p.calls 0 (p.picks s.lifecycles) s

/-- A review by a person, or those of a session's end (also of a retry). -/
inductive ReviewOp
  | review (q : ReviewRequest) (c : ReviewCall)
  | postmarket (p : PostmarketRun)

def ReviewStore.step [Casing] (s : ReviewStore) : ReviewOp → ReviewStore
  | .review q c => (createReview q c s).2
  | .postmarket p => p.posttrade s

/-! ## What a call does to a lifecycle -/

variable {q : ReviewRequest} {c : ReviewCall} {s : ReviewStore} {id : ℕ}

structure Closes (q : ReviewRequest) (c : ReviewCall) (id : ℕ) : Prop where
  named : q.positionLifecycleId = some id
  closing : q.outcome ∈ CLOSING_OUTCOMES
  unstopped : c.stop = none
  uuids : q.agentRuns.all (·.hasUuids) = true

instance (q : ReviewRequest) (c : ReviewCall) (id : ℕ) : Decidable (Closes q c id) :=
  decidable_of_iff (q.positionLifecycleId = some id ∧ q.outcome ∈ CLOSING_OUTCOMES ∧
      c.stop = none ∧ q.agentRuns.all (·.hasUuids) = true)
    ⟨fun h => ⟨h.1, h.2.1, h.2.2.1, h.2.2.2⟩, fun h => ⟨h.1, h.2, h.3, h.4⟩⟩

theorem find?_closeLifecycle (q : ReviewRequest) (c : ReviewCall) (t : ReviewedTable) (id : ℕ) :
    (closeLifecycle q c t).find? id = (t.find? id).map fun r =>
      if q.positionLifecycleId = some id ∧ q.outcome ∈ CLOSING_OUTCOMES then c.close r else r := by
  unfold closeLifecycle
  cases q.positionLifecycleId with
  | none => simp
  | some j =>
    by_cases hclosing : q.outcome ∈ CLOSING_OUTCOMES
    · simp only [hclosing, if_true, and_true, Option.some.injEq]
      rw [KeyedTable.find?_updateAt]
      simp only [eq_comm]
    · simp [hclosing]

theorem find?_createReview [Casing] (q : ReviewRequest) (c : ReviewCall) (s : ReviewStore) (id : ℕ) :
    (createReview q c s).2.lifecycles.find? id = (s.lifecycles.find? id).map fun r =>
      if Closes q c id then c.close r else r := by
  have hself : ∀ {row : Option ReviewedLifecycle}, ¬ Closes q c id →
      row = row.map fun r => if Closes q c id then c.close r else r := by
    intro row hnot
    simp [hnot]
  unfold createReview
  split
  · rename_i hstop
    exact hself fun h => by rw [h.unstopped] at hstop; cases hstop
  · dsimp only
    split
    · rename_i hunclosed
      refine hself fun h => ?_
      simp [h.unstopped, h.uuids] at hunclosed
    · rename_i hwritten hunclosed
      simp only [Bool.or_eq_true, decide_eq_true_eq, Bool.not_eq_true', not_or,
        Bool.not_eq_false] at hunclosed
      have hunstopped : c.stop = none := by
        cases hstop : c.stop with
        | none => rfl
        | some stop => cases stop <;> simp_all
      rw [find?_closeLifecycle]
      congr 1
      funext r
      refine if_congr ⟨fun h => ⟨h.1, h.2, hunstopped, hunclosed.2⟩, fun h => ⟨h.1, h.2⟩⟩ rfl rfl

/-! ## What the reviews of a session's end do -/

/-- The row of a lifecycle among those that are reviewed, with the call that is made for it: no call
    before it is stopped. -/
def callOf (calls : ℕ → ReviewCall) (id : ℕ) :
    ℕ → List ReviewedLifecycle → Option (ReviewedLifecycle × ReviewCall)
  | _, [] => none
  | i, lc :: rest =>
    if lc.id = id then some (lc, calls i)
    else if (calls i).stop = none then callOf calls id (i + 1) rest
    else none

variable {calls : ℕ → ReviewCall}

variable {rows : List ReviewedLifecycle} {lc : ReviewedLifecycle}

theorem callOf_mem {i : ℕ} (h : callOf calls id i rows = some (lc, c)) :
    lc ∈ rows ∧ lc.id = id := by
  induction rows generalizing i with
  | nil => cases h
  | cons x rest ih =>
    rw [callOf] at h
    split at h
    · rename_i hid
      cases h
      exact ⟨List.mem_cons_self, hid⟩
    · split at h
      · obtain ⟨hmem, hid⟩ := ih h
        exact ⟨List.mem_cons_of_mem x hmem, hid⟩
      · cases h

theorem callOf_of_notMem {i : ℕ} (h : id ∉ rows.map (·.id)) : callOf calls id i rows = none := by
  cases hcall : callOf calls id i rows with
  | none => rfl
  | some found =>
    obtain ⟨hmem, hid⟩ := callOf_mem (c := found.2) hcall
    exact absurd (List.mem_map.mpr ⟨found.1, hmem, hid⟩) h

def closesRow (lc : ReviewedLifecycle) (c : ReviewCall) : Bool := lc.status = .closed && c.stop = none

theorem closes_postmarketRequest_iff (lc : ReviewedLifecycle) (c : ReviewCall) (id : ℕ) :
    Closes (postmarketRequest lc) c id ↔ lc.id = id ∧ closesRow lc c = true := by
  unfold closesRow
  constructor
  · intro h
    refine ⟨Option.some.inj h.named, ?_⟩
    have hclosing := h.closing
    simp only [postmarketRequest, CLOSING_OUTCOMES] at hclosing
    split at hclosing
    · rename_i hstatus
      simp [hstatus, h.unstopped]
    · simp at hclosing
  · rintro ⟨rfl, hcloses⟩
    simp only [Bool.and_eq_true, decide_eq_true_eq] at hcloses
    exact ⟨rfl, by simp [postmarketRequest, CLOSING_OUTCOMES, hcloses.1], hcloses.2, rfl⟩

theorem createReview_postmarket_fst [Casing] (lc : ReviewedLifecycle) (c : ReviewCall) (s : ReviewStore) :
    (createReview (postmarketRequest lc) c s).1 = decide (c.stop = none) := by
  unfold createReview
  cases hstop : c.stop with
  | none => simp [postmarketRequest]
  | some stop => cases stop <;> simp

theorem find?_reviewRows [Casing] (calls : ℕ → ReviewCall) (id : ℕ)
    (hunique : (rows.map (·.id)).Nodup) (i : ℕ) (s : ReviewStore) :
    (reviewRows calls i rows s).lifecycles.find? id = (s.lifecycles.find? id).map fun r =>
      match callOf calls id i rows with
      | some (lc, c) => if closesRow lc c then c.close r else r
      | none => r := by
  induction rows generalizing i s with
  | nil => simp [reviewRows, callOf]
  | cons lc rest ih =>
    rw [List.map_cons, List.nodup_cons] at hunique
    have hgoes := createReview_postmarket_fst lc (calls i) s
    have hrow := find?_createReview (postmarketRequest lc) (calls i) s id
    simp only [closes_postmarketRequest_iff] at hrow
    cases hcall : createReview (postmarketRequest lc) (calls i) s with
    | mk goes s' =>
    rw [hcall] at hgoes hrow
    simp only at hgoes hrow
    cases goes with
    | false =>
      -- the step ends here, and a call that is stopped closes nothing
      have hstop : (calls i).stop ≠ none := of_decide_eq_false hgoes.symm
      have hcloses : closesRow lc (calls i) = false := by simp [closesRow, hstop]
      rw [reviewRows, hcall]
      simp only [hrow, hcloses, Bool.false_eq_true, and_false, if_false]
      rw [callOf]
      by_cases hid : lc.id = id
      · simp [hid, hcloses]
      · simp [hid, hstop]
    | true =>
      have hstop : (calls i).stop = none := of_decide_eq_true hgoes.symm
      rw [reviewRows, hcall]
      simp only
      rw [ih hunique.2, hrow, callOf]
      by_cases hid : lc.id = id
      · have hrest : callOf calls id (i + 1) rest = none :=
          callOf_of_notMem (hid ▸ hunique.1)
        simp [hid, hrest, Function.comp_def]
      · simp [hid, hstop]

theorem picks_nodup (p : PostmarketRun) (t : ReviewedTable) :
    ((p.picks t).map (·.id)).Nodup := by
  have hrows : ((t.rows.filter fun lc => (lc.status = .closed || lc.status = .pendingClose) &&
      lc.venue = p.venue.value && updatedOn p.sessionDate lc).map (·.id)).Nodup :=
    t.unique.sublist (List.filter_sublist.map _)
  have horder := ((p.perm _).map (·.id)).nodup_iff.mpr hrows
  exact horder.sublist ((List.take_sublist 20 _).map _)

theorem mem_of_mem_picks {p : PostmarketRun} {t : ReviewedTable} (h : lc ∈ p.picks t) :
    lc ∈ t.rows :=
  List.mem_of_mem_filter ((p.perm _).mem_iff.mp (List.mem_of_mem_take h))

/-- The lifecycle's row when the session's end comes to it, and the call made for it. -/
def PostmarketRun.callFor (p : PostmarketRun) (id : ℕ) (t : ReviewedTable) :
    Option (ReviewedLifecycle × ReviewCall) := callOf p.calls id 0 (p.picks t)

theorem find?_of_callFor {p : PostmarketRun} {t : ReviewedTable} (h : p.callFor id t = some (lc, c)) :
    t.find? id = some lc := by
  obtain ⟨hmem, hid⟩ := callOf_mem h
  exact KeyedTable.find?_eq_some_iff.mpr ⟨mem_of_mem_picks hmem, hid⟩

/-! ## Runs -/

structure SameClose (r r' : ReviewedLifecycle) : Prop where
  status : r'.status = r.status
  closedAt : r'.closedAt = r.closedAt
  realizedPl : r'.realizedPl = r.realizedPl
  stamps : r'.metadataJson = r.metadataJson

/-- **The lifecycle has the close it had.** -/
def KeepsClose (r : ReviewedLifecycle) (s : ReviewStore) : Prop :=
  ∃ r', s.lifecycles.find? r.id = some r' ∧ SameClose r r'

/-- The step does not review the lifecycle as closed, unless at the very time of its close. -/
def LeavesClose (r : ReviewedLifecycle) (s : ReviewStore) : ReviewOp → Prop
  | .review q c => Closes q c r.id → r.closedAt = some c.now
  | .postmarket p => ∀ lc c, p.callFor r.id s.lifecycles = some (lc, c) → c.stop = none →
    r.closedAt = some c.now

variable {r : ReviewedLifecycle}

theorem sameClose_close_iff {r' : ReviewedLifecycle} (h : SameClose r r') (hclosed : r.status = .closed)
    (c : ReviewCall) : SameClose r (c.close r') ↔ r.closedAt = some c.now := by
  unfold ReviewCall.close
  split
  · rename_i hsame
    exact iff_of_true h (h.closedAt ▸ hsame.2)
  · constructor
    · intro hclose
      exact hclose.closedAt.symm
    · intro hnow
      exact ⟨hclosed.symm, hnow.symm, h.realizedPl, h.stamps⟩

/-- Only a second close of the trade, at another time, changes its close. -/
theorem keepsClose_step_iff [Casing] (hclosed : r.status = .closed) (s : ReviewStore) (op : ReviewOp)
    (hkeeps : KeepsClose r s) : KeepsClose r (s.step op) ↔ LeavesClose r s op := by
  obtain ⟨r', hrow, hsame⟩ := hkeeps
  cases op with
  | review q c =>
    have hnext := find?_createReview q c s r.id
    rw [hrow, Option.map_some] at hnext
    unfold KeepsClose ReviewStore.step LeavesClose
    simp only [hnext, Option.some.injEq, exists_eq_left']
    split
    · rename_i hcloses
      rw [sameClose_close_iff hsame hclosed]
      exact ⟨fun h _ => h, fun h => h hcloses⟩
    · rename_i hnot
      exact iff_of_true hsame fun h => absurd h hnot
  | postmarket p =>
    have hnext := find?_reviewRows p.calls r.id (picks_nodup p s.lifecycles) 0 s
    rw [hrow, Option.map_some] at hnext
    unfold KeepsClose ReviewStore.step PostmarketRun.posttrade LeavesClose
    simp only [hnext, Option.some.injEq, exists_eq_left']
    cases hcall : p.callFor r.id s.lifecycles with
    | none =>
      unfold PostmarketRun.callFor at hcall
      rw [hcall]
      exact iff_of_true hsame fun lc c h => by cases h
    | some found =>
      obtain ⟨lc, c⟩ := found
      -- the row under review is the one on file, so it is closed
      have hlc : lc = r' := Option.some.inj ((find?_of_callFor hcall).symm.trans hrow)
      have hstatus : lc.status = .closed := by rw [hlc, hsame.status, hclosed]
      unfold PostmarketRun.callFor at hcall
      rw [hcall]
      simp only [closesRow, hstatus, decide_true, Bool.true_and, decide_eq_true_eq]
      split
      · rename_i hstop
        rw [sameClose_close_iff hsame hclosed]
        constructor
        · rintro h lc' c' heq -
          cases heq
          exact h
        · intro h
          exact h lc c rfl hstop
      · rename_i hstop
        refine iff_of_true hsame ?_
        rintro lc' c' heq hnone
        cases heq
        exact absurd hnone hstop

/-- **A closed lifecycle keeps its close through a run of reviews exactly if no step of it reviews
    the lifecycle as closed at another time.** -/
theorem close_kept_iff [Casing] {ops : List ReviewOp} (hrow : s.lifecycles.find? r.id = some r)
    (hclosed : r.status = .closed) :
    (∀ done, done <+: ops → KeepsClose r (runFrom ReviewStore.step s done)) ↔
      StepsMeet ReviewStore.step (LeavesClose r) s ops :=
  all_reached_iff (keepsClose_step_iff hclosed) ⟨r, hrow, rfl, rfl, rfl, rfl⟩

end Review

section Samples

attribute [local instance] asciiCasing

def soldLifecycle : ReviewedLifecycle :=
  { id := 1, symbol := "AAPL", status := .closed, quantity := 0, averageEntryPrice := some 100
    currentPrice := some 120, venue := "US", currency := some "USD", conId := none
    stopPrice := none, protectionSubmitted := false, openedAt := some 0
    closedAt := some (3 * DAY_MICROS + 14 * 3600000000), realizedPl := 200
    metadataJson := [("pnl_basis", .str "fill"), ("closed_at_source", .str "fill")]
    decisionId := none, exitPolicy := [], updatedAt := 3 * DAY_MICROS + 14 * 3600000000 }

def soldStore : ReviewStore :=
  { lifecycles := ⟨[soldLifecycle], List.nodup_singleton _⟩, reviews := [], evaluations := [] }

def endOfSession (hour : Int) : PostmarketRun :=
  { venue := .us, sessionDate := 3, order := id, perm := fun _ => List.Perm.refl _
    calls := fun _ =>
      { now := 3 * DAY_MICROS + hour * 3600000000, dbNow := 3 * DAY_MICROS + hour * 3600000000
        lesson := fun _ => none, stop := none } }

theorem close_kept_pending :
    soldStore.lifecycles.find? soldLifecycle.id = some soldLifecycle ∧
    soldLifecycle.status = .closed ∧
    ((∀ done, done <+: [ReviewOp.postmarket (endOfSession 14)] →
        KeepsClose soldLifecycle (runFrom ReviewStore.step soldStore done)) ↔
      StepsMeet ReviewStore.step (LeavesClose soldLifecycle) soldStore
        [.postmarket (endOfSession 14)]) :=
  ⟨rfl, rfl, close_kept_iff rfl rfl⟩

/-- **The end of the session writes its own time over that of the fill.** -/
theorem close_moved_to_review :
    ¬ ∀ (s : ReviewStore) (r : ReviewedLifecycle) (ops : List ReviewOp),
      s.lifecycles.find? r.id = some r → r.status = .closed →
      KeepsClose r (runFrom ReviewStore.step s ops) := by
  intro hall
  obtain ⟨r', hrow, hsame⟩ :=
    hall soldStore soldLifecycle [.postmarket (endOfSession 21)] rfl rfl
  have hmoved : ((runFrom ReviewStore.step soldStore
      [.postmarket (endOfSession 21)]).lifecycles.find? 1).map (·.closedAt) =
      some (some (3 * (DAY_MICROS : Int) + 21 * 3600000000)) := by decide +kernel
  rw [show soldLifecycle.id = 1 from rfl] at hrow
  rw [hrow, Option.map_some, hsame.closedAt] at hmoved
  revert hmoved
  decide +kernel

end Samples

end Investor.Intraday
