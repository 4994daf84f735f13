import Investor.Intraday.Settlement
import Investor.Performance.MethodTrial

/-!
# How the exit of a trial is observed

`complete_method_trial` looks up the exit of one lifecycle: the sell to judge among the orders of
its symbol, the closes since it was opened among the fills of its symbol, and the marks of its
snapshots. What it sees (`exitEvidence`) is turned into facts (`exitFacts`), and these are merged
into the trial.

Orders and fills are those of the symbol, whichever lifecycle they belong to, and a fact that was
seen once is kept. The facts that are finally written are the lifecycle's own, as if it had been
looked at once, where the last call sees what the lifecycle's own rows show, and the calls before
it saw no more than that (`completed_own`).
-/

namespace Investor.Performance

open Lib Intraday Execution Universe Agents

/-! ## Paths -/

def pathOf : Option Int → Option Int → String
  | some stopAt, some targetAt =>
    if targetAt < stopAt then "target_first"
    else if stopAt < targetAt then "stop_first"
    else "ambiguous"
  | none, some _ => "target_only"
  | some _, none => "stop_only"
  | none, none => "neither"

/-- `price_path`. -/
def pricePath (marks : List (Int × ℚ)) (stop target : Option ℚ) : String :=
  if stop = none ∧ target = none then PATH_UNOBSERVED
  else
    match sortedBy (·.1) (marks.filter fun m => 0 < m.2) with
    | [] => PATH_UNOBSERVED
    | ordered =>
      let stopAt := (ordered.find? fun m => stop.any fun s => m.2 ≤ s).map (·.1)
      let targetAt := (ordered.find? fun m => target.any fun t => t ≤ m.2).map (·.1)
      pathOf stopAt targetAt

/-- `holding_minutes`. -/
def holdingMinutes (opened closed : Option Int) : Option ℚ :=
  match opened, closed with
  | some o, some c =>
    let minutes : ℚ := (c - o : Int) / 60000000
    if minutes < 0 then none else some (roundTo 2 minutes)
  | _, _ => none

/-! ## Rows -/

/-- `PositionLifecycle`, less what changes while it is held. -/
structure TrialLifecycle where
  id : ℕ
  symbol : String
  venue : Option String := none
  currency : Option String := none
  openedAt : Option Int := none

/-- `PositionSnapshotRecord`. -/
structure PositionSnapshot where
  positionLifecycleId : ℕ
  asOf : Int
  currentPrice : Option ℚ

/-- `MethodTrial`, what is frozen at entry and the columns of its exit. -/
structure MethodTrial where
  venue : Option String := none
  currency : Option String := none
  stopPrice : Option ℚ := none
  targetPrice : Option ℚ := none
  openedAt : Option Int := none
  exit : ExitState

/-- What a call finds: the tables, and when the lifecycle was closed. -/
structure ExitTables where
  orders : List Order
  executions : List ExecutionRow
  snapshots : List PositionSnapshot
  closedAt : Option Int

/-! ## The order to judge -/

section Exits

section

variable [Casing]

/-- How an order ranks: a filled protective stop, a protective stop, a filled order. -/
def exitRank (o : Order) : ℕ :=
  let filled := Casing.lower o.status ∈ ["filled", "partially_filled"]
  let protect := hasPrefix o.idempotencyKey "protect-stop:" = true
  (if protect ∧ filled then 4 else 0) + (if protect then 2 else 0) + if filled then 1 else 0

/-- `select_exit_order`: the first of the highest rank, if any ranks at all. -/
def selectExitOrder (orders : List Order) : Option Order :=
  if orders.any fun o => 0 < exitRank o then orders.argmax exitRank else none

/-- `intended_and_broker`. -/
def intendedAndBroker (o : Order) : String × String :=
  let broker := canonicalOrderType (some o.orderType)
  if hasPrefix o.idempotencyKey "protect-stop:" then ("stop", broker)
  else if hasPrefix o.idempotencyKey "force-close:" || hasPrefix o.idempotencyKey "hard-stop:" then
    ("market", broker)
  else (broker, broker)

/-- `execution_verdict`. -/
def executionVerdict : Option (String × String) → String × String
  | none => ("unknown", "execution_unobserved")
  | some (intended, broker) =>
    if strip intended = "" ∨ strip broker = "" then ("unknown", "execution_unobserved")
    else
      let want := canonicalOrderType (some intended)
      let sent := canonicalOrderType (some broker)
      if isRestingStop want && !isRestingStop sent then ("broken", "protective_stop_sent_as_limit")
      else if want = "market" ∧ sent = "limit" then ("faithful", "marketable_limit")
      else if want ≠ sent then ("broken", "broker_order_type_mismatch")
      else ("faithful", "order_type_matched")

/-- `judge_close`, the verdict on the strategy and the cause. -/
def judgeExit (types : Option (String × String)) (grossPnl : Option ℚ) : ExitJudgment :=
  let (verdict, cause) := executionVerdict types
  let (strategyVerdict, recorded) :=
    if verdict = "broken" then (none, cause)
    else if verdict ≠ "faithful" then (none, cause)
    else
      match grossPnl with
      | none => (none, "pnl_unknown")
      | some pnl =>
        (some (if 0 < pnl then "win" else if pnl < 0 then "loss" else "scratch"),
          if cause = "order_type_matched" then "faithful_close" else cause)
  { executionVerdict := some verdict, cause := some recorded, strategyVerdict
    intendedOrderType := types.map (·.1), brokerOrderType := types.map (·.2) }

/-! ## What is seen -/

/-- `str(first or second or "").upper()`. -/
def upperOr (first second : Option String) : String :=
  Casing.upper (((first.filter (· ≠ "")).or second).getD "")

def exitFills (t : PyText) (lc : TrialLifecycle) (row : MethodTrial) (tables : ExitTables) :
    List FillRecord :=
  let symbol := Casing.upper lc.symbol
  let fills := (tables.executions.filter fun e => symbol = "" ∨ e.symbol = symbol).filterMap fun e =>
    (tables.orders.find? (·.idempotencyKey = e.orderKey)).bind (fillFromExecution t e)
  let venue := upperOr row.venue lc.venue
  if venue ≠ "" ∧ fills.any (·.venue = venue) then fills.filter (·.venue = venue) else fills

/-- The closes since the trial was opened, of the books of its currency where there are any. -/
def exitCloses (t : PyText) (lc : TrialLifecycle) (row : MethodTrial) (tables : ExitTables) :
    List FifoClose :=
  let books := (reconstructFifo (exitFills t lc row tables)).books
  let currency := upperOr row.currency lc.currency
  let own := if currency ≠ "" ∧ books.any (·.key.currency = currency) then
    books.filter (·.key.currency = currency) else books
  (own.flatMap (·.closes)).filter fun c =>
    c.closedAt.any fun at_ => (row.openedAt.or lc.openedAt).all (· ≤ at_)

/-- What a call sees of an exit: the intended order type and the one sent, the closes, the time the
    lifecycle was closed, and the marks of its snapshots. -/
structure ExitEvidence where
  types : Option (String × String)
  closes : List FifoClose
  closedAt : Option Int
  marks : List (Int × ℚ)
  deriving DecidableEq

def exitEvidence (t : PyText) (lc : TrialLifecycle) (row : MethodTrial) (tables : ExitTables) :
    ExitEvidence :=
  let sells := tables.orders.filter fun o =>
    o.symbol = Casing.upper lc.symbol ∧ Casing.lower o.side = "sell"
  { types := (selectExitOrder sells).bind fun o =>
      if o.idempotencyKey = "" ∧ o.orderType = "" then none else some (intendedAndBroker o)
    closes := exitCloses t lc row tables
    closedAt := tables.closedAt
    marks := (tables.snapshots.filter (·.positionLifecycleId = lc.id)).filterMap fun s =>
      s.currentPrice.map (s.asOf, ·) }

end

def ExitEvidence.graded (e : ExitEvidence) : Bool :=
  !e.closes.isEmpty && e.closes.all (·.grossPnl.isSome)

def ExitEvidence.pathMarks (e : ExitEvidence) : List (Int × ℚ) :=
  e.marks ++ if e.graded then
    e.closes.filterMap fun c => c.closedAt.bind fun at_ => c.exitPrice.map (at_, ·) else []

def exitFacts [Casing] (lc : TrialLifecycle) (row : MethodTrial) (e : ExitEvidence) : ExitFacts :=
  let last := @List.argmax _ _ Int.instLinearOrder.toPartialOrder.toPreorder _
    (fun c : FifoClose => c.closedAt.getD 0) e.closes
  let grossPnl := if e.graded then some (roundTo 4 (e.closes.map (·.grossPnl.getD 0)).sum) else none
  let feesKnown := e.graded && e.closes.all (·.fee.isSome)
  let closedAt := if e.graded then last.bind (·.closedAt) else e.closedAt
  { grossPnl
    feesKnown
    fee := if feesKnown then some (roundTo 4 (e.closes.map (·.fee.getD 0)).sum) else none
    exitPrice := if e.graded then last.bind (·.exitPrice) else none
    closedAt
    holdingMinutes := holdingMinutes (row.openedAt.or lc.openedAt) closedAt
    path := some (pricePath e.pathMarks row.stopPrice row.targetPrice)
    judgment := judgeExit e.types grossPnl }

/-- `complete_method_trial`, where there is a trial. -/
def completeMethodTrial [Casing] (t : PyText) (lc : TrialLifecycle) (row : MethodTrial)
    (tables : ExitTables) : MethodTrial :=
  { row with exit := mergeExit row.exit (exitFacts lc row (exitEvidence t lc row tables)) }

/-! ## What a trial ends up with -/

/-- The rows that belong to the lifecycle, where each order belongs to one. -/
def ExitTables.own (tables : ExitTables) (owner : String → ℕ) (id : ℕ) : ExitTables :=
  { tables with
    orders := tables.orders.filter (owner ·.idempotencyKey = id)
    executions := tables.executions.filter (owner ·.orderKey = id)
    snapshots := tables.snapshots.filter (·.positionLifecycleId = id) }

/-- The facts of an exit, less those that are told from them. -/
structure ExitResult where
  grossPnl : Option ℚ
  feesKnown : Bool
  fee : Option ℚ
  exitPrice : Option ℚ
  closedAt : Option Int
  path : Option String
  executionVerdict : Option String
  deriving DecidableEq

def ExitFacts.result (f : ExitFacts) : ExitResult :=
  { grossPnl := f.grossPnl, feesKnown := f.feesKnown, fee := f.fee, exitPrice := f.exitPrice,
    closedAt := f.closedAt, path := f.path, executionVerdict := f.judgment.executionVerdict }

structure ExitFacts.SaysNoMore (o : ExitFacts) (r : ExitResult) : Prop where
  grossPnl : o.grossPnl = none ∨ o.grossPnl = r.grossPnl
  fee : o.feesKnown = false ∧ o.fee = none ∨ o.feesKnown = r.feesKnown ∧ o.fee = r.fee
  exitPrice : o.exitPrice = none ∨ o.exitPrice = r.exitPrice
  closedAt : o.closedAt = none ∨ o.closedAt = r.closedAt
  path : isKnown PATH_UNOBSERVED o.path = false ∨ o.path = r.path
  verdict : isKnown "unknown" o.judgment.executionVerdict = false ∨
    o.judgment.executionVerdict = r.executionVerdict

section Merges

variable {s : ExitState} {o : ExitFacts} {r : ExitResult}

theorem fillMissing_either {α : Type} (first : Bool) (current observed : Option α) :
    fillMissing first current observed = current ∨ fillMissing first current observed = observed := by
  cases first <;> cases current <;> cases observed <;> simp [fillMissing]

theorem fillUnknown_either {α : Type} (first : Bool) (unknown : String) (text : α → Option String)
    (current observed : α) :
    fillUnknown first unknown text current observed = current ∨
      fillUnknown first unknown text current observed = observed := by
  unfold fillUnknown
  split
  · exact Or.inr rfl
  · exact Or.inl rfl

theorem fillMissing_noMore {α : Type} {first : Bool} {current observed final : Option α}
    (h : current = none ∨ current = final) (h' : observed = none ∨ observed = final) :
    fillMissing first current observed = none ∨ fillMissing first current observed = final := by
  rcases fillMissing_either first current observed with heq | heq
  · rw [heq]
    exact h
  · rw [heq]
    exact h'

theorem fillUnknown_noMore {α : Type} {first : Bool} {unknown : String} {text : α → Option String}
    {current observed : α} {final : Option String}
    (h : isKnown unknown (text current) = false ∨ text current = final)
    (h' : isKnown unknown (text observed) = false ∨ text observed = final) :
    isKnown unknown (text (fillUnknown first unknown text current observed)) = false ∨
      text (fillUnknown first unknown text current observed) = final := by
  rcases fillUnknown_either first unknown text current observed with heq | heq
  · rw [heq]
    exact h
  · rw [heq]
    exact h'

theorem ExitFacts.SaysNoMore.merge (h : s.toExitFacts.SaysNoMore r) (ho : o.SaysNoMore r) :
    (mergeExit s o).toExitFacts.SaysNoMore r where
  grossPnl := fillMissing_noMore h.grossPnl ho.grossPnl
  exitPrice := fillMissing_noMore h.exitPrice ho.exitPrice
  closedAt := fillMissing_noMore h.closedAt ho.closedAt
  fee := by
    show (if o.feesKnown && !s.feesKnown then true else s.feesKnown) = false ∧
        (if o.feesKnown && !s.feesKnown then o.fee else s.fee) = none ∨
      (if o.feesKnown && !s.feesKnown then true else s.feesKnown) = r.feesKnown ∧
        (if o.feesKnown && !s.feesKnown then o.fee else s.fee) = r.fee
    split
    · rename_i hboth
      have hknown : o.feesKnown = true := by
        simp at hboth
        exact hboth.1
      rcases ho.fee with ⟨hunknown, -⟩ | ⟨hsame, hfee⟩
      · rw [hunknown] at hknown
        cases hknown
      · exact Or.inr ⟨hknown.symm.trans hsame, hfee⟩
    · exact h.fee
  path := @fillUnknown_noMore _ _ _ id s.path o.path _ h.path ho.path
  verdict := @fillUnknown_noMore _ _ _ (·.executionVerdict) s.judgment o.judgment _ h.verdict ho.verdict

theorem fillMissing_final {α : Type} {first : Bool} {current final : Option α}
    (h : current = none ∨ current = final) : fillMissing first current final = final := by
  rcases h with rfl | rfl
  · cases first <;> simp [fillMissing]
  · cases first <;> cases current <;> rfl

theorem fillUnknown_final {α : Type} {first : Bool} {unknown : String} {text : α → Option String}
    {current final : α} (hfinal : isKnown "" (text final) = true)
    (h : isKnown unknown (text current) = false ∨ text current = text final) :
    text (fillUnknown first unknown text current final) = text final := by
  rcases h with h | h
  · simp [fillUnknown, h, hfinal]
  · rcases fillUnknown_either first unknown text current final with heq | heq
    · rw [heq, h]
    · rw [heq]

theorem mergeExit_result (h : s.toExitFacts.SaysNoMore o.result)
    (hfee : o.feesKnown = false → o.fee = none) (hpath : isKnown "" o.path = true)
    (hverdict : isKnown "" o.judgment.executionVerdict = true) :
    (mergeExit s o).toExitFacts.result = o.result := by
  have hgross : (mergeExit s o).grossPnl = o.grossPnl := fillMissing_final h.grossPnl
  have hprice : (mergeExit s o).exitPrice = o.exitPrice := fillMissing_final h.exitPrice
  have hclosed : (mergeExit s o).closedAt = o.closedAt := fillMissing_final h.closedAt
  have hpathEq : (mergeExit s o).path = o.path := by
    have hknown : isKnown "" (id o.path) = true := hpath
    have hbefore : isKnown PATH_UNOBSERVED (id s.path) = false ∨ id s.path = id o.path := h.path
    exact fillUnknown_final hknown hbefore
  have hverdictEq : (mergeExit s o).judgment.executionVerdict = o.judgment.executionVerdict :=
    fillUnknown_final hverdict h.verdict
  have hfees : (mergeExit s o).feesKnown = o.feesKnown ∧ (mergeExit s o).fee = o.fee := by
    show (if o.feesKnown && !s.feesKnown then true else s.feesKnown) = o.feesKnown ∧
      (if o.feesKnown && !s.feesKnown then o.fee else s.fee) = o.fee
    rcases h.fee with ⟨hunknown, hnone⟩ | ⟨hsame, hfeeSame⟩
    · cases hknown : o.feesKnown with
      | false =>
        rw [hunknown, hnone, hfee hknown]
        exact ⟨rfl, rfl⟩
      | true =>
        rw [hunknown]
        exact ⟨rfl, rfl⟩
    · have hsame' : s.feesKnown = o.feesKnown := hsame
      rw [hsame']
      cases o.feesKnown with
      | false => exact ⟨rfl, hfeeSame⟩
      | true => exact ⟨rfl, hfeeSame⟩
  unfold ExitFacts.result
  rw [hgross, hprice, hclosed, hpathEq, hverdictEq, hfees.1, hfees.2]

end Merges

/-! ## What is seen, and when -/

section Sees

structure ExitEvidence.SeesNoMore (e final : ExitEvidence) (row : MethodTrial) : Prop where
  types : e.types = none ∨ e.types = final.types
  closes : e.graded = true → e.closes = final.closes
  closedAt : e.graded = false →
    e.closedAt = none ∨ final.graded = false ∧ e.closedAt = final.closedAt
  path : e.pathMarks.filter (fun m => 0 < m.2) = [] ∨ e.pathMarks = final.pathMarks ∨
    row.stopPrice = none ∧ row.targetPrice = none

structure ExitEvidence.SeesAll (e final : ExitEvidence) (row : MethodTrial) : Prop where
  types : e.types = final.types
  closes : e.closes = final.closes ∨ e.graded = false ∧ final.graded = false
  closedAt : e.closedAt = final.closedAt
  path : e.pathMarks = final.pathMarks ∨ row.stopPrice = none ∧ row.targetPrice = none

theorem pricePath_unobserved {marks : List (Int × ℚ)} {stop target : Option ℚ}
    (h : marks.filter (fun m => 0 < m.2) = [] ∨ stop = none ∧ target = none) :
    pricePath marks stop target = PATH_UNOBSERVED := by
  unfold pricePath
  rcases h with h | h
  · rw [h]
    simp [sortedBy]
  · rw [if_pos h]

theorem pathOf_known (stopAt targetAt : Option Int) :
    isKnown "" (some (pathOf stopAt targetAt)) = true := by
  cases stopAt with
  | none => cases targetAt <;> rfl
  | some s =>
    cases targetAt with
    | none => rfl
    | some t =>
      simp only [pathOf]
      split_ifs
      · rfl
      · rfl
      · rfl

theorem pricePath_known (marks : List (Int × ℚ)) (stop target : Option ℚ) :
    isKnown "" (some (pricePath marks stop target)) = true := by
  unfold pricePath
  split
  · rfl
  · split
    · rfl
    · exact pathOf_known _ _

end Sees

theorem executionVerdict_known [Casing] (types : Option (String × String)) :
    isKnown "" (some (executionVerdict types).1) = true := by
  cases types with
  | none => rfl
  | some both =>
    obtain ⟨intended, broker⟩ := both
    simp only [executionVerdict]
    split_ifs
    · rfl
    · rfl
    · rfl
    · rfl
    · rfl

variable {lc : TrialLifecycle} {row : MethodTrial} {e final : ExitEvidence}

theorem exitFacts_verdict [Casing] (lc : TrialLifecycle) (row : MethodTrial) (e : ExitEvidence) :
    (exitFacts lc row e).judgment.executionVerdict = some (executionVerdict e.types).1 := rfl

theorem graded_of_closes (h : e.closes = final.closes) : e.graded = final.graded := by
  unfold ExitEvidence.graded
  rw [h]

theorem exitFacts_of_closes [Casing] (lc : TrialLifecycle) (row : MethodTrial)
    (h : e.closes = final.closes) :
    (exitFacts lc row e).grossPnl = (exitFacts lc row final).grossPnl ∧
      (exitFacts lc row e).feesKnown = (exitFacts lc row final).feesKnown ∧
      (exitFacts lc row e).fee = (exitFacts lc row final).fee ∧
      (exitFacts lc row e).exitPrice = (exitFacts lc row final).exitPrice ∧
      (e.graded = true → (exitFacts lc row e).closedAt = (exitFacts lc row final).closedAt) := by
  have hgraded := graded_of_closes h
  simp only [exitFacts, hgraded, h, true_and]
  intro hyes
  rw [if_pos hyes, if_pos hyes]

theorem exitFacts_of_not_graded [Casing] (lc : TrialLifecycle) (row : MethodTrial) (h : e.graded = false) :
    (exitFacts lc row e).grossPnl = none ∧ (exitFacts lc row e).feesKnown = false ∧
      (exitFacts lc row e).fee = none ∧ (exitFacts lc row e).exitPrice = none ∧
      (exitFacts lc row e).closedAt = e.closedAt := by
  simp [exitFacts, h]

/-- Who sees no more than the end says nothing else. -/
theorem exitFacts_saysNoMore [Casing] (h : e.SeesNoMore final row) :
    (exitFacts lc row e).SaysNoMore (exitFacts lc row final).result := by
  have hpath : isKnown PATH_UNOBSERVED (exitFacts lc row e).path = false ∨
      (exitFacts lc row e).path = (exitFacts lc row final).path := by
    have hunobserved : ∀ hnone : e.pathMarks.filter (fun m => 0 < m.2) = [] ∨
        row.stopPrice = none ∧ row.targetPrice = none,
        isKnown PATH_UNOBSERVED (exitFacts lc row e).path = false := by
      intro hnone
      show isKnown PATH_UNOBSERVED (some (pricePath _ row.stopPrice row.targetPrice)) = false
      rw [pricePath_unobserved hnone]
      rfl
    rcases h.path with hnone | hsame | hlevels
    · exact Or.inl (hunobserved (Or.inl hnone))
    · refine Or.inr ?_
      show some (pricePath e.pathMarks _ _) = some (pricePath final.pathMarks _ _)
      rw [hsame]
    · exact Or.inl (hunobserved (Or.inr hlevels))
  have hverdict : isKnown "unknown" (exitFacts lc row e).judgment.executionVerdict = false ∨
      (exitFacts lc row e).judgment.executionVerdict =
        (exitFacts lc row final).judgment.executionVerdict := by
    rcases h.types with hnone | hsame
    · refine Or.inl ?_
      rw [exitFacts_verdict, hnone]
      rfl
    · refine Or.inr ?_
      rw [exitFacts_verdict, exitFacts_verdict, hsame]
  cases hgraded : e.graded with
  | true =>
    obtain ⟨hgross, hknown, hfee, hprice, hclosed⟩ := exitFacts_of_closes lc row (h.closes hgraded)
    exact ⟨Or.inr hgross, Or.inr ⟨hknown, hfee⟩, Or.inr hprice, Or.inr (hclosed hgraded), hpath,
      hverdict⟩
  | false =>
    obtain ⟨hgross, hknown, hfee, hprice, hclosed⟩ := exitFacts_of_not_graded lc row hgraded
    refine ⟨Or.inl hgross, Or.inl ⟨hknown, hfee⟩, Or.inl hprice, ?_, hpath, hverdict⟩
    rw [hclosed]
    rcases h.closedAt hgraded with hnone | ⟨hfinal, hsame⟩
    · exact Or.inl hnone
    · refine Or.inr (hsame.trans ?_)
      exact (exitFacts_of_not_graded lc row hfinal).2.2.2.2.symm

/-- Who sees all of the path says the final result. -/
theorem exitFacts_result [Casing] (lc : TrialLifecycle) (h : e.SeesAll final row) :
    (exitFacts lc row e).result = (exitFacts lc row final).result := by
  have hpath : (exitFacts lc row e).path = (exitFacts lc row final).path := by
    show some (pricePath e.pathMarks _ _) = some (pricePath final.pathMarks _ _)
    rcases h.path with hsame | hlevels
    · rw [hsame]
    · rw [pricePath_unobserved (Or.inr hlevels), pricePath_unobserved (Or.inr hlevels)]
  have hverdict : (exitFacts lc row e).judgment.executionVerdict =
      (exitFacts lc row final).judgment.executionVerdict := by
    rw [exitFacts_verdict, exitFacts_verdict, h.types]
  have hfigures : (exitFacts lc row e).grossPnl = (exitFacts lc row final).grossPnl ∧
      (exitFacts lc row e).feesKnown = (exitFacts lc row final).feesKnown ∧
      (exitFacts lc row e).fee = (exitFacts lc row final).fee ∧
      (exitFacts lc row e).exitPrice = (exitFacts lc row final).exitPrice ∧
      (exitFacts lc row e).closedAt = (exitFacts lc row final).closedAt := by
    by_cases hboth : e.graded = false ∧ final.graded = false
    · obtain ⟨hgross, hknown, hfee, hprice, hclosed⟩ := exitFacts_of_not_graded lc row hboth.1
      obtain ⟨hgross', hknown', hfee', hprice', hclosed'⟩ := exitFacts_of_not_graded lc row hboth.2
      rw [hgross, hknown, hfee, hprice, hclosed, hgross', hknown', hfee', hprice', hclosed', h.closedAt]
      exact ⟨rfl, rfl, rfl, rfl, rfl⟩
    · have hcloses := h.closes.resolve_right hboth
      obtain ⟨hgross, hknown, hfee, hprice, hclosed⟩ := exitFacts_of_closes lc row hcloses
      refine ⟨hgross, hknown, hfee, hprice, hclosed ?_⟩
      rw [graded_of_closes hcloses] at hboth ⊢
      simpa using hboth
  obtain ⟨hgross, hknown, hfee, hprice, hclosed⟩ := hfigures
  unfold ExitFacts.result
  rw [hgross, hknown, hfee, hprice, hclosed, hpath, hverdict]

/-! ## Runs -/

theorem completeMethodTrial_run [Casing] (t : PyText) (lc : TrialLifecycle) (row : MethodTrial)
    (calls : List ExitTables) :
    (runFrom (completeMethodTrial t lc) row calls).exit = runFrom mergeExit row.exit
      (calls.map fun tables => exitFacts lc row (exitEvidence t lc row tables)) := by
  induction calls generalizing row with
  | nil => rfl
  | cons tables calls ih =>
    rw [runFrom_cons, ih]
    rfl

theorem saysNoMore_run {s : ExitState} {r : ExitResult} {observed : List ExitFacts}
    (h : s.toExitFacts.SaysNoMore r) (hobserved : ∀ o ∈ observed, o.SaysNoMore r) :
    (runFrom mergeExit s observed).toExitFacts.SaysNoMore r := by
  induction observed generalizing s with
  | nil => exact h
  | cons o observed ih =>
    exact ih (h.merge (hobserved o List.mem_cons_self)) fun o' ho' =>
      hobserved o' (List.mem_cons_of_mem _ ho')

theorem openedTrial_saysNoMore (captured : Bool) (r : ExitResult) :
    (openedTrial captured).toExitFacts.SaysNoMore r :=
  ⟨Or.inl rfl, Or.inl ⟨rfl, rfl⟩, Or.inl rfl, Or.inl rfl, Or.inl rfl, Or.inl rfl⟩

theorem mergeExit_run_result (captured : Bool) {earlier : List ExitFacts} {o : ExitFacts}
    (hearlier : ∀ o' ∈ earlier, o'.SaysNoMore o.result) (hfee : o.feesKnown = false → o.fee = none)
    (hpath : isKnown "" o.path = true)
    (hverdict : isKnown "" o.judgment.executionVerdict = true) :
    (runFrom mergeExit (openedTrial captured) (earlier ++ [o])).toExitFacts.result = o.result := by
  rw [runFrom_concat]
  exact mergeExit_result (saysNoMore_run (openedTrial_saysNoMore captured _) hearlier) hfee hpath
    hverdict

/-- **The exit of a trial is its lifecycle's own, and as if it had been looked at once**, where the last
    call sees what the lifecycle's own rows show, and the calls before it see no more. -/
theorem completed_own [Casing] {t : PyText} {lc : TrialLifecycle} {row : MethodTrial} {captured : Bool}
    {owner : String → ℕ} {earlier : List ExitTables} {last : ExitTables}
    (hopened : row.exit = openedTrial captured)
    (hlast : (exitEvidence t lc row last).SeesAll
      (exitEvidence t lc row (last.own owner lc.id)) row)
    (hearlier : ∀ tables ∈ earlier, (exitEvidence t lc row tables).SeesNoMore
      (exitEvidence t lc row (last.own owner lc.id)) row) :
    (runFrom (completeMethodTrial t lc) row (earlier ++ [last])).exit.toExitFacts.result =
      (completeMethodTrial t lc row (last.own owner lc.id)).exit.toExitFacts.result := by
  have hclosing : ∀ e : ExitEvidence, (exitFacts lc row e).feesKnown = false →
      (exitFacts lc row e).fee = none := by
    intro e hunknown
    show (if (exitFacts lc row e).feesKnown then _ else none) = none
    rw [hunknown]
    rfl
  have hsame := exitFacts_result lc hlast
  rw [completeMethodTrial_run, List.map_append, hopened, List.map_singleton,
    mergeExit_run_result captured _ (hclosing _) (pricePath_known _ _ _) (executionVerdict_known _),
    hsame]
  · unfold completeMethodTrial
    rw [hopened]
    exact (mergeExit_run_result captured (fun o' (ho' : o' ∈ []) => by cases ho') (hclosing _)
      (pricePath_known _ _ _) (executionVerdict_known _)).symm
  · intro o ho
    obtain ⟨tables, htables, rfl⟩ := List.mem_map.mp ho
    rw [hsame]
    exact exitFacts_saysNoMore (hearlier tables htables)

end Exits

section Sample

attribute [local instance] asciiCasing

private def emptyText : PyText := { str := fun _ => "", dumps := fun _ => "", now := "" }

private def filledOrder (key side orderType : String) : Order :=
  { brokerOrderId := none, idempotencyKey := key, symbol := "BHP", side, qty := 10, orderType,
    limitPrice := none, stopPrice := none, status := "filled", decisionId := none,
    submittedAt := none, rawPayload := [], createdAt := 0 }

private def fill (id orderKey : String) (qty price : ℚ) (at_ : Int) : ExecutionRow :=
  { id, orderKey, symbol := "BHP", qty, price, executedAt := at_, rawPayload := [] }

private def bhp : TrialLifecycle := { id := 1, symbol := "bhp", openedAt := some 1 }

private def bhpTrial : MethodTrial := { exit := openedTrial true }

private def ownerOf (key : String) : ℕ := if hasPrefix key "second" then 2 else 1

private def bhpTables : ExitTables :=
  { orders := [filledOrder "first:buy" "buy" "limit", filledOrder "first:sell" "sell" "limit"]
    executions := [fill "a" "first:buy" 10 10 1, fill "b" "first:sell" 10 11 2]
    snapshots := []
    closedAt := none }

private def bhpHeld : ExitTables :=
  { bhpTables with
    orders := [filledOrder "first:buy" "buy" "limit"], executions := [fill "a" "first:buy" 10 10 1] }

private def bhpWith (bought sold : Int) : ExitTables :=
  { bhpTables with
    orders := bhpTables.orders ++
      [filledOrder "second:buy" "buy" "limit", filledOrder "second:sell" "sell" "limit"]
    executions := bhpTables.executions ++
      [fill "c" "second:buy" 10 10 bought, fill "d" "second:sell" 10 9 sold] }

/-- A trade that was over before is not seen, nor is a call while nothing was sold. -/
theorem completed_own_bhp :
    (runFrom (completeMethodTrial emptyText bhp) bhpTrial ([bhpHeld] ++ [bhpWith (-4) (-3)])).exit.result =
      (completeMethodTrial emptyText bhp bhpTrial ((bhpWith (-4) (-3)).own ownerOf 1)).exit.result := by
  have hlast : (exitEvidence emptyText bhp bhpTrial (bhpWith (-4) (-3))).SeesAll
      (exitEvidence emptyText bhp bhpTrial ((bhpWith (-4) (-3)).own ownerOf 1)) bhpTrial :=
    ⟨by decide +kernel, Or.inl (by decide +kernel), rfl, Or.inr ⟨rfl, rfl⟩⟩
  have hheld : (exitEvidence emptyText bhp bhpTrial bhpHeld).SeesNoMore
      (exitEvidence emptyText bhp bhpTrial ((bhpWith (-4) (-3)).own ownerOf 1)) bhpTrial :=
    ⟨Or.inl (by decide +kernel), by decide +kernel, fun _ => Or.inl rfl, Or.inr (Or.inr ⟨rfl, rfl⟩)⟩
  refine @completed_own _ emptyText bhp bhpTrial true ownerOf [bhpHeld] (bhpWith (-4) (-3)) rfl hlast ?_
  intro tables htables
  rw [List.mem_singleton.mp htables]
  exact hheld

private def bhpPartly : ExitTables :=
  { bhpTables with
    executions := [fill "a" "first:buy" 10 10 1, fill "b" "first:sell" 5 11 2] }

private def bhpWhole : ExitTables :=
  { bhpPartly with executions := bhpPartly.executions ++ [fill "c" "first:sell" 5 12 3] }

/-- **The trade of another lifecycle is counted too, and the first half is kept as the whole.** -/
theorem later_trade_counted :
    (completeMethodTrial emptyText bhp bhpTrial (bhpWith 3 4)).exit.result ≠
        (completeMethodTrial emptyText bhp bhpTrial ((bhpWith 3 4).own ownerOf 1)).exit.result ∧
      (runFrom (completeMethodTrial emptyText bhp) bhpTrial [bhpPartly, bhpWhole]).exit.result ≠
        (completeMethodTrial emptyText bhp bhpTrial (bhpWhole.own ownerOf 1)).exit.result := by
  decide +kernel

end Sample

end Investor.Performance
