import Investor.Agents.Cio
import Investor.Agents.PlansLeft

/-!
# The risk veto and the CIO's reply

When the risk manager rejects the day or halts new trades, the fallback rules take no
entry and refuse the approval. A reply of the language model is not held to it: its
`risk_approval` is its own, an absent one counts as given, and of the passes only the
setups ask the risk manager. So the veto is honoured exactly when the reply refuses the
approval by itself, or when every entry it lists is overwritten or dropped for other
reasons (`veto_honoured_iff`).
-/

namespace Investor.Agents

open Lib Schema Market Universe

def vetoes (r : RiskManagerOutput) : Prop :=
  r.overallVerdict = .rejected ∨ r.overallVerdict = .haltDay ∨ r.haltNewTrades = true

theorem vetoes_iff {r : RiskManagerOutput} : vetoes r ↔ r.riskOk = false := by
  unfold vetoes RiskManagerOutput.riskOk
  cases r.overallVerdict <;> simp

/-- The decision has no entry the validator would hold for approved. -/
def VetoHonoured (d : CIODecision) : Prop :=
  d.riskApproval = false ∨ ∀ p ∈ d.symbolActions, p.action.isBuyEntry = false

section Veto

variable [Casing] {agent : CioAgent} {x : PassInputs} {d d' : CIODecision}

/-! ## The passes do not touch the approval -/

theorem alignExits_riskApproval : (x.alignExits d).riskApproval = d.riskApproval := by
  unfold PassInputs.alignExits alignCioPlaybookExits
  dsimp only
  split <;> rfl

theorem settleEntries_riskApproval : (x.settleEntries d).riskApproval = d.riskApproval := by
  have hsetups : ∀ d₁ : CIODecision, (ensureCioTakesSetups x.scope d₁ x.views x.positions
      x.risk.riskOk x.paperAggressiveEntries x.cashPct x.minCashPct).riskApproval =
        d₁.riskApproval := by
    intro d₁
    unfold ensureCioTakesSetups
    dsimp only
    repeat' split
    all_goals rfl
  have hdrop : ∀ d₁ : CIODecision, (dropBlockedEntries d₁ x.views x.watchlist x.regime
      x.minutesToClose x.outcomePnls).riskApproval = d₁.riskApproval := by
    intro d₁
    unfold dropBlockedEntries
    dsimp only
    split <;> rfl
  have hname : ∀ (d₁ : CIODecision) (b : Bool),
      (reconcileNamelessEntry d₁ b).riskApproval = d₁.riskApproval := by
    intro d₁ b
    unfold reconcileNamelessEntry
    split
    · rfl
    · split <;> rfl
  unfold PassInputs.settleEntries
  dsimp only
  rw [hname]
  show (dropBlockedEntries _ _ _ _ _ _).riskApproval = _
  rw [hdrop, hsetups]
  rfl

theorem passes_riskApproval (h : x.passes d = some d') : d'.riskApproval = d.riskApproval := by
  obtain ⟨d₁, hensure, rfl⟩ := Option.map_eq_some_iff.mp h
  obtain ⟨_, _, _, hsame, _⟩ := ensurePlaybookExits_eq_some hensure
  rw [settleEntries_riskApproval, hsame, alignExits_riskApproval]

/-! ## The entries under a veto -/

theorem setups_of_veto (hveto : x.risk.riskOk = false) : x.setups d = [] := by
  unfold PassInputs.setups
  rw [if_pos (by simp [hveto])]

/-- Under a veto an entry is left exactly if one of the decision stands. -/
theorem entry_left_iff (hveto : x.risk.riskOk = false) (h : x.passes d = some d') :
    (∃ q ∈ d'.symbolActions, q.action.isBuyEntry) ↔
      ∃ p ∈ d.symbolActions, p.action.isBuyEntry ∧ x.entryStands d p := by
  obtain ⟨d₁, hensure, rfl⟩ := Option.map_eq_some_iff.mp h
  simp only [mem_settleEntries, setups_of_veto hveto, List.map_nil, List.not_mem_nil,
    not_false_eq_true, and_true, or_false]
  constructor
  · rintro ⟨q, ⟨_, ⟨p₁, hp₁, rfl⟩, hkept, rfl⟩, hq⟩
    rw [stamped_action, enriched_action] at hq
    obtain ⟨p, hp, _, rfl, hstays⟩ :=
      (ensured_entry_iff (SymbolAction.isEntry_of_isBuyEntry hq) hensure).mp hp₁
    rw [alignHorizon_action] at hq
    exact ⟨p, hp, hq, hstays, hkept⟩
  · rintro ⟨p, hp, hentry, hstays, hkept⟩
    have hisEntry : (alignHorizon (policyBySymbol x.watchlist) p).action.isEntry := by
      rw [alignHorizon_action]
      exact SymbolAction.isEntry_of_isBuyEntry hentry
    have hp₁ := (ensured_entry_iff hisEntry hensure).mpr
      ⟨p, hp, SymbolAction.isEntry_of_isBuyEntry hentry, rfl, hstays⟩
    refine ⟨_, ⟨_, ⟨_, hp₁, rfl⟩, hkept, rfl⟩, ?_⟩
    rw [stamped_action, enriched_action, alignHorizon_action]
    exact hentry

theorem fallback_refuses {freshId : String} (hveto : x.risk.riskOk = false)
    (h : fallbackOutput x freshId = some d) : d.riskApproval = false := by
  unfold fallbackOutput checkedDecision at h
  rw [hveto] at h
  simp only [Bool.false_eq_true, if_false] at h
  split at h
  · cases h
    rfl
  · cases h

/-- **When the risk veto binds.** Under a veto, and for any replies of the language model,
    the decision a run returns honours the veto exactly when the reply it comes from, if
    it comes from one, refuses the risk approval or lists no entry that stands. -/
theorem veto_honoured_iff (agent : CioAgent) (x : PassInputs) (d' : CIODecision)
    (hveto : vetoes x.risk) (h : runFromCollection agent x = some d') :
    VetoHonoured d' ↔
      ∀ d, runValidated agent = some d →
        d.riskApproval = false ∨ ∀ p ∈ d.symbolActions, p.action.isBuyEntry → ¬ x.entryStands d p := by
  rw [vetoes_iff] at hveto
  obtain ⟨d, hrun, hpasses⟩ := Option.bind_eq_some_iff.mp h
  unfold VetoHonoured
  rw [passes_riskApproval hpasses]
  unfold CioAgent.run at hrun
  cases hreply : runValidated agent with
  | some dr =>
    rw [hreply] at hrun
    cases hrun
    have hentries := not_congr (entry_left_iff hveto hpasses)
    push Not at hentries
    simp only [Bool.not_eq_true] at hentries
    rw [hentries]
    constructor
    · intro hleft d₀ hd₀
      cases hd₀
      exact hleft
    · intro hleft
      exact hleft d rfl
  | none =>
    rw [hreply] at hrun
    dsimp only at hrun
    split at hrun
    · exact iff_of_true (Or.inl (fallback_refuses hveto hrun)) fun _ hd => by cases hd
    · cases hrun

end Veto

section VetoExamples

attribute [local instance] asciiCasing

def rejectedDay : PassInputs :=
  { sampleInputs [risingView "AAPL"] [{ symbol := "AAPL", horizon := "day" }] [] with
    risk := { overallVerdict := .rejected, hardVetoes := ["drawdown"], haltNewTrades := true } }

def buyingAgent : CioAgent := cloudAgent (onePlanReply "BUY" "BUY" "AAPL")

/-- **A buy of a rejected day.** It leaves the pipeline as an approved entry. -/
theorem rejected_day_buys :
    vetoes rejectedDay.risk ∧
      ∃ d', runFromCollection buyingAgent rejectedDay = some d' ∧ d'.riskApproval = true ∧
        d'.symbolActions.map (fun p => (p.symbol, p.action)) = [("AAPL", .buy)] ∧
        ¬ VetoHonoured d' := by
  refine ⟨Or.inl rfl, ?_⟩
  have hruns : (runFromCollection buyingAgent rejectedDay).isSome := by decide +kernel
  obtain ⟨d', hd'⟩ := Option.isSome_iff_exists.mp hruns
  have hleft : ((runFromCollection buyingAgent rejectedDay).map fun d =>
      (d.riskApproval, d.symbolActions.map fun p => (p.symbol, p.action))) =
        some (true, [("AAPL", .buy)]) := by decide +kernel
  rw [hd', Option.map_some, Option.some.injEq, Prod.mk.injEq] at hleft
  obtain ⟨happroved, hplans⟩ := hleft
  refine ⟨d', hd', happroved, hplans, ?_⟩
  obtain ⟨p, hp, heq⟩ : ∃ p ∈ d'.symbolActions, (p.symbol, p.action) = ("AAPL", .buy) :=
    List.mem_map.mp (hplans ▸ List.mem_singleton_self _)
  obtain ⟨_, haction⟩ := Prod.mk.inj heq
  rintro (hno | hnone)
  · rw [happroved] at hno
    cases hno
  · have hentry := hnone p hp
    rw [haction] at hentry
    cases hentry

def refusingAgent : CioAgent :=
  cloudAgent (("risk_approval", .bool false) :: onePlanReply "HOLD" "HOLD" "AAPL")

theorem veto_honoured_iff_refusing :
    ∃ d', runFromCollection refusingAgent rejectedDay = some d' ∧ VetoHonoured d' := by
  have hruns : (runFromCollection refusingAgent rejectedDay).isSome := by decide +kernel
  obtain ⟨d', hd'⟩ := Option.isSome_iff_exists.mp hruns
  refine ⟨d', hd', ?_⟩
  refine (veto_honoured_iff refusingAgent rejectedDay d' (Or.inl rfl) hd').mpr fun d hd => ?_
  have hread : (runValidated refusingAgent).all fun d => !d.riskApproval := by decide +kernel
  rw [hd] at hread
  exact Or.inl (by simpa using hread)

end VetoExamples

end Investor.Agents
