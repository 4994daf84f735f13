import Investor.Execution.RefusedBatch
import Investor.Workflow.AnalysisOrders

/-!
# The exits of a decision without risk approval

Before the open `run_analysis` hands every decision to the bridge, and the exits of one whose
risk approval was refused go out: the fallback of the committee flattens the book that way.
During the session `evaluate` hands a decision over only with the approval, so the same exits
stay behind. The two agree exactly where the decision has no exit to send (`ExitToSend`).

The bridge is followed twice. Whatever happens, a decision without an exit to send leaves the
broker alone; and where nothing hinders it, one with such an exit sends it.
-/

namespace Investor.Workflow

open Lib Schema Market Risk Universe Core Execution Intraday

def isExitOrder (o : AcceptedOrder) : Bool :=
  EXIT_ACTIONS.any fun act => endsWithPart o.plan act.value

def exitsAccepted (w w' : World) : List (String × String × ℚ) :=
  ((acceptedSince w w').filter isExitOrder).map fun o =>
    (o.request.symbol, o.request.side, o.request.qty)

section Bridge

variable {env : Env} {cfg : Settings} {feed : FirmFeed} {d : CIODecision}
  {a : MaterializeArgs} {w₀ : World}

/-! ## What the bridge validates -/

variable {d' : CIODecision} {prices : Dict ℚ} {validation : ExecutionValidationResult}

section

variable [Casing]

def PricedAt (cfg : Settings) (feed : FirmFeed) (n : ℕ) (needed : List String)
    (candidates prices : Dict ℚ) : Prop :=
  if missingPrices cfg needed candidates = [] then
    prices = resolveExecutionPrices cfg needed candidates []
  else ∃ quotes, feed.quotes (missingPrices cfg needed candidates) n = answers quotes ∧
    prices = resolveExecutionPrices cfg needed candidates quotes

/-- What the bridge hands to the validator from a world on: the decision without the entries
    its closed trades forbid, and prices. -/
structure Handed (cfg : Settings) (feed : FirmFeed) (d : CIODecision) (a : MaterializeArgs)
    (w : World) (d' : CIODecision) (prices : Dict ℚ) : Prop where
  usable : w.db.broken = false
  trades : ∃ pnls, feed.closePnls (w.ticks + 1) = answers pnls ∧ d' = closedTradeFilter pnls d
  named : neededSymbols d' ≠ []
  priced : PricedAt cfg feed (w.ticks + 2) (neededSymbols d') a.latestPrices prices
  live : ¬ (requiresLiveMarketPrices cfg && prices.isEmpty)

/-- The arguments of `validate`, by the keys on file in a world. -/
def argsAt (a : MaterializeArgs) (prices : Dict ℚ) (w : World) (now : Int) : ValidateArgs :=
  a.validateArgs prices (w.db.working.orders.rows.map (·.idempotencyKey)) now

/-- **The decision has an exit to send**: it may be submitted, it comes to the validator, and
    the batch has an exit that is not held back. -/
def ExitToSend (cfg : Settings) (feed : FirmFeed) (d : CIODecision) (a : MaterializeArgs)
    (w : World) : Prop :=
  a.allowSubmit ∧ ∃ d' prices now, Handed cfg feed d a w d' prices ∧
    ExitGoes (feed.validator cfg w.ticks) d' (argsAt a prices w now) w.db.working

variable {t : Tables}

theorem exitGoes_congr {n n' : ℕ} {now now' : Int} {w : World}
    (h : ExitGoes (feed.validator cfg n) d' (argsAt a prices w now) t) :
    ExitGoes (feed.validator cfg n') d' (argsAt a prices w now') t :=
  ⟨⟨h.released.posture, h.released.entries⟩, h.exit⟩

/-! ## Whatever happens -/

theorem executionPrices_answered {needed : List String} {candidates : Dict ℚ} {w₁ : World} :
    Eff.Spec (· = w₁) (executionPrices env cfg feed needed candidates)
      (fun prices w => w.accepted = w₁.accepted ∧ (w.db.broken = false → w.db = w₁.db ∧
        PricedAt cfg feed (w₁.ticks + 1) needed candidates prices))
      (fun _ w => w.accepted = w₁.accepted) := by
  unfold executionPrices PricedAt
  by_cases hmissing : missingPrices cfg needed candidates = []
  · rw [if_pos hmissing]
    refine Eff.Spec.pure fun w hw => ?_
    rw [hw, if_pos hmissing]
    exact ⟨rfl, fun _ => ⟨rfl, rfl⟩⟩
  · rw [if_neg hmissing]
    refine Eff.Spec.bind callService_answered fun quotes => Eff.Spec.pure fun w hw => ?_
    rw [if_neg hmissing]
    exact ⟨hw.accepted, fun hb => ⟨(hw.usable hb).1, quotes, (hw.usable hb).2, rfl⟩⟩

theorem keeps_autoSubmit_held {orders : List AcceptedOrder}
    (hheld : a.allowSubmit → ∀ x ∈ validation.intents, HeldBack t x) :
    Eff.Keeps (Resting t orders) (autoSubmit env cfg feed d' a validation) := by
  have hcalm := calm_resting t orders
  refine Eff.Spec.ite (fun hgo => ?_) fun _ => Eff.keeps_pure
  simp only [Bool.and_eq_true] at hgo
  refine Keeps.exceptException (keeps_submitAndSync hcalm fun controls decisionId => ?_)
    fun _ => Eff.keeps_pure
  exact Eff.Keeps.ite (Eff.Keeps.bind (keeps_flush hcalm) fun _ => Eff.keeps_pure)
    (keeps_submitEach_held (hheld hgo.1.1.1))

theorem materializeAt_rests (hrisk : d'.riskApproval = false)
    (hactive : ∀ n, (feed.controls n).isNewOrderAllowed)
    (hnone : a.allowSubmit → w₀.db.broken = false → ∀ now, ¬ ExitGoes (feed.validator cfg w₀.ticks)
      d' (argsAt a prices w₀ now) w₀.db.working) :
    Eff.Spec (fun w => w.accepted = w₀.accepted ∧ (w.db.broken = false → w.db = w₀.db))
      (materializeAt env cfg feed d' a prices) (fun _ w => w.accepted = w₀.accepted)
      (fun _ w => w.accepted = w₀.accepted) := by
  have hcalm : Calm fun w => w.accepted = w₀.accepted ∧ (w.db.broken = false → w.db = w₀.db) :=
    ⟨fun w h => h, fun w h => ⟨h.1, fun hb => absurd hb (by simp)⟩⟩
  have hintents : IntentsFree (Resting w₀.db.working w₀.accepted) := fun w f h => h
  refine Eff.Spec.bind ((query_spec hcalm).weaken (fun _ h => h) (fun _ _ h => h)
    fun _ _ h => h.1) fun seen => ?_
  refine Eff.Spec.bind (M := fun _ w => (w.accepted = w₀.accepted ∧
    (w.db.broken = false → w.db = w₀.db)) ∧ w.db.broken = false ∧
      seen = w.db.working.orders.rows.map (·.idempotencyKey)) (Eff.Spec.read fun w hw => hw)
    fun w₁ => ?_
  -- the keys that were seen are those on file, and nothing has happened to the orders
  intro w hw
  obtain ⟨⟨haccepted, hsame⟩, husable, rfl⟩ := hw
  have hdb := hsame husable
  rw [hdb] at husable ⊢
  refine (Eff.Spec.bind (M := fun validation w => Resting w₀.db.working w₀.accepted w ∧
      validate (feed.validator cfg w₁.ticks) d' (argsAt a prices w₀ (env.now w₁.ticks)) =
        .ok validation) (raiseRisk_spec.weaken (fun _ h => h) (fun _ _ h => h) fun _ _ h => h.1.1)
    fun validation => Eff.Spec.assume fun hval => ?_ : Eff.Spec
      (Resting w₀.db.working w₀.accepted) _ _ _) w ⟨haccepted, fun _ => by rw [hdb]⟩
  have hheld : a.allowSubmit → ∀ x ∈ validation.intents, HeldBack w₀.db.working x := by
    intro hallow x hx
    by_contra hfree
    exact hnone hallow husable 0 (exitGoes_congr ((exitGoes_iff hrisk (hactive _) hval).mpr
      ⟨x, hx, hfree⟩))
  have hrest : ∀ {α : Type} {p : Prog α}, Eff.Keeps (Resting w₀.db.working w₀.accepted) p →
      Eff.Spec (Resting w₀.db.working w₀.accepted) p
        (fun _ w => Resting w₀.db.working w₀.accepted w) fun _ w => w.accepted = w₀.accepted :=
    fun hp => hp.weaken (fun _ h => h) (fun _ _ h => h) fun _ _ h => h.1
  refine Eff.Spec.bind (hrest (keeps_createIntents (calm_resting _ _) hintents)) fun ids => ?_
  exact Eff.Spec.bind (hrest (keeps_autoSubmit_held hheld)) fun sent =>
    Eff.Spec.pure fun w hw => hw.1

/-- A refused decision with no exit to send leaves the broker alone. -/
theorem materialize_rests (hrisk : d.riskApproval = false)
    (hactive : ∀ n, (feed.controls n).isNewOrderAllowed) (hnone : ¬ ExitToSend cfg feed d a w₀) :
    Eff.Spec (· = w₀) (materializeCioDecision env cfg feed d a)
      (fun _ w => w.accepted = w₀.accepted) (fun _ w => w.accepted = w₀.accepted) := by
  refine Eff.Spec.bind callService_answered fun pnls => ?_
  refine Eff.Spec.ite (fun _ => Eff.Spec.pure fun w hw => hw.accepted) fun hnamed => ?_
  intro w hw
  refine (Eff.Spec.bind (executionPrices_answered.weaken (fun _ h => h) (fun _ _ h => h)
    fun e w' h => h.trans hw.accepted) fun prices => ?_ : Eff.Spec (· = w) _ _ _) w rfl
  refine Eff.Spec.ite (fun _ => Eff.Spec.pure fun w' hw' => hw'.1.trans hw.accepted)
    fun hlive => ?_
  by_cases hpriced : w.db.broken = false ∧ PricedAt cfg feed (w.ticks + 1)
      (neededSymbols (closedTradeFilter pnls d)) a.latestPrices prices
  · have hgoes : a.allowSubmit → w₀.db.broken = false → ∀ now,
        ¬ ExitGoes (feed.validator cfg w₀.ticks) (closedTradeFilter pnls d)
          (argsAt a prices w₀ now) w₀.db.working := by
      intro hallow husable now hgoes
      refine hnone ⟨hallow, _, prices, now, ⟨husable, ⟨pnls, (hw.usable hpriced.1).2, rfl⟩, hnamed,
        ?_, hlive⟩, hgoes⟩
      rw [hw.ticks] at hpriced
      exact hpriced.2
    refine (materializeAt_rests (riskApproval_closedTradeFilter.trans hrisk) hactive hgoes).pre
      fun w' hw' => ⟨hw'.1.trans hw.accepted, fun hb => ?_⟩
    exact (hw'.2 hb).1.trans (hw.usable hpriced.1).1
  · -- the session is broken by now, and the query of the keys raises
    have hcalm : Calm fun w' : World => w'.accepted = w₀.accepted ∧ w'.db.broken = true :=
      ⟨fun w h => h, fun w h => ⟨h.1, rfl⟩⟩
    refine Eff.Spec.bind (M := fun _ _ => False) ((query_spec hcalm).weaken (fun w' hw' => ?_)
      (fun _ _ h => ?_) fun _ _ h => h.1) fun _ w hw => hw.elim
    · refine ⟨hw'.1.trans hw.accepted, Bool.eq_true_of_not_eq_false fun hb => hpriced ⟨?_, ?_⟩⟩
      · rw [← (hw'.2 hb).1]
        exact hb
      · exact (hw'.2 hb).2
    · rw [h.2.1] at h
      exact absurd h.1.2 (by decide)

/-! ## Where nothing hinders it -/

theorem createIntents_free {I : World → Prop} (h : SendsFreely env) (htick : ∀ w, I w → I w.tick)
    (husable : ∀ w, I w → w.db.broken = false) (hintents : IntentsFree I) {args : ValidateArgs} :
    Eff.Goes I (createIntents env cfg feed d' a args validation) fun _ => I := by
  refine Eff.Spec.ite (fun _ => ?_) fun _ => Eff.Spec.pure fun _ hw => hw
  refine Eff.Spec.bind (M := fun _ => I) (Eff.Spec.read fun _ hw => hw) fun w₁ => ?_
  have hbuild : Eff.Spec I (buildIntentsFromDecision env (feed.validator cfg w₁.ticks) d' args)
      (fun _ => I) (fun e w => I w ∧ e.isException) := by
    refine Eff.Spec.bind (raiseRisk_spec.weaken (fun _ hw => hw) (fun _ _ hw => hw.1)
      fun _ _ hw => hw) fun again => ?_
    refine Eff.Spec.bind ((addIntents_goes hintents _).weaken (fun _ hw => hw) (fun _ _ hw => hw)
      fun _ _ hw => hw.elim) fun ids => ?_
    exact Eff.Spec.bind ((flush_free h htick husable).weaken (fun _ hw => hw) (fun _ _ hw => hw)
      fun _ _ hw => hw.elim) fun _ => Eff.Spec.pure fun _ hw => hw
  exact Eff.Spec.tryCatch hbuild fun e => Eff.Spec.ite (fun _ => Eff.Spec.pure fun _ hw => hw.1)
    fun hno => fun w hw => absurd hw.2 hno

theorem autoSubmit_sends (h : SendsFreely env) {n : ℕ} (hallow : a.allowSubmit)
    (hauto : paperAutoSubmitAllowed cfg) (hactive : ∀ n, (feed.controls n).isNewOrderAllowed)
    (happroved : validation.approved = true) (hbatch : Sendable t validation.intents)
    (hfree : ∃ x ∈ validation.intents, ¬ HeldBack t x) :
    Eff.Spec (Ready t n) (autoSubmit env cfg feed d' a validation) (fun _ => SentMore n)
      (fun _ => SentMore n) := by
  have hne : validation.intents ≠ [] := by
    obtain ⟨x, hx, _⟩ := hfree
    exact List.ne_nil_of_mem hx
  have hopen : ∀ controls : TradingControlState, controls.isNewOrderAllowed →
      submitBlocked cfg controls validation.approved = false := by
    intro controls hallowed
    unfold paperAutoSubmitAllowed at hauto
    split at hauto
    · cases hauto
    · rename_i hlive
      split at hauto
      · cases hauto
      · rename_i hbroker
        split at hauto
        · cases hauto
        · simp only [Bool.and_eq_true, Bool.not_eq_true'] at hauto
          simp [submitBlocked, happroved, hallowed, hauto.1.1, hauto.1.2, hauto.2, hlive, hbroker]
  have hsent := submitFree_sentMore n
  have hsync : ∀ made, Eff.Keeps (SentMore n) (exceptException (do
      callService env feed.positionSync
      return (made, false) : Prog (Nat × Bool)) fun _ => pure (made, true)) := fun made =>
    Keeps.exceptException (Eff.Keeps.bind (keeps_callService hsent.toCalm) fun _ =>
      Eff.keeps_pure) fun _ => Eff.keeps_pure
  refine Eff.Spec.ite (fun _ => ?_) fun hno => absurd ?_ hno
  · refine Eff.Spec.tryCatch (X := fun _ => SentMore n) ?_ fun e =>
      Eff.Keeps.ite Eff.keeps_pure Eff.keeps_throw
    refine Eff.Spec.bind (M := fun _ => Ready t n) (Eff.Spec.read fun _ hw => hw) fun w₁ => ?_
    refine Eff.Spec.bind ?_ hsync
    unfold submitValidatedIntents
    rw [hopen _ (hactive _)]
    exact submitEach_sends h hbatch hfree
  · simpa [hallow, hauto, happroved] using hne

end

def SendsExit (w₀ w : World) : Prop := ∃ o ∈ acceptedSince w₀ w, isExitOrder o

def IsExitPlan (plan : String) : Prop := EXIT_ACTIONS.any fun act => endsWithPart plan act.value

theorem sendsExit_of_only {w : World} (hmore : SentMore w₀.accepted.length w)
    (honly : SentOnly World.accepted IsExitPlan w₀ w) : SendsExit w₀ w := by
  have hne : acceptedSince w₀ w ≠ [] := by
    unfold acceptedSince
    rw [Ne, List.drop_eq_nil_iff]
    exact not_le.mpr hmore
  obtain ⟨o, ho⟩ := List.exists_mem_of_ne_nil _ hne
  exact ⟨o, ho, honly.new o ho⟩

theorem keeps_autoSubmit_only [Casing] {plans : String → Prop}
    (hplans : ∀ x ∈ validation.intents, plans x.idempotencyKey) :
    Eff.Keeps (SentOnly World.accepted plans w₀) (autoSubmit env cfg feed d' a validation) := by
  refine Eff.Keeps.ite (Keeps.exceptException ?_ fun _ => Eff.keeps_pure) Eff.keeps_pure
  exact keeps_submitAndSync (calm_sentOnly submitLog_accepted) fun _ _ =>
    keeps_submitValidated_only submitLog_accepted hplans

theorem materializeAt_sends [Casing] (h : SendsFreely env) {now : Int}
    (hrisk : d'.riskApproval = false) (hallow : a.allowSubmit) (hauto : paperAutoSubmitAllowed cfg)
    (hactive : ∀ n, (feed.controls n).isNewOrderAllowed) (husable : w₀.db.broken = false)
    (hgoes : ExitGoes (feed.validator cfg w₀.ticks) d'
      (argsAt a prices w₀ now) w₀.db.working) :
    Eff.Spec (fun w => w.accepted = w₀.accepted ∧ w.db = w₀.db)
      (materializeAt env cfg feed d' a prices) (fun _ => SendsExit w₀) (fun _ => SendsExit w₀) := by
  have hquery : Eff.Goes (fun w => w.accepted = w₀.accepted ∧ w.db = w₀.db)
      (query env fun t => t.orders.rows.map (·.idempotencyKey)) fun seen w =>
        (w.accepted = w₀.accepted ∧ w.db = w₀.db) ∧
          seen = w₀.db.working.orders.rows.map (·.idempotencyKey) := by
    refine (query_free h (fun _ hw => hw) fun w hw => ?_).weaken (fun _ hw => hw)
      (fun _ w hw => ⟨hw.1, ?_⟩) fun _ _ hw => hw
    · rw [hw.2]
      exact husable
    · rw [hw.2, hw.1.2]
  refine Eff.Spec.bind (hquery.weaken (fun _ hw => hw) (fun _ _ hw => hw) fun _ _ hw => hw.elim)
    fun seen => Eff.Spec.assume ?_
  rintro rfl
  refine Eff.Spec.bind (M := fun _ w => w.accepted = w₀.accepted ∧ w.db = w₀.db)
    (Eff.Spec.read fun w hw => hw) fun w₁ => ?_
  have hgoes : ExitGoes (feed.validator cfg w₁.ticks) d'
      (argsAt a prices w₀ (env.now w₁.ticks)) w₀.db.working := exitGoes_congr hgoes
  obtain ⟨validation, outs, hval, _⟩ :=
    validate_released ((batchReleased_refused hrisk (hactive w₁.ticks)).mpr hgoes.released)
  obtain hfree := (exitGoes_iff hrisk (hactive w₁.ticks) hval).mp hgoes
  have hne : validation.intents ≠ [] := by
    obtain ⟨x, hx, _⟩ := hfree
    exact List.ne_nil_of_mem hx
  have hbatch : Sendable w₀.db.working validation.intents := by
    refine ⟨fun x hx => (exit_of_intent hrisk hval hx).1, fun x hx hkey => ?_⟩
    obtain ⟨row, hrow, hkey⟩ := KeyedTable.hasKey_iff.mp hkey
    exact (exit_of_intent hrisk hval hx).2.2.1 (List.mem_map.mpr ⟨row, hrow, hkey⟩)
  let I : World → Prop := fun w =>
    Ready w₀.db.working w₀.accepted.length w ∧ SentOnly World.accepted IsExitPlan w₀ w
  have hI : IntentsFree I := fun w f hw => ⟨hw.1, hw.2⟩
  have hstart : ∀ w : World, (w.accepted = w₀.accepted ∧ w.db = w₀.db) → I w := by
    intro w hw
    refine ⟨⟨?_, ?_, ?_⟩, ?_⟩
    · rw [hw.2]
      exact husable
    · rw [hw.2]
    · rw [hw.1]
    · rw [SentOnly, hw.1]
      exact Grown.refl
  refine Eff.Spec.bind (M := fun v w => v = validation ∧ I w) ?_ fun v => ?_
  · show Eff.Spec _ (raiseRisk (validate (feed.validator cfg w₁.ticks) d'
      (argsAt a prices w₀ (env.now w₁.ticks)))) _ _
    rw [hval]
    exact Eff.Spec.pure fun w hw => ⟨rfl, hstart w hw⟩
  intro w hw
  obtain ⟨rfl, hw⟩ := hw
  refine (Eff.Spec.bind ((createIntents_free h (fun _ hw => ⟨hw.1, hw.2⟩)
    (fun _ hw => hw.1.1) hI).weaken (fun _ hw => hw) (fun _ _ hw => hw) fun _ _ hw => hw.elim)
    fun ids => ?_ : Eff.Spec I _ _ _) w hw
  have hsent : Eff.Spec I (autoSubmit env cfg feed d' a v)
      (fun _ w => SentMore w₀.accepted.length w ∧ SentOnly World.accepted IsExitPlan w₀ w)
      (fun _ w => SentMore w₀.accepted.length w ∧ SentOnly World.accepted IsExitPlan w₀ w) :=
    (autoSubmit_sends h hallow hauto hactive (approved_of_intents hval hne) hbatch hfree).and
      (keeps_autoSubmit_only fun x hx => (exit_of_intent hrisk hval hx).2.1)
  exact Eff.Spec.bind (hsent.weaken (fun _ hw => hw) (fun _ _ hw => sendsExit_of_only hw.1 hw.2)
    fun _ _ hw => sendsExit_of_only hw.1 hw.2) fun sent => Eff.Spec.pure fun _ hw => hw

/-- A refused decision with an exit to send sends it. -/
theorem materialize_sends [Casing] (h : SendsFreely env) (hrisk : d.riskApproval = false)
    (hauto : paperAutoSubmitAllowed cfg) (hactive : ∀ n, (feed.controls n).isNewOrderAllowed)
    (hexit : ExitToSend cfg feed d a w₀) :
    Eff.Spec (· = w₀) (materializeCioDecision env cfg feed d a) (fun _ => SendsExit w₀)
      (fun _ => SendsExit w₀) := by
  obtain ⟨hallow, d', prices, now, hhanded, hgoes⟩ := hexit
  obtain ⟨pnls, htrades, rfl⟩ := hhanded.trades
  have huncut : ∀ w : World, (w.timed && env.cut w.ticks) = false := fun w => by
    rw [h.uncut, Bool.and_false]
  have hpnls := callService_goes (huncut w₀) htrades
  rintro w rfl
  refine (Eff.Spec.bind (P := (· = w)) (M := fun trades w' => trades = pnls ∧ w' = w.tick) ?_
    fun trades => ?_ : Eff.Spec (· = w) _ _ _) w rfl
  · rintro _ rfl
    rw [hpnls]
    exact ⟨rfl, rfl⟩
  intro w₁ hw₁
  obtain ⟨rfl, rfl⟩ := hw₁
  refine (Eff.Spec.ite (fun hno => absurd hno hhanded.named) fun _ => ?_ :
    Eff.Spec (· = w.tick) _ _ _) w.tick rfl
  refine Eff.Spec.bind (M := fun x w' => x = prices ∧ w'.accepted = w.accepted ∧ w'.db = w.db) ?_
    fun x => ?_
  · rintro _ rfl
    have hpriced := hhanded.priced
    unfold PricedAt at hpriced
    unfold executionPrices
    by_cases hmissing : missingPrices cfg (neededSymbols (closedTradeFilter trades d))
        a.latestPrices = []
    · rw [if_pos hmissing] at hpriced ⊢
      exact ⟨hpriced.symm, rfl, rfl⟩
    · rw [if_neg hmissing] at hpriced ⊢
      obtain ⟨quotes, hquotes, rfl⟩ := hpriced
      have hgo := callService_goes (huncut w.tick) hquotes
      rw [Eff.bind_of_ok hgo]
      exact ⟨rfl, rfl, rfl⟩
  · intro w₂ hw₂
    obtain ⟨rfl, hw₂⟩ := hw₂
    refine (Eff.Spec.ite (fun hno => absurd hno hhanded.live) fun _ => ?_ : Eff.Spec
      (fun w' => w'.accepted = w.accepted ∧ w'.db = w.db) _ _ _) w₂ hw₂
    exact materializeAt_sends h (riskApproval_closedTradeFilter.trans hrisk) hallow hauto hactive
      hhanded.usable hgoes

end Bridge

/-! ## The two paths -/

section Paths

/-- The exits `evaluate` has submitted are those the bridge submits for the decision. -/
def ExitsAgree [Casing] (env : Env) (desk : Desk) (k : SessionKey) (bypass : Bool) (d : CIODecision)
    (a : MaterializeArgs) (w : World) : Prop :=
  exitsAccepted w (evaluate env desk k bypass w).2 =
    exitsAccepted w (materializeCioDecision env desk.cfg.toSettings desk.feed d a w).2

/-- Each answer of the committee is a decision whose risk approval was refused, trading is
    active, and the paper automation is unlocked. -/
structure RefusedDecision [Casing] (desk : Desk) (d : CIODecision) : Prop where
  refused : d.riskApproval = false
  decided : ∀ n a, (desk.committee n).reply = .ok a → a.cio = d
  auto : paperAutoSubmitAllowed desk.cfg.toSettings
  active : ∀ n, (desk.feed.controls n).isNewOrderAllowed

variable {env : Env} {desk : Desk} {k : SessionKey} {bypass : Bool} {d : CIODecision}
  {a : MaterializeArgs} {w : World}

theorem exitsAccepted_eq_nil {w' : World} (h : w'.accepted = w.accepted) :
    exitsAccepted w w' = [] := by
  simp [exitsAccepted, acceptedSince, h]

theorem exitsAccepted_ne_nil {w' : World} (h : SendsExit w w') : exitsAccepted w w' ≠ [] := by
  obtain ⟨o, ho, hexit⟩ := h
  unfold exitsAccepted
  rw [Ne, List.map_eq_nil_iff]
  exact List.ne_nil_of_mem (List.mem_filter.mpr ⟨ho, hexit⟩)

theorem evaluate_rests [Casing] (h : RefusedDecision desk d) :
    (evaluate env desk k bypass w).2.accepted = w.accepted := by
  have hfree := runsFree_accepted w.accepted
  refine (keeps_evaluate_of hfree fun _ m n answer _ _ _ _ hn => ?_).at_end rfl
  refine Eff.Spec.ite (fun hgo => absurd hgo ?_) fun _ => Eff.keeps_pure
  rw [h.decided n answer hn, materializes, h.refused, Bool.and_false]
  exact Bool.false_ne_true

theorem sendsFreely_accepting : SendsFreely (acceptingEnv fun _ => false) where
  uncut := fun _ => rfl
  flushes := fun _ => rfl
  accepts := fun _ _ => rfl
  cancels := fun _ _ heq => by cases heq

/-- **The two paths send the same exits exactly where the decision has none to send.** -/
theorem exits_agree_iff [Casing] (h : RefusedDecision desk d) :
    (∀ env, ExitsAgree env desk k bypass d a w) ↔
      ¬ ExitToSend desk.cfg.toSettings desk.feed d a w := by
  have hnothing : ∀ env, exitsAccepted w (evaluate env desk k bypass w).2 = [] := fun env =>
    exitsAccepted_eq_nil (evaluate_rests h)
  constructor
  · intro hagree hexit
    have hsends := (materialize_sends sendsFreely_accepting h.refused h.auto h.active
      hexit).at_end rfl
    refine exitsAccepted_ne_nil hsends ?_
    rw [← hagree, hnothing]
  · intro hnone env
    have hrests : (materializeCioDecision env desk.cfg.toSettings desk.feed d a w).2.accepted =
        w.accepted := (materialize_rests h.refused h.active hnone).at_end rfl
    unfold ExitsAgree
    rw [hnothing, exitsAccepted_eq_nil hrests]

end Paths

/-! ## The book is not flattened -/

section Flatten

attribute [local instance] asciiCasing

def flattening : CIODecision :=
  { decisionOf .stayCash [planOf "AAPL" .sell] with riskApproval := false }

def heldBook : PortfolioRiskView := bookOf 5000 [rowOf "AAPL" 10 "US"]

def flatteningDesk : Desk :=
  { deskDeciding flattening with
    portfolio := fun _ => answers heldBook
    intraday := { quietIntraday with
      openSymbols := fun _ => answers ["AAPL"]
      snapshot := fun _ => answers (heldBook, some 0) } }

def flatteningArgs : MaterializeArgs :=
  analysisArgs "run" heldBook
    { entryUniverse := ["AAPL"], horizons := [], collectSymbols := ["AAPL"] }
    { collectionRunId := "collection", failClosed := false, failClosedReasons := []
      collectionFailClosed := false, prices := [("AAPL", 100)], quality := 1
      qualitySummary := .null, marketEvents := [] }

theorem flattening_refused : RefusedDecision flatteningDesk flattening where
  refused := rfl
  decided := fun n a h => by cases h; rfl
  auto := by decide
  active := fun _ => rfl

theorem exits_agree_iff_flattening :
    (∀ env, ExitsAgree env flatteningDesk newYork true flattening flatteningArgs analysedWorld) ↔
      ¬ ExitToSend flatteningDesk.cfg.toSettings flatteningDesk.feed flattening flatteningArgs
        analysedWorld :=
  exits_agree_iff flattening_refused

/-- Before the open the ten shares are sold. During the session the same decision of the same
    committee sells nothing. -/
theorem flattening_stays_behind : RefusedDecision flatteningDesk flattening ∧
    ¬ ExitsAgree (acceptingEnv fun _ => false) flatteningDesk newYork true flattening
      flatteningArgs analysedWorld := by
  refine ⟨flattening_refused, ?_⟩
  have hsold : exitsAccepted analysedWorld (materializeCioDecision (acceptingEnv fun _ => false)
      flatteningDesk.cfg.toSettings flatteningDesk.feed flattening flatteningArgs
      analysedWorld).2 = [("AAPL", "sell", 10)] := by
    decide +kernel
  have hkept : exitsAccepted analysedWorld (evaluate (acceptingEnv fun _ => false)
      flatteningDesk newYork true analysedWorld).2 = [] := by
    decide +kernel
  unfold ExitsAgree
  rw [hsold, hkept]
  simp

end Flatten

end Investor.Workflow
