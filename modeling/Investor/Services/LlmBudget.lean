import Investor.Lib.Run
import Mathlib.Algebra.BigOperators.Group.List.Basic
import Mathlib.Algebra.Order.Floor.Ring
import Mathlib.Algebra.Order.Pi
import Mathlib.Data.Rat.Floor
import Mathlib.Data.Fintype.Basic
import Mathlib.Tactic.Linarith

/-!
# The LLM spend ledger

Tokens and calls are counted in the memory of each process and kept in one state file. A process
that records a usage reads the file (`rollPeriod`), adds to its memory (`countUsage`) and writes
its memory over the file (`savedFile`). What it reads it merges by *maximum*, so a usage that
another process has counted and not yet written is not added up; it is overwritten.

Two workers share the file here, and every interleaving of their steps is a run. The day and
month counters are right in every state that a run of `Orderly` steps reaches: no worker begins
to record while the other is at it, and each write lands with a later modification time than the
last (`orderly_counters_add_up`). Two records that overlap lose a call (`overlap_loses_usage`).

Days and months are numbers, and `monthOf` is the operator's calendar.
-/

namespace Investor.Services

open Lib

/-! ## Counters and budgets -/

inductive Counter
  | promptTokens | completionTokens | calls
  deriving DecidableEq

instance : Fintype Counter :=
  ⟨{.promptTokens, .completionTokens, .calls}, fun c => by cases c <;> simp⟩

abbrev Counters := Counter → ℕ

def Counters.totalTokens (c : Counters) : ℕ := c .promptTokens + c .completionTokens

/-- `max(0, int(prompt_tokens))`, `max(0, int(completion_tokens))` and one call. -/
def usageOf (promptTokens completionTokens : Int) : Counters
  | .promptTokens => promptTokens.toNat
  | .completionTokens => completionTokens.toNat
  | .calls => 1

structure LlmSettings where
  monthlyAudBudget : ℚ := 0
  tradingDaysPerMonth : Int := 21
  dailyTokenBudget : Int := 0
  dailyCallBudget : Int := 0
  audPerUsd : ℚ := 1
  inputTokenShare : ℚ := 0
  inputUsdPerMtok : ℚ := 0
  outputUsdPerMtok : ℚ := 0
  avgTokensPerCall : Int := 5000
  softLimitPct : ℚ := 0
  /-- `llm_spend_budget_applies()`. -/
  spendApplies : Bool := true

structure DailyBudgets where
  tokenBudget : Int
  callBudget : Int
  dailyAudBudget : ℚ
  deriving DecidableEq

/-- `resolve_daily_llm_budgets`. -/
def resolveDailyLlmBudgets (cfg : LlmSettings) : DailyBudgets :=
  let monthAud := max 0 cfg.monthlyAudBudget
  let days := max 1 (if cfg.tradingDaysPerMonth = 0 then 21 else cfg.tradingDaysPerMonth)
  let explicitTok := max 0 cfg.dailyTokenBudget
  let explicitCall := max 0 cfg.dailyCallBudget
  if monthAud ≤ 0 then ⟨explicitTok, explicitCall, 0⟩
  else
    let dailyAud := monthAud / days
    let dailyUsd := dailyAud / max (1 / 1000000000) cfg.audPerUsd
    let share := min 1 (max 0 cfg.inputTokenShare)
    let blend := share * cfg.inputUsdPerMtok + (1 - share) * cfg.outputUsdPerMtok
    let derivedTok := if 0 < blend ∧ 0 < dailyUsd then max 1 ⌊dailyUsd / blend * 1000000⌋ else 0
    let avgCall := max 1 (if cfg.avgTokensPerCall = 0 then 5000 else cfg.avgTokensPerCall)
    let derivedCall := if 0 < blend ∧ 0 < dailyUsd then max 1 (derivedTok / avgCall) else 0
    ⟨if 0 < explicitTok then explicitTok else derivedTok,
      if 0 < explicitCall then explicitCall else derivedCall, dailyAud⟩

/-- `estimate_aud_cost`. -/
def estimateAudCost (cfg : LlmSettings) (c : Counters) : ℚ :=
  (c .promptTokens / 1000000 * cfg.inputUsdPerMtok +
    c .completionTokens / 1000000 * cfg.outputUsdPerMtok) * cfg.audPerUsd

/-! ## The memory of a process, and the file -/

structure StateFile where
  day : Option Int
  month : Option Int
  counters : Counters
  softWarned : Bool
  monthCounters : Option Counters
  monthSoftWarned : Bool
  mtime : Int
  deriving DecidableEq

structure Memory where
  stateDay : Option Int := none
  stateMonth : Option Int := none
  day : Counters := 0
  month : Counters := 0
  warnedSoft : Bool := false
  monthWarnedSoft : Bool := false
  lastLoadedMtime : Option Int := none
  deriving DecidableEq

/-- `_take`. -/
def take (merge : Bool) (current incoming : Counters) : Counters :=
  if merge then current ⊔ incoming else incoming

section Calendar

variable (monthOf : Int → Int)

def StateFile.fileMonth (f : StateFile) : Option Int := f.month.or (f.day.map monthOf)

/-- What the file says of the month's counters: a file of an older version only seeds a process
    that has counted nothing. -/
def StateFile.monthIncoming (f : StateFile) (merge : Bool) (m : Memory) : Option Counters :=
  match f.monthCounters with
  | some c => some c
  | none => if merge = false ∧ m.month = 0 then some f.counters else none

def loadDay (f : StateFile) (day : Int) (merge : Bool) (m : Memory) : Memory :=
  if f.day = some day then
    { m with day := take merge m.day f.counters, warnedSoft := m.warnedSoft || f.softWarned }
  else m

def loadMonth (f : StateFile) (month : Int) (merge : Bool) (m : Memory) : Memory :=
  if f.fileMonth monthOf = some month then
    match f.monthIncoming merge m with
    | some c =>
      { m with
        month := take merge m.month c
        monthWarnedSoft := m.monthWarnedSoft || f.monthSoftWarned || f.softWarned }
    | none => m
  else m

/-- `_load_from_disk`; there is no file if it does not exist or cannot be read. -/
def loadFromDisk (file : Option StateFile) (day month : Int) (merge : Bool) (m : Memory) : Memory :=
  match file with
  | none => m
  | some f =>
    { loadMonth monthOf f month merge (loadDay f day merge m) with
      lastLoadedMtime := some f.mtime }

/-- `_sync_disk_if_newer`. -/
def syncDiskIfNewer (file : Option StateFile) (day month : Int) (m : Memory) : Memory :=
  match file with
  | none => m
  | some f =>
    if (m.lastLoadedMtime.map fun t => decide (f.mtime ≤ t)) = some true then m
    else loadFromDisk monthOf file day month true m

def resetPeriod (m : Memory) (day month : Int) : Memory :=
  let m := if m.stateDay = some day then m else { m with day := 0, warnedSoft := false }
  let m := if m.stateMonth = some month then m else { m with month := 0, monthWarnedSoft := false }
  { m with stateDay := some day, stateMonth := some month }

/-- `_roll_period`, on a day. -/
def rollPeriod (file : Option StateFile) (day : Int) (m : Memory) : Memory :=
  if m.stateDay = some day ∧ m.stateMonth = some (monthOf day) then
    syncDiskIfNewer monthOf file day (monthOf day) m
  else loadFromDisk monthOf file day (monthOf day) false (resetPeriod m day (monthOf day))

/-- The usage is added to both periods, and the soft limits are looked at once each. -/
def countUsage (cfg : LlmSettings) (usage : Counters) (m : Memory) : Memory :=
  let day := m.day + usage
  let month := m.month + usage
  let budgets := resolveDailyLlmBudgets cfg
  let monthBudget := max 0 cfg.monthlyAudBudget
  let tokenHit := 0 < budgets.tokenBudget ∧
    ⌊budgets.tokenBudget * cfg.softLimitPct⌋ ≤ (day.totalTokens : Int)
  let callHit := 0 < budgets.callBudget ∧
    ⌊budgets.callBudget * cfg.softLimitPct⌋ ≤ (day .calls : Int)
  let monthHit := 0 < monthBudget ∧ monthBudget * cfg.softLimitPct ≤ estimateAudCost cfg month
  let limited := cfg.spendApplies = true ∧ 0 < cfg.softLimitPct
  { m with
    day, month
    warnedSoft := m.warnedSoft || decide (limited ∧ (tokenHit ∨ callHit))
    monthWarnedSoft := m.monthWarnedSoft || decide (limited ∧ monthHit) }

/-- The file that `_save_to_disk` writes. -/
def savedFile (m : Memory) (day month mtime : Int) : StateFile :=
  { day := some day, month := some month, counters := m.day, softWarned := m.warnedSoft,
    monthCounters := some m.month, monthSoftWarned := m.monthWarnedSoft, mtime }

structure LlmBudgetSnapshot where
  counters : Counters
  monthCounters : Counters
  tokenBudget : Int
  callBudget : Int
  monthAudEstimate : ℚ
  monthAudBudget : ℚ
  blocked : Bool
  monthBlocked : Bool
  deriving DecidableEq

/-- What `snapshot_llm_budget` reports of a memory whose period has been rolled. -/
def snapshotOf (cfg : LlmSettings) (m : Memory) : LlmBudgetSnapshot :=
  let budgets := resolveDailyLlmBudgets cfg
  let tokenBudget := if cfg.spendApplies then budgets.tokenBudget else 0
  let callBudget := if cfg.spendApplies then budgets.callBudget else 0
  let monthBudget := if cfg.spendApplies then max 0 cfg.monthlyAudBudget else 0
  let monthAud := if cfg.spendApplies then estimateAudCost cfg m.month else 0
  let monthBlocked := 0 < monthBudget ∧ monthBudget ≤ monthAud
  { counters := m.day, monthCounters := m.month, tokenBudget, callBudget,
    monthAudEstimate := monthAud, monthAudBudget := monthBudget,
    blocked := 0 < tokenBudget ∧ tokenBudget ≤ (m.day.totalTokens : Int) ∨
      0 < callBudget ∧ callBudget ≤ (m.day .calls : Int) ∨ monthBlocked
    monthBlocked }

/-! ## Two workers -/

inductive Worker
  | first | second
  deriving DecidableEq

def Worker.other : Worker → Worker
  | .first => .second
  | .second => .first

/-- How far a worker's record has come: its lock lets it make one at a time. -/
inductive Phase
  | idle
  | loaded (usage : Counters) (day : Int)
  | counted (day : Int)
  deriving DecidableEq

/-- The file, the workers, and what has been recorded, each usage on its day. -/
structure Ledger where
  file : Option StateFile
  memory : Worker → Memory
  phase : Worker → Phase
  recorded : List (Int × Counters)
  today : Int

/-- The steps of `record_llm_usage`, and a snapshot taken between records. A read or a write of
    the file may fail. -/
inductive Op
  | read (p : Worker) (promptTokens completionTokens : Int) (day : Int) (ok : Bool)
  | update (p : Worker)
  | write (p : Worker) (mtime : Int) (ok : Bool)
  | snapshot (p : Worker) (day : Int) (ok : Bool)

variable (cfg : LlmSettings)

def Ledger.rolled (w : Ledger) (p : Worker) (day : Int) (ok : Bool) : Memory :=
  rollPeriod monthOf (if ok then w.file else none) day (w.memory p)

/-- One step. `write_text` and the `stat` after it are one, so a worker remembers the time of its
    own write. -/
def Ledger.step (w : Ledger) : Op → Ledger
  | .read p promptTokens completionTokens day ok =>
    if w.phase p = .idle then
      { w with
        memory := Function.update w.memory p (w.rolled monthOf p day ok)
        phase := Function.update w.phase p (.loaded (usageOf promptTokens completionTokens) day)
        today := day }
    else w
  | .update p =>
    match w.phase p with
    | .loaded usage day =>
      { w with
        memory := Function.update w.memory p (countUsage cfg usage (w.memory p))
        phase := Function.update w.phase p (.counted day)
        recorded := w.recorded ++ [(day, usage)] }
    | _ => w
  | .write p mtime ok =>
    match w.phase p with
    | .counted day =>
      let idle := Function.update w.phase p .idle
      if ok then
        { w with
          file := some (savedFile (w.memory p) day (monthOf day) mtime)
          memory := Function.update w.memory p { w.memory p with lastLoadedMtime := some mtime }
          phase := idle }
      else { w with phase := idle }
    | _ => w
  | .snapshot p day ok =>
    if w.phase p = .idle then
      { w with memory := Function.update w.memory p (w.rolled monthOf p day ok), today := day }
    else w

/-! ## What has been recorded -/

end Calendar

def monthTotal (recorded : List (Int × Counters)) : Counters := (recorded.map (·.2)).sum

def dayTotal (recorded : List (Int × Counters)) (day : Int) : Counters :=
  ((recorded.filter fun e => e.1 = day).map (·.2)).sum

section Totals

variable {recorded : List (Int × Counters)} {day : Int} {usage : Counters}

theorem monthTotal_snoc : monthTotal (recorded ++ [(day, usage)]) = monthTotal recorded + usage := by
  simp [monthTotal]

theorem dayTotal_snoc_self :
    dayTotal (recorded ++ [(day, usage)]) day = dayTotal recorded day + usage := by
  simp [dayTotal, List.filter_append]

theorem monthTotal_le_snoc :
    monthTotal recorded ≤ monthTotal (recorded ++ [(day, usage)]) := by
  rw [monthTotal_snoc]
  exact le_self_add

theorem dayTotal_le_snoc (other : Int) :
    dayTotal recorded other ≤ dayTotal (recorded ++ [(day, usage)]) other := by
  unfold dayTotal
  rw [List.filter_append, List.map_append, List.sum_append]
  exact le_self_add

theorem dayTotal_of_lt {last : Int} (hlast : ∀ e ∈ recorded, e.1 ≤ last) (hlt : last < day) :
    dayTotal recorded day = 0 := by
  have hnone : recorded.filter (fun e => e.1 = day) = [] := by
    rw [List.filter_eq_nil_iff]
    intro e he hday
    have hle := hlast e he
    simp only [decide_eq_true_eq] at hday
    omega
  rw [dayTotal, hnone]
  rfl

theorem counters_eq_zero {c : Counters} (h : c ≤ 0) : c = 0 :=
  le_antisymm h (fun _ => Nat.zero_le _)

end Totals

/-! ## A file and memories that keep up -/

section KeepUp

variable (monthOf : Int → Int) (month : Int)

def StateFile.IsForeign (f : StateFile) : Prop :=
  f.fileMonth monthOf ≠ some month ∧ ∀ day, monthOf day = month → f.day ≠ some day

structure StateFile.Holds (f : StateFile) (recorded : List (Int × Counters)) (today : Int) :
    Prop where
  day : ∃ day, f.day = some day ∧ day ≤ today ∧ f.counters = dayTotal recorded day ∧
    ∀ e ∈ recorded, e.1 ≤ day
  month : f.month = some month
  monthCounters : f.monthCounters = some (monthTotal recorded)

def FileHolds (recorded : List (Int × Counters)) (today : Int) : Option StateFile → Prop
  | none => recorded = []
  | some f => recorded = [] ∧ f.IsForeign monthOf month ∨ f.Holds month recorded today

structure Memory.Fresh (recorded : List (Int × Counters)) (m : Memory) : Prop where
  month : m.month = monthTotal recorded
  day : ∀ day, m.stateDay = some day → m.day = dayTotal recorded day

/-- **A memory that keeps up with the file**: it has counted nothing that is not recorded, and if
    it has not seen a change of the file, it has counted everything. -/
structure Memory.Follows (recorded : List (Int × Counters)) (file : Option StateFile)
    (m : Memory) : Prop where
  month : m.month ≤ monthTotal recorded
  day : ∀ day, m.stateDay = some day → m.day ≤ dayTotal recorded day
  period : m.stateMonth = m.stateDay.map monthOf
  seen : ∀ t, m.lastLoadedMtime = some t → ∃ f, file = some f ∧ t ≤ f.mtime
  fresh : ∀ f t, file = some f → m.lastLoadedMtime = some t → f.mtime ≤ t → m.Fresh recorded

def Memory.At (m : Memory) (day : Int) : Prop :=
  m.stateDay = some day ∧ m.stateMonth = some (monthOf day)

variable {monthOf month} {recorded : List (Int × Counters)} {today day : Int}
  {file : Option StateFile} {m : Memory}

theorem Memory.Fresh.follows (h : m.Fresh recorded) (hat : m.At monthOf day)
    (hseen : ∀ t, m.lastLoadedMtime = some t → ∃ f, file = some f ∧ t ≤ f.mtime) :
    m.Follows monthOf recorded file where
  month := h.month.le
  day d hd := (h.day d hd).le
  period := by rw [hat.1, hat.2]; rfl
  seen := hseen
  fresh _ _ _ _ _ := h

theorem take_eq {merge : Bool} {current incoming : Counters} (h : current ≤ incoming) :
    take merge current incoming = incoming := by
  cases merge with
  | false => rfl
  | true => exact sup_eq_right.mpr h

theorem loadFromDisk_fresh (merge : Bool) (hfile : FileHolds monthOf month recorded today file)
    (hat : m.At monthOf day) (hmonth : monthOf day = month) (htoday : today ≤ day)
    (hle : m.month ≤ monthTotal recorded) (hday : m.day ≤ dayTotal recorded day) :
    (loadFromDisk monthOf file day month merge m).Fresh recorded ∧
      (loadFromDisk monthOf file day month merge m).At monthOf day := by
  have hempty : recorded = [] → m.Fresh recorded := by
    rintro rfl
    exact ⟨counters_eq_zero hle, fun d _ => counters_eq_zero hday⟩
  cases file with
  | none => exact ⟨hempty hfile, hat⟩
  | some f =>
    rcases hfile with ⟨hnone, hforeign, hother⟩ | hholds
    · have hkept : loadFromDisk monthOf (some f) day month merge m =
          { m with lastLoadedMtime := some f.mtime } := by
        simp only [loadFromDisk, loadMonth, loadDay, if_neg hforeign, if_neg (hother day hmonth)]
      rw [hkept]
      exact ⟨⟨(hempty hnone).month, (hempty hnone).day⟩, hat⟩
    · obtain ⟨d, hd, hdle, hcounters, hlast⟩ := hholds.day
      have hfileMonth : f.fileMonth monthOf = some month := by
        unfold StateFile.fileMonth
        rw [hholds.month]
        rfl
      have hincoming : ∀ m' : Memory, f.monthIncoming merge m' = some (monthTotal recorded) :=
        fun m' => by
          unfold StateFile.monthIncoming
          rw [hholds.monthCounters]
      have hloadDay : (loadDay f day merge m).day = dayTotal recorded day ∧
          (loadDay f day merge m).month = m.month ∧
          (loadDay f day merge m).stateDay = m.stateDay ∧
          (loadDay f day merge m).stateMonth = m.stateMonth := by
        unfold loadDay
        by_cases hsame : f.day = some day
        · obtain rfl : d = day := Option.some.inj (hd.symm.trans hsame)
          rw [if_pos hsame, hcounters]
          exact ⟨take_eq hday, rfl, rfl, rfl⟩
        · have hlt : d < day := lt_of_le_of_ne (hdle.trans htoday) fun h => hsame (h ▸ hd)
          have hzero := dayTotal_of_lt hlast hlt
          rw [if_neg hsame]
          refine ⟨?_, rfl, rfl, rfl⟩
          rw [hzero] at hday ⊢
          exact counters_eq_zero hday
      obtain ⟨hdayEq, hmonthEq, hstateDay, hstateMonth⟩ := hloadDay
      unfold loadFromDisk loadMonth
      simp only [if_pos hfileMonth, hincoming, hmonthEq, take_eq hle]
      refine ⟨⟨rfl, fun d' hd' => ?_⟩, hstateDay.trans hat.1, hstateMonth.trans hat.2⟩
      have hsome : (loadDay f day merge m).stateDay = some d' := hd'
      rw [hstateDay, hat.1] at hsome
      obtain rfl := Option.some.inj hsome
      exact hdayEq

theorem loadFromDisk_seen {merge : Bool} (t : Int)
    (h : (loadFromDisk monthOf file day month merge m).lastLoadedMtime = some t)
    (hseen : ∀ t, m.lastLoadedMtime = some t → ∃ f, file = some f ∧ t ≤ f.mtime) :
    ∃ f, file = some f ∧ t ≤ f.mtime := by
  cases file with
  | none => exact hseen t h
  | some f =>
    obtain rfl : f.mtime = t := Option.some.inj h
    exact ⟨f, rfl, le_refl _⟩

theorem resetPeriod_le (day month : Int) (h : m.Follows monthOf recorded file) :
    (resetPeriod m day month).month ≤ monthTotal recorded ∧
      (resetPeriod m day month).day ≤ dayTotal recorded day ∧
      (resetPeriod m day month).lastLoadedMtime = m.lastLoadedMtime := by
  have hzero : ∀ c : Counters, 0 ≤ c := fun c _ => Nat.zero_le _
  unfold resetPeriod
  by_cases hd : m.stateDay = some day <;> by_cases hm : m.stateMonth = some month <;>
    simp [hd, hm, h.month, h.day day, hzero]

theorem rollPeriod_fresh (hfile : FileHolds monthOf month recorded today file)
    (hm : m.Follows monthOf recorded file) (hmonth : monthOf day = month) (htoday : today ≤ day) :
    (rollPeriod monthOf file day m).Fresh recorded ∧
      (rollPeriod monthOf file day m).At monthOf day ∧
      (rollPeriod monthOf file day m).Follows monthOf recorded file := by
  have hboth : (rollPeriod monthOf file day m).Fresh recorded ∧
      (rollPeriod monthOf file day m).At monthOf day := by
    unfold rollPeriod
    rw [hmonth]
    split
    · rename_i hsame
      have hat : m.At monthOf day := ⟨hsame.1, hmonth ▸ hsame.2⟩
      have hload := loadFromDisk_fresh true hfile hat hmonth htoday hm.month
        (hm.day day hat.1)
      unfold syncDiskIfNewer
      cases file with
      | none => exact hload
      | some f =>
        simp only
        split
        · rename_i hold
          obtain ⟨t, ht, hle⟩ := Option.map_eq_some_iff.mp hold
          exact ⟨hm.fresh f t rfl ht (by simpa using hle), hat⟩
        · exact hload
    · obtain ⟨hle, hday, -⟩ := resetPeriod_le day month hm
      exact loadFromDisk_fresh _ hfile ⟨rfl, by rw [hmonth]; rfl⟩ hmonth htoday hle hday
  refine ⟨hboth.1, hboth.2, hboth.1.follows hboth.2 fun t ht => ?_⟩
  unfold rollPeriod at ht
  split at ht
  · unfold syncDiskIfNewer at ht
    cases file with
    | none => exact hm.seen t ht
    | some f =>
      simp only at ht
      split at ht
      · exact hm.seen t ht
      · exact loadFromDisk_seen t ht hm.seen
  · refine loadFromDisk_seen t ht ?_
    rw [(resetPeriod_le _ _ hm).2.2]
    exact hm.seen

end KeepUp

/-! ## Orderly runs -/

section Runs

variable (monthOf : Int → Int) (month : Int)

/-- A step within the month and in the order of the clock: the file is reached, and a write is
    later than the last. -/
def Timely (w : Ledger) : Op → Prop
  | .read _ _ _ day ok => ok = true ∧ w.today ≤ day ∧ monthOf day = month
  | .update _ => True
  | .write _ mtime ok => ok = true ∧ ∀ f ∈ w.file, f.mtime < mtime
  | .snapshot _ day ok => ok = true ∧ w.today ≤ day ∧ monthOf day = month

instance (w : Ledger) : DecidablePred (Timely monthOf month w)
  | .read _ _ _ day ok => inferInstanceAs (Decidable (ok = true ∧ w.today ≤ day ∧ _ = month))
  | .update _ => .isTrue trivial
  | .write _ mtime ok => inferInstanceAs (Decidable (ok = true ∧ ∀ f ∈ w.file, f.mtime < mtime))
  | .snapshot _ day ok => inferInstanceAs (Decidable (ok = true ∧ w.today ≤ day ∧ _ = month))

def Overlaps (w : Ledger) : Op → Prop
  | .read p _ _ _ _ => w.phase p.other ≠ .idle
  | .update _ => False
  | .write _ _ _ => False
  | .snapshot _ _ _ => False

instance (w : Ledger) : DecidablePred (Overlaps w)
  | .read p _ _ _ _ => inferInstanceAs (Decidable (w.phase p.other ≠ .idle))
  | .update _ => .isFalse id
  | .write _ _ _ => .isFalse id
  | .snapshot _ _ _ => .isFalse id

/-- **An orderly step** is timely, and does not begin a record while another is made. -/
def Orderly (w : Ledger) (op : Op) : Prop := Timely monthOf month w op ∧ ¬ Overlaps w op

instance (w : Ledger) (op : Op) : Decidable (Orderly monthOf month w op) :=
  inferInstanceAs (Decidable (_ ∧ _))

/-- The workers' memories, where `written` is what the file holds. -/
structure Sound (written : List (Int × Counters)) (w : Ledger) : Prop where
  file : FileHolds monthOf month written w.today w.file
  alone : ∀ p, w.phase p ≠ .idle → w.phase p.other = .idle
  idle : ∀ p, w.phase p = .idle → (w.memory p).Follows monthOf written w.file
  loaded : ∀ p usage day, w.phase p = .loaded usage day →
    (w.memory p).Follows monthOf written w.file ∧ (w.memory p).Fresh written ∧
      (w.memory p).At monthOf day ∧ day ≤ w.today ∧ monthOf day = month ∧
      ∀ e ∈ written, e.1 ≤ day
  counted : ∀ p day, w.phase p = .counted day →
    (w.memory p).Fresh w.recorded ∧ (w.memory p).At monthOf day ∧ day ≤ w.today ∧
      monthOf day = month ∧ (∀ e ∈ w.recorded, e.1 ≤ day) ∧
      ∃ usage, w.recorded = written ++ [(day, usage)]
  settled : (∀ p day, w.phase p ≠ .counted day) → w.recorded = written
  days : ∀ e ∈ written, e.1 ≤ w.today

variable {monthOf month} {cfg : LlmSettings} {w : Ledger} {written : List (Int × Counters)}

theorem Worker.eq_or_eq_other (p q : Worker) : q = p ∨ q = p.other := by
  cases p <;> cases q <;> simp [Worker.other]

theorem Worker.other_ne (p : Worker) : p.other ≠ p := by cases p <;> simp [Worker.other]

theorem FileHolds.mono {today today' : Int} {file : Option StateFile}
    (h : FileHolds monthOf month written today file) (hle : today ≤ today') :
    FileHolds monthOf month written today' file := by
  cases file with
  | none => exact h
  | some f =>
    rcases h with h | h
    · exact Or.inl h
    · obtain ⟨d, hd, hdle, hrest⟩ := h.day
      exact Or.inr { h with day := ⟨d, hd, hdle.trans hle, hrest⟩ }

variable {p : Worker}

theorem Sound.roll {day : Int} (h : Sound monthOf month written w) (hidle : w.phase p = .idle)
    (htoday : w.today ≤ day) (hmonth : monthOf day = month) :
    (w.rolled monthOf p day true).Fresh written ∧ (w.rolled monthOf p day true).At monthOf day ∧
      (w.rolled monthOf p day true).Follows monthOf written w.file :=
  rollPeriod_fresh h.file (h.idle p hidle) hmonth htoday

variable {ok : Bool}

theorem Sound.read {prompt completion day : Int} (h : Sound monthOf month written w)
    (hop : Orderly monthOf month w (.read p prompt completion day ok)) :
    Sound monthOf month written (w.step monthOf cfg (.read p prompt completion day ok)) := by
  obtain ⟨⟨rfl, htoday, hmonth⟩, hother⟩ := hop
  have hother : w.phase p.other = .idle := not_not.mp hother
  unfold Ledger.step
  by_cases hidle : w.phase p = .idle
  · obtain ⟨hfresh, hat, hfollows⟩ := h.roll hidle htoday hmonth
    have hsettled : w.recorded = written := h.settled fun q d hq => by
      rcases Worker.eq_or_eq_other p q with rfl | rfl
      · rw [hidle] at hq; cases hq
      · rw [hother] at hq; cases hq
    simp only [if_pos hidle]
    refine { file := h.file.mono htoday, alone := fun q hq => ?_, idle := fun q hq => ?_,
             loaded := fun q usage d hq => ?_, counted := fun q d hq => ?_,
             settled := fun _ => hsettled, days := fun e he => (h.days e he).trans htoday }
    all_goals rcases Worker.eq_or_eq_other p q with rfl | rfl
    · simp only [Function.update_of_ne q.other_ne]
      exact hother
    · simp only [Function.update_of_ne p.other_ne] at hq
      exact absurd hother hq
    · simp at hq
    · simp only [Function.update_of_ne p.other_ne] at hq ⊢
      exact h.idle _ hq
    · simp only [Function.update_self, Phase.loaded.injEq] at hq ⊢
      obtain ⟨rfl, rfl⟩ := hq
      exact ⟨hfollows, hfresh, hat, le_refl _, hmonth, fun e he => (h.days e he).trans htoday⟩
    · simp [Function.update_of_ne p.other_ne, hother] at hq
    · simp at hq
    · simp [Function.update_of_ne p.other_ne, hother] at hq
  · simp only [if_neg hidle]
    exact h

theorem Sound.snapshot {day : Int} (h : Sound monthOf month written w)
    (hop : Orderly monthOf month w (.snapshot p day ok)) :
    Sound monthOf month written (w.step monthOf cfg (.snapshot p day ok)) := by
  obtain ⟨⟨rfl, htoday, hmonth⟩, -⟩ := hop
  unfold Ledger.step
  by_cases hidle : w.phase p = .idle
  · obtain ⟨-, -, hfollows⟩ := h.roll hidle htoday hmonth
    have hbusy : ∀ q, w.phase q ≠ .idle → q = p.other := fun q hq =>
      (Worker.eq_or_eq_other p q).resolve_left fun hqp => hq (hqp ▸ hidle)
    simp only [if_pos hidle]
    refine { file := h.file.mono htoday, alone := h.alone, idle := fun q hq => ?_,
             loaded := fun q usage d hq => ?_, counted := fun q d hq => ?_, settled := h.settled,
             days := fun e he => (h.days e he).trans htoday }
    · rcases Worker.eq_or_eq_other p q with rfl | rfl
      · simp only [Function.update_self]
        exact hfollows
      · simp only [Function.update_of_ne p.other_ne]
        exact h.idle _ hq
    · obtain rfl := hbusy q (by rw [hq]; exact Phase.noConfusion)
      obtain ⟨hf, hfr, hat, hle, hrest⟩ := h.loaded _ usage d hq
      simp only [Function.update_of_ne p.other_ne]
      exact ⟨hf, hfr, hat, hle.trans htoday, hrest⟩
    · obtain rfl := hbusy q (by rw [hq]; exact Phase.noConfusion)
      obtain ⟨hfr, hat, hle, hrest⟩ := h.counted _ d hq
      simp only [Function.update_of_ne p.other_ne]
      exact ⟨hfr, hat, hle.trans htoday, hrest⟩
  · simp only [if_neg hidle]
    exact h

theorem Memory.Fresh.count {m : Memory} {day : Int} {usage : Counters} (h : m.Fresh written)
    (hat : m.At monthOf day) :
    (countUsage cfg usage m).Fresh (written ++ [(day, usage)]) := by
  refine ⟨?_, fun d hd => ?_⟩
  · rw [monthTotal_snoc, ← h.month]
    rfl
  · obtain rfl : day = d := Option.some.inj (hat.1.symm.trans hd)
    rw [dayTotal_snoc_self, ← h.day day hat.1]
    rfl

theorem Sound.update (h : Sound monthOf month written w) :
    Sound monthOf month written (w.step monthOf cfg (.update p)) := by
  cases hp : w.phase p with
  | idle => simpa only [Ledger.step, hp] using h
  | counted day => simpa only [Ledger.step, hp] using h
  | loaded usage day =>
    obtain ⟨hfollows, hfresh, hat, hle, hmonth, hbefore⟩ := h.loaded p usage day hp
    have hother : w.phase p.other = .idle := h.alone p (by rw [hp]; exact Phase.noConfusion)
    have hsettled : w.recorded = written := h.settled fun q d hq => by
      rcases Worker.eq_or_eq_other p q with rfl | rfl
      · rw [hp] at hq; cases hq
      · rw [hother] at hq; cases hq
    simp only [Ledger.step, hp]
    refine { file := h.file, alone := fun q hq => ?_, idle := fun q hq => ?_,
             loaded := fun q usage' d hq => ?_, counted := fun q d hq => ?_,
             settled := fun hnone => absurd (Function.update_self ..) (hnone p day),
             days := h.days }
    all_goals rcases Worker.eq_or_eq_other p q with rfl | rfl
    · simp only [Function.update_of_ne q.other_ne]
      exact hother
    · simp only [Function.update_of_ne p.other_ne] at hq
      exact absurd hother hq
    · simp at hq
    · simp only [Function.update_of_ne p.other_ne] at hq ⊢
      exact h.idle _ hq
    · simp at hq
    · simp [Function.update_of_ne p.other_ne, hother] at hq
    · simp only [Function.update_self, Phase.counted.injEq] at hq ⊢
      subst hq
      rw [hsettled]
      refine ⟨hfresh.count hat, hat, hle, hmonth, fun e he => ?_, usage, rfl⟩
      rcases List.mem_append.mp he with he | he
      · exact hbefore e he
      · rw [List.mem_singleton.mp he]
    · simp [Function.update_of_ne p.other_ne, hother] at hq

theorem Memory.Follows.write {m : Memory} {day : Int} {usage : Counters} {f : StateFile}
    (h : m.Follows monthOf written w.file) (hlater : ∀ f' ∈ w.file, f'.mtime < f.mtime) :
    m.Follows monthOf (written ++ [(day, usage)]) (some f) where
  month := h.month.trans monthTotal_le_snoc
  day d hd := (h.day d hd).trans (dayTotal_le_snoc d)
  period := h.period
  seen t ht := by
    obtain ⟨f', hf', hle⟩ := h.seen t ht
    exact ⟨f, rfl, hle.trans (hlater f' hf').le⟩
  fresh f'' t hf'' ht hle := by
    obtain ⟨f', hf', hle'⟩ := h.seen t ht
    obtain rfl := Option.some.inj hf''
    exact absurd (hle.trans hle') (not_le.mpr (hlater f' hf'))

theorem Sound.write {mtime : Int} (h : Sound monthOf month written w)
    (hop : Orderly monthOf month w (.write p mtime ok)) :
    ∃ written', Sound monthOf month written' (w.step monthOf cfg (.write p mtime ok)) := by
  obtain ⟨⟨rfl, hlater⟩, -⟩ := hop
  cases hp : w.phase p with
  | idle => exact ⟨written, by simpa only [Ledger.step, hp] using h⟩
  | loaded usage day => exact ⟨written, by simpa only [Ledger.step, hp] using h⟩
  | counted day =>
    obtain ⟨hfresh, hat, hle, hmonth, hbefore, usage, hrecorded⟩ := h.counted p day hp
    have hother : w.phase p.other = .idle := h.alone p (by rw [hp]; exact Phase.noConfusion)
    simp only [Ledger.step, hp, if_true]
    refine ⟨w.recorded, { file := ?_, alone := fun q hq => ?_, idle := fun q hq => ?_,
                          loaded := fun q usage' d hq => ?_, counted := fun q d hq => ?_,
                          settled := fun _ => rfl, days := fun e he => (hbefore e he).trans hle }⟩
    · refine Or.inr ⟨⟨day, rfl, hle, hfresh.day day hat.1, hbefore⟩, ?_, ?_⟩
      · show some (monthOf day) = some month
        rw [hmonth]
      · show some (w.memory p).month = _
        rw [hfresh.month]
    all_goals rcases Worker.eq_or_eq_other p q with rfl | rfl
    · simp at hq
    · simp only [Function.update_of_ne p.other_ne] at hq
      exact absurd hother hq
    · simp only [Function.update_self]
      have hkept : Memory.Fresh w.recorded
          { w.memory q with lastLoadedMtime := some mtime } := ⟨hfresh.month, hfresh.day⟩
      refine hkept.follows hat fun t ht => ⟨_, rfl, ?_⟩
      exact (Option.some.inj ht).symm.le
    · simp only [Function.update_of_ne p.other_ne]
      rw [hrecorded]
      exact (h.idle _ hother).write hlater
    · simp at hq
    · simp [Function.update_of_ne p.other_ne, hother] at hq
    · simp at hq
    · simp [Function.update_of_ne p.other_ne, hother] at hq

theorem sound_step {op : Op} (h : ∃ written, Sound monthOf month written w)
    (hop : Orderly monthOf month w op) :
    ∃ written, Sound monthOf month written (w.step monthOf cfg op) := by
  obtain ⟨written, h⟩ := h
  cases op with
  | read p prompt completion day ok => exact ⟨written, h.read hop⟩
  | update p => exact ⟨written, h.update⟩
  | write p mtime ok => exact h.write hop
  | snapshot p day ok => exact ⟨written, h.snapshot hop⟩

/-! ### The counters of a run -/

def startLedger (file : Option StateFile) (today : Int) : Ledger :=
  { file, memory := fun _ => {}, phase := fun _ => .idle, recorded := [], today }

variable (monthOf month cfg) in
/-- **Once no worker is recording, the counters that either reports are the sums of what has been
    recorded** in the month and on the day, and the month is blocked if its cost reaches the
    budget. -/
def AddsUp (w : Ledger) : Prop :=
  (∀ p, w.phase p = .idle) → ∀ p day, w.today ≤ day → monthOf day = month →
    let s := snapshotOf cfg (w.rolled monthOf p day true)
    s.monthCounters = monthTotal w.recorded ∧ s.counters = dayTotal w.recorded day ∧
      (s.monthBlocked = true ↔ cfg.spendApplies = true ∧ 0 < cfg.monthlyAudBudget ∧
        cfg.monthlyAudBudget ≤ estimateAudCost cfg (monthTotal w.recorded))

theorem Sound.addsUp (h : Sound monthOf month written w) : AddsUp monthOf month cfg w := by
  intro hidle p day htoday hmonth
  have hsettled : w.recorded = written := h.settled fun q d hq => by
    rw [hidle q] at hq
    cases hq
  obtain ⟨hfresh, hat, -⟩ := h.roll (hidle p) htoday hmonth
  rw [hsettled]
  refine ⟨hfresh.month, hfresh.day day hat.1, ?_⟩
  rw [← hfresh.month]
  cases happlies : cfg.spendApplies with
  | false => simp [snapshotOf, happlies]
  | true =>
    simp only [snapshotOf, happlies, if_true, decide_eq_true_eq, true_and]
    constructor
    · rintro ⟨hpos, hle⟩
      have hbudget : 0 < cfg.monthlyAudBudget := by simpa using hpos
      rw [max_eq_right hbudget.le] at hle
      exact ⟨hbudget, hle⟩
    · rintro ⟨hpos, hle⟩
      rw [max_eq_right hpos.le]
      exact ⟨hpos, hle⟩

/-- **The counters add up in every state that orderly steps reach**, from a file of another
    month, or none. -/
theorem orderly_counters_add_up {file : Option StateFile} {today : Int} {ops : List Op}
    (hfile : ∀ f ∈ file, f.IsForeign monthOf month)
    (hops : StepsMeet (Ledger.step monthOf cfg) (Orderly monthOf month) (startLedger file today)
      ops) :
    AddsUp monthOf month cfg (runFrom (Ledger.step monthOf cfg) (startLedger file today) ops) := by
  have hstart : Sound monthOf month [] (startLedger file today) :=
    { file := by
        cases file with
        | none => rfl
        | some f => exact Or.inl ⟨rfl, hfile f rfl⟩
      alone := fun _ _ => rfl
      idle := fun _ _ => ⟨le_refl _, (fun _ hd => by cases hd), rfl, (fun _ ht => by cases ht),
        fun _ _ _ ht => by cases ht⟩
      loaded := fun _ _ _ hp => by cases hp
      counted := fun _ _ hp => by cases hp
      settled := fun _ => rfl
      days := fun _ he => by cases he }
  obtain ⟨written, hsound⟩ :=
    @run_invariant_of_meets _ _ _ _ (fun w => ∃ written, Sound monthOf month written w)
      (fun _ _ => sound_step) _ _ ⟨[], hstart⟩ hops
  exact hsound.addsUp

end Runs

section Samples

def thirtyDays (day : Int) : Int := day / 30

def oneAfterTheOther : List Op :=
  [.read .first 100 10 3 true, .update .first, .write .first 1 true,
    .read .second 200 20 4 true, .update .second, .write .second 2 true]

theorem orderly_counters_add_up_two :
    ((∀ f ∈ (none : Option StateFile), f.IsForeign thirtyDays 0) ∧
      StepsMeet (Ledger.step thirtyDays {}) (Orderly thirtyDays 0) (startLedger none 3)
        oneAfterTheOther) ∧
    AddsUp thirtyDays 0 {}
      (runFrom (Ledger.step thirtyDays {}) (startLedger none 3) oneAfterTheOther) := by
  have hfile : ∀ f ∈ (none : Option StateFile), f.IsForeign thirtyDays 0 := fun _ hf => by cases hf
  have hops : StepsMeet (Ledger.step thirtyDays {}) (Orderly thirtyDays 0) (startLedger none 3)
      oneAfterTheOther := by
    decide +kernel
  exact ⟨⟨hfile, hops⟩, orderly_counters_add_up hfile hops⟩

def overlapping : List Op :=
  [.read .first 100 10 3 true, .read .second 200 20 3 true, .update .first, .update .second,
    .write .first 1 true, .write .second 2 true]

/-- **Two records that overlap lose one of them**: two calls are recorded, and both workers report
    one. -/
theorem overlap_loses_usage :
    ¬ ∀ (monthOf : Int → Int) (month : Int) (cfg : LlmSettings) (today : Int) (ops : List Op),
      StepsMeet (Ledger.step monthOf cfg) (Timely monthOf month) (startLedger none today) ops →
      AddsUp monthOf month cfg
        (runFrom (Ledger.step monthOf cfg) (startLedger none today) ops) := by
  intro hall
  have htimely : StepsMeet (Ledger.step thirtyDays {}) (Timely thirtyDays 0) (startLedger none 3)
      overlapping := by
    decide +kernel
  have hidle : ∀ p, (runFrom (Ledger.step thirtyDays {}) (startLedger none 3) overlapping).phase p =
      .idle := by
    intro p
    cases p <;> decide +kernel
  have hmonth :=
    (hall thirtyDays 0 {} 3 overlapping htimely hidle .first 3 (by decide +kernel) rfl).1
  have hcalls := congrFun hmonth .calls
  revert hcalls
  decide +kernel

end Samples

end Investor.Services
