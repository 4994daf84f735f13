import Investor.Services.LlmBudget
import Mathlib.Data.Int.ConditionallyCompleteOrder

/-!
# The spend ledger over days and months

One process records and looks, day after day, and any write of its state file may fail: before the
file is touched, half way through, or only when the new modification time is asked for. What is in
memory is then ahead of the file. A new day of the same month reads the file again and *replaces*
the month's counters by those in it, so what was not written is forgotten; and where the file says
that its day was warned, the month counts as warned too. `right_of_undisturbed` says that nothing
else goes wrong: in a run without these two, the counters are the sums of what was recorded on the
day and in the month, and the month is warned exactly if some record of it reached the soft share
of its budget.
-/

namespace Investor.Services

open Lib

/-! ## What has been recorded -/

structure RecordedUsage where
  day : Int
  usage : Counters
  cfg : LlmSettings

def usageWhere (p : Int → Bool) (recorded : List RecordedUsage) : Counters :=
  ((recorded.filter fun r => p r.day).map (·.usage)).sum

def dayUsage (recorded : List RecordedUsage) (day : Int) : Counters :=
  usageWhere (fun d => d = day) recorded

def monthUsage (monthOf : Int → Int) (recorded : List RecordedUsage) (month : Int) : Counters :=
  usageWhere (fun d => monthOf d = month) recorded

def ReachesSoft (cfg : LlmSettings) (month : Counters) : Prop :=
  (cfg.spendApplies = true ∧ 0 < cfg.softLimitPct) ∧
    0 < max 0 cfg.monthlyAudBudget ∧
      max 0 cfg.monthlyAudBudget * cfg.softLimitPct ≤ estimateAudCost cfg month

instance (cfg : LlmSettings) (month : Counters) : Decidable (ReachesSoft cfg month) :=
  inferInstanceAs (Decidable ((_ ∧ _) ∧ _ ∧ _))

def SoftReached (monthOf : Int → Int) (recorded : List RecordedUsage) (month : Int) : Prop :=
  ∃ front r back, recorded = front ++ r :: back ∧ monthOf r.day = month ∧
    ReachesSoft r.cfg (monthUsage monthOf (front ++ [r]) month)

section Sums

variable {p : Int → Bool} {recorded written : List RecordedUsage} {r : RecordedUsage}
  {monthOf : Int → Int} {month : Int}

theorem usageWhere_snoc :
    usageWhere p (recorded ++ [r]) = usageWhere p recorded + if p r.day then r.usage else 0 := by
  unfold usageWhere
  rw [List.filter_append, List.map_append, List.sum_append]
  cases h : p r.day with
  | true => simp [h]
  | false => simp [h]

theorem usageWhere_le (h : written <+: recorded) : usageWhere p written ≤ usageWhere p recorded := by
  obtain ⟨rest, rfl⟩ := h
  unfold usageWhere
  rw [List.filter_append, List.map_append, List.sum_append]
  exact le_self_add

theorem usageWhere_eq_zero (h : ∀ r ∈ recorded, p r.day = false) : usageWhere p recorded = 0 := by
  have hnone : recorded.filter (fun r => p r.day) = [] := by
    rw [List.filter_eq_nil_iff]
    intro r hr
    simp [h r hr]
  rw [usageWhere, hnone]
  rfl

theorem SoftReached.mono (h : SoftReached monthOf written month) (hle : written <+: recorded) :
    SoftReached monthOf recorded month := by
  obtain ⟨rest, rfl⟩ := hle
  obtain ⟨front, r, back, rfl, hmonth, hreach⟩ := h
  exact ⟨front, r, back ++ rest, by simp, hmonth, hreach⟩

theorem softReached_snoc :
    SoftReached monthOf (recorded ++ [r]) month ↔ SoftReached monthOf recorded month ∨
      monthOf r.day = month ∧ ReachesSoft r.cfg (monthUsage monthOf (recorded ++ [r]) month) := by
  constructor
  · rintro ⟨front, s, back, hsplit, hmonth, hreach⟩
    rcases List.eq_nil_or_concat back with rfl | ⟨rest, last, rfl⟩
    · obtain ⟨rfl, hlast⟩ := List.append_inj' hsplit rfl
      obtain rfl := List.head_eq_of_cons_eq hlast
      exact Or.inr ⟨hmonth, hreach⟩
    · rw [List.concat_eq_append, ← List.cons_append, ← List.append_assoc] at hsplit
      obtain ⟨rfl, -⟩ := List.append_inj' hsplit rfl
      exact Or.inl ⟨front, s, rest, rfl, hmonth, hreach⟩
  · rintro (h | ⟨hmonth, hreach⟩)
    · exact h.mono (List.prefix_append _ _)
    · exact ⟨recorded, r, [], rfl, hmonth, hreach⟩

theorem not_softReached (h : ∀ r ∈ recorded, monthOf r.day ≠ month) :
    ¬ SoftReached monthOf recorded month := by
  rintro ⟨front, r, back, rfl, hmonth, -⟩
  exact h r (by simp) hmonth

end Sums

/-! ## One process -/

/-- What becomes of a write of the state file. A file that is cut off cannot be read. -/
inductive Write
  | done (mtime : Int)
  | unseen (mtime : Int)
  | torn
  | refused
  deriving DecidableEq

structure BudgetProcess where
  file : Option StateFile
  memory : Memory
  recorded : List RecordedUsage
  today : Int

/-- A call: `record_llm_usage` up to its own snapshot, or `snapshot_llm_budget`. -/
inductive BudgetCall
  | record (cfg : LlmSettings) (isLocal : Bool) (promptTokens completionTokens day : Int)
      (write : Write)
  | snapshot (day : Int)

def BudgetCall.day : BudgetCall → Int
  | .record _ _ _ _ day _ => day
  | .snapshot day => day

section Process

variable (monthOf : Int → Int)

/-- `_roll_period`, on a day. -/
def BudgetProcess.roll (w : BudgetProcess) (day : Int) : BudgetProcess :=
  { w with memory := rollPeriod monthOf w.file day w.memory, today := day }

/-- `_save_to_disk`. -/
def BudgetProcess.save (w : BudgetProcess) (day : Int) : Write → BudgetProcess
  | .done mtime =>
    { w with
      file := some (savedFile w.memory day (monthOf day) mtime)
      memory := { w.memory with lastLoadedMtime := some mtime } }
  | .unseen mtime => { w with file := some (savedFile w.memory day (monthOf day) mtime) }
  | .torn => { w with file := none }
  | .refused => w

def BudgetProcess.count (w : BudgetProcess) (r : RecordedUsage) : BudgetProcess :=
  { w with memory := countUsage r.cfg r.usage w.memory, recorded := w.recorded ++ [r] }

def BudgetProcess.step (w : BudgetProcess) : BudgetCall → BudgetProcess
  | .snapshot day => w.roll monthOf day
  | .record cfg isLocal promptTokens completionTokens day write =>
    let w := w.roll monthOf day
    if isLocal then w
    else (w.count ⟨day, usageOf promptTokens completionTokens, cfg⟩).save monthOf day write

/-- The file is read: the period is new, or the file is newer than what was read last. -/
def Reads (m : Memory) (day : Int) (f : StateFile) : Prop :=
  ¬ (m.stateDay = some day ∧ m.stateMonth = some (monthOf day)) ∨
    ∀ t ∈ m.lastLoadedMtime, t < f.mtime

def Forward (w : BudgetProcess) (call : BudgetCall) : Prop := w.today ≤ call.day

/-- **A call that the file does not disturb**: a new day of the month in memory finds the month's
    counters in the file, if it holds the month at all, and no file of the month that is read says that
    its day was warned where the month was not. -/
structure Undisturbed (w : BudgetProcess) (call : BudgetCall) : Prop where
  forward : w.today ≤ call.day
  upToDate : w.memory.stateMonth = some (monthOf call.day) → w.memory.stateDay ≠ some call.day →
    ∀ f ∈ w.file, f.month = some (monthOf call.day) → f.monthCounters = some w.memory.month
  warned : ∀ f ∈ w.file, Reads monthOf w.memory call.day f → f.month = some (monthOf call.day) →
    f.softWarned = true → f.monthSoftWarned = true ∨
      w.memory.stateMonth = some (monthOf call.day) ∧ w.memory.monthWarnedSoft = true

instance (m : Memory) (day : Int) (f : StateFile) : Decidable (Reads monthOf m day f) :=
  inferInstanceAs (Decidable (_ ∨ _))

instance (w : BudgetProcess) (call : BudgetCall) : Decidable (Undisturbed monthOf w call) :=
  decidable_of_iff
    (w.today ≤ call.day ∧
      (w.memory.stateMonth = some (monthOf call.day) → w.memory.stateDay ≠ some call.day →
        ∀ f ∈ w.file, f.month = some (monthOf call.day) → f.monthCounters = some w.memory.month) ∧
      ∀ f ∈ w.file, Reads monthOf w.memory call.day f → f.month = some (monthOf call.day) →
        f.softWarned = true → f.monthSoftWarned = true ∨
          w.memory.stateMonth = some (monthOf call.day) ∧ w.memory.monthWarnedSoft = true)
    ⟨fun h => ⟨h.1, h.2.1, h.2.2⟩, fun h => ⟨h.forward, h.upToDate, h.warned⟩⟩

instance (w : BudgetProcess) (call : BudgetCall) : Decidable (Forward w call) :=
  inferInstanceAs (Decidable (_ ≤ _))

/-! ## What a memory and a file hold -/

/-- **The counters of a day and its month are the sums, and the month is warned if it was reached.** -/
structure Memory.RightAt (m : Memory) (recorded : List RecordedUsage) (day : Int) : Prop where
  stateDay : m.stateDay = some day
  stateMonth : m.stateMonth = some (monthOf day)
  daySum : m.day = dayUsage recorded day
  monthSum : m.month = monthUsage monthOf recorded (monthOf day)
  warned : m.monthWarnedSoft = true ↔ SoftReached monthOf recorded (monthOf day)

/-- The file holds what had been recorded when it was written, on a day of its own. -/
structure StateFile.HoldsAt (f : StateFile) (written : List RecordedUsage) (day : Int) : Prop where
  ofDay : f.day = some day
  ofMonth : f.month = some (monthOf day)
  daySum : f.counters = dayUsage written day
  monthSum : f.monthCounters = some (monthUsage monthOf written (monthOf day))
  warned : f.monthSoftWarned = true ↔ SoftReached monthOf written (monthOf day)
  last : ∀ r ∈ written, r.day ≤ day

/-- A process that has just started finds all that was recorded in the file. -/
structure StartsWith (recorded : List RecordedUsage) (today : Int) (file : Option StateFile) :
    Prop where
  missing : file = none → recorded = []
  holds : ∀ f ∈ file, ∃ day ≤ today, f.HoldsAt monthOf recorded day

/-- The invariant: the memory is right, or the process has just started, and the file holds some of the
    first records. -/
structure BudgetProcess.Sound (w : BudgetProcess) : Prop where
  days : ∀ r ∈ w.recorded, r.day ≤ w.today
  file : ∀ f ∈ w.file, ∃ written day, written <+: w.recorded ∧ day ≤ w.today ∧
    f.HoldsAt monthOf written day
  memory : w.memory = {} ∧ StartsWith monthOf w.recorded w.today w.file ∨
    w.memory.RightAt monthOf w.recorded w.today

end Process

section Rolls

variable {monthOf : Int → Int} {recorded written : List RecordedUsage} {day d : Int} {m : Memory}

theorem dayUsage_eq_zero (h : ∀ r ∈ recorded, r.day ≤ d) (hlt : d < day) :
    dayUsage recorded day = 0 :=
  usageWhere_eq_zero fun r hr => decide_eq_false ((h r hr).trans_lt hlt).ne

theorem monthOf_ne (hmono : Monotone monthOf) (h : ∀ r ∈ recorded, r.day ≤ d)
    (hlt : monthOf d < monthOf day) : ∀ r ∈ recorded, monthOf r.day ≠ monthOf day :=
  fun r hr => ((hmono (h r hr)).trans_lt hlt).ne

theorem monthUsage_eq_zero (h : ∀ r ∈ recorded, monthOf r.day ≠ monthOf day) :
    monthUsage monthOf recorded (monthOf day) = 0 :=
  usageWhere_eq_zero fun r hr => decide_eq_false (h r hr)

theorem loadFromDisk_right {file : Option StateFile} {merge : Bool} (hday : m.stateDay = some day)
    (hmonth : m.stateMonth = some (monthOf day))
    (hnone : file = none → m.RightAt monthOf recorded day)
    (hfile : ∀ f ∈ file, ∃ written d, f.HoldsAt monthOf written d ∧
      (if d = day then take merge m.day (dayUsage written d) else m.day) = dayUsage recorded day ∧
      (if monthOf d = monthOf day then take merge m.month (monthUsage monthOf written (monthOf d))
        else m.month) = monthUsage monthOf recorded (monthOf day) ∧
      (m.monthWarnedSoft = true ∨ monthOf d = monthOf day ∧
        (f.monthSoftWarned = true ∨ f.softWarned = true) ↔
          SoftReached monthOf recorded (monthOf day))) :
    (loadFromDisk monthOf file day (monthOf day) merge m).RightAt monthOf recorded day := by
  cases file with
  | none => exact hnone rfl
  | some f =>
    obtain ⟨written, d, hf, hdaySum, hmonthSum, hwarned⟩ := hfile f rfl
    have hfileMonth : f.fileMonth monthOf = some (monthOf d) := by
      rw [StateFile.fileMonth, hf.ofMonth]
      rfl
    have hincoming : ∀ m' : Memory,
        f.monthIncoming merge m' = some (monthUsage monthOf written (monthOf d)) := by
      intro m'
      rw [StateFile.monthIncoming, hf.monthSum]
    by_cases hsameDay : d = day
    · subst hsameDay
      simp only [if_true, true_and] at hdaySum hmonthSum hwarned
      simp only [loadFromDisk, loadMonth, loadDay, hf.ofDay, hfileMonth, if_true, hincoming, hf.daySum]
      refine ⟨hday, hmonth, hdaySum, hmonthSum, ?_⟩
      rw [← hwarned]
      simp [or_assoc]
    · rw [if_neg hsameDay] at hdaySum
      have hother : ¬ f.day = some day := by
        rw [hf.ofDay]
        exact fun h => hsameDay (Option.some.inj h)
      by_cases hsameMonth : monthOf d = monthOf day
      · rw [if_pos hsameMonth] at hmonthSum
        simp only [loadFromDisk, loadMonth, loadDay, if_neg hother, hfileMonth, hsameMonth, if_true,
          hincoming]
        rw [hsameMonth] at hmonthSum
        refine ⟨hday, hmonth, hdaySum, hmonthSum, ?_⟩
        rw [← hwarned]
        simp [hsameMonth, or_assoc]
      · rw [if_neg hsameMonth] at hmonthSum
        have hotherMonth : ¬ (some (monthOf d) = some (monthOf day)) := fun h =>
          hsameMonth (Option.some.inj h)
        simp only [loadFromDisk, loadMonth, loadDay, if_neg hother, hfileMonth, if_neg hotherMonth]
        refine ⟨hday, hmonth, hdaySum, hmonthSum, ?_⟩
        rw [← hwarned]
        simp [hsameMonth]

variable {w : BudgetProcess}

theorem syncDiskIfNewer_right (hs : w.Sound monthOf)
    (hright : w.memory.RightAt monthOf w.recorded day)
    (hwarned : ∀ f ∈ w.file, Reads monthOf w.memory day f → f.month = some (monthOf day) →
      f.softWarned = true → f.monthSoftWarned = true ∨
        w.memory.stateMonth = some (monthOf day) ∧ w.memory.monthWarnedSoft = true) :
    (syncDiskIfNewer monthOf w.file day (monthOf day) w.memory).RightAt monthOf w.recorded day := by
  unfold syncDiskIfNewer
  cases hfile : w.file with
  | none => exact hright
  | some f =>
    dsimp only
    split
    · exact hright
    · rename_i hnewer
      have hreads : Reads monthOf w.memory day f := by
        refine Or.inr fun t ht => ?_
        rw [Option.mem_def.mp ht] at hnewer
        simpa using hnewer
      obtain ⟨written, d, hle, -, hholds⟩ := hs.file f hfile
      refine loadFromDisk_right hright.stateDay hright.stateMonth (fun h => by cases h) ?_
      intro f' hf'
      obtain rfl := Option.some.inj hf'
      refine ⟨written, d, hholds, ?_, ?_, ?_⟩
      · split
        · rename_i hsame
          rw [take, if_pos rfl, hright.daySum, hsame]
          exact sup_eq_left.mpr (usageWhere_le hle)
        · exact hright.daySum
      · split
        · rename_i hsame
          rw [take, if_pos rfl, hright.monthSum, hsame]
          exact sup_eq_left.mpr (usageWhere_le hle)
        · exact hright.monthSum
      · rw [hright.warned]
        refine ⟨fun h => ?_, Or.inl⟩
        rcases h with h | ⟨hsame, h | h⟩
        · exact h
        · exact hsame ▸ (hholds.warned.mp h).mono hle
        · rcases hwarned f hfile hreads (by rw [hholds.ofMonth, hsame]) h with h | ⟨-, h⟩
          · exact hsame ▸ (hholds.warned.mp h).mono hle
          · exact hright.warned.mp h

variable {call : BudgetCall}

theorem rollPeriod_right_start (hmono : Monotone monthOf) (hmemory : w.memory = {})
    (hstart : StartsWith monthOf w.recorded w.today w.file) (h : Undisturbed monthOf w call) :
    (rollPeriod monthOf w.file call.day w.memory).RightAt monthOf w.recorded call.day := by
  have hreset : rollPeriod monthOf w.file call.day w.memory =
      loadFromDisk monthOf w.file call.day (monthOf call.day) false
        { stateDay := some call.day, stateMonth := some (monthOf call.day) } := by
    rw [hmemory]
    rfl
  rw [hreset]
  refine loadFromDisk_right rfl rfl (fun hnone => ?_) (fun f hf => ?_)
  · rw [hstart.missing hnone]
    refine ⟨rfl, rfl, rfl, rfl, ?_⟩
    exact iff_of_false Bool.false_ne_true (not_softReached fun r hr => by cases hr)
  · obtain ⟨d, hd, hholds⟩ := hstart.holds f hf
    have hle : d ≤ call.day := hd.trans h.forward
    refine ⟨w.recorded, d, hholds, ?_, ?_, ?_⟩
    · split
      · rename_i hsame
        rw [hsame]
        rfl
      · rename_i hother
        exact (dayUsage_eq_zero hholds.last (lt_of_le_of_ne hle hother)).symm
    · split
      · rename_i hsame
        rw [hsame]
        rfl
      · rename_i hother
        have hlt := lt_of_le_of_ne (hmono hle) hother
        exact (monthUsage_eq_zero (monthOf_ne hmono hholds.last hlt)).symm
    · by_cases hsame : monthOf d = monthOf call.day
      · rw [← hsame, ← hholds.warned]
        have hread : Reads monthOf w.memory call.day f := by
          rw [hmemory]
          exact Or.inl fun h => by cases h.1
        have hflag := h.warned f hf hread (by rw [hholds.ofMonth, hsame])
        rw [hmemory] at hflag
        simp only [Bool.false_eq_true, false_or, true_and, and_false, or_false] at hflag ⊢
        exact ⟨fun h => h.elim id hflag, Or.inl⟩
      · have hlt := lt_of_le_of_ne (hmono hle) hsame
        refine iff_of_false ?_ (not_softReached (monthOf_ne hmono hholds.last hlt))
        simp [hsame]

/-- **A process that begins a new day** drops what is over, and finds the month in the file as it left
    it. -/
theorem rollPeriod_right_next (hmono : Monotone monthOf) (hs : w.Sound monthOf)
    (hright : w.memory.RightAt monthOf w.recorded w.today) (h : Undisturbed monthOf w call)
    (hlt : w.today < call.day) :
    (rollPeriod monthOf w.file call.day w.memory).RightAt monthOf w.recorded call.day := by
  have hnew : w.memory.stateDay ≠ some call.day := by
    rw [hright.stateDay]
    exact fun h => hlt.ne (Option.some.inj h)
  have hzero := dayUsage_eq_zero hs.days hlt
  have hread : ∀ f, Reads monthOf w.memory call.day f := fun f => Or.inl fun h => hnew h.1
  unfold rollPeriod
  rw [if_neg fun h => hnew h.1]
  by_cases hsame : w.memory.stateMonth = some (monthOf call.day)
  · have hmonth : monthOf w.today = monthOf call.day := Option.some.inj (hright.stateMonth ▸ hsame)
    have hmonthSum := hmonth ▸ hright.monthSum
    have hwarned := hmonth ▸ hright.warned
    have hreset : resetPeriod w.memory call.day (monthOf call.day) =
        { w.memory with day := 0, warnedSoft := false, stateDay := some call.day,
                        stateMonth := some (monthOf call.day) } := by
      simp only [resetPeriod, if_neg hnew, if_pos hsame]
    rw [hreset]
    refine loadFromDisk_right rfl rfl (fun _ => ⟨rfl, rfl, hzero.symm, hmonthSum, hwarned⟩) ?_
    intro f hf
    obtain ⟨written, d, hle, hd, hholds⟩ := hs.file f hf
    refine ⟨written, d, hholds, ?_, ?_, ?_⟩
    · rw [if_neg (hd.trans_lt hlt).ne]
      exact hzero.symm
    · split
      · rename_i hfileMonth
        have hkept := h.upToDate hsame hnew f hf (by rw [hholds.ofMonth, hfileMonth])
        rw [hholds.monthSum] at hkept
        exact (Option.some.inj hkept).trans hmonthSum
      · exact hmonthSum
    · have hfileWarned : monthOf d = monthOf call.day → f.monthSoftWarned = true →
          SoftReached monthOf w.recorded (monthOf call.day) :=
        fun hfileMonth hf' => hfileMonth ▸ (hholds.warned.mp hf').mono hle
      rw [hwarned]
      refine ⟨fun hor => ?_, Or.inl⟩
      rcases hor with hreached | ⟨hfileMonth, hmonthFlag | hdayFlag⟩
      · exact hreached
      · exact hfileWarned hfileMonth hmonthFlag
      · rcases h.warned f hf (hread f) (by rw [hholds.ofMonth, hfileMonth]) hdayFlag with hflag | hflag
        · exact hfileWarned hfileMonth hflag
        · exact hwarned.mp hflag.2
  · have hmonthLt : monthOf w.today < monthOf call.day := by
      refine lt_of_le_of_ne (hmono hlt.le) fun heq => hsame ?_
      rw [hright.stateMonth, heq]
    have hearlier := monthOf_ne hmono hs.days hmonthLt
    have hmonthZero := monthUsage_eq_zero hearlier
    have hnone := not_softReached hearlier
    have hreset : resetPeriod w.memory call.day (monthOf call.day) =
        { w.memory with day := 0, warnedSoft := false, month := 0, monthWarnedSoft := false,
                        stateDay := some call.day, stateMonth := some (monthOf call.day) } := by
      simp only [resetPeriod, if_neg hnew, if_neg hsame]
    rw [hreset]
    refine loadFromDisk_right rfl rfl (fun _ => ⟨rfl, rfl, hzero.symm, hmonthZero.symm,
      iff_of_false Bool.false_ne_true hnone⟩) ?_
    intro f hf
    obtain ⟨written, d, -, hd, hholds⟩ := hs.file f hf
    have hother : monthOf d ≠ monthOf call.day := ((hmono hd).trans_lt hmonthLt).ne
    refine ⟨written, d, hholds, ?_, ?_, ?_⟩
    · rw [if_neg (hd.trans_lt hlt).ne]
      exact hzero.symm
    · rw [if_neg hother]
      exact hmonthZero.symm
    · refine iff_of_false ?_ hnone
      simp [hother]

theorem rollPeriod_right (hmono : Monotone monthOf) (hs : w.Sound monthOf)
    (h : Undisturbed monthOf w call) :
    (rollPeriod monthOf w.file call.day w.memory).RightAt monthOf w.recorded call.day := by
  rcases hs.memory with ⟨hmemory, hstart⟩ | hright
  · exact rollPeriod_right_start hmono hmemory hstart h
  · rcases h.forward.lt_or_eq with hlt | heq
    · exact rollPeriod_right_next hmono hs hright h hlt
    · rw [heq] at hright
      unfold rollPeriod
      rw [if_pos ⟨hright.stateDay, hright.stateMonth⟩]
      exact syncDiskIfNewer_right hs hright h.warned

theorem Memory.RightAt.count (h : m.RightAt monthOf recorded day) (usage : Counters)
    (cfg : LlmSettings) :
    (countUsage cfg usage m).RightAt monthOf (recorded ++ [⟨day, usage, cfg⟩]) day := by
  have hdaySum : dayUsage (recorded ++ [⟨day, usage, cfg⟩]) day = m.day + usage := by
    rw [dayUsage, usageWhere_snoc, h.daySum]
    simp [dayUsage]
  have hmonthSum : monthUsage monthOf (recorded ++ [⟨day, usage, cfg⟩]) (monthOf day) =
      m.month + usage := by
    rw [monthUsage, usageWhere_snoc, h.monthSum]
    simp [monthUsage]
  refine ⟨h.stateDay, h.stateMonth, hdaySum.symm, hmonthSum.symm, ?_⟩
  rw [softReached_snoc, hmonthSum, ← h.warned]
  simp [countUsage, ReachesSoft]

/-! ## Runs -/

theorem BudgetProcess.Sound.save (hs : w.Sound monthOf)
    (hright : w.memory.RightAt monthOf w.recorded w.today) (write : Write) :
    (w.save monthOf w.today write).Sound monthOf ∧
      (w.save monthOf w.today write).memory.RightAt monthOf w.recorded w.today := by
  have hholds : ∀ mtime, (savedFile w.memory w.today (monthOf w.today) mtime).HoldsAt monthOf
      w.recorded w.today := fun mtime =>
    ⟨rfl, rfl, hright.daySum, congrArg some hright.monthSum, hright.warned, hs.days⟩
  have hfile : ∀ mtime, ∀ f ∈ some (savedFile w.memory w.today (monthOf w.today) mtime),
      ∃ written day, written <+: w.recorded ∧ day ≤ w.today ∧ f.HoldsAt monthOf written day := by
    intro mtime f hf
    obtain rfl := Option.some.inj hf
    exact ⟨w.recorded, w.today, List.prefix_rfl, le_refl _, hholds mtime⟩
  cases write with
  | done mtime =>
    have hkept : Memory.RightAt monthOf { w.memory with lastLoadedMtime := some mtime } w.recorded
        w.today := { hright with }
    exact ⟨⟨hs.days, hfile mtime, Or.inr hkept⟩, hkept⟩
  | unseen mtime => exact ⟨⟨hs.days, hfile mtime, Or.inr hright⟩, hright⟩
  | torn => exact ⟨⟨hs.days, (fun f hf => by cases hf), Or.inr hright⟩, hright⟩
  | refused => exact ⟨⟨hs.days, hs.file, Or.inr hright⟩, hright⟩

theorem BudgetProcess.Sound.roll (hmono : Monotone monthOf) (hs : w.Sound monthOf)
    (h : Undisturbed monthOf w call) :
    (w.roll monthOf call.day).Sound monthOf ∧
      (w.roll monthOf call.day).memory.RightAt monthOf w.recorded call.day := by
  have hright := rollPeriod_right hmono hs h
  refine ⟨⟨fun r hr => (hs.days r hr).trans h.forward, fun f hf => ?_, Or.inr hright⟩, hright⟩
  obtain ⟨written, d, hle, hd, hholds⟩ := hs.file f hf
  exact ⟨written, d, hle, hd.trans h.forward, hholds⟩

theorem BudgetProcess.Sound.count (hs : w.Sound monthOf)
    (hright : w.memory.RightAt monthOf w.recorded w.today) (usage : Counters) (cfg : LlmSettings) :
    (w.count ⟨w.today, usage, cfg⟩).Sound monthOf ∧
      (w.count ⟨w.today, usage, cfg⟩).memory.RightAt monthOf
        (w.recorded ++ [⟨w.today, usage, cfg⟩]) w.today := by
  have hcounted := hright.count usage cfg
  refine ⟨⟨fun r hr => ?_, fun f hf => ?_, Or.inr hcounted⟩, hcounted⟩
  · rcases List.mem_append.mp hr with hr | hr
    · exact hs.days r hr
    · rw [List.mem_singleton.mp hr]
      exact le_refl w.today
  · obtain ⟨written, d, hle, hd, hholds⟩ := hs.file f hf
    exact ⟨written, d, hle.trans (List.prefix_append _ _), hd, hholds⟩

/-- After an undisturbed call the memory is right about its day. -/
theorem BudgetProcess.Sound.step (hmono : Monotone monthOf) (hs : w.Sound monthOf)
    (h : Undisturbed monthOf w call) :
    (w.step monthOf call).Sound monthOf ∧
      (w.step monthOf call).memory.RightAt monthOf (w.step monthOf call).recorded call.day := by
  obtain ⟨hrolled, hright⟩ := hs.roll hmono h
  cases call with
  | snapshot day => exact ⟨hrolled, hright⟩
  | record cfg isLocal promptTokens completionTokens day write =>
    cases isLocal with
    | true => exact ⟨hrolled, hright⟩
    | false =>
      obtain ⟨hcounted, hcountedRight⟩ :=
        hrolled.count hright (usageOf promptTokens completionTokens) cfg
      obtain ⟨hsaved, hsavedRight⟩ := hcounted.save hcountedRight write
      cases write with
      | done mtime => exact ⟨hsaved, hsavedRight⟩
      | unseen mtime => exact ⟨hsaved, hsavedRight⟩
      | torn => exact ⟨hsaved, hsavedRight⟩
      | refused => exact ⟨hsaved, hsavedRight⟩

variable (monthOf) in
/-- **What the ledger is for**: after a call the counters are the sums of what was recorded on its day and
    in its month, and the month is warned exactly if a record of it reached the soft share. -/
def RightAfter (w : BudgetProcess) (call : BudgetCall) : Prop :=
  (w.step monthOf call).memory.RightAt monthOf (w.step monthOf call).recorded call.day

def startProcess (file : Option StateFile) (recorded : List RecordedUsage) (today : Int) :
    BudgetProcess :=
  { file, memory := {}, recorded, today }

/-- **The ledger is right after every call of an undisturbed run**, from a file that holds all that was
    recorded before, or none. -/
theorem right_of_undisturbed {file : Option StateFile} {recorded : List RecordedUsage} {today : Int}
    {calls : List BudgetCall} (hmono : Monotone monthOf)
    (hdays : ∀ r ∈ recorded, r.day ≤ today) (hstart : StartsWith monthOf recorded today file)
    (hcalls : StepsMeet (BudgetProcess.step monthOf) (Undisturbed monthOf)
      (startProcess file recorded today) calls) :
    StepsMeet (BudgetProcess.step monthOf) (RightAfter monthOf) (startProcess file recorded today)
      calls := by
  have hsound : (startProcess file recorded today).Sound monthOf := by
    refine ⟨hdays, fun f hf => ?_, Or.inl ⟨rfl, hstart⟩⟩
    obtain ⟨d, hd, hholds⟩ := hstart.holds f hf
    exact ⟨recorded, d, List.prefix_rfl, hd, hholds⟩
  exact hcalls.gives (fun w call hs h => hs.step hmono h) hsound

end Rolls

section Samples

theorem thirtyDays_monotone : Monotone thirtyDays := fun _ _ h => Int.ediv_le_ediv (by decide) h

/-- A dollar for each million tokens that are read, a warning at half of the month's two dollars, and a
    daily budget of a million tokens. -/
def twoDollars : LlmSettings :=
  { monthlyAudBudget := 2, dailyTokenBudget := 1000000, inputUsdPerMtok := 1, softLimitPct := 1 / 2 }

def quietCalls : List BudgetCall :=
  [.record twoDollars false 400000 10 3 (.done 1), .snapshot 4,
    .record twoDollars false 700000 20 4 .refused, .snapshot 4, .snapshot 31]

theorem right_of_undisturbed_quiet :
    StepsMeet (BudgetProcess.step thirtyDays) (RightAfter thirtyDays) (startProcess none [] 3)
      quietCalls := by
  have hcalls : StepsMeet (BudgetProcess.step thirtyDays) (Undisturbed thirtyDays)
      (startProcess none [] 3) quietCalls := by
    decide +kernel
  exact right_of_undisturbed thirtyDays_monotone (fun r hr => by cases hr)
    ⟨fun _ => rfl, fun f hf => by cases hf⟩ hcalls

def unwrittenCalls : List BudgetCall :=
  [.record {} false 100 10 3 (.done 1), .record {} false 200 20 3 .refused, .snapshot 4]

def warnedDayCalls : List BudgetCall :=
  [.record twoDollars false 600000 10 3 (.done 1), .snapshot 4]

/-- **A record that is not written is forgotten on the next day**, and a warned day leaves its month
    warned. -/
theorem unwritten_record_forgotten :
    (StepsMeet (BudgetProcess.step thirtyDays) Forward (startProcess none [] 3) unwrittenCalls ∧
      ¬ StepsMeet (BudgetProcess.step thirtyDays) (RightAfter thirtyDays) (startProcess none [] 3)
        unwrittenCalls) ∧
    (StepsMeet (BudgetProcess.step thirtyDays) Forward (startProcess none [] 3) warnedDayCalls ∧
      ¬ StepsMeet (BudgetProcess.step thirtyDays) (RightAfter thirtyDays) (startProcess none [] 3)
        warnedDayCalls) := by
  refine ⟨⟨by decide +kernel, fun h => ?_⟩, ⟨by decide +kernel, fun h => ?_⟩⟩
  · have hmonth := h.2.2.1.monthSum
    have hcalls := congrFun hmonth .calls
    revert hcalls
    decide +kernel
  · have hflag := h.2.1.warned.mp (by decide +kernel)
    have hone : SoftReached thirtyDays ([] ++ [⟨3, usageOf 600000 10, twoDollars⟩]) 0 := hflag
    rw [softReached_snoc] at hone
    rcases hone with hnone | ⟨-, hreach⟩
    · exact not_softReached (fun r hr => by cases hr) hnone
    · revert hreach
      decide +kernel

end Samples

end Investor.Services
