import Investor.Core.Runtime
import Investor.Lib.Group
import Investor.Market.Calendar
import Mathlib.Data.Prod.Lex

/-!
# Which jobs a dispatch tick runs

A tick of the scheduler takes the first 50 planned jobs by their time, keeps those that are due,
coalesces the intraday evaluations (the latest of each venue, none beside a closing job of its
venue), cuts the rest to 20 and only then puts the jobs of a live tape in front. What it passes
over stays planned, what it coalesces is marked as skipped.

Both cuts count from the oldest job, whichever venue it is of, and the first one counts the
evaluations that coalescing would drop. So a tick keeps its promises (`LawfulTick`) as long as
the due jobs fit into the cuts, and `lawfulTick_iff` says which of the waiting jobs matter.
-/

namespace Investor.Core.DueJobs

open Lib Market

/-! ## The due jobs of a table -/

section Table

abbrev JobTable := KeyedTable ScheduledJob.id

/-- The candidate query and the due filter. Rows planned for one time come as they stand. -/
def dueCandidates (now : Int) (t : JobTable) : List ScheduledJob :=
  ((sortedBy (·.plannedAt) (t.rows.filter fun j => j.status = "planned")).take 50).filter
    fun j => j.plannedAt ≤ now

def dueInOrder (now : Int) (t : JobTable) : List ScheduledJob :=
  sortedBy (·.plannedAt) (t.rows.filter fun j => j.status = "planned" ∧ j.plannedAt ≤ now)

def seen (now : Int) (t : JobTable) : List ScheduledJob := (dueInOrder now t).take 50

def unseen (now : Int) (t : JobTable) : List ScheduledJob := (dueInOrder now t).drop 50

def skipJob (error : String) (completedAt : Int) (job : ScheduledJob) : ScheduledJob :=
  { job with status := "skipped", error := some error, completedAt := some completedAt }

variable {now : Int} {t : JobTable} {j : ScheduledJob}

theorem mem_dueInOrder :
    j ∈ dueInOrder now t ↔ j ∈ t.rows ∧ j.status = "planned" ∧ j.plannedAt ≤ now := by
  unfold dueInOrder
  rw [(sortedBy_perm _ _).mem_iff, List.mem_filter, decide_eq_true_eq]

theorem nodup_dueInOrder : (dueInOrder now t).Nodup :=
  (sortedBy_perm _ _).nodup_iff.mpr ((List.Nodup.of_map _ t.unique).filter _)

theorem dueCandidates_eq : dueCandidates now t = seen now t := by
  unfold dueCandidates seen dueInOrder
  rw [filter_take_of_pairwise (pairwise_sortedBy _ _), sortedBy_filter, List.filter_filter]
  refine congrArg (List.take 50) (congrArg _ (List.filter_congr fun k _ => ?_))
  rw [Bool.decide_and, Bool.and_comm]

theorem mem_of_mem_seen (h : j ∈ seen now t) : j ∈ dueInOrder now t := List.mem_of_mem_take h

theorem mem_of_mem_unseen (h : j ∈ unseen now t) : j ∈ dueInOrder now t := List.mem_of_mem_drop h

theorem seen_or_unseen (h : j ∈ dueInOrder now t) : j ∈ seen now t ∨ j ∈ unseen now t := by
  rw [← List.take_append_drop 50 (dueInOrder now t)] at h
  exact List.mem_append.mp h

theorem not_seen_of_unseen (h : j ∈ unseen now t) : j ∉ seen now t := fun hseen =>
  List.disjoint_take_drop nodup_dueInOrder le_rfl hseen h

theorem eq_of_id_eq {k : ScheduledJob} (h : j ∈ dueInOrder now t) (h' : k ∈ dueInOrder now t)
    (hid : j.id = k.id) : j = k :=
  t.eq_of_key_eq (mem_dueInOrder.mp h).1 (mem_dueInOrder.mp h').1 hid

theorem mem_map_id {js : List ScheduledJob} (hjs : ∀ k ∈ js, k ∈ dueInOrder now t)
    (h : j ∈ dueInOrder now t) : j.id ∈ js.map (·.id) ↔ j ∈ js := by
  constructor
  · intro hid
    obtain ⟨k, hk, hkid⟩ := List.mem_map.mp hid
    exact eq_of_id_eq (hjs k hk) h hkid ▸ hk
  · exact List.mem_map_of_mem

theorem nodup_seen : (seen now t).Nodup := nodup_dueInOrder.sublist (List.take_sublist _ _)

theorem skipJob_ne (h : j ∈ dueInOrder now t) (error : String) (completedAt : Int) :
    skipJob error completedAt j ≠ j := fun heq => by
  have hstatus : "skipped" = j.status := congrArg ScheduledJob.status heq
  rw [(mem_dueInOrder.mp h).2.1] at hstatus
  exact absurd hstatus (by decide)

end Table

section Ticks

variable [Casing]

/-! ## Job keys -/

/-- The venue of `parse_scoped_job_key`. -/
def jobVenue (job : ScheduledJob) : Venue :=
  let head := job.jobKey.toList.takeWhile (· ≠ ':')
  match job.jobKey.toList.drop head.length with
  | _ :: _ => if Casing.upper (String.ofList head) = "AU" then .au else .us
  | [] => .us

def isIntradayEval (job : ScheduledJob) : Bool := hasPrefix (jobKeyBase job.jobKey) "intraday_eval"

def isClosing (job : ScheduledJob) : Bool := jobKeyBase job.jobKey ∈ ["closing_window", "force_close"]

/-! ## Coalescing -/

structure Coalesced where
  kept : List ScheduledJob
  stale : List ScheduledJob
  afterClosing : List ScheduledJob

/-- `max(jobs, key=lambda j: j.planned_at)`: the first of the latest. -/
def latest (jobs : List ScheduledJob) : Option ScheduledJob :=
  @List.argmax _ _ Int.instLinearOrder.toPartialOrder.toPreorder _ (·.plannedAt) jobs

/-- `_coalesce_due_jobs`. -/
def coalesceDueJobs (due : List ScheduledJob) : Coalesced :=
  let other := due.filter fun j => !isIntradayEval j
  let byVenue := groupsBy jobVenue (due.filter isIntradayEval)
  let keepIntra := byVenue.filterMap fun g => latest g.2
  let closingVenues := (other.filter isClosing).map jobVenue
  { kept := sortedBy (·.plannedAt)
      (other ++ keepIntra.filter fun j => jobVenue j ∉ closingVenues)
    stale := byVenue.flatMap fun g => g.2.filter fun j => (latest g.2).all fun k => j.id ≠ k.id
    afterClosing := keepIntra.filter fun j => jobVenue j ∈ closingVenues }

def markSkipped (c : Coalesced) (clock : ScheduledJob → Int) (job : ScheduledJob) : ScheduledJob :=
  if job.id ∈ c.stale.map (·.id) then skipJob "coalesced_stale_intraday" (clock job) job
  else if job.id ∈ c.afterClosing.map (·.id) then skipJob "skipped_after_closing" (clock job) job
  else job

/-! ## The selection -/

def Live (cal : Venue → MarketCalendar) (now : Int) (job : ScheduledJob) : Bool :=
  ((cal (jobVenue job)).getMarketStatus now).phase ∈
    [.regular, .forceCloseWindow, .closingWindow]

def rank (cal : Venue → MarketCalendar) (now : Int) (job : ScheduledJob) : ℕ :=
  if Live cal now job then 0 else if isIntradayEval job then 2 else 1

/-- `_prioritize_open_venue_jobs`. -/
def prioritizeOpenVenueJobs (cal : Venue → MarketCalendar) (now : Int)
    (due : List ScheduledJob) : List ScheduledJob :=
  sortedBy (fun j => toLex (rank cal now j, j.plannedAt)) due

/-- What a tick runs, in order, and the table when it begins to. -/
structure Selection where
  run : List ScheduledJob
  jobs : JobTable

/-- The selection of `_dispatch_due_jobs`. -/
def selectDueJobs (cal : Venue → MarketCalendar) (clock : ScheduledJob → Int) (now : Int)
    (t : JobTable) : Selection :=
  let c := coalesceDueJobs (dueCandidates now t)
  { run := prioritizeOpenVenueJobs cal now (c.kept.take 20)
    jobs := t.update (markSkipped c clock) fun j => by
      unfold markSkipped
      split
      · rfl
      · split <;> rfl }

/-! ## What a tick promises -/

def SameEval (j j' : ScheduledJob) : Prop :=
  isIntradayEval j = true ∧ isIntradayEval j' = true ∧ jobVenue j = jobVenue j'

/-- What makes an evaluation needless: a newer one or a closing job of its venue. -/
def Supersedes (j' j : ScheduledJob) : Prop :=
  (SameEval j j' ∧ j.plannedAt < j'.plannedAt) ∨
    (isClosing j' = true ∧ jobVenue j' = jobVenue j)

/-- The laws of one tick, over the due jobs of the table. -/
structure LawfulTick (cal : Venue → MarketCalendar) (clock : ScheduledJob → Int) (now : Int)
    (t : JobTable) (s : Selection) : Prop where
  /-- Due jobs run, each at most once. -/
  runs : s.run.Nodup ∧ ∀ j ∈ s.run, j ∈ dueInOrder now t
  /-- A due job of a live venue that is not skipped runs before every job of a closed one. -/
  liveFirst : ∀ j ∈ dueInOrder now t, Live cal now j = true → s.jobs.find? j.id = some j →
    ∀ c ∈ s.run, Live cal now c = false → [j, c].Sublist s.run
  /-- A due closing window of a live venue runs. -/
  closingRuns : ∀ j ∈ dueInOrder now t, Live cal now j = true →
    jobKeyBase j.jobKey = "closing_window" → j ∈ s.run
  /-- A due job is selected, left as it is, or skipped. -/
  accounted : ∀ j ∈ dueInOrder now t,
    (j ∈ s.run ∧ s.jobs.find? j.id = some j) ∨ (j ∉ s.run ∧ s.jobs.find? j.id = some j) ∨
      (j ∉ s.run ∧ ∃ error, s.jobs.find? j.id = some (skipJob error (clock j) j))
  /-- At most one evaluation of a venue runs, -/
  oneEval : ∀ e ∈ s.run, ∀ e' ∈ s.run, SameEval e e' → e = e'
  /-- the latest that is due. -/
  latestEval : ∀ e ∈ s.run, ∀ e' ∈ dueInOrder now t, SameEval e e' → e'.plannedAt ≤ e.plannedAt
  /-- Only superseded evaluations are skipped. -/
  skips : ∀ j ∈ dueInOrder now t, s.jobs.find? j.id ≠ some j →
    isIntradayEval j = true ∧ ∃ k ∈ dueInOrder now t, Supersedes k j

/-- The jobs that fit into a tick, and those that are left for the next one. -/
def fitting (now : Int) (t : JobTable) : List ScheduledJob :=
  (coalesceDueJobs (seen now t)).kept.take 20

def waiting (now : Int) (t : JobTable) : List ScheduledJob :=
  unseen now t ++ (coalesceDueJobs (seen now t)).kept.drop 20

structure FitsTick (cal : Venue → MarketCalendar) (now : Int) (t : JobTable) : Prop where
  /-- A job of a live venue that has to wait is no closing window, and waits for live ones. -/
  live : ∀ j ∈ waiting now t, Live cal now j = true →
    jobKeyBase j.jobKey ≠ "closing_window" ∧ ∀ c ∈ fitting now t, Live cal now c = true
  /-- No newer evaluation of the venue is out of sight. -/
  newest : ∀ e ∈ fitting now t, ∀ e' ∈ unseen now t, SameEval e e' → e'.plannedAt ≤ e.plannedAt
  /-- Two evaluations planned for one time are superseded. -/
  ties : ∀ j ∈ seen now t, ∀ j' ∈ seen now t, SameEval j j' → j ≠ j' →
    j.plannedAt = j'.plannedAt → ∃ k ∈ dueInOrder now t, Supersedes k j

/-! ## What coalescing keeps -/

def venueEvals (due : List ScheduledJob) (job : ScheduledJob) : List ScheduledJob :=
  (due.filter isIntradayEval).filter fun k => jobVenue k = jobVenue job

def Keeps (due : List ScheduledJob) (job : ScheduledJob) : Prop :=
  latest (venueEvals due job) = some job

def Closes (due : List ScheduledJob) (job : ScheduledJob) : Prop :=
  ∃ c ∈ due, isClosing c = true ∧ jobVenue c = jobVenue job

variable {cal : Venue → MarketCalendar} {clock : ScheduledJob → Int} {now : Int} {t : JobTable}
  {due : List ScheduledJob} {j : ScheduledJob}

theorem mem_venueEvals {k : ScheduledJob} :
    k ∈ venueEvals due j ↔ k ∈ due ∧ isIntradayEval k = true ∧ jobVenue k = jobVenue j := by
  unfold venueEvals
  rw [List.mem_filter, List.mem_filter, decide_eq_true_eq, and_assoc]

theorem not_eval_of_closing (h : isClosing j = true) : isIntradayEval j = false := by
  have hbase : jobKeyBase j.jobKey = "closing_window" ∨ jobKeyBase j.jobKey = "force_close" := by
    simpa [isClosing] using h
  unfold isIntradayEval
  rcases hbase with hbase | hbase <;> rw [hbase] <;> decide

theorem mem_evalGroups {g : Venue × List ScheduledJob} :
    g ∈ groupsBy jobVenue (due.filter isIntradayEval) ↔
      ∃ k ∈ due, isIntradayEval k = true ∧ g = (jobVenue k, venueEvals due k) := by
  rw [groupsBy_eq, List.mem_map]
  constructor
  · rintro ⟨v, hv, rfl⟩
    obtain ⟨k, hk, rfl⟩ := mem_groupKeys.mp hv
    obtain ⟨hdue, heval⟩ := List.mem_filter.mp hk
    exact ⟨k, hdue, heval, rfl⟩
  · rintro ⟨k, hdue, heval, rfl⟩
    exact ⟨jobVenue k, mem_groupKeys.mpr ⟨k, List.mem_filter.mpr ⟨hdue, heval⟩, rfl⟩, rfl⟩

theorem venueEvals_congr {k : ScheduledJob} (h : jobVenue k = jobVenue j) :
    venueEvals due k = venueEvals due j := by
  unfold venueEvals
  rw [h]

theorem mem_keepIntra :
    j ∈ (groupsBy jobVenue (due.filter isIntradayEval)).filterMap (fun g => latest g.2) ↔
      j ∈ due ∧ isIntradayEval j = true ∧ Keeps due j := by
  rw [List.mem_filterMap]
  constructor
  · rintro ⟨g, hg, hlatest⟩
    obtain ⟨k, -, -, rfl⟩ := mem_evalGroups.mp hg
    obtain ⟨hdue, heval, hvenue⟩ := mem_venueEvals.mp (List.argmax_mem hlatest)
    refine ⟨hdue, heval, ?_⟩
    unfold Keeps
    rw [venueEvals_congr hvenue]
    exact hlatest
  · rintro ⟨hdue, heval, hkeeps⟩
    exact ⟨(jobVenue j, venueEvals due j), mem_evalGroups.mpr ⟨j, hdue, heval, rfl⟩, hkeeps⟩

theorem mem_stale :
    j ∈ (coalesceDueJobs due).stale ↔
      j ∈ due ∧ isIntradayEval j = true ∧
        ∀ k, latest (venueEvals due j) = some k → j.id ≠ k.id := by
  have hall : ∀ o : Option ScheduledJob, o.all (fun k => decide (j.id ≠ k.id)) = true ↔
      ∀ k, o = some k → j.id ≠ k.id := by
    intro o
    cases o <;> simp
  unfold coalesceDueJobs
  dsimp only
  rw [List.mem_flatMap]
  constructor
  · rintro ⟨g, hg, hmem⟩
    obtain ⟨k, -, -, rfl⟩ := mem_evalGroups.mp hg
    obtain ⟨hj, hold⟩ := List.mem_filter.mp hmem
    obtain ⟨hdue, heval, hvenue⟩ := mem_venueEvals.mp hj
    rw [venueEvals_congr hvenue]
    exact ⟨hdue, heval, (hall _).mp hold⟩
  · rintro ⟨hdue, heval, hold⟩
    refine ⟨(jobVenue j, venueEvals due j), mem_evalGroups.mpr ⟨j, hdue, heval, rfl⟩, ?_⟩
    exact List.mem_filter.mpr ⟨mem_venueEvals.mpr ⟨hdue, heval, rfl⟩, (hall _).mpr hold⟩

theorem mem_closingVenues {v : Venue} :
    v ∈ ((due.filter fun k => !isIntradayEval k).filter isClosing).map jobVenue ↔
      ∃ c ∈ due, isClosing c = true ∧ jobVenue c = v := by
  rw [List.mem_map]
  constructor
  · rintro ⟨c, hc, rfl⟩
    obtain ⟨hother, hclosing⟩ := List.mem_filter.mp hc
    exact ⟨c, (List.mem_filter.mp hother).1, hclosing, rfl⟩
  · rintro ⟨c, hc, hclosing, rfl⟩
    refine ⟨c, List.mem_filter.mpr ⟨List.mem_filter.mpr ⟨hc, ?_⟩, hclosing⟩, rfl⟩
    rw [not_eval_of_closing hclosing]
    rfl

theorem mem_kept :
    j ∈ (coalesceDueJobs due).kept ↔
      j ∈ due ∧ (isIntradayEval j = true → Keeps due j ∧ ¬ Closes due j) := by
  unfold coalesceDueJobs
  dsimp only
  rw [(sortedBy_perm _ _).mem_iff, List.mem_append, List.mem_filter, List.mem_filter,
    decide_eq_true_eq, mem_closingVenues, mem_keepIntra]
  cases heval : isIntradayEval j <;> simp [Closes, and_assoc]

theorem mem_afterClosing :
    j ∈ (coalesceDueJobs due).afterClosing ↔
      j ∈ due ∧ isIntradayEval j = true ∧ Keeps due j ∧ Closes due j := by
  unfold coalesceDueJobs
  dsimp only
  rw [List.mem_filter, decide_eq_true_eq, mem_closingVenues, mem_keepIntra]
  simp only [Closes, and_assoc]

theorem exists_latest (hdue : j ∈ due) (heval : isIntradayEval j = true) :
    ∃ k, latest (venueEvals due j) = some k ∧ k ∈ venueEvals due j := by
  cases hlatest : latest (venueEvals due j) with
  | none =>
    have hmem : j ∈ venueEvals due j := mem_venueEvals.mpr ⟨hdue, heval, rfl⟩
    rw [List.argmax_eq_none.mp hlatest] at hmem
    cases hmem
  | some k => exact ⟨k, rfl, List.argmax_mem hlatest⟩

theorem nodup_keepIntra :
    ((groupsBy jobVenue (due.filter isIntradayEval)).filterMap
      fun g => latest g.2).Nodup := by
  refine List.Nodup.of_map jobVenue ?_
  rw [List.map_filterMap]
  have hvenues : (groupsBy jobVenue (due.filter isIntradayEval)).filterMap
      (fun g => (latest g.2).map jobVenue) =
        (groupsBy jobVenue (due.filter isIntradayEval)).filterMap fun g => some g.1 := by
    refine List.filterMap_congr fun g hg => ?_
    obtain ⟨k, hdue, heval, rfl⟩ := mem_evalGroups.mp hg
    obtain ⟨m, hlatest, hm⟩ := exists_latest hdue heval
    rw [hlatest, Option.map_some, (mem_venueEvals.mp hm).2.2]
  rw [hvenues, List.filterMap_eq_map']
  exact nodup_groupKeys jobVenue _

theorem nodup_kept (h : due.Nodup) : (coalesceDueJobs due).kept.Nodup := by
  unfold coalesceDueJobs
  dsimp only
  rw [(sortedBy_perm _ _).nodup_iff, List.nodup_append]
  refine ⟨h.filter _, nodup_keepIntra.filter _, ?_⟩
  rintro a ha _ hb rfl
  have heval := (mem_keepIntra.mp (List.mem_filter.mp hb).1).2.1
  simp [heval] at ha

theorem mem_stale_seen :
    j ∈ (coalesceDueJobs (seen now t)).stale ↔
      j ∈ seen now t ∧ isIntradayEval j = true ∧ ¬ Keeps (seen now t) j := by
  rw [mem_stale]
  refine and_congr_right fun hseen => and_congr_right fun heval => ?_
  obtain ⟨k, hk, hmem⟩ := exists_latest hseen heval
  unfold Keeps
  rw [hk]
  constructor
  · rintro hne ⟨⟩
    exact hne j rfl rfl
  · rintro hne _ ⟨⟩ hid
    exact hne (congrArg some (eq_of_id_eq (mem_of_mem_seen hseen)
      (mem_of_mem_seen (mem_venueEvals.mp hmem).1) hid).symm)

/-! ## One tick -/

theorem mem_run :
    j ∈ (selectDueJobs cal clock now t).run ↔ j ∈ fitting now t := by
  unfold selectDueJobs prioritizeOpenVenueJobs
  dsimp only
  rw [(sortedBy_perm _ _).mem_iff, dueCandidates_eq]
  rfl

theorem find?_selectDueJobs (h : j ∈ dueInOrder now t) :
    (selectDueJobs cal clock now t).jobs.find? j.id =
      some (markSkipped (coalesceDueJobs (seen now t)) clock j) := by
  unfold selectDueJobs
  dsimp only
  rw [KeyedTable.find?_update, KeyedTable.find?_eq_some_iff.mpr ⟨(mem_dueInOrder.mp h).1, rfl⟩,
    dueCandidates_eq]
  rfl

theorem markSkipped_cases (h : j ∈ dueInOrder now t) :
    (markSkipped (coalesceDueJobs (seen now t)) clock j = j ∧
      (j ∈ (coalesceDueJobs (seen now t)).kept ∨ j ∈ unseen now t)) ∨
    ((∃ error, markSkipped (coalesceDueJobs (seen now t)) clock j = skipJob error (clock j) j) ∧
      j ∈ seen now t ∧ isIntradayEval j = true ∧
        (¬ Keeps (seen now t) j ∨ Closes (seen now t) j)) := by
  have hids : ∀ {k}, k ∈ seen now t → k ∈ dueInOrder now t := mem_of_mem_seen
  have hstaleId := mem_map_id (fun k hk => hids (mem_stale_seen.mp hk).1) h
  have hafterId := mem_map_id (fun k hk => hids (mem_afterClosing.mp hk).1) h
  unfold markSkipped
  by_cases hstale : j ∈ (coalesceDueJobs (seen now t)).stale
  · obtain ⟨hseen, heval, hkeeps⟩ := mem_stale_seen.mp hstale
    rw [if_pos (hstaleId.mpr hstale)]
    exact Or.inr ⟨⟨_, rfl⟩, hseen, heval, Or.inl hkeeps⟩
  rw [if_neg (hstaleId.not.mpr hstale)]
  by_cases hafter : j ∈ (coalesceDueJobs (seen now t)).afterClosing
  · obtain ⟨hseen, heval, -, hcloses⟩ := mem_afterClosing.mp hafter
    rw [if_pos (hafterId.mpr hafter)]
    exact Or.inr ⟨⟨_, rfl⟩, hseen, heval, Or.inr hcloses⟩
  rw [if_neg (hafterId.not.mpr hafter)]
  refine Or.inl ⟨rfl, (seen_or_unseen h).imp_left fun hseen =>
    mem_kept.mpr ⟨hseen, fun heval => ?_⟩⟩
  have hkeeps : Keeps (seen now t) j := by
    by_contra hnot
    exact hstale (mem_stale_seen.mpr ⟨hseen, heval, hnot⟩)
  exact ⟨hkeeps, fun hcloses => hafter (mem_afterClosing.mpr ⟨hseen, heval, hkeeps, hcloses⟩)⟩

theorem find?_eq_self_iff (h : j ∈ dueInOrder now t) :
    (selectDueJobs cal clock now t).jobs.find? j.id = some j ↔
      j ∈ (coalesceDueJobs (seen now t)).kept ∨ j ∈ unseen now t := by
  rw [find?_selectDueJobs h]
  rcases markSkipped_cases h with ⟨heq, hleft⟩ | ⟨⟨error, heq⟩, hseen, heval, hout⟩
  · rw [heq]
    exact iff_of_true rfl hleft
  · rw [heq]
    refine iff_of_false (fun hsame => skipJob_ne h _ _ (Option.some.inj hsame)) ?_
    rintro (hkept | hunseen)
    · obtain ⟨hkeeps, hcloses⟩ := (mem_kept.mp hkept).2 heval
      exact hout.elim (fun hnot => hnot hkeeps) hcloses
    · exact not_seen_of_unseen hunseen hseen

theorem mem_seen_of_fitting (h : j ∈ fitting now t) : j ∈ seen now t :=
  (mem_kept.mp (List.mem_of_mem_take h)).1

theorem waiting_spec (h : j ∈ waiting now t) :
    j ∈ dueInOrder now t ∧ j ∉ fitting now t ∧
      (j ∈ (coalesceDueJobs (seen now t)).kept ∨ j ∈ unseen now t) := by
  have hnodup : (seen now t).Nodup := nodup_dueInOrder.sublist (List.take_sublist _ _)
  rcases List.mem_append.mp h with hunseen | hcut
  · exact ⟨mem_of_mem_unseen hunseen, fun hfits => not_seen_of_unseen hunseen
      (mem_seen_of_fitting hfits), Or.inr hunseen⟩
  · have hkept : j ∈ (coalesceDueJobs (seen now t)).kept := List.mem_of_mem_drop hcut
    exact ⟨mem_of_mem_seen (mem_kept.mp hkept).1,
      fun hfits => List.disjoint_take_drop (nodup_kept hnodup) le_rfl hfits hcut, Or.inl hkept⟩

theorem fitting_or_waiting (h : j ∈ (coalesceDueJobs (seen now t)).kept ∨ j ∈ unseen now t) :
    j ∈ fitting now t ∨ j ∈ waiting now t := by
  rcases h with hkept | hunseen
  · rw [← List.take_append_drop 20 (coalesceDueJobs (seen now t)).kept] at hkept
    exact (List.mem_append.mp hkept).imp_right fun hcut => List.mem_append_right _ hcut
  · exact Or.inr (List.mem_append_left _ hunseen)

theorem live_before_closed {c : ScheduledJob} (hj : j ∈ fitting now t) (hc : c ∈ fitting now t)
    (hlive : Live cal now j = true) (hclosed : Live cal now c = false) :
    [j, c].Sublist (selectDueJobs cal clock now t).run := by
  have hj' : j ∈ (selectDueJobs cal clock now t).run := mem_run.mpr hj
  have hc' : c ∈ (selectDueJobs cal clock now t).run := mem_run.mpr hc
  refine sublist_of_pairwise (pairwise_sortedBy _ _) hj' hc' ?_
  refine Prod.Lex.toLex_lt_toLex.mpr (Or.inl ?_)
  unfold rank
  rw [if_pos hlive, hclosed]
  split
  · exact absurd ‹_› Bool.false_ne_true
  · split
    · exact Nat.zero_lt_two
    · exact Nat.zero_lt_one

theorem nodup_run : (selectDueJobs cal clock now t).run.Nodup := by
  unfold selectDueJobs prioritizeOpenVenueJobs
  dsimp only
  rw [(sortedBy_perm _ _).nodup_iff, dueCandidates_eq]
  exact (nodup_kept nodup_seen).sublist (List.take_sublist _ _)

theorem find?_ne_of_not_keeps (hseen : j ∈ seen now t) (heval : isIntradayEval j = true)
    (hnot : ¬ Keeps (seen now t) j) :
    (selectDueJobs cal clock now t).jobs.find? j.id ≠ some j := by
  rw [Ne, find?_eq_self_iff (mem_of_mem_seen hseen)]
  rintro (hkept | hunseen)
  · exact hnot ((mem_kept.mp hkept).2 heval).1
  · exact not_seen_of_unseen hunseen hseen

theorem eq_of_keeps {j' : ScheduledJob} (hsame : SameEval j j') (h : Keeps due j)
    (h' : Keeps due j') : j = j' := by
  unfold Keeps at h h'
  rw [venueEvals_congr hsame.2.2] at h
  exact Option.some.inj (h.symm.trans h')

theorem Supersedes.of_tie {j' k : ScheduledJob} (h : Supersedes k j') (hsame : SameEval j j')
    (htie : j.plannedAt = j'.plannedAt) : Supersedes k j := by
  rcases h with ⟨hnewer, hlt⟩ | ⟨hclosing, hvenue⟩
  · exact Or.inl ⟨⟨hsame.1, hnewer.2.1, hsame.2.2.trans hnewer.2.2⟩, htie ▸ hlt⟩
  · exact Or.inr ⟨hclosing, hvenue.trans hsame.2.2.symm⟩

/-- A lawful selection shows that nothing better waits. -/
theorem fits_of_lawful (h : LawfulTick cal clock now t (selectDueJobs cal clock now t)) :
    FitsTick cal now t := by
  refine ⟨fun j hwaits hlive => ?_, fun e he e' he' hsame => ?_, fun j hj j' hj' hsame hne htie => ?_⟩
  · obtain ⟨hdue, hnot, hleft⟩ := waiting_spec hwaits
    have hidle : j ∉ (selectDueJobs cal clock now t).run := fun hrun => hnot (mem_run.mp hrun)
    refine ⟨fun hbase => hidle (h.closingRuns j hdue hlive hbase), fun c hc => ?_⟩
    by_contra hclosed
    have hbefore := h.liveFirst j hdue hlive ((find?_eq_self_iff hdue).mpr hleft) c
      (mem_run.mpr hc) (Bool.eq_false_iff.mpr hclosed)
    exact hidle (hbefore.subset List.mem_cons_self)
  · exact h.latestEval e (mem_run.mpr he) e' (mem_of_mem_unseen he') hsame
  · -- the venue keeps one of the two at most, and what supersedes the other supersedes both
    by_cases hkeeps : Keeps (seen now t) j
    · have hnot : ¬ Keeps (seen now t) j' := fun hkeeps' => hne (eq_of_keeps hsame hkeeps hkeeps')
      obtain ⟨-, k, hk, hsup⟩ := h.skips j' (mem_of_mem_seen hj')
        (find?_ne_of_not_keeps hj' hsame.2.1 hnot)
      exact ⟨k, hk, hsup.of_tie hsame htie⟩
    · exact (h.skips j (mem_of_mem_seen hj) (find?_ne_of_not_keeps hj hsame.1 hkeeps)).2

/-- Where nothing better waits behind the cuts, the selection is lawful. -/
theorem lawful_of_fits (h : FitsTick cal now t) :
    LawfulTick cal clock now t (selectDueJobs cal clock now t) where
  runs := ⟨nodup_run, fun j hj => mem_of_mem_seen (mem_seen_of_fitting (mem_run.mp hj))⟩
  liveFirst j hdue hlive hleft c hc hclosed := by
    have hcfits : c ∈ fitting now t := mem_run.mp hc
    rcases fitting_or_waiting ((find?_eq_self_iff hdue).mp hleft) with hfits | hwaits
    · exact live_before_closed hfits hcfits hlive hclosed
    · rw [(h.live j hwaits hlive).2 c hcfits] at hclosed
      cases hclosed
  closingRuns j hdue hlive hbase := by
    have hclosing : isClosing j = true := by simp [isClosing, hbase]
    have hleft : j ∈ (coalesceDueJobs (seen now t)).kept ∨ j ∈ unseen now t :=
      (seen_or_unseen hdue).imp_left fun hseen => mem_kept.mpr ⟨hseen, fun heval => by
        rw [not_eval_of_closing hclosing] at heval
        cases heval⟩
    rcases fitting_or_waiting hleft with hfits | hwaits
    · exact mem_run.mpr hfits
    · exact absurd hbase (h.live j hwaits hlive).1
  accounted j hdue := by
    rw [find?_selectDueJobs hdue]
    rcases markSkipped_cases hdue with ⟨heq, -⟩ | ⟨⟨error, heq⟩, -, heval, hout⟩
    · rw [heq]
      by_cases hrun : j ∈ (selectDueJobs cal clock now t).run
      · exact Or.inl ⟨hrun, rfl⟩
      · exact Or.inr (Or.inl ⟨hrun, rfl⟩)
    · rw [heq]
      refine Or.inr (Or.inr ⟨fun hrun => ?_, error, rfl⟩)
      obtain ⟨hkeeps, hcloses⟩ := (mem_kept.mp (List.mem_of_mem_take (mem_run.mp hrun))).2 heval
      exact hout.elim (fun hnot => hnot hkeeps) hcloses
  oneEval e he e' he' hsame := by
    have hkept := fun k (hk : k ∈ (selectDueJobs cal clock now t).run) =>
      mem_kept.mp (List.mem_of_mem_take (mem_run.mp hk))
    exact eq_of_keeps hsame ((hkept e he).2 hsame.1).1 ((hkept e' he').2 hsame.2.1).1
  latestEval e he e' hdue hsame := by
    have hfits : e ∈ fitting now t := mem_run.mp he
    rcases seen_or_unseen hdue with hseen | hunseen
    · have hkeeps := ((mem_kept.mp (List.mem_of_mem_take hfits)).2 hsame.1).1
      exact List.le_of_mem_argmax (mem_venueEvals.mpr ⟨hseen, hsame.2.1, hsame.2.2.symm⟩) hkeeps
    · exact h.newest e hfits e' hunseen hsame
  skips j hdue hmoved := by
    rw [find?_selectDueJobs hdue] at hmoved
    rcases markSkipped_cases hdue with ⟨heq, -⟩ | ⟨-, hseen, heval, hnot | ⟨c, hc, hclosing⟩⟩
    · exact absurd (congrArg some heq) hmoved
    · obtain ⟨k, hlatest, hk⟩ := exists_latest hseen heval
      obtain ⟨hkseen, hkeval, hvenue⟩ := mem_venueEvals.mp hk
      have hsame : SameEval j k := ⟨heval, hkeval, hvenue.symm⟩
      have hne : j ≠ k := fun heq => hnot (heq ▸ hlatest)
      have hle : j.plannedAt ≤ k.plannedAt :=
        List.le_of_mem_argmax (mem_venueEvals.mpr ⟨hseen, heval, rfl⟩) hlatest
      refine ⟨heval, ?_⟩
      rcases hle.lt_or_eq with hlt | htie
      · exact ⟨k, mem_of_mem_seen hkseen, Or.inl ⟨hsame, hlt⟩⟩
      · exact h.ties j hseen k hkseen hsame hne htie
    · exact ⟨heval, c, mem_of_mem_seen hc, Or.inr hclosing⟩

/-- **A tick keeps its promises exactly when the due jobs fit into it.** -/
theorem lawfulTick_iff (cal : Venue → MarketCalendar) (clock : ScheduledJob → Int) (now : Int)
    (t : JobTable) :
    LawfulTick cal clock now t (selectDueJobs cal clock now t) ↔ FitsTick cal now t :=
  ⟨fits_of_lawful, lawful_of_fits⟩

end Ticks

section Sample

attribute [local instance] asciiCasing

open MarketCalendar (newYork HOUR_MICROS)

def sydney : MarketCalendar :=
  { newYork with
    utcoffset := fun _ => 10 * HOUR_MICROS
    session := fun day => some (day * DAY_MICROS, day * DAY_MICROS + 6 * HOUR_MICROS) }

def bothVenues : Venue → MarketCalendar
  | .us => newYork
  | .au => sydney

def sydneyAfternoon : Int := 20600 * DAY_MICROS + 5 * HOUR_MICROS + 2 * HOUR_MICROS / 3

def plannedJob (id : ℕ) (key : String) (plannedAt : Int) : ScheduledJob :=
  { id := id, jobKey := key, status := "planned", error := none, plannedAt := plannedAt,
    startedAt := none, completedAt := none }

def sydneyClosing : ScheduledJob :=
  plannedJob 50 "AU:closing_window" (sydneyAfternoon - HOUR_MICROS / 6)

def denseBacklog : JobTable :=
  { rows := (List.range 50).map (fun (i : ℕ) => plannedJob i s!"US:intraday_eval_{i}"
      (sydneyAfternoon - 16 * HOUR_MICROS + i * (HOUR_MICROS / 12))) ++ [sydneyClosing]
    unique := by decide }

/-- **A dense backlog of a closed venue hides the closing window of a live one.** -/
theorem backlog_hides_closing :
    ¬ LawfulTick bothVenues (fun _ => sydneyAfternoon) sydneyAfternoon denseBacklog
      (selectDueJobs bothVenues (fun _ => sydneyAfternoon) sydneyAfternoon denseBacklog) := by
  intro h
  have hdue : sydneyClosing ∈ dueInOrder sydneyAfternoon denseBacklog :=
    mem_dueInOrder.mpr ⟨List.mem_append_right _ List.mem_cons_self, rfl, by decide⟩
  have hruns := h.closingRuns sydneyClosing hdue (by decide +kernel) (by decide +kernel)
  have hid : 50 ∈ (selectDueJobs bothVenues (fun _ => sydneyAfternoon) sydneyAfternoon
      denseBacklog).run.map (·.id) := List.mem_map.mpr ⟨sydneyClosing, hruns, rfl⟩
  revert hid
  decide +kernel

end Sample

end Investor.Core.DueJobs
