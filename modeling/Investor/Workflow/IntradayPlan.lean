import Investor.Lib.Table
import Investor.Market.Calendar
import Mathlib.Data.PNat.Basic

/-!
# Planning the ticks of a session

`_plan_intraday_jobs` writes a planned row for every tick of a session: the ticks lie an interval
apart, counted from the open, and one more is put shortly before the close, where open positions
are closed by force. A session may have been planned before, and its rows may have been run,
skipped or deleted since; new rows are numbered behind all that are left, so no key is taken
twice, and the table takes the batch (`planned_rows`).

The tick before the close is left out if any row stands in the last minutes, whatever became of
it. So the plan ends with a live tick (`lawfulPlan_iff`) unless such a row is already settled and
no tick of the grid falls into these minutes.

Instants are in microseconds. A session lies within one day, and its clock is not changed.
-/

namespace Investor.Workflow

open Lib Market

/-! ## Rows -/

/-- `ScheduledJobRecord`, of one session date. -/
structure TickJob where
  jobKey : String
  plannedAt : Int
  status : String
  metadata : Dict Json

abbrev TickTable := KeyedTable TickJob.jobKey

def MINUTE_MICROS : Int := 60000000

/-- `int(text)`, of ASCII digits: `none` for the `ValueError`. -/
def int? (text : String) : Option Int :=
  let (sign, body) := splitSign (strip text).toList
  (digits? body).map fun n => sign * n

/-- `key.rsplit("_", 1)[-1]`. -/
def keySuffix (key : String) : String :=
  String.ofList (key.toList.reverse.takeWhile (· ≠ '_')).reverse

/-- `self._jk("intraday_eval_")`. -/
def tickPrefix (venue : Venue) : String := venue.value ++ ":intraday_eval_"

def tickKey (venue : Venue) (idx : ℕ) : String := tickPrefix venue ++ toString idx

/-- `job_key LIKE pattern%`: an underscore of the pattern stands for any character. -/
def likeStart (pattern key : String) : Bool :=
  pattern.length ≤ key.length &&
    (pattern.toList.zip key.toList).all fun p => p.1 = '_' || p.1 = p.2

def isTick (venue : Venue) (r : TickJob) : Bool := likeStart (tickPrefix venue) r.jobKey

/-! ## The grid -/

/-- `while cursor < nb: cursor += step`. -/
def skipTo (step nb : Int) : ℕ → Int → Int
  | 0, cursor => cursor
  | fuel + 1, cursor => if cursor < nb then skipTo step nb fuel (cursor + step) else cursor

/-- `while cursor < end: ...; cursor += step`. -/
def ticksFrom (step close : Int) : ℕ → Int → List Int
  | 0, _ => []
  | fuel + 1, cursor =>
    if cursor < close then cursor :: ticksFrom step close fuel (cursor + step) else []

def stepOf (interval : ℕ+) : Int := interval * MINUTE_MICROS

/-- Where the grid begins. A step is longer than a microsecond, so the loop ends in time. -/
def gridStart (opening : Int) (interval : ℕ+) (notBefore : Option Int) : Int :=
  match notBefore with
  | none => opening + stepOf interval
  | some nb => skipTo (stepOf interval) nb (nb - opening).toNat (opening + stepOf interval)

def gridTicks (opening close : Int) (interval : ℕ+) (notBefore : Option Int) : List Int :=
  ticksFrom (stepOf interval) close (close - opening).toNat (gridStart opening interval notBefore)

/-- `force_at`: five minutes before the close, or fewer. -/
def forceAt (forceCloseMinutes : Int) (close : Int) : Int :=
  let forceMins := max 1 (if forceCloseMinutes = 0 then 15 else forceCloseMinutes)
  close - min 5 forceMins * MINUTE_MICROS

/-! ## The plan -/

def tradingHours (session : MarketSessionInfo) : Option (Int × Int) :=
  match session.regularOpen, session.regularClose with
  | some opening, some closing =>
    if session.isTradingDay then some (opening.instant, closing.instant) else none
  | _, _ => none

def nextIdx (existing : List TickJob) : ℕ :=
  (existing.foldl (fun m r => ((int? (keySuffix r.jobKey)).map (max m)).getD m) (-1) + 1).toNat

def gridRow (venue : Venue) (interval : ℕ+) (replanned : Bool) (tick : Int × ℕ) : TickJob :=
  { jobKey := tickKey venue tick.2, plannedAt := tick.1, status := "planned",
    metadata := [("interval_minutes", .num (interval : ℕ)), ("replanned", .bool replanned),
      ("venue", .str venue.value)] }

def forceRow (venue : Venue) (interval : ℕ+) (at' : Int) (idx : ℕ) : TickJob :=
  { jobKey := tickKey venue idx, plannedAt := at', status := "planned",
    metadata := [("interval_minutes", .num (interval : ℕ)), ("force_close_tick", .bool true),
      ("venue", .str venue.value)] }

def freeRow (existing : List TickJob) (r : TickJob) : Option TickJob :=
  if existing.any (·.jobKey = r.jobKey) then none else some r

def inLastMinutes (force close : Int) (r : TickJob) : Bool := force ≤ r.plannedAt && r.plannedAt < close

def newRows (venue : Venue) (forceCloseMinutes : Int) (opening close : Int) (interval : ℕ+)
    (notBefore : Option Int) (existing : List TickJob) : List TickJob :=
  let idx := nextIdx existing
  let grid := gridTicks opening close interval notBefore
  let force := forceAt forceCloseMinutes close
  (grid.zipIdx idx).filterMap (fun tick =>
      freeRow existing (gridRow venue interval notBefore.isSome tick)) ++
    if opening < force ∧ force < close ∧ ¬ existing.any (inLastMinutes force close) then
      (freeRow existing (forceRow venue interval force (idx + grid.length))).toList
    else []

/-- `_plan_intraday_jobs`, with the number of rows created; `none` for the integrity error. -/
def planIntradayJobs (venue : Venue) (forceCloseMinutes : Int) (session : MarketSessionInfo)
    (interval : ℕ+) (notBefore : Option Int) (t : TickTable) : Option (TickTable × ℕ) :=
  match tradingHours session with
  | none => some (t, 0)
  | some (opening, close) =>
    let rows := newRows venue forceCloseMinutes opening close interval notBefore
      (t.rows.filter (isTick venue))
    (t.insertAll rows).map fun t' => (t', rows.length)

/-! ## The loops of the grid -/

section Loops

variable {step nb close cursor : Int} {fuel : ℕ}

theorem skipTo_spec (hstep : 0 < step) (hfuel : nb - cursor ≤ fuel) :
    ∃ k : ℕ, skipTo step nb fuel cursor = cursor + k * step ∧
      nb ≤ skipTo step nb fuel cursor ∧ ∀ i < k, cursor + i * step < nb := by
  induction fuel generalizing cursor with
  | zero =>
    refine ⟨0, by simp [skipTo], ?_, by simp⟩
    simp only [skipTo, Nat.cast_zero] at hfuel ⊢
    omega
  | succ fuel ih =>
    rw [skipTo]
    split
    · rename_i hlt
      obtain ⟨k, hk, hnb, hbefore⟩ := @ih (cursor + step) (by push_cast at hfuel; omega)
      refine ⟨k + 1, ?_, hnb, ?_⟩
      · rw [hk]
        push_cast
        ring
      · intro i hi
        cases i with
        | zero => simpa using hlt
        | succ i =>
          have hprev := hbefore i (by omega)
          push_cast
          linarith
    · rename_i hle
      exact ⟨0, by simp, by omega, by simp⟩

theorem ticksFrom_spec (hstep : 0 < step) (hfuel : close - cursor ≤ fuel) :
    ∃ n : ℕ, ticksFrom step close fuel cursor = ((List.range n).map fun (i : ℕ) => cursor + i * step) ∧
      close ≤ cursor + n * step ∧ ∀ i < n, cursor + i * step < close := by
  induction fuel generalizing cursor with
  | zero =>
    refine ⟨0, rfl, ?_, by simp⟩
    simp only [Nat.cast_zero] at hfuel ⊢
    omega
  | succ fuel ih =>
    rw [ticksFrom]
    split
    · rename_i hlt
      obtain ⟨n, hn, hend, hinside⟩ := @ih (cursor + step) (by push_cast at hfuel; omega)
      refine ⟨n + 1, ?_, ?_, ?_⟩
      · rw [hn, List.range_succ_eq_map, List.map_cons, List.map_map]
        congr 1
        · simp
        · refine List.map_congr_left fun i _ => ?_
          simp only [Function.comp_apply]
          push_cast
          ring
      · push_cast
        linarith
      · intro i hi
        cases i with
        | zero => simpa using hlt
        | succ i =>
          have hprev := hinside i (by omega)
          push_cast
          linarith
    · rename_i hle
      exact ⟨0, rfl, by simp; omega, by simp⟩

end Loops

theorem stepOf_pos (interval : ℕ+) : 0 < stepOf interval := by
  have := interval.pos
  unfold stepOf MINUTE_MICROS
  positivity

variable {opening close : Int} {interval : ℕ+} {notBefore : Option Int} {venue : Venue}
  {existing : List TickJob} {force : Int}

theorem gridStart_spec : ∃ k : ℕ, 0 < k ∧
    gridStart opening interval notBefore = opening + k * stepOf interval ∧
      (∀ nb ∈ notBefore, nb ≤ gridStart opening interval notBefore) ∧
        ∀ i, 0 < i → i < k → ∃ nb ∈ notBefore, opening + i * stepOf interval < nb := by
  have hpos := stepOf_pos interval
  cases notBefore with
  | none =>
    refine ⟨1, Nat.one_pos, by simp [gridStart], by simp, ?_⟩
    intro i hi hlt
    omega
  | some nb =>
    obtain ⟨k, hk, hnb, hbefore⟩ := @skipTo_spec (stepOf interval) nb
      (opening + stepOf interval) (nb - opening).toNat hpos (by omega)
    refine ⟨k + 1, Nat.succ_pos k, ?_, ?_, ?_⟩
    · unfold gridStart
      dsimp only
      rw [hk]
      push_cast
      ring
    · intro nb' hnb'
      cases hnb'
      exact hnb
    · intro i hi hlt
      obtain ⟨j, rfl⟩ := Nat.exists_eq_succ_of_ne_zero hi.ne'
      refine ⟨nb, rfl, ?_⟩
      have hprev := hbefore j (by omega)
      push_cast
      linarith

theorem mem_gridTicks {at' : Int} :
    at' ∈ gridTicks opening close interval notBefore ↔
      (∃ k : ℕ, 0 < k ∧ at' = opening + k * stepOf interval) ∧ at' < close ∧
        ∀ nb ∈ notBefore, nb ≤ at' := by
  have hpos := stepOf_pos interval
  obtain ⟨k, hk, hfirst, hnb, hbefore⟩ := @gridStart_spec opening interval notBefore
  have hstart : opening < gridStart opening interval notBefore := by
    rw [hfirst]
    have : (0 : Int) < k * stepOf interval := by positivity
    linarith
  obtain ⟨n, hn, hend, hinside⟩ := @ticksFrom_spec (stepOf interval) close
    (gridStart opening interval notBefore) (close - opening).toNat hpos (by omega)
  unfold gridTicks
  rw [hn, List.mem_map]
  constructor
  · intro h
    obtain ⟨i, hi, rfl⟩ := h
    refine ⟨⟨k + i, by omega, ?_⟩, hinside i (List.mem_range.mp hi), ?_⟩
    · rw [hfirst]
      push_cast
      ring
    · intro nb hmem
      have hle := hnb nb hmem
      have : (0 : Int) ≤ i * stepOf interval := by positivity
      linarith
  · intro h
    obtain ⟨⟨j, hj, rfl⟩, hclose, hafter⟩ := h
    have hkj : k ≤ j := by
      by_contra hlt
      obtain ⟨nb, hmem, hearly⟩ := hbefore j hj (by omega)
      exact absurd (hafter nb hmem) (not_le.mpr hearly)
    refine ⟨j - k, List.mem_range.mpr ?_, ?_⟩
    · by_contra hge
      have hle : (n : Int) * stepOf interval ≤ ((j - k : ℕ) : Int) * stepOf interval :=
        mul_le_mul_of_nonneg_right (by omega) hpos.le
      push_cast [Nat.cast_sub hkj] at hle
      rw [hfirst] at hend
      nlinarith
    · rw [hfirst, Nat.cast_sub hkj]
      ring

/-! ## Numbers in keys -/

theorem foldl_toDigits (n : ℕ) :
    (Nat.toDigits 10 n).foldl (fun m c => m * 10 + (c.toNat - 48)) 0 = n := by
  induction n using Nat.strongRecOn with
  | ind n ih =>
    have hvalue : ∀ d < 10, (Nat.digitChar d).toNat - 48 = d := by decide
    by_cases h : n < 10
    · rw [Nat.toDigits_of_lt_base h]
      simp [hvalue n h]
    · rw [Nat.toDigits_of_base_le (by omega) (by omega), List.foldl_append, ih _ (by omega)]
      simp only [List.foldl_cons, List.foldl_nil]
      rw [hvalue _ (Nat.mod_lt n (by omega))]
      omega

theorem digits?_toDigits (n : ℕ) : digits? (Nat.toDigits 10 n) = some n := by
  have hall : (Nat.toDigits 10 n).all Char.isDigit = true := by
    rw [List.all_eq_true]
    intro c hc
    exact Nat.isDigit_of_mem_toDigits (by omega) (by omega) hc
  unfold digits?
  rw [if_pos ⟨Nat.toDigits_ne_nil, hall⟩, foldl_toDigits]

theorem digit_ne {c : Char} (h : c.isDigit = true) :
    isSpace c = false ∧ c ≠ '-' ∧ c ≠ '+' ∧ c ≠ '_' := by
  have hrange : 48 ≤ c.toNat ∧ c.toNat ≤ 57 := by
    simpa [Char.isDigit, UInt32.le_iff_toNat_le] using h
  refine ⟨?_, ?_, ?_, ?_⟩
  · unfold isSpace
    simp
    omega
  all_goals
    intro heq
    subst heq
    exact absurd hrange (by decide)

theorem toList_toString (n : ℕ) : (toString n).toList = Nat.toDigits 10 n := Nat.toList_repr

theorem int?_toString (n : ℕ) : int? (toString n) = some (n : Int) := by
  have hdigit : ∀ c ∈ Nat.toDigits 10 n, c.isDigit = true := by
    intro c hc
    exact Nat.isDigit_of_mem_toDigits (by omega) (by omega) hc
  have hstrip : (strip (toString n)).toList = Nat.toDigits 10 n := by
    have hfront : ∀ l : List Char, (∀ c ∈ l, c.isDigit = true) → l.dropWhile isSpace = l := by
      intro l hl
      cases l with
      | nil => rfl
      | cons c l => simp [(digit_ne (hl c List.mem_cons_self)).1]
    unfold strip
    rw [String.toList_ofList, toList_toString, hfront _ hdigit, hfront, List.reverse_reverse]
    intro c hc
    exact hdigit c (List.mem_reverse.mp hc)
  have hsign : splitSign (Nat.toDigits 10 n) = (1, Nat.toDigits 10 n) := by
    cases hl : Nat.toDigits 10 n with
    | nil => rfl
    | cons c l =>
      have hc := digit_ne (hdigit c (by simp [hl]))
      unfold splitSign
      split <;> simp_all
  unfold int?
  rw [hstrip, hsign]
  simp [digits?_toDigits]

theorem keySuffix_tickKey (venue : Venue) (n : ℕ) : keySuffix (tickKey venue n) = toString n := by
  have hno : ∀ c ∈ (Nat.toDigits 10 n).reverse, decide (c ≠ '_') = true := by
    intro c hc
    exact decide_eq_true (digit_ne (Nat.isDigit_of_mem_toDigits (by omega) (by omega)
      (List.mem_reverse.mp hc))).2.2.2
  have hkey : (tickKey venue n).toList.reverse =
      (Nat.toDigits 10 n).reverse ++ ('_' :: (venue.value ++ ":intraday_eval").toList.reverse) := by
    unfold tickKey tickPrefix
    simp [String.toList_append]
  unfold keySuffix
  rw [hkey, List.takeWhile_append_of_pos hno, List.takeWhile_cons_of_neg (by decide),
    List.append_nil, List.reverse_reverse, ← toList_toString, String.ofList_toList]

variable {n : ℕ}

theorem tickKey_inj {m : ℕ} (h : tickKey venue n = tickKey venue m) : n = m := by
  have hsuffix := congrArg (fun k => int? (keySuffix k)) h
  simp only [keySuffix_tickKey, int?_toString, Option.some.injEq] at hsuffix
  exact_mod_cast hsuffix

variable {r : TickJob}

theorem isTick_of_key (h : r.jobKey = tickKey venue n) : isTick venue r = true := by
  have hall : ∀ l d : List Char, (l.zip (l ++ d)).all (fun p => p.1 = '_' || p.1 = p.2) = true := by
    intro l d
    induction l with
    | nil => rfl
    | cons c l ih => simpa using ih
  unfold isTick likeStart
  rw [h, tickKey, String.length_append, String.toList_append, hall]
  simp

/-! ## Fresh keys -/

theorem lt_nextIdx (hr : r ∈ existing) (hkey : r.jobKey = tickKey venue n) :
    n < nextIdx existing := by
  have hfold : ∀ (rows : List TickJob) (m : Int),
      m ≤ rows.foldl (fun m r => ((int? (keySuffix r.jobKey)).map (max m)).getD m) m ∧
        ∀ r ∈ rows, ∀ i, int? (keySuffix r.jobKey) = some i →
          i ≤ rows.foldl (fun m r => ((int? (keySuffix r.jobKey)).map (max m)).getD m) m := by
    intro rows
    induction rows with
    | nil => simp
    | cons x rows ih =>
      intro m
      rw [List.foldl_cons]
      cases hx : int? (keySuffix x.jobKey) with
      | none =>
        obtain ⟨hle, hall⟩ := ih m
        refine ⟨hle, ?_⟩
        intro r hr i hi
        rcases List.mem_cons.mp hr with rfl | hr
        · rw [hx] at hi
          cases hi
        · exact hall r hr i hi
      | some j =>
        obtain ⟨hle, hall⟩ := ih (max m j)
        refine ⟨(le_max_left m j).trans hle, ?_⟩
        intro r hr i hi
        rcases List.mem_cons.mp hr with rfl | hr
        · rw [hx] at hi
          cases hi
          exact (le_max_right m j).trans hle
        · exact hall r hr i hi
  have hle := (hfold existing (-1)).2 r hr n (by rw [hkey, keySuffix_tickKey, int?_toString])
  unfold nextIdx
  omega

theorem freeRow_of_key (hkey : r.jobKey = tickKey venue n) (hn : nextIdx existing ≤ n) :
    freeRow existing r = some r := by
  unfold freeRow
  rw [if_neg]
  intro htaken
  obtain ⟨x, hx, hsame⟩ := List.any_eq_true.mp htaken
  have hlt := lt_nextIdx hx ((of_decide_eq_true hsame).trans hkey)
  omega

def gridRows (venue : Venue) (opening close : Int) (interval : ℕ+) (notBefore : Option Int)
    (existing : List TickJob) : List TickJob :=
  ((gridTicks opening close interval notBefore).zipIdx (nextIdx existing)).map
    (gridRow venue interval notBefore.isSome)

def lastRows (venue : Venue) (opening close force : Int) (interval : ℕ+) (notBefore : Option Int)
    (existing : List TickJob) : List TickJob :=
  if opening < force ∧ force < close ∧ ¬ existing.any (inLastMinutes force close) then
    [forceRow venue interval force
      (nextIdx existing + (gridTicks opening close interval notBefore).length)]
  else []

variable {forceCloseMinutes : Int}

theorem newRows_eq :
    newRows venue forceCloseMinutes opening close interval notBefore existing =
      gridRows venue opening close interval notBefore existing ++
        lastRows venue opening close (forceAt forceCloseMinutes close) interval notBefore
          existing := by
  unfold newRows gridRows lastRows
  dsimp only
  congr 1
  · rw [← List.filterMap_eq_map]
    refine List.filterMap_congr fun tick htick => ?_
    exact freeRow_of_key rfl (List.le_snd_of_mem_zipIdx htick)
  · split
    · rw [freeRow_of_key (r := forceRow _ _ _ _) rfl (Nat.le_add_right _ _)]
      rfl
    · rfl

theorem newRows_key
    (hr : r ∈ newRows venue forceCloseMinutes opening close interval notBefore existing) :
    r.status = "planned" ∧ ∃ n, nextIdx existing ≤ n ∧ r.jobKey = tickKey venue n := by
  rw [newRows_eq, List.mem_append] at hr
  rcases hr with hgrid | hlast
  · obtain ⟨tick, htick, rfl⟩ := List.mem_map.mp hgrid
    exact ⟨rfl, tick.2, List.le_snd_of_mem_zipIdx htick, rfl⟩
  · unfold lastRows at hlast
    split at hlast
    · rw [List.mem_singleton] at hlast
      subst hlast
      exact ⟨rfl, _, Nat.le_add_right _ _, rfl⟩
    · cases hlast

theorem nodup_newRows :
    ((newRows venue forceCloseMinutes opening close interval notBefore existing).map
      (·.jobKey)).Nodup := by
  have hgrid : (gridRows venue opening close interval notBefore existing).map (·.jobKey) =
      (List.range' (nextIdx existing)
        (gridTicks opening close interval notBefore).length).map (tickKey venue) := by
    unfold gridRows
    rw [List.map_map, ← List.zipIdx_map_snd (nextIdx existing), List.map_map]
    rfl
  have hinj : Function.Injective (tickKey venue) := fun _ _ h => tickKey_inj h
  rw [newRows_eq, List.map_append, hgrid]
  unfold lastRows
  split
  · rw [List.map_singleton, List.nodup_append]
    refine ⟨(List.nodup_range').map hinj, List.nodup_singleton _, ?_⟩
    intro a ha b hb hab
    obtain ⟨n, hn, rfl⟩ := List.mem_map.mp ha
    rw [List.mem_singleton] at hb
    have heq : n = nextIdx existing + (gridTicks opening close interval notBefore).length :=
      tickKey_inj (hab.trans hb)
    have hlt := (List.mem_range'_1.mp hn).2
    omega
  · simpa using (List.nodup_range').map hinj

theorem planned_rows {forceCloseMinutes : Int} {session : MarketSessionInfo} {t : TickTable}
    (hhours : tradingHours session = some (opening, close)) :
    ∃ t', planIntradayJobs venue forceCloseMinutes session interval notBefore t =
        some (t', (newRows venue forceCloseMinutes opening close interval notBefore
          (t.rows.filter (isTick venue))).length) ∧
      t'.rows = t.rows ++ newRows venue forceCloseMinutes opening close interval notBefore
        (t.rows.filter (isTick venue)) := by
  have hsome : (t.insertAll (newRows venue forceCloseMinutes opening close interval notBefore
      (t.rows.filter (isTick venue)))).isSome := by
    rw [KeyedTable.insertAll_isSome_iff]
    refine ⟨nodup_newRows, ?_⟩
    intro r hr htaken
    obtain ⟨-, n, hn, hkey⟩ := newRows_key hr
    obtain ⟨x, hx, hsame⟩ := KeyedTable.hasKey_iff.mp htaken
    have hxkey : x.jobKey = tickKey venue n := hsame.trans hkey
    have hlt := lt_nextIdx (List.mem_filter.mpr ⟨hx, isTick_of_key hxkey⟩) hxkey
    omega
  obtain ⟨t', ht'⟩ := Option.isSome_iff_exists.mp hsome
  refine ⟨t', ?_, KeyedTable.insertAll_rows ht'⟩
  unfold planIntradayJobs
  rw [hhours]
  dsimp only
  rw [ht']
  rfl

/-! ## What a plan promises -/

/-- A tick of the grid: an interval or more after the open, before the close, and not too early. -/
def OnGrid (opening close : Int) (interval : ℕ+) (notBefore : Option Int) (at' : Int) : Prop :=
  (∃ k : ℕ, 0 < k ∧ at' = opening + k * stepOf interval) ∧ opening < at' ∧ at' < close ∧
    ∀ nb ∈ notBefore, nb ≤ at'

def EndsLive (venue : Venue) (force close : Int) (rows : List TickJob) : Prop :=
  ∃ r ∈ rows, isTick venue r = true ∧ r.status = "planned" ∧ inLastMinutes force close r = true

structure LawfulPlan (venue : Venue) (forceCloseMinutes : Int) (opening close : Int)
    (interval : ℕ+) (notBefore : Option Int) (t : TickTable) (out : Option (TickTable × ℕ)) :
    Prop where
  /-- The rows of the session keep distinct keys, and the new ones are ticks of the grid, but for
      one before the close. -/
  made : ∃ t' grid last, out = some (t', (grid ++ last).length) ∧
    t'.rows = t.rows ++ (grid ++ last) ∧ (t'.rows.map (·.jobKey)).Nodup ∧
    (∀ r ∈ grid ++ last, isTick venue r = true ∧ r.status = "planned") ∧
    (∀ r ∈ grid, OnGrid opening close interval notBefore r.plannedAt) ∧
    last.length ≤ 1 ∧ ∀ r ∈ last, r.plannedAt = forceAt forceCloseMinutes close
  /-- A plan made in time ends with a live tick. -/
  live : (∀ nb ∈ notBefore, nb < forceAt forceCloseMinutes close) → ∀ t' created,
    out = some (t', created) → EndsLive venue (forceAt forceCloseMinutes close) close t'.rows

/-- The last minutes can be covered: a live tick is there, one of the grid falls into them, or no
    row stands in them and they begin after the open. -/
def CoversClose (venue : Venue) (forceCloseMinutes : Int) (opening close : Int) (interval : ℕ+)
    (notBefore : Option Int) (t : TickTable) : Prop :=
  let force := forceAt forceCloseMinutes close
  (∀ nb ∈ notBefore, nb < force) →
    EndsLive venue force close t.rows ∨
      (∃ k : ℕ, 0 < k ∧ force ≤ opening + k * stepOf interval ∧
        opening + k * stepOf interval < close) ∨
      (opening < force ∧ ∀ r ∈ t.rows, isTick venue r = true → inLastMinutes force close r = false)

theorem forceAt_lt (forceCloseMinutes close : Int) : forceAt forceCloseMinutes close < close := by
  unfold forceAt MINUTE_MICROS
  dsimp only
  split <;> omega

/-- The planned ticks are on the grid, and at most one more forces the close. -/
theorem made_planIntradayJobs {session : MarketSessionInfo} {t : TickTable}
    (hhours : tradingHours session = some (opening, close)) :
    ∃ t' grid last, planIntradayJobs venue forceCloseMinutes session interval notBefore t =
        some (t', (grid ++ last).length) ∧
      t'.rows = t.rows ++ (grid ++ last) ∧ (t'.rows.map (·.jobKey)).Nodup ∧
      (∀ r ∈ grid ++ last, isTick venue r = true ∧ r.status = "planned") ∧
      (∀ r ∈ grid, OnGrid opening close interval notBefore r.plannedAt) ∧
      last.length ≤ 1 ∧ ∀ r ∈ last, r.plannedAt = forceAt forceCloseMinutes close := by
  obtain ⟨t', hplan, hrows⟩ := @planned_rows opening close interval notBefore venue
    forceCloseMinutes session t hhours
  rw [newRows_eq] at hplan hrows
  refine ⟨t', _, _, hplan, hrows, t'.unique, ?_, ?_, ?_, ?_⟩
  · intro r hr
    rw [← newRows_eq] at hr
    obtain ⟨hstatus, n, -, hkey⟩ := newRows_key hr
    exact ⟨isTick_of_key hkey, hstatus⟩
  · intro r hr
    obtain ⟨tick, htick, rfl⟩ := List.mem_map.mp hr
    have hmem : tick.1 ∈ gridTicks opening close interval notBefore :=
      List.fst_mem_of_mem_zipIdx htick
    obtain ⟨⟨k, hk, heq⟩, hclose, hafter⟩ := mem_gridTicks.mp hmem
    have hpos := stepOf_pos interval
    refine ⟨⟨k, hk, heq⟩, ?_, hclose, hafter⟩
    show opening < tick.1
    have : (0 : Int) < k * stepOf interval := by positivity
    linarith
  · unfold lastRows
    split <;> simp
  · intro r hr
    unfold lastRows at hr
    split at hr
    · rw [List.mem_singleton] at hr
      subst hr
      rfl
    · cases hr

theorem endsLive_newRows (hearly : ∀ nb ∈ notBefore, nb < forceAt forceCloseMinutes close) :
    EndsLive venue (forceAt forceCloseMinutes close) close
        (newRows venue forceCloseMinutes opening close interval notBefore existing) ↔
      (∃ k : ℕ, 0 < k ∧ forceAt forceCloseMinutes close ≤ opening + k * stepOf interval ∧
        opening + k * stepOf interval < close) ∨
      (opening < forceAt forceCloseMinutes close ∧
        ∀ r ∈ existing, inLastMinutes (forceAt forceCloseMinutes close) close r = false) := by
  have hlt := forceAt_lt forceCloseMinutes close
  constructor
  · intro h
    obtain ⟨r, hr, -, -, hin⟩ := h
    rw [newRows_eq, List.mem_append] at hr
    rcases hr with hgrid | hlast
    · obtain ⟨tick, htick, rfl⟩ := List.mem_map.mp hgrid
      have hmem : tick.1 ∈ gridTicks opening close interval notBefore :=
        List.fst_mem_of_mem_zipIdx htick
      obtain ⟨⟨k, hk, heq⟩, hclose, -⟩ := mem_gridTicks.mp hmem
      have hin' : forceAt forceCloseMinutes close ≤ tick.1 ∧ tick.1 < close := by
        obtain ⟨hforce, hclose'⟩ := Bool.and_eq_true_iff.mp hin
        exact ⟨of_decide_eq_true hforce, of_decide_eq_true hclose'⟩
      exact Or.inl ⟨k, hk, heq ▸ hin'.1, heq ▸ hclose⟩
    · unfold lastRows at hlast
      split at hlast
      · rename_i hfree
        refine Or.inr ⟨hfree.1, ?_⟩
        simpa using hfree.2.2
      · cases hlast
  · intro h
    rcases h with hgrid | hfree
    · obtain ⟨k, hk, hforce, hclose⟩ := hgrid
      have hmem : opening + k * stepOf interval ∈ gridTicks opening close interval notBefore := by
        refine mem_gridTicks.mpr ⟨⟨k, hk, rfl⟩, hclose, ?_⟩
        intro nb hnb
        exact ((hearly nb hnb).trans_le hforce).le
      rw [← List.zipIdx_map_fst (nextIdx existing)
        (gridTicks opening close interval notBefore), List.mem_map] at hmem
      obtain ⟨tick, htick, hat⟩ := hmem
      refine ⟨gridRow venue interval notBefore.isSome tick, ?_, isTick_of_key rfl, rfl, ?_⟩
      · rw [newRows_eq]
        exact List.mem_append_left _ (List.mem_map_of_mem htick)
      · simp [inLastMinutes, gridRow, hat, hforce, hclose]
    · obtain ⟨hopen, hnone⟩ := hfree
      refine ⟨forceRow venue interval (forceAt forceCloseMinutes close)
        (nextIdx existing + (gridTicks opening close interval notBefore).length), ?_,
        isTick_of_key rfl, rfl, ?_⟩
      · rw [newRows_eq]
        refine List.mem_append_right _ ?_
        unfold lastRows
        rw [if_pos ⟨hopen, hlt, by simpa using hnone⟩]
        exact List.mem_singleton_self _
      · simp [inLastMinutes, forceRow, hlt]

theorem endsLive_append {rows rows' : List TickJob} {close : Int} :
    EndsLive venue force close (rows ++ rows') ↔
      EndsLive venue force close rows ∨ EndsLive venue force close rows' := by
  unfold EndsLive
  constructor
  · intro h
    obtain ⟨r, hr, hlive⟩ := h
    rcases List.mem_append.mp hr with hr | hr
    · exact Or.inl ⟨r, hr, hlive⟩
    · exact Or.inr ⟨r, hr, hlive⟩
  · intro h
    rcases h with h | h
    · obtain ⟨r, hr, hlive⟩ := h
      exact ⟨r, List.mem_append_left _ hr, hlive⟩
    · obtain ⟨r, hr, hlive⟩ := h
      exact ⟨r, List.mem_append_right _ hr, hlive⟩

theorem endsLive_planned {t t' : TickTable}
    (hrows : t'.rows = t.rows ++ newRows venue forceCloseMinutes opening close interval notBefore
      (t.rows.filter (isTick venue)))
    (hearly : ∀ nb ∈ notBefore, nb < forceAt forceCloseMinutes close) :
    EndsLive venue (forceAt forceCloseMinutes close) close t'.rows ↔
      EndsLive venue (forceAt forceCloseMinutes close) close t.rows ∨
      (∃ k : ℕ, 0 < k ∧ forceAt forceCloseMinutes close ≤ opening + k * stepOf interval ∧
        opening + k * stepOf interval < close) ∨
      (opening < forceAt forceCloseMinutes close ∧ ∀ r ∈ t.rows, isTick venue r = true →
        inLastMinutes (forceAt forceCloseMinutes close) close r = false) := by
  have hticks : (∀ r ∈ t.rows.filter (isTick venue),
      inLastMinutes (forceAt forceCloseMinutes close) close r = false) ↔
      ∀ r ∈ t.rows, isTick venue r = true →
        inLastMinutes (forceAt forceCloseMinutes close) close r = false := by
    simp [List.mem_filter]
  rw [hrows, endsLive_append, endsLive_newRows hearly, hticks]

/-- **A plan is lawful exactly where it can cover the last minutes**: everything else it promises,
it keeps. -/
theorem lawfulPlan_iff (venue : Venue) (forceCloseMinutes : Int) (session : MarketSessionInfo)
    (interval : ℕ+) (notBefore : Option Int) (t : TickTable) :
    (∀ opening close, tradingHours session = some (opening, close) →
      LawfulPlan venue forceCloseMinutes opening close interval notBefore t
        (planIntradayJobs venue forceCloseMinutes session interval notBefore t)) ↔
    ∀ opening close, tradingHours session = some (opening, close) →
      CoversClose venue forceCloseMinutes opening close interval notBefore t := by
  refine forall_congr' fun opening => forall_congr' fun close => imp_congr_right fun hhours => ?_
  obtain ⟨t', hplan, hrows⟩ := @planned_rows opening close interval notBefore venue
    forceCloseMinutes session t hhours
  constructor
  · intro h hearly
    exact (endsLive_planned hrows hearly).mp (h.live hearly t' _ hplan)
  · intro h
    refine ⟨made_planIntradayJobs hhours, ?_⟩
    intro hearly t'' created hout
    rw [hplan] at hout
    cases hout
    exact (endsLive_planned hrows hearly).mpr (h hearly)

/-! ## A row that was skipped -/

section Sample

def tradedDay : MarketSessionInfo :=
  { sessionDate := 0, isTradingDay := true, isEarlyClose := false, premarketStart := none,
    regularOpen := some ⟨570 * MINUTE_MICROS, 570 * MINUTE_MICROS⟩,
    regularClose := some ⟨960 * MINUTE_MICROS, 960 * MINUTE_MICROS⟩, postmarketEnd := none }

def skippedTick : TickJob :=
  { jobKey := "US:intraday_eval_0", plannedAt := 957 * MINUTE_MICROS, status := "skipped",
    metadata := [] }

def skippedTable : TickTable := ⟨[skippedTick], by simp⟩

/-- Ticks every hour end at 15:30, and none comes in the last five minutes. -/
theorem skipped_row_bars_closing_tick :
    ¬ ∀ opening close, tradingHours tradedDay = some (opening, close) →
      LawfulPlan .us 15 opening close 60 (some (700 * MINUTE_MICROS)) skippedTable
        (planIntradayJobs .us 15 tradedDay 60 (some (700 * MINUTE_MICROS)) skippedTable) := by
  intro h
  obtain ⟨t', hplan, hrows⟩ := @planned_rows (570 * MINUTE_MICROS) (960 * MINUTE_MICROS) 60
    (some (700 * MINUTE_MICROS)) .us 15 tradedDay skippedTable rfl
  have hend := (endsLive_planned hrows (by simp [forceAt, MINUTE_MICROS])).mp
    ((h _ _ rfl).live (by simp [forceAt, MINUTE_MICROS]) t' _ hplan)
  rcases hend with hold | hgrid | hfree
  · obtain ⟨r, hr, -, hstatus, -⟩ := hold
    simp only [skippedTable, List.mem_singleton] at hr
    subst hr
    exact absurd hstatus (by simp [skippedTick])
  · obtain ⟨k, -, hforce, hclose⟩ := hgrid
    simp only [forceAt, stepOf, MINUTE_MICROS, PNat.val_ofNat] at hforce hclose
    omega
  · exact absurd (hfree.2 skippedTick (by simp [skippedTable]) (by decide +kernel))
      (by simp [inLastMinutes, skippedTick, forceAt, MINUTE_MICROS])

end Sample

end Investor.Workflow
