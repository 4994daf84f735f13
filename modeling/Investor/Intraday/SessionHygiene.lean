import Investor.Intraday.DedupedEvents
import Investor.Intraday.Monitor
import Investor.Intraday.ReanalysisStore
import Investor.Workflow.Intraday

/-!
# What a session leaves on the board

`fold_session_residue` runs at every tick, between what the monitor publishes and what the drains
mark. It closes events that are over, or whose positions are gone, keeps the newest holding review
of a symbol that is held on review, and ends the intents and alerts of stops that have nothing
left to stop.

Each pass over the events only ever closes one (`OnlyCloses`), and what is proved of runs comes
from that.
-/

namespace Investor.Intraday

open Lib
open IntradayEventBus (entriesOf)

/-! ## The call -/

/-- `next(iter(names))`: some member of a set that has one. -/
structure AnyMember where
  pick : List String → String
  mem : ∀ names, names ≠ [] → pick names ∈ names

/-- The lifecycles, the arguments, and the orders of the sets and of the sort. -/
structure FoldCall where
  lifecycles : List Monitored
  now : Int
  phase : Option String
  sessionDate : Option String
  any : AnyMember
  newest : NewestFirst IntradayEvent.detectedAt

/-- A row of `order_intents`, by the columns that the fold reads. -/
structure FoldIntent where
  id : ℕ
  symbol : String
  status : String
  thesis : Option String
  metadataJson : Json

/-- A row of `operational_alerts`, by the columns that the fold reads and writes. -/
structure FoldAlert where
  id : ℕ
  alertType : String
  symbol : Option String
  status : String
  resolvedAt : Option Int
  payload : Json

structure Board where
  events : EventTable
  intents : List FoldIntent
  alerts : List FoldAlert

/-- `out`. -/
structure FoldCounts where
  events : ℕ
  intents : ℕ
  alerts : ℕ
  deriving DecidableEq

/-- `_SESSION_MARKER_EVENTS`. -/
def SESSION_MARKER_EVENTS : List String := ["MARKET_CLOSED", "CLOSING_WINDOW_ENTERED"]

/-- `{str(s).upper() for s in symbols if s}`. -/
def upperNames [Casing] (symbols : List String) : List String :=
  (symbols.filter (· ≠ "")).map Casing.upper

namespace FoldCall

section Names

variable (x : FoldCall)

/-- `open_lifecycles`. -/
def openLifecycles : List Monitored := x.lifecycles.filter fun lc => lc.status.isActive

section

variable [Casing]

/-- `held_symbols`. -/
def held : List String := upperNames (x.openLifecycles.map (·.symbol))

def reviewHold : List String :=
  upperNames ((x.openLifecycles.filter fun lc => !flattenOnMaxHolding lc).map (·.symbol))

/-! ## Events -/

def keepSessionMarkers : Bool :=
  x.phase.any (· ∈ ["POSTMARKET", "AFTER_HOURS", "FORCE_CLOSE_WINDOW", "CLOSING_WINDOW"])

def expired (ev : IntradayEvent) : Bool := decide (ev.expiresAt ≤ x.now)

def monitorDone (ev : IntradayEvent) : Bool :=
  decide (ev.eventType ∈ Workflow.MONITOR_EXECUTED_EVENT_TYPES) && !(upperNames ev.symbols).isEmpty &&
    !(upperNames ev.symbols).any (· ∈ x.held)

def sessionMarker (ev : IntradayEvent) : Bool :=
  decide (ev.eventType ∈ SESSION_MARKER_EVENTS) && !x.keepSessionMarkers

/-- The first pass closes the event. -/
def isOver (ev : IntradayEvent) : Bool :=
  isOpenStatus ev.status && (x.expired ev || x.monitorDone ev || x.sessionMarker ev)

def closeOver (ev : IntradayEvent) : IntradayEvent :=
  if x.isOver ev then
    { ev with status := if x.expired ev && !x.monitorDone ev then "EXPIRED" else "PROCESSED" }
  else ev

/-- The symbol a holding review is grouped under. -/
def holdKey (ev : IntradayEvent) : Option String :=
  let overlap := (upperNames ev.symbols).filter (· ∈ x.reviewHold)
  if isOpenStatus ev.status ∧ ev.eventType = "MAX_HOLDING_TIME_REACHED" ∧ overlap ≠ [] then
    some (x.any.pick overlap)
  else none

/-- The second pass closes the event: its group has a newer one. -/
def superseded (rows : List IntradayEvent) (ev : IntradayEvent) : Bool :=
  (x.holdKey ev).any fun key =>
    decide ((x.newest.sort (rows.filter fun r => x.holdKey r = some key)).head?.map (·.id) ≠ some ev.id)

def closeSuperseded (rows : List IntradayEvent) (ev : IntradayEvent) : IntradayEvent :=
  if x.superseded rows ev then { ev with status := "PROCESSED" } else ev

/-- Both passes over a row of the table. -/
def foldRow (t : EventTable) (ev : IntradayEvent) : IntradayEvent :=
  x.closeSuperseded (t.rows.map x.closeOver) (x.closeOver ev)

end

/-- A function on rows that can close one, and does nothing else. -/
structure OnlyCloses (f : IntradayEvent → IntradayEvent) : Prop where
  rest : ∀ r, f r = { r with status := (f r).status }
  opens : ∀ r, isOpenStatus (f r).status → f r = r

variable {x}

theorem onlyCloses_closeOver [Casing] : OnlyCloses x.closeOver := by
  constructor
  · intro r
    unfold closeOver
    split <;> rfl
  · intro r h
    unfold closeOver at h ⊢
    split
    · rename_i hover
      rw [if_pos hover] at h
      dsimp only at h
      split at h <;> exact absurd h (by decide)
    · rfl

theorem onlyCloses_closeSuperseded [Casing] (rows : List IntradayEvent) : OnlyCloses
    (x.closeSuperseded rows) := by
  constructor
  · intro r
    unfold closeSuperseded
    split <;> rfl
  · intro r h
    unfold closeSuperseded at h ⊢
    split
    · rename_i hold
      rw [if_pos hold] at h
      dsimp only at h
      exact absurd h (by decide)
    · rfl

theorem OnlyCloses.comp {f g : IntradayEvent → IntradayEvent} (hf : OnlyCloses f) (hg : OnlyCloses g) :
    OnlyCloses fun r => f (g r) := by
  constructor
  · intro r
    rw [hf.rest (g r), hg.rest r]
  · intro r h
    have hfg : f (g r) = g r := hf.opens (g r) h
    rw [hfg] at h ⊢
    exact hg.opens r h

theorem onlyCloses_foldRow [Casing] (t : EventTable) : OnlyCloses (x.foldRow t) :=
  (onlyCloses_closeSuperseded _).comp onlyCloses_closeOver

variable (x)

/-- What `fold_session_residue` does to the events. -/
def foldEvents [Casing] (t : EventTable) : EventTable :=
  t.update (x.foldRow t) fun r => by rw [(onlyCloses_foldRow t).rest r]

/-! ## Intents and alerts -/

variable (str : Json → String)

/-- `str(value or "").upper()`, under either casing. -/
def nameOf (casing : String → String) (value : Json) : String := casing (valueText str (value.orElse (.str "")))

variable [Casing]

/-- The intent is of a stop, or of a holding time, that is not in force any more. -/
def endsIntent (intent : FoldIntent) : Bool :=
  let reason := nameOf str Casing.lower (Dict.at (entriesOf intent.metadataJson) "reason")
  let thesis := Casing.lower (intent.thesis.getD "")
  let sym := Casing.upper intent.symbol
  decide (intent.status = "CREATED") &&
    if reason = "max_holding_time" ∨ thesis = "max_holding_time" then
      decide (sym ∉ x.held ∨ sym ∈ x.reviewHold)
    else decide (reason = "hard_stop" ∨ thesis = "hard_stop") && decide (sym ∉ x.held)

/-- The symbols of the flagged reviews; what is no list has none, and what is no review is left out. -/
def flaggedNames : Json → List String
  | .arr flagged =>
    (flagged.filter Json.isObj).map fun r => nameOf str Casing.upper (Dict.at (entriesOf r) "symbol")
  | _ => []

/-- `_fold_stale_alerts`, of one row. -/
def endsAlert (row : FoldAlert) : Bool :=
  let ctx := entriesOf (Dict.at (entriesOf row.payload) "context")
  let sd := nameOf str id (Dict.at ctx "session_date")
  let names := flaggedNames str (Dict.at ctx "flagged")
  let sym := nameOf str Casing.upper ((Dict.at ctx "symbol").orElse (.str (row.symbol.getD "")))
  let past := (x.sessionDate.filter (· ≠ "")).any fun date => decide (sd ≠ "") && decide (sd < date)
  decide (row.status ∈ ["active", "acknowledged"]) &&
    if row.alertType = "trading.hard_stop" then decide (sym ≠ "") && decide (sym ∉ x.held)
    else decide (row.alertType = "trading.overnight_review") &&
      (past || !names.isEmpty && !names.any (· ∈ x.held))

/-- `fold_session_residue`, and `out`. -/
def fold (b : Board) : Board × FoldCounts :=
  ({ events := x.foldEvents b.events
     intents := b.intents.map fun i => if x.endsIntent str i then { i with status := "EXPIRED" } else i
     alerts := b.alerts.map fun a =>
       if x.endsAlert str a then { a with status := "resolved", resolvedAt := some x.now } else a },
   { events := b.events.rows.countP x.isOver +
       (b.events.rows.map x.closeOver).countP (x.superseded (b.events.rows.map x.closeOver))
     intents := b.intents.countP (x.endsIntent str)
     alerts := b.alerts.countP (x.endsAlert str) })

end Names

/-! ## What one fold does -/

section Once

variable {x : FoldCall} {t : EventTable} {r : IntradayEvent}

section

variable [Casing]

/-- Nothing is left that a fold would close. -/
structure Settled (x : FoldCall) (t : EventTable) : Prop where
  notOver : ∀ r ∈ t.rows, x.isOver r = false
  onePerHold : ∀ r ∈ t.rows, ∀ s ∈ t.rows, ∀ key, x.holdKey r = some key → x.holdKey s = some key → r.id = s.id

theorem isOpen_of_holdKey {key : String} (h : x.holdKey r = some key) : isOpenStatus r.status := by
  unfold holdKey at h
  dsimp only at h
  split at h
  · rename_i hsome
    exact hsome.1
  · cases h

theorem isOpen_of_superseded {rows : List IntradayEvent} (h : x.superseded rows r) : isOpenStatus r.status := by
  unfold superseded at h
  cases hkey : x.holdKey r with
  | none => rw [hkey] at h; cases h
  | some key => exact isOpen_of_holdKey hkey

theorem open_closeOver (r : IntradayEvent) :
    isOpenStatus (x.closeOver r).status = (isOpenStatus r.status && !x.isOver r) := by
  unfold closeOver
  cases hover : x.isOver r with
  | false => simp
  | true =>
    rw [if_pos rfl]
    dsimp only
    split <;> simp [isOpenStatus]

theorem open_closeSuperseded (rows : List IntradayEvent) (r : IntradayEvent) :
    isOpenStatus (x.closeSuperseded rows r).status = (isOpenStatus r.status && !x.superseded rows r) := by
  unfold closeSuperseded
  cases x.superseded rows r with
  | false => simp
  | true => simp [isOpenStatus]

theorem open_foldRow (r : IntradayEvent) : isOpenStatus (x.foldRow t r).status =
    (isOpenStatus r.status && !x.isOver r && !x.superseded (t.rows.map x.closeOver) (x.closeOver r)) := by
  rw [foldRow, open_closeSuperseded, open_closeOver]

theorem eq_of_open_foldRow (h : isOpenStatus (x.foldRow t r).status) :
    x.foldRow t r = r ∧ x.isOver r = false ∧ x.superseded (t.rows.map x.closeOver) r = false := by
  have hopen := h
  rw [open_foldRow, Bool.and_eq_true, Bool.and_eq_true, Bool.not_eq_true', Bool.not_eq_true'] at hopen
  obtain ⟨⟨-, hover⟩, hsuperseded⟩ := hopen
  have hkept : x.closeOver r = r := by rw [closeOver, if_neg (by simp [hover])]
  exact ⟨(onlyCloses_foldRow t).opens r h, hover, hkept ▸ hsuperseded⟩

/-! ## What one fold leaves -/

/-- The rows of a key that the second pass finds. -/
def group (x : FoldCall) (rows : List IntradayEvent) (key : String) : List IntradayEvent :=
  rows.filter fun r => x.holdKey r = some key

theorem superseded_eq_false {rows : List IntradayEvent} {key : String} (hkey : x.holdKey r = some key) :
    x.superseded rows r = false ↔ (x.newest.sort (x.group rows key)).head?.map (·.id) = some r.id := by
  rw [superseded, hkey, Option.any_some, decide_eq_false_iff_not, not_not]
  rfl

theorem settled_foldEvents (x : FoldCall) (t : EventTable) : x.Settled (x.foldEvents t) := by
  constructor
  · intro r hr
    obtain ⟨y, -, rfl⟩ := List.mem_map.mp hr
    cases hopen : isOpenStatus (x.foldRow t y).status with
    | false => rw [isOver, hopen, Bool.false_and]
    | true =>
      obtain ⟨hsame, hover, -⟩ := eq_of_open_foldRow hopen
      rw [hsame, hover]
  · intro r hr s hs key hkr hks
    obtain ⟨y, -, rfl⟩ := List.mem_map.mp hr
    obtain ⟨z, -, rfl⟩ := List.mem_map.mp hs
    obtain ⟨hsame, -, hfirst⟩ := eq_of_open_foldRow (isOpen_of_holdKey hkr)
    obtain ⟨hsame', -, hfirst'⟩ := eq_of_open_foldRow (isOpen_of_holdKey hks)
    rw [hsame] at hkr ⊢
    rw [hsame'] at hks ⊢
    have heq := ((superseded_eq_false hkr).mp hfirst).symm.trans ((superseded_eq_false hks).mp hfirst')
    exact Option.some.inj heq

theorem Settled.map_closeOver (h : x.Settled t) : t.rows.map x.closeOver = t.rows := by
  refine (List.map_congr_left fun r hr => ?_).trans (List.map_id _)
  rw [closeOver, if_neg (by simp [h.notOver r hr]), id]

theorem Settled.superseded (h : x.Settled t) (hr : r ∈ t.rows) : x.superseded t.rows r = false := by
  cases hkey : x.holdKey r with
  | none => rw [FoldCall.superseded, hkey, Option.any_none]
  | some key =>
    rw [superseded_eq_false hkey]
    have hmem : r ∈ x.group t.rows key := List.mem_filter.mpr ⟨hr, decide_eq_true hkey⟩
    cases hhead : (x.newest.sort (x.group t.rows key)).head? with
    | none =>
      rw [x.newest.head?_eq_none_iff.mp hhead] at hmem
      cases hmem
    | some s =>
      obtain ⟨hs, hks⟩ := List.mem_filter.mp (x.newest.mem_of_head? hhead)
      rw [Option.map_some, h.onePerHold s hs r hr key (of_decide_eq_true hks) hkey]

theorem foldEvents_of_settled (h : x.Settled t) : x.foldEvents t = t := by
  apply KeyedTable.ext_rows
  have hrows : (x.foldEvents t).rows = (t.rows.map x.closeOver).map (x.closeSuperseded (t.rows.map x.closeOver)) :=
    (List.map_map).symm
  rw [hrows, h.map_closeOver]
  refine (List.map_congr_left fun r hr => ?_).trans (List.map_id _)
  rw [closeSuperseded, if_neg (by simp [h.superseded hr]), id]

/-- The newest event of a key survives the fold. -/
theorem newest_stays {key : String} (hr : r ∈ t.rows) (hover : x.isOver r = false) (hkey : x.holdKey r = some key) :
    ∃ s ∈ (x.foldEvents t).rows, s ∈ t.rows ∧ x.holdKey s = some key ∧
      ∀ y ∈ t.rows, x.isOver y = false → x.holdKey y = some key → y.detectedAt ≤ s.detectedAt := by
  have hgroup : ∀ y ∈ t.rows, x.isOver y = false → x.holdKey y = some key →
      y ∈ x.newest.sort (x.group (t.rows.map x.closeOver) key) := by
    intro y hy hnot hky
    refine x.newest.mem_sort.mpr (List.mem_filter.mpr ⟨List.mem_map.mpr ⟨y, hy, ?_⟩, decide_eq_true hky⟩)
    rw [closeOver, if_neg (by simp [hnot])]
  have hsorted := x.newest.sorted (x.group (t.rows.map x.closeOver) key)
  cases hsort : x.newest.sort (x.group (t.rows.map x.closeOver) key) with
  | nil =>
    have hmem := hgroup r hr hover hkey
    rw [hsort] at hmem
    cases hmem
  | cons s rest =>
    have hs : s ∈ x.group (t.rows.map x.closeOver) key := x.newest.mem_sort.mp (hsort ▸ List.mem_cons_self)
    obtain ⟨hs, hks⟩ := List.mem_filter.mp hs
    have hks : x.holdKey s = some key := of_decide_eq_true hks
    obtain ⟨y, hy, rfl⟩ := List.mem_map.mp hs
    have hsame : x.closeOver y = y := onlyCloses_closeOver.opens y (isOpen_of_holdKey hks)
    have hfirst : x.superseded (t.rows.map x.closeOver) (x.closeOver y) = false := by
      rw [superseded_eq_false hks, hsort]
      rfl
    rw [hsame] at hsort hks hfirst
    refine ⟨y, List.mem_map.mpr ⟨y, hy, ?_⟩, hy, hks, ?_⟩
    · rw [foldRow, hsame, closeSuperseded, if_neg (by simp [hfirst])]
    · intro z hz hnot hkz
      have hmem := hgroup z hz hnot hkz
      rw [hsort] at hmem hsorted
      rcases List.mem_cons.mp hmem with rfl | hlater
      · exact le_refl _
      · exact (List.pairwise_cons.mp hsorted).1 z hlater

/-- **A fold settles the table at once and leaves a settled one as it is; of the reviews of a symbol that are not
    over it keeps the newest.** -/
theorem fold_settles (x : FoldCall) (t : EventTable) :
    x.Settled (x.foldEvents t) ∧ (x.foldEvents t = t ↔ x.Settled t) ∧
    ∀ r ∈ t.rows, x.isOver r = false → ∀ key, x.holdKey r = some key →
      ∃ s ∈ (x.foldEvents t).rows, s ∈ t.rows ∧ x.holdKey s = some key ∧
        ∀ y ∈ t.rows, x.isOver y = false → x.holdKey y = some key → y.detectedAt ≤ s.detectedAt :=
  ⟨settled_foldEvents x t, ⟨fun h => h ▸ settled_foldEvents x t, foldEvents_of_settled⟩,
    fun _ hr hover _ hkey => newest_stays hr hover hkey⟩

end

/-! ## What is counted -/

theorem countP_closes {ρ : Type} {f : ρ → ρ} {q p : ρ → Bool} (hf : ∀ r, q (f r) = (q r && !p r))
    (hp : ∀ r, p r → q r) (rows : List ρ) : (rows.map f).countP q + rows.countP p = rows.countP q := by
  induction rows with
  | nil => rfl
  | cons r rows ih =>
    rw [List.map_cons, List.countP_cons, List.countP_cons, List.countP_cons, hf]
    have hr := hp r
    cases hq : q r <;> cases hc : p r <;> simp_all <;> omega

variable (str : Json → String)

theorem closes_once {ρ : Type} {f : ρ → ρ} {q p : ρ → Bool} (hf : ∀ r, q (f r) = false) (hp : ∀ r, p r → q r)
    (rows : List ρ) : let closed := rows.map fun r => if p r then f r else r
    closed.countP q + rows.countP p = rows.countP q ∧ closed.countP p = 0 ∧
      closed.map (fun r => if p r then f r else r) = closed := by
  have hclosed : ∀ r ∈ rows.map fun r => if p r then f r else r, ¬p r := by
    intro r hr hpr
    obtain ⟨y, -, rfl⟩ := List.mem_map.mp hr
    by_cases hy : p y
    · rw [if_pos hy] at hpr
      exact absurd (hp _ hpr) (by simp [hf])
    · exact hy (by rwa [if_neg hy] at hpr)
  refine ⟨countP_closes (fun r => ?_) hp rows, List.countP_eq_zero.mpr hclosed, ?_⟩
  · cases hpr : p r <;> simp [hf]
  · exact (List.map_congr_left fun r hr => if_neg (hclosed r hr)).trans (List.map_id _)

/-- **What a fold counts is how many fewer are open, of each kind; and if it is made again it finds nothing.** -/
theorem fold_counts [Casing] (x : FoldCall) (b : Board) :
    let after := (x.fold str b).1
    let out := (x.fold str b).2
    (after.events.rows.countP (isOpenStatus ·.status) + out.events = b.events.rows.countP (isOpenStatus ·.status)) ∧
    (after.intents.countP (·.status = "CREATED") + out.intents = b.intents.countP (·.status = "CREATED")) ∧
    (after.alerts.countP (·.status ∈ ["active", "acknowledged"]) + out.alerts =
      b.alerts.countP (·.status ∈ ["active", "acknowledged"])) ∧
    x.fold str after = (after, ⟨0, 0, 0⟩) := by
  have hsettled := settled_foldEvents x b.events
  have hintents := closes_once (f := fun i : FoldIntent => { i with status := "EXPIRED" }) (p := x.endsIntent str)
    (q := fun i => decide (i.status = "CREATED")) (fun _ => rfl)
    (fun i h => (Bool.and_eq_true_iff.mp h).1) b.intents
  have halerts := closes_once (p := x.endsAlert str) (q := fun a => decide (a.status ∈ ["active", "acknowledged"]))
    (f := fun a : FoldAlert => { a with status := "resolved", resolvedAt := some x.now }) (fun _ => by simp)
    (fun a h => (Bool.and_eq_true_iff.mp h).1) b.alerts
  refine ⟨?_, hintents.1, halerts.1, ?_⟩
  · have hfirst := countP_closes (f := x.closeOver) (p := x.isOver) (q := (isOpenStatus ·.status)) open_closeOver
      (fun r h => (Bool.and_eq_true_iff.mp h).1) b.events.rows
    have hsecond := countP_closes (p := x.superseded (b.events.rows.map x.closeOver))
      (q := (isOpenStatus ·.status)) (open_closeSuperseded _) (fun r h => isOpen_of_superseded h)
      (b.events.rows.map x.closeOver)
    rw [List.map_map] at hsecond
    have hrows : (x.fold str b).1.events.rows =
        b.events.rows.map (x.closeSuperseded (b.events.rows.map x.closeOver) ∘ x.closeOver) := rfl
    rw [hrows]
    unfold fold
    dsimp only
    omega
  · unfold fold
    dsimp only
    rw [foldEvents_of_settled hsettled, hsettled.map_closeOver, hintents.2.1, hintents.2.2, halerts.2.1, halerts.2.2,
      List.countP_eq_zero.mpr fun r hr => by simp [hsettled.notOver r hr],
      List.countP_eq_zero.mpr fun r hr => by simp [hsettled.superseded hr]]

end Once

end FoldCall

/-! ## Runs -/

inductive HygieneCall
  | bus (call : BusCall)
  | fold (x : FoldCall)

section Runs

def hygieneStep [Casing] (o : NewestFirst IntradayEvent.detectedAt) (windowSeconds : Int) (t : EventTable) :
    HygieneCall → EventTable
  | .bus call => busStep o windowSeconds t call
  | .fold x => x.foldEvents t

def HygieneCall.OpensNoSecond (t : EventTable) : HygieneCall → Prop
  | .bus call => Intraday.OpensNoSecond t call
  | .fold _ => True

variable {o : NewestFirst IntradayEvent.detectedAt} {windowSeconds : Int} {x : FoldCall} {t : EventTable}
  {r : IntradayEvent}

theorem windowApart_foldEvents [Casing] (h : WindowApart windowSeconds t) : WindowApart windowSeconds
    (x.foldEvents t) := by
  intro a ha b hb hkey hne
  obtain ⟨y, hy, rfl⟩ := List.mem_map.mp ha
  obtain ⟨z, hz, rfl⟩ := List.mem_map.mp hb
  rw [(FoldCall.onlyCloses_foldRow t).rest y, (FoldCall.onlyCloses_foldRow t).rest z] at hkey hne ⊢
  exact h y hy z hz hkey hne

theorem openOnce_foldEvents [Casing] (h : OpenOnce t) : OpenOnce (x.foldEvents t) := by
  intro a ha b hb hkey hopen hopen'
  obtain ⟨y, hy, rfl⟩ := List.mem_map.mp ha
  obtain ⟨z, hz, rfl⟩ := List.mem_map.mp hb
  have hsame : x.foldRow t y = y := (FoldCall.onlyCloses_foldRow t).opens y hopen
  have hsame' : x.foldRow t z = z := (FoldCall.onlyCloses_foldRow t).opens z hopen'
  rw [hsame, hsame'] at hkey ⊢
  exact h y hy z hz hkey (hsame ▸ hopen) (hsame' ▸ hopen')

/-- **However folds come between the calls of the bus, the rows of a key stay the window apart, and a key has at
    most one open row all along exactly if no mark opens a second one: no fold ever opens one.** -/
theorem deduplicated_hygiene [Casing] (o : NewestFirst IntradayEvent.detectedAt) (windowSeconds : Int)
    (calls : List HygieneCall) :
    (∀ done, done <+: calls →
      WindowApart windowSeconds (runFrom (hygieneStep o windowSeconds) KeyedTable.empty done)) ∧
    ((∀ done, done <+: calls → OpenOnce (runFrom (hygieneStep o windowSeconds) KeyedTable.empty done)) ↔
      StepsMeet (hygieneStep o windowSeconds) HygieneCall.OpensNoSecond KeyedTable.empty calls) := by
  constructor
  · intro done _
    refine run_invariant (fun t call h => ?_) fun x hx => by cases hx
    cases call with
    | bus call => exact windowApart_step t call h
    | fold x => exact windowApart_foldEvents h
  · refine all_reached_iff (fun t call h => ?_) fun x hx => by cases hx
    cases call with
    | bus call => exact openOnce_step t call h
    | fold x => exact iff_of_true (openOnce_foldEvents h) trivial

/-! ## What stays open -/

/-- The same event, whatever became of it. -/
structure SameEvent (r r' : IntradayEvent) : Prop where
  id : r'.id = r.id
  eventType : r'.eventType = r.eventType
  symbols : r'.symbols = r.symbols
  expiresAt : r'.expiresAt = r.expiresAt

theorem sameEvent_hit (r : IntradayEvent) : SameEvent r (hit r) := by
  unfold hit
  split <;> exact ⟨rfl, rfl, rfl, rfl⟩

/-- A fold comes before the event expires, and one of its symbols is held. -/
def FoldCall.Spares [Casing] (x : FoldCall) (r : IntradayEvent) : Prop :=
  x.now < r.expiresAt ∧ ∃ s ∈ upperNames r.symbols, s ∈ x.held

theorem find?_busStep (o : NewestFirst IntradayEvent.detectedAt) (windowSeconds : Int) {call : BusCall}
    (hr : t.find? r.id = some r) (unmarked : ∀ s, call ≠ .mark r.id s) :
    ∃ r', (busStep o windowSeconds t call).find? r.id = some r' ∧ SameEvent r r' ∧ r'.status = r.status := by
  cases call with
  | publish p now =>
    unfold busStep publish
    dsimp only
    split
    · rename_i y _
      rw [KeyedTable.find?_updateAt, hr, Option.map_some]
      split
      · exact ⟨_, rfl, sameEvent_hit r, (kept_hit r).status⟩
      · exact ⟨r, rfl, ⟨rfl, rfl, rfl, rfl⟩, rfl⟩
    · rw [KeyedTable.find?_putNew, hr, Option.some_or]
      exact ⟨r, rfl, ⟨rfl, rfl, rfl, rfl⟩, rfl⟩
  | mark id s =>
    have hne : r.id ≠ id := fun heq => unmarked s (heq ▸ rfl)
    unfold busStep mark
    dsimp only
    rw [KeyedTable.find?_updateAt, hr, Option.map_some, if_neg hne]
    exact ⟨r, rfl, ⟨rfl, rfl, rfl, rfl⟩, rfl⟩

variable [Casing]

/-- An event the monitor has acted on, of some symbol, that is no holding review. -/
structure MonitorEvent (r : IntradayEvent) : Prop where
  executed : r.eventType ∈ Workflow.MONITOR_EXECUTED_EVENT_TYPES
  noReview : r.eventType ≠ "MAX_HOLDING_TIME_REACHED"
  named : upperNames r.symbols ≠ []

theorem SameEvent.spares_iff {r' : IntradayEvent} (h : SameEvent r r') (x : FoldCall) :
    x.Spares r' ↔ x.Spares r := by
  rw [FoldCall.Spares, h.expiresAt, h.symbols, FoldCall.Spares]

theorem SameEvent.monitorEvent {r' : IntradayEvent} (h : SameEvent r r') (hr : MonitorEvent r) : MonitorEvent r' :=
  ⟨h.eventType ▸ hr.executed, h.eventType ▸ hr.noReview, h.symbols ▸ hr.named⟩

theorem open_foldRow_iff (h : MonitorEvent r) :
    isOpenStatus (x.foldRow t r).status ↔ isOpenStatus r.status ∧ x.Spares r := by
  have hmarker : x.sessionMarker r = false := by
    have hkinds := h.executed
    simp only [Workflow.MONITOR_EXECUTED_EVENT_TYPES, List.mem_cons, List.not_mem_nil, or_false] at hkinds
    unfold FoldCall.sessionMarker
    rcases hkinds with hkind | hkind | hkind | hkind <;> simp [hkind, SESSION_MARKER_EVENTS]
  have hkey : x.holdKey (x.closeOver r) = none := by
    unfold FoldCall.holdKey
    rw [FoldCall.onlyCloses_closeOver.rest r]
    exact if_neg fun hreview => h.noReview hreview.2.1
  rw [FoldCall.open_foldRow, FoldCall.superseded, hkey, FoldCall.isOver, hmarker, FoldCall.expired, FoldCall.monitorDone,
    FoldCall.Spares]
  simp only [decide_eq_true h.executed, List.isEmpty_eq_false_iff.mpr h.named]
  cases isOpenStatus r.status with
  | false => simp
  | true => simp

/-- **A stop or a target that no mark touches stays open through any run exactly if every fold in it comes before
    the event expires and finds one of its symbols held.** -/
theorem monitor_event_open_iff (o : NewestFirst IntradayEvent.detectedAt) (windowSeconds : Int) {t : EventTable}
    {r : IntradayEvent} (hr : r ∈ t.rows) (h : MonitorEvent r) {calls : List HygieneCall}
    (unmarked : ∀ s, .bus (.mark r.id s) ∉ calls) :
    ((runFrom (hygieneStep o windowSeconds) t calls).find? r.id).any (fun r' => isOpenStatus r'.status) ↔
      isOpenStatus r.status ∧ ∀ x, .fold x ∈ calls → x.Spares r := by
  have hfind := KeyedTable.find?_eq_some_iff.mpr ⟨hr, rfl⟩
  clear hr
  induction calls generalizing t r with
  | nil => simp [hfind]
  | cons call calls ih =>
    have hlater : ∀ s, HygieneCall.bus (.mark r.id s) ∉ calls :=
      fun s hmem => unmarked s (List.mem_cons_of_mem _ hmem)
    cases call with
    | bus call =>
      have hother : ∀ s, call ≠ .mark r.id s := fun s heq => unmarked s (heq ▸ List.mem_cons_self)
      obtain ⟨r', hfind', hsame, hstatus⟩ := find?_busStep o windowSeconds hfind hother
      rw [← hsame.id] at hfind' hlater ⊢
      refine (ih (hsame.monitorEvent h) hlater hfind').trans ?_
      rw [hstatus]
      simp [hsame.spares_iff]
    | fold x =>
      have hrest : x.foldRow t r = { r with status := (x.foldRow t r).status } :=
        (FoldCall.onlyCloses_foldRow t).rest r
      have hsame : SameEvent r (x.foldRow t r) := by
        rw [hrest]
        exact ⟨rfl, rfl, rfl, rfl⟩
      have hfind' : (x.foldEvents t).find? r.id = some (x.foldRow t r) := by
        rw [FoldCall.foldEvents, KeyedTable.find?_update, hfind, Option.map_some]
      rw [← hsame.id] at hfind' hlater ⊢
      refine (ih (hsame.monitorEvent h) hlater hfind').trans ?_
      rw [open_foldRow_iff h]
      simp [hsame.spares_iff, and_assoc]

end Runs

section Sample

attribute [local instance] asciiCasing

def stopRow : IntradayEvent := newEvent (published "STOP_TRIGGERED" "stop:1") 0 1

def flatFold : FoldCall where
  lifecycles := []
  now := 0
  phase := none
  sessionDate := none
  any := ⟨fun names => names.headD "", fun names h => by cases names with
    | nil => exact absurd rfl h
    | cons s names => exact List.mem_cons_self⟩
  newest := inTurn

theorem stop_closed_when_flat : ¬ ((runFrom (hygieneStep inTurn 300) ⟨[stopRow], List.nodup_singleton 1⟩
    [.fold flatFold]).find? 1).any fun r' => isOpenStatus r'.status := by
  intro h
  have hspared := (monitor_event_open_iff inTurn 300 (r := stopRow) (List.mem_singleton.mpr rfl)
    ⟨by decide, by decide, by decide +kernel⟩ (by simp)).mp h
  obtain ⟨-, s, -, hheld⟩ := hspared.2 flatFold (List.mem_singleton.mpr rfl)
  cases hheld

end Sample

end Investor.Intraday
