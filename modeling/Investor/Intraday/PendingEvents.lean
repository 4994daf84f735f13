import Investor.Intraday.EventBus

/-!
# Pending events

`list_pending_actionable` is where a drain learns of an event that waits. It reads the newest rows
of the table, `max(limit * 3, 40)` of them and whatever their status, and filters these: the limit
of the query stands before the filter. An event that waits is found only until so many have come
after it, and as long as its row waits `publish` counts what comes again on that row and does not
renew it.

What is listed is what is actionable among the rows that were fetched
(`mem_listPendingActionable`); the rest is counting (`NewestFirst.mem_take_iff`).
-/

namespace Investor.Intraday

open Lib

/-! ## The loop -/

theorem collect_eq {keep : IntradayEvent → Bool} {limit : Int} {rows out : List IntradayEvent}
    (h : ((out.length + rows.countP keep : ℕ) : Int) ≤ limit) :
    collect keep limit rows out = out ++ rows.filter keep := by
  induction rows generalizing out with
  | nil => simp [collect]
  | cons ev rows ih =>
    unfold collect
    cases hkeep : keep ev with
    | false =>
      rw [List.countP_cons_of_neg (by simp [hkeep])] at h
      rw [if_neg (by simp), ih h, List.filter_cons_of_neg (by simp [hkeep])]
    | true =>
      rw [List.countP_cons_of_pos hkeep] at h
      rw [if_pos rfl, List.filter_cons_of_pos hkeep]
      split
      · rename_i hfull
        rw [List.length_append, List.length_singleton] at hfull
        have hnone : rows.countP keep = 0 := by omega
        rw [List.filter_eq_nil_iff.mpr (List.countP_eq_zero.mp hnone)]
      · rw [ih (by rw [List.length_append, List.length_singleton]; omega), List.append_assoc]
        rfl

section Pending

variable [Casing] {str : Json → String} {limit : Int} {venue : Option String} {t : EventTable}

def FewActionable (str : Json → String) (limit : Int) (venue : Option String) (t : EventTable) :
    Prop :=
  (t.rows.countP (isActionable str venue) : Int) ≤ limit

theorem mem_listPendingActionable (h : FewActionable str limit venue t)
    (o : NewestFirst IntradayEvent.detectedAt) {e : IntradayEvent} :
    e ∈ listPendingActionable str o limit venue t ↔
      e ∈ listEvents o (fetched limit) t ∧ isActionable str venue e := by
  have hle : (listEvents o (fetched limit) t).countP (isActionable str venue) ≤
      t.rows.countP (isActionable str venue) := by
    calc (listEvents o (fetched limit) t).countP (isActionable str venue)
        ≤ (o.sort t.rows).countP (isActionable str venue) := (List.take_sublist _ _).countP_le
      _ = t.rows.countP (isActionable str venue) := (o.perm t.rows).countP_eq _
  have hfew : ((0 + (listEvents o (fetched limit) t).countP (isActionable str venue) : ℕ) : Int) ≤
      limit := by
    unfold FewActionable at h
    omega
  rw [listPendingActionable, collect_eq hfew, List.nil_append, List.mem_filter]

/-- **Every actionable event is listed, however the database sorts, exactly if each of them has no
    more rows as new as it than are fetched.** -/
theorem pending_complete_iff (str : Json → String) (limit : Int) (venue : Option String)
    (t : EventTable) (h : FewActionable str limit venue t) :
    (∀ o, ∀ e ∈ t.rows, isActionable str venue e → e ∈ listPendingActionable str o limit venue t) ↔
      ∀ e ∈ t.rows, isActionable str venue e →
        NewestFirst.asNew IntradayEvent.detectedAt t.rows e ≤ fetched limit := by
  constructor
  · intro hall e he hact
    refine (NewestFirst.mem_take_iff t.unique he).mp fun o => ?_
    exact ((mem_listPendingActionable h o).mp (hall o e he hact)).1
  · intro hfew o e he hact
    exact (mem_listPendingActionable h o).mpr ⟨o.mem_take he (hfew e he hact), hact⟩

end Pending

/-! ## A stop behind a busy table -/

section Sample

attribute [local instance] asciiCasing

def stopEvent : IntradayEvent := newEvent (published "STOP_TRIGGERED" "stop:1") 0 0

def priceEvent (i : ℕ) : IntradayEvent :=
  newEvent (published "MARKET_DATA_UPDATE" s!"price:{i}") (i + 1 : ℕ) (i + 1)

/-- A stop, and after it `n` prices. -/
def busyTable (n : ℕ) : EventTable where
  rows := stopEvent :: (List.range n).map priceEvent
  unique := by
    rw [List.map_cons, List.map_map, List.nodup_cons]
    refine ⟨fun hmem => ?_, List.nodup_range.map fun i j h => Nat.succ.inj h⟩
    obtain ⟨i, -, hi⟩ := List.mem_map.mp hmem
    exact Nat.succ_ne_zero i hi

/-- Forty prices after it, a stop is not seen. -/
theorem starved_stop :
    ¬ ∀ (str : Json → String) (limit : Int) (venue : Option String) (t : EventTable),
      FewActionable str limit venue t → ∀ o, ∀ e ∈ t.rows, isActionable str venue e →
        e ∈ listPendingActionable str o limit venue t := by
  intro h
  have hmem := h (fun _ => "") 13 none (busyTable 40) (by unfold FewActionable; decide +kernel) inTurn
    _ List.mem_cons_self (by decide +kernel)
  have hlisted : listPendingActionable (fun _ => "") inTurn 13 none (busyTable 40) = [] :=
    List.eq_nil_of_length_eq_zero (by decide +kernel)
  rw [hlisted] at hmem
  cases hmem

/-- Behind one price it is. -/
theorem seen_stop : stopEvent ∈ listPendingActionable (fun _ => "") inTurn 13 none (busyTable 1) :=
  (pending_complete_iff (fun _ => "") 13 none (busyTable 1)
    (by unfold FewActionable; decide +kernel)).mpr (by decide +kernel) inTurn stopEvent
    List.mem_cons_self (by decide +kernel)

end Sample

end Investor.Intraday
