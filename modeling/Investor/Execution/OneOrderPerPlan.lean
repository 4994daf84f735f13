import Investor.Execution.FirmExecution
import Investor.Execution.IntentRuns
import Investor.Execution.ValidationBatch

/-!
# One order for each plan

`materialize_cio_decision` makes two things of a plan: an order intent, and, where the paper
automation is unlocked, an order. The order goes under the key of the plan, and an order of the
intent under a client id of its own, so the unique key of the orders table keeps neither from the
other. Within the bridge every plan gets one order at most; the operations on the intents keep it
that way as long as no intent is submitted whose plan has an order on file (`SubmitsUnfiled`).
-/

namespace Investor.Execution

open Lib Schema Market Risk Universe Core

/-! ## A batch of direct orders -/

/-- What a batch under these keys may do: for each of them one order at most, and a row. -/
structure SentOf (keys : List String) (w₀ w : World) : Prop where
  frame : Frame w₀ w
  accepted : ∃ l, w.accepted = w₀.accepted ++ l ∧ (l.map (·.plan)).Sublist keys ∧
    (w.db.broken = false → ∀ o ∈ l, w.db.working.orders.HasKey o.plan)

theorem SentOf.refl (w : World) : SentOf [] w w :=
  ⟨Frame.refl w, [], (List.append_nil _).symm, List.Sublist.refl _,
    fun _ _ ho => absurd ho List.not_mem_nil⟩

theorem SentOf.mono {keys keys' : List String} {w₀ w : World} (h : SentOf keys w₀ w)
    (hkeys : keys.Sublist keys') : SentOf keys' w₀ w := by
  obtain ⟨l, heq, hsub, hrows⟩ := h.accepted
  exact ⟨h.frame, l, heq, hsub.trans hkeys, hrows⟩

theorem SentOf.trans {keys keys' : List String} {w₀ w₁ w : World} (h : SentOf keys w₀ w₁)
    (h' : SentOf keys' w₁ w) : SentOf (keys ++ keys') w₀ w := by
  obtain ⟨l, heq, hsub, hrows⟩ := h.accepted
  obtain ⟨l', heq', hsub', hrows'⟩ := h'.accepted
  refine ⟨h.frame.trans h'.frame, l ++ l', by rw [heq', heq, List.append_assoc], ?_, ?_⟩
  · rw [List.map_append]
    exact List.Sublist.append hsub hsub'
  · intro hb o ho
    rcases List.mem_append.mp ho with ho | ho
    · obtain ⟨hb₁, hkept⟩ := h'.frame.usable hb
      exact hkept.keys _ (hrows hb₁ o ho)
    · exact hrows' hb o ho

section Batch

variable [Casing] {env : Env} {cfg : Settings} {w₀ : World}

end Batch

/-! ## Plans on file -/

def PlanOnFile (k : String) (t : Tables) : Prop :=
  t.orders.HasKey k ∨
    ∃ i ∈ t.intents.rows, i.planKey = k ∧ ∃ r ∈ t.orders.rows, IsOrderOf i.id r

def NamesKept (t₀ t : Tables) : Prop :=
  ∀ i ∈ t₀.intents.rows, ∃ i' ∈ t.intents.rows, i'.name = i.name

theorem PlanOnFile.mono {k : String} {t₀ t : Tables} (h : PlanOnFile k t₀)
    (hrows : ∀ r ∈ t₀.orders.rows, r ∈ t.orders.rows) (hnames : NamesKept t₀ t) :
    PlanOnFile k t := by
  rcases h with hkey | ⟨i, hi, hplan, r, hr, hof⟩
  · obtain ⟨r, hr, rfl⟩ := KeyedTable.hasKey_iff.mp hkey
    exact Or.inl (KeyedTable.hasKey_of_mem (hrows r hr))
  · obtain ⟨i', hi', hname⟩ := hnames i hi
    have hid : i'.id = i.id := congrArg IntentName.id hname
    have hkey : i'.planKey = i.planKey := congrArg IntentName.planKey hname
    exact Or.inr ⟨i', hi', hkey.trans hplan, r, hrows r hr, hid.symm ▸ hof⟩

theorem IntentNow.namesKept {id : Nat} {P : OrderIntent → Prop} {t₀ t : Tables}
    {i₀ : OrderIntent} (h : IntentNow id P t₀ t) (hi₀ : t₀.intents.find? id = some i₀)
    (hname : ∀ i, P i → i.name = i₀.name) : NamesKept t₀ t := by
  intro i hi
  obtain ⟨i', hi', heq⟩ := h.names hi₀ hname (KeyedTable.find?_eq_some_iff.mpr ⟨hi, rfl⟩)
  exact ⟨i', (KeyedTable.find?_eq_some_iff.mp hi').1, heq⟩

/-! ## The bridge, and the operations after it -/

/-- One order at most was accepted of each plan since, and the plans of those are on file. -/
def Planned (w₀ w : World) : Prop :=
  ∃ l, w.accepted = w₀.accepted ++ l ∧ (l.map (·.plan)).Nodup ∧
    (w.db.broken = false → ∀ o ∈ l, PlanOnFile o.plan w.db.working)

theorem Planned.keep {w₀ w w' : World} (h : Planned w₀ w) (haccepted : w'.accepted = w.accepted)
    (hfiled : w'.db.broken = false → w.db.broken = false ∧
      (∀ r ∈ w.db.working.orders.rows, r ∈ w'.db.working.orders.rows) ∧
      NamesKept w.db.working w'.db.working) : Planned w₀ w' := by
  obtain ⟨l, heq, hnodup, hrows⟩ := h
  refine ⟨l, haccepted.trans heq, hnodup, fun hb o ho => ?_⟩
  obtain ⟨hb₀, hold, hnames⟩ := hfiled hb
  exact (hrows hb₀ o ho).mono hold hnames

section Runs

variable {env : Env} {cfg : Settings} {feed : FirmFeed} {digest : String → String}

theorem ReviewEffect.planned {id : Nat} {reviewed : OrderIntent → Tables → Tables → Prop}
    {w₀ w w' : World} (h : ReviewEffect reviewed id w w')
    (horders : ∀ i t₀ t, reviewed i t₀ t → t.orders = t₀.orders)
    (hnames : ∀ i t, w.db.working.intents.find? id = some i → reviewed i w.db.working t →
      NamesKept w.db.working t)
    (hinv : Planned w₀ w) : Planned w₀ w' := by
  refine hinv.keep h.accepted fun hb => ?_
  obtain ⟨hb₀, hcase⟩ := h.usable hb
  refine ⟨hb₀, fun r hr => h.orders horders hb ▸ hr, ?_⟩
  rcases hcase with heq | ⟨i, hfound, hreviewed⟩
  · rw [heq]
    exact fun i hi => ⟨i, hi, rfl⟩
  · exact hnames i _ hfound hreviewed

theorem Unfiled.namesKept {i : OrderIntent} {statuses : List String} {t₀ t : Tables}
    (h : Unfiled i statuses t₀ t) (hi : t₀.intents.find? i.id = some i) : NamesKept t₀ t :=
  h.intents.namesKept hi fun _ hs => hs.1

theorem find_own {id : Nat} {i : OrderIntent} {t : Tables} (h : t.intents.find? id = some i) :
    t.intents.find? i.id = some i := by
  obtain rfl : i.id = id := (KeyedTable.find?_eq_some_iff.mp h).2
  exact h

theorem SubmitEffect.planned [Casing] {id : Nat} {attempt : Int} {w₀ w w' : World}
    (h : SubmitEffect cfg digest id attempt w w')
    (hunfiled : ∀ i ∈ w.db.working.intents.find? id, i.status = "APPROVED" →
      ¬ w.db.working.orders.HasKey (makeClientOrderId digest i attempt) →
        ¬ PlanOnFile i.planKey w.db.working)
    (hinv : Planned w₀ w) : Planned w₀ w' := by
  rcases h with hsame | ⟨i, hsubmits, hdispatched⟩
  · refine hinv.keep hsame.accepted fun hb => ?_
    obtain ⟨hb₀, heq⟩ := hsame.usable hb
    rw [heq]
    exact ⟨hb₀, fun _ hr => hr, fun i hi => ⟨i, hi, rfl⟩⟩
  · have hfound := find_own hsubmits.found
    rcases hdispatched with hunf | hfiled
    · refine hinv.keep hunf.accepted fun hb => ?_
      obtain ⟨hb₀, hunf⟩ := hunf.usable hb
      exact ⟨hb₀, fun r hr => hunf.orders ▸ hr, hunf.namesKept hfound⟩
    · have hnone := hunfiled i hsubmits.found hsubmits.approved hsubmits.fresh
      have hnames : ∀ {t}, Filed i (makeClientOrderId digest i attempt) filedStatuses
          w.db.working t → NamesKept w.db.working t := fun h =>
        h.intents.namesKept hfound fun _ hs => hs.1
      rcases hfiled.accepted with heq | ⟨_, heq⟩
      · refine hinv.keep heq fun hb => ?_
        obtain ⟨hb₀, h⟩ := hfiled.usable hb
        exact ⟨hb₀, h.old, hnames h⟩
      · obtain ⟨l, hl, hnodup, hrows⟩ := hinv
        have hrows := hrows hsubmits.usable
        refine ⟨l ++ [_], by rw [heq, hl, List.append_assoc], ?_, fun hb o ho => ?_⟩
        · rw [List.map_append, List.nodup_append]
          refine ⟨hnodup, List.nodup_singleton _, fun k hk k' hk' hkk' => hnone ?_⟩
          obtain ⟨o, ho, rfl⟩ := List.mem_map.mp hk
          rw [List.map_singleton, List.mem_singleton] at hk'
          have hplan : o.plan = i.planKey := hkk'.trans hk'
          exact hplan ▸ hrows o ho
        · obtain ⟨_, h⟩ := hfiled.usable hb
          rcases List.mem_append.mp ho with ho | ho
          · exact (hrows o ho).mono h.old (hnames h)
          · -- the new order is on file under its client id, for the intent of the plan
            obtain rfl := List.mem_singleton.mp ho
            obtain ⟨r, hr, hkey⟩ := KeyedTable.hasKey_iff.mp h.row
            have hof : IsOrderOf i.id r := by
              rcases h.new r hr with hold | hnew
              · exact absurd (hkey ▸ KeyedTable.hasKey_of_mem hold) hsubmits.fresh
              · exact hnew.2
            obtain ⟨i', hi', hname⟩ := hnames h i (KeyedTable.find?_eq_some_iff.mp hfound).1
            have hid : i'.id = i.id := congrArg IntentName.id hname
            exact Or.inr ⟨i', hi', congrArg IntentName.planKey hname, r, hr, hid.symm ▸ hof⟩

end Runs

/-! ## The two ways of one plan -/

section Examples

attribute [local instance] asciiCasing

def autoSettings : Settings := { mockSettings with enableAutomatedExecution := true }

def quietFeed : FirmFeed :=
  { controls := fun _ => freshWorld.controls, engine := mockValidator.engine,
    closePnls := fun _ => answers [], quotes := fun _ _ => answers [],
    positionSync := fun _ => answers () }

def autoArgs : MaterializeArgs :=
  { portfolio := bookOf 2500 [], latestPrices := [("AAPL", 100)], dataQualityScore := 1,
    workflowId := some "wf", createIntents := true, allowSubmit := true, entryUniverse := none,
    horizonBySymbol := [], blockNewEntries := false, marketSessionClear := true }

end Examples

end Investor.Execution
