import Investor.Execution.OrderManager
import Investor.Execution.ValidationBatch

/-!
# What the order manager reads in a key

The validator writes the side and the action of a plan at the end of the key of its intent, and the
order manager looks for markers anywhere in that key: whether the intent is an exit, one of a part of
the position, or one of all of it. A marker stands in the key of a plan exactly where it stands in
the front, the scope and the symbol, or where it is the end (`hasPart_intentKey_iff`).

Two of the ends are not the ones that are written. `:buy:BUY` is meant for the cover of a short, and
is the end of an entry; a cover that is a SELL or a PARTIAL_SELL has an end that is no marker.
-/

namespace Investor.Execution

open Lib Schema Market Risk Universe

/-! ## Markers in a key -/

def keyFront (scope symbol : String) : String := scope ++ ":" ++ symbol ++ ":"

def keyEnd (side : Side) (act : SymbolAction) : String := side.value ++ ":" ++ act.value

theorem intentKey_eq (scope symbol : String) (side : Side) (act : SymbolAction) :
    intentKey scope symbol side act = keyFront scope symbol ++ keyEnd side act := by
  simp only [intentKey, keyFront, keyEnd, String.append_assoc]

def marked (markers : List String) (text : String) : Bool := markers.any (hasPart text)

variable {scope symbol : String} {side : Side} {act : SymbolAction} {marker : String}

theorem marker_not_in_end (hm : marker ∈ FLATTEN_MARKERS ++ PARTIAL_MARKERS) :
    ¬ marker.toList <:+: (keyEnd side act).toList := by
  revert marker
  cases side <;> cases act <;> decide

theorem marker_cut (hm : marker ∈ FLATTEN_MARKERS ++ PARTIAL_MARKERS) :
    ∀ n < marker.toList.length, (marker.toList.take n).getLast? = some ':' →
      marker.toList.drop n <+: (keyEnd side act).toList → marker = ":" ++ keyEnd side act := by
  revert marker
  cases side <;> cases act <;> decide

theorem hasPart_intentKey_iff (hm : marker ∈ FLATTEN_MARKERS ++ PARTIAL_MARKERS) :
    hasPart (intentKey scope symbol side act) marker ↔
      hasPart (keyFront scope symbol) marker ∨ marker = ":" ++ keyEnd side act := by
  have hfront : (keyFront scope symbol).toList = (scope ++ ":" ++ symbol).toList ++ [':'] := by
    rw [keyFront, String.toList_append]
    rfl
  unfold hasPart
  rw [decide_eq_true_eq, decide_eq_true_eq, intentKey_eq, String.toList_append,
    List.infix_append_iff_ne_nil]
  constructor
  · rintro (hin | hend | ⟨xs, ys, hxs, hys, hcut, hsuffix, hprefix⟩)
    · exact .inl hin
    · exact absurd hend (marker_not_in_end hm)
    · right
      have htake : marker.toList.take xs.length = xs := by
        rw [hcut, List.take_left']
        rfl
      have hdrop : marker.toList.drop xs.length = ys := by
        rw [hcut, List.drop_left']
        rfl
      refine marker_cut hm xs.length ?_ ?_ (hdrop ▸ hprefix)
      · rw [hcut, List.length_append]
        exact Nat.lt_add_of_pos_right (List.length_pos_iff.mpr hys)
      · obtain ⟨zs, hzs⟩ := hsuffix
        have hlast := congrArg List.getLast? hzs
        rw [List.getLast?_append_of_ne_nil zs hxs, hfront, List.getLast?_concat] at hlast
        rw [htake, hlast]
  · rintro (hin | rfl)
    · exact .inl hin
    · refine .inr (.inr ⟨[':'], (keyEnd side act).toList, List.cons_ne_nil _ _, ?_, ?_, ?_, ?_⟩)
      · cases side <;> cases act <;> decide
      · rw [String.toList_append]
        rfl
      · rw [hfront]
        exact List.suffix_append _ _
      · exact List.prefix_rfl

theorem marked_intentKey_iff {markers : List String}
    (hm : ∀ marker ∈ markers, marker ∈ FLATTEN_MARKERS ++ PARTIAL_MARKERS) :
    marked markers (intentKey scope symbol side act) ↔
      marked markers (keyFront scope symbol) ∨ ":" ++ keyEnd side act ∈ markers := by
  unfold marked
  rw [List.any_eq_true, List.any_eq_true]
  constructor
  · rintro ⟨marker, hmarker, hpart⟩
    rcases (hasPart_intentKey_iff (hm marker hmarker)).mp hpart with hin | rfl
    · exact .inl ⟨marker, hmarker, hin⟩
    · exact .inr hmarker
  · rintro (⟨marker, hmarker, hin⟩ | hend)
    · exact ⟨marker, hmarker, (hasPart_intentKey_iff (hm marker hmarker)).mpr (.inl hin)⟩
    · exact ⟨_, hend, (hasPart_intentKey_iff (hm _ hend)).mpr (.inr rfl)⟩

/-! ## What is read -/

structure ReadsAction (act : SymbolAction) (i : ValidatedOrderIntent) [Casing] : Prop where
  exit : isExitIntent i ↔ act.isExit
  part : isPartialExit i ↔ act = .reduce ∨ act = .partialSell
  whole : isFlattenIntent i ↔ act = .sell

/-- What is asked of the key of a plan, by the markers in its front: of all of a position, and of a
    part. -/
def readable (flat part : Bool) (side : Side) : SymbolAction → Bool
  -- the end of the key is the marker meant for a cover
  | .buy => false
  -- a cover has no marker at the end
  | .sell => (decide (side = .sell) || flat) && !part
  | .partialSell => (decide (side = .sell) || part) && !flat
  | .reduce => !flat
  | _ => !flat && !part

def KeyReadable (scope symbol : String) (side : Side) (act : SymbolAction) : Prop :=
  readable (marked FLATTEN_MARKERS (keyFront scope symbol))
    (marked PARTIAL_MARKERS (keyFront scope symbol)) side act

def endsFlat (side : Side) (act : SymbolAction) : Bool :=
  (side = .sell ∧ act = .sell) ∨ (side = .buy ∧ act = .buy)

def endsPart (side : Side) (act : SymbolAction) : Bool :=
  (side = .sell ∧ act = .partialSell) ∨ act = .reduce

theorem readable_iff (flat part : Bool) (hside : act.isEntry → side = .buy) :
    ((((flat || endsFlat side act) || (part || endsPart side act)) = act.isExit) ∧
      ((part || endsPart side act) = decide (act = .reduce ∨ act = .partialSell)) ∧
      ((flat || endsFlat side act) = decide (act = .sell))) ↔ readable flat part side act := by
  revert hside
  cases flat <;> cases part <;> cases side <;> cases act <;> decide

theorem flatten_end_iff : ":" ++ keyEnd side act ∈ FLATTEN_MARKERS ↔ endsFlat side act := by
  cases side <;> cases act <;> decide

theorem partial_end_iff : ":" ++ keyEnd side act ∈ PARTIAL_MARKERS ↔ endsPart side act := by
  cases side <;> cases act <;> decide

section Intents

variable {i : ValidatedOrderIntent} {v : ExecutionValidator} {d : CIODecision}
  {plan : SymbolActionPlan} {a : ValidateArgs}

theorem isFlattenIntent_eq [Casing] (hkey : i.idempotencyKey = intentKey scope symbol side act)
    (hthesis : thesisFlattens i = false) : isFlattenIntent i =
      (marked FLATTEN_MARKERS (keyFront scope symbol) || endsFlat side act) := by
  rw [Bool.eq_iff_iff, Bool.or_eq_true, ← flatten_end_iff, isFlattenIntent, hthesis, Bool.or_false,
    hkey]
  exact marked_intentKey_iff fun _ hm => List.mem_append_left _ hm

theorem isPartialExit_eq (hkey : i.idempotencyKey = intentKey scope symbol side act) :
    isPartialExit i = (marked PARTIAL_MARKERS (keyFront scope symbol) || endsPart side act) := by
  rw [Bool.eq_iff_iff, Bool.or_eq_true, ← partial_end_iff, isPartialExit, hkey]
  exact marked_intentKey_iff fun _ hm => List.mem_append_right _ hm

variable [Casing]

theorem isExitIntent_eq : isExitIntent i = (isFlattenIntent i || isPartialExit i) := by
  simp only [isExitIntent, isFlattenIntent, isPartialExit, List.any_append]
  exact Bool.or_right_comm _ _ _

theorem readsAction_iff (hkey : i.idempotencyKey = intentKey scope symbol side act)
    (hthesis : thesisFlattens i = false) (hside : act.isEntry → side = .buy) :
    ReadsAction act i ↔ KeyReadable scope symbol side act := by
  rw [KeyReadable, ← readable_iff _ _ hside, ← isFlattenIntent_eq hkey hthesis,
    ← isPartialExit_eq hkey, ← isExitIntent_eq]
  constructor
  · intro h
    exact ⟨Bool.eq_iff_iff.mpr h.exit, Bool.eq_iff_iff.mpr (h.part.trans decide_eq_true_iff.symm),
      Bool.eq_iff_iff.mpr (h.whole.trans decide_eq_true_iff.symm)⟩
  · rintro ⟨hexit, hpart, hwhole⟩
    exact ⟨Bool.eq_iff_iff.mp hexit, (Bool.eq_iff_iff.mp hpart).trans decide_eq_true_iff,
      (Bool.eq_iff_iff.mp hwhole).trans decide_eq_true_iff⟩

/-! ## The intents of the validator -/

/-- `validate` releases the intent, and `_validate_plan` made it of the plan. -/
structure ReleasedFor (v : ExecutionValidator) (d : CIODecision) (a : ValidateArgs)
    (plan : SymbolActionPlan) (i : ValidatedOrderIntent) : Prop where
  planned : plan ∈ d.symbolActions
  made : ∃ seen, validatePlan v d plan a (planScope v d a plan) seen = .ok (.intent i)
  released : ∃ r, validate v d a = .ok r ∧ i ∈ r.intents

theorem Issued.side_of_entry {s : PlanScope} {seen : List String} (h : Issued v d plan a s seen i)
    (hentry : plan.action.isEntry) : i.side = .buy := by
  obtain ⟨price, -, hsize⟩ := h.sized
  exact (planSize_entry hentry hsize).1

/-- **When the order manager reads the action of a plan in the intent of it.** -/
theorem releasedFor_reads_iff (h : ReleasedFor v d a plan i) (hthesis : thesisFlattens i = false) :
    ReadsAction plan.action i ↔
      KeyReadable (keyScope d a) (Casing.upper plan.symbol) i.side plan.action := by
  obtain ⟨seen, hmade⟩ := h.made
  have hissued := issued_of_validatePlan hmade
  exact readsAction_iff hissued.key hthesis hissued.side_of_entry

end Intents

/-! ## An entry that is read as an exit, and a cover that is not -/

section Sample

attribute [local instance] asciiCasing

def coverIntent : ValidatedOrderIntent :=
  { aaplIntent with idempotencyKey := "wf:AAPL:buy:SELL" }

def sellIntent : ValidatedOrderIntent :=
  { aaplIntent with side := .sell, idempotencyKey := "wf:AAPL:sell:SELL" }

theorem releasedFor_single {v : ExecutionValidator} {d : CIODecision} {a : ValidateArgs}
    {plan : SymbolActionPlan} {i : ValidatedOrderIntent} {seen : List String}
    (hplan : d.symbolActions = [plan])
    (hmade : validatePlan v d plan a (planScope v d a plan) seen = .ok (.intent i))
    (hr : validate v d a = .ok { approved := true, intents := [i], rejections := [] }) :
    ReleasedFor v d a plan i where
  planned := hplan ▸ List.mem_singleton.mpr rfl
  made := ⟨seen, hmade⟩
  released := ⟨_, hr, List.mem_singleton.mpr rfl⟩

/-- A BUY is read as an exit of the whole position, and the SELL that covers a short as none. -/
theorem keys_misread :
    (ReleasedFor mockValidator (decisionOf .buy [planOf "AAPL" .buy]) (argsOf (bookOf 2500 []))
        (planOf "AAPL" .buy) aaplIntent ∧ thesisFlattens aaplIntent = false ∧
      ¬ ReadsAction .buy aaplIntent) ∧
    (ReleasedFor mockValidator (decisionOf .sell [planOf "AAPL" .sell])
        (argsOf (bookOf 2500 [rowOf "AAPL" (-10) "US"])) (planOf "AAPL" .sell) coverIntent ∧
      thesisFlattens coverIntent = false ∧ ¬ ReadsAction .sell coverIntent) := by
  refine ⟨⟨?_, by decide +kernel, fun h => ?_⟩, ⟨?_, by decide +kernel, fun h => ?_⟩⟩
  · exact @releasedFor_single _ _ _ _ _ [] rfl (by decide +kernel) (by decide +kernel)
  · exact absurd (h.whole.mp (by decide +kernel)) (by decide)
  · exact @releasedFor_single _ _ _ _ _ [] rfl (by decide +kernel) (by decide +kernel)
  · exact absurd (h.whole.mpr rfl) (by decide +kernel)

/-- The SELL of a long is read as what it is. -/
theorem releasedFor_reads_sell : ReadsAction .sell sellIntent :=
  (@releasedFor_reads_iff _ _ _ (planOf "AAPL" .sell) _ _
    (@releasedFor_single mockValidator (decisionOf .sell [planOf "AAPL" .sell])
      (argsOf (bookOf 2500 [rowOf "AAPL" 10 "US"])) _ _ [] rfl (by decide +kernel)
      (by decide +kernel))
    (by decide +kernel)).mpr (by unfold KeyReadable; decide +kernel)

end Sample

end Investor.Execution
