import Investor.Intraday.Settlement

/-!
# What a settled day adds up to

The row of a symbol is found by symbol, day and venue, while the ledger keeps a book for each
account, currency and exchange. So the rows of a settled day are one for each symbol, and each
holds what the last listed book of its symbol came to (`Settled`): the day's results are all
there exactly when the other books of each symbol came to nothing.

A run may settle other days and other venues in between; their rows are never taken for those
of this one (`Clean`).
-/

namespace Investor.Intraday

open Lib Market Execution Universe Agents

/-! ## Closes are rounded -/

section Rounded

def Rounded (closes : List FifoClose) : Prop := ∀ c ∈ closes, ∀ g ∈ c.grossPnl, OnGrid 4 g

theorem Rounded.append {xs ys : List FifoClose} (hxs : Rounded xs) (hys : Rounded ys) :
    Rounded (xs ++ ys) := by
  intro c hc
  rcases List.mem_append.mp hc with hc | hc
  · exact hxs c hc
  · exact hys c hc

theorem rounded_matchedClose (key : BookKey) (exchange : String) (f : FillRecord) (lot : OpenLot)
    (take : ℚ) : ∀ g ∈ (matchedClose key exchange f lot take).grossPnl, OnGrid 4 g := by
  rintro g ⟨⟩
  exact onGrid_roundTo 4 _

theorem rounded_closeLots (key : BookKey) (exchange : String) (f : FillRecord) (qty : ℚ)
    (lots : List OpenLot) : Rounded (closeLots key exchange f qty lots).1 := by
  induction lots generalizing qty with
  | nil => simp [closeLots, Rounded]
  | cons lot lots ih =>
    unfold closeLots
    split
    · simp [Rounded]
    · dsimp only
      split
      · intro c hc
        rcases List.mem_cons.mp hc with rfl | hc
        · exact rounded_matchedClose key exchange f lot _
        · exact ih _ c hc
      · intro c hc
        rw [List.mem_singleton.mp hc]
        exact rounded_matchedClose key exchange f lot _

theorem rounded_replayFill {key : BookKey} {exchange : String} {s : BookState} (f : FillRecord)
    (h : Rounded s.closes) : Rounded (replayFill key exchange s f).closes := by
  unfold replayFill
  split
  · exact h
  · refine (h.append (rounded_closeLots key exchange f _ _)).append ?_
    split
    · intro c hc
      rw [List.mem_singleton.mp hc]
      rintro g ⟨⟩
    · simp [Rounded]

theorem rounded_fifoBook (key : BookKey) (exchange : String) (items : List FillRecord) :
    Rounded (fifoBook key exchange items).closes := by
  have hfold : ∀ (xs : List FillRecord) (s : BookState), Rounded s.closes →
      Rounded (xs.foldl (replayFill key exchange) s).closes := by
    intro xs
    induction xs with
    | nil => exact fun s h => h
    | cons f xs ih => exact fun s h => ih _ (rounded_replayFill f h)
  exact hfold _ _ (by simp [Rounded])

theorem rounded_book [Casing] {fills : List FillRecord} {b : FifoBook}
    (hb : b ∈ (reconstructFifo fills).books) : Rounded b.closes := by
  obtain ⟨items, -, rfl⟩ := List.mem_map.mp ((sortedBy_perm _ _).mem_iff.mp hb)
  exact rounded_fifoBook _ _ _

end Rounded

section Settle

variable {cfg : SettlementConfig} {h : History} {day day' : String} {book book' : Venue}
  {b : FifoBook} {rows : List TradePnL} {r : TradePnL} {row : PnlRow} {d : SettlementTables}

def dayGross (cfg : SettlementConfig) (day : String) (b : FifoBook) : ℚ :=
  grossOf (knownCloses cfg day b)

theorem pnlRow_gross [Casing] (hb : b ∈ (dayLedger cfg h day book).books) :
    (pnlRow cfg day b).grossRealizedPl.getD 0 = dayGross cfg day b := by
  have hgrid : OnGrid 4 (dayGross cfg day b) := by
    refine onGrid_sum fun g hg => ?_
    obtain ⟨c, hc, hcg⟩ := List.mem_filterMap.mp hg
    have hcloses : c ∈ b.closes := (List.mem_filter.mp (List.mem_filter.mp hc).1).1
    exact rounded_book hb c hcloses g hcg
  show (if knownCloses cfg day b = [] then none else
    some (roundTo 4 (dayGross cfg day b))).getD 0 = _
  split
  · rename_i hnil
    simp [dayGross, hnil, grossOf]
  · exact roundTo_of_onGrid hgrid

/-! ## Whose a row is -/

structure Own (cfg : SettlementConfig) (day : String) (book : Venue) (r : TradePnL) : Prop where
  session : r.payload.at "session_date" = .str day
  venue : r.payload.at "venue" = .str book.value
  method : r.method = cfg.lotMethod

theorem text_str (t : PyText) (s : String) : t.text ((Json.str s).orElse (.str "")) = s := by
  by_cases hs : s = ""
  · subst hs
    rfl
  · simp [Json.orElse, Json.truthy, hs, PyText.text]

theorem Own.tagged [Casing] (hr : Own cfg day book r) : isTagged cfg day book r := by
  refine decide_eq_true (Or.inl ⟨?_, ?_⟩)
  · rw [hr.session, text_str]
  · rw [hr.venue, text_str, book.upper_value]

theorem lotMethod_ne_legacy (cfg : SettlementConfig) (day : String) (book : Venue) :
    cfg.lotMethod ≠ cfg.legacyMethod day book := by
  intro heq
  have hlength := congrArg String.length heq
  unfold SettlementConfig.legacyMethod at hlength
  simp only [String.length_append] at hlength
  have hcolon : (":" : String).length = 1 := by decide
  omega

theorem Venue.value_injective {v w : Venue} (hvw : v.value = w.value) : v = w := by
  cases v <;> cases w <;> first | rfl | exact absurd hvw (by decide)

theorem Own.not_isTagged [Casing] (hr : Own cfg day' book' r) (hne : ¬ (day' = day ∧ book' = book)) :
    isTagged cfg day book r = false := by
  refine decide_eq_false ?_
  rintro (⟨hday, hbook⟩ | hmethod)
  · rw [hr.session, text_str] at hday
    rw [hr.venue, text_str, book'.upper_value] at hbook
    exact hne ⟨hday, Venue.value_injective hbook⟩
  · exact lotMethod_ne_legacy cfg day book (hr.method.symm.trans hmethod)

theorem own_new : Own cfg day book (newTradePnl cfg day book row) := ⟨rfl, rfl, rfl⟩

theorem own_update : Own cfg day book (updateTradePnl cfg day book row r) := by
  have hkeys : ((rowPayload day book row).map (·.1)).Nodup := by
    show ["session_date", "venue", "currency", "fees_known", "unknown_basis_count",
      "pnl_unavailable"].Nodup
    decide
  have hat : ∀ e ∈ rowPayload day book row,
      Dict.at (updateTradePnl cfg day book row r).payload e.1 = e.2 := by
    intro e he
    show ((Dict.get? (Dict.merge r.payload (rowPayload day book row)) e.1).getD .null) = e.2
    rw [Dict.get?_merge_of_mem hkeys he]
    rfl
  exact ⟨hat ("session_date", .str day) (by simp [rowPayload]),
    hat ("venue", .str book.value) (by simp [rowPayload]), rfl⟩

section

variable [Casing]

/-- The rows taken for one day and venue are those written for it. -/
def Clean (cfg : SettlementConfig) (day : String) (book : Venue) (rows : List TradePnL) : Prop :=
  ∀ r ∈ rows, isTagged cfg day book r → Own cfg day book r

def grossIn (cfg : SettlementConfig) (day : String) (book : Venue) (rows : List TradePnL)
    (s : String) : List ℚ :=
  (rows.filter fun r => r.symbol = s && isTagged cfg day book r).map (·.grossRealizedPl)

/-! ## One row -/

theorem grossIn_storeRow_self (hone : (grossIn cfg day book rows row.symbol).length ≤ 1) :
    grossIn cfg day book (storeRow cfg day book rows row) row.symbol =
      [row.grossRealizedPl.getD 0] := by
  unfold grossIn at hone
  rw [List.length_map] at hone
  obtain ⟨r, hr, hwritten⟩ := @filter_upsertFirst_self _
    (fun r => r.symbol = row.symbol && isTagged cfg day book r)
    (updateTradePnl cfg day book row) (newTradePnl cfg day book row) rows (fun r _ hr => by
      rw [Bool.and_eq_true] at hr ⊢
      exact ⟨hr.1, own_update.tagged⟩)
    (by rw [Bool.and_eq_true]; exact ⟨decide_eq_true rfl, own_new.tagged⟩) hone
  unfold grossIn storeRow
  rw [hr, List.map_singleton]
  rcases hwritten with rfl | ⟨r₀, rfl⟩ <;> rfl

theorem grossIn_storeRow_of_ne {s : String} (hs : s ≠ row.symbol) :
    grossIn cfg day book (storeRow cfg day book rows row) s = grossIn cfg day book rows s := by
  have hother : ∀ x : TradePnL, x.symbol = row.symbol →
      (decide (x.symbol = s) && isTagged cfg day book x) = false := by
    intro x hx
    rw [Bool.and_eq_false_iff]
    exact Or.inl (decide_eq_false fun h => hs (h.symm.trans hx))
  unfold grossIn storeRow
  refine congrArg (List.map _) (filter_upsertFirst_other (fun r _ hr => ?_) ?_)
  swap
  · exact hother _ rfl
  have hsymbol : r.symbol = row.symbol := of_decide_eq_true (Bool.and_eq_true _ _ ▸ hr).1
  exact ⟨hother r hsymbol, hother _ hsymbol⟩

theorem grossIn_storeRow_elsewhere (hclean : Clean cfg day book rows)
    (hne : ¬ (day' = day ∧ book' = book)) (s : String) :
    grossIn cfg day book (storeRow cfg day' book' rows row) s = grossIn cfg day book rows s := by
  have hother : ∀ x : TradePnL, Own cfg day' book' x →
      (decide (x.symbol = s) && isTagged cfg day book x) = false := by
    intro x hx
    rw [hx.not_isTagged hne, Bool.and_false]
  unfold grossIn storeRow
  refine congrArg (List.map _) (filter_upsertFirst_other (fun r hr hfound => ⟨?_, ?_⟩) ?_)
  rotate_left
  · exact hother _ own_update
  · exact hother _ own_new
  -- a row taken for both would have been written for this one, and so not be taken for the other
  cases htagged : isTagged cfg day book r with
  | false => rw [Bool.and_false]
  | true =>
    rw [Bool.and_eq_true] at hfound
    have hnot := (hclean r hr htagged).not_isTagged fun h => hne ⟨h.1.symm, h.2.symm⟩
    rw [hnot] at hfound
    exact absurd hfound.2 Bool.false_ne_true

theorem Clean.storeRow (hclean : Clean cfg day book rows) :
    Clean cfg day book (storeRow cfg day' book' rows row) := by
  have hwritten : ∀ x : TradePnL, Own cfg day' book' x → isTagged cfg day book x →
      Own cfg day book x := by
    intro x hx htagged
    by_cases hsame : day' = day ∧ book' = book
    · obtain ⟨rfl, rfl⟩ := hsame
      exact hx
    · rw [hx.not_isTagged hsame] at htagged
      exact absurd htagged Bool.false_ne_true
  intro r hr htagged
  rcases mem_upsertFirst hr with hr | rfl | ⟨r₀, -, -, rfl⟩
  · exact hclean r hr htagged
  · exact hwritten _ own_new htagged
  · exact hwritten _ own_update htagged

/-! ## The rows of a call -/

theorem Clean.foldl {rs : List PnlRow} (hclean : Clean cfg day book rows) :
    Clean cfg day book (rs.foldl (Intraday.storeRow cfg day' book') rows) := by
  induction rs generalizing rows with
  | nil => exact hclean
  | cons row rs ih => exact ih hclean.storeRow

theorem grossIn_foldl_elsewhere {rs : List PnlRow} (hclean : Clean cfg day book rows)
    (hne : ¬ (day' = day ∧ book' = book)) (s : String) :
    grossIn cfg day book (rs.foldl (storeRow cfg day' book') rows) s =
      grossIn cfg day book rows s := by
  induction rs generalizing rows with
  | nil => rfl
  | cons row rs ih =>
    rw [List.foldl_cons, ih hclean.storeRow, grossIn_storeRow_elsewhere hclean hne]

theorem grossIn_foldl {rs : List PnlRow} (hone : ∀ s, (grossIn cfg day book rows s).length ≤ 1)
    (s : String) : grossIn cfg day book (rs.foldl (storeRow cfg day book) rows) s =
      ((rs.filter (·.symbol = s)).getLast?.map fun row => [row.grossRealizedPl.getD 0]).getD
        (grossIn cfg day book rows s) := by
  induction rs using List.reverseRecOn generalizing s with
  | nil => rfl
  | append_singleton rs row ih =>
    rw [List.foldl_concat, List.filter_append]
    by_cases hs : s = row.symbol
    · subst hs
      rw [grossIn_storeRow_self]
      · simp
      · rw [ih]
        cases (rs.filter (·.symbol = row.symbol)).getLast? with
        | none => exact hone _
        | some x => exact le_refl 1
    · rw [grossIn_storeRow_of_ne hs, ih]
      simp [Ne.symm hs]

end

/-! ## The settlement row -/

theorem textOr_value (t : PyText) (v : Venue) (other : Json) :
    textOr t (.str v.value) other = v.value := by
  cases v <;> rfl

section

variable [Casing]

theorem isSettlementOf_settlementOf (c : SettleCall) :
    isSettlementOf cfg.text c.day c.book (settlementOf cfg h c) := by
  refine decide_eq_true ⟨rfl, ?_⟩
  show Casing.upper (textOr cfg.text (.str c.book.value) (.str "US")) = c.book.value
  rw [textOr_value, c.book.upper_value]

theorem isSettlementOf_unique {s : PostmarketSettlement}
    (hs : isSettlementOf cfg.text day' book' s) (hne : ¬ (day' = day ∧ book' = book)) :
    isSettlementOf cfg.text day book s = false := by
  obtain ⟨hday, hbook⟩ := of_decide_eq_true hs
  refine decide_eq_false ?_
  rintro ⟨hday', hbook'⟩
  exact hne ⟨hday.symm.trans hday', Venue.value_injective (hbook.symm.trans hbook')⟩

/-! ## Runs -/

structure Fresh (cfg : SettlementConfig) (day : String) (book : Venue) (d : SettlementTables) :
    Prop where
  settlements : ∀ s ∈ d.settlements, ¬ isSettlementOf cfg.text day book s
  tradePnl : ∀ r ∈ d.tradePnl, ¬ isTagged cfg day book r

def symbolBooks (cfg : SettlementConfig) (h : History) (day : String) (book : Venue) (s : String) :
    List FifoBook :=
  (listedBooks cfg h day book).filter (·.key.symbol = s)

def lastGross (cfg : SettlementConfig) (h : History) (day : String) (book : Venue) (s : String) :
    List ℚ :=
  ((symbolBooks cfg h day book s).getLast?.map (dayGross cfg day)).toList

/-- The rows of the day and the venue are there, or none is. -/
inductive Stored (cfg : SettlementConfig) (h : History) (day : String) (book : Venue)
    (d : SettlementTables) (settled : Bool) : Prop
  | none (fresh : settled = false) (rows : ∀ s, grossIn cfg day book d.tradePnl s = [])
      (settlement : d.settlements.filter (isSettlementOf cfg.text day book) = [])
  | last (rows : ∀ s, grossIn cfg day book d.tradePnl s = lastGross cfg h day book s)
      (settlement : (d.settlements.filter (isSettlementOf cfg.text day book)).length = 1)

theorem length_lastGross (s : String) : (lastGross cfg h day book s).length ≤ 1 := by
  unfold lastGross
  cases ((symbolBooks cfg h day book s).getLast?.map (dayGross cfg day)) <;> simp

theorem Fresh.stored (hfresh : Fresh cfg day book d) : Stored cfg h day book d false := by
  refine .none rfl (fun s => ?_) (List.filter_eq_nil_iff.mpr hfresh.settlements)
  refine List.map_eq_nil_iff.mpr (List.filter_eq_nil_iff.mpr fun r hr hfound => ?_)
  exact hfresh.tradePnl r hr (Bool.and_eq_true _ _ ▸ hfound).2

theorem pnlRows_last (s : String) :
    ((pnlRows cfg h day book).filter (·.symbol = s)).getLast?.map
        (fun row => [row.grossRealizedPl.getD 0]) =
      (symbolBooks cfg h day book s).getLast?.map fun b => [dayGross cfg day b] := by
  have hrows : (pnlRows cfg h day book).filter (·.symbol = s) =
      (symbolBooks cfg h day book s).map (pnlRow cfg day) := List.filter_map
  rw [hrows, List.getLast?_map, Option.map_map]
  refine Option.map_congr fun b hb => ?_
  have hlisted := List.mem_of_mem_filter (List.mem_of_getLast? hb)
  show [(pnlRow cfg day b).grossRealizedPl.getD 0] = [dayGross cfg day b]
  rw [pnlRow_gross (List.mem_of_mem_filter hlisted)]

theorem Stored.settle {settled : Bool} {c : SettleCall} (hd : Stored cfg h day book d settled)
    (hday : c.day = day) (hbook : c.book = book) :
    Stored cfg h day book (Intraday.settle cfg h d c) true := by
  subst hday hbook
  have hone : ∀ s, (grossIn cfg c.day c.book d.tradePnl s).length ≤ 1 := by
    intro s
    cases hd with
    | none fresh rows settlement => simp [rows s]
    | last rows settlement => exact rows s ▸ length_lastGross s
  refine .last (fun s => ?_) ?_
  · show grossIn cfg c.day c.book ((pnlRows cfg h c.day c.book).foldl _ d.tradePnl) s = _
    rw [grossIn_foldl hone, pnlRows_last]
    unfold lastGross
    cases hlast : (symbolBooks cfg h c.day c.book s).getLast? with
    | some b => rfl
    | none =>
      cases hd with
      | none fresh rows settlement => exact rows s
      | last rows settlement =>
        have hrows := rows s
        rw [lastGross, hlast] at hrows
        exact hrows
  · have hfew : (d.settlements.filter (isSettlementOf cfg.text c.day c.book)).length ≤ 1 := by
      cases hd with
      | none fresh rows settlement => simp [settlement]
      | last rows settlement => exact settlement.le
    obtain ⟨x, hx, -⟩ := filter_upsertFirst_self (f := fun _ => settlementOf cfg h c)
      (fun _ _ _ => isSettlementOf_settlementOf c) (isSettlementOf_settlementOf (h := h) c) hfew
    show ((upsertFirst _ _ _ d.settlements).filter _).length = 1
    rw [hx]
    rfl

theorem Stored.settle_other {settled : Bool} {c : SettleCall}
    (hclean : Clean cfg day book d.tradePnl) (hd : Stored cfg h day book d settled)
    (hne : ¬ (c.day = day ∧ c.book = book)) :
    Stored cfg h day book (Intraday.settle cfg h d c) settled := by
  have hgross : ∀ s, grossIn cfg day book (Intraday.settle cfg h d c).tradePnl s =
      grossIn cfg day book d.tradePnl s := grossIn_foldl_elsewhere hclean hne
  have hsettlements : (Intraday.settle cfg h d c).settlements.filter
      (isSettlementOf cfg.text day book) =
        d.settlements.filter (isSettlementOf cfg.text day book) := by
    have hother := isSettlementOf_unique (@isSettlementOf_settlementOf cfg h _ c) hne
    exact filter_upsertFirst_other (fun s _ hs => ⟨isSettlementOf_unique hs hne, hother⟩) hother
  cases hd with
  | none fresh rows settlement =>
    exact .none fresh (fun s => (hgross s).trans (rows s)) (hsettlements.trans settlement)
  | last rows settlement =>
    exact .last (fun s => (hgross s).trans (rows s)) (hsettlements ▸ settlement)

theorem clean_run (calls : List SettleCall) (hclean : Clean cfg day book d.tradePnl) :
    Clean cfg day book (runFrom (settle cfg h) d calls).tradePnl :=
  @run_invariant _ _ _ (fun d : SettlementTables => Clean cfg day book d.tradePnl)
    (fun _ _ hclean => hclean.foldl) _ _ hclean

/-- After any calls the day is stored if one of them was for it. -/
theorem stored_run {calls : List SettleCall} (hfresh : Fresh cfg day book d) :
    Stored cfg h day book (runFrom (settle cfg h) d calls)
      (calls.any fun c => c.day = day ∧ c.book = book) := by
  induction calls using List.reverseRecOn with
  | nil => exact hfresh.stored
  | append_singleton calls c ih =>
    have hclean : Clean cfg day book (runFrom (settle cfg h) d calls).tradePnl :=
      clean_run calls fun r hr htagged => absurd htagged (hfresh.tradePnl r hr)
    rw [runFrom_append, List.any_append]
    by_cases hc : c.day = day ∧ c.book = book
    · have hany : ([c].any fun c => c.day = day ∧ c.book = book) = true := by simpa using hc
      rw [hany, Bool.or_true]
      exact ih.settle hc.1 hc.2
    · have hany : ([c].any fun c => c.day = day ∧ c.book = book) = false := by simpa using hc
      rw [hany, Bool.or_false]
      exact ih.settle_other hclean hc

/-! ## When the day adds up -/

def taggedGross (cfg : SettlementConfig) (day : String) (book : Venue) (d : SettlementTables)
    (s : String) : ℚ := (grossIn cfg day book d.tradePnl s).sum

def ledgerGross (cfg : SettlementConfig) (h : History) (day : String) (book : Venue) (s : String) :
    ℚ :=
  (((dayLedger cfg h day book).books.filter (·.key.symbol = s)).map (dayGross cfg day)).sum

/-- One settlement, and all known results of the day in the rows. -/
structure Settled (cfg : SettlementConfig) (h : History) (day : String) (book : Venue)
    (d : SettlementTables) : Prop where
  once : (d.settlements.filter (isSettlementOf cfg.text day book)).length = 1
  adds : ∀ s, taggedGross cfg day book d s = ledgerGross cfg h day book s

/-- The books of each symbol that have a row, but the last, come to nothing together. -/
def LastHasAll (cfg : SettlementConfig) (h : History) (day : String) (book : Venue) : Prop :=
  ∀ s, ((symbolBooks cfg h day book s).dropLast.map (dayGross cfg day)).sum = 0

end

theorem sum_map_filter_of_zero {α : Type*} {p : α → Bool} {f : α → ℚ} {xs : List α}
    (hzero : ∀ x ∈ xs, p x = false → f x = 0) : ((xs.filter p).map f).sum = (xs.map f).sum := by
  induction xs with
  | nil => rfl
  | cons x xs ih =>
    have hrest := ih fun y hy => hzero y (List.mem_cons_of_mem _ hy)
    cases hx : p x with
    | true => rw [List.filter_cons_of_pos hx, List.map_cons, List.map_cons, List.sum_cons,
        List.sum_cons, hrest]
    | false => rw [List.filter_cons_of_neg (by simp [hx]), List.map_cons, List.sum_cons,
        hzero x List.mem_cons_self hx, zero_add, hrest]

theorem ledgerGross_eq [Casing] (s : String) : ledgerGross cfg h day book s =
    ((symbolBooks cfg h day book s).map (dayGross cfg day)).sum := by
  unfold ledgerGross symbolBooks listedBooks
  rw [List.filter_comm]
  refine (sum_map_filter_of_zero fun b _ hb => ?_).symm
  have hcloses : dayCloses cfg day b = [] := by simpa [isListed] using (Bool.or_eq_false_iff.mp hb).2
  simp [dayGross, knownCloses, hcloses, grossOf]

theorem lastGross_sum_iff [Casing] (s : String) :
    (lastGross cfg h day book s).sum = ledgerGross cfg h day book s ↔
      ((symbolBooks cfg h day book s).dropLast.map (dayGross cfg day)).sum = 0 := by
  rw [ledgerGross_eq]
  unfold lastGross
  cases hlast : (symbolBooks cfg h day book s).getLast? with
  | none =>
    rw [List.getLast?_eq_none_iff] at hlast
    simp [hlast]
  | some b =>
    have hsplit : symbolBooks cfg h day book s =
        (symbolBooks cfg h day book s).dropLast ++ [b] :=
      (List.dropLast_append_getLast? b hlast).symm
    have hsum : ((symbolBooks cfg h day book s).map (dayGross cfg day)).sum =
        ((symbolBooks cfg h day book s).dropLast.map (dayGross cfg day)).sum +
          dayGross cfg day b := by
      conv_lhs => rw [hsplit]
      simp
    rw [hsum]
    simp

/-- **When a settled day adds up**: exactly when, of each symbol's books, those before the last
    come to nothing. The settlement itself is there once in any case. -/
theorem settled_iff [Casing] {calls : List SettleCall} (hfresh : Fresh cfg day book d)
    (hcall : ∃ c ∈ calls, c.day = day ∧ c.book = book) :
    Settled cfg h day book (runFrom (settle cfg h) d calls) ↔ LastHasAll cfg h day book := by
  have hany : (calls.any fun c => c.day = day ∧ c.book = book) = true := by
    obtain ⟨c, hc, hsame⟩ := hcall
    exact List.any_eq_true.mpr ⟨c, hc, decide_eq_true hsame⟩
  have hstored := @stored_run cfg h day book d _ calls hfresh
  rw [hany] at hstored
  cases hstored with
  | none fresh rows settlement => cases fresh
  | last rows settlement =>
    have hadds : ∀ s, taggedGross cfg day book (runFrom (settle cfg h) d calls) s =
        (lastGross cfg h day book s).sum := fun s => by rw [taggedGross, rows s]
    constructor
    · intro hsettled s
      exact (lastGross_sum_iff s).mp ((hadds s).symm.trans (hsettled.adds s))
    · intro hlast
      exact ⟨settlement, fun s => (hadds s).trans ((lastGross_sum_iff s).mpr (hlast s))⟩

end Settle

/-! ## Two accounts -/

section Accounts

attribute [local instance] asciiCasing

def plainText : PyText := { str := fun _ => "", dumps := fun _ => "", now := "" }

def plainConfig : SettlementConfig :=
  { text := plainText, dayStart := fun _ => 0, positionLotMethod := "FIFO" }

def shareOrder (key side : String) : Order :=
  { brokerOrderId := none, idempotencyKey := key, symbol := "AAPL", side := side, qty := 1
    orderType := "market", limitPrice := none, stopPrice := none, status := "FILLED"
    decisionId := none, submittedAt := none, rawPayload := [("venue", .str "US")], createdAt := 0 }

def shareFill (key account : String) (price : ℚ) (time : Int) : ExecutionRow :=
  { orderKey := key, symbol := "AAPL", qty := 1, price := price, executedAt := time
    rawPayload := [("account", .str account)], id := key }

def twoBuys (account : String) : History :=
  { orders := ⟨[shareOrder "b1" "buy", shareOrder "s1" "sell", shareOrder "b2" "buy"], by decide⟩
    executions := [shareFill "b1" "DU1" 100 1, shareFill "s1" "DU1" 110 2,
      shareFill "b2" account 100 3] }

def settleUs : SettleCall :=
  { day := "2026-08-20", book := .us, recon := [], sync := .null, account := .null
    lifecycles := [], updatedAt := "" }

def noTables : SettlementTables := { settlements := [], tradePnl := [] }

theorem noTables_fresh : Fresh plainConfig "2026-08-20" .us noTables :=
  ⟨fun _ hs => absurd hs List.not_mem_nil, fun _ hr => absurd hr List.not_mem_nil⟩

/-- **The result of one account is written over with the nothing of another.** -/
theorem second_account_overwrites :
    Fresh plainConfig "2026-08-20" .us noTables ∧
      ¬ Settled plainConfig (twoBuys "DU2") "2026-08-20" .us
        (runFrom (settle plainConfig (twoBuys "DU2")) noTables [settleUs]) := by
  refine ⟨noTables_fresh, fun hsettled => ?_⟩
  have hadds := hsettled.adds "AAPL"
  revert hadds
  decide +kernel

theorem one_account_listed :
    (listedBooks plainConfig (twoBuys "DU1") "2026-08-20" .us).length = 1 := by
  decide +kernel

theorem one_account_last : LastHasAll plainConfig (twoBuys "DU1") "2026-08-20" .us := by
  intro s
  obtain ⟨b, hb⟩ := List.length_eq_one_iff.mp one_account_listed
  unfold symbolBooks
  rw [hb, List.filter_singleton]
  cases decide (b.key.symbol = s) <;> rfl

/-- In one account the result stays, however often the day is settled. -/
theorem one_account_settled :
    Settled plainConfig (twoBuys "DU1") "2026-08-20" .us
      (runFrom (settle plainConfig (twoBuys "DU1")) noTables [settleUs, settleUs]) :=
  (settled_iff noTables_fresh ⟨settleUs, List.mem_cons_self, rfl, rfl⟩).mpr one_account_last

end Accounts

end Investor.Intraday
