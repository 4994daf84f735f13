import Investor.Brokers.Ibkr

/-!
# Order references cut to 32 characters

The keys that the callers of the broker build are of five shapes. Four of them have a UUID in them,
and the cut at 32 characters falls inside it or before it ends: another UUID with the same front,
or another symbol, side, action, date or price behind it, gives a key with the same reference. The
fifth, the client ids of the execution service, is 28 characters long.

So a lookup is exact over the short keys, and over no long one.
-/

namespace Investor.Ibkr

open Lib Market Execution Risk Schema

/-! ## UUIDs -/

def grouped (hex : List Char) : List Char :=
  hex.take 8 ++ '-' :: ((hex.drop 8).take 4 ++ '-' :: ((hex.drop 12).take 4 ++ '-' ::
    ((hex.drop 16).take 4 ++ '-' :: hex.drop 20)))

structure Uuid where
  hex : List Char
  length_eq : hex.length = 32
  isHex : ∀ c ∈ hex, c ∈ "0123456789abcdef".toList

def Uuid.text (u : Uuid) : String := String.ofList (grouped u.hex)

theorem length_grouped {hex : List Char} (h : 20 ≤ hex.length) :
    (grouped hex).length = hex.length + 4 := by
  simp only [grouped, List.length_append, List.length_cons, List.length_take, List.length_drop]
  omega

theorem grouped_append {hex : List Char} {c : Char} (h : 20 ≤ hex.length) :
    grouped (hex ++ [c]) = grouped hex ++ [c] := by
  unfold grouped
  rw [List.take_append_of_le_length (by omega), List.drop_append_of_le_length (by omega),
    List.drop_append_of_le_length (by omega), List.drop_append_of_le_length (by omega),
    List.drop_append_of_le_length h, List.take_append_of_le_length (by simp; omega),
    List.take_append_of_le_length (by simp; omega), List.take_append_of_le_length (by simp; omega)]
  simp

theorem Uuid.length_text (u : Uuid) : u.text.length = 36 := by
  unfold Uuid.text
  rw [String.length_ofList, length_grouped (by rw [u.length_eq]; decide), u.length_eq]

theorem Uuid.exists_other (u : Uuid) : ∃ (other : Uuid) (front last last' : String),
    front.length = 35 ∧ u.text = front ++ last ∧ other.text = front ++ last' ∧ last ≠ last' := by
  obtain ⟨hex, hlength, hisHex⟩ := u
  obtain ⟨front, last, rfl⟩ : ∃ front last, hex = front ++ [last] := by
    rcases List.eq_nil_or_concat hex with rfl | ⟨front, last, rfl⟩
    · cases hlength
    · exact ⟨front, last, List.concat_eq_append⟩
  obtain ⟨other, hother, hne⟩ : ∃ c ∈ "0123456789abcdef".toList, last ≠ c := by
    by_cases hzero : last = '0'
    · exact ⟨'1', by decide, by rw [hzero]; decide⟩
    · exact ⟨'0', by decide, hzero⟩
  have hfront : front.length = 31 := by simpa using hlength
  have hlong : 20 ≤ front.length := by omega
  refine ⟨⟨front ++ [other], by simp [hfront], ?_⟩, String.ofList (grouped front),
    String.ofList [last], String.ofList [other], ?_, ?_, ?_, ?_⟩
  · intro c hc
    rcases List.mem_append.mp hc with hc | hc
    · exact hisHex c (List.mem_append_left _ hc)
    · exact List.mem_singleton.mp hc ▸ hother
  · rw [String.length_ofList, length_grouped hlong, hfront]
  · rw [Uuid.text, grouped_append hlong, String.ofList_append]
  · rw [Uuid.text, grouped_append hlong, String.ofList_append]
  · intro h
    exact hne (List.singleton_inj.mp (String.ofList_injective h))

/-! ## The keys of the callers -/

inductive CallerKey : String → Prop
  /-- A plan: of a workflow or a decision. -/
  | plan (scope : Uuid) (symbol : String) (side : Side) (action : SymbolAction) :
      CallerKey (intentKey scope.text symbol side action)
  | hardStop (lifecycle : Uuid) (day : String) :
      CallerKey ("hard-stop:" ++ lifecycle.text ++ (":" ++ day))
  | forceClose (lifecycle : Uuid) (action day : String) :
      CallerKey ("force-close:" ++ lifecycle.text ++ (":" ++ action ++ ":" ++ day))
  | protectStop (lifecycle : Uuid) (price : String) :
      CallerKey ("protect-stop:" ++ lifecycle.text ++ (":" ++ price))
  /-- A client id of the execution service. -/
  | intent (digest : String) (h : digest.length = 24) : CallerKey ("inv-" ++ digest)

theorem CallerKey.length_cases {key : String} (h : CallerKey key) :
    key.length = 28 ∨ 32 < key.length := by
  cases h with
  | plan scope symbol side action =>
    refine Or.inr ?_
    simp only [intentKey, String.length_append, scope.length_text]
    omega
  | hardStop u day =>
    refine Or.inr ?_
    simp only [String.length_append, u.length_text]
    omega
  | forceClose u action day =>
    refine Or.inr ?_
    simp only [String.length_append, u.length_text]
    omega
  | protectStop u price =>
    refine Or.inr ?_
    simp only [String.length_append, u.length_text]
    omega
  | intent digest hdigest =>
    refine Or.inl ?_
    rw [String.length_append, hdigest]
    rfl

theorem exists_same_ref (u : Uuid) (head tail : String) :
    ∃ other : Uuid, head ++ other.text ++ tail ≠ head ++ u.text ++ tail ∧
      takeChars 32 (head ++ other.text ++ tail) = takeChars 32 (head ++ u.text ++ tail) := by
  obtain ⟨other, front, last, last', hfront, htext, hother, hne⟩ := u.exists_other
  refine ⟨other, ?_, ?_⟩
  · rw [htext, hother]
    intro h
    have hlists := congrArg String.toList h
    simp only [String.toList_append, List.append_assoc, List.append_cancel_left_eq,
      List.append_cancel_right_eq] at hlists
    exact hne (String.toList_inj.mp hlists).symm
  · have hsplit : ∀ digit : String,
        head ++ (front ++ digit) ++ tail = head ++ front ++ (digit ++ tail) := fun digit => by
      simp only [String.append_assoc]
    rw [htext, hother, hsplit, hsplit]
    exact takeChars_append_eq (by rw [String.length_append, hfront]; omega)

theorem CallerKey.exists_twin {key : String} (h : CallerKey key) (hlong : 32 < key.length) :
    ∃ twin, CallerKey twin ∧ twin ≠ key ∧ takeChars 32 twin = takeChars 32 key := by
  cases h with
  | plan scope symbol side action =>
    obtain ⟨other, hne, href⟩ :=
      exists_same_ref scope "" (":" ++ symbol ++ ":" ++ side.value ++ ":" ++ action.value)
    refine ⟨_, .plan other symbol side action, ?_, ?_⟩
    · simpa [intentKey, String.append_assoc] using hne
    · simpa [intentKey, String.append_assoc] using href
  | hardStop u day =>
    obtain ⟨other, hne, href⟩ := exists_same_ref u "hard-stop:" (":" ++ day)
    exact ⟨_, .hardStop other day, hne, href⟩
  | forceClose u action day =>
    obtain ⟨other, hne, href⟩ := exists_same_ref u "force-close:" (":" ++ action ++ ":" ++ day)
    exact ⟨_, .forceClose other action day, hne, href⟩
  | protectStop u price =>
    obtain ⟨other, hne, href⟩ := exists_same_ref u "protect-stop:" (":" ++ price)
    exact ⟨_, .protectStop other price, hne, href⟩
  | intent digest hdigest =>
    rw [String.length_append, hdigest] at hlong
    exact absurd hlong (by decide)

/-! ## Lookups -/

section Lookup

variable {cfg : IbkrSettings} {calls : List SubmitCall}

/-- What the gateway may show of the placed trades: the reference of each is kept as it was given,
    whatever has become of the order since. -/
def Shows (placed shown : List Trade) : Prop :=
  ∀ t ∈ shown, ∃ p ∈ placed, t.request = p.request ∧ t.order.orderRef = p.order.orderRef

/-- **The lookup answers for the key it is given**: over anything the gateway may show, an order it
    finds was submitted with the key, and where none was it finds none. -/
structure LookupSound [Casing] (cfg : IbkrSettings) (calls : List SubmitCall) : Prop where
  own : ∀ trades openTrades, Shows (placedTrades cfg calls) (trades ++ openTrades) →
    ∀ key, CallerKey key → ∀ t, findByRef trades openTrades key = some t →
      t.request.idempotencyKey = key
  absent : ∀ trades openTrades, Shows (placedTrades cfg calls) (trades ++ openTrades) →
    ∀ key, CallerKey key → (∀ call ∈ calls, call.request.idempotencyKey ≠ key) →
      ∀ now, getOrderByClientId now trades openTrades key = none

theorem key_shapedRequest [Casing] {call : SubmitCall} {c : Contract} {r : OrderRequest}
    (h : shapedRequest call c = .ok r) : r.idempotencyKey = call.request.idempotencyKey := by
  unfold shapedRequest at h
  dsimp only at h
  split at h
  · split at h
    · cases h
    · cases h
      rfl
  · cases h
    rfl

theorem orderRef_buildOrder [Casing] {r : OrderRequest} {o : IbOrder} (h : buildOrder cfg r = .ok o) :
    o.orderRef = takeChars 32 r.idempotencyKey := by
  unfold buildOrder at h
  cases hterms : orderTerms r with
  | error e => rw [hterms] at h; cases h
  | ok terms =>
    rw [hterms] at h
    cases h
    rfl

/-- The broker gets the first 32 characters of the key. -/
theorem placeOrder_ok [Casing] {call : SubmitCall} {t : Trade} (h : placeOrder cfg call = .ok t) :
    t.request.idempotencyKey = call.request.idempotencyKey ∧
      t.order.orderRef = takeChars 32 call.request.idempotencyKey := by
  unfold placeOrder at h
  cases hcontract : call.contract with
  | error e => rw [hcontract] at h; cases h
  | ok contract =>
    cases hshaped : shapedRequest call (stampContractExchange call.request contract) with
    | error e => simp only [hcontract, hshaped, bind, Except.bind] at h; cases h
    | ok request =>
      cases hbuilt : buildOrder cfg request with
      | error e => simp only [hcontract, hshaped, hbuilt, bind, Except.bind] at h; cases h
      | ok order =>
        cases hplaced : call.placed with
        | error e =>
          simp only [hcontract, hshaped, hbuilt, hplaced, bind, Except.bind,
            Except.mapError] at h
          cases h
        | ok status =>
          simp only [hcontract, hshaped, hbuilt, hplaced, bind, Except.bind,
            Except.mapError] at h
          cases h
          have hkey := key_shapedRequest hshaped
          exact ⟨hkey, (orderRef_buildOrder hbuilt).trans (congrArg _ hkey)⟩

theorem mem_placedTrades [Casing] {t : Trade} :
    t ∈ placedTrades cfg calls ↔ ∃ call ∈ calls, placeOrder cfg call = .ok t := by
  simp only [placedTrades, List.mem_filterMap]
  refine exists_congr fun call => and_congr_right fun _ => ?_
  cases placeOrder cfg call <;> simp [Except.toOption]

theorem findByRef_some {trades openTrades : List Trade} {key : String} {t : Trade}
    (h : findByRef trades openTrades key = some t) :
    t ∈ trades ++ openTrades ∧ t.order.orderRef = takeChars 32 key :=
  ⟨List.mem_of_find?_eq_some h, by simpa using List.find?_some h⟩

theorem Shows.call [Casing] {shown : List Trade} {t : Trade} (h : Shows (placedTrades cfg calls) shown)
    (ht : t ∈ shown) : ∃ call ∈ calls, (∃ p, placeOrder cfg call = .ok p) ∧
      t.request.idempotencyKey = call.request.idempotencyKey ∧
      t.order.orderRef = takeChars 32 call.request.idempotencyKey := by
  obtain ⟨p, hp, hrequest, href⟩ := h t ht
  obtain ⟨call, hcall, hplaced⟩ := mem_placedTrades.mp hp
  obtain ⟨hkey, hown⟩ := placeOrder_ok hplaced
  exact ⟨call, hcall, ⟨p, hplaced⟩, hrequest ▸ hkey, href.trans hown⟩

/-- **Lookups are sound exactly over keys that fit.** -/
theorem lookupSound_iff [Casing] (hkeys : ∀ call ∈ calls, CallerKey call.request.idempotencyKey) :
    LookupSound cfg calls ↔ ∀ call ∈ calls, (∃ t, placeOrder cfg call = .ok t) →
      call.request.idempotencyKey.length ≤ 32 := by
  constructor
  · rintro ⟨hown, -⟩ call hcall ⟨t, hplaced⟩
    by_contra hlong
    obtain ⟨twin, htwin, hne, href⟩ := (hkeys call hcall).exists_twin (not_le.mp hlong)
    have hself : Shows (placedTrades cfg calls) (placedTrades cfg calls ++ []) := fun p hp =>
      ⟨p, by simpa using hp, rfl, rfl⟩
    -- both keys find the same trade
    have hsome : (findByRef (placedTrades cfg calls) [] call.request.idempotencyKey).isSome := by
      unfold findByRef
      rw [List.find?_isSome]
      exact ⟨t, by simpa using mem_placedTrades.mpr ⟨call, hcall, hplaced⟩,
        by simpa using (placeOrder_ok hplaced).2⟩
    obtain ⟨first, hfirst⟩ := Option.isSome_iff_exists.mp hsome
    have hagain : findByRef (placedTrades cfg calls) [] twin = some first := by
      rw [← hfirst]
      unfold findByRef
      rw [href]
    exact hne ((hown _ _ hself twin htwin first hagain).symm.trans
      (hown _ _ hself _ (hkeys call hcall) first hfirst))
  · intro hfits
    have hown : ∀ trades openTrades, Shows (placedTrades cfg calls) (trades ++ openTrades) →
        ∀ key, CallerKey key → ∀ t, findByRef trades openTrades key = some t →
          t.request.idempotencyKey = key ∧ ∃ call ∈ calls, call.request.idempotencyKey = key := by
      intro trades openTrades hshows key hkey t hfound
      obtain ⟨ht, href⟩ := findByRef_some hfound
      obtain ⟨call, hcall, hplaced, hrequest, hcut⟩ := hshows.call ht
      have hshort := hfits call hcall hplaced
      rw [hcut, takeChars_of_length_le hshort] at href
      have hlength : call.request.idempotencyKey.length = 28 :=
        ((hkeys call hcall).length_cases).resolve_right (not_lt.mpr hshort)
      -- a longer key is cut to all 32 characters, and no client id has as many
      have hfit : key.length ≤ 32 := by
        by_contra hlong
        rw [href, length_takeChars, min_eq_left (not_le.mp hlong).le] at hlength
        cases hlength
      rw [takeChars_of_length_le hfit] at href
      exact ⟨hrequest.trans href, call, hcall, href⟩
    refine ⟨fun trades openTrades hshows key hkey t hfound =>
      (hown trades openTrades hshows key hkey t hfound).1, ?_⟩
    intro trades openTrades hshows key hkey hnone now
    unfold getOrderByClientId
    cases hfound : findByRef trades openTrades key with
    | none => rfl
    | some t =>
      obtain ⟨-, call, hcall, hsame⟩ := hown trades openTrades hshows key hkey t hfound
      exact absurd hsame (hnone call hcall)

end Lookup

/-! ## A plan found under the key of another -/

section Twins

attribute [local instance] asciiCasing

theorem isHex_zeros (n : ℕ) : ∀ c ∈ List.replicate n '0', c ∈ "0123456789abcdef".toList := by
  intro c hc
  rw [List.eq_of_mem_replicate hc]
  decide

def zeroUuid : Uuid where
  hex := List.replicate 32 '0'
  length_eq := List.length_replicate
  isHex := isHex_zeros 32

def gatewaySettings : IbkrSettings := { settings := mockSettings, ibkrAccount := "" }

def marketCall (key : String) : SubmitCall :=
  { request := { symbol := "AAPL", side := "buy", qty := 10, orderType := "market",
                 limitPrice := none, stopPrice := none, idempotencyKey := key,
                 timeInForce := "day", venue := some "US", conId := none },
    contract := .ok { symbol := "AAPL", exchange := "SMART", primaryExchange := "NASDAQ",
                      currency := "USD", conId := 265598 },
    tape := { last := none, bid := none, ask := none }, positionLast := none,
    placed := .ok { orderId := 1, permId := some 1001, status := "Submitted", filled := 0,
                    remaining := 10, avgFillPrice := 0, whyHeld := "" },
    waitRaises := none }

/-- The purchase of one symbol is found under the key of the sale of another. -/
theorem purchase_found_as_sale :
    CallerKey (intentKey zeroUuid.text "AAPL" .buy .buy) ∧
      ¬ LookupSound gatewaySettings [marketCall (intentKey zeroUuid.text "AAPL" .buy .buy)] := by
  refine ⟨.plan zeroUuid "AAPL" .buy .buy, fun hsound => ?_⟩
  have hfound : (findByRef (placedTrades gatewaySettings
      [marketCall (intentKey zeroUuid.text "AAPL" .buy .buy)]) []
        (intentKey zeroUuid.text "MSFT" .sell .sell)).isSome := by decide +kernel
  obtain ⟨t, ht⟩ := Option.isSome_iff_exists.mp hfound
  have hnone := hsound.absent _ [] (fun p hp => ⟨p, by simpa using hp, rfl, rfl⟩)
    (intentKey zeroUuid.text "MSFT" .sell .sell) (.plan zeroUuid "MSFT" .sell .sell)
    (by decide +kernel) 0
  unfold getOrderByClientId at hnone
  rw [ht] at hnone
  cases hnone

theorem clientId_found_alone :
    LookupSound gatewaySettings [marketCall "inv-0123456789abcdef01234567"] :=
  (lookupSound_iff fun call hcall => by
    rw [List.mem_singleton.mp hcall]
    exact .intent "0123456789abcdef01234567" (by decide +kernel)).mpr fun call hcall _ => by
      rw [List.mem_singleton.mp hcall]
      decide +kernel

end Twins

end Investor.Ibkr
