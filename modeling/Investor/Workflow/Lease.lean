import Investor.Lib.Run
import Mathlib.Logic.Function.Basic

/-!
# Leases

`LeaseService` guards a section by a row of `workflow_leases`: `acquire` inserts or takes over
the row, `heartbeat` extends it, `release` and `reclaim_expired` delete it. Each call reads the
row first and acts on what it read; between the two, another process may write. The model is
the row of one lease key, any number of callers with an owner name each, and a run of read and
write steps in any order, with time passing in between.

A lease is identified by the *name* of its owner, so two callers of one name are one owner to
the service. That is the first thing exclusion rests on; the second is that no call overwrites
or deletes a row another call has written since it was read.
-/

namespace Investor.Workflow

open Lib

structure LeaseRow where
  id : ℕ
  owner : String
  acquiredAt : Int
  expiresAt : Int
  heartbeatAt : Option Int
  deriving DecidableEq

inductive LeaseCall
  | acquire | heartbeat | release | reclaimExpired
  deriving DecidableEq

/-- A call that has read the row and not acted yet; `readAt` is its `now`. -/
structure Pending where
  call : LeaseCall
  seen : Option LeaseRow
  readAt : Int
  deriving DecidableEq

/-- Where a caller is: inside the section, with the expiry of the lease it was granted, and the
    call it is in the middle of. -/
structure Caller where
  inside : Option Int
  pending : Option Pending
  deriving DecidableEq

/-- The row, the time, and the callers. `holder` is the caller whose `acquire` last wrote the
    row; no call reads it. -/
structure LeaseWorld (P : Type) where
  now : Int
  row : Option LeaseRow
  nextId : ℕ
  holder : Option P
  caller : P → Caller

inductive LeaseOp (P : Type)
  /-- Time passes. -/
  | tick (seconds : ℕ)
  /-- A call begins, and reads. -/
  | read (p : P) (call : LeaseCall)
  /-- The call goes on, and writes or raises. -/
  | write (p : P)
  /-- The caller stops without a release. -/
  | quit (p : P)
  deriving DecidableEq

section Leases

variable {P : Type} [DecidableEq P] (owner : P → String) (ttl : ℕ)

/-- The row a call goes on to overwrite or delete; `none` where it raises, inserts or has
    nothing to do. -/
def Pending.target (p : P) (c : Pending) : Option LeaseRow :=
  c.seen.filter fun r =>
    match c.call with
    | .acquire => r.expiresAt ≤ c.readAt ∨ r.owner = owner p
    | .heartbeat => r.owner = owner p
    | .release => r.owner = owner p
    | .reclaimExpired => r.expiresAt ≤ c.readAt

/-- The row `acquire` writes, over the id of the row it takes over or a new one. -/
def grantedRow (p : P) (c : Pending) (id : ℕ) : LeaseRow :=
  { id := id, owner := owner p, acquiredAt := c.readAt, expiresAt := c.readAt + ttl,
    heartbeatAt := some c.readAt }

namespace LeaseWorld

/-- A call of `p` is over; it leaves `p` inside as given. -/
def endCall (s : LeaseWorld P) (p : P) (inside : Option Int) : LeaseWorld P :=
  { s with caller := Function.update s.caller p ⟨inside, none⟩ }

/-- A call of `p` is over and has written the row. -/
def endWrite (s : LeaseWorld P) (p : P) (inside : Option Int) (row : Option LeaseRow)
    (holder : Option P) : LeaseWorld P :=
  { s.endCall p inside with row := row, holder := holder }

/-- The call raises, or had nothing to do. -/
def raised (s : LeaseWorld P) (p : P) : LeaseWorld P := s.endCall p (s.caller p).inside

/-- The write of a call on the row it targets, `r` being what the row is by now. -/
def writeRow (s : LeaseWorld P) (p : P) (c : Pending) (r : LeaseRow) : LeaseWorld P :=
  let inside := (s.caller p).inside
  match c.call with
  | .acquire =>
    s.endWrite p (some (c.readAt + ttl)) (some (grantedRow owner ttl p c r.id)) (some p)
  | .heartbeat =>
    s.endWrite p (inside.map fun _ => c.readAt + ttl)
      (some { r with heartbeatAt := some c.readAt, expiresAt := c.readAt + ttl }) s.holder
  | .release => s.endWrite p none none none
  | .reclaimExpired => s.endWrite p inside none none

/-- The insert of `acquire`; beside a row it violates the unique key. -/
def insertRow (s : LeaseWorld P) (p : P) (c : Pending) : LeaseWorld P :=
  match s.row with
  | some _ => s.raised p
  | none =>
    { s.endWrite p (some (c.readAt + ttl)) (some (grantedRow owner ttl p c s.nextId)) (some p) with
      nextId := s.nextId + 1 }

/-- The second half of a call. A targeted row is found by its id, and may be gone. -/
def finish (s : LeaseWorld P) (p : P) (c : Pending) : LeaseWorld P :=
  match c.target owner p with
  | some r =>
    match s.row.filter fun r' => r'.id = r.id with
    | some r' => s.writeRow owner ttl p c r'
    | none => s.raised p
  | none => if c.call = .acquire ∧ c.seen = none then s.insertRow owner ttl p c else s.raised p

/-- A call of `p` begins, and reads the row; a release is called when the section is left. -/
def beginCall (s : LeaseWorld P) (p : P) (call : LeaseCall) : LeaseWorld P :=
  { s with
    caller := Function.update s.caller p
      ⟨if call = .release then none else (s.caller p).inside, some ⟨call, s.row, s.now⟩⟩ }

/-- One step. A caller is in one call at a time. -/
def step (s : LeaseWorld P) : LeaseOp P → LeaseWorld P
  | .tick seconds => { s with now := s.now + seconds }
  | .read p call => if (s.caller p).pending = none then s.beginCall p call else s
  | .write p =>
    match (s.caller p).pending with
    | some c => s.finish owner ttl p c
    | none => s
  | .quit p => s.endCall p none

def start (P : Type) (now : Int) (row : Option LeaseRow) : LeaseWorld P :=
  { now := now, row := row, nextId := (row.map fun r => r.id + 1).getD 0, holder := none,
    caller := fun _ => ⟨none, none⟩ }

/-! ## What the leases are for -/

/-- The caller is inside the section, guarded by an unexpired lease. -/
def Guarded (s : LeaseWorld P) (p : P) : Prop :=
  ∃ expires, (s.caller p).inside = some expires ∧ s.now < expires

def Exclusive (s : LeaseWorld P) : Prop :=
  ∀ p q, s.Guarded p → s.Guarded q → p = q

/-- A step that ends a release leaves the lease of another caller alone. -/
def ReleaseSafe (s : LeaseWorld P) (op : LeaseOp P) : Prop :=
  ∀ p q c, op = .write p → (s.caller p).pending = some c → c.call = .release →
    s.holder = some q → q ≠ p → (s.step owner ttl op).holder = some q

end LeaseWorld

/-- **Every state of the run is exclusive and every release in it is safe.** -/
def SafeRun (s : LeaseWorld P) (ops : List (LeaseOp P)) : Prop :=
  ∀ pre post, ops = pre ++ post →
    (runFrom (LeaseWorld.step owner ttl) s pre).Exclusive ∧
    ∀ op rest, post = op :: rest →
      (runFrom (LeaseWorld.step owner ttl) s pre).ReleaseSafe owner ttl op

def LeaseWorld.RowAsRead (s : LeaseWorld P) (op : LeaseOp P) : Prop :=
  ∀ p c r r', op = .write p → (s.caller p).pending = some c → c.target owner p = some r →
    s.row = some r' → r'.id = r.id → r' = r

end Leases

/-! ## What the leases rest on -/

section Runs

variable {P : Type} {owner : P → String} {ttl : ℕ} {p : P} {c : Pending} {r : LeaseRow}

theorem Pending.target_cases (h : c.target owner p = some r) :
    r.expiresAt ≤ c.readAt ∨ r.owner = owner p := by
  have hr := (Option.filter_eq_some_iff.mp h).2
  cases hcall : c.call with
  | acquire =>
    rw [hcall] at hr
    simpa using hr
  | heartbeat =>
    rw [hcall] at hr
    exact Or.inr (by simpa using hr)
  | release =>
    rw [hcall] at hr
    exact Or.inr (by simpa using hr)
  | reclaimExpired =>
    rw [hcall] at hr
    exact Or.inl (by simpa using hr)

theorem Pending.target_named (h : c.target owner p = some r)
    (hcall : c.call = .heartbeat ∨ c.call = .release) : r.owner = owner p := by
  have hr := (Option.filter_eq_some_iff.mp h).2
  rcases hcall with hcall | hcall <;> rw [hcall] at hr <;> simpa using hr

theorem Pending.target_expired (h : c.target owner p = some r) (hcall : c.call = .reclaimExpired) :
    r.expiresAt ≤ c.readAt := by
  have hr := (Option.filter_eq_some_iff.mp h).2
  rw [hcall] at hr
  simpa using hr

variable {s : LeaseWorld P}

namespace LeaseWorld

/-- **What the leases rest on.** The row's owner is the name of its holder, a guarded caller
    holds the row, the row lasts as long as the caller was told, and a row that nobody was
    granted finds nobody inside. -/
structure Held (owner : P → String) (s : LeaseWorld P) : Prop where
  guard : ∀ p e, (s.caller p).inside = some e → s.now < e →
    s.holder = some p ∧ ∃ r, s.row = some r ∧ e ≤ r.expiresAt
  named : ∀ r q, s.row = some r → s.holder = some q → r.owner = owner q
  left : ∀ r p, s.row = some r → s.holder = none → (s.caller p).inside = none
  past : ∀ p c, (s.caller p).pending = some c → c.readAt ≤ s.now

theorem Held.start (now : Int) (row : Option LeaseRow) : Held owner (start P now row) :=
  { guard := fun _ _ h => nomatch h
    named := fun _ _ _ h => nomatch h
    left := fun _ _ _ _ => rfl
    past := fun _ _ h => nomatch h }

theorem Held.exclusive (h : Held owner s) : s.Exclusive := by
  intro p q hp hq
  obtain ⟨e, hin, hlive⟩ := hp
  obtain ⟨e', hin', hlive'⟩ := hq
  have hholder := (h.guard p e hin hlive).1
  rw [(h.guard q e' hin' hlive').1] at hholder
  exact (Option.some.inj hholder).symm

/-- The row stands, and nobody has come in. -/
theorem Held.of_fewer {s' : LeaseWorld P} (h : Held owner s) (hrow : s'.row = s.row)
    (hholder : s'.holder = s.holder) (hnow : s'.now = s.now)
    (hin : ∀ q e, (s'.caller q).inside = some e → (s.caller q).inside = some e)
    (hpast : ∀ q c, (s'.caller q).pending = some c → c.readAt ≤ s.now) : Held owner s' where
  guard q e he hlive := by
    rw [hrow, hholder]
    exact h.guard q e (hin q e he) (hnow ▸ hlive)
  named r q hr hq := h.named r q (hrow ▸ hr) (hholder ▸ hq)
  left r q hr hq := Option.eq_none_iff_forall_ne_some.mpr fun e he =>
    Option.eq_none_iff_forall_ne_some.mp (h.left r q (hrow ▸ hr) (hholder ▸ hq)) e (hin q e he)
  past q c hc := hnow ▸ hpast q c hc

theorem Held.target_alone (h : Held owner s) (hnames : owner.Injective)
    (hc : (s.caller p).pending = some c) (htarget : c.target owner p = some r)
    (hrow : s.row = some r) : ∀ q, s.Guarded q → q = p := by
  intro q hq
  obtain ⟨e, hin, hlive⟩ := hq
  obtain ⟨hholder, r', hrow', hle⟩ := h.guard q e hin hlive
  rw [hrow, Option.some.injEq] at hrow'
  subst hrow'
  rcases Pending.target_cases htarget with hexpired | hname
  · have hread := h.past p c hc
    omega
  · exact hnames ((h.named r q hrow hholder).symm.trans hname)

theorem Held.tick (h : Held owner s) (seconds : ℕ) :
    Held owner { s with now := s.now + seconds } := by
  refine ⟨?_, h.named, h.left, ?_⟩
  · intro p e hin hlive
    have hlive' : s.now + seconds < e := hlive
    exact h.guard p e hin (by omega)
  · intro p c hc
    have hread := h.past p c hc
    show c.readAt ≤ s.now + seconds
    omega

end LeaseWorld

/-! ## What a step can do -/

variable [DecidableEq P]

namespace LeaseWorld

theorem finish_cases (s : LeaseWorld P) (p : P) (c : Pending) :
    s.finish owner ttl p c = s.raised p ∨
    (∃ r r', c.target owner p = some r ∧ s.row = some r' ∧ r'.id = r.id ∧
      s.finish owner ttl p c = s.writeRow owner ttl p c r') ∨
    (c.call = .acquire ∧ s.row = none ∧
      s.finish owner ttl p c =
        { s.endWrite p (some (c.readAt + ttl)) (some (grantedRow owner ttl p c s.nextId))
            (some p) with nextId := s.nextId + 1 }) := by
  unfold finish
  cases htarget : c.target owner p with
  | some r =>
    simp only
    cases hrow : s.row.filter fun r' => r'.id = r.id with
    | some r' =>
      obtain ⟨hr', hid⟩ := Option.filter_eq_some_iff.mp hrow
      exact Or.inr (Or.inl ⟨r, r', rfl, hr', by simpa using hid, rfl⟩)
    | none => exact Or.inl rfl
  | none =>
    simp only
    split
    · rename_i hacquire
      unfold insertRow
      cases hrow : s.row with
      | some r => exact Or.inl rfl
      | none => exact Or.inr (Or.inr ⟨hacquire.1, rfl, rfl⟩)
    · exact Or.inl rfl

@[simp] theorem caller_endCall (s : LeaseWorld P) (p q : P) (inside : Option Int) :
    (s.endCall p inside).caller q = if q = p then ⟨inside, none⟩ else s.caller q := by
  simp [endCall, Function.update_apply]

@[simp] theorem caller_endWrite (s : LeaseWorld P) (p q : P) (inside : Option Int)
    (row : Option LeaseRow) (holder : Option P) :
    (s.endWrite p inside row holder).caller q = if q = p then ⟨inside, none⟩ else s.caller q :=
  caller_endCall s p q inside

theorem step_write (s : LeaseWorld P) (h : (s.caller p).pending = some c) :
    s.step owner ttl (.write p) = s.finish owner ttl p c := by
  simp only [step, h]

theorem step_write_idle (s : LeaseWorld P) (h : (s.caller p).pending = none) :
    s.step owner ttl (.write p) = s := by
  simp only [step, h]

theorem Held.endCall (h : Held owner s) (p : P) {inside : Option Int}
    (hinside : inside = none ∨ inside = (s.caller p).inside) : Held owner (s.endCall p inside) := by
  refine h.of_fewer rfl rfl rfl (fun q e hin => ?_) fun q c hc => ?_
  · rw [caller_endCall] at hin
    split at hin
    · rename_i hq
      subst hq
      rcases hinside with hnone | hsame
      · rw [hnone] at hin
        cases hin
      · rwa [← hsame]
    · exact hin
  · rw [caller_endCall] at hc
    split at hc
    · cases hc
    · exact h.past q c hc

theorem Held.endWrite (h : Held owner s) {inside : Option Int} {row : Option LeaseRow}
    {holder : Option P} (hothers : ∀ q, s.Guarded q → q = p)
    (hself : ∀ e, inside = some e → s.now < e →
      holder = some p ∧ ∃ r, row = some r ∧ e ≤ r.expiresAt)
    (hnamed : ∀ r q, row = some r → holder = some q → r.owner = owner q)
    (hleft : ∀ r q, row = some r → holder = none →
      ((s.endWrite p inside row holder).caller q).inside = none) :
    Held owner (s.endWrite p inside row holder) := by
  refine ⟨?_, hnamed, hleft, ?_⟩
  · intro q e hin hlive
    rw [caller_endWrite] at hin
    split at hin
    · rename_i hq
      subst hq
      exact hself e hin hlive
    · rename_i hq
      exact absurd (hothers q ⟨e, hin, hlive⟩) hq
  · intro q c hc
    rw [caller_endWrite] at hc
    split at hc
    · cases hc
    · exact h.past q c hc

theorem Held.writeRow (h : Held owner s) (hnames : owner.Injective)
    (hc : (s.caller p).pending = some c) (htarget : c.target owner p = some r)
    (hrow : s.row = some r) : Held owner (s.writeRow owner ttl p c r) := by
  have hothers := h.target_alone hnames hc htarget hrow
  unfold LeaseWorld.writeRow
  cases hcall : c.call with
  | acquire =>
    refine h.endWrite hothers ?_ ?_ ?_
    · intro e he _
      cases he
      exact ⟨rfl, _, rfl, Int.le_refl _⟩
    · intro r' q hr' hq
      cases hr'
      cases hq
      rfl
    · intro r' q _ hnone
      cases hnone
  | heartbeat =>
    have hname := Pending.target_named htarget (Or.inl hcall)
    have hinside : ∀ e, (s.caller p).inside = some e → s.holder = some p := by
      intro e hin
      cases hholder : s.holder with
      | none =>
        have hout := h.left r p hrow hholder
        rw [hin] at hout
        cases hout
      | some q => rw [hnames ((h.named r q hrow hholder).symm.trans hname)]
    refine h.endWrite hothers ?_ ?_ ?_
    · intro e he _
      obtain ⟨e', hin, rfl⟩ := Option.map_eq_some_iff.mp he
      exact ⟨hinside e' hin, _, rfl, Int.le_refl _⟩
    · intro r' q hr' hq
      cases hr'
      exact h.named r q hrow hq
    · intro r' q _ hnone
      rw [caller_endWrite]
      split
      · rename_i hq
        subst hq
        simp [h.left r q hrow hnone]
      · exact h.left r q hrow hnone
  | release =>
    refine h.endWrite hothers ?_ ?_ ?_
    · intro e he
      cases he
    · intro r' q hr'
      cases hr'
    · intro r' q hr'
      cases hr'
  | reclaimExpired =>
    refine h.endWrite hothers ?_ ?_ ?_
    · intro e he hlive
      -- the caller itself may be inside, but its lease has expired too
      obtain ⟨-, r', hrow', hle⟩ := h.guard p e he hlive
      rw [hrow, Option.some.injEq] at hrow'
      subst hrow'
      have hexpired := Pending.target_expired htarget hcall
      have hread := h.past p c hc
      omega
    · intro r' q hr'
      cases hr'
    · intro r' q hr'
      cases hr'

theorem Held.insert (h : Held owner s) (p : P) (c : Pending) (hrow : s.row = none) :
    Held owner { s.endWrite p (some (c.readAt + ttl))
      (some (grantedRow owner ttl p c s.nextId)) (some p) with nextId := s.nextId + 1 } := by
  have hothers : ∀ q, s.Guarded q → q = p := by
    intro q hq
    obtain ⟨e, hin, hlive⟩ := hq
    obtain ⟨-, r, hr, -⟩ := h.guard q e hin hlive
    rw [hrow] at hr
    cases hr
  have hheld : Held owner (s.endWrite p (some (c.readAt + ttl))
      (some (grantedRow owner ttl p c s.nextId)) (some p)) := by
    refine h.endWrite hothers ?_ ?_ ?_
    · intro e he _
      cases he
      exact ⟨rfl, _, rfl, Int.le_refl _⟩
    · intro r q hr hq
      cases hr
      cases hq
      rfl
    · intro r q _ hnone
      cases hnone
  exact ⟨hheld.guard, hheld.named, hheld.left, hheld.past⟩

theorem Held.beginCall (h : Held owner s) (p : P) (call : LeaseCall) :
    Held owner (s.beginCall p call) := by
  have hcaller : ∀ q, (s.beginCall p call).caller q =
      if q = p then ⟨if call = .release then none else (s.caller p).inside,
        some ⟨call, s.row, s.now⟩⟩ else s.caller q := by
    intro q
    simp [LeaseWorld.beginCall, Function.update_apply]
  refine h.of_fewer rfl rfl rfl (fun q e hin => ?_) fun q c hc => ?_
  · rw [hcaller] at hin
    split at hin
    · rename_i hq
      subst hq
      simp only at hin
      split at hin
      · cases hin
      · exact hin
    · exact hin
  · rw [hcaller] at hc
    split at hc
    · cases hc
      exact Int.le_refl _
    · exact h.past q c hc

/-- With names of their own, every call of a process keeps the lease with its holder. -/
theorem Held.step (h : Held owner s) (hnames : owner.Injective) {op : LeaseOp P}
    (hread : s.RowAsRead owner op) : Held owner (s.step owner ttl op) := by
  cases op with
  | tick seconds => exact h.tick seconds
  | quit p => exact h.endCall p (Or.inl rfl)
  | read p call =>
    unfold LeaseWorld.step
    simp only
    split
    · exact h.beginCall p call
    · exact h
  | write p =>
    cases hc : (s.caller p).pending with
    | none =>
      rw [step_write_idle s hc]
      exact h
    | some c =>
      rw [step_write s hc]
      rcases finish_cases s p c with hraised | ⟨r, r', htarget, hrow, hid, hwrite⟩ | ⟨-, hrow, hins⟩
      · rw [hraised]
        exact h.endCall p (Or.inr rfl)
      · have hsame := hread p c r r' rfl hc htarget hrow hid
        subst hsame
        rw [hwrite]
        exact h.writeRow hnames hc htarget hrow
      · rw [hins]
        exact h.insert p c hrow

theorem Held.run (hnames : owner.Injective) (h : Held owner s) {ops : List (LeaseOp P)}
    (hread : StepsMeet (LeaseWorld.step owner ttl) (LeaseWorld.RowAsRead owner) s ops) :
    Held owner (runFrom (LeaseWorld.step owner ttl) s ops) :=
  run_invariant_of_meets (fun _ _ hs hop => hs.step hnames hop) h hread

theorem Held.releaseSafe (h : Held owner s) (hnames : owner.Injective) {op : LeaseOp P}
    (hread : s.RowAsRead owner op) : s.ReleaseSafe owner ttl op := by
  intro p q c hop hc hcall hholder hne
  subst hop
  rw [step_write s hc]
  rcases finish_cases s p c with hraised | ⟨r, r', htarget, hrow, hid, -⟩ | ⟨hacquire, -⟩
  · rw [hraised]
    exact hholder
  · have hsame := hread p c r r' rfl hc htarget hrow hid
    subst hsame
    have hname := Pending.target_named htarget (Or.inr hcall)
    exact absurd (hnames ((h.named r' q hrow hholder).symm.trans hname)) hne
  · rw [hcall] at hacquire
    cases hacquire

end LeaseWorld

/-- Callers with names of their own exclude each other. -/
theorem safeRun_of_names (hnames : owner.Injective) (h : LeaseWorld.Held owner s)
    {ops : List (LeaseOp P)}
    (hread : StepsMeet (LeaseWorld.step owner ttl) (LeaseWorld.RowAsRead owner) s ops) :
    SafeRun owner ttl s ops := by
  intro pre post hops
  subst hops
  have hpre := StepsMeet.append_iff.mp hread
  have hheld := h.run hnames hpre.1
  refine ⟨hheld.exclusive, ?_⟩
  intro op rest hpost
  subst hpost
  exact hheld.releaseSafe hnames (StepsMeet.cons_iff.mp hpre.2).1

/-! ## Calls nobody interrupts -/

namespace LeaseWorld

variable (owner ttl)

def wholeCall (s : LeaseWorld P) (p : P) (call : LeaseCall) : LeaseWorld P :=
  (s.beginCall p call).finish owner ttl p ⟨call, s.row, s.now⟩

variable {owner ttl}

theorem beginCall_pending (s : LeaseWorld P) (p : P) (call : LeaseCall) :
    ((s.beginCall p call).caller p).pending = some ⟨call, s.row, s.now⟩ := by
  simp [beginCall]

theorem run_wholeCall (hidle : (s.caller p).pending = none) (call : LeaseCall) :
    runFrom (step owner ttl) s [.read p call, .write p] = s.wholeCall owner ttl p call := by
  have hbegin : s.step owner ttl (.read p call) = s.beginCall p call := by
    simp only [step, hidle, if_true]
  rw [runFrom_cons, hbegin, runFrom_cons, step_write _ (beginCall_pending s p call)]
  rfl

theorem wholeCall_meets (hidle : (s.caller p).pending = none) (call : LeaseCall) :
    StepsMeet (step owner ttl) (RowAsRead owner) s [.read p call, .write p] := by
  have hbegin : s.step owner ttl (.read p call) = s.beginCall p call := by
    simp only [step, hidle, if_true]
  refine ⟨?_, ?_, trivial⟩
  · intro q c r r' hop
    cases hop
  · rw [hbegin]
    intro q c r r' hop hc htarget hrow hid
    cases hop
    rw [beginCall_pending, Option.some.injEq] at hc
    subst hc
    have hseen : s.row = some r := (Option.filter_eq_some_iff.mp htarget).1
    have hrow' : s.row = some r' := hrow
    rw [hseen, Option.some.injEq] at hrow'
    exact hrow'.symm

theorem wholeCall_idle (hidle : ∀ q, (s.caller q).pending = none) (p : P) (call : LeaseCall) (q : P) :
    ((s.wholeCall owner ttl p call).caller q).pending = none := by
  have hq : q ≠ p → ((s.beginCall p call).caller q).pending = none := by
    intro hne
    simp [beginCall, hne, hidle q]
  unfold wholeCall
  rcases @finish_cases P owner ttl _ (s.beginCall p call) p ⟨call, s.row, s.now⟩ with
    hraised | ⟨r, r', -, -, -, hwrite⟩ | ⟨-, -, hins⟩
  · rw [hraised, raised, caller_endCall]
    split
    · rfl
    · rename_i hne
      exact hq hne
  · rw [hwrite]
    cases call <;> simp only [writeRow, caller_endWrite] <;> split <;>
      first | rfl | (rename_i hne; exact hq hne)
  · rw [hins]
    simp only [caller_endWrite]
    split
    · rfl
    · rename_i hne
      exact hq hne

def HeldBy (owner : P → String) (s : LeaseWorld P) (p : P) : Prop :=
  s.holder = some p ∧ ∃ r, s.row = some r ∧ r.owner = owner p

theorem wholeCall_target {call : LeaseCall} (hrow : s.row = some r)
    (htarget : Pending.target owner p ⟨call, s.row, s.now⟩ = some r) :
    s.wholeCall owner ttl p call =
      (s.beginCall p call).writeRow owner ttl p ⟨call, s.row, s.now⟩ r := by
  have hfound : (s.beginCall p call).row.filter (fun r' => r'.id = r.id) = some r :=
    Option.filter_eq_some_iff.mpr ⟨hrow, by simp⟩
  unfold wholeCall finish
  rw [htarget]
  simp only [hfound]

theorem wholeCall_acquire (hrow : ∀ r, s.row = some r → r.owner = owner p) :
    (s.wholeCall owner ttl p .acquire).HeldBy owner p := by
  cases hr : s.row with
  | none =>
    unfold wholeCall finish
    simp [Pending.target, insertRow, beginCall, hr, endWrite, HeldBy, grantedRow]
  | some r =>
    have hname := hrow r hr
    have htarget : Pending.target owner p ⟨.acquire, s.row, s.now⟩ = some r :=
      Option.filter_eq_some_iff.mpr ⟨hr, by simp [hname]⟩
    rw [wholeCall_target hr htarget]
    exact ⟨rfl, _, rfl, rfl⟩

theorem wholeCall_release (hrow : s.row = some r) (hname : r.owner = owner p) :
    (s.wholeCall owner ttl p .release).holder = none := by
  have htarget : Pending.target owner p ⟨.release, s.row, s.now⟩ = some r :=
    Option.filter_eq_some_iff.mpr ⟨hrow, by simp [hname]⟩
  rw [wholeCall_target hrow htarget]
  rfl

end LeaseWorld

/-! ## The names decide -/

/-- Two callers acquire one after the other, and the first releases. -/
def takeoverRun (p q : P) : List (LeaseOp P) :=
  ([.read p .acquire, .write p] ++ [.read q .acquire, .write q]) ++ [.read p .release, .write p]

/-- Two processes of one name can both hold the lease. -/
theorem not_safeRun_takeover {p q : P} (hname : owner p = owner q) (hne : p ≠ q) :
    StepsMeet (LeaseWorld.step owner ttl) (LeaseWorld.RowAsRead owner)
      (LeaseWorld.start P 0 none) (takeoverRun p q) ∧
    ¬ SafeRun owner ttl (LeaseWorld.start P 0 none) (takeoverRun p q) := by
  let s₀ := LeaseWorld.start P 0 none
  have hidle₀ : ∀ x, (s₀.caller x).pending = none := fun _ => rfl
  let s₁ := s₀.wholeCall owner ttl p .acquire
  have hidle₁ : ∀ x, (s₁.caller x).pending = none := LeaseWorld.wholeCall_idle hidle₀ p .acquire
  have hheld₁ : s₁.HeldBy owner p := LeaseWorld.wholeCall_acquire fun r hr => nomatch hr
  let s₂ := s₁.wholeCall owner ttl q .acquire
  have hidle₂ : ∀ x, (s₂.caller x).pending = none := LeaseWorld.wholeCall_idle hidle₁ q .acquire
  have hheld₂ : s₂.HeldBy owner q := by
    refine LeaseWorld.wholeCall_acquire fun r hr => ?_
    obtain ⟨-, r', hr', hown⟩ := hheld₁
    rw [hr', Option.some.injEq] at hr
    rw [← hr, hown, hname]
  have hrun₂ : runFrom (LeaseWorld.step owner ttl) s₀
      ([.read p .acquire, .write p] ++ [.read q .acquire, .write q]) = s₂ := by
    rw [runFrom_append, LeaseWorld.run_wholeCall (hidle₀ p), LeaseWorld.run_wholeCall (hidle₁ q)]
  constructor
  · refine StepsMeet.append_iff.mpr ⟨StepsMeet.append_iff.mpr ⟨?_, ?_⟩, ?_⟩
    · exact LeaseWorld.wholeCall_meets (hidle₀ p) .acquire
    · rw [LeaseWorld.run_wholeCall (hidle₀ p)]
      exact LeaseWorld.wholeCall_meets (hidle₁ q) .acquire
    · rw [hrun₂]
      exact LeaseWorld.wholeCall_meets (hidle₂ p) .release
  · intro hsafe
    -- the write of the release is the last step, and it ends the lease of the second caller
    have hlast := (hsafe (([.read p .acquire, .write p] ++ [.read q .acquire, .write q]) ++
      [.read p .release]) [.write p] (by simp [takeoverRun])).2 (.write p) [] rfl
    have hbegin : runFrom (LeaseWorld.step owner ttl) s₀
        (([.read p .acquire, .write p] ++ [.read q .acquire, .write q]) ++ [.read p .release]) =
        s₂.beginCall p .release := by
      rw [runFrom_append, hrun₂]
      simp only [runFrom_cons, runFrom_nil, LeaseWorld.step, hidle₂ p, if_true]
    rw [hbegin] at hlast
    have hpending := s₂.beginCall_pending p .release
    have hkept := hlast p q _ rfl hpending rfl hheld₂.1 hne.symm
    obtain ⟨-, r, hrow, hown⟩ := hheld₂
    have hgone : (s₂.wholeCall owner ttl p .release).holder = none :=
      LeaseWorld.wholeCall_release hrow (hown.trans hname.symm)
    rw [LeaseWorld.step_write _ hpending] at hkept
    have hsame : s₂.wholeCall owner ttl p .release =
        (s₂.beginCall p .release).finish owner ttl p ⟨.release, s₂.row, s₂.now⟩ := rfl
    rw [← hsame, hgone] at hkept
    cases hkept

/-- **Leases exclude exactly between owners of distinct names.** At every lease length, every
    run whose writes find the row as it was read is safe, whatever row is left from an earlier
    time, if and only if no two callers bear one name. -/
theorem leases_exclude_iff (owner : P → String) (ttl : ℕ) :
    (∀ now row ops,
      StepsMeet (LeaseWorld.step owner ttl) (LeaseWorld.RowAsRead owner)
        (LeaseWorld.start P now row) ops →
      SafeRun owner ttl (LeaseWorld.start P now row) ops) ↔ owner.Injective := by
  constructor
  · intro hall p q hname
    by_contra hne
    obtain ⟨hread, hunsafe⟩ := @not_safeRun_takeover P owner ttl _ p q hname hne
    exact hunsafe (hall 0 none _ hread)
  · intro hnames now row ops hread
    exact safeRun_of_names hnames (LeaseWorld.Held.start now row) hread

end Runs

/-! ## Two schedulers -/

/-- **Two scheduler instances are both inside the dispatch section.** Each acquires under the
    name `scheduler`, so the second takes over the unexpired lease of the first. -/
theorem two_schedulers_inside :
    ¬ (runFrom (LeaseWorld.step (fun _ : Bool => "scheduler") 300) (LeaseWorld.start Bool 0 none)
      [.read false .acquire, .write false, .tick 5, .read true .acquire, .write true]).Exclusive := by
  intro h
  have hsame := h false true ⟨300, by decide, by decide⟩ ⟨305, by decide, by decide⟩
  cases hsame

end Investor.Workflow
