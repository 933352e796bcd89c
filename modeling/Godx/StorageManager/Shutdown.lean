import Godx.Go

/-!
# Shutting the storage manager down

`storageManager.Close` and the operations it is meant to drain (`AddStorageFolder`, `AddSector`,
`ReadSector`), as threads taking atomic steps on the shared `atomicSwitch`, the `sync.WaitGroup`
counter `wg` and the unbuffered `stopChan`. A state holds the program counter of every
operation, of every `Close` call and of the maintenance goroutine that `New` starts after its
`wg.Add(1)`. `step` is one thread's step, `none` when that thread cannot take it (a blocked
channel send, a `wg.Wait` on a positive counter); `run` is an interleaving.

* `reachable_inv`: in every reachable state `wg` counts the operations between their
  `wg.Add(1)` and their `wg.Done()`, plus the maintenance goroutine until it exits; so
  `done_wg_pos`: no `wg.Done()` takes the counter below zero.
* `closeWait_drains`: when a `Close` passes `wg.Wait`, no operation is between its `wg.Add(1)`
  and its `wg.Done()`. An operation that read the switch before `Close` stored it is not counted
  yet: `operation_body_after_close`, a run where `Close` returns `nil` and that operation then
  executes its body.
* `at_most_one_close_sends`: at most one `Close` sends on `stopChan`, so at most one returns
  `nil`. The check and the store of the switch are two steps: `concurrent_closes_pass_check`,
  a run where two `Close` calls both pass the check and store the switch; the one that does
  not send then blocks on the send forever (`close_send_blocked`).
-/

namespace Godx.StorageManager

/-! ## Threads and steps -/

/-- Where an `AddStorageFolder`, `AddSector` or `ReadSector` call is. -/
inductive OpPc
  /-- before `atomic.LoadUint64(&sm.atomicSwitch)` -/
  | start
  /-- the switch read `0` -/
  | checked
  /-- after `sm.wg.Add(1)` -/
  | added
  /-- executing its body -/
  | running
  /-- after the deferred `sm.wg.Done()` -/
  | finished
  /-- returned `"storage manager is shut down"` -/
  | rejected
  deriving DecidableEq, Repr

/-- Where a `Close` call is. -/
inductive ClosePc
  /-- before `atomic.LoadUint64(&sm.atomicSwitch)` -/
  | start
  /-- the switch read `0` -/
  | checked
  /-- after `atomic.StoreUint64(&sm.atomicSwitch, 1)` -/
  | stored
  /-- after `sm.stopChan <- struct{}{}` -/
  | sent
  /-- `sm.wg.Wait()` returned, and `Close` returned `nil` -/
  | returned
  /-- returned `"storage managger already closed"` -/
  | rejected
  deriving DecidableEq, Repr

/-- Modelled from the spec: the maintenance goroutine receives one value from `stopChan`, then
calls `sm.wg.Done()`. -/
inductive MaintenancePc
  | waiting
  | received
  | exited
  deriving DecidableEq, Repr

/-- The shared variables and every thread's program counter. -/
structure State where
  atomicSwitch : Nat
  wg : Nat
  ops : List OpPc
  closes : List ClosePc
  maintenance : MaintenancePc
  deriving DecidableEq, Repr

/-- After `New`: the switch `0`, the maintenance goroutine's `wg.Add(1)` done, `nOps` operations
and `nCloses` `Close` calls not started. -/
def init (nOps nCloses : Nat) : State :=
  ⟨0, 1, List.replicate nOps .start, List.replicate nCloses .start, .waiting⟩

/-- One atomic step of one thread. -/
inductive Action
  | opLoad (i : Nat)
  | opAdd (i : Nat)
  | opBody (i : Nat)
  | opDone (i : Nat)
  | closeLoad (j : Nat)
  | closeStore (j : Nat)
  | closeSend (j : Nat)
  | closeWait (j : Nat)
  | maintenanceDone
  deriving DecidableEq, Repr

/-- The step `a` from `s`, `none` when its thread cannot take it. A `Close` sends only when the
maintenance goroutine is waiting to receive (the channel is unbuffered), and passes `wg.Wait`
only on a zero counter. -/
def step (s : State) : Action → Option State
  | .opLoad i => (advance s.ops i .start (if s.atomicSwitch = 1 then .rejected else .checked)).map
      fun ops => { s with ops }
  | .opAdd i => (advance s.ops i .checked .added).map fun ops => { s with wg := s.wg + 1, ops }
  | .opBody i => (advance s.ops i .added .running).map fun ops => { s with ops }
  | .opDone i => (advance s.ops i .running .finished).map fun ops => { s with wg := s.wg - 1, ops }
  | .closeLoad j =>
    (advance s.closes j .start (if s.atomicSwitch = 1 then .rejected else .checked)).map
      fun closes => { s with closes }
  | .closeStore j => (advance s.closes j .checked .stored).map
      fun closes => { s with atomicSwitch := 1, closes }
  | .closeSend j =>
    if s.maintenance = .waiting then
      (advance s.closes j .stored .sent).map fun closes => { s with closes, maintenance := .received }
    else none
  | .closeWait j =>
    if s.wg = 0 then (advance s.closes j .sent .returned).map fun closes => { s with closes }
    else none
  | .maintenanceDone =>
    if s.maintenance = .received then some { s with wg := s.wg - 1, maintenance := .exited }
    else none

/-- The state after the steps `acts`, `none` if one of them cannot be taken. -/
def run (s : State) : List Action → Option State
  | [] => some s
  | a :: acts => (step s a).bind fun s' => run s' acts

/-- The states some interleaving reaches from `init nOps nCloses`. -/
def Reachable (nOps nCloses : Nat) (s : State) : Prop := ∃ acts, run (init nOps nCloses) acts = some s

/-! ## The guarded steps

What each step that can block needs of the state, and what it does: the send on the unbuffered
`stopChan`, `wg.Wait()`, and the maintenance goroutine's `wg.Done()` after it receives. -/

theorem step_closeSend {s s' : State} {j : Nat} (h : step s (.closeSend j) = some s') :
    s.maintenance = .waiting ∧ ∃ closes, advance s.closes j .stored .sent = some closes ∧
      { s with closes, maintenance := .received } = s' := by
  simp only [step] at h
  split at h
  · exact ⟨‹_›, Option.map_eq_some'.1 h⟩
  · cases h

theorem step_closeWait {s s' : State} {j : Nat} (h : step s (.closeWait j) = some s') :
    s.wg = 0 ∧ ∃ closes, advance s.closes j .sent .returned = some closes ∧
      { s with closes } = s' := by
  simp only [step] at h
  split at h
  · exact ⟨‹_›, Option.map_eq_some'.1 h⟩
  · cases h

theorem step_maintenanceDone {s s' : State} (h : step s .maintenanceDone = some s') :
    s.maintenance = .received ∧ { s with wg := s.wg - 1, maintenance := .exited } = s' := by
  simp only [step] at h
  split at h
  · exact ⟨‹_›, Option.some.inj h⟩
  · cases h

/-! ## Counting threads -/

/-- An operation `wg` counts: between its `wg.Add(1)` and its `wg.Done()`. -/
def OpPc.holdsWg : OpPc → Bool
  | .added | .running => true
  | _ => false

/-- A `Close` that has sent on `stopChan`. -/
def ClosePc.hasSent : ClosePc → Bool
  | .sent | .returned => true
  | _ => false

/-! ## The counting invariant -/

/-- `wg` counts the operations it should and the maintenance goroutine until it exits; a `Close`
has sent exactly when the maintenance goroutine has received. -/
structure Inv (s : State) : Prop where
  wg_eq : s.wg = s.ops.countP OpPc.holdsWg + if s.maintenance = .exited then 0 else 1
  sent_eq : s.closes.countP ClosePc.hasSent = if s.maintenance = .waiting then 0 else 1

theorem init_inv (nOps nCloses : Nat) : Inv (init nOps nCloses) :=
  ⟨by simp [init, OpPc.holdsWg], by simp [init, ClosePc.hasSent]⟩

theorem holdsWg_load (c : Prop) [Decidable c] :
    OpPc.holdsWg (if c then .rejected else .checked) = false := by
  split <;> rfl

theorem hasSent_load (c : Prop) [Decidable c] :
    ClosePc.hasSent (if c then .rejected else .checked) = false := by
  split <;> rfl

theorem step_inv {s s' : State} {a : Action} (hs : Inv s) (h : step s a = some s') : Inv s' := by
  obtain ⟨hwg, hsent⟩ := hs
  cases a with
  | opLoad i =>
    obtain ⟨ops, hadv, rfl⟩ := Option.map_eq_some'.1 h
    have := countP_advance OpPc.holdsWg hadv
    rw [holdsWg_load] at this
    exact ⟨by simp only [OpPc.holdsWg] at this ⊢; omega, hsent⟩
  | opAdd i | opBody i | opDone i =>
    obtain ⟨ops, hadv, rfl⟩ := Option.map_eq_some'.1 h
    have := countP_advance OpPc.holdsWg hadv
    exact ⟨by simp only [OpPc.holdsWg, Bool.false_eq_true, ↓reduceIte] at this ⊢; omega, hsent⟩
  | closeLoad j =>
    obtain ⟨closes, hadv, rfl⟩ := Option.map_eq_some'.1 h
    have := countP_advance ClosePc.hasSent hadv
    rw [hasSent_load] at this
    exact ⟨hwg, by simp only [ClosePc.hasSent] at this ⊢; omega⟩
  | closeStore j =>
    obtain ⟨closes, hadv, rfl⟩ := Option.map_eq_some'.1 h
    have := countP_advance ClosePc.hasSent hadv
    exact ⟨hwg, by simp only [ClosePc.hasSent, Bool.false_eq_true, ↓reduceIte] at this ⊢; omega⟩
  | closeSend j =>
    obtain ⟨hm, closes, hadv, rfl⟩ := step_closeSend h
    have := countP_advance ClosePc.hasSent hadv
    simp only [ClosePc.hasSent, ↓reduceIte, Bool.false_eq_true] at this
    simp only [hm, reduceCtorEq, ↓reduceIte] at hwg hsent
    exact ⟨by simp only [reduceCtorEq, ↓reduceIte]; omega, by simp only [reduceCtorEq, ↓reduceIte]; omega⟩
  | closeWait j =>
    obtain ⟨-, closes, hadv, rfl⟩ := step_closeWait h
    have := countP_advance ClosePc.hasSent hadv
    simp only [ClosePc.hasSent, ↓reduceIte] at this
    exact ⟨hwg, by simp only; omega⟩
  | maintenanceDone =>
    obtain ⟨hm, rfl⟩ := step_maintenanceDone h
    simp only [hm, reduceCtorEq, ↓reduceIte] at hwg hsent
    exact ⟨by simp only [↓reduceIte]; omega, by simpa using hsent⟩

theorem run_inv {s : State} (hs : Inv s) : ∀ {acts : List Action} {s' : State},
    run s acts = some s' → Inv s'
  | [], _, h => by cases h; exact hs
  | a :: acts, s', h => by
    obtain ⟨s₁, h₁, h₂⟩ := Option.bind_eq_some.1 h
    exact run_inv (step_inv hs h₁) h₂

theorem reachable_inv {nOps nCloses : Nat} {s : State} (h : Reachable nOps nCloses s) : Inv s :=
  let ⟨_, hr⟩ := h
  run_inv (init_inv nOps nCloses) hr

/-! ## `wg.Done` and `wg.Wait` -/

/-- No `wg.Done()` takes the counter below zero (Go panics on a negative counter). -/
theorem done_wg_pos {nOps nCloses : Nat} {s s' : State} (hs : Reachable nOps nCloses s) {a : Action}
    (ha : a = .maintenanceDone ∨ ∃ i, a = .opDone i) (h : step s a = some s') : 0 < s.wg := by
  have hwg := (reachable_inv hs).wg_eq
  rcases ha with rfl | ⟨i, rfl⟩
  · simp only [(step_maintenanceDone h).1, reduceCtorEq, ↓reduceIte] at hwg
    omega
  · obtain ⟨ops, hadv, -⟩ := Option.map_eq_some'.1 h
    have := countP_advance OpPc.holdsWg hadv
    simp only [OpPc.holdsWg, Bool.false_eq_true, ↓reduceIte] at this
    omega

/-- One operation reaches its `wg.Done()` with the counter at `2`. -/
theorem done_wg_pos_oneOp :
    Reachable 1 0 ⟨0, 2, [.running], [], .waiting⟩ ∧
      step ⟨0, 2, [.running], [], .waiting⟩ (.opDone 0) = some ⟨0, 1, [.finished], [], .waiting⟩ ∧
      0 < (⟨0, 2, [.running], [], .waiting⟩ : State).wg := by
  have hs : Reachable 1 0 ⟨0, 2, [.running], [], .waiting⟩ :=
    ⟨[.opLoad 0, .opAdd 0, .opBody 0], by decide⟩
  have hstep : step ⟨0, 2, [.running], [], .waiting⟩ (.opDone 0) =
      some ⟨0, 1, [.finished], [], .waiting⟩ := by decide
  exact ⟨hs, hstep, done_wg_pos hs (.inr ⟨0, rfl⟩) hstep⟩

/-- When a `Close` passes `wg.Wait()`, no operation is between its `wg.Add(1)` and its
`wg.Done()`, and the maintenance goroutine has exited. -/
theorem closeWait_drains {nOps nCloses : Nat} {s s' : State} (hs : Reachable nOps nCloses s)
    {j : Nat} (h : step s (.closeWait j) = some s') :
    (∀ p ∈ s.ops, p.holdsWg = false) ∧ s.maintenance = .exited := by
  have hwg := (reachable_inv hs).wg_eq
  rw [(step_closeWait h).1] at hwg
  refine ⟨fun p hp => ?_, ?_⟩
  · have : s.ops.countP OpPc.holdsWg = 0 := by omega
    exact Bool.not_eq_true _ ▸ (List.countP_eq_zero.1 this p hp)
  · by_contra hm
    simp only [hm, ↓reduceIte] at hwg
    omega

/-- An operation runs to its `wg.Done()`, then a `Close` sends, the maintenance goroutine exits,
and the `Close` passes `wg.Wait()`. -/
theorem closeWait_drains_oneOp :
    Reachable 1 1 ⟨1, 0, [.finished], [.sent], .exited⟩ ∧
      step ⟨1, 0, [.finished], [.sent], .exited⟩ (.closeWait 0) =
        some ⟨1, 0, [.finished], [.returned], .exited⟩ ∧
      (∀ p ∈ [OpPc.finished], p.holdsWg = false) ∧ MaintenancePc.exited = .exited := by
  have hs : Reachable 1 1 ⟨1, 0, [.finished], [.sent], .exited⟩ :=
    ⟨[.opLoad 0, .opAdd 0, .opBody 0, .opDone 0, .closeLoad 0, .closeStore 0, .closeSend 0,
      .maintenanceDone], by decide⟩
  have hstep : step ⟨1, 0, [.finished], [.sent], .exited⟩ (.closeWait 0) =
      some ⟨1, 0, [.finished], [.returned], .exited⟩ := by decide
  exact ⟨hs, hstep, closeWait_drains hs hstep⟩

/-- One operation and one `Close`: the operation reads the switch, then `Close` stores it, sends,
the maintenance goroutine exits, and `Close` passes `wg.Wait()` and returns `nil`; then the
operation calls `wg.Add(1)` and executes its body. -/
theorem operation_body_after_close :
    run (init 1 1) [.opLoad 0, .closeLoad 0, .closeStore 0, .closeSend 0, .maintenanceDone,
      .closeWait 0, .opAdd 0, .opBody 0] = some ⟨1, 1, [.running], [.returned], .exited⟩ := by
  decide

/-! ## Concurrent `Close` calls -/

/-- At most one `Close` sends on `stopChan`, so at most one returns `nil`. -/
theorem at_most_one_close_sends {nOps nCloses : Nat} {s : State} (hs : Reachable nOps nCloses s)
    {j k : Nat} {p q : ClosePc} (hj : s.closes[j]? = some p) (hk : s.closes[k]? = some q)
    (hp : p.hasSent = true) (hq : q.hasSent = true) : j = k := by
  have h1 : s.closes.countP ClosePc.hasSent ≤ 1 := by
    rw [(reachable_inv hs).sent_eq]; split <;> omega
  by_contra hne
  rcases Nat.lt_or_gt_of_ne hne with hlt | hlt
  · have := two_le_countP hlt hj hk hp hq; omega
  · have := two_le_countP hlt hk hj hq hp; omega

/-- Of two `Close` calls, the first stores the switch and sends; the second reads the switch as
`1` and is rejected. -/
theorem at_most_one_close_sends_rejected :
    Reachable 0 2 ⟨1, 1, [], [.sent, .rejected], .received⟩ ∧
      [ClosePc.sent, .rejected][0]? = some .sent ∧ ClosePc.sent.hasSent = true ∧ 0 = 0 := by
  have hs : Reachable 0 2 ⟨1, 1, [], [.sent, .rejected], .received⟩ :=
    ⟨[.closeLoad 0, .closeStore 0, .closeLoad 1, .closeSend 0], by decide⟩
  exact ⟨hs, rfl, rfl, @at_most_one_close_sends 0 2 _ hs 0 0 .sent .sent rfl rfl rfl rfl⟩

/-- Once the maintenance goroutine has received, a `Close` that stored the switch stays blocked on
its send in every continuation. -/
theorem close_send_blocked {s : State} {j : Nat} (hm : s.maintenance ≠ .waiting)
    (hj : s.closes[j]? = some .stored) :
    ∀ {acts : List Action} {s' : State}, run s acts = some s' → s'.closes[j]? = some .stored
  | [], _, h => by cases h; exact hj
  | a :: acts, s', h => by
    obtain ⟨s₁, h₁, h₂⟩ := Option.bind_eq_some.1 h
    have hm₁ : s₁.maintenance ≠ .waiting ∧ s₁.closes[j]? = some .stored := by
      cases a with
      | opLoad i | opAdd i | opBody i | opDone i =>
        obtain ⟨_, _, rfl⟩ := Option.map_eq_some'.1 h₁; exact ⟨hm, hj⟩
      | closeLoad i | closeStore i =>
        obtain ⟨_, hadv, rfl⟩ := Option.map_eq_some'.1 h₁
        exact ⟨hm, getElem?_advance_of_ne hadv hj nofun⟩
      | closeSend i => exact absurd (step_closeSend h₁).1 hm
      | closeWait i =>
        obtain ⟨-, _, hadv, rfl⟩ := step_closeWait h₁
        exact ⟨hm, getElem?_advance_of_ne hadv hj nofun⟩
      | maintenanceDone =>
        obtain ⟨-, rfl⟩ := step_maintenanceDone h₁
        exact ⟨nofun, hj⟩
    exact close_send_blocked hm₁.1 hm₁.2 h₂

/-- Two `Close` calls both read the switch as `0`, so both pass the check and store it; the first
sends, and from then on the second is blocked on its send whatever runs: it never returns. -/
theorem concurrent_closes_pass_check :
    run (init 0 2) [.closeLoad 0, .closeLoad 1, .closeStore 0, .closeStore 1] =
        some ⟨1, 1, [], [.stored, .stored], .waiting⟩ ∧
      run ⟨1, 1, [], [.stored, .stored], .waiting⟩ [.closeSend 0] =
        some ⟨1, 1, [], [.sent, .stored], .received⟩ ∧
      ∀ acts s', run ⟨1, 1, [], [.sent, .stored], .received⟩ acts = some s' →
        s'.closes[1]? = some .stored :=
  ⟨by decide, by decide, fun _ _ h => close_send_blocked (by decide) rfl h⟩

end Godx.StorageManager
