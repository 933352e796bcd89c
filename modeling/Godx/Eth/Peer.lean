import Godx.Go

/-!
# The try-locks and waits of a storage peer

Package `eth`: a `peer` guards four kinds of work with a buffered `chan struct{}` each, used as a
try-lock. The try half (`HostConfigProcessing`, `HostContractProcessing`, `TryToRenewOrRevise`,
`TryRequestHostConfig`) sends into the channel in a `select` with a `default` branch; the done
half (`...Done`) receives from it the same way. No goroutine ever blocks on these channels, so
such a send happens exactly when the buffer has room, and such a receive exactly when it holds an
element: a channel is the number of elements it holds (`SignalChan`). The family is one try
(`tryLock`) and one done (`unlock`), and each method is one of them at its own results and error
text. The capacities are set where the peer is created, outside the source, so they are
parameters.

Goroutines share a try-lock as `defer p.HostConfigProcessingDone()` after a successful
`p.HostConfigProcessing()` does: a goroutine calls the done half only after its own try
succeeded. `LockState.step` is one goroutine's call, `none` when the call breaks that discipline;
`LockState.run` is an interleaving.

* `lockState_run`: in every interleaving the channel holds one element per goroutine holding the
  lock, a try fails exactly when capacity-many goroutines hold it, a done never reaches its
  `default` branch, and with a capacity of one at most one goroutine holds the lock.

The waits (`WaitConfigResp`, `ClientWaitContractResp`, `HostWaitContractResp`) select between a
message, a one-minute timeout and the peer's stop channel (`waitResp`); which case is ready first
is the scheduler's choice, a parameter.
-/

namespace Godx.Eth

/-! ## Channels used as try-locks -/

/-- A `chan struct{}` with a buffer of `cap` elements, by how many it holds; Go keeps that number
within the capacity. -/
structure SignalChan where
  cap : Nat
  len : Nat
  len_le : len ≤ cap

/-- `select { case ch <- struct{}{}: ... default: ... }`: whether the send happened, and the
channel after it. -/
def SignalChan.trySend (c : SignalChan) : Bool × SignalChan :=
  if h : c.len < c.cap then (true, ⟨c.cap, c.len + 1, h⟩) else (false, c)

/-- `select { case <-ch: ... default: ... }`: whether the receive happened, and the channel after
it. -/
def SignalChan.tryRecv (c : SignalChan) : Bool × SignalChan :=
  if 0 < c.len then (true, ⟨c.cap, c.len - 1, Nat.le_trans (Nat.sub_le _ _) c.len_le⟩)
  else (false, c)

/-- The try half of a try-lock: `acquired` when the send happens, `busy` in the `default`
branch. -/
def tryLock {α : Type} (acquired busy : α) (c : SignalChan) : α × SignalChan :=
  match c.trySend with
  | (true, c) => (acquired, c)
  | (false, c) => (busy, c)

/-- The done half of a try-lock: `released` when the receive happens, `early` in the `default`
branch. -/
def unlock {β : Type} (released early : β) (c : SignalChan) : β × SignalChan :=
  match c.tryRecv with
  | (true, c) => (released, c)
  | (false, c) => (early, c)

/-- `p.HostConfigProcessing()` on the channel `p.hostConfigProcessing`. -/
def hostConfigProcessing (c : SignalChan) : Except String Unit × SignalChan :=
  tryLock (.ok ())
    (.error "host config request is currently processing, please wait until it finished first") c

/-- `p.HostConfigProcessingDone()`: the warning it logs in the `default` branch. -/
def hostConfigProcessingDone (c : SignalChan) : Option String × SignalChan :=
  unlock none (some "host config processing finished before it is actually done") c

/-- `p.HostContractProcessing()` on the channel `p.hostContractProcessing`. -/
def hostContractProcessing (c : SignalChan) : Except String Unit × SignalChan :=
  tryLock (.ok ())
    (.error ("host contract related operation is currently processing, please wait until it " ++
      "finished first")) c

/-- `p.HostContractProcessingDone()`: the warning it logs in the `default` branch. -/
def hostContractProcessingDone (c : SignalChan) : Option String × SignalChan :=
  unlock none (some "host contract processing finished before it is actually done") c

/-- `p.TryToRenewOrRevise()` on the channel `p.contractRevisingOrRenewing`. -/
def tryToRenewOrRevise (c : SignalChan) : Bool × SignalChan :=
  tryLock true false c

/-- `p.RevisionOrRenewingDone()`. -/
def revisionOrRenewingDone (c : SignalChan) : SignalChan :=
  (unlock () () c).2

/-- `p.TryRequestHostConfig()` on the channel `p.hostConfigRequesting`, with the text of
`storage.ErrRequestingHostConfig`. -/
def tryRequestHostConfig (errRequestingHostConfig : String) (c : SignalChan) :
    Except String Unit × SignalChan :=
  tryLock (.ok ()) (.error errRequestingHostConfig) c

/-- `p.RequestHostConfigDone()`. -/
def requestHostConfigDone (c : SignalChan) : SignalChan :=
  (unlock () () c).2

/-! ## Waits -/

/-- The case of a wait's `select` that is ready first: a message on the wait's channel, the
`time.After(1 * time.Minute)`, or `p.StopChan()`. -/
inductive WaitReady (Msg : Type)
  | msg (m : Msg)
  | timeout
  | stop

/-- A wait for a response, with its timeout error and the text of
`coinchargemaintenance.ErrProgramExit`. -/
def waitResp {Msg : Type} (timeoutErr errProgramExit : String) : WaitReady Msg → Except String Msg
  | .msg m => .ok m
  | .timeout => .error timeoutErr
  | .stop => .error errProgramExit

/-- `p.WaitConfigResp()`. -/
def waitConfigResp {Msg : Type} (errProgramExit : String) : WaitReady Msg → Except String Msg :=
  waitResp "timeout -> client waits too long for config response from the host" errProgramExit

/-- `p.ClientWaitContractResp()`. -/
def clientWaitContractResp {Msg : Type} (errProgramExit : String) :
    WaitReady Msg → Except String Msg :=
  waitResp "timeout -> client waits too long for contract response from the host" errProgramExit

/-- `p.HostWaitContractResp()`: its timeout text names the host as the party it waits for. -/
def hostWaitContractResp {Msg : Type} (errProgramExit : String) :
    WaitReady Msg → Except String Msg :=
  waitResp "timeout -> host waits too long for contract response from the host" errProgramExit

/-! ## Goroutines sharing a try-lock -/

/-- Where a goroutine using a try-lock is. -/
inductive LockPc
  /-- not holding the lock: before its try, after a failed try, or after its done -/
  | idle
  /-- its try succeeded and its done has not run -/
  | holding
  deriving DecidableEq, Repr

/-- A goroutine holding the lock. -/
def LockPc.holds : LockPc → Bool
  | .holding => true
  | .idle => false

/-- The channel of a try-lock, and where each goroutine sharing it is. -/
structure LockState where
  ch : SignalChan
  goroutines : List LockPc

/-- `k` goroutines and a fresh channel of capacity `cap`. -/
def LockState.init (k cap : Nat) : LockState :=
  ⟨⟨cap, 0, Nat.zero_le _⟩, List.replicate k .idle⟩

/-- A goroutine's call on the try-lock: its try half, or its done half. -/
inductive LockCall
  | acquire (g : Nat)
  | release (g : Nat)
  deriving DecidableEq, Repr

/-- The call `a`, `none` when it breaks the discipline: a try by a goroutine that holds the lock,
a done by one that does not. -/
def LockState.step (s : LockState) : LockCall → Option LockState
  | .acquire g =>
    let r := tryLock true false s.ch
    (advance s.goroutines g .idle (if r.1 then .holding else .idle)).map fun goroutines =>
      ⟨r.2, goroutines⟩
  | .release g =>
    (advance s.goroutines g .holding .idle).map fun goroutines => ⟨(unlock () () s.ch).2, goroutines⟩

/-- The state after the calls `calls`, `none` if one of them breaks the discipline. -/
def LockState.run (s : LockState) : List LockCall → Option LockState
  | [] => some s
  | a :: calls => (s.step a).bind fun s' => s'.run calls

/-! ## The two halves -/

section Halves

variable {α : Type} {a b : α} {c : SignalChan}

@[simp] theorem tryLock_fst : (tryLock a b c).1 = if c.len < c.cap then a else b := by
  by_cases h : c.len < c.cap <;> simp [tryLock, SignalChan.trySend, h]

@[simp] theorem tryLock_len :
    (tryLock a b c).2.len = if c.len < c.cap then c.len + 1 else c.len := by
  by_cases h : c.len < c.cap <;> simp [tryLock, SignalChan.trySend, h]

@[simp] theorem tryLock_cap : (tryLock a b c).2.cap = c.cap := by
  by_cases h : c.len < c.cap <;> simp [tryLock, SignalChan.trySend, h]

@[simp] theorem unlock_fst : (unlock a b c).1 = if 0 < c.len then a else b := by
  by_cases h : 0 < c.len <;> simp [unlock, SignalChan.tryRecv, h]

/-- A done takes one element, or finds none and leaves the channel empty. -/
@[simp] theorem unlock_len : (unlock a b c).2.len = c.len - 1 := by
  by_cases h : 0 < c.len <;> simp [unlock, SignalChan.tryRecv, h]; omega

@[simp] theorem unlock_cap : (unlock a b c).2.cap = c.cap := by
  by_cases h : 0 < c.len <;> simp [unlock, SignalChan.tryRecv, h]

end Halves

/-! ## The holders invariant -/

/-- The channel keeps its capacity and holds one element per goroutine holding the lock. -/
structure LockInv (cap : Nat) (s : LockState) : Prop where
  cap_eq : s.ch.cap = cap
  len_eq : s.ch.len = s.goroutines.countP LockPc.holds

theorem LockState.init_inv (k cap : Nat) : LockInv cap (LockState.init k cap) :=
  ⟨rfl, by simp [LockState.init, LockPc.holds, List.countP_replicate]⟩

theorem LockState.step_inv {cap : Nat} {s s' : LockState} {a : LockCall} (hs : LockInv cap s)
    (h : s.step a = some s') : LockInv cap s' := by
  obtain ⟨hcap, hlen⟩ := hs
  cases a with
  | acquire g =>
    obtain ⟨gs, hadv, rfl⟩ := Option.map_eq_some'.1 h
    have hcount := countP_advance LockPc.holds hadv
    refine ⟨by simp only [tryLock_cap, hcap], ?_⟩
    by_cases hc : s.ch.len < s.ch.cap <;> simp [hc, LockPc.holds] at hcount ⊢ <;> omega
  | release g =>
    obtain ⟨gs, hadv, rfl⟩ := Option.map_eq_some'.1 h
    have hcount := countP_advance LockPc.holds hadv
    simp only [LockPc.holds, if_true, Bool.false_eq_true, if_false] at hcount
    exact ⟨by simp only [unlock_cap, hcap], by simp only [unlock_len]; omega⟩

theorem LockState.run_inv {cap : Nat} {s : LockState} (hs : LockInv cap s) :
    ∀ {calls : List LockCall} {s' : LockState}, s.run calls = some s' → LockInv cap s'
  | [], _, h => by cases h; exact hs
  | a :: calls, s', h => by
    obtain ⟨s₁, h₁, h₂⟩ := Option.bind_eq_some.1 h
    exact LockState.run_inv (LockState.step_inv hs h₁) h₂

/-! ## Every interleaving -/

/-- **A try-lock of a peer across goroutines.** In every interleaving of goroutines that call the
done half only after their own try succeeded, the channel holds one element per goroutine holding
the lock, so at most its capacity hold it. A try fails exactly when that many hold it; a done
never reaches its `default` branch (so `HostConfigProcessingDone` and
`HostContractProcessingDone` log no warning); and with a capacity of one, at most one goroutine
holds the lock. -/
theorem lockState_run {k cap : Nat} {calls : List LockCall} {s : LockState}
    (h : (LockState.init k cap).run calls = some s) :
    s.ch.len = s.goroutines.countP LockPc.holds ∧ s.goroutines.countP LockPc.holds ≤ cap ∧
    (∀ {α : Type} (acquired busy : α), acquired ≠ busy →
      ((tryLock acquired busy s.ch).1 = busy ↔ s.goroutines.countP LockPc.holds = cap)) ∧
    (∀ {β : Type} (released early : β) (g : Nat), s.goroutines[g]? = some .holding →
      (unlock released early s.ch).1 = released) ∧
    (cap = 1 → ∀ g g' : Nat, s.goroutines[g]? = some .holding → s.goroutines[g']? = some .holding →
      g = g') := by
  obtain ⟨hcap, hlen⟩ := LockState.run_inv (LockState.init_inv k cap) h
  have hle := s.ch.len_le
  refine ⟨hlen, by omega, fun acquired busy hne => ?_, fun released early g hg => ?_,
    fun h1 g g' hg hg' => ?_⟩
  · by_cases hc : s.ch.len < s.ch.cap
    · simp only [tryLock_fst, if_pos hc, hne, false_iff]
      omega
    · simp only [tryLock_fst, if_neg hc, true_iff]
      omega
  · have hpos : 0 < s.goroutines.countP LockPc.holds :=
      List.countP_pos_iff.2 ⟨.holding, List.getElem?_mem hg, rfl⟩
    rw [unlock_fst, if_pos (by omega)]
  · by_contra hne
    have holds : LockPc.holds .holding = true := rfl
    rcases Nat.lt_or_gt_of_ne hne with hlt | hlt
    · have := two_le_countP hlt hg hg' holds holds
      omega
    · have := two_le_countP hlt hg' hg holds holds
      omega

/-- Two goroutines share a host-config lock of one element: goroutine `0` takes it, goroutine
`1`'s try fails, goroutine `0` is done and goroutine `1`'s second try takes it; a further try
then fails. -/
theorem lockState_run_handover :
    let s : LockState := ⟨⟨1, 1, le_refl 1⟩, [.idle, .holding]⟩
    (LockState.init 2 1).run [.acquire 0, .acquire 1, .release 0, .acquire 1] = some s ∧
      (hostConfigProcessing s.ch).1 =
        .error "host config request is currently processing, please wait until it finished first" := by
  intro s
  have h : (LockState.init 2 1).run [.acquire 0, .acquire 1, .release 0, .acquire 1] = some s := rfl
  exact ⟨h, ((lockState_run h).2.2.1 _ _ fun he => by cases he).2 rfl⟩

end Godx.Eth
