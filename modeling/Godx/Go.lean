import Mathlib.Data.List.Basic

/-!
# Go run-time pieces shared by the models

`U64` is Go's `uint64` as `BitVec 64`: `+ - *` wrap modulo `2 ^ 64`, and `x <<< s` is `0` once
`s ≥ 64`, as Go's shift of an unsigned operand is. A Go function that returns an `error`, or
that can reach a run-time panic, is modelled in `Except GoError`: `.err msg` is the `error` it
returns (by its text), `.panic f` a run-time panic. Go's `err != nil { return err }` is the
monad's bind. The interleaving models of the storage manager and of the peer's try-locks share
`advance`: one goroutine's step in a list of program counters.
-/

namespace Godx

/-- Go's `uint64`. -/
abbrev U64 := BitVec 64

/-- A Go `[]byte` (a `nil` slice is `[]`). -/
abbrev Bytes := List UInt8

/-- The panics the modelled code can reach. -/
inductive Fault
  | integerDivideByZero
  | indexOutOfRange
  | sliceBoundsOutOfRange
  /-- a failed type assertion `x.(T)` -/
  | typeAssertion
  /-- a `panic(msg)` call with a string -/
  | explicit (msg : String)
  deriving DecidableEq, Repr

/-- What a Go call ends with when it does not return normally. -/
inductive GoError
  | err (msg : String)
  | panic (f : Fault)
  deriving DecidableEq, Repr

instance exceptDecidableEq {ε α : Type} [DecidableEq ε] [DecidableEq α] :
    DecidableEq (Except ε α)
  | .ok a, .ok b => if h : a = b then isTrue (h ▸ rfl) else isFalse fun e => by cases e; exact h rfl
  | .error a, .error b =>
    if h : a = b then isTrue (h ▸ rfl) else isFalse fun e => by cases e; exact h rfl
  | .ok _, .error _ => isFalse nofun
  | .error _, .ok _ => isFalse nofun

/-- An `error` returned by a callee, passed on. -/
def liftErr {α : Type} (e : Except String α) : Except GoError α := e.mapError .err

/-- Go's `a / b` on `uint64`: a zero divisor panics. -/
def goDiv (a b : U64) : Except GoError U64 :=
  if b = 0 then .error (.panic .integerDivideByZero) else .ok (a / b)

/-- Go's `a % b` on `uint64`: a zero divisor panics. -/
def goMod (a b : U64) : Except GoError U64 :=
  if b = 0 then .error (.panic .integerDivideByZero) else .ok (a % b)

/-- Go's `a[:hi]` on an array or slice of capacity `a.length`. -/
def goSlice (a : Bytes) (hi : U64) : Except GoError Bytes :=
  if hi.toNat ≤ a.length then .ok (a.take hi.toNat) else .error (.panic .sliceBoundsOutOfRange)

/-- Go's index expression `a[i]`. -/
def goGet {α : Type} (a : List α) (i : Nat) : Except GoError α :=
  match a[i]? with
  | some v => .ok v
  | none => .error (.panic .indexOutOfRange)

/-- Go's assignment `a[i] = v`. -/
def goSet {α : Type} (a : List α) (i : Nat) (v : α) : Except GoError (List α) :=
  if i < a.length then .ok (a.set i v) else .error (.panic .indexOutOfRange)

/-- Go's guard clause `if cond { return err }`, for the error with text `msg`. -/
def returnIf (cond : Prop) [Decidable cond] (msg : String) : Except GoError Unit :=
  if cond then .error (.err msg) else .ok ()

/-- The call did not panic. -/
def NoPanic {α : Type} (r : Except GoError α) : Prop := ∀ f, r ≠ .error (.panic f)

@[simp] theorem liftErr_ok {α : Type} (a : α) : liftErr (.ok a) = .ok a := rfl

@[simp] theorem liftErr_error {α : Type} (s : String) :
    liftErr (.error s : Except String α) = .error (.err s) := rfl

theorem bind_eq_ok {ε α β : Type} {x : Except ε α} {f : α → Except ε β} {b : β} :
    x >>= f = .ok b ↔ ∃ a, x = .ok a ∧ f a = .ok b := by
  cases x <;> simp [bind, Except.bind]

theorem liftErr_eq_ok {α : Type} {e : Except String α} {a : α} : liftErr e = .ok a ↔ e = .ok a := by
  cases e <;> simp [liftErr, Except.mapError]

theorem exists_eq_ok_unit {ε : Type} {x : Except ε Unit} : (∃ u, x = .ok u) ↔ x = .ok () :=
  ⟨fun ⟨(), h⟩ => h, fun h => ⟨(), h⟩⟩

theorem returnIf_of_neg {cond : Prop} [Decidable cond] {msg : String} (h : ¬ cond) :
    returnIf cond msg = .ok () := if_neg h

theorem returnIf_of_pos {cond : Prop} [Decidable cond] {msg : String} (h : cond) :
    returnIf cond msg = .error (.err msg) := if_pos h

@[simp] theorem returnIf_eq_ok {cond : Prop} [Decidable cond] {msg : String} {u : Unit} :
    returnIf cond msg = .ok u ↔ ¬ cond := by
  unfold returnIf; split <;> simp_all

theorem goDiv_of_ne {a b : U64} (h : b ≠ 0) : goDiv a b = .ok (a / b) := if_neg h

theorem goMod_of_ne {a b : U64} (h : b ≠ 0) : goMod a b = .ok (a % b) := if_neg h

/-- A nonzero divisor is positive as a number. -/
theorem toNat_pos_of_ne {b : U64} (h : b ≠ 0) : 0 < b.toNat :=
  Nat.pos_of_ne_zero fun he => h (BitVec.eq_of_toNat_eq he)

theorem goSlice_of_le {a : Bytes} {hi : U64} (h : hi.toNat ≤ a.length) :
    goSlice a hi = .ok (a.take hi.toNat) := if_pos h

theorem goGet_of_lt {α : Type} {a : List α} {i : Nat} (h : i < a.length) :
    goGet a i = .ok (a.get ⟨i, h⟩) := by
  simp [goGet, List.getElem?_eq_getElem h]

theorem goSet_of_lt {α : Type} {a : List α} {i : Nat} (v : α) (h : i < a.length) :
    goSet a i v = .ok (a.set i v) := if_pos h

theorem noPanic_ok {α : Type} (a : α) : NoPanic (.ok a : Except GoError α) := nofun

theorem noPanic_err {α : Type} (s : String) : NoPanic (.error (.err s) : Except GoError α) :=
  fun _ h => by cases h

theorem noPanic_liftErr {α : Type} (e : Except String α) : NoPanic (liftErr e) := by
  cases e
  · exact noPanic_err _
  · exact noPanic_ok _

theorem noPanic_returnIf (cond : Prop) [Decidable cond] (msg : String) :
    NoPanic (returnIf cond msg) := by
  unfold returnIf; split
  · exact noPanic_err _
  · exact noPanic_ok _

theorem NoPanic.bind {α β : Type} {x : Except GoError α} {f : α → Except GoError β}
    (hx : NoPanic x) (hf : ∀ a, x = .ok a → NoPanic (f a)) : NoPanic (x >>= f) := by
  cases x with
  | error e => exact fun g h => hx g (by cases h; rfl)
  | ok a => exact hf a rfl

/-- A loop over `l` (a Go `for` loop as a `foldlM`) whose every iteration keeps `P` without
panicking runs to completion and ends in `P`. -/
theorem foldlM_ok {α : Type} (P : α → Prop) {f : α → Nat → Except GoError α} {l : List Nat}
    (hstep : ∀ a i, i ∈ l → P a → ∃ b, f a i = .ok b ∧ P b) :
    ∀ a, P a → ∃ b, l.foldlM f a = .ok b ∧ P b := by
  induction l with
  | nil => exact fun a ha => ⟨a, rfl, ha⟩
  | cons i l ih =>
    intro a ha
    obtain ⟨b, hb, hPb⟩ := hstep a i (List.mem_cons_self i l) ha
    obtain ⟨c, hc, hPc⟩ := ih (fun a j hj => hstep a j (List.mem_cons_of_mem i hj)) b hPb
    exact ⟨c, by rw [List.foldlM_cons, hb]; exact hc, hPc⟩

/-- A loop over `l` whose every iteration that does not panic keeps `P` ends, when it does not
panic, in `P`. -/
theorem foldlM_inv {α : Type} (P : α → Prop) {f : α → Nat → Except GoError α} {l : List Nat}
    (hstep : ∀ a i b, i ∈ l → P a → f a i = .ok b → P b) :
    ∀ a b, P a → l.foldlM f a = .ok b → P b := by
  induction l with
  | nil => intro a b ha h; cases h; exact ha
  | cons i l ih =>
    intro a c ha h
    rw [List.foldlM_cons] at h
    obtain ⟨b, hb, hc⟩ := bind_eq_ok.1 h
    exact ih (fun a j b hj => hstep a j b (List.mem_cons_of_mem i hj)) b c
      (hstep a i b (List.mem_cons_self i l) ha hb) hc

/-- The last iteration of a loop over `0, ..., n`. -/
theorem foldlM_range_succ {α : Type} (f : α → Nat → Except GoError α) (n : Nat) (a : α) :
    (List.range (n + 1)).foldlM f a = (List.range n).foldlM f a >>= fun b => f b n := by
  rw [List.range_succ, List.foldlM_append]
  simp only [List.foldlM_cons, List.foldlM_nil, bind_pure]

/-- How `a[i] = b` changes a count, `a[i]` being `a`. -/
theorem countP_set {α : Type} (f : α → Bool) :
    ∀ (l : List α) (i : Nat) (a b : α), l[i]? = some a →
      (l.set i b).countP f + (if f a then 1 else 0) = l.countP f + (if f b then 1 else 0)
  | [], _, _, _, h => by simp at h
  | x :: l, 0, a, b, h => by
    obtain rfl : x = a := by simpa using h
    simp only [List.set_cons_zero, List.countP_cons]; omega
  | x :: l, i + 1, a, b, h => by
    have := countP_set f l i a b (by simpa using h)
    simp only [List.set_cons_succ, List.countP_cons]; omega

/-! ## Threads as a list of program counters

The interleaving models keep one program counter per goroutine in a list; a step of goroutine `i`
moves it from one counter to the next. -/

/-- Thread `i` moves from `pc` to `pc'`; `none` when it is not at `pc`. -/
def advance {α : Type} [DecidableEq α] (threads : List α) (i : Nat) (pc pc' : α) :
    Option (List α) :=
  if threads[i]? = some pc then some (threads.set i pc') else none

theorem advance_eq_some {α : Type} [DecidableEq α] {l l' : List α} {i : Nat} {a b : α}
    (h : advance l i a b = some l') : l[i]? = some a ∧ l' = l.set i b := by
  unfold advance at h
  split at h
  · exact ⟨‹_›, (Option.some.inj h).symm⟩
  · cases h

theorem countP_advance {α : Type} [DecidableEq α] (f : α → Bool) {l l' : List α} {i : Nat}
    {a b : α} (h : advance l i a b = some l') :
    l'.countP f + (if f a then 1 else 0) = l.countP f + (if f b then 1 else 0) := by
  obtain ⟨hi, rfl⟩ := advance_eq_some h
  exact countP_set f l i a b hi

/-- Two goroutines whose counters `f` counts make the count at least two. -/
theorem two_le_countP {α : Type} {f : α → Bool} :
    ∀ {l : List α} {j k : Nat} {a b : α}, j < k → l[j]? = some a → l[k]? = some b →
      f a = true → f b = true → 2 ≤ l.countP f
  | x :: l, 0, k + 1, a, b, _, hj, hk, ha, hb => by
    obtain rfl : x = a := by simpa using hj
    have := List.countP_pos_iff.2 ⟨b, List.getElem?_mem (show l[k]? = some b by simpa using hk), hb⟩
    simp only [List.countP_cons, ha, ↓reduceIte]; omega
  | x :: l, j + 1, k + 1, a, b, hjk, hj, hk, ha, hb => by
    have := @two_le_countP α f l j k a b (by omega) (by simpa using hj) (by simpa using hk) ha hb
    simp only [List.countP_cons]; omega

/-- A step of goroutine `i` leaves a goroutine at another counter where it is. -/
theorem getElem?_advance_of_ne {α : Type} [DecidableEq α] {l l' : List α} {i j : Nat}
    {a b c : α} (h : advance l i a b = some l') (hj : l[j]? = some c) (hc : c ≠ a) :
    l'[j]? = some c := by
  obtain ⟨hi, rfl⟩ := advance_eq_some h
  have hij : i ≠ j := by rintro rfl; exact hc (Option.some.inj (hj.symm.trans hi))
  rw [List.getElem?_set_ne hij, hj]

end Godx
