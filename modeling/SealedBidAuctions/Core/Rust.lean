import Mathlib.Data.List.Basic

/-!
Contract: the Rust standard-library behaviour that the crate's byte handling relies on.

Owns:
- `Fault`, the two ways a call can end without `Ok`: an `Err` value or a panic;
- `usize` subtraction with its underflow panic, `Vec::split_off`, `Vec::resize`,
  `slice::chunks`;
- `u64` addition and multiplication with their overflow panic.

Does not own: allocation or capacity, and `usize` overflow on addition and
multiplication. Lengths are natural numbers; the one subtraction that a real
input can underflow is checked.

Integer overflow is modelled as cargo's default profile for `build` and `test`
compiles it, with overflow checks on: the operation panics. A release build
wraps instead; each theorem that ends in such a panic says what the wrapped
value leads to.
-/

set_option autoImplicit false

namespace SealedBidAuctions.Rust

/-- The byte vectors and slices of the sources, `Vec<u8>` and `&[u8]`. -/
abbrev Bytes := List UInt8

/-- How a call ends when it does not return `Ok`. -/
inductive Fault (ε : Type) where
  /-- `Err(e)`, passed on by `?`. -/
  | error (e : ε)
  /-- A panic: a failed `assert!`, an underflowing `usize` subtraction, an
  index past the end. -/
  | panic
deriving DecidableEq, Repr

/-- A call that can panic but returns no `Result`, made inside a function that
returns one. -/
def Fault.lift {ε α : Type} : Option α → Except (Fault ε) α
  | some a => .ok a
  | none => .error .panic

@[simp] theorem Fault.lift_some {ε α : Type} (a : α) :
    (Fault.lift (some a) : Except (Fault ε) α) = .ok a := rfl

@[simp] theorem Fault.lift_none {ε α : Type} :
    (Fault.lift none : Except (Fault ε) α) = .error .panic := rfl

theorem Fault.lift_eq_ok {ε α : Type} {result : Option α} {a : α} :
    (Fault.lift result : Except (Fault ε) α) = .ok a ↔ result = some a := by
  cases result <;> simp [Fault.lift]

/-! ## `?` on `Result` -/

@[simp] theorem except_ok_bind {ε α β : Type} (a : α) (f : α → Except ε β) :
    (Except.ok a >>= f) = f a := rfl

@[simp] theorem except_error_bind {ε α β : Type} (e : ε) (f : α → Except ε β) :
    (Except.error e >>= f) = .error e := rfl

/-- A `?` chain returns `Ok` exactly when its first call does and the rest of the
chain does on that value. -/
theorem except_bind_eq_ok {ε α β : Type} {x : Except ε α} {f : α → Except ε β} {b : β} :
    x >>= f = .ok b ↔ ∃ a, x = .ok a ∧ f a = .ok b := by
  cases x with
  | error e => simp
  | ok a => simp

/-! ## `usize` and `Vec` -/

/-- `a - b` on `usize`; `none` is the "attempt to subtract with overflow" panic
of a build with overflow checks (the debug and test profiles). A release build
wraps to `a - b + 2^64` instead. -/
def usizeSub (a b : Nat) : Option Nat :=
  if b ≤ a then some (a - b) else none

/-- A `u64` result of `+` or `*`; `none` is the "attempt to add (multiply) with
overflow" panic of a build with overflow checks (the debug and test profiles).
A release build wraps to `value % 2^64` instead. -/
def u64Checked (value : Nat) : Option Nat :=
  if value < UInt64.size then some value else none

/-- `Vec::split_off(at)`: the vector keeps `[0, at)` and the call returns
`[at, len)`, here as the pair (kept, returned); `none` is the panic on
`at > len`. -/
def splitOff {α : Type} (v : List α) (mid : Nat) : Option (List α × List α) :=
  if mid ≤ v.length then some (v.take mid, v.drop mid) else none

/-- `Vec::resize(new_len, value)`: truncates, or extends with copies of `value`. -/
def resize {α : Type} (v : List α) (newLen : Nat) (value : α) : List α :=
  if newLen ≤ v.length then v.take newLen
  else v ++ List.replicate (newLen - v.length) value

/-- `slice::chunks(chunk_size)`: the slice cut into consecutive pieces of
`chunk_size` elements, the last one shorter when the length is not a multiple.
A zero `chunk_size` panics; the crate passes `4`. -/
def chunks {α : Type} (chunkSize : Nat) (positive : 0 < chunkSize) : List α → List (List α)
  | [] => []
  | x :: rest =>
      (x :: rest).take chunkSize :: chunks chunkSize positive ((x :: rest).drop chunkSize)
termination_by v => v.length
decreasing_by simp only [List.length_drop, List.length_cons]; omega

theorem usizeSub_of_le {a b : Nat} (le : b ≤ a) : usizeSub a b = some (a - b) :=
  if_pos le

theorem usizeSub_of_lt {a b : Nat} (lt : a < b) : usizeSub a b = none :=
  if_neg (Nat.not_le.mpr lt)

/-- On a vector `m ++ s`, cutting off the last `s.length` elements gives back
`m` and `s`. -/
theorem splitOff_append {α : Type} (m s : List α) :
    splitOff (m ++ s) ((m ++ s).length - s.length) = some (m, s) := by
  have prefixLength : (m ++ s).length - s.length = m.length := by simp
  rw [prefixLength, splitOff, if_pos (by simp), List.take_left' rfl, List.drop_left' rfl]

theorem resize_of_le {α : Type} {v : List α} {newLen : Nat} (value : α)
    (le : v.length ≤ newLen) :
    resize v newLen value = v ++ List.replicate (newLen - v.length) value := by
  unfold resize
  split
  · have equal : newLen = v.length := by omega
    simp [equal]
  · rfl

section Chunks

variable {α : Type} {chunkSize : Nat} (positive : 0 < chunkSize)

@[simp] theorem chunks_nil : chunks chunkSize positive ([] : List α) = [] := by
  rw [chunks]

/-- A full first piece is cut off as it is. -/
theorem chunks_append_of_length {first : List α} (width : first.length = chunkSize)
    (rest : List α) :
    chunks chunkSize positive (first ++ rest) = first :: chunks chunkSize positive rest := by
  obtain _ | ⟨x, first⟩ := first
  · rw [List.length_nil] at width
    omega
  · rw [List.cons_append, chunks, ← List.cons_append, List.take_left' width,
      List.drop_left' width]

/-- A non-empty slice no longer than `chunk_size` is one piece. -/
theorem chunks_of_length_le {v : List α} (nonempty : v ≠ []) (short : v.length ≤ chunkSize) :
    chunks chunkSize positive v = [v] := by
  obtain _ | ⟨x, rest⟩ := v
  · contradiction
  · rw [chunks, List.take_of_length_le short, List.drop_of_length_le short, chunks_nil]

/-- Cutting a slice of whole pieces, then the rest, is cutting the two apart. -/
theorem chunks_append_of_length_mul {full : List α} {count : Nat}
    (width : full.length = chunkSize * count) (rest : List α) :
    chunks chunkSize positive (full ++ rest) =
      chunks chunkSize positive full ++ chunks chunkSize positive rest := by
  induction count generalizing full with
  | zero =>
      obtain rfl : full = [] := List.eq_nil_of_length_eq_zero (by simpa using width)
      simp
  | succ count inductionHypothesis =>
      rw [Nat.mul_succ] at width
      have firstWidth : (full.take chunkSize).length = chunkSize := by
        rw [List.length_take]; omega
      rw [← List.take_append_drop chunkSize full, List.append_assoc,
        chunks_append_of_length positive firstWidth, chunks_append_of_length positive firstWidth,
        inductionHypothesis (by rw [List.length_drop]; omega), List.cons_append]

/-- A slice of `count` whole pieces is cut into exactly those pieces. -/
theorem chunks_of_length_mul {full : List α} {count : Nat}
    (width : full.length = chunkSize * count) :
    (chunks chunkSize positive full).length = count ∧
      ∀ piece ∈ chunks chunkSize positive full, piece.length = chunkSize := by
  induction count generalizing full with
  | zero =>
      obtain rfl : full = [] := List.eq_nil_of_length_eq_zero (by simpa using width)
      simp
  | succ count inductionHypothesis =>
      rw [Nat.mul_succ] at width
      have firstWidth : (full.take chunkSize).length = chunkSize := by
        rw [List.length_take]; omega
      obtain ⟨restCount, restPieces⟩ := @inductionHypothesis (full.drop chunkSize)
        (by rw [List.length_drop]; omega)
      rw [← List.take_append_drop chunkSize full, chunks_append_of_length positive firstWidth]
      refine ⟨by rw [List.length_cons, restCount], ?_⟩
      rintro piece (_ | ⟨_, member⟩)
      · exact firstWidth
      · exact restPieces piece member

end Chunks

end SealedBidAuctions.Rust
