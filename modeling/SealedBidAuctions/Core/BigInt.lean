import SealedBidAuctions.Core.Rust
import Mathlib.Data.Nat.Digits

/-!
Contract: the integer and byte conversions of `num-bigint` and arkworks that
the crate calls.

Owns:
- `BigInt::from_bytes_le`, `BigInt::to_bytes_be`, `BigInt::to_u64_digits` and
  `BigInt::modpow` as the crate uses them (a plus sign, a non-negative exponent,
  a positive modulus);
- arkworks' `BigInteger` of `NUM_LIMBS` limbs and its `to_bytes_le`;
- the round trips between these encodings and the numbers they stand for.

Does not own: the limb-level algorithms of either library. Each conversion is
stated by the value it computes.
-/

set_option autoImplicit false

namespace SealedBidAuctions.BigInt

open SealedBidAuctions.Rust

/-- `num_bigint::Sign`. -/
inductive Sign where
  | Minus
  | NoSign
  | Plus
deriving DecidableEq, Repr

/-! ## Little-endian bytes -/

/-- The natural number with the given little-endian bytes (`BigUint::from_bytes_le`). -/
def ofBytesLe : Bytes → Nat
  | [] => 0
  | byte :: rest => byte.toNat + 256 * ofBytesLe rest

/-- The natural number with the given big-endian bytes. -/
def ofBytesBe (bytes : Bytes) : Nat := ofBytesLe bytes.reverse

/-- The `width` low little-endian bytes of `n`. -/
def toBytesLeFixed : Nat → Nat → Bytes
  | 0, _ => []
  | width + 1, n => UInt8.ofNat (n % 256) :: toBytesLeFixed width (n / 256)

@[simp] theorem ofBytesLe_nil : ofBytesLe [] = 0 := rfl

@[simp] theorem ofBytesLe_cons (byte : UInt8) (rest : Bytes) :
    ofBytesLe (byte :: rest) = byte.toNat + 256 * ofBytesLe rest := rfl

theorem ofBytesLe_append (front back : Bytes) :
    ofBytesLe (front ++ back) = ofBytesLe front + 256 ^ front.length * ofBytesLe back := by
  induction front with
  | nil => simp
  | cons byte rest inductionHypothesis =>
      rw [List.cons_append, ofBytesLe_cons, ofBytesLe_cons, inductionHypothesis,
        List.length_cons, pow_succ]
      ring

@[simp] theorem ofBytesLe_replicate_zero (count : Nat) :
    ofBytesLe (List.replicate count 0) = 0 := by
  induction count with
  | zero => rfl
  | succ count inductionHypothesis =>
      rw [List.replicate_succ, ofBytesLe_cons, inductionHypothesis]
      rfl

@[simp] theorem length_toBytesLeFixed (width n : Nat) :
    (toBytesLeFixed width n).length = width := by
  induction width generalizing n with
  | zero => rfl
  | succ width inductionHypothesis => simp [toBytesLeFixed, inductionHypothesis]

theorem toNat_ofNat_mod_256 (n : Nat) : (UInt8.ofNat (n % 256)).toNat = n % 256 :=
  UInt8.toNat_ofNat_of_lt (Nat.mod_lt n (by decide))

theorem ofBytesLe_toBytesLeFixed (width n : Nat) :
    ofBytesLe (toBytesLeFixed width n) = n % 256 ^ width := by
  induction width generalizing n with
  | zero => simp [toBytesLeFixed, Nat.mod_one]
  | succ width inductionHypothesis =>
      rw [toBytesLeFixed, ofBytesLe_cons, inductionHypothesis, toNat_ofNat_mod_256,
        pow_succ', Nat.mod_mul]

/-! ## `BigInt` -/

/-- `BigInt::from_bytes_le(sign, bytes)`: the magnitude read little-endian, then
signed; `NoSign` gives zero, as `BigInt::from_biguint` does. -/
def fromBytesLe (sign : Sign) (bytes : Bytes) : Int :=
  match sign with
  | .Minus => -(ofBytesLe bytes : Int)
  | .NoSign => 0
  | .Plus => ofBytesLe bytes

/-- `BigUint::to_bytes_le`: the minimal little-endian bytes of `n`, and `[0]`
for zero. -/
def magnitudeBytesLe (n : Nat) : Bytes :=
  if n = 0 then [0] else (Nat.digits 256 n).map UInt8.ofNat

/-- `BigInt::sign`. -/
def sign (n : Int) : Sign :=
  if n < 0 then .Minus else if n = 0 then .NoSign else .Plus

/-- `BigInt::is_negative`. -/
def isNegative (n : Int) : Bool := sign n == .Minus

/-- `BigInt::to_bytes_be`: the sign and the minimal big-endian bytes of the
magnitude. -/
def toBytesBe (n : Int) : Sign × Bytes :=
  (sign n, (magnitudeBytesLe n.natAbs).reverse)

/-- `BigInt::to_u64_digits`: the sign and the minimal little-endian 64-bit
limbs of the magnitude, none for zero. -/
def toU64Digits (n : Int) : Sign × List UInt64 :=
  (sign n, (Nat.digits (2 ^ 64) n.natAbs).map UInt64.ofNat)

/-- `BigInt::modpow(exponent, modulus)` for a non-negative exponent. For a
positive modulus num-bigint reduces into `[0, modulus)`, as `mod_floor` does,
which is Lean's `%` on `Int`. -/
def modpow (base : Int) (exponent : Nat) (modulus : Int) : Int :=
  base ^ exponent % modulus

@[simp] theorem fromBytesLe_plus (bytes : Bytes) :
    fromBytesLe .Plus bytes = (ofBytesLe bytes : Int) := rfl

theorem ofBytesLe_map_ofNat (digits : List Nat) (small : ∀ digit ∈ digits, digit < 256) :
    ofBytesLe (digits.map UInt8.ofNat) = Nat.ofDigits 256 digits := by
  induction digits with
  | nil => rfl
  | cons digit rest inductionHypothesis =>
      rw [List.map_cons, ofBytesLe_cons, Nat.ofDigits_cons,
        UInt8.toNat_ofNat_of_lt (small digit (List.mem_cons_self _ _)),
        inductionHypothesis fun other member => small other (List.mem_cons_of_mem _ member)]

theorem ofBytesLe_magnitudeBytesLe (n : Nat) : ofBytesLe (magnitudeBytesLe n) = n := by
  unfold magnitudeBytesLe
  split
  · simp_all
  · rw [ofBytesLe_map_ofNat _ fun _ member => Nat.digits_lt_base (by decide) member,
      Nat.ofDigits_digits]

theorem length_magnitudeBytesLe_pos (n : Nat) : 0 < (magnitudeBytesLe n).length := by
  unfold magnitudeBytesLe
  split
  · simp
  · rename_i nonzero
    simp [List.length_pos, Nat.digits_ne_nil_iff_ne_zero, nonzero]

/-- **The big-endian magnitude reads back as `|n|`.** -/
theorem ofBytesBe_toBytesBe (n : Int) : ofBytesBe (toBytesBe n).2 = n.natAbs := by
  simp [toBytesBe, ofBytesBe, ofBytesLe_magnitudeBytesLe]

theorem length_toBytesBe_pos (n : Int) : 0 < (toBytesBe n).2.length := by
  rw [toBytesBe, List.length_reverse]
  exact length_magnitudeBytesLe_pos _

theorem isNegative_eq_decide (n : Int) : isNegative n = decide (n < 0) := by
  unfold isNegative sign
  by_cases negative : n < 0
  · rw [if_pos negative, decide_eq_true negative]
    rfl
  · rw [if_neg negative, decide_eq_false negative]
    split <;> rfl

/-- Leading zero bytes do not change a big-endian value. -/
theorem ofBytesBe_replicate_zero_append (count : Nat) (bytes : Bytes) :
    ofBytesBe (List.replicate count 0 ++ bytes) = ofBytesBe bytes := by
  rw [ofBytesBe, List.reverse_append, List.reverse_replicate, ofBytesLe_append,
    ofBytesLe_replicate_zero, mul_zero, add_zero, ofBytesBe]

/-! ## 64-bit limbs -/

theorem length_toU64Digits (n : Int) :
    (toU64Digits n).2.length = (Nat.digits (2 ^ 64) n.natAbs).length := by
  rw [toU64Digits, List.length_map]

/-- **The limbs read back as `|n|`.** -/
theorem ofDigits_toU64Digits (n : Int) :
    Nat.ofDigits (2 ^ 64) ((toU64Digits n).2.map UInt64.toNat) = n.natAbs := by
  have small : ∀ digit ∈ Nat.digits (2 ^ 64) n.natAbs,
      (UInt64.toNat ∘ UInt64.ofNat) digit = digit :=
    fun _ member => UInt64.toNat_ofNat_of_lt (Nat.digits_lt_base (by norm_num) member)
  rw [toU64Digits, List.map_map, List.map_congr_left small, List.map_id', Nat.ofDigits_digits]

/-- A non-zero `n` has `count + 1` limbs exactly when
`2^(64·count) ≤ |n| < 2^(64·(count + 1))`. -/
theorem length_toU64Digits_eq_iff {n : Int} (nonzero : n ≠ 0) (count : Nat) :
    (toU64Digits n).2.length = count + 1 ↔
      2 ^ (64 * count) ≤ n.natAbs ∧ n.natAbs < 2 ^ (64 * (count + 1)) := by
  rw [length_toU64Digits, Nat.digits_len _ _ (by norm_num) (Int.natAbs_ne_zero.mpr nonzero),
    Nat.add_right_cancel_iff, Nat.log_eq_iff (Or.inr ⟨by norm_num, Int.natAbs_ne_zero.mpr nonzero⟩),
    pow_mul, pow_mul]

/-! ## arkworks `BigInteger` -/

/-- An arkworks `BigInteger` of `NUM_LIMBS` 64-bit limbs, least significant
first. -/
structure BigInteger (NUM_LIMBS : Nat) where
  limbs : List UInt64
  length_limbs : limbs.length = NUM_LIMBS

/-- The natural number with the given little-endian 64-bit limbs. -/
def ofLimbsLe : List UInt64 → Nat
  | [] => 0
  | limb :: rest => limb.toNat + 2 ^ 64 * ofLimbsLe rest

/-- The number a `BigInteger` stands for. -/
def BigInteger.value {NUM_LIMBS : Nat} (b : BigInteger NUM_LIMBS) : Nat := ofLimbsLe b.limbs

/-- `BigInteger::to_bytes_le`: the eight little-endian bytes of each limb,
least significant limb first. -/
def BigInteger.toBytesLe {NUM_LIMBS : Nat} (b : BigInteger NUM_LIMBS) : Bytes :=
  b.limbs.flatMap fun limb => toBytesLeFixed 8 limb.toNat

theorem length_flatMap_limbs (limbs : List UInt64) :
    (limbs.flatMap fun limb => toBytesLeFixed 8 limb.toNat).length = limbs.length * 8 := by
  induction limbs with
  | nil => rfl
  | cons limb rest inductionHypothesis =>
      rw [List.flatMap_cons, List.length_append, inductionHypothesis, length_toBytesLeFixed,
        List.length_cons]
      ring

theorem ofBytesLe_flatMap_limbs (limbs : List UInt64) :
    ofBytesLe (limbs.flatMap fun limb => toBytesLeFixed 8 limb.toNat) = ofLimbsLe limbs := by
  induction limbs with
  | nil => rfl
  | cons limb rest inductionHypothesis =>
      have limbBelow : limb.toNat < 256 ^ 8 := limb.toBitVec.isLt
      rw [List.flatMap_cons, ofBytesLe_append, inductionHypothesis, ofBytesLe_toBytesLeFixed,
        length_toBytesLeFixed, Nat.mod_eq_of_lt limbBelow, ofLimbsLe]
      norm_num

/-- **The serialised width.** `to_bytes_le` always yields `NUM_LIMBS * 8` bytes. -/
@[simp] theorem BigInteger.length_toBytesLe {NUM_LIMBS : Nat} (b : BigInteger NUM_LIMBS) :
    b.toBytesLe.length = NUM_LIMBS * 8 := by
  rw [BigInteger.toBytesLe, length_flatMap_limbs, b.length_limbs]

/-- **Reading the bytes back.** `from_bytes_le` inverts `to_bytes_le`. -/
theorem BigInteger.ofBytesLe_toBytesLe {NUM_LIMBS : Nat} (b : BigInteger NUM_LIMBS) :
    ofBytesLe b.toBytesLe = b.value :=
  ofBytesLe_flatMap_limbs b.limbs

end SealedBidAuctions.BigInt
