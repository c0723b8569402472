import SealedBidAuctions.Core.BigInt
import Mathlib.Data.Int.GCD
import Mathlib.Algebra.Order.Ring.Abs
import Mathlib.Tactic.Ring
import Mathlib.Tactic.LinearCombination

/-!
Contract: what the two hidden-order groups share.

Owns:
- the group parameters `RsaGroupParams` and `UnsignedRsaGroupParams`, and `RsaHOGError`;
- `fold`, the `min(a, M - a)` that the signed group applies after every
  reduction, and the fact that it identifies exactly the residues that agree
  up to sign (`fold_emod_eq_fold_emod_iff`);
- the Bézout step that both `inverse`s run before `from_nat`, under the
  contract of `extended_euclidean_gcd`.

Does not own: the elements of either group (`Signed`, `Unsigned`).

## Why signs are the whole story

Every law of the signed group reduces to one fact: `fold (x % M)` depends on
`x` only through its class up to sign. `SignModEq M x y` is that relation, it
is compatible with products and powers, and `fold` picks one representative
per class.
-/

set_option autoImplicit false

namespace SealedBidAuctions.Hog

open SealedBidAuctions.Rust

/-- `RsaGroupParams`: the generator `G` and modulus `M` of a signed group. The
modulus is at least two: every operation reduces by it, and `identity()`
stores `1`. -/
structure RsaGroupParams where
  G : Int
  M : Int
  two_le_M : 2 ≤ M

/-- `UnsignedRsaGroupParams`: the optional generator and the modulus of an
unsigned group. -/
structure UnsignedRsaGroupParams where
  G : Option Int
  M : Int
  two_le_M : 2 ≤ M

theorem RsaGroupParams.M_pos (P : RsaGroupParams) : 0 < P.M := by
  have := P.two_le_M
  omega

theorem UnsignedRsaGroupParams.M_pos (P : UnsignedRsaGroupParams) : 0 < P.M := by
  have := P.two_le_M
  omega

/-- `RsaHOGError`. -/
inductive RsaHOGError where
  | NotInvertible
  | NotCyclic
deriving DecidableEq, Repr

/-- The `Display` text of each error. -/
def RsaHOGError.message : RsaHOGError → String
  | .NotInvertible => "Group element not invertible"
  | .NotCyclic => "Group is not cyclic, missing generator"

/-! ## The fold -/

/-- `min(a, M - a)`: the smaller of the representatives `a` and `M - a`. -/
def fold (M a : Int) : Int := min a (M - a)

/-- `x` and `y` agree modulo `M` up to sign. -/
def SignModEq (M x y : Int) : Prop := x ≡ y [ZMOD M] ∨ x ≡ -y [ZMOD M]

section SignModEq

variable {M x y z a b : Int}

theorem SignModEq.refl (x : Int) : SignModEq M x x := .inl (Int.ModEq.refl x)

theorem SignModEq.symm (h : SignModEq M x y) : SignModEq M y x := by
  rcases h with h | h
  · exact .inl h.symm
  · exact .inr (by simpa using h.neg.symm)

theorem SignModEq.trans (first : SignModEq M x y) (second : SignModEq M y z) :
    SignModEq M x z := by
  rcases first with first | first <;> rcases second with second | second
  · exact .inl (first.trans second)
  · exact .inr (first.trans second)
  · exact .inr (first.trans second.neg)
  · exact .inl (by simpa using first.trans second.neg)

theorem SignModEq.mul (left : SignModEq M x a) (right : SignModEq M y b) :
    SignModEq M (x * y) (a * b) := by
  rcases left with left | left <;> rcases right with right | right
  · exact .inl (left.mul right)
  · exact .inr (by simpa using left.mul right)
  · exact .inr (by simpa using left.mul right)
  · exact .inl (by simpa using left.mul right)

theorem SignModEq.pow (h : SignModEq M x a) (e : Nat) : SignModEq M (x ^ e) (a ^ e) := by
  induction e with
  | zero => exact .refl 1
  | succ e inductionHypothesis => simpa only [pow_succ] using inductionHypothesis.mul h

end SignModEq

section Fold

variable {M : Int}

theorem fold_emod_nonneg (positive : 0 < M) (x : Int) : 0 ≤ fold M (x % M) := by
  have := Int.emod_lt_of_pos x positive
  have := Int.emod_nonneg x positive.ne'
  unfold fold
  omega

theorem two_mul_fold_emod_le (x : Int) : 2 * fold M (x % M) ≤ M := by
  unfold fold
  omega

/-- A value already in normal form is its own fold. -/
theorem fold_emod_of_le {a : Int} (nonneg : 0 ≤ a) (twice : 2 * a ≤ M) (twoLe : 2 ≤ M) :
    fold M (a % M) = a := by
  rw [Int.emod_eq_of_lt nonneg (by omega)]
  unfold fold
  omega

/-- The fold of `x` is `x` or `-x` modulo `M`. -/
theorem signModEq_fold_emod (x : Int) : SignModEq M (fold M (x % M)) x := by
  unfold fold
  rcases min_choice (x % M) (M - x % M) with chosen | chosen <;> rw [chosen]
  · exact .inl (Int.mod_modEq x M)
  · refine .inr (Int.modEq_iff_dvd.mpr ⟨-1 - x / M, ?_⟩)
    rw [Int.emod_def]
    ring

theorem fold_emod_neg (positive : 0 < M) (x : Int) : fold M (-x % M) = fold M (x % M) := by
  have shifted : -x % M = (M - x % M) % M :=
    Int.ModEq.eq (Int.modEq_iff_dvd.mpr ⟨1 + x / M, by rw [Int.emod_def]; ring⟩)
  have below := Int.emod_lt_of_pos x positive
  have nonneg := Int.emod_nonneg x positive.ne'
  rw [shifted]
  generalize x % M = r at *
  rcases eq_or_lt_of_le nonneg with zero | positiveRemainder
  · subst zero
    simp [fold]
  · rw [Int.emod_eq_of_lt (by omega) (by omega), fold, fold, sub_sub_cancel, min_comm]

/-- **The fold identifies exactly the residues that agree up to sign.** -/
theorem fold_emod_eq_fold_emod_iff (positive : 0 < M) {x y : Int} :
    fold M (x % M) = fold M (y % M) ↔ SignModEq M x y := by
  constructor
  · intro equal
    exact (signModEq_fold_emod x).symm.trans (equal ▸ signModEq_fold_emod y)
  · rintro (same | opposite)
    · rw [same.eq]
    · rw [opposite.eq, fold_emod_neg positive]

theorem fold_emod_congr (positive : 0 < M) {x y : Int} (h : SignModEq M x y) :
    fold M (x % M) = fold M (y % M) :=
  (fold_emod_eq_fold_emod_iff positive).mpr h

/-- Folding a representative in `[0, M]` keeps its gcd with `M`:
`gcd(M - a, M) = gcd(a, M)`. -/
theorem gcd_fold {a : Int} (nonneg : 0 ≤ a) (le : a ≤ M) : Int.gcd (fold M a) M = Int.gcd a M := by
  lift a to Nat using nonneg
  lift M to Nat using (by omega)
  unfold fold
  rcases le_total (a : Int) (M - a) with small | large
  · rw [min_eq_left small]
  · rw [min_eq_right large, ← Nat.cast_sub (by omega), Int.gcd_natCast_natCast,
      Int.gcd_natCast_natCast, Nat.gcd_self_sub_left (by omega)]

end Fold

/-- Truncated division's remainder, Rust's `%` on `BigInt`, agrees with `x`
modulo the divisor. -/
theorem tmod_modEq (x M : Int) : x.tmod M ≡ x [ZMOD M] :=
  Int.modEq_iff_dvd.mpr ⟨x.tdiv M, by rw [Int.tmod_def]; ring⟩

/-! ## The Bézout step of `inverse` -/

/-- The contract of `extended_euclidean_gcd(a, m) = ((x, y), g)`: Bézout
coefficients with `a * x + m * y = g`, the non-negative gcd `g`, and `|x| < m`,
as the textbook algorithm returns them. -/
def ExtendedGcdSpec (extendedEuclideanGcd : Int → Int → (Int × Int) × Int) (a m : Int) :
    Prop :=
  a * (extendedEuclideanGcd a m).1.1 + m * (extendedEuclideanGcd a m).1.2 =
      (extendedEuclideanGcd a m).2 ∧
    (extendedEuclideanGcd a m).2 = Int.gcd a m ∧
    |(extendedEuclideanGcd a m).1.1| < m

instance (extendedEuclideanGcd : Int → Int → (Int × Int) × Int) (a m : Int) :
    Decidable (ExtendedGcdSpec extendedEuclideanGcd a m) :=
  inferInstanceAs (Decidable (_ ∧ _ ∧ _))

/-- The part of `inverse` that both groups share, up to the final `from_nat`:
`NotInvertible` when `|gcd| > 1`, and otherwise the Bézout coefficient of `n`,
moved up by `M` when it is negative. -/
def bezoutInverse (extendedEuclideanGcd : Int → Int → (Int × Int) × Int) (n M : Int) :
    Except (Fault RsaHOGError) Int :=
  let ((inv, _), gcd) := extendedEuclideanGcd n M
  if 1 < |gcd| then .error (.error .NotInvertible)
  else .ok (if inv < 0 then inv + M else inv)

section Bezout

variable {extendedEuclideanGcd : Int → Int → (Int × Int) × Int} {n M : Int}

theorem bezoutInverse_of_not_coprime (spec : ExtendedGcdSpec extendedEuclideanGcd n M)
    (twoLe : 2 ≤ M) (notCoprime : Int.gcd n M ≠ 1) :
    bezoutInverse extendedEuclideanGcd n M = .error (.error .NotInvertible) := by
  unfold ExtendedGcdSpec at spec
  unfold bezoutInverse
  generalize extendedEuclideanGcd n M = result at *
  obtain ⟨⟨x, y⟩, g⟩ := result
  dsimp only at spec ⊢
  obtain ⟨-, gcdEq, -⟩ := spec
  have nonzero : Int.gcd n M ≠ 0 := fun zero => by
    have := (Int.gcd_eq_zero_iff.mp zero).2
    omega
  have large : 1 < |g| := by
    rw [gcdEq, abs_of_nonneg (by positivity)]
    omega
  simp only [large, if_true]

/-- **The coprime case.** The coefficient `inverse` passes to `from_nat` lies in
`(0, M)` and is an inverse of `n` modulo `M`; in particular `from_nat`'s
`n > 0` assertion holds. -/
theorem bezoutInverse_of_coprime (spec : ExtendedGcdSpec extendedEuclideanGcd n M)
    (twoLe : 2 ≤ M) (coprime : Int.gcd n M = 1) :
    ∃ inv, bezoutInverse extendedEuclideanGcd n M = .ok inv ∧ 0 < inv ∧ inv < M ∧
      n * inv ≡ 1 [ZMOD M] := by
  unfold ExtendedGcdSpec at spec
  unfold bezoutInverse
  generalize extendedEuclideanGcd n M = result at *
  obtain ⟨⟨x, y⟩, g⟩ := result
  dsimp only at spec ⊢
  obtain ⟨bezout, gcdEq, small⟩ := spec
  simp only [coprime, Nat.cast_one] at gcdEq
  subst gcdEq
  have xNonzero : x ≠ 0 := fun zero => by
    rw [zero, mul_zero, zero_add] at bezout
    have := Int.eq_one_of_mul_eq_one_right (by omega) bezout
    omega
  have bounds := abs_lt.mp small
  rw [if_neg (by norm_num)]
  refine ⟨_, rfl, ?_⟩
  split
  · exact ⟨by omega, by omega, Int.modEq_iff_dvd.mpr ⟨y - n, by linear_combination -bezout⟩⟩
  · exact ⟨by omega, by omega, Int.modEq_iff_dvd.mpr ⟨y, by linear_combination -bezout⟩⟩

end Bezout

end SealedBidAuctions.Hog
