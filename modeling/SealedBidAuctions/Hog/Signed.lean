import SealedBidAuctions.Hog.Basic
import Mathlib.RingTheory.Int.Basic

/-!
Contract: `RsaHiddenOrderGroup<P>`, the group `QR_M^+` of residues identified
up to sign, as `rsa_hidden_order_group.rs` computes it.

Owns: `from_nat`, `op`, `identity`, `generator`, `power`, `inverse` and
`default`, each as its Rust body computes it; the normal form `Canonical`; and
the element-level laws, each derived from `fold_emod_congr`.

Does not own: the statements that compare this group with the unsigned one.

The element stores a `BigInt`, so `n` is an `Int`. Rust's `%` on `BigInt`
truncates toward zero (`Int.tmod`); on the non-negative values the group
produces it agrees with Lean's `%`, and the spec lemmas below state each
operation in that form.
-/

set_option autoImplicit false

namespace SealedBidAuctions.Hog

open SealedBidAuctions.Rust

/-- `RsaHiddenOrderGroup<P>`: the representative `n`; the parameters are a type
index, as the Rust `PhantomData<P>` makes them. -/
@[ext] structure RsaHiddenOrderGroup (P : RsaGroupParams) where
  n : Int
deriving DecidableEq, Repr

namespace RsaHiddenOrderGroup

variable {P : RsaGroupParams}

/-- `from_nat(n)`: asserts `n > 0` (`none` is that panic), reduces modulo `M`
and folds. -/
def fromNat (n : Int) : Option (RsaHiddenOrderGroup P) :=
  if 0 < n then some ⟨fold P.M (n.tmod P.M)⟩ else none

/-- `op`: the product modulo `M`, folded. -/
def op (a b : RsaHiddenOrderGroup P) : RsaHiddenOrderGroup P :=
  ⟨fold P.M ((a.n * b.n).tmod P.M)⟩

/-- `identity()`: `1`. -/
def identity : RsaHiddenOrderGroup P := ⟨1⟩

/-- `generator()`: `P::G` as it is, without the fold. The type is commented as
the group `QR_M^+ := { |x| : x ∈ QR_M }` of folded representatives; this is the
one constructor that does not fold. -/
def generator : RsaHiddenOrderGroup P := ⟨P.G⟩

/-- `power(e)`: `n.modpow(e, M)`, folded. -/
def power (a : RsaHiddenOrderGroup P) (e : Nat) : RsaHiddenOrderGroup P :=
  ⟨fold P.M (BigInt.modpow a.n e P.M)⟩

/-- `inverse()`: the Bézout coefficient, then `from_nat`. -/
def inverse (extendedEuclideanGcd : Int → Int → (Int × Int) × Int)
    (a : RsaHiddenOrderGroup P) : Except (Fault RsaHOGError) (RsaHiddenOrderGroup P) :=
  bezoutInverse extendedEuclideanGcd a.n P.M >>= fun inv => Fault.lift (fromNat inv)

/-- `Default::default()`: `from_nat(2)`. -/
def default : Option (RsaHiddenOrderGroup P) := fromNat 2

/-- The normal form the spec asks of every element: `0 ≤ n` and `2 * n ≤ M`,
so that `n` is the smaller of the representatives of `±n`. -/
def Canonical (a : RsaHiddenOrderGroup P) : Prop := 0 ≤ a.n ∧ 2 * a.n ≤ P.M

instance (a : RsaHiddenOrderGroup P) : Decidable a.Canonical :=
  inferInstanceAs (Decidable (_ ∧ _))

/-! ## Spec lemmas -/

section Spec

variable {a b : RsaHiddenOrderGroup P} {k : Int}

theorem fromNat_of_pos (positive : 0 < k) :
    (fromNat k : Option (RsaHiddenOrderGroup P)) = some ⟨fold P.M (k % P.M)⟩ := by
  rw [fromNat, if_pos positive, Int.tmod_eq_emod positive.le P.M_pos.le]

theorem fromNat_of_nonpos (nonpos : k ≤ 0) :
    (fromNat k : Option (RsaHiddenOrderGroup P)) = none :=
  if_neg (not_lt.mpr nonpos)

theorem op_n_of_nonneg (left : 0 ≤ a.n) (right : 0 ≤ b.n) :
    (a.op b).n = fold P.M (a.n * b.n % P.M) := by
  rw [op, Int.tmod_eq_emod (mul_nonneg left right) P.M_pos.le]

@[simp] theorem power_n (e : Nat) : (a.power e).n = fold P.M (a.n ^ e % P.M) := rfl

@[simp] theorem identity_n : (identity : RsaHiddenOrderGroup P).n = 1 := rfl

@[simp] theorem generator_n : (generator : RsaHiddenOrderGroup P).n = P.G := rfl

/-- Every folded residue is in normal form. -/
theorem canonical_fold (x : Int) : (⟨fold P.M (x % P.M)⟩ : RsaHiddenOrderGroup P).Canonical :=
  ⟨fold_emod_nonneg P.M_pos x, two_mul_fold_emod_le x⟩

theorem Canonical.fold_eq (canonical : a.Canonical) : fold P.M (a.n % P.M) = a.n :=
  fold_emod_of_le canonical.1 canonical.2 P.two_le_M

theorem Canonical.n_lt (canonical : a.Canonical) : a.n < P.M := by
  have := P.two_le_M
  have := canonical.2
  omega

theorem identity_canonical : (identity : RsaHiddenOrderGroup P).Canonical := by
  have := P.two_le_M
  constructor <;> simp only [identity_n] <;> omega

theorem canonical_of_fromNat (built : fromNat k = some a) : a.Canonical := by
  by_cases positive : 0 < k
  · rw [fromNat_of_pos positive, Option.some.injEq] at built
    exact built ▸ canonical_fold k
  · rw [fromNat_of_nonpos (not_lt.mp positive)] at built
    cases built

theorem power_canonical (e : Nat) : (a.power e).Canonical := canonical_fold _

/-- A product of elements with non-negative representatives is in normal form. -/
theorem op_canonical (left : 0 ≤ a.n) (right : 0 ≤ b.n) : (a.op b).Canonical := by
  rw [show a.op b = ⟨fold P.M (a.n * b.n % P.M)⟩ from RsaHiddenOrderGroup.ext
    (op_n_of_nonneg left right)]
  exact canonical_fold _

theorem canonical_of_inverse {extendedEuclideanGcd : Int → Int → (Int × Int) × Int}
    (inverted : a.inverse extendedEuclideanGcd = .ok b) : b.Canonical := by
  obtain ⟨inv, -, built⟩ := except_bind_eq_ok.mp inverted
  cases fromNatResult : (fromNat inv : Option (RsaHiddenOrderGroup P)) with
  | none => simp [fromNatResult] at built
  | some c =>
      rw [fromNatResult, Fault.lift_some, Except.ok.injEq] at built
      exact built ▸ canonical_of_fromNat fromNatResult

end Spec

/-! ## Element laws

Each law is one `fold_emod_congr`: both sides are folds of residues that agree
up to sign. -/

section Laws

variable {a b c : RsaHiddenOrderGroup P}

theorem op_assoc (left : 0 ≤ a.n) (middle : 0 ≤ b.n) (right : 0 ≤ c.n) :
    (a.op b).op c = a.op (b.op c) := by
  ext
  rw [op_n_of_nonneg (op_canonical left middle).1 right,
    op_n_of_nonneg left (op_canonical middle right).1, op_n_of_nonneg left middle,
    op_n_of_nonneg middle right]
  apply fold_emod_congr P.M_pos
  have leftSide : SignModEq P.M (fold P.M (a.n * b.n % P.M) * c.n) (a.n * b.n * c.n) :=
    (signModEq_fold_emod _).mul (.refl c.n)
  have rightSide : SignModEq P.M (a.n * fold P.M (b.n * c.n % P.M)) (a.n * (b.n * c.n)) :=
    (SignModEq.refl a.n).mul (signModEq_fold_emod _)
  rw [mul_assoc] at leftSide
  exact leftSide.trans rightSide.symm

theorem op_comm (a b : RsaHiddenOrderGroup P) : a.op b = b.op a := by
  rw [op, op, mul_comm]

theorem op_identity (canonical : a.Canonical) : a.op identity = a := by
  ext
  rw [op_n_of_nonneg (b := identity) canonical.1 zero_le_one, identity_n, mul_one,
    canonical.fold_eq]

theorem power_zero (a : RsaHiddenOrderGroup P) : a.power 0 = identity := by
  have := P.two_le_M
  ext
  rw [power_n, pow_zero, Int.emod_eq_of_lt zero_le_one (by omega), identity_n, fold]
  omega

theorem power_one (canonical : a.Canonical) : a.power 1 = a := by
  ext
  rw [power_n, pow_one, canonical.fold_eq]

theorem power_add (a : RsaHiddenOrderGroup P) (i j : Nat) :
    a.power (i + j) = (a.power i).op (a.power j) := by
  ext
  rw [op_n_of_nonneg (power_canonical i).1 (power_canonical j).1, power_n, power_n, power_n]
  apply fold_emod_congr P.M_pos
  rw [pow_add]
  exact ((signModEq_fold_emod _).mul (signModEq_fold_emod _)).symm

theorem power_power (a : RsaHiddenOrderGroup P) (i j : Nat) :
    (a.power i).power j = a.power (i * j) := by
  ext
  rw [power_n, power_n, power_n]
  apply fold_emod_congr P.M_pos
  rw [pow_mul]
  exact (signModEq_fold_emod _).pow j

/-- Inverses are unique among normal-form elements. -/
theorem eq_of_op_eq_identity (nonneg : 0 ≤ a.n) (left : b.Canonical) (right : c.Canonical)
    (inverts : a.op b = identity) (alsoInverts : a.op c = identity) : b = c :=
  calc b = b.op (a.op c) := by rw [alsoInverts, op_identity left]
    _ = (b.op a).op c := (op_assoc left.1 nonneg right.1).symm
    _ = c := by rw [op_comm b a, inverts, op_comm, op_identity right]

/-! ### `inverse` -/

variable {extendedEuclideanGcd : Int → Int → (Int × Int) × Int}

theorem inverse_of_not_coprime (spec : ExtendedGcdSpec extendedEuclideanGcd a.n P.M)
    (notCoprime : Int.gcd a.n P.M ≠ 1) :
    a.inverse extendedEuclideanGcd = .error (.error .NotInvertible) := by
  rw [inverse, bezoutInverse_of_not_coprime spec P.two_le_M notCoprime, except_error_bind]

/-- **`inverse` inverts.** For a coprime element it returns, without panicking,
a normal-form element whose product with `a` is `identity()` on either side. -/
theorem inverse_of_coprime (canonical : a.Canonical)
    (spec : ExtendedGcdSpec extendedEuclideanGcd a.n P.M) (coprime : Int.gcd a.n P.M = 1) :
    ∃ b, a.inverse extendedEuclideanGcd = .ok b ∧ b.Canonical ∧
      a.op b = identity ∧ b.op a = identity := by
  obtain ⟨inv, bezout, positive, -, inverts⟩ := bezoutInverse_of_coprime spec P.two_le_M coprime
  have product : a.op ⟨fold P.M (inv % P.M)⟩ = identity := by
    ext
    rw [op_n_of_nonneg (b := ⟨fold P.M (inv % P.M)⟩) canonical.1 (fold_emod_nonneg P.M_pos inv),
      identity_n]
    calc fold P.M (a.n * fold P.M (inv % P.M) % P.M)
        = fold P.M (1 % P.M) := fold_emod_congr P.M_pos
          (((SignModEq.refl a.n).mul (signModEq_fold_emod inv)).trans (.inl inverts))
      _ = 1 := fold_emod_of_le zero_le_one (by have := P.two_le_M; omega) P.two_le_M
  refine ⟨⟨fold P.M (inv % P.M)⟩, ?_, canonical_fold inv, product, (op_comm _ a).trans product⟩
  rw [inverse, bezout, except_ok_bind, fromNat_of_pos positive, Fault.lift_some]

/-- A product that is `identity()` makes its factor coprime to `M`: `a · b ≡ ±1`. -/
theorem coprime_of_op_eq_identity (left : 0 ≤ a.n) (right : 0 ≤ b.n)
    (inverts : a.op b = identity) : Int.gcd b.n P.M = 1 := by
  have product : SignModEq P.M 1 (a.n * b.n) := by
    have := signModEq_fold_emod (M := P.M) (a.n * b.n)
    rwa [← op_n_of_nonneg left right, inverts, identity_n] at this
  rw [Int.gcd_eq_one_iff_coprime]
  rcases product with same | opposite
  · obtain ⟨k, multiple⟩ := Int.modEq_iff_dvd.mp same
    exact ⟨a.n, -k, by linear_combination multiple⟩
  · obtain ⟨k, multiple⟩ := Int.modEq_iff_dvd.mp opposite
    exact ⟨-a.n, -k, by linear_combination multiple⟩

/-- **`inverse` returns the inverse.** Whenever a normal-form `c` has
`a.op(c) = identity()`, `inverse` returns exactly `c`. -/
theorem inverse_eq_of_op_eq_identity (spec : ExtendedGcdSpec extendedEuclideanGcd a.n P.M)
    (canonical : a.Canonical) (right : c.Canonical) (inverts : a.op c = identity) :
    a.inverse extendedEuclideanGcd = .ok c := by
  have coprime := coprime_of_op_eq_identity right.1 canonical.1 ((op_comm c a).trans inverts)
  obtain ⟨b, inverted, bCanonical, bInverts, -⟩ := inverse_of_coprime canonical spec coprime
  rw [inverted, eq_of_op_eq_identity canonical.1 bCanonical right bInverts inverts]

end Laws

end RsaHiddenOrderGroup

end SealedBidAuctions.Hog
