import SealedBidAuctions.Hog.Basic

/-!
Contract: `UnsignedRsaHiddenOrderGroup<P>`, the group `Z_M^*` with no folding,
as `unsigned_rsa_hidden_order_group.rs` computes it.

Owns: `from_nat`, `op`, `identity`, `generator`, `power`, `inverse` and
`default`; the range invariant `Canonical` (`0 ≤ n < M`); the element laws.

Does not own: the comparison with the signed group.

Unlike the signed `generator()`, this one goes through `from_nat`, and it
fails with `NotCyclic` when the parameters name no generator.
-/

set_option autoImplicit false

namespace SealedBidAuctions.Hog

open SealedBidAuctions.Rust

/-- `UnsignedRsaHiddenOrderGroup<P>`: the representative `n`. -/
@[ext] structure UnsignedRsaHiddenOrderGroup (P : UnsignedRsaGroupParams) where
  n : Int
deriving DecidableEq, Repr

namespace UnsignedRsaHiddenOrderGroup

variable {P : UnsignedRsaGroupParams}

/-- `from_nat(n)`: asserts `n > 0` (`none` is that panic) and reduces modulo `M`. -/
def fromNat (n : Int) : Option (UnsignedRsaHiddenOrderGroup P) :=
  if 0 < n then some ⟨n.tmod P.M⟩ else none

/-- `op`: the product modulo `M`. -/
def op (a b : UnsignedRsaHiddenOrderGroup P) : UnsignedRsaHiddenOrderGroup P :=
  ⟨(a.n * b.n).tmod P.M⟩

/-- `identity()`: `1`. -/
def identity : UnsignedRsaHiddenOrderGroup P := ⟨1⟩

/-- `generator()`: `from_nat(G)`, or `NotCyclic` when there is no `G`. -/
def generator : Except (Fault RsaHOGError) (UnsignedRsaHiddenOrderGroup P) :=
  match P.G with
  | some g => Fault.lift (fromNat g)
  | none => .error (.error .NotCyclic)

/-- `power(e)`: `n.modpow(e, M)`. -/
def power (a : UnsignedRsaHiddenOrderGroup P) (e : Nat) : UnsignedRsaHiddenOrderGroup P :=
  ⟨BigInt.modpow a.n e P.M⟩

/-- `inverse()`: the Bézout coefficient, then `from_nat`. -/
def inverse (extendedEuclideanGcd : Int → Int → (Int × Int) × Int)
    (a : UnsignedRsaHiddenOrderGroup P) :
    Except (Fault RsaHOGError) (UnsignedRsaHiddenOrderGroup P) :=
  bezoutInverse extendedEuclideanGcd a.n P.M >>= fun inv => Fault.lift (fromNat inv)

/-- `Default::default()`: `from_nat(2)`. -/
def default : Option (UnsignedRsaHiddenOrderGroup P) := fromNat 2

/-- A representative in `[0, M)`. -/
def Canonical (a : UnsignedRsaHiddenOrderGroup P) : Prop := 0 ≤ a.n ∧ a.n < P.M

instance (a : UnsignedRsaHiddenOrderGroup P) : Decidable a.Canonical :=
  inferInstanceAs (Decidable (_ ∧ _))

/-! ## Spec lemmas -/

section Spec

variable {a b : UnsignedRsaHiddenOrderGroup P} {k : Int}

theorem fromNat_of_pos (positive : 0 < k) :
    (fromNat k : Option (UnsignedRsaHiddenOrderGroup P)) = some ⟨k % P.M⟩ := by
  rw [fromNat, if_pos positive, Int.tmod_eq_emod positive.le P.M_pos.le]

theorem fromNat_of_nonpos (nonpos : k ≤ 0) :
    (fromNat k : Option (UnsignedRsaHiddenOrderGroup P)) = none :=
  if_neg (not_lt.mpr nonpos)

theorem op_n_of_nonneg (left : 0 ≤ a.n) (right : 0 ≤ b.n) :
    (a.op b).n = a.n * b.n % P.M := by
  rw [op, Int.tmod_eq_emod (mul_nonneg left right) P.M_pos.le]

@[simp] theorem power_n (e : Nat) : (a.power e).n = a.n ^ e % P.M := rfl

@[simp] theorem identity_n : (identity : UnsignedRsaHiddenOrderGroup P).n = 1 := rfl

theorem op_n_nonneg (left : 0 ≤ a.n) (right : 0 ≤ b.n) : 0 ≤ (a.op b).n := by
  rw [op_n_of_nonneg left right]
  exact Int.emod_nonneg _ P.M_pos.ne'

theorem canonical_emod (x : Int) : (⟨x % P.M⟩ : UnsignedRsaHiddenOrderGroup P).Canonical :=
  ⟨Int.emod_nonneg x P.M_pos.ne', Int.emod_lt_of_pos x P.M_pos⟩

theorem Canonical.emod_eq (canonical : a.Canonical) : a.n % P.M = a.n :=
  Int.emod_eq_of_lt canonical.1 canonical.2

theorem power_canonical (e : Nat) : (a.power e).Canonical := canonical_emod _

theorem identity_canonical : (identity : UnsignedRsaHiddenOrderGroup P).Canonical := by
  have := P.two_le_M
  constructor <;> simp only [identity_n] <;> omega

theorem canonical_of_fromNat (built : fromNat k = some a) : a.Canonical := by
  by_cases positive : 0 < k
  · rw [fromNat_of_pos positive, Option.some.injEq] at built
    exact built ▸ canonical_emod k
  · rw [fromNat_of_nonpos (not_lt.mp positive)] at built
    cases built

theorem op_canonical (left : 0 ≤ a.n) (right : 0 ≤ b.n) : (a.op b).Canonical := by
  rw [show a.op b = ⟨a.n * b.n % P.M⟩ from
    UnsignedRsaHiddenOrderGroup.ext (op_n_of_nonneg left right)]
  exact canonical_emod _

/-- `generator()` goes through `from_nat`, so whatever it returns is in range. -/
theorem canonical_of_generator (generated : (generator : Except (Fault RsaHOGError)
    (UnsignedRsaHiddenOrderGroup P)) = .ok a) : a.Canonical := by
  unfold generator at generated
  split at generated
  · exact canonical_of_fromNat (Fault.lift_eq_ok.mp generated)
  · cases generated

theorem canonical_of_inverse {extendedEuclideanGcd : Int → Int → (Int × Int) × Int}
    (inverted : a.inverse extendedEuclideanGcd = .ok b) : b.Canonical := by
  obtain ⟨inv, -, built⟩ := except_bind_eq_ok.mp inverted
  exact canonical_of_fromNat (Fault.lift_eq_ok.mp built)

end Spec

/-! ## Element laws -/

section Laws

variable {a b c : UnsignedRsaHiddenOrderGroup P}

theorem op_assoc (left : 0 ≤ a.n) (middle : 0 ≤ b.n) (right : 0 ≤ c.n) :
    (a.op b).op c = a.op (b.op c) := by
  ext
  rw [op_n_of_nonneg (op_n_nonneg left middle) right,
    op_n_of_nonneg left (op_n_nonneg middle right), op_n_of_nonneg left middle,
    op_n_of_nonneg middle right]
  have leftSide : a.n * b.n % P.M * c.n ≡ a.n * b.n * c.n [ZMOD P.M] :=
    (Int.mod_modEq _ _).mul_right _
  have rightSide : a.n * (b.n * c.n % P.M) ≡ a.n * (b.n * c.n) [ZMOD P.M] :=
    (Int.mod_modEq _ _).mul_left _
  rw [mul_assoc] at leftSide
  exact leftSide.trans rightSide.symm

theorem op_comm (a b : UnsignedRsaHiddenOrderGroup P) : a.op b = b.op a := by
  rw [op, op, mul_comm]

theorem op_identity (canonical : a.Canonical) : a.op identity = a := by
  ext
  rw [op_n_of_nonneg (b := identity) canonical.1 zero_le_one, identity_n, mul_one,
    canonical.emod_eq]

theorem power_zero (a : UnsignedRsaHiddenOrderGroup P) : a.power 0 = identity := by
  have := P.two_le_M
  ext
  rw [power_n, pow_zero, Int.emod_eq_of_lt zero_le_one (by omega), identity_n]

theorem power_one (canonical : a.Canonical) : a.power 1 = a := by
  ext
  rw [power_n, pow_one, canonical.emod_eq]

theorem power_add (a : UnsignedRsaHiddenOrderGroup P) (i j : Nat) :
    a.power (i + j) = (a.power i).op (a.power j) := by
  ext
  rw [op_n_of_nonneg (power_canonical i).1 (power_canonical j).1, power_n, power_n, power_n,
    pow_add, Int.mul_emod]

theorem power_power (a : UnsignedRsaHiddenOrderGroup P) (i j : Nat) :
    (a.power i).power j = a.power (i * j) := by
  ext
  rw [power_n, power_n, power_n, ((Int.mod_modEq (a.n ^ i) P.M).pow j).eq, ← pow_mul]

/-! ### `inverse` -/

variable {extendedEuclideanGcd : Int → Int → (Int × Int) × Int}

theorem inverse_of_not_coprime (spec : ExtendedGcdSpec extendedEuclideanGcd a.n P.M)
    (notCoprime : Int.gcd a.n P.M ≠ 1) :
    a.inverse extendedEuclideanGcd = .error (.error .NotInvertible) := by
  rw [inverse, bezoutInverse_of_not_coprime spec P.two_le_M notCoprime, except_error_bind]

/-- **`inverse` inverts.** For a coprime element it returns, without panicking,
an element of `[0, M)` whose product with `a` is `identity()` on either side. -/
theorem inverse_of_coprime (canonical : a.Canonical)
    (spec : ExtendedGcdSpec extendedEuclideanGcd a.n P.M) (coprime : Int.gcd a.n P.M = 1) :
    ∃ b, a.inverse extendedEuclideanGcd = .ok b ∧ b.Canonical ∧
      a.op b = identity ∧ b.op a = identity := by
  obtain ⟨inv, bezout, positive, below, inverts⟩ :=
    bezoutInverse_of_coprime spec P.two_le_M coprime
  have reduced : inv % P.M = inv := Int.emod_eq_of_lt positive.le below
  have product : a.op ⟨inv % P.M⟩ = identity := by
    ext
    rw [op_n_of_nonneg canonical.1 (canonical_emod inv).1, reduced, inverts.eq, identity_n,
      Int.emod_eq_of_lt zero_le_one (by have := P.two_le_M; omega)]
  refine ⟨⟨inv % P.M⟩, ?_, canonical_emod inv, product, (op_comm _ a).trans product⟩
  rw [inverse, bezout, except_ok_bind, fromNat_of_pos positive, Fault.lift_some]

end Laws

end UnsignedRsaHiddenOrderGroup

end SealedBidAuctions.Hog
