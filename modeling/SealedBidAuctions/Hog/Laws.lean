import SealedBidAuctions.Hog.Signed
import SealedBidAuctions.Hog.Unsigned

/-!
Contract: the algebraic laws that both hidden-order groups owe their callers,
stated for every modulus and every element in normal form.

Owns: the exponent laws, the commutative-monoid laws of `op`, and the
correctness of `inverse` under the contract of `extended_euclidean_gcd`.

Does not own: the element-level lemmas these are assembled from (`Signed`,
`Unsigned`).

The exponent laws carry the time-lock: `(x^α)^(2^T) = (x^(2^T))^α` is what
makes a self-opening and a force-opening of the same commitment agree.
-/

set_option autoImplicit false

namespace SealedBidAuctions.Hog

/-- A small signed group: `M = 35 = 5 · 7`, `G = 2`, with the eighteen
representatives `0, …, 17`. -/
def smallParams : RsaGroupParams := ⟨2, 35, by decide⟩

/-- The unsigned group on the same modulus. -/
def smallUnsignedParams : UnsignedRsaGroupParams := ⟨some 2, 35, by decide⟩

/-- **Exponent laws in both groups.** -/
theorem power_laws :
    (∀ (P : RsaGroupParams) (a : RsaHiddenOrderGroup P), a.Canonical → ∀ i j : Nat,
      a.power 0 = .identity ∧ a.power 1 = a ∧
        a.power (i + j) = (a.power i).op (a.power j) ∧
        (a.power i).power j = a.power (i * j) ∧
        (a.power i).power (2 ^ j) = (a.power (2 ^ j)).power i) ∧
    (∀ (P : UnsignedRsaGroupParams) (a : UnsignedRsaHiddenOrderGroup P), a.Canonical →
      ∀ i j : Nat,
      a.power 0 = .identity ∧ a.power 1 = a ∧
        a.power (i + j) = (a.power i).op (a.power j) ∧
        (a.power i).power j = a.power (i * j) ∧
        (a.power i).power (2 ^ j) = (a.power (2 ^ j)).power i) := by
  constructor
  · intro P a canonical i j
    refine ⟨a.power_zero, RsaHiddenOrderGroup.power_one canonical, a.power_add i j,
      a.power_power i j, ?_⟩
    rw [a.power_power, a.power_power, mul_comm]
  · intro P a canonical i j
    refine ⟨a.power_zero, UnsignedRsaHiddenOrderGroup.power_one canonical, a.power_add i j,
      a.power_power i j, ?_⟩
    rw [a.power_power, a.power_power, mul_comm]

theorem power_laws_at_three :
    (⟨3⟩ : RsaHiddenOrderGroup smallParams).Canonical ∧
      ((⟨3⟩ : RsaHiddenOrderGroup smallParams).power 2).power (2 ^ 5) =
        ((⟨3⟩ : RsaHiddenOrderGroup smallParams).power (2 ^ 5)).power 2 ∧
    (⟨3⟩ : UnsignedRsaHiddenOrderGroup smallUnsignedParams).Canonical ∧
      ((⟨3⟩ : UnsignedRsaHiddenOrderGroup smallUnsignedParams).power 2).power (2 ^ 5) =
        ((⟨3⟩ : UnsignedRsaHiddenOrderGroup smallUnsignedParams).power (2 ^ 5)).power 2 :=
  ⟨by decide, (power_laws.1 _ ⟨3⟩ (by decide) 2 5).2.2.2.2,
    by decide, (power_laws.2 _ ⟨3⟩ (by decide) 2 5).2.2.2.2⟩

/-- **`op` is a commutative monoid operation on normal-form elements, in both
groups.** -/
theorem op_laws :
    (∀ (P : RsaGroupParams) (a b c : RsaHiddenOrderGroup P),
      a.Canonical → b.Canonical → c.Canonical →
      (a.op b).op c = a.op (b.op c) ∧ a.op b = b.op a ∧ a.op .identity = a) ∧
    (∀ (P : UnsignedRsaGroupParams) (a b c : UnsignedRsaHiddenOrderGroup P),
      a.Canonical → b.Canonical → c.Canonical →
      (a.op b).op c = a.op (b.op c) ∧ a.op b = b.op a ∧ a.op .identity = a) :=
  ⟨fun _ a b _ left middle right =>
    ⟨RsaHiddenOrderGroup.op_assoc left.1 middle.1 right.1, a.op_comm b,
      RsaHiddenOrderGroup.op_identity left⟩,
   fun _ a b _ left middle right =>
    ⟨UnsignedRsaHiddenOrderGroup.op_assoc left.1 middle.1 right.1, a.op_comm b,
      UnsignedRsaHiddenOrderGroup.op_identity left⟩⟩

theorem op_laws_at_small :
    (⟨3⟩ : RsaHiddenOrderGroup smallParams).Canonical ∧
      (⟨17⟩ : RsaHiddenOrderGroup smallParams).Canonical ∧
      (⟨11⟩ : RsaHiddenOrderGroup smallParams).Canonical ∧
      ((⟨3⟩ : RsaHiddenOrderGroup smallParams).op ⟨17⟩).op ⟨11⟩ =
        (⟨3⟩ : RsaHiddenOrderGroup smallParams).op ((⟨17⟩ : RsaHiddenOrderGroup _).op ⟨11⟩) ∧
    (⟨34⟩ : UnsignedRsaHiddenOrderGroup smallUnsignedParams).Canonical ∧
      (⟨20⟩ : UnsignedRsaHiddenOrderGroup smallUnsignedParams).Canonical ∧
      (⟨9⟩ : UnsignedRsaHiddenOrderGroup smallUnsignedParams).Canonical ∧
      ((⟨34⟩ : UnsignedRsaHiddenOrderGroup smallUnsignedParams).op ⟨20⟩).op ⟨9⟩ =
        (⟨34⟩ : UnsignedRsaHiddenOrderGroup smallUnsignedParams).op
          ((⟨20⟩ : UnsignedRsaHiddenOrderGroup _).op ⟨9⟩) :=
  ⟨by decide, by decide, by decide,
    (op_laws.1 _ ⟨3⟩ ⟨17⟩ ⟨11⟩ (by decide) (by decide) (by decide)).1,
   by decide, by decide, by decide,
    (op_laws.2 _ ⟨34⟩ ⟨20⟩ ⟨9⟩ (by decide) (by decide) (by decide)).1⟩

/-- **`inverse` is correct and never panics, in both groups.** Under the
contract of `extended_euclidean_gcd`, it fails with `NotInvertible` exactly for
the elements that share a factor with `M`; every other element gets an inverse
in normal form, reached without tripping `from_nat`'s assertion. -/
theorem inverse_correct :
    (∀ (P : RsaGroupParams) (extendedEuclideanGcd : Int → Int → (Int × Int) × Int)
      (a : RsaHiddenOrderGroup P), a.Canonical → ExtendedGcdSpec extendedEuclideanGcd a.n P.M →
      (a.inverse extendedEuclideanGcd = .error (.error .NotInvertible) ↔
        Int.gcd a.n P.M ≠ 1) ∧
      (Int.gcd a.n P.M = 1 → ∃ b, a.inverse extendedEuclideanGcd = .ok b ∧ b.Canonical ∧
        a.op b = .identity ∧ b.op a = .identity)) ∧
    (∀ (P : UnsignedRsaGroupParams) (extendedEuclideanGcd : Int → Int → (Int × Int) × Int)
      (a : UnsignedRsaHiddenOrderGroup P), a.Canonical →
      ExtendedGcdSpec extendedEuclideanGcd a.n P.M →
      (a.inverse extendedEuclideanGcd = .error (.error .NotInvertible) ↔
        Int.gcd a.n P.M ≠ 1) ∧
      (Int.gcd a.n P.M = 1 → ∃ b, a.inverse extendedEuclideanGcd = .ok b ∧ b.Canonical ∧
        a.op b = .identity ∧ b.op a = .identity)) := by
  constructor
  · intro P extendedEuclideanGcd a canonical spec
    refine ⟨⟨fun failed coprime => ?_, RsaHiddenOrderGroup.inverse_of_not_coprime spec⟩,
      RsaHiddenOrderGroup.inverse_of_coprime canonical spec⟩
    obtain ⟨b, inverted, -⟩ := RsaHiddenOrderGroup.inverse_of_coprime canonical spec coprime
    exact nomatch failed.symm.trans inverted
  · intro P extendedEuclideanGcd a canonical spec
    refine ⟨⟨fun failed coprime => ?_, UnsignedRsaHiddenOrderGroup.inverse_of_not_coprime spec⟩,
      UnsignedRsaHiddenOrderGroup.inverse_of_coprime canonical spec⟩
    obtain ⟨b, inverted, -⟩ :=
      UnsignedRsaHiddenOrderGroup.inverse_of_coprime canonical spec coprime
    exact nomatch failed.symm.trans inverted

/-- A Bézout triple for `2` modulo `35` with a negative coefficient:
`2 · (-17) + 35 · 1 = 1`, so `inverse` takes its `inv += M` branch. -/
def bezoutOfTwo (_ _ : Int) : (Int × Int) × Int := ((-17, 1), 1)

theorem inverse_correct_at_two :
    (⟨2⟩ : RsaHiddenOrderGroup smallParams).Canonical ∧ ExtendedGcdSpec bezoutOfTwo 2 35 ∧
      (⟨2⟩ : RsaHiddenOrderGroup smallParams).inverse bezoutOfTwo = .ok ⟨17⟩ ∧
      (∃ b, (⟨2⟩ : RsaHiddenOrderGroup smallParams).inverse bezoutOfTwo = .ok b ∧ b.Canonical ∧
        (⟨2⟩ : RsaHiddenOrderGroup smallParams).op b = .identity) ∧
    (⟨2⟩ : UnsignedRsaHiddenOrderGroup smallUnsignedParams).Canonical ∧
      (∃ b, (⟨2⟩ : UnsignedRsaHiddenOrderGroup smallUnsignedParams).inverse bezoutOfTwo = .ok b ∧
        b.Canonical ∧
        (⟨2⟩ : UnsignedRsaHiddenOrderGroup smallUnsignedParams).op b = .identity) := by
  have spec : ExtendedGcdSpec bezoutOfTwo 2 35 := by decide
  obtain ⟨b, inverted, canonical, product, -⟩ :=
    (inverse_correct.1 smallParams bezoutOfTwo ⟨2⟩ (by decide) spec).2 (by decide)
  obtain ⟨c, invertedUnsigned, canonicalUnsigned, productUnsigned, -⟩ :=
    (inverse_correct.2 smallUnsignedParams bezoutOfTwo ⟨2⟩ (by decide) spec).2 (by decide)
  exact ⟨by decide, spec, rfl, ⟨b, inverted, canonical, product⟩, by decide,
    ⟨c, invertedUnsigned, canonicalUnsigned, productUnsigned⟩⟩

/-- The textbook extended Euclidean algorithm, run for `fuel` division steps:
`((x, y), g)` with `a * x + m * y = g`. -/
def extendedEuclid : Nat → Int → Int → (Int × Int) × Int
  | 0, a, _ => ((1, 0), a)
  | fuel + 1, a, m =>
      if m = 0 then ((1, 0), a)
      else
        let ((x, y), g) := extendedEuclid fuel m (a % m)
        ((y, x - a / m * y), g)

/-- It meets the contract of `extended_euclidean_gcd` on every residue modulo `35`. -/
theorem extendedEuclid_spec_small :
    ∀ a, 0 ≤ a → a < smallParams.M → ExtendedGcdSpec (extendedEuclid 10) a smallParams.M := by
  have table : ∀ k : Nat, k < 35 → ExtendedGcdSpec (extendedEuclid 10) k 35 := by decide
  intro a nonneg below
  lift a to Nat using nonneg
  have lt : (a : Int) < 35 := below
  exact table a (by exact_mod_cast lt)

/-- **`inverse` is an involution and turns products into products.** For
normal-form elements coprime to `M`, under the contract of
`extended_euclidean_gcd` on `[0, M)`: the inverse of the inverse is the element,
and the inverse of `a.op(b)` is the product of the inverses. -/
theorem inverse_laws {P : RsaGroupParams} {extendedEuclideanGcd : Int → Int → (Int × Int) × Int}
    (spec : ∀ x, 0 ≤ x → x < P.M → ExtendedGcdSpec extendedEuclideanGcd x P.M)
    {a b : RsaHiddenOrderGroup P} (aCanonical : a.Canonical) (bCanonical : b.Canonical)
    (aCoprime : Int.gcd a.n P.M = 1) (bCoprime : Int.gcd b.n P.M = 1) :
    ∃ x y, a.inverse extendedEuclideanGcd = .ok x ∧ b.inverse extendedEuclideanGcd = .ok y ∧
      x.inverse extendedEuclideanGcd = .ok a ∧
      (a.op b).inverse extendedEuclideanGcd = .ok (x.op y) := by
  have specOf : ∀ c : RsaHiddenOrderGroup P, c.Canonical →
      ExtendedGcdSpec extendedEuclideanGcd c.n P.M :=
    fun c canonical => spec c.n canonical.1 canonical.n_lt
  obtain ⟨x, aInverted, xCanonical, aInverts, xInverts⟩ :=
    RsaHiddenOrderGroup.inverse_of_coprime aCanonical (specOf a aCanonical) aCoprime
  obtain ⟨y, bInverted, yCanonical, bInverts, -⟩ :=
    RsaHiddenOrderGroup.inverse_of_coprime bCanonical (specOf b bCanonical) bCoprime
  have abCanonical := RsaHiddenOrderGroup.op_canonical aCanonical.1 bCanonical.1
  have xyCanonical := RsaHiddenOrderGroup.op_canonical xCanonical.1 yCanonical.1
  have byCanonical := RsaHiddenOrderGroup.op_canonical bCanonical.1 yCanonical.1
  have productInverts : (a.op b).op (x.op y) = .identity :=
    calc (a.op b).op (x.op y)
        = a.op (b.op (x.op y)) :=
          RsaHiddenOrderGroup.op_assoc aCanonical.1 bCanonical.1 xyCanonical.1
      _ = a.op (x.op (b.op y)) := by
          rw [← RsaHiddenOrderGroup.op_assoc bCanonical.1 xCanonical.1 yCanonical.1,
            RsaHiddenOrderGroup.op_comm b x,
            RsaHiddenOrderGroup.op_assoc xCanonical.1 bCanonical.1 yCanonical.1]
      _ = (a.op x).op (b.op y) :=
          (RsaHiddenOrderGroup.op_assoc aCanonical.1 xCanonical.1 byCanonical.1).symm
      _ = .identity := by
          rw [aInverts, bInverts,
            RsaHiddenOrderGroup.op_identity RsaHiddenOrderGroup.identity_canonical]
  exact ⟨x, y, aInverted, bInverted,
    RsaHiddenOrderGroup.inverse_eq_of_op_eq_identity (specOf x xCanonical) xCanonical aCanonical
      xInverts,
    RsaHiddenOrderGroup.inverse_eq_of_op_eq_identity (specOf _ abCanonical) abCanonical xyCanonical
      productInverts⟩

theorem inverse_laws_at_small :
    ∃ x y, (⟨2⟩ : RsaHiddenOrderGroup smallParams).inverse (extendedEuclid 10) = .ok x ∧
      (⟨3⟩ : RsaHiddenOrderGroup smallParams).inverse (extendedEuclid 10) = .ok y ∧
      x.inverse (extendedEuclid 10) = .ok ⟨2⟩ ∧
      ((⟨2⟩ : RsaHiddenOrderGroup smallParams).op ⟨3⟩).inverse (extendedEuclid 10) = .ok (x.op y) :=
  inverse_laws extendedEuclid_spec_small (by decide) (by decide) (by decide) (by decide)

end SealedBidAuctions.Hog
