import SealedBidAuctions.Hog.NormalForm
import SealedBidAuctions.Hog.Quotient

/-!
Contract: the unsigned group over every sequence of calls, and the fold as a
simulation of the signed group by the unsigned one over whole runs.

Owns:
- `Call.runUnsigned`, the evaluation of the call terms of `NormalForm` on
  `UnsignedRsaHiddenOrderGroup<Q>`;
- the range invariant `0 ≤ n < M` over every unsigned run, which, unlike the
  signed normal form, needs no condition on the parameters;
- `inverse` commuting with the fold, and the refinement over whole runs: the
  signed run of every call term is the unsigned run followed by `toSigned`,
  with the same `NotInvertible` errors and the same panics, exactly when the
  signed generator is the fold of the unsigned one.

Does not own: the single-operation homomorphism (`Quotient`).

## Why `inverse` needs the invariant

The two `inverse`s run the same `extended_euclidean_gcd` on different
representatives, `n` and `min(n, M - n)`, and return different Bézout
coefficients. They agree after the fold because both are inverses of the same
class and inverses are unique among normal-form elements; and they fail
together because `gcd(M - n, M) = gcd(n, M)` for `n` in `[0, M]`, which every
unsigned run guarantees.
-/

set_option autoImplicit false

namespace SealedBidAuctions.Hog

open SealedBidAuctions.Rust

namespace Call

variable {P : RsaGroupParams} {Q : UnsignedRsaGroupParams}

/-- The element a call sequence produces on the unsigned group, or how it fails. -/
def runUnsigned (extendedEuclideanGcd : Int → Int → (Int × Int) × Int) :
    Call → Except (Fault RsaHOGError) (UnsignedRsaHiddenOrderGroup Q)
  | .fromNat n => Fault.lift (UnsignedRsaHiddenOrderGroup.fromNat n)
  | .identity => .ok .identity
  | .generator => UnsignedRsaHiddenOrderGroup.generator
  | .default => Fault.lift UnsignedRsaHiddenOrderGroup.default
  | .op a b => do
      let x ← a.runUnsigned extendedEuclideanGcd
      let y ← b.runUnsigned extendedEuclideanGcd
      pure (x.op y)
  | .power a e => do
      let x ← a.runUnsigned extendedEuclideanGcd
      pure (x.power e)
  | .inverse a => do
      let x ← a.runUnsigned extendedEuclideanGcd
      x.inverse extendedEuclideanGcd

/-- **Every unsigned call sequence ends in `[0, M)`.** One case per call; no
condition on the parameters, since `generator()` goes through `from_nat`. -/
theorem runUnsigned_canonical (extendedEuclideanGcd : Int → Int → (Int × Int) × Int) :
    ∀ (c : Call) (x : UnsignedRsaHiddenOrderGroup Q),
      c.runUnsigned extendedEuclideanGcd = .ok x → x.Canonical
  | .fromNat _, _, ran => UnsignedRsaHiddenOrderGroup.canonical_of_fromNat (Fault.lift_eq_ok.mp ran)
  | .identity, _, ran => by
      cases ran
      exact UnsignedRsaHiddenOrderGroup.identity_canonical
  | .generator, _, ran => UnsignedRsaHiddenOrderGroup.canonical_of_generator ran
  | .default, _, ran => UnsignedRsaHiddenOrderGroup.canonical_of_fromNat (Fault.lift_eq_ok.mp ran)
  | .op a b, _, ran => by
      obtain ⟨y, ranLeft, rest⟩ := except_bind_eq_ok.mp ran
      obtain ⟨z, ranRight, produced⟩ := except_bind_eq_ok.mp rest
      cases produced
      exact UnsignedRsaHiddenOrderGroup.op_canonical
        (runUnsigned_canonical extendedEuclideanGcd a y ranLeft).1
        (runUnsigned_canonical extendedEuclideanGcd b z ranRight).1
  | .power _ e, _, ran => by
      obtain ⟨y, -, produced⟩ := except_bind_eq_ok.mp ran
      cases produced
      exact UnsignedRsaHiddenOrderGroup.power_canonical e
  | .inverse _, _, ran => by
      obtain ⟨y, -, inverted⟩ := except_bind_eq_ok.mp ran
      exact UnsignedRsaHiddenOrderGroup.canonical_of_inverse inverted

end Call

/-- At `M = 35`: `34 · 2 = 33`, whose inverse is `17`. -/
theorem runUnsigned_canonical_small :
    ∃ x, (Call.inverse (.op (.fromNat 34) .generator)).runUnsigned (Q := smallUnsignedParams)
      (extendedEuclid 10) = .ok x ∧ x.n = 17 ∧ x.Canonical :=
  have ran : (Call.inverse (.op (.fromNat 34) .generator)).runUnsigned (Q := smallUnsignedParams)
      (extendedEuclid 10) = .ok ⟨17⟩ := rfl
  ⟨⟨17⟩, ran, rfl, Call.runUnsigned_canonical _ _ _ ran⟩

/-! ## The fold over whole runs -/

theorem toSigned_canonical (P : RsaGroupParams) {Q : UnsignedRsaGroupParams}
    (u : UnsignedRsaHiddenOrderGroup Q) : (toSigned P u).Canonical :=
  RsaHiddenOrderGroup.canonical_fold u.n

theorem fault_lift_map {ε α β : Type} (f : α → β) (result : Option α) :
    (Fault.lift (result.map f) : Except (Fault ε) β) = (Fault.lift result).map f := by
  cases result <;> rfl

section Simulation

variable (P : RsaGroupParams) {Q : UnsignedRsaGroupParams} (sameModulus : P.M = Q.M)
variable {extendedEuclideanGcd : Int → Int → (Int × Int) × Int}
include sameModulus

/-- **`inverse` commutes with the fold** on every element in `[0, M)`: the same
`NotInvertible` error, or the fold of the unsigned inverse. -/
theorem inverse_toSigned
    (spec : ∀ a, 0 ≤ a → a < P.M → ExtendedGcdSpec extendedEuclideanGcd a P.M)
    {u : UnsignedRsaHiddenOrderGroup Q} (canonical : u.Canonical) :
    (toSigned P u).inverse extendedEuclideanGcd =
      (u.inverse extendedEuclideanGcd).map (toSigned P) := by
  have inRange : 0 ≤ u.n ∧ u.n < P.M := sameModulus ▸ canonical
  have folded : (toSigned P u).n = fold P.M u.n := by
    rw [toSigned, Int.emod_eq_of_lt inRange.1 inRange.2]
  have sameGcd : Int.gcd (toSigned P u).n P.M = Int.gcd u.n Q.M := by
    rw [folded, gcd_fold inRange.1 inRange.2.le, sameModulus]
  have signedCanonical := toSigned_canonical P u
  have signedSpec := spec _ signedCanonical.1 signedCanonical.n_lt
  have unsignedSpec : ExtendedGcdSpec extendedEuclideanGcd u.n Q.M :=
    sameModulus ▸ spec u.n inRange.1 inRange.2
  by_cases coprime : Int.gcd u.n Q.M = 1
  · obtain ⟨b, signedInverse, bCanonical, inverts, -⟩ :=
      RsaHiddenOrderGroup.inverse_of_coprime signedCanonical signedSpec (sameGcd ▸ coprime)
    obtain ⟨c, unsignedInverse, -, alsoInverts, -⟩ :=
      UnsignedRsaHiddenOrderGroup.inverse_of_coprime canonical unsignedSpec coprime
    have foldedInverts : (toSigned P u).op (toSigned P c) = RsaHiddenOrderGroup.identity := by
      rw [op_toSigned P sameModulus, alsoInverts, ← identity_toSigned P sameModulus]
    rw [signedInverse, unsignedInverse]
    exact congrArg Except.ok (RsaHiddenOrderGroup.eq_of_op_eq_identity signedCanonical.1
      bCanonical (toSigned_canonical P c) inverts foldedInverts)
  · rw [RsaHiddenOrderGroup.inverse_of_not_coprime signedSpec (sameGcd ▸ coprime),
      UnsignedRsaHiddenOrderGroup.inverse_of_not_coprime unsignedSpec coprime]
    rfl

/-- The generator step of the simulation: the signed `generator()` is the fold
of the unsigned one exactly when the unsigned parameters name a positive `G`
whose fold is the signed `G`. -/
theorem generator_toSigned_iff :
    (.ok RsaHiddenOrderGroup.generator : Except (Fault RsaHOGError) (RsaHiddenOrderGroup P)) =
        (UnsignedRsaHiddenOrderGroup.generator :
          Except (Fault RsaHOGError) (UnsignedRsaHiddenOrderGroup Q)).map (toSigned P) ↔
      ∃ g, Q.G = some g ∧ 0 < g ∧ P.G = fold P.M (g % P.M) := by
  unfold UnsignedRsaHiddenOrderGroup.generator
  split
  · rename_i g named
    simp only [named, Option.some.injEq, exists_eq_left']
    by_cases positive : 0 < g
    · simp only [UnsignedRsaHiddenOrderGroup.fromNat_of_pos positive, Fault.lift_some, Except.map,
        toSigned, ← sameModulus, Int.emod_emod, Except.ok.injEq, RsaHiddenOrderGroup.ext_iff,
        RsaHiddenOrderGroup.generator_n, positive, true_and]
    · simp [UnsignedRsaHiddenOrderGroup.fromNat_of_nonpos (not_lt.mp positive), Except.map,
        positive]
  · rename_i unnamed
    simp [unnamed, Except.map]

namespace Call

/-- **The unsigned group simulates the signed one over every call sequence.**
One case per call: each constructor and operation commutes with `toSigned`,
errors and panics included. -/
theorem run_eq_map_toSigned
    (spec : ∀ a, 0 ≤ a → a < P.M → ExtendedGcdSpec extendedEuclideanGcd a P.M)
    (generatorAgrees : (.ok RsaHiddenOrderGroup.generator :
        Except (Fault RsaHOGError) (RsaHiddenOrderGroup P)) =
      (UnsignedRsaHiddenOrderGroup.generator :
        Except (Fault RsaHOGError) (UnsignedRsaHiddenOrderGroup Q)).map (toSigned P)) :
    ∀ c : Call, (c.run extendedEuclideanGcd : Except (Fault RsaHOGError) (RsaHiddenOrderGroup P)) =
      (c.runUnsigned extendedEuclideanGcd :
        Except (Fault RsaHOGError) (UnsignedRsaHiddenOrderGroup Q)).map (toSigned P)
  | .fromNat n => by
      rw [run, runUnsigned, fromNat_toSigned P sameModulus, fault_lift_map]
  | .identity => by
      rw [run, runUnsigned, identity_toSigned P sameModulus]
      rfl
  | .generator => generatorAgrees
  | .default => by
      rw [run, runUnsigned, RsaHiddenOrderGroup.default, UnsignedRsaHiddenOrderGroup.default,
        fromNat_toSigned P sameModulus, fault_lift_map]
  | .op a b => by
      rw [run, runUnsigned, run_eq_map_toSigned spec generatorAgrees a,
        run_eq_map_toSigned spec generatorAgrees b]
      cases a.runUnsigned extendedEuclideanGcd with
      | error _ => rfl
      | ok u =>
          cases b.runUnsigned extendedEuclideanGcd with
          | error _ => rfl
          | ok v => exact congrArg Except.ok (op_toSigned P sameModulus u v)
  | .power a e => by
      rw [run, runUnsigned, run_eq_map_toSigned spec generatorAgrees a]
      cases a.runUnsigned extendedEuclideanGcd with
      | error _ => rfl
      | ok u => exact congrArg Except.ok (power_toSigned P sameModulus u e)
  | .inverse a => by
      rw [run, runUnsigned, run_eq_map_toSigned spec generatorAgrees a]
      cases ran : a.runUnsigned extendedEuclideanGcd with
      | error _ => rfl
      | ok u => exact inverse_toSigned P sameModulus spec (runUnsigned_canonical _ a u ran)

/-- **The fold is a refinement of the signed group by the unsigned one over
whole runs, exactly when the generators agree.** On a shared modulus and
`extended_euclidean_gcd`, every call sequence run on the signed group gives the
unsigned run followed by `toSigned`, with the same errors and panics, if and
only if the unsigned parameters name a positive `G` whose fold is the signed
`G`. -/
theorem run_eq_map_toSigned_iff
    (spec : ∀ a, 0 ≤ a → a < P.M → ExtendedGcdSpec extendedEuclideanGcd a P.M) :
    (∀ c : Call,
      (c.run extendedEuclideanGcd : Except (Fault RsaHOGError) (RsaHiddenOrderGroup P)) =
        (c.runUnsigned extendedEuclideanGcd :
          Except (Fault RsaHOGError) (UnsignedRsaHiddenOrderGroup Q)).map (toSigned P)) ↔
      ∃ g, Q.G = some g ∧ 0 < g ∧ P.G = fold P.M (g % P.M) :=
  ⟨fun always => (generator_toSigned_iff P sameModulus).mp (always .generator),
    fun agrees => run_eq_map_toSigned P sameModulus spec
      ((generator_toSigned_iff P sameModulus).mpr agrees)⟩

end Call

end Simulation

theorem run_eq_map_toSigned_iff_small :
    smallParams.M = smallUnsignedParams.M ∧
      (∀ a, 0 ≤ a → a < smallParams.M → ExtendedGcdSpec (extendedEuclid 10) a smallParams.M) ∧
      ∀ c : Call,
        (c.run (extendedEuclid 10) : Except (Fault RsaHOGError) (RsaHiddenOrderGroup smallParams)) =
          (c.runUnsigned (extendedEuclid 10) : Except (Fault RsaHOGError)
            (UnsignedRsaHiddenOrderGroup smallUnsignedParams)).map (toSigned smallParams) :=
  ⟨rfl, extendedEuclid_spec_small, (Call.run_eq_map_toSigned_iff smallParams rfl
    extendedEuclid_spec_small).mpr ⟨2, rfl, by decide, by decide⟩⟩

end SealedBidAuctions.Hog
