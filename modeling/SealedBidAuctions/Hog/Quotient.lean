import SealedBidAuctions.Hog.Laws

/-!
Contract: the signed group is the unsigned one taken up to sign.

Owns: `toSigned`, the fold read as a map from unsigned elements to signed
ones, and the proof that it commutes with every constructor and operation the
two implementations share: `from_nat`, `op`, `power` and `identity`.

Does not own: `generator` and `inverse`, whose bodies differ between the two
files (`generator` is not folded in the signed group).

This is a refinement statement: the unsigned implementation, read through
`toSigned`, computes exactly what the signed implementation computes, on every
input and not only on representatives in `[0, M)`.
-/

set_option autoImplicit false

namespace SealedBidAuctions.Hog

/-- `S(u)`: the signed element whose representative is the fold of `u.n`. -/
def toSigned (P : RsaGroupParams) {Q : UnsignedRsaGroupParams}
    (u : UnsignedRsaHiddenOrderGroup Q) : RsaHiddenOrderGroup P :=
  ⟨fold P.M (u.n % P.M)⟩

theorem toSigned_nonneg (P : RsaGroupParams) {Q : UnsignedRsaGroupParams}
    (u : UnsignedRsaHiddenOrderGroup Q) : 0 ≤ (toSigned P u).n :=
  fold_emod_nonneg P.M_pos u.n

section Refinement

variable (P : RsaGroupParams) {Q : UnsignedRsaGroupParams} (sameModulus : P.M = Q.M)
include sameModulus

theorem fromNat_toSigned (k : Int) :
    (RsaHiddenOrderGroup.fromNat k : Option (RsaHiddenOrderGroup P)) =
      (UnsignedRsaHiddenOrderGroup.fromNat k : Option (UnsignedRsaHiddenOrderGroup Q)).map
        (toSigned P) := by
  by_cases positive : 0 < k
  · rw [RsaHiddenOrderGroup.fromNat_of_pos positive,
      UnsignedRsaHiddenOrderGroup.fromNat_of_pos positive, Option.map_some', toSigned,
      ← sameModulus, Int.emod_emod]
  · rw [RsaHiddenOrderGroup.fromNat_of_nonpos (not_lt.mp positive),
      UnsignedRsaHiddenOrderGroup.fromNat_of_nonpos (not_lt.mp positive), Option.map_none']

theorem op_toSigned (u v : UnsignedRsaHiddenOrderGroup Q) :
    (toSigned P u).op (toSigned P v) = toSigned P (u.op v) := by
  ext
  rw [RsaHiddenOrderGroup.op_n_of_nonneg (toSigned_nonneg P u) (toSigned_nonneg P v)]
  apply fold_emod_congr P.M_pos
  have product : (u.op v).n ≡ u.n * v.n [ZMOD P.M] :=
    sameModulus ▸ tmod_modEq (u.n * v.n) Q.M
  exact ((signModEq_fold_emod u.n).mul (signModEq_fold_emod v.n)).trans (.inl product.symm)

theorem power_toSigned (u : UnsignedRsaHiddenOrderGroup Q) (e : Nat) :
    (toSigned P u).power e = toSigned P (u.power e) := by
  ext
  rw [RsaHiddenOrderGroup.power_n]
  apply fold_emod_congr P.M_pos
  have reduced : (u.power e).n ≡ u.n ^ e [ZMOD P.M] := by
    rw [UnsignedRsaHiddenOrderGroup.power_n, ← sameModulus]
    exact Int.mod_modEq _ _
  exact ((signModEq_fold_emod u.n).pow e).trans (.inl reduced.symm)

theorem identity_toSigned :
    (RsaHiddenOrderGroup.identity : RsaHiddenOrderGroup P) =
      toSigned P (UnsignedRsaHiddenOrderGroup.identity : UnsignedRsaHiddenOrderGroup Q) := by
  ext
  rw [toSigned, UnsignedRsaHiddenOrderGroup.identity_n,
    fold_emod_of_le zero_le_one (by have := P.two_le_M; omega) P.two_le_M]
  rfl

end Refinement

/-- **The fold is a homomorphism from the unsigned implementation onto the
signed one.** On a shared modulus, `from_nat`, `op`, `power` and `identity` of
the signed group are those of the unsigned group followed by `toSigned`. -/
theorem fold_homomorphism (P : RsaGroupParams) (Q : UnsignedRsaGroupParams)
    (sameModulus : P.M = Q.M) :
    (∀ k : Int, (RsaHiddenOrderGroup.fromNat k : Option (RsaHiddenOrderGroup P)) =
      (UnsignedRsaHiddenOrderGroup.fromNat k : Option (UnsignedRsaHiddenOrderGroup Q)).map
        (toSigned P)) ∧
    (∀ u v : UnsignedRsaHiddenOrderGroup Q,
      (toSigned P u).op (toSigned P v) = toSigned P (u.op v)) ∧
    (∀ (u : UnsignedRsaHiddenOrderGroup Q) (e : Nat),
      (toSigned P u).power e = toSigned P (u.power e)) ∧
    (RsaHiddenOrderGroup.identity : RsaHiddenOrderGroup P) =
      toSigned P (UnsignedRsaHiddenOrderGroup.identity : UnsignedRsaHiddenOrderGroup Q) :=
  ⟨fromNat_toSigned P sameModulus, op_toSigned P sameModulus, power_toSigned P sameModulus,
    identity_toSigned P sameModulus⟩

theorem fold_homomorphism_small :
    smallParams.M = smallUnsignedParams.M ∧
      (toSigned smallParams (⟨34⟩ : UnsignedRsaHiddenOrderGroup smallUnsignedParams)).op
          (toSigned smallParams (⟨20⟩ : UnsignedRsaHiddenOrderGroup smallUnsignedParams)) =
        toSigned smallParams ((⟨34⟩ : UnsignedRsaHiddenOrderGroup smallUnsignedParams).op ⟨20⟩) :=
  ⟨rfl, (fold_homomorphism smallParams smallUnsignedParams rfl).2.1 ⟨34⟩ ⟨20⟩⟩

end SealedBidAuctions.Hog
