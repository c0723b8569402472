import SealedBidAuctions.Hog.Signed

/-!
Contract: the normal form of `RsaHiddenOrderGroup<P>` over every sequence of
calls.

Owns: `Call`, the terms that a finite sequence of `from_nat`, `identity`,
`generator`, `default`, `op`, `power` and `inverse` calls builds, their
evaluation `Call.run`, and the invariant that every value they produce is in
normal form, exactly when `generator()` is.

Does not own: the laws of the operations (`Laws`).

## Why `generator` decides it

Every constructor but one ends by folding a residue, and `fold` always lands
in `[0, M/2]`. `generator()` alone returns `P::G` untouched, so a parameter
set with `M/2 < G < M` makes the group hand out an element that is not in
normal form, while `from_nat(G)` would have folded it. The unsigned group's
`generator()` goes through `from_nat`.
-/

set_option autoImplicit false

namespace SealedBidAuctions.Hog

open SealedBidAuctions.Rust

/-- The term a finite sequence of calls on the signed group computes: the
constructors are the leaves and the operations the nodes. -/
inductive Call where
  | fromNat (n : Int)
  | identity
  | generator
  | default
  | op (a b : Call)
  | power (a : Call) (e : Nat)
  | inverse (a : Call)
deriving DecidableEq, Repr

namespace Call

variable {P : RsaGroupParams}

/-- The element a call sequence produces, or how it fails. -/
def run (extendedEuclideanGcd : Int → Int → (Int × Int) × Int) :
    Call → Except (Fault RsaHOGError) (RsaHiddenOrderGroup P)
  | .fromNat n => Fault.lift (RsaHiddenOrderGroup.fromNat n)
  | .identity => .ok .identity
  | .generator => .ok .generator
  | .default => Fault.lift RsaHiddenOrderGroup.default
  | .op a b => do
      let x ← a.run extendedEuclideanGcd
      let y ← b.run extendedEuclideanGcd
      pure (x.op y)
  | .power a e => do
      let x ← a.run extendedEuclideanGcd
      pure (x.power e)
  | .inverse a => do
      let x ← a.run extendedEuclideanGcd
      x.inverse extendedEuclideanGcd

theorem canonical_of_lift {result : Option (RsaHiddenOrderGroup P)}
    {x : RsaHiddenOrderGroup P} (lifted : (Fault.lift result : Except (Fault RsaHOGError) _) = .ok x)
    (canonical : ∀ y, result = some y → y.Canonical) : x.Canonical := by
  cases result with
  | none => cases lifted
  | some y =>
      rw [Fault.lift_some, Except.ok.injEq] at lifted
      exact lifted ▸ canonical y rfl

/-- **Every call sequence ends in normal form when `generator()` does.** One
case per call: each is a step that keeps the invariant. -/
theorem run_canonical (extendedEuclideanGcd : Int → Int → (Int × Int) × Int)
    (generatorCanonical : (RsaHiddenOrderGroup.generator : RsaHiddenOrderGroup P).Canonical) :
    ∀ (c : Call) (x : RsaHiddenOrderGroup P), c.run extendedEuclideanGcd = .ok x → x.Canonical
  | .fromNat _, _, ran =>
      canonical_of_lift ran fun _ built => RsaHiddenOrderGroup.canonical_of_fromNat built
  | .identity, _, ran => by
      cases ran
      exact RsaHiddenOrderGroup.identity_canonical
  | .generator, _, ran => by
      cases ran
      exact generatorCanonical
  | .default, _, ran =>
      canonical_of_lift ran fun _ built => RsaHiddenOrderGroup.canonical_of_fromNat built
  | .op a b, _, ran => by
      obtain ⟨y, ranLeft, rest⟩ := except_bind_eq_ok.mp ran
      obtain ⟨z, ranRight, produced⟩ := except_bind_eq_ok.mp rest
      cases produced
      exact RsaHiddenOrderGroup.op_canonical
        (run_canonical extendedEuclideanGcd generatorCanonical a y ranLeft).1
        (run_canonical extendedEuclideanGcd generatorCanonical b z ranRight).1
  | .power _ e, _, ran => by
      obtain ⟨y, -, produced⟩ := except_bind_eq_ok.mp ran
      cases produced
      exact RsaHiddenOrderGroup.power_canonical e
  | .inverse _, _, ran => by
      obtain ⟨y, -, inverted⟩ := except_bind_eq_ok.mp ran
      exact RsaHiddenOrderGroup.canonical_of_inverse inverted

/-- The invariant holds over every run exactly when the one unfolded constructor
respects it. -/
theorem run_canonical_iff (extendedEuclideanGcd : Int → Int → (Int × Int) × Int) :
    (∀ (c : Call) (x : RsaHiddenOrderGroup P), c.run extendedEuclideanGcd = .ok x →
      x.Canonical) ↔ (RsaHiddenOrderGroup.generator : RsaHiddenOrderGroup P).Canonical :=
  ⟨fun always => always .generator _ rfl, run_canonical extendedEuclideanGcd⟩

end Call

/-- **`from_nat` identifies exactly the integers that agree up to sign.** -/
theorem RsaHiddenOrderGroup.fromNat_eq_fromNat_iff {P : RsaGroupParams} {a b : Int}
    (aPositive : 0 < a) (bPositive : 0 < b) :
    (RsaHiddenOrderGroup.fromNat a : Option (RsaHiddenOrderGroup P)) =
        RsaHiddenOrderGroup.fromNat b ↔
      a ≡ b [ZMOD P.M] ∨ a ≡ -b [ZMOD P.M] := by
  rw [RsaHiddenOrderGroup.fromNat_of_pos aPositive, RsaHiddenOrderGroup.fromNat_of_pos bPositive,
    Option.some.injEq, RsaHiddenOrderGroup.mk.injEq]
  exact fold_emod_eq_fold_emod_iff P.M_pos

theorem fromNat_eq_fromNat_iff_at_35 :
    (RsaHiddenOrderGroup.fromNat 3 : Option (RsaHiddenOrderGroup ⟨2, 35, by decide⟩)) =
      RsaHiddenOrderGroup.fromNat 32 :=
  (RsaHiddenOrderGroup.fromNat_eq_fromNat_iff (by decide) (by decide)).mpr (.inr (by decide))

/-- Group parameters whose generator lies in `(M/2, M)`: `M = 35`, `G = 33`. -/
def unfoldedGeneratorParams : RsaGroupParams := ⟨33, 35, by decide⟩

/-- At `M = 35`, `G = 33`, `generator()` returns `33`, which is not in normal
form, while `from_nat(33)` folds it to `2`. -/
theorem generator_not_canonical :
    0 < unfoldedGeneratorParams.G ∧ unfoldedGeneratorParams.G < unfoldedGeneratorParams.M ∧
      (RsaHiddenOrderGroup.generator : RsaHiddenOrderGroup unfoldedGeneratorParams).n = 33 ∧
      ¬ (RsaHiddenOrderGroup.generator : RsaHiddenOrderGroup unfoldedGeneratorParams).Canonical ∧
      (RsaHiddenOrderGroup.fromNat 33 : Option (RsaHiddenOrderGroup unfoldedGeneratorParams)) =
        some ⟨2⟩ :=
  ⟨by decide, by decide, rfl, by decide, rfl⟩

end SealedBidAuctions.Hog
