import SealedBidAuctions.LazyTc.Scheme

/-!
Contract: a transparent instantiation of the three collaborators of `LazyTC`
that satisfies every contract the theorems take them by.

Owns: `transparent`, in which the time-lock commitment stores its plaintext
and associated data in the clear, the Pedersen commitment stores the message
and the opening, and the scalar field is `Fin 251` in a single limb;
`transparentTagged`, the same scheme whose time-lock openings record whether
`commit` or `force_open` made them; and the proofs that both meet
`BasicTC.Correct`, `BasicTC.ForceOpenVerifies`, `BasicTC.Binding`,
`PedersenComm.Correct` and `ScalarField.Lawful`.

Does not own: any security property. The instances have none; they show that
the contracts can all hold at once, and their commitments, openings and
verdicts compute by `rfl`.
-/

set_option autoImplicit false

namespace SealedBidAuctions.LazyTc

open SealedBidAuctions.Rust SealedBidAuctions.BigInt

/-- The plaintext a transparent time-lock commitment opens to under `ad`: the
stored one when the associated data match, and none otherwise. -/
def transparentPlaintext (tcComm : Bytes × Bytes) (ad : Bytes) : Option Bytes :=
  if tcComm.2 = ad then some tcComm.1 else none

/-- A time-lock commitment that stores `(m, ad)` and opens only under `ad`.
`commit` hands out the opening `committed`, `force_open` the opening `forced`,
and `ver_open` reads neither. -/
def transparentBasicTc {TCOpening : Type} (committed forced : TCOpening) :
    BasicTC String Unit (Bytes × Bytes) TCOpening Nat where
  commit rng _ m ad := .ok (((m, ad), committed), rng)
  forceOpen _ tcComm ad := .ok (transparentPlaintext tcComm ad, forced)
  verOpen _ tcComm ad tcM _ := .ok (decide (tcM = transparentPlaintext tcComm ad))

/-- The field `Fin 251`, one limb wide; `nat_to_f` rejects values outside it. -/
def transparentScalar : ScalarField String (Fin 251) where
  NUM_LIMBS := 1
  intoRepr r := ⟨[UInt64.ofNat r.val], rfl⟩
  natToF x :=
    if inRange : 0 ≤ x ∧ x < 251 then .ok ⟨x.toNat, by omega⟩
    else .error (.error "not a field element")

/-- A Pedersen commitment that stores the message and the opening, drawing the
opening from the generator's counter. -/
def transparentPedersen : PedersenComm String Unit (Bytes × Nat) (Fin 251) Nat where
  commit rng _ m := .ok (((m, rng % 251), ⟨rng % 251, Nat.mod_lt _ (by decide)⟩), rng + 1)
  verOpen _ pedComm m r := .ok (decide (pedComm = (m, r.val)))

/-- The transparent `LazyTC`, with a single time-lock opening. -/
def transparent : LazyTC String Unit (Bytes × Bytes) Unit Unit (Bytes × Nat) (Fin 251) Nat :=
  ⟨transparentBasicTc () (), transparentPedersen, transparentScalar⟩

/-- The transparent `LazyTC` whose time-lock opening is `false` from `commit` and
`true` from `force_open`, so the bidder's self-opening and the auctioneer's
forced opening of one commitment differ. -/
def transparentTagged : LazyTC String Unit (Bytes × Bytes) Bool Unit (Bytes × Nat) (Fin 251) Nat :=
  ⟨transparentBasicTc false true, transparentPedersen, transparentScalar⟩

section BasicTc

variable {TCOpening : Type} {committed forced : TCOpening}

theorem transparentBasicTc_correct : (transparentBasicTc committed forced).Correct := by
  intro rng timePp m ad tcComm tcOpening rng' committed
  cases committed
  exact ⟨by simp [transparentBasicTc, transparentPlaintext],
    ⟨forced, by simp [transparentBasicTc, transparentPlaintext]⟩⟩

theorem transparentBasicTc_forceOpenVerifies :
    (transparentBasicTc committed forced).ForceOpenVerifies := by
  intro timePp tcComm ad tcM tcOpening forced
  cases forced
  simp [transparentBasicTc]

theorem transparentBasicTc_binding : (transparentBasicTc committed forced).Binding := by
  intro timePp tcComm ad tcM₁ tcM₂ tcOpening₁ tcOpening₂ first second
  simp only [transparentBasicTc, Except.ok.injEq, decide_eq_true_eq] at first second
  rw [first, second]

end BasicTc

theorem transparentPedersen_correct : transparentPedersen.Correct := by
  intro rng pedPp m pedComm r rng' committed
  cases committed
  simp [transparentPedersen]

theorem transparentScalar_lawful : transparentScalar.Lawful := by
  intro r
  have small : r.val < UInt64.size := lt_trans r.isLt (by decide)
  simp [transparentScalar, BigInteger.value, ofLimbsLe, UInt64.toNat_ofNat_of_lt small]

end SealedBidAuctions.LazyTc
