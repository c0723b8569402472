import SealedBidAuctions.LazyTc.Transparent

/-!
Contract: what `LazyTC` guarantees to the auction house when its
collaborators keep their contracts.

Owns:
- the commit/open round trip: an honest commitment verifies with its own
  message and no other value, and force-opens to that message;
- that every force-opening verifies, on any commitment at all, and that the
  forced opening of an honest commitment accepts exactly the values its
  self-opening accepts;
- that verification is binding relative to `BasicTC`: two accepted openings
  that carry the same plaintext reveal the same value, so a bidder cannot have
  one bid accepted and another value, `None` included, accepted too.

Does not own: the behaviour of `force_open` and `ver_open` on plaintexts that
do not split (`Totality`).

## Why the split is the crux

`commit` appends `to_bytes_le(r)`, exactly `NUM_LIMBS * 8` bytes, and both
readers cut exactly that many bytes off the end and read them back with
`from_bytes_le` and `nat_to_f`. `splitPedOpening_commit` is that round trip;
the rest is bookkeeping of which branch of `ver_open` each opening reaches.
-/

set_option autoImplicit false

namespace SealedBidAuctions.LazyTc

open SealedBidAuctions.Rust

namespace LazyTC

variable {ε TimeParams TCComm TCOpening PedersenParams G F R : Type}
variable (L : LazyTC ε TimeParams TCComm TCOpening PedersenParams G F R)

/-- **Commit/open round trip.** An honest commitment to `m` verifies with
`Some(m)`, rejects every other claimed value with `Ok(false)`, `None`
included, and force-opens to `Some(m)`. -/
theorem commit_round_trip (basicCorrect : L.basicTc.Correct)
    (pedersenCorrect : L.pedersen.Correct) (lawful : L.scalar.Lawful)
    {rng rng' : R} {timePp : TimeParams} {pedPp : PedersenParams} {m ad : Bytes}
    {comm : Comm G TCComm} {opening : Opening TCOpening}
    (committed : L.commit rng timePp pedPp m ad = .ok ((comm, opening), rng')) :
    L.verOpen timePp pedPp comm ad (some m) opening = .ok true ∧
      (∀ v, v ≠ some m → L.verOpen timePp pedPp comm ad v opening = .ok false) ∧
      ∃ forced, L.forceOpen timePp pedPp comm ad = .ok (some m, forced) := by
  obtain ⟨r, rngMid, tcOpening, pedCommitted, tcCommitted, rfl⟩ := L.commit_eq_ok committed
  obtain ⟨tcVerified, forced, tcForced⟩ := basicCorrect _ _ _ _ _ _ _ tcCommitted
  have pedVerified := pedersenCorrect _ _ _ _ _ _ pedCommitted
  have split := L.splitPedOpening_commit lawful m r
  have verdict : ∀ v, L.verOpen timePp pedPp comm ad v
      ⟨tcOpening, some (m ++ (L.scalar.intoRepr r).toBytesLe)⟩ =
        .ok (v.elim false fun claimed => m == claimed) := fun v => by
    rw [L.verOpen_of_some tcVerified split pedVerified]
    cases v <;> rfl
  refine ⟨by rw [verdict]; simp, fun v differs => ?_, _,
    L.forceOpen_of_some tcForced split pedVerified⟩
  rw [verdict]
  cases v with
  | none => rfl
  | some claimed =>
      have different : m ≠ claimed := fun same => differs (by rw [same])
      simp [different]

theorem commit_round_trip_transparent :
    ∃ comm opening, transparent.commit 5 () () [7] [9] = .ok ((comm, opening), 6) ∧
      transparent.verOpen () () comm [9] (some [7]) opening = .ok true ∧
      transparent.verOpen () () comm [9] none opening = .ok false ∧
      ∃ forced, transparent.forceOpen () () comm [9] = .ok (some [7], forced) :=
  let roundTrip := commit_round_trip transparent transparentBasicTc_correct
    transparentPedersen_correct transparentScalar_lawful
    (rfl : transparent.commit 5 () () [7] [9] =
      .ok ((⟨([7], 5), ([7, 5, 0, 0, 0, 0, 0, 0, 0], [9])⟩,
        ⟨(), some [7, 5, 0, 0, 0, 0, 0, 0, 0]⟩), 6))
  ⟨_, _, rfl, roundTrip.1, roundTrip.2.1 none (by simp), roundTrip.2.2⟩

/-- **The forced opening of an honest commitment stands in for the self-opening.**
`force_open` recovers the same plaintext, and `ver_open` gives the same verdict
on every claimed value with either opening. -/
theorem forceOpen_interchangeable (basicCorrect : L.basicTc.Correct)
    (forceOpenVerifies : L.basicTc.ForceOpenVerifies) (pedersenCorrect : L.pedersen.Correct)
    (lawful : L.scalar.Lawful) {rng rng' : R} {timePp : TimeParams} {pedPp : PedersenParams}
    {m ad : Bytes} {comm : Comm G TCComm} {opening : Opening TCOpening}
    (committed : L.commit rng timePp pedPp m ad = .ok ((comm, opening), rng')) :
    ∃ forced, L.forceOpen timePp pedPp comm ad = .ok (some m, forced) ∧
      forced.tcM = opening.tcM ∧
      ∀ v, L.verOpen timePp pedPp comm ad v forced = L.verOpen timePp pedPp comm ad v opening := by
  obtain ⟨r, rngMid, tcOpening, pedCommitted, tcCommitted, rfl⟩ := L.commit_eq_ok committed
  obtain ⟨tcVerified, tcForcedOpening, tcForced⟩ := basicCorrect _ _ _ _ _ _ _ tcCommitted
  have split := L.splitPedOpening_commit lawful m r
  have pedVerified := pedersenCorrect _ _ _ _ _ _ pedCommitted
  refine ⟨_, L.forceOpen_of_some tcForced split pedVerified, rfl, fun v => ?_⟩
  rw [L.verOpen_of_some (forceOpenVerifies _ _ _ _ _ tcForced) split pedVerified,
    L.verOpen_of_some tcVerified split pedVerified]

theorem forceOpen_interchangeable_transparent :
    ∃ forced, transparent.forceOpen () () ⟨([7], 5), ([7, 5, 0, 0, 0, 0, 0, 0, 0], [9])⟩ [9] =
        .ok (some [7], forced) ∧ forced.tcM = some [7, 5, 0, 0, 0, 0, 0, 0, 0] ∧
      ∀ v, transparent.verOpen () () ⟨([7], 5), ([7, 5, 0, 0, 0, 0, 0, 0, 0], [9])⟩ [9] v forced =
        transparent.verOpen () () ⟨([7], 5), ([7, 5, 0, 0, 0, 0, 0, 0, 0], [9])⟩ [9] v
          ⟨(), some [7, 5, 0, 0, 0, 0, 0, 0, 0]⟩ :=
  forceOpen_interchangeable transparent transparentBasicTc_correct
    transparentBasicTc_forceOpenVerifies transparentPedersen_correct transparentScalar_lawful
    (rfl : transparent.commit 5 () () [7] [9] =
      .ok ((⟨([7], 5), ([7, 5, 0, 0, 0, 0, 0, 0, 0], [9])⟩,
        ⟨(), some [7, 5, 0, 0, 0, 0, 0, 0, 0]⟩), 6))

/-- **A force-opening always verifies**, on every commitment, adversarial and
malformed ones included: `ver_open` repeats the split and the Pedersen check
that `force_open` made, and reaches the same verdict in each of the three
branches (no plaintext, Pedersen valid, Pedersen invalid). -/
theorem forceOpen_verifies (forceOpenVerifies : L.basicTc.ForceOpenVerifies)
    {timePp : TimeParams} {pedPp : PedersenParams} {comm : Comm G TCComm} {ad : Bytes}
    {v : Option Bytes} {opening : Opening TCOpening}
    (opened : L.forceOpen timePp pedPp comm ad = .ok (v, opening)) :
    L.verOpen timePp pedPp comm ad v opening = .ok true := by
  obtain ⟨forced, noPlaintext, withPlaintext⟩ := L.forceOpen_eq_ok opened
  have tcVerified := forceOpenVerifies _ _ _ _ _ forced
  obtain ⟨tcOpening, tcM⟩ := opening
  cases tcM with
  | none =>
      rw [L.verOpen_of_none tcVerified, noPlaintext rfl]
      rfl
  | some t =>
      obtain ⟨mComputed, r, pedValid, split, pedResult, rfl⟩ := withPlaintext t rfl
      rw [L.verOpen_of_some tcVerified split pedResult]
      cases pedValid <;> simp

/-- The three branches on the transparent instance: under the wrong associated
data nothing decrypts; the honest commitment to `[7]` with opening `5` reveals
`Some([7])`; the same time lock under a Pedersen commitment that stores the
opening `6` reveals `None`. Each force-opening verifies. -/
theorem forceOpen_verifies_transparent :
    transparent.forceOpen () () ⟨([7], 5), ([7, 5, 0, 0, 0, 0, 0, 0, 0], [9])⟩ [8] =
        .ok (none, ⟨(), none⟩) ∧
      transparent.verOpen () () ⟨([7], 5), ([7, 5, 0, 0, 0, 0, 0, 0, 0], [9])⟩ [8] none
        ⟨(), none⟩ = .ok true ∧
    transparent.forceOpen () () ⟨([7], 5), ([7, 5, 0, 0, 0, 0, 0, 0, 0], [9])⟩ [9] =
        .ok (some [7], ⟨(), some [7, 5, 0, 0, 0, 0, 0, 0, 0]⟩) ∧
      transparent.verOpen () () ⟨([7], 5), ([7, 5, 0, 0, 0, 0, 0, 0, 0], [9])⟩ [9] (some [7])
        ⟨(), some [7, 5, 0, 0, 0, 0, 0, 0, 0]⟩ = .ok true ∧
    transparent.forceOpen () () ⟨([7], 6), ([7, 5, 0, 0, 0, 0, 0, 0, 0], [9])⟩ [9] =
        .ok (none, ⟨(), some [7, 5, 0, 0, 0, 0, 0, 0, 0]⟩) ∧
      transparent.verOpen () () ⟨([7], 6), ([7, 5, 0, 0, 0, 0, 0, 0, 0], [9])⟩ [9] none
        ⟨(), some [7, 5, 0, 0, 0, 0, 0, 0, 0]⟩ = .ok true :=
  ⟨rfl, forceOpen_verifies transparent transparentBasicTc_forceOpenVerifies rfl,
    rfl, forceOpen_verifies transparent transparentBasicTc_forceOpenVerifies rfl,
    rfl, forceOpen_verifies transparent transparentBasicTc_forceOpenVerifies rfl⟩

/-- Two accepted openings that carry the same plaintext accept the same value. -/
theorem verOpen_value_unique {timePp : TimeParams} {pedPp : PedersenParams}
    {comm : Comm G TCComm} {ad : Bytes} {v₁ v₂ : Option Bytes}
    {opening₁ opening₂ : Opening TCOpening}
    (first : L.verOpen timePp pedPp comm ad v₁ opening₁ = .ok true)
    (second : L.verOpen timePp pedPp comm ad v₂ opening₂ = .ok true)
    (samePlaintext : opening₁.tcM = opening₂.tcM) : v₁ = v₂ := by
  obtain ⟨-, noPlaintext₁, withPlaintext₁⟩ := L.verOpen_eq_ok_true first
  obtain ⟨-, noPlaintext₂, withPlaintext₂⟩ := L.verOpen_eq_ok_true second
  cases plaintext : opening₁.tcM with
  | none => rw [noPlaintext₁ plaintext, noPlaintext₂ (samePlaintext ▸ plaintext)]
  | some t =>
      obtain ⟨mComputed, r, pedValid, split, pedResult, rfl⟩ := withPlaintext₁ t plaintext
      obtain ⟨mComputed', r', pedValid', split', pedResult', rfl⟩ :=
        withPlaintext₂ t (samePlaintext ▸ plaintext)
      rw [split, Except.ok.injEq, Prod.mk.injEq] at split'
      obtain ⟨rfl, rfl⟩ := split'
      rw [pedResult, Except.ok.injEq] at pedResult'
      rw [pedResult']

/-- **Verification is binding relative to `BasicTC`.** Accepted openings with
the same plaintext reveal the same value; so when `BasicTC::ver_open` accepts
at most one plaintext per commitment, any two accepted openings of one
`LazyTC` commitment reveal the same value. -/
theorem verOpen_binding :
    (∀ (timePp : TimeParams) (pedPp : PedersenParams) (comm : Comm G TCComm) (ad : Bytes)
      (v₁ v₂ : Option Bytes) (opening₁ opening₂ : Opening TCOpening),
      L.verOpen timePp pedPp comm ad v₁ opening₁ = .ok true →
      L.verOpen timePp pedPp comm ad v₂ opening₂ = .ok true →
      opening₁.tcM = opening₂.tcM → v₁ = v₂) ∧
    (L.basicTc.Binding →
      ∀ (timePp : TimeParams) (pedPp : PedersenParams) (comm : Comm G TCComm) (ad : Bytes)
        (v₁ v₂ : Option Bytes) (opening₁ opening₂ : Opening TCOpening),
        L.verOpen timePp pedPp comm ad v₁ opening₁ = .ok true →
        L.verOpen timePp pedPp comm ad v₂ opening₂ = .ok true → v₁ = v₂) :=
  ⟨fun _ _ _ _ _ _ _ _ first second samePlaintext =>
    L.verOpen_value_unique first second samePlaintext,
   fun binding _ _ _ _ _ _ _ _ first second =>
    L.verOpen_value_unique first second
      (binding _ _ _ _ _ _ _ (L.verOpen_eq_ok_true first).1 (L.verOpen_eq_ok_true second).1)⟩

/-- On the tagged instance, the self-opening that `commit` returns and the
forced opening that `force_open` returns are distinct openings of one plaintext;
both accept `Some([7])`, and binding relates them through `BasicTC::ver_open`. -/
theorem verOpen_binding_transparent :
    transparentTagged.commit 5 () () [7] [9] =
        .ok ((⟨([7], 5), ([7, 5, 0, 0, 0, 0, 0, 0, 0], [9])⟩,
          ⟨false, some [7, 5, 0, 0, 0, 0, 0, 0, 0]⟩), 6) ∧
      transparentTagged.forceOpen () () ⟨([7], 5), ([7, 5, 0, 0, 0, 0, 0, 0, 0], [9])⟩ [9] =
        .ok (some [7], ⟨true, some [7, 5, 0, 0, 0, 0, 0, 0, 0]⟩) ∧
      (⟨false, some [7, 5, 0, 0, 0, 0, 0, 0, 0]⟩ : Opening Bool) ≠
        ⟨true, some [7, 5, 0, 0, 0, 0, 0, 0, 0]⟩ ∧
      transparentTagged.verOpen () () ⟨([7], 5), ([7, 5, 0, 0, 0, 0, 0, 0, 0], [9])⟩ [9]
        (some [7]) ⟨false, some [7, 5, 0, 0, 0, 0, 0, 0, 0]⟩ = .ok true ∧
      transparentTagged.verOpen () () ⟨([7], 5), ([7, 5, 0, 0, 0, 0, 0, 0, 0], [9])⟩ [9]
        (some [7]) ⟨true, some [7, 5, 0, 0, 0, 0, 0, 0, 0]⟩ = .ok true ∧
      (some [7] : Option Bytes) = some [7] :=
  ⟨rfl, rfl, by decide, rfl, rfl, (verOpen_binding transparentTagged).2 transparentBasicTc_binding
    () () ⟨([7], 5), ([7, 5, 0, 0, 0, 0, 0, 0, 0], [9])⟩ [9] (some [7]) (some [7])
    ⟨false, some [7, 5, 0, 0, 0, 0, 0, 0, 0]⟩ ⟨true, some [7, 5, 0, 0, 0, 0, 0, 0, 0]⟩ rfl rfl⟩

end LazyTC

end SealedBidAuctions.LazyTc
