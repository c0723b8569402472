import SealedBidAuctions.Core.BigInt

/-!
Contract: the lazy timed commitment of `lazy_tc.rs`.

Owns:
- the interfaces of the three collaborators `LazyTC` is generic over:
  `BasicTC`, `PedersenComm`, and the Pedersen group's scalar field with
  `rsa::bigint::nat_to_f`; and the contracts the theorems take them by;
- `Comm`, `Opening`, and `LazyTC::commit`, `force_open` and `ver_open`;
- `splitPedOpening`, the split of a plaintext into message and Pedersen
  opening that `force_open` and `ver_open` each perform, with its spec lemmas.

Does not own: `gen_pedersen_params`, `gen_time_params` and `ver_time_params`,
which only forward to the collaborators.

Every call returns `Except (Fault ε)`: an `Err` of the crate's error type, or a
panic. The collaborators are parameters, so nothing here assumes they cannot
fail.
-/

set_option autoImplicit false

namespace SealedBidAuctions.LazyTc

open SealedBidAuctions.Rust SealedBidAuctions.BigInt

/-- `BasicTC`: the time-lock commitment, with the random generator threaded
through `commit`. -/
structure BasicTC (ε TimeParams TCComm TCOpening R : Type) where
  commit : R → TimeParams → Bytes → Bytes → Except (Fault ε) ((TCComm × TCOpening) × R)
  forceOpen : TimeParams → TCComm → Bytes → Except (Fault ε) (Option Bytes × TCOpening)
  verOpen : TimeParams → TCComm → Bytes → Option Bytes → TCOpening → Except (Fault ε) Bool

/-- `PedersenComm`: commitment to a message with opening `r` in the scalar
field `F`. -/
structure PedersenComm (ε PedersenParams G F R : Type) where
  commit : R → PedersenParams → Bytes → Except (Fault ε) ((G × F) × R)
  verOpen : PedersenParams → G → Bytes → F → Except (Fault ε) Bool

/-- The scalar field of the Pedersen group: `PrimeField::into_repr`, the limb
count of its `BigInt` representation, and `rsa::bigint::nat_to_f`. -/
structure ScalarField (ε F : Type) where
  NUM_LIMBS : Nat
  intoRepr : F → BigInteger NUM_LIMBS
  natToF : Int → Except (Fault ε) F

/-- `LazyTC<G, PoEP, RsaP, H, H2P>`: its type parameters fix the three
collaborators. -/
structure LazyTC (ε TimeParams TCComm TCOpening PedersenParams G F R : Type) where
  basicTc : BasicTC ε TimeParams TCComm TCOpening R
  pedersen : PedersenComm ε PedersenParams G F R
  scalar : ScalarField ε F

/-- `Comm`: the Pedersen commitment and the time-lock commitment. -/
structure Comm (G TCComm : Type) where
  pedComm : G
  tcComm : TCComm
deriving DecidableEq, Repr

/-- `Opening`: the time-lock opening and, when known, the plaintext
`m ‖ r` it opens to. -/
structure Opening (TCOpening : Type) where
  tcOpening : TCOpening
  tcM : Option Bytes
deriving DecidableEq, Repr

/-! ## Collaborator contracts -/

section Contracts

variable {ε TimeParams TCComm TCOpening PedersenParams G F R : Type}

/-- An honest `BasicTC` commitment verifies with its own plaintext and
opening, and force-opens to that plaintext. -/
def BasicTC.Correct (basicTc : BasicTC ε TimeParams TCComm TCOpening R) : Prop :=
  ∀ rng timePp m ad tcComm tcOpening rng',
    basicTc.commit rng timePp m ad = .ok ((tcComm, tcOpening), rng') →
      basicTc.verOpen timePp tcComm ad (some m) tcOpening = .ok true ∧
        ∃ forced, basicTc.forceOpen timePp tcComm ad = .ok (some m, forced)

/-- `BasicTC::ver_open` accepts whatever `BasicTC::force_open` returns, on any
commitment. -/
def BasicTC.ForceOpenVerifies (basicTc : BasicTC ε TimeParams TCComm TCOpening R) : Prop :=
  ∀ timePp tcComm ad tcM tcOpening,
    basicTc.forceOpen timePp tcComm ad = .ok (tcM, tcOpening) →
      basicTc.verOpen timePp tcComm ad tcM tcOpening = .ok true

/-- `BasicTC::ver_open` accepts at most one plaintext per commitment. -/
def BasicTC.Binding (basicTc : BasicTC ε TimeParams TCComm TCOpening R) : Prop :=
  ∀ timePp tcComm ad tcM₁ tcM₂ tcOpening₁ tcOpening₂,
    basicTc.verOpen timePp tcComm ad tcM₁ tcOpening₁ = .ok true →
      basicTc.verOpen timePp tcComm ad tcM₂ tcOpening₂ = .ok true → tcM₁ = tcM₂

/-- An honest Pedersen commitment verifies with its own message and opening. -/
def PedersenComm.Correct (pedersen : PedersenComm ε PedersenParams G F R) : Prop :=
  ∀ rng pedPp m pedComm r rng',
    pedersen.commit rng pedPp m = .ok ((pedComm, r), rng') →
      pedersen.verOpen pedPp pedComm m r = .ok true

/-- `nat_to_f` inverts `into_repr`. -/
def ScalarField.Lawful (scalar : ScalarField ε F) : Prop :=
  ∀ r, scalar.natToF (scalar.intoRepr r).value = .ok r

end Contracts

namespace LazyTC

variable {ε TimeParams TCComm TCOpening PedersenParams G F R : Type}
variable (L : LazyTC ε TimeParams TCComm TCOpening PedersenParams G F R)

/-- `<G::ScalarField as PrimeField>::BigInt::NUM_LIMBS * 8`. -/
def fBytes : Nat := L.scalar.NUM_LIMBS * 8

/-- `commit`: a Pedersen commitment to `m`, then a time-lock commitment to
`m ‖ to_bytes_le(r)`. -/
def commit (rng : R) (timePp : TimeParams) (pedPp : PedersenParams) (m ad : Bytes) :
    Except (Fault ε) ((Comm G TCComm × Opening TCOpening) × R) := do
  let ((pedComm, pedOpening), rng) ← L.pedersen.commit rng pedPp m
  let tcM := m ++ (L.scalar.intoRepr pedOpening).toBytesLe
  let ((tcComm, tcOpening), rng) ← L.basicTc.commit rng timePp tcM ad
  pure ((⟨pedComm, tcComm⟩, ⟨tcOpening, some tcM⟩), rng)

/-- The block `force_open` and `ver_open` each run on a plaintext:
`split_off(len - f_bytes)`, then `nat_to_f` of the suffix read little-endian.
The result is the prefix and the Pedersen opening. On a plaintext shorter than
`f_bytes` the subtraction panics in a build with overflow checks; in a release
build it wraps past the length, and `split_off` panics instead, so the split
panics in either build. -/
def splitPedOpening (tcM : Bytes) : Except (Fault ε) (Bytes × F) := do
  let mid ← Fault.lift (usizeSub tcM.length L.fBytes)
  let (m, suffix) ← Fault.lift (splitOff tcM mid)
  let pedOpening ← L.scalar.natToF (fromBytesLe .Plus suffix)
  pure (m, pedOpening)

/-- `force_open`: solve the time lock; if it yields a plaintext, return its
message exactly when the Pedersen commitment opens to it. -/
def forceOpen (timePp : TimeParams) (pedPp : PedersenParams) (comm : Comm G TCComm)
    (ad : Bytes) : Except (Fault ε) (Option Bytes × Opening TCOpening) := do
  let (tcM, tcOpening) ← L.basicTc.forceOpen timePp comm.tcComm ad
  match tcM with
  | some tcMInner =>
      let (m, pedOpening) ← L.splitPedOpening tcMInner
      let pedValid ← L.pedersen.verOpen pedPp comm.pedComm m pedOpening
      if pedValid then pure (some m, ⟨tcOpening, tcM⟩)
      else pure (none, ⟨tcOpening, tcM⟩)
  | none => pure (none, ⟨tcOpening, tcM⟩)

/-- `ver_open`: check the time-lock opening, then the claimed value against
the plaintext it carries. -/
def verOpen (timePp : TimeParams) (pedPp : PedersenParams) (comm : Comm G TCComm)
    (ad : Bytes) (m : Option Bytes) (opening : Opening TCOpening) : Except (Fault ε) Bool := do
  let tcValid ← L.basicTc.verOpen timePp comm.tcComm ad opening.tcM opening.tcOpening
  match opening.tcM with
  | some tcM =>
      let (mComputed, pedOpening) ← L.splitPedOpening tcM
      let pedValid ← L.pedersen.verOpen pedPp comm.pedComm mComputed pedOpening
      match m with
      | some m => pure (tcValid && pedValid && mComputed == m)
      | none => pure (tcValid && !pedValid)
  | none => pure (tcValid && m.isNone)

/-! ## Spec lemmas -/

/-- **The split, on a plaintext of the right shape.** `m ‖ s` with
`|s| = f_bytes` splits into `m` and `nat_to_f` of `s`. -/
theorem splitPedOpening_append (m suffix : Bytes) (width : suffix.length = L.fBytes) :
    L.splitPedOpening (m ++ suffix) =
      L.scalar.natToF (fromBytesLe .Plus suffix) >>= fun pedOpening => pure (m, pedOpening) := by
  have cut := splitOff_append m suffix
  rw [width] at cut
  rw [splitPedOpening, usizeSub_of_le (by simp [← width]), Fault.lift_some, except_ok_bind,
    cut, Fault.lift_some, except_ok_bind]

/-- **The split panics on a short plaintext.** -/
theorem splitPedOpening_short {tcM : Bytes} (short : tcM.length < L.fBytes) :
    L.splitPedOpening tcM = .error .panic := by
  rw [splitPedOpening, usizeSub_of_lt short, Fault.lift_none, except_error_bind]

/-- **An honest plaintext splits back into the message and the opening.** -/
theorem splitPedOpening_commit (lawful : L.scalar.Lawful) (m : Bytes) (r : F) :
    L.splitPedOpening (m ++ (L.scalar.intoRepr r).toBytesLe) = .ok (m, r) := by
  rw [L.splitPedOpening_append m _ (BigInteger.length_toBytesLe _), fromBytesLe_plus,
    BigInteger.ofBytesLe_toBytesLe, lawful r]
  rfl

section Calls

variable {timePp : TimeParams} {pedPp : PedersenParams} {comm : Comm G TCComm} {ad : Bytes}
variable {tcOpening : TCOpening} {t mComputed : Bytes} {r : F}

/-- **What `commit` returns.** -/
theorem commit_eq_ok {rng rng' : R} {m : Bytes} {opening : Opening TCOpening}
    (committed : L.commit rng timePp pedPp m ad = .ok ((comm, opening), rng')) :
    ∃ r rngMid tcOpening, L.pedersen.commit rng pedPp m = .ok ((comm.pedComm, r), rngMid) ∧
      L.basicTc.commit rngMid timePp (m ++ (L.scalar.intoRepr r).toBytesLe) ad =
        .ok ((comm.tcComm, tcOpening), rng') ∧
      opening = ⟨tcOpening, some (m ++ (L.scalar.intoRepr r).toBytesLe)⟩ := by
  obtain ⟨⟨⟨pedComm, r⟩, rngMid⟩, pedCommitted, rest⟩ := except_bind_eq_ok.mp committed
  obtain ⟨⟨⟨tcComm, tcOpening⟩, rngEnd⟩, tcCommitted, produced⟩ := except_bind_eq_ok.mp rest
  cases produced
  exact ⟨r, rngMid, tcOpening, pedCommitted, tcCommitted, rfl⟩

theorem forceOpen_of_none
    (forced : L.basicTc.forceOpen timePp comm.tcComm ad = .ok (none, tcOpening)) :
    L.forceOpen timePp pedPp comm ad = .ok (none, ⟨tcOpening, none⟩) := by
  rw [forceOpen, forced]
  rfl

theorem forceOpen_of_some
    (forced : L.basicTc.forceOpen timePp comm.tcComm ad = .ok (some t, tcOpening))
    (split : L.splitPedOpening t = .ok (mComputed, r)) {pedValid : Bool}
    (opened : L.pedersen.verOpen pedPp comm.pedComm mComputed r = .ok pedValid) :
    L.forceOpen timePp pedPp comm ad =
      .ok (if pedValid then some mComputed else none, ⟨tcOpening, some t⟩) := by
  rw [forceOpen, forced, except_ok_bind]
  simp only [split, except_ok_bind, opened]
  cases pedValid <;> rfl

theorem forceOpen_of_split_error
    (forced : L.basicTc.forceOpen timePp comm.tcComm ad = .ok (some t, tcOpening))
    {fault : Fault ε} (split : L.splitPedOpening t = .error fault) :
    L.forceOpen timePp pedPp comm ad = .error fault := by
  rw [forceOpen, forced, except_ok_bind]
  simp only [split, except_error_bind]

/-- **What a successful `force_open` did.** The opening carries the time-lock
result unchanged; the value is `None` without a plaintext, and otherwise
decided by the Pedersen check on the split plaintext. -/
theorem forceOpen_eq_ok {v : Option Bytes} {opening : Opening TCOpening}
    (opened : L.forceOpen timePp pedPp comm ad = .ok (v, opening)) :
    L.basicTc.forceOpen timePp comm.tcComm ad = .ok (opening.tcM, opening.tcOpening) ∧
      (opening.tcM = none → v = none) ∧
      ∀ t, opening.tcM = some t → ∃ mComputed r pedValid,
        L.splitPedOpening t = .ok (mComputed, r) ∧
        L.pedersen.verOpen pedPp comm.pedComm mComputed r = .ok pedValid ∧
        v = if pedValid then some mComputed else none := by
  obtain ⟨⟨tcM, tcOpening⟩, forced, rest⟩ := except_bind_eq_ok.mp opened
  cases tcM with
  | none =>
      rw [L.forceOpen_of_none forced] at opened
      cases opened
      exact ⟨forced, fun _ => rfl, (fun _ absurd => nomatch absurd)⟩
  | some t =>
      obtain ⟨⟨mComputed, r⟩, split, rest⟩ := except_bind_eq_ok.mp rest
      obtain ⟨pedValid, pedResult, -⟩ := except_bind_eq_ok.mp rest
      rw [L.forceOpen_of_some forced split pedResult] at opened
      cases opened
      refine ⟨forced, (fun absurd => nomatch absurd), ?_⟩
      rintro _ ⟨⟩
      exact ⟨mComputed, r, pedValid, split, pedResult, rfl⟩

theorem verOpen_of_none {tcValid : Bool} {v : Option Bytes}
    (checked : L.basicTc.verOpen timePp comm.tcComm ad none tcOpening = .ok tcValid) :
    L.verOpen timePp pedPp comm ad v ⟨tcOpening, none⟩ = .ok (tcValid && v.isNone) := by
  rw [verOpen, checked]
  rfl

theorem verOpen_of_some {tcValid pedValid : Bool} {v : Option Bytes}
    (checked : L.basicTc.verOpen timePp comm.tcComm ad (some t) tcOpening = .ok tcValid)
    (split : L.splitPedOpening t = .ok (mComputed, r))
    (opened : L.pedersen.verOpen pedPp comm.pedComm mComputed r = .ok pedValid) :
    L.verOpen timePp pedPp comm ad v ⟨tcOpening, some t⟩ =
      .ok (v.elim (tcValid && !pedValid) fun m => tcValid && pedValid && mComputed == m) := by
  rw [verOpen, checked, except_ok_bind]
  simp only [split, except_ok_bind, opened]
  cases v <;> rfl

theorem verOpen_of_split_error {tcValid : Bool} {v : Option Bytes}
    (checked : L.basicTc.verOpen timePp comm.tcComm ad (some t) tcOpening = .ok tcValid)
    {fault : Fault ε} (split : L.splitPedOpening t = .error fault) :
    L.verOpen timePp pedPp comm ad v ⟨tcOpening, some t⟩ = .error fault := by
  rw [verOpen, checked, except_ok_bind]
  simp only [split, except_error_bind]

/-- A plaintext shorter than `f_bytes` makes `force_open` panic in its split. -/
theorem forceOpen_of_short
    (forced : L.basicTc.forceOpen timePp comm.tcComm ad = .ok (some t, tcOpening))
    (short : t.length < L.fBytes) : L.forceOpen timePp pedPp comm ad = .error .panic :=
  L.forceOpen_of_split_error forced (L.splitPedOpening_short short)

/-- A plaintext shorter than `f_bytes` makes `ver_open` panic in its split, for
every claimed value. -/
theorem verOpen_of_short {tcValid : Bool} {v : Option Bytes}
    (checked : L.basicTc.verOpen timePp comm.tcComm ad (some t) tcOpening = .ok tcValid)
    (short : t.length < L.fBytes) :
    L.verOpen timePp pedPp comm ad v ⟨tcOpening, some t⟩ = .error .panic :=
  L.verOpen_of_split_error checked (L.splitPedOpening_short short)

/-- **What an accepting `ver_open` checked.** The time-lock opening verified;
without a plaintext the claimed value is `None`; with one, the split succeeded
and the claimed value is the message exactly when the Pedersen check passed. -/
theorem verOpen_eq_ok_true {v : Option Bytes} {opening : Opening TCOpening}
    (accepted : L.verOpen timePp pedPp comm ad v opening = .ok true) :
    L.basicTc.verOpen timePp comm.tcComm ad opening.tcM opening.tcOpening = .ok true ∧
      (opening.tcM = none → v = none) ∧
      ∀ t, opening.tcM = some t → ∃ mComputed r pedValid,
        L.splitPedOpening t = .ok (mComputed, r) ∧
        L.pedersen.verOpen pedPp comm.pedComm mComputed r = .ok pedValid ∧
        v = if pedValid then some mComputed else none := by
  obtain ⟨tcOpening, tcM⟩ := opening
  obtain ⟨tcValid, checked, rest⟩ := except_bind_eq_ok.mp accepted
  cases tcM with
  | none =>
      rw [L.verOpen_of_none checked] at accepted
      cases tcValid <;> cases v <;> simp_all
  | some t =>
      obtain ⟨⟨mComputed, r⟩, split, rest⟩ := except_bind_eq_ok.mp rest
      obtain ⟨pedValid, pedResult, -⟩ := except_bind_eq_ok.mp rest
      rw [L.verOpen_of_some checked split pedResult, Except.ok.injEq] at accepted
      have decided : tcValid = true ∧ v = if pedValid then some mComputed else none := by
        cases v <;> cases tcValid <;> cases pedValid <;> simp_all
      obtain ⟨rfl, decided⟩ := decided
      refine ⟨checked, (fun absurd => nomatch absurd), ?_⟩
      rintro _ ⟨⟩
      exact ⟨mComputed, r, pedValid, split, pedResult, decided⟩

end Calls

end LazyTC

end SealedBidAuctions.LazyTc
