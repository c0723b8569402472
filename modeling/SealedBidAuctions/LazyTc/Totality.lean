import SealedBidAuctions.LazyTc.Transparent

/-!
Contract: how `force_open` and `ver_open` end on plaintexts an adversary
chooses.

Owns:
- that once `BasicTC` and `PedersenComm` return `Ok`, a plaintext of at least
  `NUM_LIMBS * 8` bytes makes both calls fail only where `nat_to_f` rejects
  the suffix, its `Err` passed on by `?`; otherwise `force_open` returns `Ok`,
  with `Some(m)` exactly when the plaintext is `m ‖ s` and the Pedersen
  commitment opens to `(m, nat_to_f(s))`;
- the plaintexts that end this way and the ones that panic: a plaintext splits
  only when it is at least `NUM_LIMBS * 8` bytes long (`wide_of_split`).

Does not own: the honest path (`Correctness`), or the panic of both calls on a
shorter plaintext, which is a spec lemma of `Scheme` (`forceOpen_of_short`,
`verOpen_of_short`).
-/

set_option autoImplicit false

namespace SealedBidAuctions.LazyTc

open SealedBidAuctions.Rust SealedBidAuctions.BigInt

/-- A plaintext at least `width` long ends in `m ‖ s` with `|s| = width` only
when `m` and `s` are its cut at `len - width`. -/
theorem exists_append_iff {width : Nat} {t m : Bytes} (wide : width ≤ t.length)
    {P : Bytes → Prop} :
    (∃ s, t = m ++ s ∧ s.length = width ∧ P s) ↔
      m = t.take (t.length - width) ∧ P (t.drop (t.length - width)) := by
  constructor
  · rintro ⟨s, rfl, rfl, holds⟩
    have prefixLength : (m ++ s).length - s.length = m.length := by simp
    rw [prefixLength, List.take_left' rfl, List.drop_left' rfl]
    exact ⟨rfl, holds⟩
  · rintro ⟨rfl, holds⟩
    exact ⟨_, (List.take_append_drop _ _).symm, by rw [List.length_drop]; omega, holds⟩

namespace LazyTC

variable {ε TimeParams TCComm TCOpening PedersenParams G F R : Type}
variable (L : LazyTC ε TimeParams TCComm TCOpening PedersenParams G F R)

/-- The split of a plaintext at least `f_bytes` long, with the cut made explicit. -/
theorem splitPedOpening_of_wide {t : Bytes} (wide : L.fBytes ≤ t.length) :
    L.splitPedOpening t =
      L.scalar.natToF (fromBytesLe .Plus (t.drop (t.length - L.fBytes))) >>=
        fun r => pure (t.take (t.length - L.fBytes), r) := by
  conv_lhs => rw [← List.take_append_drop (t.length - L.fBytes) t]
  exact L.splitPedOpening_append _ _ (by rw [List.length_drop]; omega)

section Adversarial

variable {timePp : TimeParams} {pedPp : PedersenParams} {comm : Comm G TCComm} {ad : Bytes}
variable {tcOpening : TCOpening}

/-- On a wide plaintext, `force_open` fails exactly with `nat_to_f`'s error. -/
theorem forceOpen_eq_error_iff_of_some {t : Bytes}
    (forced : L.basicTc.forceOpen timePp comm.tcComm ad = .ok (some t, tcOpening))
    (wide : L.fBytes ≤ t.length)
    (pedersenTotal : ∀ m r, ∃ pedValid, L.pedersen.verOpen pedPp comm.pedComm m r = .ok pedValid)
    (fault : Fault ε) :
    L.forceOpen timePp pedPp comm ad = .error fault ↔
      L.scalar.natToF (fromBytesLe .Plus (t.drop (t.length - L.fBytes))) = .error fault := by
  cases parsed : L.scalar.natToF (fromBytesLe .Plus (t.drop (t.length - L.fBytes))) with
  | error rejected =>
      have split : L.splitPedOpening t = .error rejected := by
        rw [L.splitPedOpening_of_wide wide, parsed, except_error_bind]
      rw [L.forceOpen_of_split_error forced split, Except.error.injEq, Except.error.injEq]
  | ok r =>
      have split : L.splitPedOpening t = .ok (t.take (t.length - L.fBytes), r) := by
        rw [L.splitPedOpening_of_wide wide, parsed, except_ok_bind]
        rfl
      obtain ⟨pedValid, opened⟩ := pedersenTotal (t.take (t.length - L.fBytes)) r
      rw [L.forceOpen_of_some forced split opened]
      exact ⟨Except.noConfusion, Except.noConfusion⟩

/-- On a wide plaintext, `ver_open` fails exactly with `nat_to_f`'s error. -/
theorem verOpen_eq_error_iff_of_some {t : Bytes} {tcValid : Bool} {v : Option Bytes}
    (checked : L.basicTc.verOpen timePp comm.tcComm ad (some t) tcOpening = .ok tcValid)
    (wide : L.fBytes ≤ t.length)
    (pedersenTotal : ∀ m r, ∃ pedValid, L.pedersen.verOpen pedPp comm.pedComm m r = .ok pedValid)
    (fault : Fault ε) :
    L.verOpen timePp pedPp comm ad v ⟨tcOpening, some t⟩ = .error fault ↔
      L.scalar.natToF (fromBytesLe .Plus (t.drop (t.length - L.fBytes))) = .error fault := by
  cases parsed : L.scalar.natToF (fromBytesLe .Plus (t.drop (t.length - L.fBytes))) with
  | error rejected =>
      have split : L.splitPedOpening t = .error rejected := by
        rw [L.splitPedOpening_of_wide wide, parsed, except_error_bind]
      rw [L.verOpen_of_split_error checked split, Except.error.injEq, Except.error.injEq]
  | ok r =>
      have split : L.splitPedOpening t = .ok (t.take (t.length - L.fBytes), r) := by
        rw [L.splitPedOpening_of_wide wide, parsed, except_ok_bind]
        rfl
      obtain ⟨pedValid, opened⟩ := pedersenTotal (t.take (t.length - L.fBytes)) r
      rw [L.verOpen_of_some checked split opened]
      exact ⟨Except.noConfusion, Except.noConfusion⟩

/-- On the transparent instance, where `BasicTC` and `PedersenComm` always
return `Ok`, an empty plaintext makes `force_open` and `ver_open` panic, and a
plaintext whose last eight bytes encode `255`, outside `Fin 251`, makes
`force_open` return the `Err` of `nat_to_f`. -/
theorem forceOpen_fails_on_adversarial_plaintexts :
    transparent.basicTc.forceOpen () ([], [9]) [9] = .ok (some [], ()) ∧
      transparent.forceOpen () () ⟨([], 0), ([], [9])⟩ [9] = .error .panic ∧
    transparent.basicTc.verOpen () ([], [9]) [9] (some []) () = .ok true ∧
      transparent.verOpen () () ⟨([], 0), ([], [9])⟩ [9] none ⟨(), some []⟩ = .error .panic ∧
    transparent.basicTc.forceOpen () ([7, 255, 0, 0, 0, 0, 0, 0, 0], [9]) [9] =
        .ok (some [7, 255, 0, 0, 0, 0, 0, 0, 0], ()) ∧
      transparent.forceOpen () () ⟨([7], 0), ([7, 255, 0, 0, 0, 0, 0, 0, 0], [9])⟩ [9] =
        .error (.error "not a field element") :=
  ⟨rfl, rfl, rfl, rfl, rfl, rfl⟩

/-- A plaintext that splits is at least `f_bytes` long. -/
theorem wide_of_split {t mComputed : Bytes} {r : F}
    (split : L.splitPedOpening t = .ok (mComputed, r)) : L.fBytes ≤ t.length := by
  by_contra short
  rw [L.splitPedOpening_short (not_le.mp short)] at split
  cases split

/-- On a plaintext, a successful `force_open` reveals `m` exactly when the
plaintext is `m ‖ s` and the Pedersen commitment opens to `(m, nat_to_f(s))`. -/
theorem forceOpen_reveals_iff {t : Bytes} {v : Option Bytes} {opening : Opening TCOpening}
    (opened : L.forceOpen timePp pedPp comm ad = .ok (v, opening))
    (plaintext : opening.tcM = some t) (m : Bytes) :
    v = some m ↔ ∃ s, t = m ++ s ∧ s.length = L.fBytes ∧
      ∃ r, L.scalar.natToF (fromBytesLe .Plus s) = .ok r ∧
        L.pedersen.verOpen pedPp comm.pedComm m r = .ok true := by
  obtain ⟨-, -, withPlaintext⟩ := L.forceOpen_eq_ok opened
  obtain ⟨mComputed, r, pedValid, split, pedResult, rfl⟩ := withPlaintext t plaintext
  have wide := L.wide_of_split split
  rw [L.splitPedOpening_of_wide wide] at split
  obtain ⟨r', parsed, produced⟩ := except_bind_eq_ok.mp split
  cases produced
  simp only [exists_append_iff wide, parsed, Except.ok.injEq, exists_eq_left']
  by_cases same : m = t.take (t.length - L.fBytes)
  · cases pedValid <;> simp [same, pedResult]
  · have different : t.take (t.length - L.fBytes) ≠ m := fun flipped => same flipped.symm
    cases pedValid <;> simp [same, different]

/-- **Force-open and verification fail only in `nat_to_f`.** Assume
`PedersenComm::ver_open` returns `Ok`. When `BasicTC::force_open` returns
`Ok((tc_m, tc_op))` and `tc_m` is `None` or at least `NUM_LIMBS * 8` bytes long,
`force_open` returns `Err(e)` exactly when `tc_m = m ‖ s` with
`|s| = NUM_LIMBS * 8` and `nat_to_f` rejects `s` with `e`; whenever it returns
`Ok((v, op))`, `op = Opening{tc_op, tc_m}` and `v = Some(m)` exactly when
moreover `nat_to_f(s) = Ok(r)` and the Pedersen commitment opens to `(m, r)`.
Likewise `ver_open`, when `BasicTC::ver_open` returns `Ok` on such a plaintext,
fails exactly where `nat_to_f` does. -/
theorem forceOpen_verOpen_fail_only_in_natToF
    (pedersenTotal : ∀ m r, ∃ pedValid, L.pedersen.verOpen pedPp comm.pedComm m r = .ok pedValid) :
    (∀ tcM tcOpening, L.basicTc.forceOpen timePp comm.tcComm ad = .ok (tcM, tcOpening) →
      ((∀ t, tcM = some t → L.fBytes ≤ t.length) →
        ∀ fault, L.forceOpen timePp pedPp comm ad = .error fault ↔
          ∃ m s, tcM = some (m ++ s) ∧ s.length = L.fBytes ∧
            L.scalar.natToF (fromBytesLe .Plus s) = .error fault) ∧
      (∀ v opening, L.forceOpen timePp pedPp comm ad = .ok (v, opening) →
        opening = ⟨tcOpening, tcM⟩ ∧
        ∀ m, v = some m ↔ ∃ s, tcM = some (m ++ s) ∧ s.length = L.fBytes ∧
          ∃ r, L.scalar.natToF (fromBytesLe .Plus s) = .ok r ∧
            L.pedersen.verOpen pedPp comm.pedComm m r = .ok true)) ∧
    (∀ (v : Option Bytes) (opening : Opening TCOpening),
      (∃ tcValid, L.basicTc.verOpen timePp comm.tcComm ad opening.tcM opening.tcOpening =
        .ok tcValid) →
      (∀ t, opening.tcM = some t → L.fBytes ≤ t.length) →
      ∀ fault, L.verOpen timePp pedPp comm ad v opening = .error fault ↔
        ∃ m s, opening.tcM = some (m ++ s) ∧ s.length = L.fBytes ∧
          L.scalar.natToF (fromBytesLe .Plus s) = .error fault) := by
  refine ⟨fun tcM tcOpening forced => ⟨fun wideEnough fault => ?_, fun v opening opened => ?_⟩,
    fun v ⟨tcOpening, tcM⟩ ⟨tcValid, checked⟩ wideEnough fault => ?_⟩
  · cases tcM with
    | none =>
        rw [L.forceOpen_of_none forced]
        simp
    | some t =>
        have wide := wideEnough t rfl
        simp only [Option.some.injEq, exists_append_iff wide, exists_eq_left]
        exact L.forceOpen_eq_error_iff_of_some forced wide pedersenTotal fault
  · obtain ⟨forcedAgain, noPlaintext, -⟩ := L.forceOpen_eq_ok opened
    rw [forced, Except.ok.injEq, Prod.mk.injEq] at forcedAgain
    obtain ⟨sameM, sameOpening⟩ := forcedAgain
    refine ⟨by rw [sameM, sameOpening], fun m => ?_⟩
    cases tcM with
    | none => simp [noPlaintext sameM.symm]
    | some t =>
        simp only [Option.some.injEq]
        exact L.forceOpen_reveals_iff opened sameM.symm m
  · cases tcM with
    | none =>
        rw [L.verOpen_of_none checked]
        simp
    | some t =>
        have wide := wideEnough t rfl
        simp only [Option.some.injEq, exists_append_iff wide, exists_eq_left]
        exact L.verOpen_eq_error_iff_of_some checked wide pedersenTotal fault

theorem forceOpen_verOpen_fail_only_in_natToF_transparent :
    (∀ m r, ∃ pedValid, transparent.pedersen.verOpen () ([7], 0) m r = .ok pedValid) ∧
    (transparent.forceOpen () () ⟨([7], 0), ([7, 255, 0, 0, 0, 0, 0, 0, 0], [9])⟩ [9] =
        .error (.error "not a field element") ↔
      ∃ m s, some [7, 255, 0, 0, 0, 0, 0, 0, 0] = some (m ++ s) ∧
        s.length = transparent.fBytes ∧
        transparent.scalar.natToF (fromBytesLe .Plus s) = .error (.error "not a field element")) :=
  have pedersenTotal :
      ∀ m r, ∃ pedValid, transparent.pedersen.verOpen () ([7], 0) m r = .ok pedValid :=
    fun _ _ => ⟨_, rfl⟩
  ⟨pedersenTotal, (@forceOpen_verOpen_fail_only_in_natToF _ _ _ _ _ _ _ _ transparent () ()
    ⟨([7], 0), ([7, 255, 0, 0, 0, 0, 0, 0, 0], [9])⟩ [9] pedersenTotal).1
      (some [7, 255, 0, 0, 0, 0, 0, 0, 0]) () rfl |>.1 (fun _ same => by cases same; decide) _⟩

end Adversarial

end LazyTC

end SealedBidAuctions.LazyTc
