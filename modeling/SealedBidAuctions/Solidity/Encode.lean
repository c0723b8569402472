import SealedBidAuctions.Hog.Signed

/-!
Contract: the ABI encoding of big integers that `solidity/src/lib.rs` hands to
the auction contracts.

Owns:
- the part of `ethabi::Token` the big-integer encoders build: `Bytes`, `Bool`
  and `Tuple`;
- `pad_to_32_byte_offset`, `encode_bigint` and `encode_rsa_element`;
- `decodeBigint`, the reading of a `(bytes, negative)` pair as an integer, and
  that it inverts `encode_bigint` on every integer.

Does not own: the Solidity side, the `Uint` and `Array` tokens of the
Pocklington and Bulletproofs encoders, or the library-source templates.

## Why `pad_to_32_byte_offset` never underflows here

`BigInt::to_bytes_be` never returns an empty magnitude: zero is `[0]`. So
`bytes.len() - 1` is always defined, and `32 * ((len - 1) / 32 + 1)` is the
least positive multiple of 32 that is at least `len`.
-/

set_option autoImplicit false

namespace SealedBidAuctions.Solidity

open SealedBidAuctions.Rust SealedBidAuctions.BigInt SealedBidAuctions.Hog

/-- The `ethabi::Token` variants the big-integer encoders build. -/
inductive Token where
  | Bytes (bytes : Rust.Bytes)
  | Bool (value : Bool)
  | Tuple (tokens : List Token)
deriving Repr

/-- `pad_to_32_byte_offset`: left-pad with zero bytes to a multiple of 32, by
resizing the reversed vector. `bytes.len() - 1` panics on an empty vector, and
the `debug_assert_eq!`, compiled in builds with debug assertions, on a length
that is not a multiple of 32. -/
def padTo32ByteOffset (bytes : Bytes) : Option Bytes := do
  let lenLessOne ← usizeSub bytes.length 1
  let padLen := 32 * (lenLessOne / 32 + 1)
  let resized := resize bytes.reverse padLen 0
  if resized.length % 32 = 0 then pure resized.reverse else none

/-- `encode_bigint`: the padded big-endian magnitude and the sign bit. -/
def encodeBigint (n : Int) : Option Token := do
  let bytes ← padTo32ByteOffset (toBytesBe n).2
  pure (.Tuple [.Bytes bytes, .Bool (isNegative n)])

/-- `encode_rsa_element`: the element's representative as a one-field tuple. -/
def encodeRsaElement {P : RsaGroupParams} (elmt : RsaHiddenOrderGroup P) : Option Token := do
  let encoded ← encodeBigint elmt.n
  pure (.Tuple [encoded])

/-- The integer a `(bytes, negative)` pair stands for: the big-endian value of
`bytes`, negated when the sign bit is set. -/
def decodeBigint (bytes : Bytes) (negative : Bool) : Int :=
  if negative then -(ofBytesBe bytes : Int) else ofBytesBe bytes

/-! ## Padding -/

/-- **What the padding computes.** A non-empty vector gets exactly the zero
bytes that bring it to `32 * ((len - 1) / 32 + 1)`. -/
theorem padTo32ByteOffset_of_pos {bytes : Bytes} (nonempty : 0 < bytes.length) :
    padTo32ByteOffset bytes =
      some (List.replicate (32 * ((bytes.length - 1) / 32 + 1) - bytes.length) 0 ++ bytes) := by
  have fits : bytes.reverse.length ≤ 32 * ((bytes.length - 1) / 32 + 1) := by
    rw [List.length_reverse]
    omega
  have aligned : (resize bytes.reverse (32 * ((bytes.length - 1) / 32 + 1)) 0).length % 32 = 0 := by
    rw [resize_of_le 0 fits, List.length_append, List.length_replicate]
    omega
  rw [padTo32ByteOffset, (usizeSub_of_le nonempty : usizeSub bytes.length 1 = _)]
  simp only [Option.bind_eq_bind, Option.some_bind, if_pos aligned]
  rw [resize_of_le 0 fits, List.reverse_append, List.reverse_replicate, List.reverse_reverse,
    List.length_reverse]
  rfl

/-- `32 * ((len - 1) / 32 + 1)` is the least positive multiple of 32 that is at
least `len`, for a positive `len`. -/
theorem padLen_least {len : Nat} (positive : 0 < len) :
    32 ∣ 32 * ((len - 1) / 32 + 1) ∧ len ≤ 32 * ((len - 1) / 32 + 1) ∧
      ∀ k, 0 < k → 32 ∣ k → len ≤ k → 32 * ((len - 1) / 32 + 1) ≤ k :=
  ⟨Nat.dvd_mul_right _ _, by omega, fun _ _ _ _ => by omega⟩

/-- What `encode_bigint` returns on `n`. -/
theorem encodeBigint_eq (n : Int) :
    encodeBigint n = some (.Tuple [.Bytes (List.replicate
      (32 * (((toBytesBe n).2.length - 1) / 32 + 1) - (toBytesBe n).2.length) 0 ++
        (toBytesBe n).2), .Bool (decide (n < 0))]) := by
  rw [encodeBigint, padTo32ByteOffset_of_pos (length_toBytesBe_pos n), isNegative_eq_decide]
  rfl

/-! ## Decoding -/

/-- A pair whose bytes read back as `|n|` and whose sign bit is `n < 0`
decodes to `n`. -/
theorem decodeBigint_of_ofBytesBe {bytes : Bytes} {n : Int}
    (magnitude : ofBytesBe bytes = n.natAbs) : decodeBigint bytes (decide (n < 0)) = n := by
  unfold decodeBigint
  rw [magnitude]
  by_cases negative : n < 0
  · rw [if_pos (decide_eq_true negative), Int.ofNat_natAbs_of_nonpos negative.le, neg_neg]
  · rw [if_neg (by simpa using negative), Int.natAbs_of_nonneg (not_lt.mp negative)]

/-- Padding the magnitude keeps its value `|n|`. -/
theorem ofBytesBe_padded (n : Int) (count : Nat) :
    ofBytesBe (List.replicate count 0 ++ (toBytesBe n).2) = n.natAbs :=
  (ofBytesBe_replicate_zero_append _ _).trans (ofBytesBe_toBytesBe n)

/-- The pair `encode_bigint(n)` carries decodes back to `n`. -/
theorem decodeBigint_of_encodeBigint {n : Int} {b : Bytes} {negative : Bool}
    (encoded : encodeBigint n = some (.Tuple [.Bytes b, .Bool negative])) :
    decodeBigint b negative = n := by
  rw [encodeBigint_eq, Option.some.injEq, Token.Tuple.injEq, List.cons.injEq,
    Token.Bytes.injEq, List.cons.injEq, Token.Bool.injEq] at encoded
  obtain ⟨rfl, rfl, -⟩ := encoded
  exact decodeBigint_of_ofBytesBe (ofBytesBe_padded n _)

/-- `encode_bigint` is injective: its output decodes back to its input. -/
theorem encodeBigint_injective : Function.Injective encodeBigint := fun _ m same =>
  (decodeBigint_of_encodeBigint (same.trans (encodeBigint_eq m))).symm.trans
    (decodeBigint_of_encodeBigint (encodeBigint_eq m))

/-- **The on-chain big-integer encoding.** For every integer `n`,
`encode_bigint(n)` returns, without panicking, `Tuple[Bytes(b), Bool(n < 0)]`
where `|b|` is the least positive multiple of 32 that is at least the length of
the big-endian magnitude, `b` is that magnitude left-padded with zero bytes, and
`b` reads back as `|n|`; the pair decodes back to `n`, the magnitude is never
empty, and `encode_bigint` is injective. -/
theorem encodeBigint_spec :
    (∀ n : Int, 0 < (toBytesBe n).2.length ∧
      ∃ b, encodeBigint n = some (.Tuple [.Bytes b, .Bool (decide (n < 0))]) ∧
        32 ∣ b.length ∧ 0 < b.length ∧ (toBytesBe n).2.length ≤ b.length ∧
        (∀ k, 0 < k → 32 ∣ k → (toBytesBe n).2.length ≤ k → b.length ≤ k) ∧
        b = List.replicate (b.length - (toBytesBe n).2.length) 0 ++ (toBytesBe n).2 ∧
        ofBytesBe b = n.natAbs ∧ decodeBigint b (decide (n < 0)) = n) ∧
    Function.Injective encodeBigint := by
  refine ⟨fun n => ⟨length_toBytesBe_pos n, _, encodeBigint_eq n, ?_⟩, encodeBigint_injective⟩
  obtain ⟨divides, fits, least⟩ := padLen_least (length_toBytesBe_pos n)
  have padded : (List.replicate (32 * (((toBytesBe n).2.length - 1) / 32 + 1) -
      (toBytesBe n).2.length) 0 ++ (toBytesBe n).2).length =
        32 * (((toBytesBe n).2.length - 1) / 32 + 1) := by
    rw [List.length_append, List.length_replicate]
    omega
  rw [padded]
  exact ⟨divides, by omega, fits, least, rfl, ofBytesBe_padded n _,
    decodeBigint_of_encodeBigint (encodeBigint_eq n)⟩

theorem encodeBigint_spec_at_minus_one :
    ∃ b, encodeBigint (-1) = some (.Tuple [.Bytes b, .Bool true]) ∧ b.length = 32 ∧
      decodeBigint b true = -1 :=
  let ⟨_, b, encoded, divides, positive, _, least, _, _, decoded⟩ := encodeBigint_spec.1 (-1)
  have oneWord := least 32 (by decide) (by decide) (by simp [toBytesBe, magnitudeBytesLe])
  ⟨b, encoded, by omega, decoded⟩

/-- An element's encoding never panics, and distinct representatives encode
differently. -/
theorem encodeRsaElement_injective {P : RsaGroupParams} :
    (∀ a : RsaHiddenOrderGroup P, encodeRsaElement a ≠ none) ∧
      Function.Injective (@encodeRsaElement P) := by
  have encodes : ∀ a : RsaHiddenOrderGroup P,
      encodeRsaElement a = (encodeBigint a.n).map fun encoded => .Tuple [encoded] := fun a => by
    rw [encodeRsaElement, encodeBigint_eq]
    rfl
  have tupleInjective : Function.Injective fun encoded : Token => Token.Tuple [encoded] :=
    fun _ _ same => by injection same with same; injection same
  refine ⟨fun a => by simp [encodes, encodeBigint_eq], fun a b same => ?_⟩
  rw [encodes, encodes] at same
  exact RsaHiddenOrderGroup.ext (encodeBigint_injective (Option.map_injective tupleInjective same))

end SealedBidAuctions.Solidity
