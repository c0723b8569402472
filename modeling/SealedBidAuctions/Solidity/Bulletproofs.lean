import SealedBidAuctions.Solidity.Templates

/-!
Contract: the bulletproofs verifier contract that
`get_bulletproofs_verifier_contract_src` generates from its template.

Owns:
- the parameter records the generator reads (`Params`, `PedersenParams`) and
  the curve-side helpers it calls, which are parameters (`CurveHelpers`);
- the `<%ipa_pp_vecs%>` loop over `pp.g.iter().zip(pp.h.iter()).enumerate()`
  and what it prints: a `G` and an `H` assignment per pair, for the shorter of
  the two vectors;
- the `u64` arithmetic of `<%ipa_final_check_len%>`, and that its overflow is
  the generator's only panic (with overflow checks on, as in `Rust`).

Does not own: the curve, the hash, the template file, or the Solidity side.

## Why a separator can dangle

The loop runs over the zip, which stops at the shorter vector, but its separator
test reads `pp.g.len()`. When `pp.h` is the shorter one, the last pair is not at
index `pp.g.len() - 1`, and a separator follows it. The same test never
underflows: the loop body runs only when `pp.g` is non-empty.
-/

set_option autoImplicit false

namespace SealedBidAuctions.Solidity

open SealedBidAuctions.Rust

/-- `bulletproofs::Params<G>` as far as the generator reads it: the vectors `g`
and `h` and the point `u`. -/
structure Params (G : Type) where
  g : List G
  h : List G
  u : G

/-- `PedersenParams<G>`: the generators `g` and `h`. -/
structure PedersenParams (G : Type) where
  g : G
  h : G

/-- The helpers the generator calls, none of them under `src/`:
`serialize_group_elem`, `hash_to_variable_output_length::<Keccak256>`, and
`parse_g1_to_solidity_string` of the affine point. -/
structure CurveHelpers (G : Type) where
  serializeGroupElem : G → Bytes
  hashToVariableOutputLength : Bytes → Nat → Bytes
  parseG1 : G → String

variable {G : Type}

/-- `pp.ipa{vector}[{i}] = BN254.G1Point({point});`, for the vector `G` or `H`. -/
def ipaAssignment (vector : String) (i : Nat) (point : String) : String :=
  "pp.ipa" ++ vector ++ "[" ++ toString i ++ "] = BN254.G1Point(" ++ point ++ ");"

/-- One iteration on `(i, (g, h))`: the `G` assignment, the separator, the `H`
assignment, then the separator again unless `i` is `pp.g.len() - 1`, a `usize`
subtraction. -/
def ipaPpVecStep (parseG1 : G → String) (gLen : Nat) (populated : String)
    (entry : Nat × G × G) : Option String := do
  let populated := populated ++ ipaAssignment "G" entry.1 (parseG1 entry.2.1) ++ separator ++
    ipaAssignment "H" entry.1 (parseG1 entry.2.2)
  let last ← usizeSub gLen 1
  pure (if entry.1 < last then populated ++ separator else populated)

/-- The `<%ipa_pp_vecs%>` block. -/
def populateIpaPpVec (parseG1 : G → String) (pp : Params G) : Option String :=
  ((pp.g.zip pp.h).enum).foldlM (ipaPpVecStep parseG1 pp.g.length) ""

/-- The bytes `pp_hash` hashes: `ped_pp.g`, `ped_pp.h`, every `pp.g`, every
`pp.h`, then `pp.u`, each serialized. -/
def ppHashInput (serializeGroupElem : G → Bytes) (pp : Params G) (pedPp : PedersenParams G) :
    Bytes :=
  serializeGroupElem pedPp.g ++ serializeGroupElem pedPp.h ++ pp.g.flatMap serializeGroupElem ++
    pp.h.flatMap serializeGroupElem ++ serializeGroupElem pp.u

/-- `2 * n + 2 * lg_n + 8` on `u64`, each operation checked. -/
def finalCheckLen (n lgN : UInt64) : Option Nat := do
  let twoN ← u64Checked (2 * n.toNat)
  let twoLgN ← u64Checked (2 * lgN.toNat)
  let sum ← u64Checked (twoN + twoLgN)
  u64Checked (sum + 8)

/-- The replacement chain of the generator, given the two values that can
panic; every replacement before them is total. -/
def fillVerifierTemplate (helpers : CurveHelpers G) (template : String) (pp : Params G)
    (pedPp : PedersenParams G) (n lgN : UInt64) (finalCheck : Nat) (ipaPpVecs : String) :
    String :=
  let ppHash := helpers.hashToVariableOutputLength
    (ppHashInput helpers.serializeGroupElem pp pedPp) 32
  let src := template.replace "\"" "\\\""
  let src := src.replace "<%pp_hash%>" ("0x" ++ hexEncode ppHash)
  let src := src.replace "<%ped_pp_g%>" (helpers.parseG1 pedPp.g)
  let src := src.replace "<%ped_pp_h%>" (helpers.parseG1 pedPp.h)
  let src := src.replace "<%ipa_pp_u%>" (helpers.parseG1 pp.u)
  let src := src.replace "<%ipa_pp_len%>" (toString n)
  let src := src.replace "<%ipa_log_len%>" (toString lgN)
  let src := src.replace "<%ipa_final_check_len%>" (toString finalCheck)
  src.replace "<%ipa_pp_vecs%>" ipaPpVecs

/-- `get_bulletproofs_verifier_contract_src(pp, ped_pp, n, lg_n)` on the
contents of `BulletproofsVerifier.sol`. -/
def getBulletproofsVerifierContractSrc (helpers : CurveHelpers G) (template : String)
    (pp : Params G) (pedPp : PedersenParams G) (n lgN : UInt64) : Option String := do
  let finalCheck ← finalCheckLen n lgN
  let ipaPpVecs ← populateIpaPpVec helpers.parseG1 pp
  pure (fillVerifierTemplate helpers template pp pedPp n lgN finalCheck ipaPpVecs)

/-! ## What the loop prints -/

/-- The two assignments of pair `i`, the separator between them. -/
def ipaPair (parseG1 : G → String) (i : Nat) (g h : G) : String :=
  ipaAssignment "G" i (parseG1 g) ++ separator ++ ipaAssignment "H" i (parseG1 h)

/-- The pairs from index `i` on, each followed by the separator when its index
is below `gLen - 1`. -/
def renderPairs (parseG1 : G → String) (gLen : Nat) : Nat → List (G × G) → String
  | _, [] => ""
  | i, (g, h) :: rest =>
      ipaPair parseG1 i g h ++
        ((if i + 1 < gLen then separator else "") ++ renderPairs parseG1 gLen (i + 1) rest)

section Loop

variable {parseG1 : G → String} {gLen : Nat}

/-- One iteration, when `pp.g` is non-empty: the pair, then the separator unless
`i` is the last index of `pp.g`. -/
theorem ipaPpVecStep_of_pos (positive : 0 < gLen) (populated : String) (i : Nat) (g h : G) :
    ipaPpVecStep parseG1 gLen populated (i, g, h) = some (populated ++
      (ipaPair parseG1 i g h ++ if i + 1 < gLen then separator else "")) := by
  simp only [ipaPpVecStep, usizeSub_of_le positive, Option.bind_eq_bind, Option.some_bind,
    Option.pure_def, ipaPair, String.append_assoc]
  by_cases separated : i + 1 < gLen
  · rw [if_pos (by omega : i < gLen - 1), if_pos separated]
  · rw [if_neg (by omega : ¬ i < gLen - 1), if_neg separated, String.append_empty]

/-- **The loop's accumulator peels out**, for a non-empty `pp.g`. -/
theorem foldlM_ipaPpVecStep (positive : 0 < gLen) :
    ∀ (pairs : List (G × G)) (i : Nat) (populated : String),
      (pairs.enumFrom i).foldlM (ipaPpVecStep parseG1 gLen) populated =
        some (populated ++ renderPairs parseG1 gLen i pairs)
  | [], _, populated => by simp [renderPairs]
  | (g, h) :: rest, i, populated => by
      rw [List.enumFrom_cons, List.foldlM_cons, ipaPpVecStep_of_pos positive, Option.bind_eq_bind,
        Option.some_bind, foldlM_ipaPpVecStep positive rest (i + 1), renderPairs]
      simp only [String.append_assoc]

/-- The rendering, read as lines: the pairs joined by the separator, and one more
separator after the last pair when it is not at index `gLen - 1`. -/
theorem renderPairs_eq_joinLines (parseG1 : G → String) :
    ∀ (pairs : List (G × G)) (i : Nat), i + pairs.length ≤ gLen →
      renderPairs parseG1 gLen i pairs =
        joinLines ((pairs.enumFrom i).map fun entry =>
            ipaPair parseG1 entry.1 entry.2.1 entry.2.2) ++
          if 0 < pairs.length ∧ i + pairs.length < gLen then separator else ""
  | [], _, _ => rfl
  | [(g, h)], i, _ => by
      rw [renderPairs, renderPairs, String.append_empty]
      simp only [List.enumFrom_cons, List.enumFrom_nil, List.map_cons, List.map_nil, joinLines,
        List.length_singleton, Nat.zero_lt_one, true_and]
  | (g, h) :: next :: rest, i, fits => by
      rw [List.length_cons, List.length_cons] at fits
      rw [renderPairs, if_pos (by omega), renderPairs_eq_joinLines parseG1 (next :: rest) (i + 1)
        (by rw [List.length_cons]; omega)]
      conv_rhs => rw [List.enumFrom_cons, List.map_cons, joinLines_cons (by simp)]
      simp only [String.append_assoc, List.length_cons, Nat.zero_lt_succ, true_and, Nat.add_assoc,
        Nat.add_comm 1]

end Loop

/-- **What `<%ipa_pp_vecs%>` becomes.** The loop never panics; it prints the
pairs of the zip of `pp.g` and `pp.h`, that is the shorter of the two, joined by
the separator, and one more separator exactly when `pp.h` is non-empty and
shorter than `pp.g`. -/
theorem populateIpaPpVec_eq (parseG1 : G → String) (pp : Params G) :
    populateIpaPpVec parseG1 pp = some
      (joinLines (((pp.g.zip pp.h).enum).map fun entry =>
          ipaPair parseG1 entry.1 entry.2.1 entry.2.2) ++
        if 0 < pp.h.length ∧ pp.h.length < pp.g.length then separator else "") := by
  rcases Nat.eq_zero_or_pos pp.g.length with empty | positive
  · simp [populateIpaPpVec, List.length_eq_zero.mp empty, joinLines]
  · have fits : 0 + (pp.g.zip pp.h).length ≤ pp.g.length := by
      rw [List.length_zip]; omega
    have dangling : (0 < (pp.g.zip pp.h).length ∧ 0 + (pp.g.zip pp.h).length < pp.g.length) ↔
        (0 < pp.h.length ∧ pp.h.length < pp.g.length) := by
      rw [List.length_zip]
      omega
    rw [populateIpaPpVec, List.enum, foldlM_ipaPpVecStep positive, String.empty_append,
      renderPairs_eq_joinLines parseG1 _ 0 fits, if_congr dangling rfl rfl]

/-- With `pp.h` shorter than `pp.g`, a separator follows the last pair. -/
example : populateIpaPpVec id ⟨["a", "b"], ["c"], "u"⟩ = some
    "pp.ipaG[0] = BN254.G1Point(a);\n        pp.ipaH[0] = BN254.G1Point(c);\n        " := by
  decide

theorem finalCheckLen_eq (n lgN : UInt64) :
    finalCheckLen n lgN = if 2 * n.toNat + 2 * lgN.toNat + 8 < 2 ^ 64 then
      some (2 * n.toNat + 2 * lgN.toNat + 8) else none := by
  unfold finalCheckLen u64Checked
  rw [show UInt64.size = 2 ^ 64 from rfl]
  by_cases fits : 2 * n.toNat + 2 * lgN.toNat + 8 < 2 ^ 64
  · simp only [if_pos fits, if_pos (by omega : 2 * n.toNat < 2 ^ 64),
      if_pos (by omega : 2 * lgN.toNat < 2 ^ 64),
      if_pos (by omega : 2 * n.toNat + 2 * lgN.toNat < 2 ^ 64), Option.bind_eq_bind,
      Option.some_bind]
  · simp only [if_neg fits, Option.bind_eq_bind]
    split_ifs <;> simp_all

/-- **The verifier source.** `get_bulletproofs_verifier_contract_src` panics
exactly when `2 * n + 2 * lg_n + 8` overflows `u64`; otherwise it fills the
template with that length and the pairs of `pp.g` and `pp.h`, as
`populateIpaPpVec_eq` prints them. The panic is that of a build with overflow
checks; a release build prints the length modulo `2^64` instead. -/
theorem getBulletproofsVerifierContractSrc_eq (helpers : CurveHelpers G) (template : String)
    (pp : Params G) (pedPp : PedersenParams G) (n lgN : UInt64) :
    getBulletproofsVerifierContractSrc helpers template pp pedPp n lgN =
      if 2 * n.toNat + 2 * lgN.toNat + 8 < 2 ^ 64 then
        some (fillVerifierTemplate helpers template pp pedPp n lgN (2 * n.toNat + 2 * lgN.toNat + 8)
          (joinLines (((pp.g.zip pp.h).enum).map fun entry =>
              ipaPair helpers.parseG1 entry.1 entry.2.1 entry.2.2) ++
            if 0 < pp.h.length ∧ pp.h.length < pp.g.length then separator else ""))
      else none := by
  rw [getBulletproofsVerifierContractSrc, finalCheckLen_eq, populateIpaPpVec_eq]
  split_ifs <;> rfl

end SealedBidAuctions.Solidity
