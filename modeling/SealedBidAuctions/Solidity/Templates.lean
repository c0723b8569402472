import SealedBidAuctions.Core.BigInt

/-!
Contract: the library sources `solidity/src/lib.rs` generates for the RSA and
FKPS contracts, as far as they depend on the numbers they embed.

Owns:
- `u64::to_be_bytes`, `hex::encode`, and the populate loop that
  `get_fkps_library_src` and `get_rsa_library_src` share: one assignment
  `name_u256_digits[i] = 0x…;` per chunk of four limbs of `to_u64_digits`,
  most significant chunk first, with a separator between assignments;
- the two generators over the contract template they read, which is a
  parameter (the `.sol` files are not under `src/`);
- what the loop emits: a panic on a partial chunk, and otherwise one assignment
  per chunk, whose words recombine to the number;
- what the emitted text says: each `0x…` literal is its word's 64 lowercase hex
  digits, most significant first, and the block is those lines joined by the
  separator.

Does not own: the Solidity side, or the other templates.

## Why the word count follows the number, not `m_len`

The template declares `m_len / 256` words through `<%pp_m_len%>`, but the loop
never reads `m_len`: it prints one word per chunk of the number's minimal limbs.
A number below `2^(m_len - 64)` has too few limbs, and one whose limb count is
not a multiple of four has a partial most significant chunk, which the loop
visits first and indexes at `[3]`.
-/

set_option autoImplicit false

namespace SealedBidAuctions.Solidity

open SealedBidAuctions.Rust SealedBidAuctions.BigInt

/-- `u64::to_be_bytes`. -/
def toBeBytes (limb : UInt64) : Bytes := (toBytesLeFixed 8 limb.toNat).reverse

/-- `hex::encode`: two lowercase hex digits per byte. -/
def hexEncode (bytes : Bytes) : String :=
  String.mk (bytes.flatMap fun byte =>
    [Nat.digitChar (byte.toNat / 16), Nat.digitChar (byte.toNat % 16)])

/-- The text one iteration formats, `{name}_u256_digits[{i}] = 0x{}{}{}{};`,
from the chunk's limbs `[3]`, `[2]`, `[1]`, `[0]`. -/
def assignment (name : String) (i : Nat) (d3 d2 d1 d0 : UInt64) : String :=
  name ++ "_u256_digits[" ++ toString i ++ "] = 0x" ++ hexEncode (toBeBytes d3) ++
    hexEncode (toBeBytes d2) ++ hexEncode (toBeBytes d1) ++ hexEncode (toBeBytes d0) ++ ";"

/-- The text pushed after an assignment that is not the last. -/
def separator : String := "\n        "

/-- One iteration of the populate loop on `(i, u256digit)`. Indexing the chunk
panics when it has fewer than four limbs, in every build; the separator test
`i < limbs.len() / 4 - 1` is a `usize` subtraction, which panics when the limb
vector it reads has fewer than four limbs (in a build with overflow checks). -/
def populateStep (name : String) (separatorLimbs : Nat) (populated : String)
    (entry : Nat × List UInt64) : Option String := do
  let d3 ← entry.2[3]?
  let d2 ← entry.2[2]?
  let d1 ← entry.2[1]?
  let d0 ← entry.2[0]?
  let populated := populated ++ assignment name entry.1 d3 d2 d1 d0
  let lastSeparated ← usizeSub (separatorLimbs / 4) 1
  pure (if entry.1 < lastSeparated then populated ++ separator else populated)

/-- The populate block: the loop over
`digits.chunks(4).rev().enumerate()`, whose separator test reads the length of
a limb vector of `separatorLimbs` limbs. -/
def populate (name : String) (digits : List UInt64) (separatorLimbs : Nat) : Option String :=
  ((chunks 4 (by decide) digits).reverse.enum).foldlM (populateStep name separatorLimbs) ""

/-- The replacements both generators make first: quotes escaped, then
`<%pp_m_len%>` set to `m_len / 256`. -/
def prepareTemplate (template : String) (mLen : Nat) : String :=
  (template.replace "\"" "\\\"").replace "<%pp_m_len%>" (toString (mLen / 256))

/-- `get_fkps_library_src(h, z, m_len)` on the contents of `FKPS.sol`. The loop
over `z` reads its separator bound from `h`'s limbs. -/
def getFkpsLibrarySrc (template : String) (h z : Int) (mLen : Nat) : Option String := do
  let src := prepareTemplate template mLen
  let populateH ← populate "h" (toU64Digits h).2 (toU64Digits h).2.length
  let src := src.replace "<%pp_h_populate%>" populateH
  let populateZ ← populate "z" (toU64Digits z).2 (toU64Digits h).2.length
  pure (src.replace "<%pp_z_populate%>" populateZ)

/-- `get_rsa_library_src(m, m_len)` on the contents of `RSA2048.sol`. -/
def getRsaLibrarySrc (template : String) (m : Int) (mLen : Nat) : Option String := do
  let src := prepareTemplate template mLen
  let populateM ← populate "m" (toU64Digits m).2 (toU64Digits m).2.length
  pure (src.replace "<%pp_m_populate%>" populateM)

/-! ## The words and lines the contract reads -/

/-- The word a chunk of limbs stands for, least significant limb first. -/
def chunkWord (chunk : List UInt64) : Nat := Nat.ofDigits (2 ^ 64) (chunk.map UInt64.toNat)

/-- Limb `j` of a word, `j = 0` the least significant. -/
def wordLimb (word j : Nat) : UInt64 := UInt64.ofNat (word / 2 ^ (64 * j))

/-- Assignments `i, i + 1, …` of the given words, each printed as its four limbs
most significant first, and each but the last of `count` followed by the
separator. -/
def renderWords (name : String) (count : Nat) : Nat → List Nat → String
  | _, [] => ""
  | i, word :: rest =>
      assignment name i (wordLimb word 3) (wordLimb word 2) (wordLimb word 1) (wordLimb word 0) ++
        ((if i + 1 < count then separator else "") ++ renderWords name count (i + 1) rest)

/-- The populate text for the words `w_0, …, w_(K-1)`: `K` assignments
`name_u256_digits[i] = w_i`. -/
def expectedPopulate (name : String) (words : List Nat) : String :=
  renderWords name words.length 0 words

/-- `words` are the `count` big-endian base-`2^256` digits of `|v|`:
`Σ w_i · 2^(256·(count - 1 - i)) = |v|`. -/
def BigEndianWords (count : Nat) (v : Int) (words : List Nat) : Prop :=
  words.length = count ∧ (∀ word ∈ words, word < 2 ^ 256) ∧
    Nat.ofDigits (2 ^ 256) words.reverse = v.natAbs

/-- The `width` lowercase hex digits of `n`, most significant first: the digit
`j` places from the right is `n / 16^j % 16`. -/
def hexDigits (width n : Nat) : List Char :=
  (List.range width).reverse.map fun j => Nat.digitChar (n / 16 ^ j % 16)

/-- The line the contract reads for word `i`: `name_u256_digits[i] = 0x`, then the
word's 64 hex digits. -/
def wordLine (name : String) (i word : Nat) : String :=
  name ++ "_u256_digits[" ++ toString i ++ "] = 0x" ++ String.mk (hexDigits 64 word) ++ ";"

/-- Lines joined by the separator. -/
def joinLines : List String → String
  | [] => ""
  | [line] => line
  | line :: next :: rest => line ++ separator ++ joinLines (next :: rest)

/-! ## One iteration -/

theorem toNat_uint64OfNat (n : Nat) : (UInt64.ofNat n).toNat = n % 2 ^ 64 := rfl

/-- The limbs of the word of a four-limb chunk are the chunk's limbs. -/
theorem wordLimb_chunkWord (a b c d : UInt64) :
    wordLimb (chunkWord [a, b, c, d]) 0 = a ∧ wordLimb (chunkWord [a, b, c, d]) 1 = b ∧
      wordLimb (chunkWord [a, b, c, d]) 2 = c ∧ wordLimb (chunkWord [a, b, c, d]) 3 = d := by
  have := a.toNat_lt_size
  have := b.toNat_lt_size
  have := c.toNat_lt_size
  have := d.toNat_lt_size
  simp only [wordLimb, chunkWord, List.map_cons, List.map_nil, Nat.ofDigits_cons,
    Nat.ofDigits_nil, UInt64.size] at *
  refine ⟨?_, ?_, ?_, ?_⟩ <;> apply UInt64.toNat.inj <;> rw [toNat_uint64OfNat] <;> omega

/-- **One iteration on a whole chunk**: it pushes the assignment of the chunk's
word, then the separator unless `i` is the last index. -/
theorem populateStep_of_length {name : String} {separatorLimbs : Nat}
    (enough : 4 ≤ separatorLimbs) (populated : String) (i : Nat) {chunk : List UInt64}
    (whole : chunk.length = 4) :
    populateStep name separatorLimbs populated (i, chunk) = some (populated ++
      (assignment name i (wordLimb (chunkWord chunk) 3) (wordLimb (chunkWord chunk) 2)
        (wordLimb (chunkWord chunk) 1) (wordLimb (chunkWord chunk) 0) ++
        if i + 1 < separatorLimbs / 4 then separator else "")) := by
  match chunk, whole with
  | [a, b, c, d], _ =>
      obtain ⟨limb0, limb1, limb2, limb3⟩ := wordLimb_chunkWord a b c d
      have lastSeparated : usizeSub (separatorLimbs / 4) 1 = some (separatorLimbs / 4 - 1) :=
        usizeSub_of_le (by omega)
      rw [limb0, limb1, limb2, limb3]
      simp only [populateStep, List.getElem?_cons_succ, List.getElem?_cons_zero, Option.bind_eq_bind,
        Option.some_bind, lastSeparated, Option.pure_def]
      by_cases separated : i + 1 < separatorLimbs / 4
      · rw [if_pos (by omega : i < separatorLimbs / 4 - 1), if_pos separated, String.append_assoc]
      · rw [if_neg (by omega : ¬ i < separatorLimbs / 4 - 1), if_neg separated, String.append_empty]

/-- One iteration on a chunk of fewer than four limbs panics at `u256digit[3]`. -/
theorem populateStep_of_short {name : String} {separatorLimbs : Nat} (populated : String)
    (i : Nat) {chunk : List UInt64} (short : chunk.length < 4) :
    populateStep name separatorLimbs populated (i, chunk) = none := by
  simp only [populateStep, List.getElem?_eq_none (by omega : chunk.length ≤ 3), Option.bind_eq_bind,
    Option.none_bind]

/-- On a whole chunk, the separator test panics when the limb vector it reads
has fewer than four limbs. -/
theorem populateStep_of_separatorLimbs_lt {name : String} {separatorLimbs : Nat}
    (few : separatorLimbs < 4) (populated : String) (i : Nat) {chunk : List UInt64}
    (whole : chunk.length = 4) : populateStep name separatorLimbs populated (i, chunk) = none := by
  match chunk, whole with
  | [a, b, c, d], _ =>
      simp only [populateStep, List.getElem?_cons_succ, List.getElem?_cons_zero,
        Option.bind_eq_bind, Option.some_bind, usizeSub_of_lt (by omega : separatorLimbs / 4 < 1),
        Option.none_bind]

/-! ## The printed literal -/

theorem hexDigits_succ (width n : Nat) :
    hexDigits (width + 1) n = Nat.digitChar (n / 16 ^ width % 16) :: hexDigits width n := by
  rw [hexDigits, List.range_succ, List.reverse_append, List.reverse_singleton,
    List.singleton_append, List.map_cons]
  rfl

/-- The high digits of `n` are the digits of `n / 16^low`. -/
theorem hexDigits_add (high low n : Nat) :
    hexDigits (high + low) n = hexDigits high (n / 16 ^ low) ++ hexDigits low n := by
  induction high with
  | zero => rw [Nat.zero_add]; rfl
  | succ high inductionHypothesis =>
      rw [Nat.succ_add, hexDigits_succ, hexDigits_succ, inductionHypothesis,
        Nat.div_div_eq_div_mul, ← pow_add, Nat.add_comm low high, List.cons_append]

/-- `width` hex digits read `n` modulo `16^width`. -/
theorem hexDigits_mod (width n : Nat) : hexDigits width (n % 16 ^ width) = hexDigits width n := by
  induction width generalizing n with
  | zero => rfl
  | succ width inductionHypothesis =>
      have lower : n % 16 ^ (width + 1) % 16 ^ width = n % 16 ^ width :=
        Nat.mod_mod_of_dvd n (pow_dvd_pow 16 (Nat.le_succ width))
      rw [hexDigits_succ, hexDigits_succ, pow_succ', Nat.mod_mul_left_div_self,
        ← inductionHypothesis (n % (16 * 16 ^ width)), ← pow_succ', lower, inductionHypothesis,
        Nat.mod_mod]

/-- Hex-encoding the big-endian bytes of the low `width` bytes of `n` prints its
low `2 · width` hex digits. -/
theorem flatMap_hex_toBytesLeFixed (width n : Nat) :
    ((toBytesLeFixed width n).reverse.flatMap fun byte : UInt8 =>
      [Nat.digitChar (byte.toNat / 16), Nat.digitChar (byte.toNat % 16)]) =
        hexDigits (2 * width) n := by
  induction width generalizing n with
  | zero => rfl
  | succ width inductionHypothesis =>
      have lowByte :
          hexDigits 2 n = [Nat.digitChar (n % 256 / 16), Nat.digitChar (n % 256 % 16)] := by
        rw [show n % 256 / 16 = n / 16 ^ 1 % 16 by omega,
          show n % 256 % 16 = n / 16 ^ 0 % 16 by omega]
        rfl
      rw [toBytesLeFixed, List.reverse_cons, List.flatMap_append, inductionHypothesis,
        List.flatMap_cons, List.flatMap_nil, List.append_nil, toNat_ofNat_mod_256,
        show 2 * (width + 1) = 2 * width + 2 by omega,
        hexDigits_add, lowByte, show (16 : Nat) ^ 2 = 256 by norm_num]

/-- `hex::encode(limb.to_be_bytes())` is the limb's 16 hex digits. -/
theorem hexEncode_toBeBytes (limb : UInt64) :
    hexEncode (toBeBytes limb) = String.mk (hexDigits 16 limb.toNat) := by
  rw [hexEncode, toBeBytes, flatMap_hex_toBytesLeFixed]

/-- **The literal of a word is its 64 hex digits.** Printing the limbs `[3]`,
`[2]`, `[1]`, `[0]` of a word, each big-endian, gives the word's 64 hex digits,
most significant first. -/
theorem assignment_wordLimb (name : String) (i word : Nat) :
    assignment name i (wordLimb word 3) (wordLimb word 2) (wordLimb word 1) (wordLimb word 0) =
      wordLine name i word := by
  have limbDigits :
      ∀ j, hexDigits 16 (wordLimb word j).toNat = hexDigits 16 (word / 16 ^ (16 * j)) := by
    intro j
    rw [wordLimb, toNat_uint64OfNat, show (2 : Nat) ^ 64 = 16 ^ 16 by norm_num, hexDigits_mod,
      show (2 : Nat) ^ (64 * j) = 16 ^ (16 * j) by rw [pow_mul, pow_mul]; norm_num]
  have split : hexDigits 64 word = hexDigits 16 (word / 16 ^ (16 * 3)) ++
      hexDigits 16 (word / 16 ^ (16 * 2)) ++ hexDigits 16 (word / 16 ^ (16 * 1)) ++
        hexDigits 16 (word / 16 ^ (16 * 0)) := by
    rw [show 64 = 16 + 16 + 16 + 16 from rfl, hexDigits_add, hexDigits_add, hexDigits_add]
    simp only [Nat.div_div_eq_div_mul, ← pow_add, Nat.mul_zero, pow_zero, Nat.div_one]
  have literal : hexEncode (toBeBytes (wordLimb word 3)) ++
      hexEncode (toBeBytes (wordLimb word 2)) ++ hexEncode (toBeBytes (wordLimb word 1)) ++
        hexEncode (toBeBytes (wordLimb word 0)) = String.mk (hexDigits 64 word) := by
    rw [hexEncode_toBeBytes, hexEncode_toBeBytes, hexEncode_toBeBytes, hexEncode_toBeBytes,
      limbDigits, limbDigits, limbDigits, limbDigits, split]
    rfl
  rw [assignment, wordLine, ← literal]
  simp only [String.append_assoc]

/-! ## The whole loop -/

/-- **The loop's accumulator peels out.** Over whole chunks, the loop run from
any text appends the rendering of the chunks' words to it. -/
theorem foldlM_populateStep {name : String} {separatorLimbs : Nat}
    (enough : 4 ≤ separatorLimbs) :
    ∀ (pieces : List (List UInt64)) (i : Nat) (populated : String),
      (∀ piece ∈ pieces, piece.length = 4) →
      (pieces.enumFrom i).foldlM (populateStep name separatorLimbs) populated =
        some (populated ++ renderWords name (separatorLimbs / 4) i (pieces.map chunkWord))
  | [], _, populated, _ => by simp [renderWords]
  | piece :: rest, i, populated, whole => by
      rw [List.enumFrom_cons, List.foldlM_cons,
        populateStep_of_length enough populated i (whole piece (List.mem_cons_self _ _)),
        Option.bind_eq_bind, Option.some_bind,
        foldlM_populateStep enough rest (i + 1) _ fun other member =>
          whole other (List.mem_cons_of_mem _ member)]
      simp only [List.map_cons, renderWords, String.append_assoc]

/-- Whole chunks of four limbs, read as words, recombine to the limbs' value. -/
theorem ofDigits_chunkWord {digits : List UInt64} {count : Nat}
    (width : digits.length = 4 * count) :
    Nat.ofDigits (2 ^ 256) ((chunks 4 (by decide) digits).map chunkWord) =
      Nat.ofDigits (2 ^ 64) (digits.map UInt64.toNat) := by
  induction count generalizing digits with
  | zero =>
      obtain rfl : digits = [] := List.eq_nil_of_length_eq_zero width
      simp
  | succ count inductionHypothesis =>
      have firstWidth : (digits.take 4).length = 4 := by rw [List.length_take]; omega
      rw [← List.take_append_drop 4 digits, chunks_append_of_length _ firstWidth, List.map_cons,
        Nat.ofDigits_cons, inductionHypothesis (by rw [List.length_drop]; omega), List.map_append,
        Nat.ofDigits_append, List.length_map, firstWidth, chunkWord]
      norm_num

/-- A chunk of four limbs stands for a word below `2^256`. -/
theorem chunkWord_lt {chunk : List UInt64} (whole : chunk.length = 4) :
    chunkWord chunk < 2 ^ 256 := by
  have bound := Nat.ofDigits_lt_base_pow_length (b := 2 ^ 64) (by norm_num)
    (l := chunk.map UInt64.toNat) fun limb member => by
      obtain ⟨limb, -, rfl⟩ := List.mem_map.mp member
      exact limb.toNat_lt_size
  rw [List.length_map, whole] at bound
  exact bound.trans_eq (by norm_num)

/-- The loop on whole chunks under any separator bound of at least four limbs:
the chunks' words, each followed by the separator when its index is below
`separatorLimbs / 4 - 1`. -/
theorem populate_of_whole (name : String) {digits : List UInt64} {count separatorLimbs : Nat}
    (enough : 4 ≤ separatorLimbs) (width : digits.length = 4 * count) :
    populate name digits separatorLimbs = some (renderWords name (separatorLimbs / 4) 0
      ((chunks 4 (by decide) digits).reverse.map chunkWord)) := by
  obtain ⟨-, whole⟩ := chunks_of_length_mul (by decide : 0 < 4) width
  rw [populate, List.enum, foldlM_populateStep enough _ 0 ""
    fun piece member => whole piece (List.mem_reverse.mp member), String.empty_append]

/-- **The loop on whole chunks.** A limb vector of `4 · count` limbs, with the
separator bound read from its own length, is printed as the words of its
chunks, most significant first. -/
theorem populate_of_length_mul (name : String) {digits : List UInt64} {count : Nat}
    (width : digits.length = 4 * count) :
    populate name digits digits.length =
      some (expectedPopulate name ((chunks 4 (by decide) digits).reverse.map chunkWord)) := by
  obtain ⟨pieceCount, -⟩ := chunks_of_length_mul (by decide : 0 < 4) width
  rcases Nat.eq_zero_or_pos count with rfl | positive
  · obtain rfl : digits = [] := List.eq_nil_of_length_eq_zero width
    simp [populate, expectedPopulate, renderWords]
  · rw [populate_of_whole name (by omega) width, expectedPopulate, List.length_map,
      List.length_reverse, pieceCount, width, Nat.mul_div_cancel_left _ (by decide)]

/-- **A partial chunk panics.** When the limb count is not a multiple of four,
the most significant chunk is partial, and the loop visits it first. -/
theorem populate_of_length_mod {name : String} {digits : List UInt64} (separatorLimbs : Nat)
    (ragged : digits.length % 4 ≠ 0) : populate name digits separatorLimbs = none := by
  have wholeWidth : (digits.take (4 * (digits.length / 4))).length = 4 * (digits.length / 4) := by
    rw [List.length_take]; omega
  have topWidth : (digits.drop (4 * (digits.length / 4))).length = digits.length % 4 := by
    rw [List.length_drop]; omega
  have top : chunks 4 (by decide) (digits.drop (4 * (digits.length / 4))) =
      [digits.drop (4 * (digits.length / 4))] :=
    chunks_of_length_le _ (List.ne_nil_of_length_pos (by omega)) (by omega)
  rw [populate, ← List.take_append_drop (4 * (digits.length / 4)) digits,
    chunks_append_of_length_mul _ wholeWidth, top, List.reverse_append,
    List.reverse_singleton, List.singleton_append, List.enum_cons, List.foldlM_cons,
    populateStep_of_short _ _ (by omega), Option.bind_eq_bind, Option.none_bind]

/-- The words of a limb vector of `4 · count` limbs are the `count` big-endian
base-`2^256` digits of the number. -/
theorem bigEndianWords_of_length_mul {v : Int} {count : Nat}
    (width : (toU64Digits v).2.length = 4 * count) :
    BigEndianWords count v ((chunks 4 (by decide) (toU64Digits v).2).reverse.map chunkWord) := by
  obtain ⟨pieceCount, whole⟩ := chunks_of_length_mul (by decide : 0 < 4) width
  refine ⟨by rw [List.length_map, List.length_reverse, pieceCount], fun word member => ?_, ?_⟩
  · obtain ⟨piece, inPieces, rfl⟩ := List.mem_map.mp member
    exact chunkWord_lt (whole piece (List.mem_reverse.mp inPieces))
  · rw [List.map_reverse, List.reverse_reverse, ofDigits_chunkWord width, ofDigits_toU64Digits]

/-- Whole, non-empty chunks under a separator bound read from fewer than four
limbs panic at the first separator test. -/
theorem populate_of_separatorLimbs_lt (name : String) {digits : List UInt64} {count : Nat}
    (positive : 0 < count) (width : digits.length = 4 * count) {separatorLimbs : Nat}
    (few : separatorLimbs < 4) : populate name digits separatorLimbs = none := by
  obtain ⟨pieceCount, whole⟩ := chunks_of_length_mul (by decide : 0 < 4) width
  cases reversed : (chunks 4 (by decide) digits).reverse with
  | nil =>
      rw [← List.length_reverse, reversed, List.length_nil] at pieceCount
      omega
  | cons top rest =>
      have topWhole := whole top (List.mem_reverse.mp (reversed ▸ List.mem_cons_self _ _))
      rw [populate, reversed, List.enum_cons, List.foldlM_cons,
        populateStep_of_separatorLimbs_lt few _ _ topWhole, Option.bind_eq_bind, Option.none_bind]

/-! ## The generators -/

/-- What `get_rsa_library_src` returns: the template with `m`'s populate text,
or the loop's panic. -/
theorem getRsaLibrarySrc_eq (template : String) (m : Int) (mLen : Nat) :
    getRsaLibrarySrc template m mLen =
      (populate "m" (toU64Digits m).2 (toU64Digits m).2.length).map
        fun populateM => (prepareTemplate template mLen).replace "<%pp_m_populate%>" populateM := by
  unfold getRsaLibrarySrc
  cases populate "m" (toU64Digits m).2 (toU64Digits m).2.length <;> rfl

/-- What `get_fkps_library_src` returns: the template with the populate texts
of `h` and `z`, the second under `h`'s separator bound, or a panic of either loop. -/
theorem getFkpsLibrarySrc_eq (template : String) (h z : Int) (mLen : Nat) :
    getFkpsLibrarySrc template h z mLen =
      (populate "h" (toU64Digits h).2 (toU64Digits h).2.length).bind fun populateH =>
        (populate "z" (toU64Digits z).2 (toU64Digits h).2.length).map fun populateZ =>
          ((prepareTemplate template mLen).replace "<%pp_h_populate%>" populateH).replace
            "<%pp_z_populate%>" populateZ := by
  unfold getFkpsLibrarySrc
  cases populate "h" (toU64Digits h).2 (toU64Digits h).2.length <;>
    cases populate "z" (toU64Digits z).2 (toU64Digits h).2.length <;> rfl

/-- A number of `4 · count` limbs is printed as its `count` big-endian words. -/
theorem populate_toU64Digits {v : Int} {count : Nat} (name : String)
    (width : (toU64Digits v).2.length = 4 * count) :
    ∃ words, BigEndianWords count v words ∧
      populate name (toU64Digits v).2 (toU64Digits v).2.length = some (expectedPopulate name words) :=
  ⟨_, bigEndianWords_of_length_mul width, populate_of_length_mul name width⟩

theorem joinLines_cons {rest : List String} (nonempty : rest ≠ []) (line : String) :
    joinLines (line :: rest) = line ++ separator ++ joinLines rest := by
  obtain _ | ⟨next, rest⟩ := rest
  · contradiction
  · rfl

/-- The loop's rendering, read as lines: with the separator bound at the last
index, `renderWords` is the words' lines joined by the separator. -/
theorem renderWords_eq_joinLines (name : String) :
    ∀ (words : List Nat) (i count : Nat), count = i + words.length →
      renderWords name count i words =
        joinLines ((words.enumFrom i).map fun entry => wordLine name entry.1 entry.2)
  | [], _, _, _ => rfl
  | [word], i, count, last => by
      rw [List.length_singleton] at last
      rw [renderWords, renderWords, if_neg (by omega), assignment_wordLimb, String.empty_append,
        String.append_empty]
      rfl
  | word :: next :: rest, i, count, last => by
      rw [List.length_cons, List.length_cons] at last
      rw [renderWords, if_pos (by omega), renderWords_eq_joinLines name (next :: rest) (i + 1) count
        (by rw [List.length_cons]; omega), assignment_wordLimb, ← String.append_assoc]
      conv_rhs => rw [List.enumFrom_cons, List.map_cons, joinLines_cons (by simp)]

theorem expectedPopulate_eq_joinLines (name : String) (words : List Nat) :
    expectedPopulate name words =
      joinLines (words.enum.map fun entry => wordLine name entry.1 entry.2) :=
  renderWords_eq_joinLines name words 0 words.length (Nat.zero_add _).symm

/-- **What the populate loop prints.** A number of `4 · K` limbs, under its own
separator bound, is printed as `K` lines `name_u256_digits[i] = 0x…;` joined by
the separator, line `i` carrying the 64 lowercase hex digits of `w_i`, most
significant first, where `w_0, …, w_(K-1)` are the number's big-endian
base-`2^256` digits. -/
theorem populate_eq_joinLines (name : String) {v : Int} {count : Nat}
    (width : (toU64Digits v).2.length = 4 * count) :
    ∃ words, BigEndianWords count v words ∧
      populate name (toU64Digits v).2 (toU64Digits v).2.length =
        some (joinLines (words.enum.map fun entry => wordLine name entry.1 entry.2)) :=
  let ⟨words, digits, populated⟩ := populate_toU64Digits name width
  ⟨words, digits, populated.trans (congrArg some (expectedPopulate_eq_joinLines name words))⟩

theorem populate_eq_joinLines_at_one_word :
    (toU64Digits (2 ^ 192 + 5)).2.length = 4 * 1 ∧
      ∃ words, BigEndianWords 1 (2 ^ 192 + 5) words ∧
        populate "m" (toU64Digits (2 ^ 192 + 5)).2 (toU64Digits (2 ^ 192 + 5)).2.length =
          some (joinLines (words.enum.map fun entry => wordLine "m" entry.1 entry.2)) :=
  have width : (toU64Digits (2 ^ 192 + 5)).2.length = 4 * 1 :=
    (length_toU64Digits_eq_iff (by norm_num) 3).mpr ⟨by norm_num, by norm_num⟩
  ⟨width, populate_eq_joinLines "m" width⟩

example : wordLine "m" 0 (2 ^ 192 + 5) =
    "m_u256_digits[0] = 0x0000000000000001000000000000000000000000000000000000000000000005;" := by
  decide

/-! ## What the generators print -/

/-- A number in `[2^(256·count - 64), 2^(256·count))` has `4 · count` limbs. -/
theorem length_toU64Digits_of_full_width {v : Int} {count : Nat} (positive : 0 < count)
    (large : 2 ^ (256 * count - 64) ≤ v) (small : v < 2 ^ (256 * count)) :
    (toU64Digits v).2.length = 4 * count := by
  have positiveV : (0 : Int) < v := lt_of_lt_of_le (by positivity) large
  have natAbsEq : (v.natAbs : Int) = v := Int.natAbs_of_nonneg positiveV.le
  have widthLess : 64 * (4 * count - 1) = 256 * count - 64 := by omega
  have width : 64 * (4 * count - 1 + 1) = 256 * count := by omega
  have limbs := (length_toU64Digits_eq_iff positiveV.ne' (4 * count - 1)).mpr
    ⟨by rw [widthLess]; exact_mod_cast natAbsEq ▸ large,
     by rw [width]; exact_mod_cast natAbsEq ▸ small⟩
  omega

/-- **Full-width numbers are printed right.** For `m_len = 256·K` with `K > 0`,
every number in `[2^(m_len - 64), 2^m_len)` passed as `m`, `h` or `z` is printed,
without a panic, as exactly `K` assignments of its big-endian base-`2^256`
digits, each as its four limbs most significant first, and the template
declares `K` words. -/
theorem getLibrarySrc_of_full_width (template : String) {count : Nat} (positive : 0 < count) :
    (256 * count) / 256 = count ∧
    (∀ m : Int, 2 ^ (256 * count - 64) ≤ m → m < 2 ^ (256 * count) →
      ∃ mWords, BigEndianWords count m mWords ∧
        getRsaLibrarySrc template m (256 * count) =
          some ((prepareTemplate template (256 * count)).replace "<%pp_m_populate%>"
            (expectedPopulate "m" mWords))) ∧
    (∀ h z : Int, 2 ^ (256 * count - 64) ≤ h → h < 2 ^ (256 * count) →
      2 ^ (256 * count - 64) ≤ z → z < 2 ^ (256 * count) →
      ∃ hWords zWords, BigEndianWords count h hWords ∧ BigEndianWords count z zWords ∧
        getFkpsLibrarySrc template h z (256 * count) =
          some (((prepareTemplate template (256 * count)).replace "<%pp_h_populate%>"
            (expectedPopulate "h" hWords)).replace "<%pp_z_populate%>"
              (expectedPopulate "z" zWords))) := by
  refine ⟨by omega, fun m large small => ?_, fun h z hLarge hSmall zLarge zSmall => ?_⟩
  · obtain ⟨mWords, digits, populated⟩ :=
      populate_toU64Digits "m" (length_toU64Digits_of_full_width positive large small)
    exact ⟨mWords, digits, by rw [getRsaLibrarySrc_eq, populated, Option.map_some']⟩
  · have hWidth := length_toU64Digits_of_full_width positive hLarge hSmall
    have zWidth := length_toU64Digits_of_full_width positive zLarge zSmall
    obtain ⟨hWords, hDigits, hPopulated⟩ := populate_toU64Digits "h" hWidth
    obtain ⟨zWords, zDigits, zPopulated⟩ := populate_toU64Digits "z" zWidth
    refine ⟨hWords, zWords, hDigits, zDigits, ?_⟩
    rw [getFkpsLibrarySrc_eq, hPopulated, Option.some_bind, hWidth, ← zWidth, zPopulated,
      Option.map_some']

theorem getLibrarySrc_of_full_width_at_one_word :
    ∃ mWords, BigEndianWords 1 (2 ^ 192 + 5) mWords ∧
      getRsaLibrarySrc "" (2 ^ 192 + 5) (256 * 1) =
        some ((prepareTemplate "" (256 * 1)).replace "<%pp_m_populate%>"
          (expectedPopulate "m" mWords)) :=
  (getLibrarySrc_of_full_width "" (by decide : 0 < 1)).2.1 _ (by norm_num) (by norm_num)

/-- **A partial chunk panics, in both generators.** A number whose limb count is
not a multiple of four makes the loop that prints it panic, for every template
and `m_len`. -/
theorem getLibrarySrc_panics_on_partial_chunk (template : String) (mLen : Nat) :
    (∀ m : Int, (toU64Digits m).2.length % 4 ≠ 0 → getRsaLibrarySrc template m mLen = none) ∧
    ∀ h z : Int, (toU64Digits h).2.length % 4 ≠ 0 ∨ (toU64Digits z).2.length % 4 ≠ 0 →
      getFkpsLibrarySrc template h z mLen = none := by
  refine ⟨fun m ragged => ?_, fun h z ragged => ?_⟩
  · rw [getRsaLibrarySrc_eq, populate_of_length_mod _ ragged, Option.map_none']
  · rw [getFkpsLibrarySrc_eq]
    rcases ragged with hRagged | zRagged
    · rw [populate_of_length_mod _ hRagged, Option.none_bind]
    · simp only [populate_of_length_mod _ zRagged, Option.map_none', Option.bind_none]

theorem getLibrarySrc_panics_on_partial_chunk_at_two :
    (toU64Digits 2).2.length % 4 ≠ 0 ∧ getRsaLibrarySrc "" 2 256 = none ∧
      getFkpsLibrarySrc "" 2 2 256 = none :=
  have oneLimb : (toU64Digits 2).2.length = 0 + 1 :=
    (length_toU64Digits_eq_iff (by norm_num) 0).mpr ⟨by norm_num, by norm_num⟩
  have ragged : (toU64Digits 2).2.length % 4 ≠ 0 := by rw [oneLimb]; decide
  ⟨ragged, (getLibrarySrc_panics_on_partial_chunk "" 256).1 2 ragged,
    (getLibrarySrc_panics_on_partial_chunk "" 256).2 2 2 (.inl ragged)⟩

/-- **The loop over `z` reads `h`'s limb count.** With `h = 0`, whose limb
vector is empty, `get_fkps_library_src` panics at `0 / 4 - 1` on every `z` of a
positive whole number of chunks, which the same loop prints under `z`'s own
limb count. The panic is that of a build with overflow checks; in a release
build `0 / 4 - 1` wraps to `usize::MAX`, and every line of `z` is followed by the
separator instead. -/
theorem getFkpsLibrarySrc_reads_h_limbs (template : String) (mLen : Nat) {z : Int}
    {count : Nat} (positive : 0 < count) (width : (toU64Digits z).2.length = 4 * count) :
    getFkpsLibrarySrc template 0 z mLen = none ∧
      ∃ zWords, BigEndianWords count z zWords ∧
        populate "z" (toU64Digits z).2 (toU64Digits z).2.length = some (expectedPopulate "z" zWords) := by
  have noLimbs : (toU64Digits 0).2 = [] := by simp [toU64Digits]
  have nothingPrinted : populate "h" [] 0 = some "" := by simp [populate]
  refine ⟨?_, populate_toU64Digits "z" width⟩
  rw [getFkpsLibrarySrc_eq, noLimbs, List.length_nil, nothingPrinted, Option.some_bind,
    populate_of_separatorLimbs_lt "z" positive width (by decide), Option.map_none']

theorem getFkpsLibrarySrc_reads_h_limbs_at_full_word :
    0 < 1 ∧ (toU64Digits (2 ^ 192)).2.length = 4 * 1 ∧ getFkpsLibrarySrc "" 0 (2 ^ 192) 256 = none :=
  have width : (toU64Digits (2 ^ 192)).2.length = 4 * 1 :=
    (length_toU64Digits_eq_iff (by norm_num) 3).mpr ⟨by norm_num, by norm_num⟩
  ⟨by decide, width, (getFkpsLibrarySrc_reads_h_limbs "" 256 (by decide) width).1⟩

/-- **What `get_fkps_library_src` prints on whole chunks.** With `h` of
`K_h ≥ 1` words and `z` of any whole number of words, `h` is printed as its
words, and `z` as its words with the separator after line `i` exactly when
`i + 1 < K_h`: when `z` has more words than `h`, its later lines run together,
and when fewer, a separator trails its last line. -/
theorem getFkpsLibrarySrc_of_whole_chunks (template : String) (mLen : Nat) {h z : Int}
    {hCount zCount : Nat} (hPositive : 0 < hCount)
    (hWidth : (toU64Digits h).2.length = 4 * hCount)
    (zWidth : (toU64Digits z).2.length = 4 * zCount) :
    ∃ hWords zWords, BigEndianWords hCount h hWords ∧ BigEndianWords zCount z zWords ∧
      getFkpsLibrarySrc template h z mLen =
        some (((prepareTemplate template mLen).replace "<%pp_h_populate%>"
          (expectedPopulate "h" hWords)).replace "<%pp_z_populate%>"
            (renderWords "z" hCount 0 zWords)) := by
  refine ⟨_, _, bigEndianWords_of_length_mul hWidth, bigEndianWords_of_length_mul zWidth, ?_⟩
  rw [getFkpsLibrarySrc_eq, populate_of_length_mul "h" hWidth, Option.some_bind,
    populate_of_whole "z" (by omega) zWidth, hWidth, Nat.mul_div_cancel_left _ (by decide),
    Option.map_some']

theorem getFkpsLibrarySrc_of_whole_chunks_at_two_words :
    0 < 1 ∧ (toU64Digits (2 ^ 192)).2.length = 4 * 1 ∧
      (toU64Digits (2 ^ 448)).2.length = 4 * 2 ∧
      ∃ hWords zWords, BigEndianWords 1 (2 ^ 192) hWords ∧ BigEndianWords 2 (2 ^ 448) zWords ∧
        getFkpsLibrarySrc "" (2 ^ 192) (2 ^ 448) 512 =
          some (((prepareTemplate "" 512).replace "<%pp_h_populate%>"
            (expectedPopulate "h" hWords)).replace "<%pp_z_populate%>"
              (renderWords "z" 1 0 zWords)) :=
  have hWidth : (toU64Digits (2 ^ 192)).2.length = 4 * 1 :=
    (length_toU64Digits_eq_iff (by norm_num) 3).mpr ⟨by norm_num, by norm_num⟩
  have zWidth : (toU64Digits (2 ^ 448)).2.length = 4 * 2 :=
    (length_toU64Digits_eq_iff (by norm_num) 7).mpr ⟨by norm_num, by norm_num⟩
  ⟨by decide, hWidth, zWidth, getFkpsLibrarySrc_of_whole_chunks "" 512 (by decide) hWidth zWidth⟩

/-! ## Numbers the loop mishandles -/

/-- At `m = 2`, a single limb, both generators panic for every template and
`m_len`. At `m = 2^192`, four limbs, `get_rsa_library_src` with `m_len = 512`
declares two words but prints the single assignment of the word `2^192`. -/
theorem getLibrarySrc_fails_below_full_width :
    (toU64Digits 2).2 = [2] ∧
    (∀ (template : String) (mLen : Nat),
      getRsaLibrarySrc template 2 mLen = none ∧ getFkpsLibrarySrc template 2 2 mLen = none) ∧
    (toU64Digits (2 ^ 192)).2.length = 4 ∧ 512 / 256 = 2 ∧
    ∀ template : String, getRsaLibrarySrc template (2 ^ 192) 512 =
      some ((prepareTemplate template 512).replace "<%pp_m_populate%>"
        (expectedPopulate "m" [2 ^ 192])) := by
  have oneLimb : (toU64Digits 2).2 = [2] := by
    show (Nat.digits (2 ^ 64) 2).map UInt64.ofNat = [2]
    rw [Nat.digits_of_lt _ 2 (by decide) (by norm_num)]
    rfl
  have fourLimbs : (toU64Digits (2 ^ 192)).2.length = 4 * 1 :=
    (length_toU64Digits_eq_iff (by norm_num) 3).mpr ⟨by norm_num, by norm_num⟩
  have panics : populate "m" (toU64Digits 2).2 (toU64Digits 2).2.length = none ∧
      populate "h" (toU64Digits 2).2 (toU64Digits 2).2.length = none := by
    constructor <;> exact populate_of_length_mod _ (by rw [oneLimb]; decide)
  refine ⟨oneLimb, fun template mLen => ⟨?_, ?_⟩, fourLimbs, rfl, fun template => ?_⟩
  · rw [getRsaLibrarySrc_eq, panics.1, Option.map_none']
  · rw [getFkpsLibrarySrc_eq, panics.2, Option.none_bind]
  · obtain ⟨words, ⟨oneWord, -, value⟩, populated⟩ := populate_toU64Digits "m" fourLimbs
    obtain ⟨word, rfl⟩ := List.length_eq_one.mp oneWord
    rw [List.reverse_singleton, Nat.ofDigits_singleton, Int.natAbs_pow] at value
    rw [getRsaLibrarySrc_eq, populated, Option.map_some', value]
    rfl

end SealedBidAuctions.Solidity
