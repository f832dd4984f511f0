import BlackboxExporter.Icmp.Probe

/-! The Internet checksum that `Message.Marshal` writes into the ICMPv4
messages of `probeICMP`.

`checksum` adds the message as 16-bit words, low byte first, in a `uint32`,
folds the carries back into 16 bits and complements the result. Over the
marshalled message, whose bytes 2 and 3 now hold that checksum, the same
computation gives zero, which is the check a receiver makes. The arithmetic is
done over the natural numbers: `wordSum` is the loop's sum without the `uint32`
wrap, which a message that fits in one IPv4 packet never reaches, and
`foldCarries` is the fold, a ones' complement sum congruent to the sum modulo
`2^16 - 1`. -/

namespace BlackboxExporter.Icmp

/-! ### The loop and the fold over the natural numbers -/

/-- The words `checksumFrom` adds, low byte first, and an odd last byte alone. -/
def wordSum : List UInt8 → Nat
  | [] => 0
  | [last] => last.toNat
  | low :: high :: rest => high.toNat * 256 + low.toNat + wordSum rest

def foldCarries (sum : Nat) : Nat :=
  let folded := sum / 65536 + sum % 65536
  (folded + folded / 65536) % 65536

/-- `BitVec.toNat_add` on the bit vectors under `UInt32`. -/
theorem toNat_add32 (a b : UInt32) : (a + b).toNat = (a.toNat + b.toNat) % 2 ^ 32 :=
  BitVec.toNat_add _ _

theorem toNat_shiftRight16 (a : UInt32) : (a >>> 16).toNat = a.toNat / 65536 := by
  show (a.toBitVec >>> (16 : UInt32).toBitVec).toNat = _
  simp [UInt32.toNat, Nat.shiftRight_eq_div_pow]

theorem toNat_and65535 (a : UInt32) : (a &&& 65535).toNat = a.toNat % 65536 := by
  show (a.toBitVec &&& (65535 : UInt32).toBitVec).toNat = _
  simp only [BitVec.toNat_and]
  exact Nat.and_pow_two_sub_one_eq_mod _ 16

theorem toNat_toUInt16 (a : UInt32) : a.toUInt16.toNat = a.toNat % 65536 :=
  BitVec.toNat_ofNat _ 16

theorem toNat_complement (a : UInt16) : (~~~a).toNat = 65535 - a.toNat :=
  BitVec.toNat_not

theorem toNat_shiftRight8 (a : UInt16) : (a >>> 8).toNat = a.toNat / 256 := by
  show (a.toBitVec >>> (8 : UInt16).toBitVec).toNat = _
  simp [UInt16.toNat, Nat.shiftRight_eq_div_pow]

theorem word_toNat (low high : UInt8) :
    ((high.toUInt32 <<< 8) ||| low.toUInt32).toNat = high.toNat * 256 + low.toNat := by
  have lowLt : low.toNat < 2 ^ 8 := low.toNat_lt_size
  have highLt : high.toNat < 2 ^ 8 := high.toNat_lt_size
  have shifted : high.toNat <<< 8 = 2 ^ 8 * high.toNat := by
    rw [Nat.shiftLeft_eq, Nat.mul_comm]
  show (high.toUInt32.toBitVec <<< (8 : UInt32).toBitVec ||| low.toUInt32.toBitVec).toNat = _
  simp only [UInt8.toUInt32, UInt32.toBitVec_ofNat, BitVec.shiftLeft_eq', BitVec.toNat_ofNat,
    BitVec.toNat_or, BitVec.toNat_shiftLeft, BitVec.toNat_ofFin]
  rw [shifted, Nat.mod_eq_of_lt (by omega), ← Nat.mul_add_lt_is_or lowLt]
  omega

theorem checksumFrom_toNat (s : UInt32) (b : List UInt8) :
    (checksumFrom s b).toNat = (s.toNat + wordSum b) % 2 ^ 32 := by
  induction s, b using checksumFrom.induct with
  | case1 s => simp [checksumFrom, wordSum, Nat.mod_eq_of_lt s.toNat_lt_size]
  | case2 s last => rw [checksumFrom, wordSum, toNat_add32]; rfl
  | case3 s low high rest inductionHypothesis =>
      rw [checksumFrom, inductionHypothesis, wordSum, toNat_add32, word_toNat]
      omega

theorem checksum_toNat (b : List UInt8) (fits : wordSum b < 2 ^ 32) :
    (checksum b).toNat = 65535 - foldCarries (wordSum b) := by
  have sum : (checksumFrom 0 b).toNat = wordSum b := by
    rw [checksumFrom_toNat, UInt32.toNat_zero, Nat.zero_add, Nat.mod_eq_of_lt fits]
  have foldedLt : wordSum b / 65536 + wordSum b % 65536 < 2 ^ 32 := by omega
  have carriedLt : (wordSum b / 65536 + wordSum b % 65536) +
      (wordSum b / 65536 + wordSum b % 65536) / 65536 < 2 ^ 32 := by omega
  simp only [checksum, toNat_complement, toNat_toUInt16, toNat_add32, toNat_shiftRight16,
    toNat_and65535, sum, Nat.mod_eq_of_lt foldedLt, Nat.mod_eq_of_lt carriedLt]
  rfl

/-- The fold is a ones' complement sum: at most `0xffff`, congruent to the sum
modulo `0xffff`, and zero only for the zero sum. -/
theorem foldCarries_spec {sum : Nat} (fits : sum < 2 ^ 32) :
    foldCarries sum ≤ 65535 ∧ foldCarries sum % 65535 = sum % 65535 ∧
      (foldCarries sum = 0 ↔ sum = 0) := by
  have congruent : (sum / 65536 + sum % 65536) % 65535 = sum % 65535 := by
    conv_rhs => rw [show sum = (sum / 65536 + sum % 65536) + 65535 * (sum / 65536) by omega]
    rw [Nat.add_mul_mod_self_left]
  have bound : sum / 65536 + sum % 65536 ≤ 131070 := by omega
  have zero : sum / 65536 + sum % 65536 = 0 ↔ sum = 0 := by omega
  simp only [foldCarries]
  generalize sum / 65536 + sum % 65536 = folded at congruent bound zero ⊢
  rw [← congruent, ← zero]
  by_cases carry : folded < 65536
  · rw [Nat.div_eq_of_lt carry]
    omega
  · have once : folded / 65536 = 1 := by omega
    rw [once]
    omega

theorem wordSum_le (b : List UInt8) : wordSum b ≤ 65535 * ((b.length + 1) / 2) := by
  induction b using wordSum.induct with
  | case1 => simp [wordSum]
  | case2 last =>
      have lastLt : last.toNat < 256 := last.toNat_lt_size
      simp only [wordSum, List.length_singleton]
      omega
  | case3 low high rest inductionHypothesis =>
      have lowLt : low.toNat < 256 := low.toNat_lt_size
      have highLt : high.toNat < 256 := high.toNat_lt_size
      simp only [wordSum, List.length_cons]
      omega

theorem halves_toNat (c : UInt16) :
    (c >>> 8).toUInt8.toNat * 256 + c.toUInt8.toNat = c.toNat := by
  have lt : c.toNat < 65536 := c.toNat_lt_size
  simp only [UInt16.toUInt8, toNat_toUInt8, toNat_shiftRight8]
  omega

theorem wordSum_header (first second third fourth : UInt8) (rest : List UInt8) :
    wordSum ([first, second, third, fourth] ++ rest) =
      second.toNat * 256 + first.toNat + (fourth.toNat * 256 + third.toNat) + wordSum rest := by
  show wordSum (first :: second :: third :: fourth :: rest) = _
  simp only [wordSum]
  omega

/-! ### Marshalled messages pass the check -/

/-- Writing the checksum of a message into its zero bytes 2 and 3, low byte
first, gives a message whose checksum is zero. -/
theorem checksum_filled (type code : UInt8) (rest : List UInt8)
    (fits : wordSum rest + 2 * 65535 < 2 ^ 32) :
    let c := checksum ([type, code, 0, 0] ++ rest)
    checksum ([type, code, c.toUInt8, (c >>> 8).toUInt8] ++ rest) = 0 := by
  intro c
  have typeLt : type.toNat < 256 := type.toNat_lt_size
  have codeLt : code.toNat < 256 := code.toNat_lt_size
  have checksumLt : c.toNat < 65536 := c.toNat_lt_size
  have filled : wordSum ([type, code, c.toUInt8, (c >>> 8).toUInt8] ++ rest) =
      wordSum ([type, code, 0, 0] ++ rest) + c.toNat := by
    rw [wordSum_header, wordSum_header, halves_toNat, UInt8.toNat_zero]
    omega
  have zeroedFits : wordSum ([type, code, 0, 0] ++ rest) < 2 ^ 32 := by
    rw [wordSum_header, UInt8.toNat_zero]
    omega
  have filledFits : wordSum ([type, code, c.toUInt8, (c >>> 8).toUInt8] ++ rest) < 2 ^ 32 := by
    rw [filled, wordSum_header, UInt8.toNat_zero]
    omega
  have written : c.toNat = 65535 - foldCarries (wordSum ([type, code, 0, 0] ++ rest)) :=
    checksum_toNat _ zeroedFits
  have zeroedSpec := foldCarries_spec zeroedFits
  have filledSpec := foldCarries_spec filledFits
  rw [filled] at filledSpec
  apply UInt16.toNat.inj
  rw [checksum_toNat _ filledFits, filled, UInt16.toNat_zero]
  generalize wordSum ([type, code, 0, 0] ++ rest) = sum at written zeroedSpec filledSpec
  omega

/-- Every ICMPv4 echo message that fits in one IPv4 packet (20 bytes of IP
header, 8 of ICMP header) is marshalled with a checksum the receiver accepts. -/
theorem Message.checksum_marshal {m : Message} (v4 : m.type.isIPv6 = false)
    (fits : 28 + m.body.data.length ≤ 65535) : checksum m.marshal = 0 := by
  have bodyLength : m.body.marshal.length = 4 + m.body.data.length := by
    simp [Echo.marshal, putUint16]
    omega
  have bodyBound := wordSum_le m.body.marshal
  simp only [Message.marshal, v4, Bool.false_eq_true, if_false]
  exact checksum_filled _ _ _ (by omega)

/-- Every echo request `probeICMP` writes to an IPv4 target, and the reply it
waits for, carry a checksum the receiver accepts, whatever the process id and
the sequence number. -/
theorem echo_checksums_valid (pid : Nat) (sequence : UInt16) :
    checksum (echoRequest pid false sequence).marshal = 0 ∧
      checksum (expectedReply pid false sequence) = 0 :=
  have dataLength : echoData.length = 28 := rfl
  ⟨Message.checksum_marshal rfl (by simp [echoRequest, dataLength]),
    Message.checksum_marshal rfl (by simp [echoRequest, dataLength])⟩

end BlackboxExporter.Icmp
