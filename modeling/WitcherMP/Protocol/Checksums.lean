import WitcherMP.Lib.Weighted
import WitcherMP.Protocol.Wire

/-! The checksum as a sum of weighted places. Up to the largest packet, no share of a byte and no
two shares together reach the modulus. -/

namespace WitcherMP.Protocol.OptimizedNetworkProtocol

theorem toNat_checksumFrom (place : ℕ) (data : List UInt8) :
    (checksumFrom place data).toNat =
      weighted (fun i => place + i + 1) UInt8.toNat data % 2 ^ 32 := by
  induction data generalizing place with
  | nil => rfl
  | cons b bs ih =>
    have hweight : (fun i => place + (i + 1) + 1) = fun i => place + 1 + i + 1 := by
      funext i
      omega
    rw [checksumFrom, UInt32.toNat_add, UInt32.toNat_ofNat', ih, Weighted.weighted_cons, hweight,
      ← Nat.add_mod]

theorem modEq_of_calculateChecksum {data data' : List UInt8}
    (h : calculateChecksum data' = calculateChecksum data) :
    weighted (fun i => 0 + i + 1) UInt8.toNat data' ≡
      weighted (fun i => 0 + i + 1) UInt8.toNat data [MOD 2 ^ 32] := by
  have hnat := congrArg UInt32.toNat h
  rwa [calculateChecksum, calculateChecksum, toNat_checksumFrom, toNat_checksumFrom] at hnat

theorem share_le (b : UInt8) {n i : ℕ} (hn : n ≤ maxPacketSize) (hi : i < n) :
    b.toNat * (0 + i + 1) ≤ 255 * 1048576 := by
  have hmax : maxPacketSize = 1048576 := by decide
  have hb := b.toNat_lt
  apply Nat.mul_le_mul <;> omega

variable {packet : NetworkPacket}

theorem calculateChecksum_eq_of_valid {data : List UInt8} (hvalid : validatePacket packet = true)
    (hdata : validatePacket { packet with data := data } = true) :
    calculateChecksum data = calculateChecksum packet.data := by
  obtain ⟨-, -, -, hsum⟩ := validatePacket_iff.mp hvalid
  obtain ⟨-, -, -, hsum'⟩ := validatePacket_iff.mp hdata
  exact hsum'.trans hsum.symm

theorem rejects_byte (hsize : packet.data.length ≤ maxPacketSize)
    (hvalid : validatePacket packet = true) {i : ℕ} (hi : i < packet.data.length) {b : UInt8}
    (hb : b ≠ packet.data[i]) :
    validatePacket { packet with data := packet.data.set i b } = false := by
  apply Bool.eq_false_of_not_eq_true
  intro haccepted
  have hsum := modEq_of_calculateChecksum (calculateChecksum_eq_of_valid hvalid haccepted)
  have hnew := share_le b hsize hi
  have hold := share_le packet.data[i] hsize hi
  have hvalue := Weighted.value_eq_of_set hi (by omega) (by omega) (by omega) hsum
  exact hb (UInt8.toNat_inj.mp hvalue)

theorem rejects_exchange (hsize : packet.data.length ≤ maxPacketSize)
    (hvalid : validatePacket packet = true) {i j : ℕ} (hi : i < packet.data.length)
    (hj : j < packet.data.length) (hne : packet.data[i] ≠ packet.data[j]) :
    validatePacket
      { packet with data := (packet.data.set i packet.data[j]).set j packet.data[i] } = false := by
  apply Bool.eq_false_of_not_eq_true
  intro haccepted
  have hsum := modEq_of_calculateChecksum (calculateChecksum_eq_of_valid hvalid haccepted)
  have hii := share_le packet.data[i] hsize hi
  have hjj := share_le packet.data[j] hsize hj
  have hij := share_le packet.data[i] hsize hj
  have hji := share_le packet.data[j] hsize hi
  have hplace : i ≠ j := by
    rintro rfl
    exact hne rfl
  have hvalue := Weighted.value_eq_of_swap hi hj (by omega) (by omega) (by omega) hsum
  exact hne (UInt8.toNat_inj.mp hvalue)

/-- A valid packet of at most the largest size is no longer valid when one byte of its data is
changed, or two bytes that differ change places. -/
theorem rejects_corrupted (hsize : packet.data.length ≤ maxPacketSize)
    (hvalid : validatePacket packet = true) :
    (∀ (i : ℕ) (hi : i < packet.data.length) (b : UInt8), b ≠ packet.data[i] →
      validatePacket { packet with data := packet.data.set i b } = false) ∧
    ∀ (i j : ℕ) (hi : i < packet.data.length) (hj : j < packet.data.length),
      packet.data[i] ≠ packet.data[j] →
      validatePacket
        { packet with data := (packet.data.set i packet.data[j]).set j packet.data[i] } = false :=
  ⟨fun _ hi _ hb => rejects_byte hsize hvalid hi hb,
    fun _ _ hi hj hne => rejects_exchange hsize hvalid hi hj hne⟩

theorem rejects_corrupted_three :
    let packet : NetworkPacket := NetworkPacket.setData {} [5, 6, 5]
    (∀ (i : ℕ) (hi : i < packet.data.length) (b : UInt8), b ≠ packet.data[i] →
      validatePacket { packet with data := packet.data.set i b } = false) ∧
    ∀ (i j : ℕ) (hi : i < packet.data.length) (hj : j < packet.data.length),
      packet.data[i] ≠ packet.data[j] →
      validatePacket
        { packet with data := (packet.data.set i packet.data[j]).set j packet.data[i] } = false :=
  rejects_corrupted (by decide) (by decide)

end WitcherMP.Protocol.OptimizedNetworkProtocol
