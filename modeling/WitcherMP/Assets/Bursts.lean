import WitcherMP.Assets.Defs
import WitcherMP.Lib.Remainders

/-! A run of at most four bytes that is damaged shows in the checksum of an asset, wherever it is
and however many bytes there are: the checksum is a remainder of thirty-two bits. -/

namespace WitcherMP.Assets.AssetLoader
open Remainders (reduce takeIn Narrow)

def polynomial : BitVec 32 := 0xEDB88320

def crcBit (crc : UInt32) : UInt32 :=
  if crc &&& 1 ≠ 0 then (crc >>> 1) ^^^ 0xEDB88320 else crc >>> 1

def crcWord (byte : UInt8) : BitVec 32 := byte.toUInt32.toBitVec

theorem and_one_ne_zero_iff (crc : UInt32) : crc &&& 1 ≠ 0 ↔ crc.toBitVec.getLsbD 0 = true := by
  have hlow : (crc &&& 1).toBitVec = BitVec.setWidth 32 (BitVec.ofBool (crc.toBitVec.getLsbD 0)) := by
    rw [UInt32.toBitVec_and]
    exact BitVec.and_one_eq_setWidth_ofBool_getLsbD
  rw [ne_eq, ← UInt32.toBitVec_inj, hlow]
  cases crc.toBitVec.getLsbD 0 <;> decide

theorem toBitVec_crcBit (crc : UInt32) : (crcBit crc).toBitVec = reduce polynomial crc.toBitVec := by
  unfold crcBit reduce
  by_cases hbit : crc.toBitVec.getLsbD 0 = true
  · rw [if_pos hbit, if_pos ((and_one_ne_zero_iff crc).mpr hbit)]
    rfl
  · rw [if_neg hbit, if_neg (mt (and_one_ne_zero_iff crc).mp hbit)]
    rfl

theorem toBitVec_crcByte (crc : UInt32) (byte : UInt8) :
    (crcByte crc byte).toBitVec = takeIn polynomial 8 crc.toBitVec (crcWord byte) := by
  have hbits : crcByte crc byte = crcBit^[8] (crc ^^^ byte.toUInt32) := rfl
  have hsteps : Function.Semiconj UInt32.toBitVec crcBit (reduce polynomial) := toBitVec_crcBit
  rw [hbits, hsteps.iterate_right 8]
  rfl

theorem toBitVec_foldl_crcByte (data : List UInt8) (crc : UInt32) :
    (data.foldl crcByte crc).toBitVec =
      (data.map crcWord).foldl (takeIn polynomial 8) crc.toBitVec := by
  induction data generalizing crc with
  | nil => rfl
  | cons byte data ih =>
    rw [List.foldl_cons, ih, toBitVec_crcByte]
    rfl

theorem narrow_crcWord (byte : UInt8) : Narrow 8 (crcWord byte) := by
  intro i hi
  have hlt : byte.toNat < 2 ^ i := byte.toNat_lt.trans_le (Nat.pow_le_pow_right (by decide) hi)
  exact Nat.testBit_lt_two_pow hlt

theorem crcWord_injective : Function.Injective crcWord := by
  intro byte byte' h
  have hnat : byte.toUInt32.toBitVec.toNat = byte'.toUInt32.toBitVec.toNat :=
    congrArg BitVec.toNat h
  exact UInt8.toNat_inj.mp hnat

/-- Putting other bytes in place of at most four in a row changes the checksum, and an asset that
passed its check no longer does. -/
theorem calculateChecksum_burst (front behind : List UInt8) {run damaged : List UInt8}
    (hlen : run.length = damaged.length) (hshort : run.length ≤ 4) (hne : run ≠ damaged) :
    calculateChecksum (front ++ run ++ behind) ≠ calculateChecksum (front ++ damaged ++ behind) ∧
      ∀ assetData : AssetData, assetData.data = front ++ run ++ behind →
        verifyAssetIntegrity assetData →
          verifyAssetIntegrity { assetData with data := front ++ damaged ++ behind } = false := by
  have hchanged : calculateChecksum (front ++ run ++ behind) ≠
      calculateChecksum (front ++ damaged ++ behind) := by
    intro h
    have hcrc := congrArg UInt32.toBitVec (UInt32.not_inj.mp h)
    rw [toBitVec_foldl_crcByte, toBitVec_foldl_crcByte] at hcrc
    simp only [List.map_append] at hcrc
    have hnarrow : ∀ bytes : List UInt8, ∀ x ∈ bytes.map crcWord, Narrow 8 x := by
      intro bytes x hx
      obtain ⟨byte, -, rfl⟩ := List.mem_map.mp hx
      exact narrow_crcWord byte
    refine Remainders.foldl_takeIn_ne (by decide) (hnarrow run) (hnarrow damaged) ?_ ?_ ?_ _ _ _ hcrc
    · simpa using hlen
    · rw [List.length_map]
      omega
    · exact fun heq => hne (List.map_injective_iff.mpr crcWord_injective heq)
  refine ⟨hchanged, fun assetData hdata hpass => ?_⟩
  have hsum : calculateChecksum assetData.data = assetData.checksum := of_decide_eq_true hpass
  rw [verifyAssetIntegrity, decide_eq_false_iff_not, ← hsum, hdata]
  exact hchanged.symm

theorem calculateChecksum_burst_four :
    calculateChecksum ([1] ++ [2, 3, 4, 5] ++ [6]) ≠ calculateChecksum ([1] ++ [2, 0, 0, 9] ++ [6]) ∧
      ∀ assetData : AssetData, assetData.data = [1] ++ [2, 3, 4, 5] ++ [6] →
        verifyAssetIntegrity assetData →
          verifyAssetIntegrity { assetData with data := [1] ++ [2, 0, 0, 9] ++ [6] } = false :=
  calculateChecksum_burst [1] [6] rfl (by decide) (by decide)

end WitcherMP.Assets.AssetLoader
