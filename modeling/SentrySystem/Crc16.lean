/-
The two CRC-16 implementations of the frame header.

The device (`src/crc/crc.c`) looks its remainders up in a table of 256 words,
the Qt host (`QT/Desktop/src/protocol.cpp`) clocks the register bit by bit.

* `crc16Table_spec` — every table entry is the eight-clock remainder of its index;
* `crc16Ccitt_eq_crc16Xmodem` — the two functions agree on every byte string.
-/
import Mathlib.Data.Nat.Bitwise
import SentrySystem.Lib.MsbCrc

open MsbCrc

namespace Sentry

/-- `crc16_table`: the lookup table of the polynomial 0x1021. -/
def crc16Table : Array UInt16 := #[
  0x0000, 0x1021, 0x2042, 0x3063, 0x4084, 0x50A5, 0x60C6, 0x70E7,
  0x8108, 0x9129, 0xA14A, 0xB16B, 0xC18C, 0xD1AD, 0xE1CE, 0xF1EF,
  0x1231, 0x0210, 0x3273, 0x2252, 0x52B5, 0x4294, 0x72F7, 0x62D6,
  0x9339, 0x8318, 0xB37B, 0xA35A, 0xD3BD, 0xC39C, 0xF3FF, 0xE3DE,
  0x2462, 0x3443, 0x0420, 0x1401, 0x64E6, 0x74C7, 0x44A4, 0x5485,
  0xA56A, 0xB54B, 0x8528, 0x9509, 0xE5EE, 0xF5CF, 0xC5AC, 0xD58D,
  0x3653, 0x2672, 0x1611, 0x0630, 0x76D7, 0x66F6, 0x5695, 0x46B4,
  0xB75B, 0xA77A, 0x9719, 0x8738, 0xF7DF, 0xE7FE, 0xD79D, 0xC7BC,
  0x48C4, 0x58E5, 0x6886, 0x78A7, 0x0840, 0x1861, 0x2802, 0x3823,
  0xC9CC, 0xD9ED, 0xE98E, 0xF9AF, 0x8948, 0x9969, 0xA90A, 0xB92B,
  0x5AF5, 0x4AD4, 0x7AB7, 0x6A96, 0x1A71, 0x0A50, 0x3A33, 0x2A12,
  0xDBFD, 0xCBDC, 0xFBBF, 0xEB9E, 0x9B79, 0x8B58, 0xBB3B, 0xAB1A,
  0x6CA6, 0x7C87, 0x4CE4, 0x5CC5, 0x2C22, 0x3C03, 0x0C60, 0x1C41,
  0xEDAE, 0xFD8F, 0xCDEC, 0xDDCD, 0xAD2A, 0xBD0B, 0x8D68, 0x9D49,
  0x7E97, 0x6EB6, 0x5ED5, 0x4EF4, 0x3E13, 0x2E32, 0x1E51, 0x0E70,
  0xFF9F, 0xEFBE, 0xDFDD, 0xCFFC, 0xBF1B, 0xAF3A, 0x9F59, 0x8F78,
  0x9188, 0x81A9, 0xB1CA, 0xA1EB, 0xD10C, 0xC12D, 0xF14E, 0xE16F,
  0x1080, 0x00A1, 0x30C2, 0x20E3, 0x5004, 0x4025, 0x7046, 0x6067,
  0x83B9, 0x9398, 0xA3FB, 0xB3DA, 0xC33D, 0xD31C, 0xE37F, 0xF35E,
  0x02B1, 0x1290, 0x22F3, 0x32D2, 0x4235, 0x5214, 0x6277, 0x7256,
  0xB5EA, 0xA5CB, 0x95A8, 0x8589, 0xF56E, 0xE54F, 0xD52C, 0xC50D,
  0x34E2, 0x24C3, 0x14A0, 0x0481, 0x7466, 0x6447, 0x5424, 0x4405,
  0xA7DB, 0xB7FA, 0x8799, 0x97B8, 0xE75F, 0xF77E, 0xC71D, 0xD73C,
  0x26D3, 0x36F2, 0x0691, 0x16B0, 0x6657, 0x7676, 0x4615, 0x5634,
  0xD94C, 0xC96D, 0xF90E, 0xE92F, 0x99C8, 0x89E9, 0xB98A, 0xA9AB,
  0x5844, 0x4865, 0x7806, 0x6827, 0x18C0, 0x08E1, 0x3882, 0x28A3,
  0xCB7D, 0xDB5C, 0xEB3F, 0xFB1E, 0x8BF9, 0x9BD8, 0xABBB, 0xBB9A,
  0x4A75, 0x5A54, 0x6A37, 0x7A16, 0x0AF1, 0x1AD0, 0x2AB3, 0x3A92,
  0xFD2E, 0xED0F, 0xDD6C, 0xCD4D, 0xBDAA, 0xAD8B, 0x9DE8, 0x8DC9,
  0x7C26, 0x6C07, 0x5C64, 0x4C45, 0x3CA2, 0x2C83, 0x1CE0, 0x0CC1,
  0xEF1F, 0xFF3E, 0xCF5D, 0xDF7C, 0xAF9B, 0xBFBA, 0x8FD9, 0x9FF8,
  0x6E17, 0x7E36, 0x4E55, 0x5E74, 0x2E93, 0x3EB2, 0x0ED1, 0x1EF0]

/-- One round of the loop of `crc16_ccitt`. -/
def crc16CcittByte (crc : UInt16) (b : UInt8) : UInt16 :=
  (crc <<< 8) ^^^ crc16Table.getD (((crc >>> 8) ^^^ b.toUInt16) &&& 0xFF).toNat 0

/-- `crc16_ccitt`: the table-driven CRC of the device. -/
def crc16Ccitt (data : List UInt8) : UInt16 := data.foldl crc16CcittByte 0x0000

/-- The body of the inner loop of `crc16Xmodem`. -/
def crc16XmodemBit (crc : UInt16) : UInt16 :=
  if crc &&& 0x8000 != 0 then (crc <<< 1) ^^^ 0x1021 else crc <<< 1

/-- One round of the outer loop of `crc16Xmodem`: eight rounds of the inner one. -/
def crc16XmodemByte (crc : UInt16) (b : UInt8) : UInt16 :=
  Nat.repeat crc16XmodemBit 8 (crc ^^^ (b.toUInt16 <<< 8))

/-- `crc16Xmodem`: the bit-by-bit CRC of the Qt host. -/
def crc16Xmodem (data : List UInt8) : UInt16 := data.foldl crc16XmodemByte 0x0000

/-! ### The two byte steps agree -/

theorem testBit_crc (crc : UInt16) : (crc &&& 0x8000 != 0) = crc.toBitVec.msb := by
  have hand : (crc &&& 0x8000).toNat = (crc.toNat.testBit 15).toNat * 2 ^ 15 := by
    rw [UInt16.toNat_and]
    exact Nat.and_two_pow crc.toNat 15
  have hmsb : crc.toBitVec.msb = crc.toNat.testBit 15 := by
    rw [BitVec.msb_eq_getLsbD_last]
    rfl
  rw [hmsb, Bool.eq_iff_iff, bne_iff_ne, Ne, ← UInt16.toNat_inj, hand]
  cases crc.toNat.testBit 15 <;> simp

/-- The inner loop body of `crc16Xmodem` is one clock of the register. -/
theorem crc16XmodemBit_toBitVec (crc : UInt16) :
    (crc16XmodemBit crc).toBitVec = shift1 0x1021#16 crc.toBitVec := by
  rw [crc16XmodemBit, shift1, testBit_crc]
  cases crc.toBitVec.msb <;> simp

theorem repeat_crc16XmodemBit (n : ℕ) (crc : UInt16) :
    (Nat.repeat crc16XmodemBit n crc).toBitVec = shifts 0x1021#16 n crc.toBitVec := by
  induction n with
  | zero => rfl
  | succ n ih => rw [Nat.repeat, shifts, crc16XmodemBit_toBitVec, ih]

/-- Every entry of the table is the eight-clock remainder of its index. -/
theorem crc16Table_spec (b : UInt8) :
    crc16Table.getD b.toNat 0 = Nat.repeat crc16XmodemBit 8 (b.toUInt16 <<< 8) := by
  have h : ∀ i : Fin 256, crc16Table.getD i 0 =
      Nat.repeat crc16XmodemBit 8 ((UInt8.ofFin i).toUInt16 <<< 8) := by
    decide +kernel
  exact h b.toFin

theorem toUInt16_shiftLeft_toBitVec (b : UInt8) :
    (b.toUInt16 <<< 8).toBitVec = topByte 16 b.toBitVec := by
  simp [topByte]

/-- The index of the table lookup is the top byte of the register exclusive-ored
with the new byte. -/
theorem crc16Ccitt_index (crc : UInt16) (b : UInt8) :
    (((crc >>> 8) ^^^ b.toUInt16) &&& (0xFF : UInt16)).toNat =
      (UInt8.ofBitVec ((crc.toBitVec >>> 8).setWidth 8 ^^^ b.toBitVec)).toNat := by
  have hcrc : crc.toNat >>> 8 < 256 := by
    rw [Nat.shiftRight_eq_div_pow]
    have := crc.toNat_lt
    omega
  have hxor : crc.toNat >>> 8 ^^^ b.toNat < 2 ^ 8 := Nat.xor_lt_two_pow (n := 8) hcrc b.toNat_lt
  -- the mask of the code changes nothing
  have hand : (crc.toNat >>> 8 ^^^ b.toNat) &&& 255 = crc.toNat >>> 8 ^^^ b.toNat := by
    rw [Nat.and_two_pow_sub_one_eq_mod _ 8, Nat.mod_eq_of_lt hxor]
  simpa [Nat.mod_eq_of_lt hcrc] using hand

theorem crc16CcittByte_eq (crc : UInt16) (b : UInt8) :
    crc16CcittByte crc b = crc16XmodemByte crc b := by
  rw [crc16CcittByte, crc16Ccitt_index, crc16Table_spec, crc16XmodemByte,
    ← UInt16.toBitVec_inj, repeat_crc16XmodemBit, UInt16.toBitVec_xor, UInt16.toBitVec_xor,
    repeat_crc16XmodemBit, toUInt16_shiftLeft_toBitVec, toUInt16_shiftLeft_toBitVec,
    shifts_byte (by norm_num)]
  rfl

/-- **The device's and the host's CRC are the same function.** -/
theorem crc16Ccitt_eq_crc16Xmodem (data : List UInt8) : crc16Ccitt data = crc16Xmodem data := by
  rw [crc16Ccitt, crc16Xmodem]
  congr 1
  funext crc b
  exact crc16CcittByte_eq crc b

end Sentry
