import Mathlib.Tactic.Common

/-!
# `UpsFirmware.Common.Msg`: the message of the inter-MCU link

`struct Msg` (`common/msg.h`) has five `uint16_t` and three `uint8_t` members.
Both targets align it to two bytes, so its size is 14 and byte 13 is padding. The
codec and the kernel queue handle a message as these 14 bytes. `Image` is that
type.

`Msg.image` lays a message out, both targets being little-endian, with an
arbitrary value in the padding byte. `Msg.ofImage` reads the members back.
`Msg.ofImage_image` is the round trip.
-/

set_option autoImplicit false

namespace UpsFirmware

def MSG_STATE_ERROR : UInt8 := 0
def MSG_STATE_CHARGING : UInt8 := 1
def MSG_STATE_DISCHARGING : UInt8 := 2

/-- `struct Msg`. -/
structure Msg where
  vout : UInt16
  vbat : UInt16
  iout : UInt16
  ibat : UInt16
  gas : UInt16
  state : UInt8
  pad : UInt8
  powerDwn : UInt8
deriving DecidableEq, Repr

/-- `sizeof(struct Msg)`. -/
def sizeofMsg : Nat := 14

/-- The bytes of a `struct Msg` in memory. -/
abbrev Image := Vector UInt8 sizeofMsg

/-- The two bytes of a `uint16_t`, low byte first. -/
def lowByte (x : UInt16) : UInt8 := UInt8.ofNat (x.toNat % 256)

def highByte (x : UInt16) : UInt8 := UInt8.ofNat (x.toNat / 256)

/-- The `uint16_t` in two bytes. -/
def uint16Of (low high : UInt8) : UInt16 := UInt16.ofNat (low.toNat + 256 * high.toNat)

@[simp] theorem uint16Of_bytes (x : UInt16) : uint16Of (lowByte x) (highByte x) = x := by
  have hx : x.toNat < 65536 := x.toNat_lt
  have hlow : (lowByte x).toNat = x.toNat % 256 := by
    simp [lowByte, UInt8.toNat_ofNat']
  have hhigh : (highByte x).toNat = x.toNat / 256 := by
    rw [highByte, UInt8.toNat_ofNat']
    omega
  rw [uint16Of, hlow, hhigh, Nat.mod_add_div]
  exact UInt16.ofNat_toNat

/-- The memory of a message. `tail` is the padding byte, whose value C leaves
open. -/
def Msg.image (m : Msg) (tail : UInt8) : Image :=
  #v[lowByte m.vout, highByte m.vout, lowByte m.vbat, highByte m.vbat,
    lowByte m.iout, highByte m.iout, lowByte m.ibat, highByte m.ibat,
    lowByte m.gas, highByte m.gas, m.state, m.pad, m.powerDwn, tail]

/-- The members of the message in 14 bytes of memory. -/
def Msg.ofImage (b : Image) : Msg where
  vout := uint16Of b[0] b[1]
  vbat := uint16Of b[2] b[3]
  iout := uint16Of b[4] b[5]
  ibat := uint16Of b[6] b[7]
  gas := uint16Of b[8] b[9]
  state := b[10]
  pad := b[11]
  powerDwn := b[12]

/-- The members survive the trip through memory, whatever the padding is. -/
theorem Msg.ofImage_image (m : Msg) (tail : UInt8) : Msg.ofImage (m.image tail) = m := by
  show Msg.mk (uint16Of (lowByte m.vout) (highByte m.vout))
      (uint16Of (lowByte m.vbat) (highByte m.vbat)) (uint16Of (lowByte m.iout) (highByte m.iout))
      (uint16Of (lowByte m.ibat) (highByte m.ibat)) (uint16Of (lowByte m.gas) (highByte m.gas))
      m.state m.pad m.powerDwn = m
  simp only [uint16Of_bytes]

end UpsFirmware
