import UpsFirmware.Lib.Mirror
import UpsFirmware.Lib.Runs

/-!
# `UpsFirmware.Esp32.Framebuffer`: the rotated screen

`patches/csd.patch` adds a loop to `cfb_framebuffer_finalize` of the Zephyr display
library, which turns the framebuffer around when the screen is upside down. One byte
holds 8 pixels, so the loop also reverses every byte. `byte_reverse` is not part of the
patch, and it is a parameter here.

The loop works in place with two indices, of which `end` is a `uint16_t` and runs down.
It starts at the number of bytes, one too far. `rotate_shifted` is what the loop leaves
for every framebuffer below 65536 bytes, and `rotates_iff` says when that is the rotation.
-/

set_option autoImplicit false

namespace UpsFirmware.Esp32

open Lib

/-- The members of `struct char_framebuffer` that the loop reads. `buf` is the memory from
`fb->buf` on, and the display has whole bytes. -/
structure Framebuffer where
  xRes : UInt16
  yRes : UInt16
  buf : Nat → UInt8
  wholeBytes : 8 ∣ xRes.toNat * yRes.toNat

/-- The number of bytes of the framebuffer. The product of the resolutions fits
`unsigned int`, to which the `U` of the divisor converts it. -/
def Framebuffer.size (fb : Framebuffer) : Nat := fb.xRes.toNat * fb.yRes.toNat / 8

/-- The variables of the loop, and the indices of `fb->buf` that it has accessed. -/
structure Rotation where
  buf : Nat → UInt8
  endIndex : UInt16
  accesses : List Nat

variable (byteReverse : UInt8 → UInt8)

/-- A pass of the loop. -/
def rotateStep (s : Rotation) (i : Nat) : Rotation :=
  let e := s.endIndex.toNat
  let temp := byteReverse (s.buf e)
  let buf := Function.update s.buf e (byteReverse (s.buf i))
  let buf := Function.update buf i temp
  { buf := buf, endIndex := s.endIndex - 1, accesses := s.accesses ++ [e, i, e, i] }

/-- The loop variables before the first pass. -/
def Framebuffer.rotation (fb : Framebuffer) : Rotation where
  buf := fb.buf
  endIndex := UInt16.ofNat (fb.xRes.toNat * fb.yRes.toNat / 8)
  accesses := []

/-- The block of `cfb_framebuffer_finalize` under `CONFIG_CHARACTER_FRAMEBUFFER_ROTATE`. -/
def rotate (fb : Framebuffer) : Rotation :=
  stateAt (rotateStep byteReverse) fb.rotation id (fb.xRes.toNat * fb.yRes.toNat / 16)

/-! ### The law -/

/-- `byte_reverse` reverses the 8 bits of a byte. -/
def ReversesBits : Prop :=
  ∀ (b : UInt8) (i : Nat), i < 8 →
    (byteReverse b).toBitVec.getLsbD i = b.toBitVec.getLsbD (7 - i)

/-- The framebuffer with other contents. -/
def Framebuffer.withBuf (fb : Framebuffer) (buf : Nat → UInt8) : Framebuffer :=
  { fb with buf := buf }

/-- The loop stays inside the framebuffer and rotates it by 180 degrees, and a second
loop restores it. -/
def Rotates (fb : Framebuffer) : Prop :=
  (∀ a ∈ (rotate byteReverse fb).accesses, a < fb.size) ∧
    (∀ i < fb.size, (rotate byteReverse fb).buf i = byteReverse (fb.buf (fb.size - 1 - i))) ∧
    ∀ i < fb.size,
      (rotate byteReverse (fb.withBuf (rotate byteReverse fb).buf)).buf i = fb.buf i

/-! ### What the loop does -/

/-- The index `end` before pass `i`. -/
def endAt (n i : Nat) : Nat := (UInt16.ofNat n - UInt16.ofNat i).toNat

/-- While the index does not wrap, it runs down from the size. -/
theorem endAt_eq_sub {n i : Nat} (hn : n < 65536) (hi : i ≤ n) : endAt n i = n - i := by
  rw [endAt, UInt16.toNat_sub, UInt16.toNat_ofNat', UInt16.toNat_ofNat']
  omega

/-- The index for a framebuffer of any size, which wraps at 65536. -/
theorem endAt_lt (n i : Nat) : endAt n i < 65536 := UInt16.toNat_lt _

/-- The loop makes half as many passes as there are bytes. -/
theorem Framebuffer.passes_eq (fb : Framebuffer) :
    fb.xRes.toNat * fb.yRes.toNat / 16 = fb.size / 2 := by
  rw [size]
  omega

/-- The loop is a run of `Lib.Mirror` with the index `end` as the partner. -/
theorem stateAt_rotateStep (fb : Framebuffer) (k : Nat) :
    (stateAt (rotateStep byteReverse) fb.rotation id k).buf
        = mirrorRun byteReverse (endAt fb.size) fb.buf k ∧
      (stateAt (rotateStep byteReverse) fb.rotation id k).endIndex
        = UInt16.ofNat fb.size - UInt16.ofNat k := by
  induction k with
  | zero => exact ⟨rfl, (UInt16.sub_zero _).symm⟩
  | succ k ih =>
    obtain ⟨hbuf, hend⟩ := ih
    rw [stateAt_succ, mirrorRun_succ, ← hbuf, endAt, ← hend]
    refine ⟨rfl, ?_⟩
    show (stateAt (rotateStep byteReverse) fb.rotation id k).endIndex - 1 = _
    rw [hend, ← UInt16.toNat_inj, UInt16.toNat_sub, UInt16.toNat_sub, UInt16.toNat_sub,
      UInt16.toNat_ofNat', UInt16.toNat_ofNat', UInt16.toNat_ofNat']
    show (65536 - 1 + _) % 65536 = _
    omega

/-- The accesses of the loop: the two indices of every pass. -/
theorem mem_accesses_iff (fb : Framebuffer) (a : Nat) :
    a ∈ (rotate byteReverse fb).accesses ↔ ∃ i < fb.size / 2, a = i ∨ a = endAt fb.size i := by
  rw [rotate, fb.passes_eq]
  generalize fb.size / 2 = passes
  induction passes with
  | zero =>
    show a ∈ [] ↔ _
    simp
  | succ k ih =>
    have hend := (stateAt_rotateStep byteReverse fb k).2
    rw [stateAt_succ]
    show a ∈ _ ++ [_, k, _, k] ↔ _
    rw [List.mem_append, ih, hend, ← endAt]
    simp only [List.mem_cons, List.not_mem_nil, or_false]
    constructor
    · rintro (⟨i, hi, ha⟩ | ha)
      · exact ⟨i, Nat.lt_succ_of_lt hi, ha⟩
      · exact ⟨k, Nat.lt_succ_self k, by tauto⟩
    · rintro ⟨i, hi, ha⟩
      by_cases hik : i = k
      · rw [hik] at ha
        exact .inr (by tauto)
      · exact .inl ⟨i, by omega, ha⟩

/-- The memory behind the loop. -/
theorem rotate_buf (fb : Framebuffer) :
    (rotate byteReverse fb).buf = mirrorRun byteReverse (endAt fb.size) fb.buf (fb.size / 2) := by
  rw [rotate, fb.passes_eq]
  exact (stateAt_rotateStep byteReverse fb _).1

/-- What the loop leaves: the first half of the bytes and as many up to index `size` are
mirrored about the middle of `0 .. size`, which is the rotation of a framebuffer with one
more byte. The byte behind the framebuffer takes part. -/
theorem rotate_shifted (fb : Framebuffer) (hsize : fb.size < 65536) (a : Nat) :
    (rotate byteReverse fb).buf a
      = if a < fb.size / 2 ∨ fb.size < a + fb.size / 2 ∧ a ≤ fb.size then
          byteReverse (fb.buf (fb.size - a))
        else fb.buf a := by
  rw [rotate_buf]
  exact mirrorRun_mirror byteReverse fb.buf (by omega)
    (fun i hi => endAt_eq_sub hsize (by omega)) a

/-- A framebuffer with at least two bytes is left on the first pass, if the index does not
wrap. -/
theorem size_mem_accesses (fb : Framebuffer) (htwo : 2 ≤ fb.size) (hsize : fb.size < 65536) :
    fb.size ∈ (rotate byteReverse fb).accesses := by
  rw [mem_accesses_iff]
  exact ⟨0, by omega, .inr (endAt_eq_sub hsize (Nat.zero_le _)).symm⟩

theorem not_rotates_of_two_le (fb : Framebuffer) (htwo : 2 ≤ fb.size)
    (hsize : fb.size < 65536) : ¬ Rotates byteReverse fb := by
  intro hrotates
  exact absurd (hrotates.1 _ (size_mem_accesses byteReverse fb htwo hsize)) (Nat.lt_irrefl _)

/-- A framebuffer of one byte is left as it is. -/
theorem rotates_one_iff (fb : Framebuffer) (hone : fb.size = 1) :
    Rotates byteReverse fb ↔ byteReverse (fb.buf 0) = fb.buf 0 := by
  have hkeep : ∀ fb' : Framebuffer, fb'.size = 1 → (rotate byteReverse fb').buf = fb'.buf := by
    intro fb' hone'
    rw [rotate_buf, hone', mirrorRun]
  have hnone : ∀ a, a ∉ (rotate byteReverse fb).accesses := by
    intro a ha
    obtain ⟨i, hi, -⟩ := (mem_accesses_iff byteReverse fb a).mp ha
    omega
  constructor
  · intro hrotates
    have hzero := hrotates.2.1 0 (by omega)
    rw [hkeep fb hone, hone] at hzero
    exact hzero.symm
  · intro hpalindrome
    refine ⟨fun a ha => absurd ha (hnone a), fun i hi => ?_, fun i hi => ?_⟩
    · have hi0 : i = 0 := by omega
      rw [hkeep fb hone, hone, hi0]
      exact hpalindrome.symm
    · rw [hkeep _ hone]
      show (rotate byteReverse fb).buf i = fb.buf i
      rw [hkeep fb hone]

/-- An empty framebuffer is rotated. -/
theorem rotates_of_empty (fb : Framebuffer) (hempty : fb.size = 0) : Rotates byteReverse fb := by
  refine ⟨fun a ha => ?_, fun i hi => absurd hi (by omega), fun i hi => absurd hi (by omega)⟩
  obtain ⟨i, hi, -⟩ := (mem_accesses_iff byteReverse fb a).mp ha
  omega

variable {byteReverse}

/-- The byte 1 is not its own reverse. -/
theorem ReversesBits.one (h : ReversesBits byteReverse) :
    byteReverse 1 ≠ 0 ∧ byteReverse 1 ≠ 1 := by
  have hbit : (byteReverse 1).toBitVec.getLsbD 7 = true := h 1 7 (by decide)
  constructor
  · intro heq
    rw [heq] at hbit
    exact absurd hbit (by decide)
  · intro heq
    rw [heq] at hbit
    exact absurd hbit (by decide)

/-- A framebuffer with a byte that the loop never touches is not always rotated: its
mirror image may be different. -/
theorem not_rotates_of_untouched (h : ReversesBits byteReverse) (fb : Framebuffer) {a : Nat}
    (ha : a < fb.size) (huntouched : ∀ i < fb.size / 2, a ≠ i ∧ a ≠ endAt fb.size i) :
    ¬ ∀ buf, Rotates byteReverse (fb.withBuf buf) := by
  intro hall
  have hrotated := (hall fun i => if i = fb.size - 1 - a then 1 else 0).2.1 a ha
  rw [rotate_buf] at hrotated
  have hkept := mirrorRun_of_untouched byteReverse
    (fun i => if i = fb.size - 1 - a then (1 : UInt8) else 0) huntouched
  have hone : byteReverse 1 = if a = fb.size - 1 - a then (1 : UInt8) else 0 := by
    rw [← hkept]
    refine Eq.trans ?_ hrotated.symm
    show byteReverse 1 = byteReverse (if fb.size - 1 - a = fb.size - 1 - a then 1 else 0)
    rw [if_pos rfl]
  split at hone
  · exact h.one.2 hone
  · exact h.one.1 hone

/-- From 65536 bytes on the index wraps, and the last byte is not touched, or the middle
one if there are exactly 65536. -/
theorem exists_untouched (fb : Framebuffer) (hsize : 65536 ≤ fb.size) :
    ∃ a < fb.size, ∀ i < fb.size / 2, a ≠ i ∧ a ≠ endAt fb.size i := by
  by_cases hexact : fb.size = 65536
  · refine ⟨32768, by omega, fun i hi => ⟨by omega, ?_⟩⟩
    rw [endAt, hexact, UInt16.toNat_sub, UInt16.toNat_ofNat', UInt16.toNat_ofNat']
    omega
  · refine ⟨fb.size - 1, by omega, fun i hi => ⟨by omega, ?_⟩⟩
    have hlt := endAt_lt fb.size i
    omega

/-- The loop rotates the framebuffers of a display, whatever they hold, exactly when they
have no bytes. Below 65536 bytes, the only other framebuffers that it rotates are those
of one byte that is its own reverse. -/
theorem rotates_iff (h : ReversesBits byteReverse) (fb : Framebuffer) :
    ((∀ buf, Rotates byteReverse (fb.withBuf buf)) ↔ fb.size = 0) ∧
      (fb.size < 65536 → (Rotates byteReverse fb ↔
        fb.size = 0 ∨ fb.size = 1 ∧ byteReverse (fb.buf 0) = fb.buf 0)) := by
  constructor
  · constructor
    · intro hall
      by_contra hpos
      by_cases hsize : fb.size < 65536
      · by_cases hone : fb.size = 1
        · -- No pass is made, so the byte is not touched.
          exact not_rotates_of_untouched h fb (Nat.pos_of_ne_zero hpos)
            (fun i hi => absurd hi (by omega)) hall
        · exact not_rotates_of_two_le byteReverse fb (by omega) hsize (hall fb.buf)
      · obtain ⟨a, ha, huntouched⟩ := exists_untouched fb (by omega)
        exact not_rotates_of_untouched h fb ha huntouched hall
    · intro hempty buf
      exact rotates_of_empty byteReverse (fb.withBuf buf) hempty
  · intro hsize
    constructor
    · intro hrotates
      by_cases hempty : fb.size = 0
      · exact .inl hempty
      · have hone : fb.size = 1 := by
          by_contra hne
          exact not_rotates_of_two_le byteReverse fb (by omega) hsize hrotates
        exact .inr ⟨hone, (rotates_one_iff byteReverse fb hone).mp hrotates⟩
    · rintro (hempty | ⟨hone, hpalindrome⟩)
      · exact rotates_of_empty byteReverse fb hempty
      · exact (rotates_one_iff byteReverse fb hone).mpr hpalindrome

/-- The function that reverses the bits. -/
def byteReverseBits (b : UInt8) : UInt8 := ⟨b.toBitVec.reverse⟩

theorem reversesBits_byteReverseBits : ReversesBits byteReverseBits := by
  intro b i hi
  show b.toBitVec.reverse.getLsbD i = _
  rw [BitVec.getLsbD_reverse, BitVec.getMsbD]
  simp [hi]

/-- A display of 8 by 1 pixels that are off. -/
theorem rotates_iff_dark :
    Rotates byteReverseBits ⟨8, 1, fun _ => 0, by decide⟩ :=
  ((rotates_iff reversesBits_byteReverseBits ⟨8, 1, fun _ => 0, by decide⟩).2 (by decide)).mpr
    (.inr ⟨by decide, by decide⟩)

/-- A screen of 128 by 64 pixels has 1024 bytes, and the loop accesses byte 1024. -/
theorem rotates_fails :
    ¬ ∀ byteReverse, ReversesBits byteReverse → ∀ fb, Rotates byteReverse fb := by
  intro h
  exact not_rotates_of_two_le byteReverseBits ⟨128, 64, fun _ => 0, by decide⟩ (by decide)
    (by decide) (h _ reversesBits_byteReverseBits _)

end UpsFirmware.Esp32
