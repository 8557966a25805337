import Mathlib.Data.List.GetD
import CustomersCardMS.RingFifo

namespace CustomersCard
open RecvSock

def byteSum (bs : List Byte) : Byte := bs.foldl (· + ·) 0

/-- The 32-bit little-endian length field. -/
def lengthField (n : DWORD) : List Byte :=
  [n.setWidth 8, (n >>> 8).setWidth 8, (n >>> 16).setWidth 8, (n >>> 24).setWidth 8]

def encode (p : List Byte) : List Byte :=
  0xfb :: 0xfc :: (lengthField (BitVec.ofNat 32 p.length) ++ (p ++ [byteSum p, 0x0d]))

/-- What the delivery loop posts for a frame: the payload with its checksum and terminator. -/
def message (p : List Byte) : List Byte := p ++ [byteSum p, 0x0d]

def frameMagic (u : List Byte) : Prop := u.getD 0 0 = 0xfb ∧ u.getD 1 0 = 0xfc

instance (u : List Byte) : Decidable (frameMagic u) := inferInstanceAs (Decidable (_ ∧ _))

def frameLength (u : List Byte) : DWORD :=
  leWord (u.getD 2 0) (u.getD 3 0) (u.getD 4 0) (u.getD 5 0)

def framePayload (u : List Byte) : List Byte := (u.drop 6).take (frameLength u).toNat

/-- Checksum and terminator stand where the length field puts them. -/
def frameChecks (u : List Byte) : Prop :=
  u.getD (6+(frameLength u).toNat) 0 = byteSum (framePayload u) ∧
    u.getD (7+(frameLength u).toNat) 0 = 0x0d

instance (u : List Byte) : Decidable (frameChecks u) := inferInstanceAs (Decidable (_ ∧ _))

/-- The bytes begin with a complete frame whose message has `n` bytes. -/
structure BeginsFrame (u : List Byte) (n : ℕ) : Prop where
  complete : n+6 ≤ u.length
  magic : frameMagic u
  length : (frameLength u).toNat+2 = n
  checks : frameChecks u

theorem toNat_leWord (b₀ b₁ b₂ b₃ : Byte) : (leWord b₀ b₁ b₂ b₃).toNat =
    b₀.toNat+256*b₁.toNat+65536*b₂.toNat+16777216*b₃.toNat := by
  have h₀ := b₀.isLt
  have h₁ := b₁.isLt
  have h₂ := b₂.isLt
  have h₃ := b₃.isLt
  unfold leWord
  rw [BitVec.toNat_append, BitVec.toNat_append, BitVec.toNat_append,
    ← Nat.shiftLeft_add_eq_or_of_lt (by omega), ← Nat.shiftLeft_add_eq_or_of_lt (by omega),
    ← Nat.shiftLeft_add_eq_or_of_lt (by omega)]
  simp only [Nat.shiftLeft_eq]
  omega

theorem leWord_lengthField (n : DWORD) : leWord (n.setWidth 8) ((n >>> 8).setWidth 8)
    ((n >>> 16).setWidth 8) ((n >>> 24).setWidth 8) = n := by
  have hn := n.isLt
  apply BitVec.eq_of_toNat_eq
  rw [toNat_leWord]
  simp only [BitVec.toNat_setWidth, BitVec.toNat_ushiftRight, Nat.shiftRight_eq_div_pow]
  omega

@[simp] theorem length_encode (p : List Byte) : (encode p).length = p.length+8 := by
  simp [encode, lengthField]

theorem encode_magic (p v : List Byte) : frameMagic (encode p ++ v) := ⟨rfl, rfl⟩

theorem encode_length (p v : List Byte) : frameLength (encode p ++ v) = BitVec.ofNat 32 p.length :=
  leWord_lengthField (BitVec.ofNat 32 p.length)

theorem encode_payload (p v : List Byte) (hp : p.length < 2^32) :
    framePayload (encode p ++ v) = p := by
  unfold framePayload
  rw [encode_length, BitVec.toNat_ofNat, Nat.mod_eq_of_lt hp]
  simp [encode, lengthField]

theorem encode_message (p v : List Byte) :
    ((encode p ++ v).drop 6).take (p.length+2) = message p := by
  have hm : (encode p ++ v).drop 6 = message p ++ v := by
    simp [encode, lengthField, message]
  rw [hm, List.take_append_of_le_length (by simp [message]),
    List.take_of_length_le (by simp [message])]

theorem encode_getD (p : List Byte) (i : ℕ) (hi : i < p.length) :
    (encode p).getD (6+i) 0 = p.getD i 0 := by
  have hsplit : encode p = (0xfb :: 0xfc :: lengthField (BitVec.ofNat 32 p.length)) ++
      (p ++ [byteSum p, 0x0d]) := rfl
  have hlen : (0xfb :: 0xfc :: lengthField (BitVec.ofNat 32 p.length)).length = 6 := rfl
  rw [hsplit, List.getD_append_right _ _ _ _ (by omega), hlen, Nat.add_sub_cancel_left,
    List.getD_append _ _ _ _ hi]

theorem encode_checks (p v : List Byte) (hp : p.length < 2^32) : frameChecks (encode p ++ v) := by
  unfold frameChecks
  rw [encode_payload p v hp, encode_length, BitVec.toNat_ofNat, Nat.mod_eq_of_lt hp]
  have hsplit : encode p ++ v = (0xfb :: 0xfc :: lengthField (BitVec.ofNat 32 p.length)) ++
      (p ++ ([byteSum p, 0x0d] ++ v)) := by
    simp [encode]
  have hlen : (0xfb :: 0xfc :: lengthField (BitVec.ofNat 32 p.length)).length = 6 := rfl
  rw [hsplit]
  constructor
  · rw [List.getD_append_right _ _ _ _ (by omega), hlen,
      List.getD_append_right _ _ _ _ (by omega), show 6+p.length-6-p.length = 0 by omega]
    rfl
  · rw [List.getD_append_right _ _ _ _ (by omega), hlen,
      List.getD_append_right _ _ _ _ (by omega), show 7+p.length-6-p.length = 1 by omega]
    rfl

theorem encode_begins (p v : List Byte) (hp : p.length < 2^32) :
    BeginsFrame (encode p ++ v) (p.length+2) := by
  refine ⟨by simp, encode_magic p v, ?_, encode_checks p v hp⟩
  rw [encode_length, BitVec.toNat_ofNat, Nat.mod_eq_of_lt hp]

/-- The six header bytes do not depend on what follows them. -/
theorem header_append (u w : List Byte) (h6 : 6 ≤ u.length) :
    (frameMagic (u ++ w) ↔ frameMagic u) ∧ frameLength (u ++ w) = frameLength u := by
  have hget (i : ℕ) (hi : i < 6) : (u ++ w).getD i 0 = u.getD i 0 :=
    List.getD_append _ _ _ _ (by omega)
  unfold frameMagic frameLength
  rw [hget 0 (by omega), hget 1 (by omega), hget 2 (by omega), hget 3 (by omega),
    hget 4 (by omega), hget 5 (by omega)]
  exact ⟨Iff.rfl, rfl⟩

/-- A header cut out of an encoding is its header. -/
theorem prefix_header (p u : List Byte) (hu : u <+: encode p) (h6 : 6 ≤ u.length) :
    frameMagic u ∧ frameLength u = BitVec.ofNat 32 p.length := by
  obtain ⟨w, hw⟩ := hu
  have happ := header_append u w h6
  rw [hw] at happ
  have hm := encode_magic p []
  have hL := encode_length p []
  rw [List.append_nil] at hm hL
  exact ⟨happ.1.mp hm, happ.2.symm.trans hL⟩

end CustomersCard
