import Mathlib.Data.BitVec
import Mathlib.Data.List.Basic
import Mathlib.Data.List.GetD

/-! Bytes and fixed-size byte arrays of `ntag424_read.c`. A `uint8_t` is a `BitVec 8`; an array
`uint8_t x[n]` is a `Bytes n`, a list that carries its length, so a key, a block or a
transaction id of the wrong size cannot be built. `Bytes.ofList` is the `memset` to zero
followed by a `memcpy` of at most `n` bytes that the C code uses to fill such arrays. -/

namespace Ntag424

/-- `uint8_t` -/
abbrev Byte := BitVec 8

/-- the bytes of an ASCII string literal -/
def ascii (s : String) : List Byte := s.toList.map fun c => BitVec.ofNat 8 c.toNat

/-- `uint8_t x[n]` -/
structure Bytes (n : Nat) where
  toList : List Byte
  length_toList : toList.length = n
deriving DecidableEq

attribute [simp] Bytes.length_toList

/-- a 16-byte AES block or key -/
abbrev Block := Bytes 16

namespace Bytes

variable {n : Nat}

@[ext] theorem ext {a b : Bytes n} (h : a.toList = b.toList) : a = b := by
  cases a; cases b; cases h; rfl

/-- `memset(x, 0, n); memcpy(x, l, min n |l|)` -/
def ofList (l : List Byte) : Bytes n := ⟨(l ++ List.replicate n 0).take n, by simp⟩

instance : Zero (Bytes n) := ⟨ofList []⟩

/-- `xor_block`: bytewise exclusive or -/
def xor (a b : Bytes n) : Bytes n :=
  ⟨List.zipWith (· ^^^ ·) a.toList b.toList, by simp⟩

@[simp] theorem toList_zero : (0 : Bytes n).toList = List.replicate n 0 := by
  simp [OfNat.ofNat, Zero.zero, ofList]

theorem toList_ofList_of_le (l : List Byte) (h : n ≤ l.length) :
    (ofList l : Bytes n).toList = l.take n := by
  simp [ofList, List.take_append_of_le_length h]

theorem toList_ofList_of_length_le (l : List Byte) (h : l.length ≤ n) :
    (ofList l : Bytes n).toList = l ++ List.replicate (n - l.length) 0 := by
  simp only [ofList, List.take_append_eq_append_take, List.take_of_length_le h,
    List.take_replicate, List.append_cancel_left_eq]
  congr 1; omega

@[simp] theorem ofList_toList (b : Bytes n) : ofList b.toList = b := by
  ext1; rw [toList_ofList_of_le _ (by simp), List.take_of_length_le (by simp)]

@[simp] theorem ofList_toList_append (b : Bytes n) (l : List Byte) :
    ofList (b.toList ++ l) = b := by
  ext1; rw [toList_ofList_of_le _ (by simp), List.take_left' (by simp)]

@[simp] theorem ofList_take (l : List Byte) : (ofList (l.take n) : Bytes n) = ofList l := by
  ext1
  simp only [ofList, List.take_append_eq_append_take, List.take_take, List.length_take,
    Nat.min_self]
  congr 2; omega

@[simp] theorem toList_xor (a b : Bytes n) :
    (a.xor b).toList = List.zipWith (· ^^^ ·) a.toList b.toList := rfl

theorem xor_comm (a b : Bytes n) : a.xor b = b.xor a := by
  ext1; simp only [toList_xor]; exact List.zipWith_comm_of_comm _ BitVec.xor_comm _ _

theorem xor_assoc (a b c : Bytes n) : (a.xor b).xor c = a.xor (b.xor c) := by
  ext1
  apply List.ext_getElem (by simp)
  intro i _ _
  simp [BitVec.xor_assoc]

@[simp] theorem xor_zero (a : Bytes n) : a.xor 0 = a := by
  ext1
  apply List.ext_getElem (by simp)
  intro i _ _
  simp

@[simp] theorem zero_xor (a : Bytes n) : (0 : Bytes n).xor a = a := by
  rw [xor_comm, xor_zero]

@[simp] theorem xor_self (a : Bytes n) : a.xor a = 0 := by
  ext1
  apply List.ext_getElem (by simp)
  intro i _ _
  simp

@[simp] theorem xor_xor_cancel (a b : Bytes n) : (a.xor b).xor b = a := by
  rw [xor_assoc, xor_self, xor_zero]

end Bytes

/-- `rotate_left_1`: `out = in[1..len) ‖ in[0]` -/
def rotateLeft1 : List Byte → List Byte
  | [] => []
  | a :: t => t ++ [a]

/-- `rotate_right_1`: `out = in[len-1] ‖ in[0..len-1)` -/
def rotateRight1 (l : List Byte) : List Byte :=
  match l.getLast? with
  | none => []
  | some z => z :: l.dropLast

@[simp] theorem length_rotateLeft1 (l : List Byte) : (rotateLeft1 l).length = l.length := by
  cases l <;> simp [rotateLeft1]

@[simp] theorem rotateRight1_rotateLeft1 (l : List Byte) : rotateRight1 (rotateLeft1 l) = l := by
  cases l <;> simp [rotateLeft1, rotateRight1]

/-- the two bytes `v & 0xFF, (v >> 8) & 0xFF`, least significant first -/
def le16 (v : BitVec 16) : List Byte :=
  [(v &&& 0xFF).setWidth 8, ((v >>> 8) &&& 0xFF).setWidth 8]

/-- `write_u24_le` -/
def writeU24Le (v : BitVec 32) : List Byte :=
  [(v &&& 0xFF).setWidth 8, ((v >>> 8) &&& 0xFF).setWidth 8, ((v >>> 16) &&& 0xFF).setWidth 8]

/-- `read_u24_le` at the head of `p` -/
def readU24Le (p : List Byte) : BitVec 32 :=
  (p.getD 0 0).setWidth 32 ||| ((p.getD 1 0).setWidth 32 <<< 8) ||| ((p.getD 2 0).setWidth 32 <<< 16)

@[simp] theorem length_le16 (v : BitVec 16) : (le16 v).length = 2 := rfl

@[simp] theorem length_writeU24Le (v : BitVec 32) : (writeU24Le v).length = 3 := rfl

end Ntag424
