import Mathlib.Data.Nat.Notation
import Mathlib.Tactic.Common

/-!
# Flat memory of 32-bit words

A memory is a map from word addresses to words. `store`, `fill` and `copy` are an assignment,
`memset` and `memcpy` over it; `copy` reads the memory as it was before, which is how an
overlapping block is moved towards lower addresses.

The lemmas come in pairs: what is at an address inside the written block, and that an address
outside it is untouched. `storeByte` and `byte` access the low byte of a word, which is where a
little-endian machine keeps a `char` followed by padding.
-/

/-- A memory of 32-bit words. -/
abbrev WordMem := ℕ → BitVec 32

namespace WordMem

/-- Assignment of one word. -/
def store (m : WordMem) (a : ℕ) (w : BitVec 32) : WordMem :=
  fun x ↦ if x = a then w else m x

/-- `memset` of `n` words. -/
def fill (m : WordMem) (a n : ℕ) (w : BitVec 32) : WordMem :=
  fun x ↦ if a ≤ x ∧ x < a + n then w else m x

/-- `memcpy` of `n` words. -/
def copy (m : WordMem) (dst src n : ℕ) : WordMem :=
  fun x ↦ if dst ≤ x ∧ x < dst + n then m (src + (x - dst)) else m x

/-- The low byte of the word at `a`. -/
def byte (m : WordMem) (a : ℕ) : BitVec 8 :=
  (m a).setWidth 8

/-- Assignment to the low byte of the word at `a`. -/
def storeByte (m : WordMem) (a : ℕ) (b : BitVec 8) : WordMem :=
  m.store a ((m a &&& 0xFFFFFF00#32) ||| b.setWidth 32)

@[simp]
theorem store_self (m : WordMem) (a : ℕ) (w : BitVec 32) : m.store a w a = w :=
  if_pos rfl

theorem store_of_ne (m : WordMem) {a x : ℕ} (w : BitVec 32) (h : x ≠ a) : m.store a w x = m x :=
  if_neg h

@[simp]
theorem byte_storeByte_self (m : WordMem) (a : ℕ) (b : BitVec 8) : (m.storeByte a b).byte a = b := by
  rw [byte, storeByte, store_self]
  ext
  simp

theorem storeByte_of_ne (m : WordMem) {a x : ℕ} (b : BitVec 8) (h : x ≠ a) :
    m.storeByte a b x = m x :=
  m.store_of_ne _ h

theorem fill_outside (m : WordMem) {a n x : ℕ} (w : BitVec 32) (h : x < a ∨ a + n ≤ x) :
    m.fill a n w x = m x :=
  if_neg (by omega)

theorem copy_inside (m : WordMem) {dst src n x : ℕ} (h : dst ≤ x) (h' : x < dst + n) :
    m.copy dst src n x = m (src + (x - dst)) :=
  if_pos ⟨h, h'⟩

theorem copy_outside (m : WordMem) {dst src n x : ℕ} (h : x < dst ∨ dst + n ≤ x) :
    m.copy dst src n x = m x :=
  if_neg (by omega)

end WordMem
