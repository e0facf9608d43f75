import Mathlib.Data.Nat.Notation
import Mathlib.Logic.Function.Basic

/-!
# Blocks of memory: `malloc`, `realloc` and `free`

A heap is a set of live blocks, each with its bytes; a pointer into one of them is the block and an
index. What an allocator does is not determined by its specification, so its answer is data: `none`
for a null pointer, or a block and the bytes found there. `Malloc` and `Realloc` say which answers
the specifications of the two functions allow.
-/

namespace Blocks

/-- The bytes of every live block. -/
abbrev Heap := ℕ → Option (List UInt8)

/-- What `malloc` or `realloc` returns. -/
abbrev Answer := Option (ℕ × List UInt8)

namespace Heap

/-- A block comes to life, or changes. -/
def put (h : Heap) (b : ℕ) (bs : List UInt8) : Heap :=
  Function.update h b (some bs)

/-- `free`. -/
def free (h : Heap) (b : ℕ) : Heap :=
  Function.update h b none

/-- The heap on which nothing has been allocated. -/
def empty : Heap :=
  fun _ ↦ none

@[simp]
theorem put_self (h : Heap) (b : ℕ) (bs : List UInt8) : h.put b bs b = some bs :=
  Function.update_self ..

theorem put_ne (h : Heap) {b c : ℕ} (hne : c ≠ b) (bs : List UInt8) : h.put b bs c = h c :=
  Function.update_of_ne hne ..

@[simp]
theorem free_self (h : Heap) (b : ℕ) : h.free b b = none :=
  Function.update_self ..

theorem free_ne (h : Heap) {b c : ℕ} (hne : c ≠ b) : h.free b c = h c :=
  Function.update_of_ne hne ..

/-- A property of every block is kept by a step that changes one. -/
theorem forall_put {h : Heap} {P : List UInt8 → Prop} (hP : ∀ c bs, h c = some bs → P bs) {b : ℕ}
    {bs : List UInt8} (hbs : P bs) : ∀ c cs, h.put b bs c = some cs → P cs := by
  intro c cs hc
  by_cases hcb : c = b
  · subst hcb
    rw [put_self] at hc
    exact Option.some.inj hc ▸ hbs
  · rw [put_ne h hcb] at hc
    exact hP c cs hc

theorem forall_free {h : Heap} {P : List UInt8 → Prop} (hP : ∀ c bs, h c = some bs → P bs)
    (b : ℕ) : ∀ c cs, h.free b c = some cs → P cs := by
  intro c cs hc
  by_cases hcb : c = b
  · subst hcb
    rw [free_self] at hc
    cases hc
  · rw [free_ne h hcb] at hc
    exact hP c cs hc

end Heap

/-- `malloc(n)` may return a null pointer, or a block that was not in use, of `n` bytes. -/
def Malloc (h : Heap) (n : ℕ) (r : Answer) : Prop :=
  ∀ b bytes, r = some (b, bytes) → h b = none ∧ bytes.length = n

/-- `realloc(p, n)` may return a null pointer and leave the block `b` with the bytes `old` alone, or
let a block of `n` bytes take its place, the first of them being those of the old one. -/
def Realloc (h : Heap) (b : ℕ) (old : List UInt8) (n : ℕ) (r : Answer) : Prop :=
  ∀ c bytes, r = some (c, bytes) → (c = b ∨ h c = none) ∧ bytes.length = n ∧
    bytes.take (min old.length n) = old.take (min old.length n)

end Blocks
