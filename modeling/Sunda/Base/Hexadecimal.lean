import Sunda.Base.Decimal

/-!
# Hexadecimal text: `sprintf("%02x", v)` and `strtol(s, NULL, 16)`

`strtol16` skips white space, takes an optional sign, an optional `0x` and the longest run of
hexadecimal digits, and saturates to the range of `long`.

Bytes written one after the other with `%02x` read back as the number of which they are the digits
in base 256 (`strtol16_flatMap`), as long as it fits a `long`. `bytesValue_set` says how that number
depends on one of the bytes.
-/

namespace Hexadecimal

open Decimal (isSpace clampLong)

/-- The character of a hexadecimal digit. -/
def hexChar (d : ℕ) : UInt8 :=
  if d < 10 then UInt8.ofNat (48 + d) else UInt8.ofNat (87 + d)

/-- The digits of a natural number, most significant first. -/
def hexText (n : ℕ) : List UInt8 :=
  if n = 0 then [48] else (Nat.digits 16 n).reverse.map hexChar

/-- `sprintf("%02x", v)`. -/
def sprintf02x (n : ℕ) : List UInt8 :=
  List.replicate (2 - (hexText n).length) 48 ++ hexText n

/-- The value of a hexadecimal digit, of either case. -/
def hexVal (c : UInt8) : Option ℕ :=
  if 48 ≤ c.toNat ∧ c.toNat ≤ 57 then some (c.toNat - 48)
  else if 97 ≤ c.toNat ∧ c.toNat ≤ 102 then some (c.toNat - 87)
  else if 65 ≤ c.toNat ∧ c.toNat ≤ 70 then some (c.toNat - 55)
  else none

/-- The value of the leading run of digits, on top of the value `acc` read so far. -/
def scanHex : ℕ → List UInt8 → ℕ
  | acc, [] => acc
  | acc, c :: cs =>
    match hexVal c with
    | some d => scanHex (16 * acc + d) cs
    | none => acc

/-- A text without `0x` in front, if a digit follows that. -/
def dropPrefix : List UInt8 → List UInt8
  | 48 :: x :: c :: t =>
    if (x = 120 ∨ x = 88) ∧ (hexVal c).isSome then c :: t else 48 :: x :: c :: t
  | s => s

/-- An optional sign and the number behind it. -/
def signedHex : List UInt8 → ℤ
  | 43 :: t => scanHex 0 (dropPrefix t)
  | 45 :: t => -scanHex 0 (dropPrefix t)
  | t => scanHex 0 (dropPrefix t)

/-- `strtol` in base 16. -/
def strtol16 (s : List UInt8) : ℤ :=
  clampLong (signedHex (s.dropWhile isSpace))

/-- The number of which some bytes are the digits in base 256, most significant first. -/
def bytesValue (s : List UInt8) : ℕ :=
  s.foldl (fun n c ↦ 256 * n + c.toNat) 0

/-! ### Bytes as pairs of digits -/

theorem hexVal_hexChar : ∀ d < 16, hexVal (hexChar d) = some d := by
  decide

/-- A byte has two digits. -/
theorem sprintf02x_eq {n : ℕ} (h : n < 256) :
    sprintf02x n = [hexChar (n / 16), hexChar (n % 16)] := by
  rcases Nat.eq_zero_or_pos n with rfl | hpos
  · rfl
  rw [sprintf02x, hexText, if_neg hpos.ne']
  rcases Nat.lt_or_ge n 16 with hlt | hge
  · rw [Nat.digits_of_lt 16 n hpos.ne' hlt, Nat.div_eq_of_lt hlt, Nat.mod_eq_of_lt hlt]
    rfl
  · have hhigh : n / 16 ≠ 0 := by omega
    rw [Nat.digits_def' (by decide) hpos, Nat.digits_of_lt 16 (n / 16) hhigh (by omega)]
    rfl

theorem isSpace_of_isHex {c : UInt8} (h : (hexVal c).isSome) : isSpace c = false := by
  rw [hexVal] at h
  rw [isSpace, Bool.or_eq_false_iff, Bool.and_eq_false_iff, beq_eq_false_iff_ne,
    decide_eq_false_iff_not, decide_eq_false_iff_not]
  split_ifs at h
  · omega
  · omega
  · omega
  · cases h

theorem scanHex_sprintf02x (acc : ℕ) {n : ℕ} (h : n < 256) (t : List UInt8) :
    scanHex acc (sprintf02x n ++ t) = scanHex (256 * acc + n) t := by
  rw [sprintf02x_eq h, List.cons_append, List.cons_append, List.nil_append, scanHex,
    hexVal_hexChar _ (by omega)]
  dsimp only
  rw [scanHex, hexVal_hexChar _ (by omega)]
  dsimp only
  congr 1
  omega

/-- The digits of bytes scan as the bytes do. -/
theorem scanHex_flatMap {s : List UInt8} (f : UInt8 → ℕ) (h : ∀ c ∈ s, f c = c.toNat) (acc : ℕ) :
    scanHex acc (s.flatMap fun c ↦ sprintf02x (f c)) =
      s.foldl (fun n c ↦ 256 * n + c.toNat) acc := by
  induction s generalizing acc with
  | nil => rfl
  | cons c s ih =>
    rw [List.flatMap_cons, h c List.mem_cons_self, scanHex_sprintf02x acc c.toNat_lt, List.foldl_cons,
      ih fun d hd ↦ h d (List.mem_cons_of_mem c hd)]

theorem isHex_flatMap {s : List UInt8} (f : UInt8 → ℕ) (h : ∀ c ∈ s, f c = c.toNat) {x : UInt8}
    (hx : x ∈ s.flatMap fun c ↦ sprintf02x (f c)) : (hexVal x).isSome := by
  obtain ⟨c, hc, hx⟩ := List.mem_flatMap.1 hx
  have hlt := c.toNat_lt
  rw [h c hc, sprintf02x_eq hlt] at hx
  rcases List.mem_pair.1 hx with rfl | rfl
  · rw [hexVal_hexChar _ (by omega)]
    rfl
  · rw [hexVal_hexChar _ (by omega)]
    rfl

/-- Text made of digits has neither white space, a sign nor `0x` in front. -/
theorem signedHex_of_isHex {s : List UInt8} (h : ∀ c ∈ s, (hexVal c).isSome) :
    signedHex (s.dropWhile isSpace) = scanHex 0 s := by
  have hspace : s.dropWhile isSpace = s := by
    cases s with
    | nil => rfl
    | cons c s =>
      have hc := h c List.mem_cons_self
      rw [List.dropWhile_cons, isSpace_of_isHex hc, if_neg (by decide)]
  have hbare : dropPrefix s = s := by
    rw [dropPrefix.eq_def]
    split
    · next x c t =>
      have hx := h x (by simp)
      rw [if_neg]
      rintro ⟨rfl | rfl, -⟩ <;> exact absurd hx (by decide)
    · rfl
  rw [hspace, signedHex.eq_def]
  split
  · exact absurd (h 43 List.mem_cons_self) (by decide)
  · exact absurd (h 45 List.mem_cons_self) (by decide)
  · rw [hbare]

/-- **Bytes written with `%02x` read back as their number**, up to saturation. -/
theorem strtol16_flatMap {s : List UInt8} (f : UInt8 → ℕ) (h : ∀ c ∈ s, f c = c.toNat) :
    strtol16 (s.flatMap fun c ↦ sprintf02x (f c)) = min (2 ^ 63 - 1) (bytesValue s : ℤ) := by
  rw [strtol16, signedHex_of_isHex fun c hc ↦ isHex_flatMap f h hc, scanHex_flatMap f h,
    ← bytesValue, clampLong]
  omega

/-! ### One byte of a number -/

theorem foldl_bytes (s : List UInt8) (acc : ℕ) :
    s.foldl (fun n c ↦ 256 * n + c.toNat) acc = acc * 256 ^ s.length + bytesValue s := by
  rw [bytesValue]
  induction s generalizing acc with
  | nil => simp
  | cons c s ih =>
    rw [List.foldl_cons, ih, List.foldl_cons, ih (256 * 0 + c.toNat), List.length_cons, pow_succ]
    ring

theorem bytesValue_append_cons (s : List UInt8) (c : UInt8) (t : List UInt8) :
    bytesValue (s ++ c :: t) = (256 * bytesValue s + c.toNat) * 256 ^ t.length + bytesValue t := by
  rw [bytesValue, List.foldl_append, List.foldl_cons, foldl_bytes]
  rfl

theorem bytesValue_cons (c : UInt8) (t : List UInt8) :
    bytesValue (c :: t) = c.toNat * 256 ^ t.length + bytesValue t := by
  rw [bytesValue, List.foldl_cons, foldl_bytes, Nat.mul_zero, Nat.zero_add]

theorem bytesValue_lt (s : List UInt8) : bytesValue s < 256 ^ s.length := by
  induction s using List.reverseRecOn with
  | nil => decide
  | append_singleton s c ih =>
    have hc := c.toNat_lt
    rw [bytesValue_append_cons, List.length_append, List.length_singleton, pow_succ,
      List.length_nil, pow_zero]
    have hnil : bytesValue [] = 0 := rfl
    omega

/-- **What the number makes of the byte at index `i`.** -/
theorem bytesValue_set {s : List UInt8} {i : ℕ} (hi : i < s.length) (c : UInt8) :
    bytesValue (s.set i c) = (256 * bytesValue (s.take i) + c.toNat) * 256 ^ (s.length - 1 - i) +
      bytesValue (s.drop (i + 1)) := by
  rw [List.set_eq_take_append_cons_drop, if_pos hi, bytesValue_append_cons, List.length_drop,
    Nat.sub_sub, Nat.add_comm 1 i]

end Hexadecimal
