import Sunda.Base.Bytes
import Sunda.Base.Hexadecimal

/-!
# The keys of IPC objects (`funmem.c`, `funsem.c`)

`makekey`, which the two files share: the characters of a name are written as hexadecimal text, the
text is read back as a `long`, the `long` is cut to a `key_t`, and the region is added.

The number read back has the characters as its digits in base 256. Cutting it to 32 bits keeps the
last four of them; from nine characters on the number does not fit a `long`, and the key is that of
`LONG_MAX` whatever the name (`makekey_set_ne_iff`). Regions keep the keys of one name apart in any
case (`makekey_region_ne`).
-/

namespace Sunda

open Bytes Hexadecimal
open Decimal (atoi)

/-- `IPC_KEY_BASE`. -/
def ipcKeyBase : ℤ := 0x1010101

/-- A `char` that `sprintf` prints as an `unsigned int`. -/
def charToUnsigned (c : UInt8) : ℕ :=
  if c.toNat < 128 then c.toNat else 2 ^ 32 - 256 + c.toNat

/-- `makekey`, of the characters of the name and the value of `IPCREGION` in the environment. The
text of 64 ASCII characters just fits `buf`. -/
def makekey (name : List UInt8) (ipcRegion : Option (List UInt8)) : BitVec 32 :=
  let buf := name.flatMap fun c ↦ sprintf02x (charToUnsigned c)
  let key := BitVec.ofInt 32 (strtol16 buf)
  let base_key := (ipcRegion.map atoi).getD 0
  let base_key := if base_key < 0 ∨ base_key > 255 then 0 else base_key
  key + BitVec.ofInt 32 (ipcKeyBase * base_key)

/-- A name made of ASCII characters. -/
def AsciiName (name : List UInt8) : Prop :=
  ∀ c ∈ name, 1 ≤ c.toNat ∧ c.toNat < 128

/-- A value of `IPCREGION` that `makekey` takes as it is. -/
def IsRegion (v : List UInt8) : Prop :=
  0 ≤ atoi v ∧ atoi v ≤ 255

instance (v : List UInt8) : Decidable (IsRegion v) :=
  inferInstanceAs (Decidable (_ ∧ _))

/-- The key depends on every character of the name and on the region. -/
structure KeySensitive (name : List UInt8) : Prop where
  name_ne : ∀ (v : List UInt8), IsRegion v → ∀ (i : ℕ) (hi : i < name.length) (c : UInt8),
    1 ≤ c.toNat → c.toNat < 128 → c ≠ name[i] →
    makekey (name.set i c) (some v) ≠ makekey name (some v)
  region_ne : ∀ (v w : List UInt8), IsRegion v → IsRegion w → atoi v ≠ atoi w →
    makekey name (some v) ≠ makekey name (some w)

theorem makekey_ascii {name : List UInt8} (h : AsciiName name) {v : List UInt8}
    (hv : IsRegion v) : makekey name (some v) =
      BitVec.ofInt 32 (min (2 ^ 63 - 1) (bytesValue name : ℤ)) +
        BitVec.ofInt 32 (ipcKeyBase * atoi v) := by
  have hchar : ∀ c ∈ name, charToUnsigned c = c.toNat := fun c hc ↦ if_pos (h c hc).2
  obtain ⟨hlo, hhi⟩ := hv
  simp only [makekey, strtol16_flatMap _ hchar, Option.map_some, Option.getD_some]
  rw [if_neg (by omega)]

/-- A `key_t` keeps the low 32 bits. -/
theorem ofInt_inj {a b : ℤ} :
    BitVec.ofInt 32 a = BitVec.ofInt 32 b ↔ a % 2 ^ 32 = b % 2 ^ 32 := by
  rw [← BitVec.toNat_inj, BitVec.toNat_ofInt, BitVec.toNat_ofInt]
  omega

/-- **The regions are kept apart**, for every name. -/
theorem makekey_region_ne {name v w : List UInt8} (h : AsciiName name) (hv : IsRegion v)
    (hw : IsRegion w) (hne : atoi v ≠ atoi w) :
    makekey name (some v) ≠ makekey name (some w) := by
  rw [makekey_ascii h hv, makekey_ascii h hw]
  intro heq
  have hkey := ofInt_inj.1 ((BitVec.add_right_inj _).1 heq)
  obtain ⟨hv₁, hv₂⟩ := hv
  obtain ⟨hw₁, hw₂⟩ := hw
  rw [ipcKeyBase] at hkey
  omega

/-! ### The characters of the name -/

/-- Up to eight characters, the number of the name fits a `long`. -/
theorem bytesValue_lt_long {name : List UInt8} (h : AsciiName name) (hlen : name.length ≤ 8) :
    bytesValue name < 2 ^ 63 := by
  cases name with
  | nil => decide
  | cons c t =>
    have hc := (h c List.mem_cons_self).2
    have hrest := bytesValue_lt t
    have hpow : 256 ^ t.length ≤ 256 ^ 7 :=
      Nat.pow_le_pow_right (by decide) (by rw [List.length_cons] at hlen; omega)
    have hhead : c.toNat * 256 ^ t.length ≤ 127 * 256 ^ t.length :=
      Nat.mul_le_mul_right _ (by omega)
    rw [bytesValue_cons]
    omega

/-- From nine characters on, it does not. -/
theorem long_lt_bytesValue {name : List UInt8} (h : AsciiName name) (hlen : 9 ≤ name.length) :
    2 ^ 63 ≤ bytesValue name := by
  cases name with
  | nil => exact absurd hlen (by decide)
  | cons c t =>
    have hc := (h c List.mem_cons_self).1
    have hpow : 256 ^ 8 ≤ 256 ^ t.length :=
      Nat.pow_le_pow_right (by decide) (by rw [List.length_cons] at hlen; omega)
    have hhead : 1 * 256 ^ t.length ≤ c.toNat * 256 ^ t.length := Nat.mul_le_mul_right _ hc
    rw [bytesValue_cons]
    omega

theorem AsciiName.set {name : List UInt8} (h : AsciiName name) (i : ℕ) {c : UInt8}
    (hc : 1 ≤ c.toNat ∧ c.toNat < 128) : AsciiName (name.set i c) := by
  intro d hd
  rcases List.mem_or_eq_of_mem_set hd with hmem | rfl
  · exact h d hmem
  · exact hc

/-- **Which characters the key depends on**: the last four, in a name of at most eight. -/
theorem makekey_set_ne_iff {name v : List UInt8} (h : AsciiName name) (hv : IsRegion v) {i : ℕ}
    (hi : i < name.length) {c : UInt8} (hc : 1 ≤ c.toNat ∧ c.toNat < 128) (hne : c ≠ name[i]) :
    makekey (name.set i c) (some v) ≠ makekey name (some v) ↔
      name.length ≤ 8 ∧ name.length ≤ i + 4 := by
  have hset := h.set i hc
  have hlen : (name.set i c).length = name.length := List.length_set
  rw [makekey_ascii hset hv, makekey_ascii h hv, ne_eq, BitVec.add_left_inj, ofInt_inj]
  by_cases hlong : name.length ≤ 8
  · have hnew := bytesValue_set hi c
    have hold := bytesValue_set hi name[i]
    rw [List.set_getElem_self] at hold
    have hlt := bytesValue_lt_long h hlong
    have hlt' := bytesValue_lt_long hset (hlen.trans_le hlong)
    have hbyte : c.toNat ≠ name[i].toNat := fun heq ↦ hne (UInt8.toNat_inj.1 heq)
    have hold' := (h name[i] (List.getElem_mem hi)).2
    rw [min_eq_right (by omega), min_eq_right (by omega)]
    -- the place of the character, counted from the end
    obtain ⟨k, hk⟩ : ∃ k, k = name.length - 1 - i := ⟨_, rfl⟩
    rw [← hk] at hnew hold
    have hk7 : k ≤ 7 := by omega
    interval_cases k <;> omega
  · have hsat := long_lt_bytesValue h (by omega)
    have hsat' := long_lt_bytesValue hset (by omega)
    rw [min_eq_left (by omega), min_eq_left (by omega)]
    simp [hlong]

/-- **The key depends on the whole name if and only if the name has at most four characters.** -/
theorem makekey_sensitive_iff {name : List UInt8} (h : AsciiName name) (hpos : name ≠ []) :
    KeySensitive name ↔ name.length ≤ 4 := by
  have hlen : 0 < name.length := List.length_pos_iff.2 hpos
  constructor
  · intro hkey
    -- the first character is replaced, in the region 0
    have hzero : IsRegion [48] := by decide
    obtain ⟨c, hc, hne⟩ : ∃ c : UInt8, (1 ≤ c.toNat ∧ c.toNat < 128) ∧ c ≠ name[0] := by
      by_cases hfirst : name[0] = 65
      · exact ⟨66, by decide, by rw [hfirst]; decide⟩
      · exact ⟨65, by decide, fun heq ↦ hfirst heq.symm⟩
    have hkeys := hkey.name_ne [48] hzero 0 hlen c hc.1 hc.2 hne
    have := ((makekey_set_ne_iff h hzero hlen hc hne).1 hkeys).2
    omega
  · intro hfour
    refine ⟨fun v hv i hi c hc₁ hc₂ hne ↦ ?_, fun v w hv hw hne ↦ makekey_region_ne h hv hw hne⟩
    exact (makekey_set_ne_iff h hv hi ⟨hc₁, hc₂⟩ hne).2 (by omega)

/-- Three letters. -/
theorem makekey_sensitive_iff_short :
    KeySensitive [97, 98, 99] ↔ ([97, 98, 99] : List UInt8).length ≤ 4 :=
  makekey_sensitive_iff (by simp [AsciiName]) (by decide)

/-- The name of the shared memory: its fourth character does not matter. -/
theorem makekey_not_sensitive : ¬KeySensitive (text "SD_MEN_NAME") := fun h ↦
  h.name_ne (text "0") (by decide) 3 (by decide) (ch 'S') (by decide) (by decide) (by decide)
    (by decide)

end Sunda
