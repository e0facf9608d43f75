import Mathlib.Data.List.GetD
import Mathlib.Data.List.TakeWhile
import Mathlib.Data.Vector.Basic
import Mathlib.Tactic.Ring

/-!
# Fixed-width integers and zero-filled buffers as byte lists

The byte-level vocabulary of a C program on a little-endian machine: integers of a fixed width
laid out least significant byte first (`leBytes`, `leValue`), and arrays that were cleared with
`memset` before something was copied to their front.

Such an array is represented by the bytes written so far; everything behind them reads as zero.
`bufRead bs off n` is a copy of `n` bytes starting at index `off` of it, so an over-long copy
returns the written bytes followed by zeros instead of being undefined. Whether a copy stays
inside the declared array is a separate, numeric question and is stated where it matters.

The lemmas about `bufRead` are what a struct's field accessors need: reading inside the left or
the right part of an append (`bufRead_append_left`, `bufRead_append_right`), and reading a whole
part back (`bufRead_zero_length`).
-/

namespace Bytes

/-! ### Little-endian integers -/

/-- The `w` low bytes of `n`, least significant first. -/
def leBytes : ℕ → ℕ → List UInt8
  | 0, _ => []
  | w + 1, n => UInt8.ofNat n :: leBytes w (n >>> 8)

/-- The number whose little-endian bytes are `bs`. -/
def leValue (bs : List UInt8) : ℕ :=
  bs.foldr (fun b acc ↦ b.toNat + 256 * acc) 0

@[simp]
theorem leBytes_length (w n : ℕ) : (leBytes w n).length = w := by
  induction w generalizing n with
  | zero => rfl
  | succ w ih => rw [leBytes, List.length_cons, ih]

/-- Reading back `w` bytes recovers the number up to the bits that did not fit. -/
theorem leValue_leBytes (w n : ℕ) : leValue (leBytes w n) = n % 2 ^ (8 * w) := by
  induction w generalizing n with
  | zero => simp [leBytes, leValue, Nat.mod_one]
  | succ w ih =>
    have hcons : leValue (leBytes (w + 1) n) = n % 256 + 256 * leValue (leBytes w (n >>> 8)) := by
      simp [leBytes, leValue]
    have hpow : (2 : ℕ) ^ (8 * (w + 1)) = 256 * 2 ^ (8 * w) := by
      rw [show 8 * (w + 1) = 8 + 8 * w by ring, pow_add]
      norm_num
    rw [hcons, ih, Nat.shiftRight_eq_div_pow, hpow, Nat.mod_mul]

/-- A bit vector of `8 * w` bits survives the trip through its bytes. -/
theorem ofNat_leValue_leBytes (w : ℕ) (x : BitVec (8 * w)) :
    BitVec.ofNat (8 * w) (leValue (leBytes w x.toNat)) = x := by
  rw [leValue_leBytes, Nat.mod_eq_of_lt x.isLt, BitVec.ofNat_toNat, BitVec.setWidth_eq]

/-! ### Zero-filled buffers -/

/-- The `n` bytes at index `off` of a zero-filled buffer whose front holds `bs`. -/
def bufRead (bs : List UInt8) (off n : ℕ) : List UInt8 :=
  (List.range n).map fun k ↦ bs.getD (off + k) 0

@[simp]
theorem bufRead_length (bs : List UInt8) (off n : ℕ) : (bufRead bs off n).length = n := by
  simp [bufRead]

/-- One byte of a read. -/
theorem getD_bufRead (bs : List UInt8) (off n k : ℕ) :
    (bufRead bs off n).getD k 0 = if k < n then bs.getD (off + k) 0 else 0 := by
  split <;> simp [bufRead, List.getD, *]

/-- Two reads agree when the buffers agree byte by byte over the range read. -/
theorem bufRead_congr {bs cs : List UInt8} {off off' n : ℕ}
    (h : ∀ k < n, bs.getD (off + k) 0 = cs.getD (off' + k) 0) :
    bufRead bs off n = bufRead cs off' n :=
  List.map_congr_left fun k hk ↦ h k (List.mem_range.1 hk)

/-- A read that ends inside the left part does not see the right part. -/
theorem bufRead_append_left (as bs : List UInt8) {off n : ℕ} (h : off + n ≤ as.length) :
    bufRead (as ++ bs) off n = bufRead as off n :=
  bufRead_congr fun k hk ↦ by
    rw [List.getD_append as bs 0 (off + k) (by omega)]

/-- A read that starts behind the left part is a read of the right part. -/
theorem bufRead_append_right (as bs : List UInt8) {off n : ℕ} (h : as.length ≤ off) :
    bufRead (as ++ bs) off n = bufRead bs (off - as.length) n :=
  bufRead_congr fun k _ ↦ by
    rw [List.getD_append_right as bs 0 (off + k) (by omega),
      show off + k - as.length = off - as.length + k by omega]

/-- Reading exactly the bytes that were written gives them back. -/
theorem bufRead_zero_length (bs : List UInt8) : bufRead bs 0 bs.length = bs := by
  refine List.ext_getElem (by simp) fun k hk _ ↦ ?_
  have hk' : k < bs.length := by simpa using hk
  simp [bufRead, hk']

/-- Reading the left part of an append. -/
theorem bufRead_append_zero (as bs : List UInt8) {n : ℕ} (h : as.length = n) :
    bufRead (as ++ bs) 0 n = as := by
  subst h
  rw [bufRead_append_left as bs (by omega), bufRead_zero_length]

/-- The bytes in front of an index. -/
theorem bufRead_zero_take {bs : List UInt8} {n : ℕ} (h : n ≤ bs.length) :
    bufRead bs 0 n = bs.take n := by
  have hleft := bufRead_append_zero (bs.take n) (bs.drop n) (List.length_take_of_le h)
  rwa [List.take_append_drop] at hleft

/-- The bytes behind an index. -/
theorem bufRead_drop {bs : List UInt8} {n : ℕ} (h : n ≤ bs.length) :
    bufRead bs n (bs.length - n) = bs.drop n := by
  have hlen : (bs.take n).length = n := List.length_take_of_le h
  have hright := bufRead_append_right (bs.take n) (bs.drop n) (n := bs.length - n) hlen.le
  rw [List.take_append_drop, hlen, Nat.sub_self] at hright
  rw [hright, ← List.length_drop, bufRead_zero_length]

/-- A read of the left part and of `n` bytes more. -/
theorem bufRead_append_add (as bs : List UInt8) (n : ℕ) :
    bufRead (as ++ bs) 0 (as.length + n) = as ++ bufRead bs 0 n := by
  rw [bufRead, List.range_add, List.map_append]
  congr 1
  · exact bufRead_append_zero as bs rfl
  · rw [List.map_map]
    refine List.map_congr_left fun k _ ↦ ?_
    show (as ++ bs).getD (0 + (as.length + k)) 0 = bs.getD (0 + k) 0
    rw [List.getD_append_right as bs 0 (0 + (as.length + k)) (by omega)]
    congr 1
    omega

/-- Reading a read: an inner read that covers the outer one can be skipped. -/
theorem bufRead_bufRead (bs : List UInt8) {off n off' n' : ℕ} (h : off' + n' ≤ n) :
    bufRead (bufRead bs off n) off' n' = bufRead bs (off + off') n' :=
  bufRead_congr fun k hk ↦ by
    have hlt : off' + k < n := by omega
    simp [bufRead, List.getD, hlt, Nat.add_assoc]

/-! ### Writing into a buffer -/

/-- `memcpy` of `data` to the index `off` of a buffer. -/
def patch (bs : List UInt8) (off : ℕ) (data : List UInt8) : List UInt8 :=
  bs.take off ++ (data ++ bs.drop (off + data.length))

section Patch

variable {bs data : List UInt8} {off : ℕ} (h : off + data.length ≤ bs.length)

include h

theorem patch_length : (patch bs off data).length = bs.length := by
  rw [patch, List.length_append, List.length_append, List.length_take, List.length_drop]
  omega

theorem bufRead_patch : bufRead (patch bs off data) off data.length = data := by
  have htake : (bs.take off).length = off := by
    rw [List.length_take]
    omega
  rw [patch, bufRead_append_right _ _ htake.le, htake, Nat.sub_self,
    bufRead_append_left _ _ (by omega), bufRead_zero_length]

/-- Whatever lies apart from the bytes written is unchanged. -/
theorem bufRead_patch_of_apart {o n : ℕ} (hapart : o + n ≤ off ∨ off + data.length ≤ o) :
    bufRead (patch bs off data) o n = bufRead bs o n := by
  have htake : (bs.take off).length = off := by
    rw [List.length_take]
    omega
  have hsplit : bs = bs.take off ++ bs.drop off := (List.take_append_drop off bs).symm
  rcases hapart with hleft | hright
  · conv_rhs => rw [hsplit]
    rw [patch, bufRead_append_left _ _ (by omega), bufRead_append_left _ _ (by omega)]
  · refine bufRead_congr fun k _ ↦ ?_
    have hdata : ¬o + k - off < data.length := by omega
    have hoff : ¬o + k < off := by omega
    simp only [patch, List.getD_eq_getElem?_getD, List.getElem?_append, htake, if_neg hoff,
      if_neg hdata, List.getElem?_drop]
    congr 2
    omega

end Patch

/-! ### Fields -/

/-- The unsigned or two's complement field of `w` bytes at offset `off`. -/
def leField (w : ℕ) (bs : List UInt8) (off : ℕ) : BitVec (8 * w) :=
  BitVec.ofNat (8 * w) (leValue (bufRead bs off w))

/-- A `char` array of length `n` at offset `off`. -/
def charField (n : ℕ) (bs : List UInt8) (off : ℕ) : List.Vector UInt8 n :=
  ⟨bufRead bs off n, bufRead_length bs off n⟩

theorem leField_eq_of_bufRead {w : ℕ} {bs : List UInt8} {off : ℕ} {x : BitVec (8 * w)}
    (h : bufRead bs off w = leBytes w x.toNat) : leField w bs off = x := by
  rw [leField, h, ofNat_leValue_leBytes]

theorem charField_eq_of_bufRead {n : ℕ} {bs : List UInt8} {off : ℕ} {v : List.Vector UInt8 n}
    (h : bufRead bs off n = v.toList) : charField n bs off = v :=
  Subtype.ext h

/-! ### C strings -/

/-- A character, in ASCII. -/
def ch (c : Char) : UInt8 :=
  UInt8.ofNat c.toNat

/-- The characters of a string literal, in ASCII. -/
def text (s : String) : List UInt8 :=
  s.toList.map fun c ↦ UInt8.ofNat c.toNat

/-- The characters of the C string stored at the front of `bs`: everything before the first NUL. -/
def cstr (bs : List UInt8) : List UInt8 :=
  bs.takeWhile (· ≠ 0)

/-- A C string contains no NUL. -/
theorem zero_notMem_cstr (bs : List UInt8) : (0 : UInt8) ∉ cstr bs := fun h ↦ by
  simpa using List.mem_takeWhile_imp h

theorem cstr_eq_self {bs : List UInt8} (h : (0 : UInt8) ∉ bs) : cstr bs = bs :=
  List.takeWhile_eq_self_iff.2 fun b hb ↦ by
    have : b ≠ 0 := fun h0 ↦ h (h0 ▸ hb)
    simpa using this

theorem cstr_length_le (bs : List UInt8) : (cstr bs).length ≤ bs.length :=
  (List.takeWhile_prefix _).length_le

theorem cstr_cons_zero (as : List UInt8) : cstr (0 :: as) = [] := by
  simp [cstr]

theorem cstr_cons_of_ne {a : UInt8} (h : a ≠ 0) (as : List UInt8) :
    cstr (a :: as) = a :: cstr as := by
  simp [cstr, h]

theorem cstr_append {s : List UInt8} (h : (0 : UInt8) ∉ s) (rest : List UInt8) :
    cstr (s ++ rest) = s ++ cstr rest :=
  List.takeWhile_append_of_pos fun b hb ↦ by
    have : b ≠ 0 := fun h0 ↦ h (h0 ▸ hb)
    simpa using this

/-- A NUL-terminated copy of a C string reads back as the string. -/
theorem cstr_append_zero {s : List UInt8} (h : (0 : UInt8) ∉ s) (rest : List UInt8) :
    cstr (s ++ 0 :: rest) = s := by
  rw [cstr_append h, cstr_cons_zero, List.append_nil]

/-- What stands before the first separator is determined. -/
theorem append_sep_inj {α : Type*} {c : α} {u v s t : List α} (hu : c ∉ u) (hv : c ∉ v)
    (h : u ++ c :: s = v ++ c :: t) : u = v ∧ s = t := by
  induction u generalizing v with
  | nil =>
    cases v with
    | nil => exact ⟨rfl, (List.cons.inj h).2⟩
    | cons x v => exact absurd (List.mem_cons.mpr (Or.inl (List.cons.inj h).1)) hv
  | cons x u ih =>
    cases v with
    | nil => exact absurd (List.mem_cons.mpr (Or.inl (List.cons.inj h).1.symm)) hu
    | cons y v =>
      obtain ⟨hxy, hrest⟩ := List.cons.inj h
      obtain ⟨huv, hst⟩ := ih (fun hm ↦ hu (List.mem_cons_of_mem _ hm))
        (fun hm ↦ hv (List.mem_cons_of_mem _ hm)) hrest
      exact ⟨by rw [hxy, huv], hst⟩

/-- `strncpy(dst, src, n)`: at most `n` characters, filled up with NULs to `n` bytes. -/
def strncpy (dst src : List UInt8) (n : ℕ) : List UInt8 :=
  (cstr src ++ List.replicate n 0).take n ++ dst.drop n

theorem take_strncpy (dst src : List UInt8) (n : ℕ) :
    (strncpy dst src n).take n = (cstr src ++ List.replicate n 0).take n := by
  rw [strncpy, List.take_append_of_le_length (by simp), List.take_take, min_self]

theorem drop_strncpy {dst : List UInt8} (src : List UInt8) {n : ℕ} :
    (strncpy dst src n).drop n = dst.drop n := by
  have hlen : ((cstr src ++ List.replicate n 0).take n).length = n := by
    rw [List.length_take, List.length_append, List.length_replicate]
    omega
  rw [strncpy, List.drop_append_of_le_length hlen.ge, List.drop_of_length_le hlen.le,
    List.nil_append]

/-- In front of a NUL it leaves the string cut off at `n` characters. -/
theorem cstr_strncpy {dst rest : List UInt8} {n : ℕ} (h : dst.drop n = 0 :: rest)
    (src : List UInt8) : cstr (strncpy dst src n) = (cstr src).take n := by
  have hzero : (0 : UInt8) ∉ (cstr src).take n := fun hmem ↦
    zero_notMem_cstr src (List.mem_of_mem_take hmem)
  rw [strncpy, h, List.take_append, List.append_assoc, cstr_append hzero, List.take_replicate]
  cases min (n - (cstr src).length) n with
  | zero => rw [List.replicate_zero, List.nil_append, cstr_cons_zero, List.append_nil]
  | succ k => rw [List.replicate_succ, List.cons_append, cstr_cons_zero, List.append_nil]

/-- A buffer that reads the same a few bytes further on is zero, as it is zero at its end. -/
theorem getD_of_bufRead_self {bs : List UInt8} {k : ℕ} (hk : 0 < k)
    (h : bufRead bs k bs.length = bs) (i : ℕ) : bs.getD i 0 = 0 := by
  -- by induction on the distance to the end
  have key : ∀ d i, bs.length ≤ i + d → bs.getD i 0 = 0 := by
    intro d
    induction d with
    | zero => exact fun i hi ↦ List.getD_eq_default _ _ hi
    | succ d ih =>
      intro i hi
      rcases Nat.lt_or_ge i bs.length with hlt | hge
      · have hshift := congrArg (fun l : List UInt8 ↦ l.getD i 0) h
        rw [getD_bufRead, if_pos hlt] at hshift
        rw [← hshift]
        exact ih (k + i) (by omega)
      · exact List.getD_eq_default _ _ hge
  exact key bs.length i (Nat.le_add_left _ _)

/-- A string copied to the front of a cleared array reads back, as long as it fits. -/
theorem cstr_bufRead {s : List UInt8} (h : (0 : UInt8) ∉ s) {n : ℕ} (hn : s.length ≤ n) :
    cstr (bufRead s 0 n) = s := by
  obtain ⟨k, rfl⟩ := Nat.exists_eq_add_of_le hn
  have hsplit : bufRead s 0 (s.length + k) = s ++ List.replicate k 0 := by
    refine List.ext_getElem (by simp) fun i hi _ ↦ ?_
    rcases Nat.lt_or_ge i s.length with hlt | hge
    · simp [bufRead, hlt]
    · have hnone : s[i]? = none := List.getElem?_eq_none hge
      simp [bufRead, List.getElem_append_right hge, hnone]
  rw [hsplit]
  cases k with
  | zero => simpa using cstr_eq_self h
  | succ k => rw [List.replicate_succ]; exact cstr_append_zero h _

/-- Read from the front of a string as far as the buffer goes. -/
theorem cstr_bufRead_take {s : List UInt8} (h : (0 : UInt8) ∉ s) (n : ℕ) :
    cstr (bufRead s 0 n) = s.take n := by
  have htake : bufRead s 0 n = bufRead (s.take n) 0 n := bufRead_congr fun k hk ↦ by
    simp [hk]
  rw [htake, cstr_bufRead (fun h0 ↦ h (List.mem_of_mem_take h0)) (List.length_take_le _ _)]

/-- A terminating NUL behind a buffer does not change its string. -/
theorem cstr_append_singleton_zero (bs : List UInt8) : cstr (bs ++ [0]) = cstr bs := by
  induction bs with
  | nil => rfl
  | cons b bs ih =>
    by_cases hb : b = 0
    · subst hb
      rw [List.cons_append, cstr_cons_zero, cstr_cons_zero]
    · rw [List.cons_append, cstr_cons_of_ne hb, cstr_cons_of_ne hb, ih]

/-- `strncmp(a, b, n) == 0`: the strings agree up to a common NUL or over `n` characters. -/
def strncmpEq : ℕ → List UInt8 → List UInt8 → Bool
  | 0, _, _ => true
  | n + 1, a, b =>
    a.headD 0 == b.headD 0 && (a.headD 0 == 0 || strncmpEq n a.tail b.tail)

/-- `strncmp` compares the first `n` characters of the two C strings. -/
theorem strncmpEq_iff (n : ℕ) (a b : List UInt8) :
    strncmpEq n a b = true ↔ (cstr a).take n = (cstr b).take n := by
  induction n generalizing a b with
  | zero => simp [strncmpEq]
  | succ n ih =>
    have hnil : ∀ c : List UInt8, (cstr c).take (n + 1) = [] ↔ c.headD 0 = 0 := by
      intro c
      match c with
      | [] => simp [cstr]
      | x :: xs => by_cases hx : x = 0 <;> simp [cstr, hx]
    by_cases ha : a.headD 0 = 0
    · rw [(hnil a).2 ha, eq_comm (a := []), hnil b]
      simp only [strncmpEq, ha, BEq.rfl, Bool.true_or, Bool.and_true, beq_iff_eq]
      exact eq_comm
    · by_cases hb : b.headD 0 = 0
      · rw [(hnil b).2 hb, hnil a]
        have hne : (a.headD 0 == b.headD 0) = false := by
          rw [hb]
          exact beq_false_of_ne ha
        simp only [strncmpEq, hne, Bool.false_and, Bool.false_eq_true, false_iff]
        exact ha
      · match a, b with
        | [], _ => exact absurd rfl ha
        | _ :: _, [] => exact absurd rfl hb
        | x :: xs, y :: ys =>
          have hx : x ≠ 0 := ha
          have hy : y ≠ 0 := hb
          rw [cstr_cons_of_ne hx, cstr_cons_of_ne hy, List.take_succ_cons, List.take_succ_cons,
            List.cons.injEq, ← ih xs ys]
          simp [strncmpEq, hx]

end Bytes
