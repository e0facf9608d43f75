import Sunda.Base.Blocks
import Sunda.Tux.Types

/-!
# Guarded buffers (`tuxmgr.c`)

`tux_alloc`, `tux_realloc`, `tux_free` and `tux_real_len`. A buffer is an array of units of 32 bytes:
a header in front of the bytes that the caller gets, and a copy of the header behind them, at a place
that follows from the length in the header.

An outcome `none` is an access outside the live blocks. The pointers that the functions take are
null, or point behind the header of a block, which then stands for the pointer.

* `GuardedBuffer` is what the three functions check before they trust a buffer. The two units are
  apart from the bytes in between (`GuardedBuffer.room`), so `BufferStep` keeps it for every buffer
  (`guarded_of_reachable`), and the functions accept what they are given
  (`buffers_consistent`).
-/

namespace Sunda

open Bytes Blocks

/-! ### The unit -/

/-- `struct tpmemory`. -/
structure TpMemory where
  type : BitVec 64
  subtype : BitVec 64
  len : BitVec 64
  magic : BitVec 64
  deriving DecidableEq

/-- `MAGIC`. -/
def magicNumber : BitVec 64 := 0xfee1900d

/-- `~MAGIC`, which is an `unsigned int`. -/
def notMagic : BitVec 64 := 0x011e6ff2

/-- `ALLOC_UNITS`, in the arithmetic of `size_t`. -/
def allocUnits (s : BitVec 64) : ℕ :=
  (s + 31).toNat / 32 + 2

/-- `ALLOC_UNITS(s) * sizeof(struct tpmemory)`. -/
def allocBytes (s : BitVec 64) : ℕ :=
  allocUnits s * 32 % 2 ^ 64

/-- The bytes of a unit. -/
def TpMemory.bytes (m : TpMemory) : List UInt8 :=
  leBytes 8 m.type.toNat ++ (leBytes 8 m.subtype.toNat ++
    (leBytes 8 m.len.toNat ++ leBytes 8 m.magic.toNat))

/-- The unit that some bytes are. -/
def TpMemory.ofBytes (bs : List UInt8) : TpMemory where
  type := leField 8 bs 0
  subtype := leField 8 bs 8
  len := leField 8 bs 16
  magic := leField 8 bs 24

/-- Reading the unit at index `i` of a block. -/
def readUnit (bs : List UInt8) (i : ℕ) : Option TpMemory :=
  if 32 * i + 32 ≤ bs.length then some (.ofBytes (bufRead bs (32 * i) 32)) else none

/-- Writing it. -/
def writeUnit (bs : List UInt8) (i : ℕ) (m : TpMemory) : Option (List UInt8) :=
  if 32 * i + 32 ≤ bs.length then some (patch bs (32 * i) m.bytes) else none

/-- The static strings of the file: their addresses, and the string that is at an address. -/
structure Literals where
  emptystring : BitVec 64
  stringtype : BitVec 64
  carraytype : BitVec 64
  at_ : BitVec 64 → List UInt8
  at_emptystring : at_ emptystring = []
  at_stringtype : at_ stringtype = text "STRING"
  at_carraytype : at_ carraytype = text "CARRAY"

/-! ### The functions -/

/-- The type that `tux_alloc` records. -/
def allocType (lit : Literals) (type : List UInt8) : BitVec 64 :=
  if type = text "STRING" then lit.stringtype
  else if type = text "CARRAY" then lit.carraytype
  else lit.emptystring

/-- `tux_alloc`: the block returned or `tux_errno`, and the heap. -/
def tuxAlloc (lit : Literals) (h : Heap) (type : List UInt8) (size : BitVec 64) (malloc : Answer) :
    Option (Except ℤ ℕ × Heap) :=
  if size.toInt < 0 then some (.error sysInval, h)
  else
    let len := size + 2048
    match malloc with
    | none => some (.error sysOs, h)
    | some (b, bytes) => do
      let p : TpMemory := ⟨allocType lit type, lit.emptystring, len, magicNumber⟩
      let bytes ← writeUnit bytes (allocUnits len - 1) p
      let bytes ← writeUnit bytes 0 p
      some (.ok b, h.put b bytes)

/-- What `tux_realloc`, `tux_free` and `tux_real_len` begin with: the block and its header, if the
pointer is that of a guarded buffer. `refuse` is tested together with the magic number. -/
def checkUnits (h : Heap) (ptr : Option ℕ) (refuse : Bool) :
    Option (Option (ℕ × List UInt8 × TpMemory)) :=
  match ptr with
  | none => some none
  | some b => do
    let bs ← h b
    let p ← readUnit bs 0
    if p.magic ≠ magicNumber ∨ refuse then some none
    else do
      let p2 ← readUnit bs (allocUnits p.len - 1)
      if p.len ≠ p2.len ∨ p.magic ≠ p2.magic ∨ p.type ≠ p2.type ∨ p.subtype ≠ p2.subtype then
        some none
      else some (some (b, bs, p))

/-- `tux_realloc`. -/
def tuxRealloc (h : Heap) (ptr : Option ℕ) (size : BitVec 64) (realloc : Answer) :
    Option (Except ℤ ℕ × Heap) := do
  match ← checkUnits h ptr (size.toInt < 0) with
  | none => some (.error sysInval, h)
  | some (b, _, _) =>
    match realloc with
    | none => some (.error sysOs, h)
    | some (c, bytes) => do
      let p ← readUnit bytes 0
      let p := { p with len := size }
      let bytes ← writeUnit bytes 0 p
      let bytes ← writeUnit bytes (allocUnits size - 1) p
      some (.ok c, (h.free b).put c bytes)

/-- `tux_free`: the blocks released and the heap. -/
def tuxFree (h : Heap) (ptr : Option ℕ) : Option (List ℕ × Heap) :=
  if ptr = none then some ([], h)
  else do
    match ← checkUnits h ptr false with
    | none => some ([], h)
    | some (b, bs, p) => do
      let p := { p with magic := notMagic }
      let bs ← writeUnit bs (allocUnits p.len - 1) p
      let bs ← writeUnit bs 0 p
      some ([b], (h.put b bs).free b)

/-- `tux_real_len`: the length or `tux_errno`. `strlen` runs up to the first NUL of the block. -/
def tuxRealLen (lit : Literals) (h : Heap) (ptr : Option ℕ) : Option (Except ℤ (BitVec 64)) := do
  match ← checkUnits h ptr false with
  | none => some (.error sysInval)
  | some (_, bs, p) =>
    if lit.at_ p.type = text "STRING" then
      if (0 : UInt8) ∈ bs.drop 32 then
        some (.ok (BitVec.ofNat 64 ((cstr (bs.drop 32)).length + 1)))
      else none
    else some (.ok p.len)

/-! ### Units and bytes -/

@[simp]
theorem TpMemory.bytes_length (m : TpMemory) : m.bytes.length = 32 := by
  simp [TpMemory.bytes]

theorem bufRead_leBytes (w n : ℕ) : bufRead (leBytes w n) 0 w = leBytes w n := by
  have hself := bufRead_zero_length (leBytes w n)
  rwa [leBytes_length] at hself

theorem TpMemory.ofBytes_bytes (m : TpMemory) : TpMemory.ofBytes m.bytes = m := by
  obtain ⟨type, subtype, len, magic⟩ := m
  have htype : bufRead (TpMemory.bytes ⟨type, subtype, len, magic⟩) 0 8 = leBytes 8 type.toNat := by
    rw [TpMemory.bytes, bufRead_append_zero _ _ (leBytes_length ..)]
  have hsubtype : bufRead (TpMemory.bytes ⟨type, subtype, len, magic⟩) 8 8 =
      leBytes 8 subtype.toNat := by
    rw [TpMemory.bytes, bufRead_append_right _ _ (by simp), leBytes_length,
      bufRead_append_zero _ _ (leBytes_length ..)]
  have hlen : bufRead (TpMemory.bytes ⟨type, subtype, len, magic⟩) 16 8 = leBytes 8 len.toNat := by
    rw [TpMemory.bytes, bufRead_append_right _ _ (by simp), leBytes_length,
      bufRead_append_right _ _ (by simp), leBytes_length, bufRead_append_zero _ _ (leBytes_length ..)]
  have hmagic : bufRead (TpMemory.bytes ⟨type, subtype, len, magic⟩) 24 8 =
      leBytes 8 magic.toNat := by
    rw [TpMemory.bytes, bufRead_append_right _ _ (by simp), leBytes_length,
      bufRead_append_right _ _ (by simp), leBytes_length, bufRead_append_right _ _ (by simp),
      leBytes_length]
    exact bufRead_leBytes 8 magic.toNat
  rw [TpMemory.ofBytes, leField_eq_of_bufRead htype, leField_eq_of_bufRead hsubtype,
    leField_eq_of_bufRead hlen, leField_eq_of_bufRead hmagic]

theorem readUnit_of_bufRead {bs : List UInt8} {i : ℕ} {m : TpMemory}
    (hlen : 32 * i + 32 ≤ bs.length) (h : bufRead bs (32 * i) 32 = m.bytes) :
    readUnit bs i = some m := by
  rw [readUnit, if_pos hlen, h, TpMemory.ofBytes_bytes]

/-! ### Guarded buffers -/

/-- A buffer: a header, a copy of it where its length says, and the magic number. -/
structure GuardedBuffer (bs : List UInt8) (p : TpMemory) : Prop where
  length : bs.length = 32 * allocUnits p.len
  header : bufRead bs 0 32 = p.bytes
  trailer : bufRead bs (32 * (allocUnits p.len - 1)) 32 = p.bytes
  magic : p.magic = magicNumber

theorem two_le_allocUnits (s : BitVec 64) : 2 ≤ allocUnits s := by
  rw [allocUnits]
  omega

/-- A length that is not negative is far from the end of `size_t`. -/
theorem toNat_lt_of_nonneg {s : BitVec 64} (h : 0 ≤ s.toInt) : s.toNat < 2 ^ 63 := by
  have hlt := s.isLt
  rw [BitVec.toInt_eq_toNat_cond] at h
  split at h <;> omega

/-- The units of a length that is away from the end of `size_t`. -/
theorem allocUnits_of_lt {s : BitVec 64} (h : s.toNat + 31 < 2 ^ 64) :
    allocUnits s = (s.toNat + 31) / 32 + 2 := by
  have hthirty : (31 : BitVec 64).toNat = 31 := rfl
  rw [allocUnits, BitVec.toNat_add, hthirty, Nat.mod_eq_of_lt h]

theorem allocUnits_of_nonneg {s : BitVec 64} (h : 0 ≤ s.toInt) :
    allocUnits s = (s.toNat + 31) / 32 + 2 :=
  allocUnits_of_lt (by have := toNat_lt_of_nonneg h; omega)

theorem allocBytes_of_nonneg {s : BitVec 64} (h : 0 ≤ s.toInt) :
    allocBytes s = 32 * allocUnits s := by
  have hunits := allocUnits_of_nonneg h
  have hhalf := toNat_lt_of_nonneg h
  rw [allocBytes, Nat.mod_eq_of_lt (by omega), Nat.mul_comm]

namespace GuardedBuffer

variable {bs : List UInt8} {p : TpMemory}

/-- **The two units are apart from the bytes of the caller.** -/
theorem room (hp : 0 ≤ p.len.toInt) : 32 + p.len.toNat ≤ 32 * (allocUnits p.len - 1) := by
  rw [allocUnits_of_nonneg hp]
  omega

theorem readUnit_header (h : GuardedBuffer bs p) : readUnit bs 0 = some p := by
  have hunits := two_le_allocUnits p.len
  have hlen := h.length
  exact readUnit_of_bufRead (by omega) h.header

theorem readUnit_trailer (h : GuardedBuffer bs p) :
    readUnit bs (allocUnits p.len - 1) = some p := by
  have hunits := two_le_allocUnits p.len
  have hlen := h.length
  exact readUnit_of_bufRead (by omega) h.trailer

/-- What is written between the units leaves them alone. -/
theorem write_of_room (h : GuardedBuffer bs p)
    (hroom : 32 + p.len.toNat ≤ 32 * (allocUnits p.len - 1)) {off : ℕ} {data : List UInt8}
    (hin : off + data.length ≤ p.len.toNat) : GuardedBuffer (patch bs (32 + off) data) p := by
  have hunits := two_le_allocUnits p.len
  have hlen := h.length
  have hfits : 32 + off + data.length ≤ bs.length := by omega
  refine ⟨?_, ?_, ?_, h.magic⟩
  · rw [patch_length hfits, hlen]
  · rw [bufRead_patch_of_apart hfits (Or.inl (by omega)), h.header]
  · rw [bufRead_patch_of_apart hfits (Or.inr (by omega)), h.trailer]

theorem write (h : GuardedBuffer bs p) (hp : 0 ≤ p.len.toInt) {off : ℕ} {data : List UInt8}
    (hin : off + data.length ≤ p.len.toNat) : GuardedBuffer (patch bs (32 + off) data) p :=
  h.write_of_room (room hp) hin

/-- Writing the header and its copy, in either order, makes a buffer. -/
theorem of_units (p : TpMemory) (hlen : bs.length = 32 * allocUnits p.len) (hm : p.magic = magicNumber)
    {i j : ℕ} (hij : (i = 0 ∧ j = allocUnits p.len - 1) ∨ (i = allocUnits p.len - 1 ∧ j = 0)) :
    GuardedBuffer (patch (patch bs (32 * i) p.bytes) (32 * j) p.bytes) p := by
  have hunits := two_le_allocUnits p.len
  have hb := p.bytes_length
  have hi : 32 * i + p.bytes.length ≤ bs.length := by omega
  have hj : 32 * j + p.bytes.length ≤ (patch bs (32 * i) p.bytes).length := by
    rw [patch_length hi]
    omega
  have hsecond : bufRead (patch (patch bs (32 * i) p.bytes) (32 * j) p.bytes) (32 * j) 32 =
      p.bytes := by
    have hread := bufRead_patch hj
    rwa [hb] at hread
  have hfirst : bufRead (patch (patch bs (32 * i) p.bytes) (32 * j) p.bytes) (32 * i) 32 =
      p.bytes := by
    have hread := bufRead_patch hi
    rw [hb] at hread
    rw [bufRead_patch_of_apart hj (by omega), hread]
  refine ⟨?_, ?_, ?_, hm⟩
  · rw [patch_length hj, patch_length hi, hlen]
  · rcases hij with ⟨rfl, -⟩ | ⟨-, rfl⟩
    · exact hfirst
    · exact hsecond
  · rcases hij with ⟨-, rfl⟩ | ⟨rfl, -⟩
    · exact hsecond
    · exact hfirst

end GuardedBuffer

/-- The checks accept a guarded buffer. -/
theorem checkUnits_guarded {h : Heap} {b : ℕ} {bs : List UInt8} {p : TpMemory}
    (hb : h b = some bs) (hg : GuardedBuffer bs p) {refuse : Bool} (hr : refuse = false) :
    checkUnits h (some b) refuse = some (some (b, bs, p)) := by
  subst hr
  simp [checkUnits, hb, hg.readUnit_header, hg.readUnit_trailer, hg.magic]

/-- They accept nothing that is refused anyway. -/
theorem checkUnits_refused {h : Heap} {b : ℕ} {bs : List UInt8} {p : TpMemory}
    (hb : h b = some bs) (hg : GuardedBuffer bs p) : checkUnits h (some b) true = some none := by
  simp [checkUnits, hb, hg.readUnit_header]

theorem of_writeUnit {bs bs' : List UInt8} {i : ℕ} {m : TpMemory}
    (h : writeUnit bs i m = some bs') : 32 * i + 32 ≤ bs.length ∧ bs' = patch bs (32 * i) m.bytes := by
  rw [writeUnit] at h
  split at h
  · next hfits => exact ⟨hfits, (Option.some.inj h).symm⟩
  · cases h

theorem patch_unit_length {bs : List UInt8} {i : ℕ} (m : TpMemory) (h : 32 * i + 32 ≤ bs.length) :
    (patch bs (32 * i) m.bytes).length = bs.length :=
  patch_length (by rwa [TpMemory.bytes_length])

theorem writeUnit_eq {bs : List UInt8} {i : ℕ} (m : TpMemory) (h : 32 * i + 32 ≤ bs.length) :
    writeUnit bs i m = some (patch bs (32 * i) m.bytes) :=
  if_pos h

/-- A block that holds the last of its units has the size asked for, whatever overflowed. -/
theorem length_of_fits {s : BitVec 64} {n : ℕ} (hn : n = allocBytes s)
    (hfits : 32 * (allocUnits s - 1) + 32 ≤ n) : n = 32 * allocUnits s := by
  have hunits := two_le_allocUnits s
  have hle := Nat.mod_le (allocUnits s * 32) (2 ^ 64)
  rw [allocBytes] at hn
  omega

/-- **`tux_alloc` makes a guarded buffer** that records 2048 bytes more than it was asked for. -/
theorem of_tuxAlloc {lit : Literals} {h h' : Heap} {type : List UInt8} {size : BitVec 64}
    {malloc : Answer} {b : ℕ} (hm : Malloc h (allocBytes (size + 2048)) malloc)
    (he : tuxAlloc lit h type size malloc = some (.ok b, h')) :
    ∃ bs, h' = h.put b bs ∧
      GuardedBuffer bs ⟨allocType lit type, lit.emptystring, size + 2048, magicNumber⟩ := by
  rw [tuxAlloc] at he
  split at he
  · cases he
  cases malloc with
  | none => cases he
  | some r =>
    obtain ⟨c, bytes⟩ := r
    have hlen := (hm c bytes rfl).2
    simp only [Option.bind_eq_bind, Option.bind_eq_some_iff] at he
    obtain ⟨bs₁, hw₁, bs₂, hw₂, he⟩ := he
    cases he
    obtain ⟨hfits, rfl⟩ := of_writeUnit hw₁
    obtain ⟨-, rfl⟩ := of_writeUnit hw₂
    exact ⟨_, rfl, .of_units ⟨allocType lit type, lit.emptystring, size + 2048, magicNumber⟩
      (length_of_fits hlen hfits) rfl (Or.inr ⟨rfl, rfl⟩)⟩

/-- Without memory nothing happens. -/
theorem of_tuxAlloc_error {lit : Literals} {h h' : Heap} {type : List UInt8} {size : BitVec 64}
    {malloc : Answer} {e : ℤ} (he : tuxAlloc lit h type size malloc = some (.error e, h')) :
    h' = h := by
  rw [tuxAlloc] at he
  split at he
  · cases he
    rfl
  cases malloc with
  | none =>
    cases he
    rfl
  | some a =>
    obtain ⟨c, bytes⟩ := a
    simp only [Option.bind_eq_bind, Option.bind_eq_some_iff] at he
    obtain ⟨_, -, _, -, he⟩ := he
    cases he

/-- Short of an overflow it does not leave the block. -/
theorem tuxAlloc_ok (lit : Literals) {h : Heap} (type : List UInt8) {size : BitVec 64} {b : ℕ}
    {bytes : List UInt8} (hsize : 0 ≤ size.toInt) (hover : 0 ≤ (size + 2048).toInt)
    (hm : Malloc h (allocBytes (size + 2048)) (some (b, bytes))) :
    ∃ h', tuxAlloc lit h type size (some (b, bytes)) = some (.ok b, h') := by
  have hlen := (hm b bytes rfl).2
  have hunits := two_le_allocUnits (size + 2048)
  rw [allocBytes_of_nonneg hover] at hlen
  rw [tuxAlloc, if_neg (by omega)]
  simp only [Option.bind_eq_bind]
  rw [writeUnit_eq _ (by omega), Option.bind_some,
    writeUnit_eq _ (by rw [patch_unit_length _ (by omega)]; omega), Option.bind_some]
  exact ⟨_, rfl⟩

/-- What the allocator keeps of a block. -/
theorem bufRead_of_take {bs cs : List UInt8} {n o k : ℕ} (h : cs.take n = bs.take n)
    (hk : o + k ≤ n) : bufRead cs o k = bufRead bs o k := by
  refine bufRead_congr fun i hi ↦ ?_
  have hi' := congrArg (fun l : List UInt8 ↦ l.getD (o + i) 0) h
  have hlt : o + i < n := by omega
  simpa [List.getD_eq_getElem?_getD, List.getElem?_take, hlt] using hi'

/-- **`tux_realloc` on a guarded buffer**: a guarded buffer of the length asked for, with the
caller's bytes up to the shorter of the two lengths. -/
theorem tuxRealloc_guarded {h : Heap} {b c : ℕ} {bs bytes : List UInt8} {p : TpMemory}
    {size : BitVec 64} (hb : h b = some bs) (hg : GuardedBuffer bs p) (hsize : 0 ≤ size.toInt)
    (hr : Realloc h b bs (allocBytes size) (some (c, bytes))) :
    ∃ bs', tuxRealloc h (some b) size (some (c, bytes)) = some (.ok c, (h.free b).put c bs') ∧
      GuardedBuffer bs' { p with len := size } ∧ (0 ≤ p.len.toInt →
        bufRead bs' 32 (min p.len.toNat size.toNat) =
          bufRead bs 32 (min p.len.toNat size.toNat)) := by
  obtain ⟨-, hlen, htake⟩ := hr c bytes rfl
  rw [allocBytes_of_nonneg hsize] at hlen htake
  have hunits := two_le_allocUnits size
  have hunits' := two_le_allocUnits p.len
  have hbs := hg.length
  -- the header has moved along
  have hheader : readUnit bytes 0 = some p := by
    refine readUnit_of_bufRead (by omega) ?_
    rw [← hg.header]
    exact bufRead_of_take htake (by omega)
  have hfits : 32 * 0 + 32 ≤ bytes.length := by omega
  have hfits' : 32 * (allocUnits size - 1) + 32 ≤
      (patch bytes (32 * 0) (TpMemory.bytes { p with len := size })).length := by
    rw [patch_unit_length _ hfits]
    omega
  refine ⟨_, ?_, .of_units { p with len := size } hlen hg.magic (Or.inl ⟨rfl, rfl⟩),
    fun hp ↦ ?_⟩
  · rw [tuxRealloc, checkUnits_guarded hb hg (by simpa using hsize)]
    simp only [Option.bind_eq_bind, Option.bind_some, hheader]
    rw [writeUnit_eq _ hfits, Option.bind_some, writeUnit_eq _ hfits', Option.bind_some]
  · have hroom := GuardedBuffer.room hp
    have hroom' := GuardedBuffer.room (p := { p with len := size }) hsize
    dsimp only at hroom' ⊢
    rw [bufRead_patch_of_apart (by rw [TpMemory.bytes_length]; exact hfits') (Or.inl (by omega)),
      bufRead_patch_of_apart (by rw [TpMemory.bytes_length]; exact hfits)
        (Or.inr (by rw [TpMemory.bytes_length]))]
    exact bufRead_of_take htake (by omega)

/-- `tux_realloc` without memory. -/
theorem tuxRealloc_none {h : Heap} {b : ℕ} {bs : List UInt8} {p : TpMemory} {size : BitVec 64}
    (hb : h b = some bs) (hg : GuardedBuffer bs p) (hsize : 0 ≤ size.toInt) :
    tuxRealloc h (some b) size none = some (.error sysOs, h) := by
  rw [tuxRealloc, checkUnits_guarded hb hg (by simpa using hsize)]
  rfl

/-- **`tux_free` releases a guarded buffer once.** -/
theorem tuxFree_guarded {h : Heap} {b : ℕ} {bs : List UInt8} {p : TpMemory}
    (hb : h b = some bs) (hg : GuardedBuffer bs p) :
    tuxFree h (some b) = some ([b], h.free b) := by
  have hunits := two_le_allocUnits p.len
  have hlen := hg.length
  have hfits : 32 * (allocUnits p.len - 1) + 32 ≤ bs.length := by omega
  have hput : ∀ bs', (h.put b bs').free b = h.free b := fun bs' ↦
    Function.update_idem _ _ _
  rw [tuxFree, if_neg (by simp), checkUnits_guarded hb hg rfl]
  simp only [Option.bind_eq_bind, Option.bind_some]
  rw [writeUnit_eq _ hfits, Option.bind_some,
    writeUnit_eq _ (by rw [patch_unit_length _ hfits]; omega), Option.bind_some, hput]

/-- The magic number of the copy ends every string that starts behind the header. -/
theorem GuardedBuffer.zero_mem {bs : List UInt8} {p : TpMemory} (h : GuardedBuffer bs p) :
    (0 : UInt8) ∈ bs.drop 32 := by
  have hunits := two_le_allocUnits p.len
  have hlen := h.length
  have hlast : p.bytes.getD 31 0 = 0 := by
    rw [TpMemory.bytes, h.magic]
    simp [List.getD_eq_getElem?_getD, magicNumber, leBytes]
  have hbyte : bs.getD (32 * (allocUnits p.len - 1) + 31) 0 = 0 :=
    calc bs.getD (32 * (allocUnits p.len - 1) + 31) 0
        = (bufRead bs (32 * (allocUnits p.len - 1)) 32).getD 31 0 := by
          rw [getD_bufRead, if_pos (by decide)]
      _ = 0 := by rw [h.trailer, hlast]
  have hlt : 32 * (allocUnits p.len - 1) + 31 < bs.length := by omega
  rw [List.getD_eq_getElem _ _ hlt] at hbyte
  rw [List.mem_drop_iff_getElem]
  refine ⟨32 * (allocUnits p.len - 1) + 31 - 32, by omega, ?_⟩
  rw [← hbyte]
  congr 1
  omega

/-- **`tux_real_len` of a guarded buffer.** -/
theorem tuxRealLen_guarded (lit : Literals) {h : Heap} {b : ℕ} {bs : List UInt8} {p : TpMemory}
    (hb : h b = some bs) (hg : GuardedBuffer bs p) :
    tuxRealLen lit h (some b) = some (.ok
      (if lit.at_ p.type = text "STRING" then BitVec.ofNat 64 ((cstr (bs.drop 32)).length + 1)
      else p.len)) := by
  rw [tuxRealLen, checkUnits_guarded hb hg rfl]
  simp only [Option.bind_eq_bind, Option.bind_some, if_pos hg.zero_mem]
  split <;> rfl

/-! ### Every buffer, at all times -/

/-- What happens to the buffers of a process: the three functions are called, or a caller writes to
the bytes that its buffer has. Sizes are not negative and do not overflow. -/
inductive BufferStep (lit : Literals) : Heap → Heap → Prop
  | alloc {h h' : Heap} {r : Except ℤ ℕ} (type : List UInt8) (size : BitVec 64) (malloc : Answer)
      (hover : 0 ≤ (size + 2048).toInt) (hm : Malloc h (allocBytes (size + 2048)) malloc)
      (he : tuxAlloc lit h type size malloc = some (r, h')) : BufferStep lit h h'
  | realloc {h h' : Heap} {r : Except ℤ ℕ} {b : ℕ} {bs : List UInt8} (size : BitVec 64)
      (realloc : Answer) (hsize : 0 ≤ size.toInt) (hb : h b = some bs)
      (hr : Realloc h b bs (allocBytes size) realloc)
      (he : tuxRealloc h (some b) size realloc = some (r, h')) : BufferStep lit h h'
  | write {h : Heap} {b : ℕ} {bs : List UInt8} {p : TpMemory} (off : ℕ) (data : List UInt8)
      (hb : h b = some bs) (hp : readUnit bs 0 = some p)
      (hin : off + data.length ≤ p.len.toNat) : BufferStep lit h (h.put b (patch bs (32 + off) data))
  | free {h h' : Heap} {b : ℕ} {bs : List UInt8} {freed : List ℕ} (hb : h b = some bs)
      (he : tuxFree h (some b) = some (freed, h')) : BufferStep lit h h'

/-- A guarded buffer of a length that did not overflow. -/
def Sound (bs : List UInt8) : Prop :=
  ∃ p, GuardedBuffer bs p ∧ 0 ≤ p.len.toInt

/-- A step keeps every buffer guarded. -/
theorem BufferStep.sound {lit : Literals} {h h' : Heap} (hstep : BufferStep lit h h')
    (hall : ∀ b bs, h b = some bs → Sound bs) : ∀ b bs, h' b = some bs → Sound bs := by
  cases hstep with
  | @alloc _ r type size malloc hover hm he =>
    cases r with
    | ok b =>
      obtain ⟨bs, rfl, hg⟩ := of_tuxAlloc hm he
      exact Heap.forall_put hall ⟨_, hg, hover⟩
    | error e =>
      rw [of_tuxAlloc_error he]
      exact hall
  | @realloc _ r b bs size realloc hsize hb hr he =>
    obtain ⟨p, hg, hp⟩ := hall b bs hb
    cases realloc with
    | none =>
      rw [tuxRealloc_none hb hg hsize] at he
      cases he
      exact hall
    | some a =>
      obtain ⟨c, bytes⟩ := a
      obtain ⟨bs', he', hg', -⟩ := tuxRealloc_guarded hb hg hsize hr
      rw [he'] at he
      cases he
      exact Heap.forall_put (Heap.forall_free hall b) ⟨_, hg', hsize⟩
  | @write b bs p off data hb hp hin =>
    obtain ⟨p', hg, hp'⟩ := hall b bs hb
    have hpp : p' = p := Option.some.inj (hg.readUnit_header.symm.trans hp)
    subst hpp
    exact Heap.forall_put hall ⟨p', hg.write hp' hin, hp'⟩
  | @free _ b bs freed hb he =>
    obtain ⟨p, hg, -⟩ := hall b bs hb
    rw [tuxFree_guarded hb hg] at he
    cases he
    exact Heap.forall_free hall b

/-- **Every buffer is guarded in every run.** -/
theorem guarded_of_reachable {lit : Literals} {h : Heap}
    (hr : Relation.ReflTransGen (BufferStep lit) Heap.empty h) :
    ∀ b bs, h b = some bs → Sound bs := by
  induction hr with
  | refl => exact fun b bs hb ↦ absurd hb (by simp [Heap.empty])
  | tail _ hstep ih => exact hstep.sound ih

/-- What the functions make of a buffer `b` with the header `p`. -/
structure Consistent (lit : Literals) (h : Heap) (b : ℕ) (bs : List UInt8) (p : TpMemory) :
    Prop where
  guarded : GuardedBuffer bs p
  apart : 32 + p.len.toNat ≤ 32 * (allocUnits p.len - 1)
  measured : ∃ n, tuxRealLen lit h (some b) = some (.ok n)
  freed : tuxFree h (some b) = some ([b], h.free b)
  noMemory : ∀ size : BitVec 64, 0 ≤ size.toInt →
    tuxRealloc h (some b) size none = some (.error sysOs, h)
  resized : ∀ (size : BitVec 64) (c : ℕ) (bytes : List UInt8), 0 ≤ size.toInt →
    Realloc h b bs (allocBytes size) (some (c, bytes)) → ∃ bs',
      tuxRealloc h (some b) size (some (c, bytes)) = some (.ok c, (h.free b).put c bs') ∧
        GuardedBuffer bs' { p with len := size } ∧
        bufRead bs' 32 (min p.len.toNat size.toNat) = bufRead bs 32 (min p.len.toNat size.toNat)

/-- **Guarded buffers stay consistent**: in every run, header and copy of every buffer are equal and
apart from its bytes, and the functions accept it. -/
theorem buffers_consistent {lit : Literals} {h : Heap}
    (hr : Relation.ReflTransGen (BufferStep lit) Heap.empty h) {b : ℕ} {bs : List UInt8}
    (hb : h b = some bs) : ∃ p, Consistent lit h b bs p := by
  obtain ⟨p, hg, hp⟩ := guarded_of_reachable hr b bs hb
  refine ⟨p, hg, GuardedBuffer.room hp, ⟨_, tuxRealLen_guarded lit hb hg⟩, tuxFree_guarded hb hg,
    fun size hsize ↦ tuxRealloc_none hb hg hsize, fun size c bytes hsize hrealloc ↦ ?_⟩
  obtain ⟨bs', he, hg', hkept⟩ := tuxRealloc_guarded hb hg hsize hrealloc
  exact ⟨bs', he, hg', hkept hp⟩

/-- The strings at the addresses 0, 1 and 2. -/
def someLiterals : Literals where
  emptystring := 0
  stringtype := 1
  carraytype := 2
  at_ a := if a = 1 then text "STRING" else if a = 2 then text "CARRAY" else []
  at_emptystring := rfl
  at_stringtype := rfl
  at_carraytype := rfl

/-- A single buffer. -/
theorem buffers_consistent_first : ∃ h bs,
    Relation.ReflTransGen (BufferStep someLiterals) Heap.empty h ∧ h 0 = some bs ∧
      ∃ p, Consistent someLiterals h 0 bs p := by
  have hm : Malloc Heap.empty (allocBytes (10 + 2048))
      (some (0, List.replicate (allocBytes (10 + 2048)) 0)) := by
    rintro b bytes ⟨⟩
    exact ⟨rfl, List.length_replicate⟩
  obtain ⟨h, he⟩ := tuxAlloc_ok someLiterals (text "STRING") (by decide) (by decide) hm
  obtain ⟨bs, rfl, -⟩ := of_tuxAlloc hm he
  have hrun := Relation.ReflTransGen.single (BufferStep.alloc _ _ _ (by decide) hm he)
  exact ⟨_, bs, hrun, Heap.put_self .., buffers_consistent hrun (Heap.put_self ..)⟩

end Sunda
