import Sunda.Tux.Buffers
import Sunda.Tux.Forward

/-!
# The length of a CARRAY buffer (`tuxmgr.c`)

`tux_acall`, `tux_call`, `tux_forward` and `tux_return` take the length 0 for the length that
`tux_real_len` reads from the header of a CARRAY buffer. It should be the length asked for
(`CarrayExact`), so that what they queue is the caller's data and nothing else (`SendsData`).

* A run is one `tux_alloc` and any number of calls of `tux_realloc`; in between, the caller writes to
  the bytes it has asked for (`CarrayRun`). What the header records along it is `CarrayRun.recorded`.
* Whatever length is recorded is sent, by all four functions alike (`sendsData`).
* `tux_alloc` records the length it was asked for and 2048 more, `tux_realloc` the length it was
  asked for (`carray_len_iff`).
-/

namespace Sunda

open Bytes Blocks SysV

/-! ### Length 0 -/

/-- With length 0, the four functions send `data` for the buffer `buf` whose `tux_real_len` is
`realLen`: every message that they queue carries `data`, the reply behind a head with its length. -/
structure SendsData (realLen : ℤ) (buf data : List UInt8) : Prop where
  acall : ∀ {mb k q q' svrName},
    tuxAcall mb k realLen q (some svrName) (some buf) 0 = some (.ok q') →
      ∃ m, q' = q ++ [m] ∧ Msg.payload m = data
  call : ∀ {mb k tuxErrno q q' svrName rsp},
    tuxCallSend mb k realLen tuxErrno q (some svrName) (some buf) 0 rsp = some (.ok q') →
      ∃ m, q' = q ++ [m] ∧ Msg.payload m = data
  forward : ∀ {mbLongjmp mb k q q' svrName},
    tuxForward mbLongjmp mb k realLen q (some svrName) (some buf) 0 = some (.done q') →
      ∃ m, q' = q ++ [m] ∧ Msg.payload m = data
  reply : ∀ {mb k head q q' flags}, flags ≠ -1 →
    tuxReturnReply mb k realLen head q (some buf) 0 flags = some (0, q') →
      ∃ m, q' = q ++ [m] ∧ ∃ h : IPCMsgHead, h.len.toInt = data.length ∧
        Msg.payload m = h.toBytes ++ data

section Sends

variable {L : ℕ} {buf : List UInt8}

/-- The text of a message made of the beginning of a buffer. -/
theorem payload_queued_take (t s : BitVec 64) (h : L ≤ buf.length) :
    Msg.payload ((⟨t, s, bufRead buf 0 L⟩ : IPCQueMsg).queued L) = buf.take L := by
  rw [IPCQueMsg.payload_queued, bufRead_bufRead _ (by omega), Nat.zero_add, bufRead_zero_take h]

/-- **The length that is recorded is sent.** -/
theorem sendsData (h : L ≤ buf.length) : SendsData L buf (buf.take L) := by
  have hacall : ∀ {mb k q q' svrName},
      tuxAcall mb k L q (some svrName) (some buf) 0 = some (.ok q') →
        ∃ m, q' = q ++ [m] ∧ Msg.payload m = buf.take L := by
    intro mb k q q' svrName hsent
    obtain ⟨_, e, n, -, -, -, -, -, -, hn, rfl⟩ := sent_of_tuxAcall hsent
    rw [if_pos rfl] at hn
    obtain rfl : n = L := by exact_mod_cast hn
    exact ⟨_, rfl, payload_queued_take e.msgType 0 h⟩
  refine ⟨hacall, fun hsent ↦ hacall (tuxAcall_of_tuxCallSend hsent), ?_, ?_⟩
  · intro mbLongjmp mb k q q' svrName hsent
    obtain ⟨e, n, -, -, hn, rfl⟩ := sent_of_tuxForward hsent
    rw [lenOf, if_pos rfl] at hn
    obtain rfl : n = L := by exact_mod_cast hn
    exact ⟨_, rfl, payload_queued_take e.msgType 0 h⟩
  · intro mb k head q q' flags hflags hsent
    rcases sent_of_tuxReturnReply hflags hsent with ⟨hrc, -⟩ | ⟨m, n, rfl, hn, -, hlen, hp⟩
    · cases hrc
    · rw [if_pos rfl] at hn
      obtain rfl : n = L := by exact_mod_cast hn
      rw [bufRead_zero_take h] at hp
      refine ⟨m, rfl, head.setLen n, ?_, hp⟩
      rw [hlen, List.length_take_of_le h]

end Sends

/-! ### Runs -/

/-- One `tux_alloc` of type CARRAY and any number of calls of `tux_realloc`, all succeeding, between
which the caller writes to the bytes it has asked for: the size asked for last, the sizes asked for
before, the heap and the buffer. -/
inductive CarrayRun (lit : Literals) : BitVec 64 → List (BitVec 64) → Heap → ℕ → Prop
  | alloc {h h' : Heap} {size : BitVec 64} {malloc : Answer} {b : ℕ}
      (hm : Malloc h (allocBytes (size + 2048)) malloc)
      (he : tuxAlloc lit h (text "CARRAY") size malloc = some (.ok b, h')) :
      CarrayRun lit size [] h' b
  | realloc {h h' : Heap} {last size : BitVec 64} {sizes : List (BitVec 64)} {realloc : Answer}
      {b c : ℕ} {bs : List UInt8} (hrun : CarrayRun lit last sizes h b) (hb : h b = some bs)
      (hr : Realloc h b bs (allocBytes size) realloc)
      (he : tuxRealloc h (some b) size realloc = some (.ok c, h')) :
      CarrayRun lit size (last :: sizes) h' c
  | write {h : Heap} {last : BitVec 64} {sizes : List (BitVec 64)} {b off : ℕ}
      {bs data : List UInt8} (hrun : CarrayRun lit last sizes h b) (hb : h b = some bs)
      (hin : off + data.length ≤ last.toNat) :
      CarrayRun lit last sizes (h.put b (patch bs (32 + off) data)) b

/-- What the header of the buffer says. -/
structure Recorded (lit : Literals) (size : BitVec 64) (sizes : List (BitVec 64)) (p : TpMemory) :
    Prop where
  nonneg : 0 ≤ size.toInt
  type : p.type = lit.carraytype
  len : p.len = if sizes = [] then size + 2048 else size

/-- The length that is recorded is the one asked for, or 2048 more. -/
theorem Recorded.toNat_len {lit : Literals} {size : BitVec 64} {sizes : List (BitVec 64)}
    {p : TpMemory} (h : Recorded lit size sizes p) :
    p.len.toNat = size.toNat + if sizes = [] then 2048 else 0 := by
  have hlt := toNat_lt_of_nonneg h.nonneg
  have htwo : (2048 : BitVec 64).toNat = 2048 := rfl
  rw [h.len]
  split
  · rw [BitVec.toNat_add, htwo, Nat.mod_eq_of_lt (by omega)]
  · rfl

/-- Every length that is recorded leaves the header and its copy apart. -/
theorem Recorded.room {lit : Literals} {size : BitVec 64} {sizes : List (BitVec 64)} {p : TpMemory}
    (h : Recorded lit size sizes p) : 32 + p.len.toNat ≤ 32 * (allocUnits p.len - 1) := by
  have hlt := toNat_lt_of_nonneg h.nonneg
  have hlen := h.toNat_len
  have hend : p.len.toNat + 31 < 2 ^ 64 := by split at hlen <;> omega
  rw [allocUnits_of_lt hend]
  omega

/-- Along a run the buffer stays guarded, under a header of this kind. -/
theorem CarrayRun.recorded {lit : Literals} {size : BitVec 64} {sizes : List (BitVec 64)} {h : Heap}
    {b : ℕ} (hrun : CarrayRun lit size sizes h b) :
    ∃ bs p, h b = some bs ∧ GuardedBuffer bs p ∧ Recorded lit size sizes p := by
  induction hrun with
  | @alloc h h' size malloc b hm he =>
    have hsize : 0 ≤ size.toInt := by
      by_contra hneg
      rw [tuxAlloc, if_pos (not_le.1 hneg)] at he
      cases he
    obtain ⟨bs, rfl, hg⟩ := of_tuxAlloc hm he
    exact ⟨bs, _, Heap.put_self .., hg, hsize, rfl, rfl⟩
  | @realloc h h' last size sizes realloc b c bs hrun hb hr he ih =>
    obtain ⟨bs₀, p, hb₀, hg, hp⟩ := ih
    cases hb.symm.trans hb₀
    have hsize : 0 ≤ size.toInt := by
      by_contra hneg
      have hrefuse : decide (size.toInt < 0) = true := by simpa using hneg
      rw [tuxRealloc, hrefuse, checkUnits_refused hb hg] at he
      cases he
    cases realloc with
    | none =>
      rw [tuxRealloc_none hb hg hsize] at he
      cases he
    | some a =>
      obtain ⟨d, bytes⟩ := a
      obtain ⟨bs', he', hg', -⟩ := tuxRealloc_guarded hb hg hsize hr
      rw [he'] at he
      cases he
      exact ⟨bs', _, Heap.put_self .., hg', hsize, hp.type, rfl⟩
  | @write h last sizes b off bs data hrun hb hin ih =>
    obtain ⟨bs₀, p, hb₀, hg, hp⟩ := ih
    cases hb.symm.trans hb₀
    have hlen := hp.toNat_len
    exact ⟨_, p, Heap.put_self .., hg.write_of_room hp.room (by omega), hp⟩

/-- `tux_real_len` returns what is recorded. -/
theorem Recorded.tuxRealLen {lit : Literals} {size : BitVec 64} {sizes : List (BitVec 64)}
    {h : Heap} {b : ℕ} {bs : List UInt8} {p : TpMemory} (hp : Recorded lit size sizes p)
    (hb : h b = some bs) (hg : GuardedBuffer bs p) :
    Sunda.tuxRealLen lit h (some b) = some (.ok p.len) := by
  have hnot : lit.at_ p.type ≠ text "STRING" := by
    rw [hp.type, lit.at_carraytype]
    decide
  rw [tuxRealLen_guarded lit hb hg, if_neg hnot]

/-- Such runs exist, ... -/
theorem exists_carrayRun (lit : Literals) {size : BitVec 64} (hsize : 0 ≤ size.toInt)
    (hover : 0 ≤ (size + 2048).toInt) : ∃ h b, CarrayRun lit size [] h b := by
  have hm : Malloc Heap.empty (allocBytes (size + 2048))
      (some (0, List.replicate (allocBytes (size + 2048)) 0)) := by
    rintro b bytes ⟨⟩
    exact ⟨rfl, List.length_replicate⟩
  obtain ⟨h, he⟩ := tuxAlloc_ok lit (text "CARRAY") hsize hover hm
  exact ⟨h, 0, .alloc hm he⟩

/-- ... and go on. -/
theorem CarrayRun.exists_realloc {lit : Literals} {last size : BitVec 64}
    {sizes : List (BitVec 64)} {h : Heap} {b : ℕ} (hrun : CarrayRun lit last sizes h b)
    (hsize : 0 ≤ size.toInt) : ∃ h' c, CarrayRun lit size (last :: sizes) h' c := by
  obtain ⟨bs, p, hb, hg, -⟩ := hrun.recorded
  have hr : Realloc h b bs (allocBytes size)
      (some (b, bs.take (allocBytes size) ++ List.replicate (allocBytes size - bs.length) 0)) := by
    rintro c bytes ⟨⟩
    refine ⟨Or.inl rfl, ?_, ?_⟩
    · rw [List.length_append, List.length_take, List.length_replicate]
      omega
    · rw [List.take_append_of_le_length (by rw [List.length_take]; omega), List.take_take]
      congr 1
      omega
  obtain ⟨bs', he, -⟩ := tuxRealloc_guarded hb hg hsize hr
  exact ⟨_, b, .realloc hrun hb hr he⟩

/-! ### The property -/

/-- The length of the buffer is the one asked for, and with length 0 the functions send the bytes
that the caller has. -/
structure CarrayExact (lit : Literals) (h : Heap) (b : ℕ) (size : BitVec 64) : Prop where
  realLen : tuxRealLen lit h (some b) = some (.ok size)
  sends : ∀ bs n, h b = some bs → tuxRealLen lit h (some b) = some (.ok n) →
    SendsData n.toInt (bs.drop 32) ((bs.drop 32).take size.toNat)

/-- **The length of a CARRAY buffer is the length asked for if and only if it has been through
`tux_realloc`.** -/
theorem carray_len_iff {lit : Literals} {size : BitVec 64} {sizes : List (BitVec 64)} {h : Heap}
    {b : ℕ} (hrun : CarrayRun lit size sizes h b) : CarrayExact lit h b size ↔ sizes ≠ [] := by
  obtain ⟨bs, p, hb, hg, hp⟩ := hrun.recorded
  have hreal := hp.tuxRealLen hb hg
  have hlen := hp.toNat_len
  constructor
  · rintro hexact rfl
    have hpad : size = p.len :=
      Except.ok.inj (Option.some.inj (hexact.realLen.symm.trans hreal))
    rw [if_pos rfl, ← hpad] at hlen
    omega
  · intro hne
    have hsize : p.len = size := by rw [hp.len, if_neg hne]
    refine ⟨by rw [hreal, hsize], fun bs' n hb' hn ↦ ?_⟩
    cases hb'.symm.trans hb
    obtain rfl : n = p.len := Except.ok.inj (Option.some.inj (hn.symm.trans hreal))
    have hunits := hp.room
    have hblock := hg.length
    have hfits : p.len.toNat ≤ (bs.drop 32).length := by
      rw [List.length_drop]
      omega
    rw [← hsize] at hp ⊢
    rw [BitVec.toInt_eq_toNat_of_lt (by have := toNat_lt_of_nonneg hp.nonneg; omega)]
    exact sendsData hfits

/-- A buffer of ten bytes that has shrunk to five. -/
theorem carray_len_iff_shrunk : ∃ h b, CarrayRun someLiterals 5 [10] h b ∧
    (CarrayExact someLiterals h b 5 ↔ [(10 : BitVec 64)] ≠ []) := by
  obtain ⟨h, b, hrun⟩ := exists_carrayRun someLiterals (show 0 ≤ (10 : BitVec 64).toInt by decide) (by decide)
  obtain ⟨h', c, hrun'⟩ := hrun.exists_realloc (show 0 ≤ (5 : BitVec 64).toInt by decide)
  exact ⟨h', c, hrun', carray_len_iff hrun'⟩

/-- A buffer of ten bytes that is new. -/
theorem carray_len_padded : ¬∀ (size : BitVec 64) (sizes : List (BitVec 64)) (h : Heap) (b : ℕ),
    CarrayRun someLiterals size sizes h b → CarrayExact someLiterals h b size := by
  intro hall
  obtain ⟨h, b, hrun⟩ := exists_carrayRun someLiterals (show 0 ≤ (10 : BitVec 64).toInt by decide) (by decide)
  obtain ⟨bs, p, hb, hg, hp⟩ := hrun.recorded
  have hpad : (10 : BitVec 64) = p.len :=
    Except.ok.inj (Option.some.inj ((hall 10 [] h b hrun).realLen.symm.trans (hp.tuxRealLen hb hg)))
  rw [hp.len, if_pos rfl] at hpad
  exact absurd hpad (by decide)

end Sunda
