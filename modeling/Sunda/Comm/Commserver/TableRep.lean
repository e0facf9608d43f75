import Sunda.Comm.Commserver.Table
import Mathlib.Algebra.Group.Nat.Defs
import Mathlib.Data.List.Range
import Mathlib.Logic.Function.Basic

/-!
# Shards as lists

`ShardRep m i l` says that shard `i` of the connection table holds the connections `l`, in front and
in this order, and is free behind them. Under it each function of the table is an operation on the
list: `getConnectPos_rep`, `getConnInf_rep`, `getReadFd_rep` and `delPos_rep` search it,
`newAccept_rep` appends, `setStat_rep` changes a status, `commClearFd_rep` erases, and
`cleanShard_rep` drops a front. Each comes with `SameElsewhere`: no word outside the slots of the
shard has changed.

Erasing needs `ClearInRange`, because the macro `CommClearFd` computes the length of the block it
shifts from the number of the shard instead of the slot.
-/

namespace Sunda

open WordMem

variable {m m' : WordMem} {i j k t : ℕ} {l : List ConnectHandle}

/-- Shard `i` holds the connections `l`, and is free behind them. -/
structure ShardRep (m : WordMem) (i : ℕ) (l : List ConnectHandle) : Prop where
  length_le : l.length ≤ maxFdNum
  slot : ∀ j (h : j < l.length), connect m i j = l[j]
  open_fd : ∀ c ∈ l, 0 ≤ c.fd.toInt
  free : ∀ j, l.length ≤ j → j < maxFdNum → getCommClientFD m i j = -1

/-- Only slots of shard `i` may have changed. -/
def SameElsewhere (m m' : WordMem) (i : ℕ) : Prop :=
  ∀ x, (x < connectAt i 0 ∨ connectAt i maxFdNum ≤ x) → m' x = m x

theorem SameElsewhere.refl (m : WordMem) (i : ℕ) : SameElsewhere m m i :=
  fun _ _ ↦ rfl

theorem SameElsewhere.trans {m'' : WordMem} (h : SameElsewhere m m' i)
    (h' : SameElsewhere m' m'' i) : SameElsewhere m m'' i :=
  fun x hx ↦ (h' x hx).trans (h x hx)

/-- No counter has changed. -/
theorem SameElsewhere.num (h : SameElsewhere m m' i) (k : ℕ) :
    getCommClientNum m' k = getCommClientNum m k :=
  h _ (by simp only [numAt, connectAt, sizeofClient, sizeofConnect, maxFdNum]; omega)

/-- Slots are equal when their words are. -/
theorem connect_congr {i' j' : ℕ}
    (h : ∀ f < sizeofConnect, m (connectAt i j + f) = m' (connectAt i' j' + f)) :
    connect m i j = connect m' i' j' := by
  have h0 := h 0 (by decide)
  have h1 := h 1 (by decide)
  have h2 := h 2 (by decide)
  have h3 := h 3 (by decide)
  simp only [Nat.add_zero] at h0
  simp [connect, getCommClientFD, getCommClientSsn, getCommClientTime, getCommClientStat, byte,
    h0, h1, h2, h3]

/-- No slot of another shard has changed. -/
theorem SameElsewhere.connect (h : SameElsewhere m m' i) (hk : k ≠ i) (hj : j < maxFdNum) :
    connect m' k j = connect m k j := by
  refine connect_congr fun f hf ↦ h _ ?_
  simp only [connectAt, sizeofClient, sizeofConnect, maxFdNum] at hf hj ⊢
  omega

/-- A shard depends on its slots only. -/
theorem ShardRep.congr (h : ShardRep m k l) (hsame : ∀ j < maxFdNum, connect m' k j = connect m k j) :
    ShardRep m' k l where
  length_le := h.length_le
  slot j hj := by rw [hsame j (Nat.lt_of_lt_of_le hj h.length_le), h.slot j hj]
  open_fd := h.open_fd
  free j hj hj' := by
    rw [← h.free j hj hj']
    exact congrArg ConnectHandle.fd (hsame j hj')

/-- **Frame.** Another shard stays as it is. -/
theorem ShardRep.frame (h : ShardRep m k l) (hsame : SameElsewhere m m' i) (hk : k ≠ i) :
    ShardRep m' k l :=
  h.congr fun _ hj ↦ hsame.connect hk hj

theorem ConnectHandle.fd_ne {c : ConnectHandle} (h : 0 ≤ c.fd.toInt) : c.fd ≠ -1 := fun h0 ↦ by
  rw [h0] at h
  exact absurd h (by decide)

/-- A descriptor of the kernel is a non-negative `int`. -/
theorem toInt_ofNat_nonneg {n : ℕ} (hn : n < 2 ^ 31) : 0 ≤ (BitVec.ofNat 32 n).toInt := by
  rw [BitVec.toInt_eq_toNat_bmod, BitVec.toNat_ofNat, Int.bmod_def]
  omega

namespace ShardRep

theorem fd_eq (h : ShardRep m i l) (hj : j < l.length) : getCommClientFD m i j = l[j].fd :=
  congrArg ConnectHandle.fd (h.slot j hj)

theorem ssn_eq (h : ShardRep m i l) (hj : j < l.length) : getCommClientSsn m i j = l[j].ssn :=
  congrArg ConnectHandle.ssn (h.slot j hj)

theorem time_eq (h : ShardRep m i l) (hj : j < l.length) : getCommClientTime m i j = l[j].utime :=
  congrArg ConnectHandle.utime (h.slot j hj)

theorem stat_eq (h : ShardRep m i l) (hj : j < l.length) : getCommClientStat m i j = l[j].status :=
  congrArg ConnectHandle.status (h.slot j hj)

theorem fd_ne (h : ShardRep m i l) (hj : j < l.length) : getCommClientFD m i j ≠ -1 := by
  rw [h.fd_eq hj]
  exact ConnectHandle.fd_ne (h.open_fd _ (List.getElem_mem hj))

theorem fd_eq_neg_one_iff (h : ShardRep m i l) (hj : j < maxFdNum) :
    getCommClientFD m i j = -1 ↔ l.length ≤ j := by
  constructor
  · intro hfd
    by_contra hlt
    exact h.fd_ne (by omega) hfd
  · intro hle
    exact h.free j hle hj

/-! ### Searching -/

/-- A search that stops at a connection. -/
theorem find_some (h : ShardRep m i l) {P : ℕ → Bool} {q : ConnectHandle → Bool}
    (hP : ∀ j (hj : j < l.length), P j = q l[j]) {k : ℕ} (hk : l.findIdx? q = some k) :
    findSlot P = some k := by
  unfold findSlot
  obtain ⟨hlt, hq, hbefore⟩ := List.findIdx?_eq_some_iff_getElem.1 hk
  have hle := h.length_le
  refine List.find?_range_eq_some.2 ⟨by rw [hP k hlt, hq], List.mem_range.2 (by omega), ?_⟩
  intro j hj
  rw [hP j (by omega)]
  simpa using hbefore j hj

/-- A search that stops at the first free slot. -/
theorem find_free {P : ℕ → Bool} {q : ConnectHandle → Bool}
    (hP : ∀ j (hj : j < l.length), P j = q l[j]) (hnone : l.findIdx? q = none)
    (hlt : l.length < maxFdNum) (hfree : P l.length = true) :
    findSlot P = some l.length := by
  unfold findSlot
  refine List.find?_range_eq_some.2 ⟨hfree, List.mem_range.2 hlt, fun j hj ↦ ?_⟩
  rw [hP j hj, List.findIdx?_eq_none_iff.1 hnone _ (List.getElem_mem hj)]
  rfl

/-- A search that finds nothing. -/
theorem find_none {P : ℕ → Bool} {q : ConnectHandle → Bool}
    (hP : ∀ j (hj : j < l.length), P j = q l[j]) (hnone : l.findIdx? q = none)
    (hfree : ∀ j, l.length ≤ j → j < maxFdNum → P j = false) :
    findSlot P = none := by
  unfold findSlot
  refine List.find?_eq_none.2 fun j hj ↦ ?_
  rcases Nat.lt_or_ge j l.length with hlt | hge
  · rw [hP j hlt, List.findIdx?_eq_none_iff.1 hnone _ (List.getElem_mem hlt)]
    simp
  · simp [hfree j hge (List.mem_range.1 hj)]

/-- `get_connect_pos` for a descriptor. -/
theorem getConnectPos_rep (h : ShardRep m i l) {fd : BitVec 32} (hfd : fd ≠ -1) :
    getConnectPos m i fd = l.findIdx? (·.fd == fd) := by
  have heq : getConnectPos m i fd =
      findSlot fun j ↦ getCommClientFD m i j == fd := by
    simp only [getConnectPos, if_pos hfd]
  have hP : ∀ j (hj : j < l.length), (getCommClientFD m i j == fd) = (l[j].fd == fd) :=
    fun j hj ↦ by rw [h.fd_eq hj]
  rw [heq]
  cases hk : l.findIdx? (·.fd == fd) with
  | some k => exact h.find_some hP hk
  | none =>
    refine find_none hP hk fun j hj hj' ↦ ?_
    rw [h.free j hj hj']
    exact beq_false_of_ne (Ne.symm hfd)

/-- `get_connect_pos` for a free slot. -/
theorem getConnectPos_free (h : ShardRep m i l) :
    getConnectPos m i (-1) = if l.length < maxFdNum then some l.length else none := by
  have heq : getConnectPos m i (-1) =
      findSlot fun j ↦ getCommClientFD m i j == -1 := by
    simp only [getConnectPos, ne_eq, not_true_eq_false, if_false]
  have hP : ∀ j (hj : j < l.length), (getCommClientFD m i j == -1) = (fun _ ↦ false) l[j] :=
    fun j hj ↦ beq_false_of_ne (h.fd_ne hj)
  have hnone : l.findIdx? (fun _ ↦ false) = none := by simp
  rw [heq]
  by_cases hlt : l.length < maxFdNum
  · rw [if_pos hlt]
    refine find_free hP hnone hlt ?_
    rw [h.free _ (Nat.le_refl _) hlt]
    exact beq_self_eq_true _
  · rw [if_neg hlt]
    exact find_none hP hnone fun j hj hj' ↦ absurd hj' (by omega)

/-- The slot at which `del_connect_fd` finds a descriptor. -/
theorem delPos_rep (h : ShardRep m i l) (fd : BitVec 32) :
    delPos m i fd = l.findIdx? (·.fd == fd) := by
  have hP : ∀ j (hj : j < l.length),
      (getCommClientFD m i j == -1 || getCommClientFD m i j == fd) = (l[j].fd == fd) :=
    fun j hj ↦ by
      rw [beq_false_of_ne (h.fd_ne hj), Bool.false_or, h.fd_eq hj]
  cases hk : l.findIdx? (·.fd == fd) with
  | some k =>
    have hlt := (List.findIdx?_eq_some_iff_getElem.1 hk).1
    rw [delPos, h.find_some hP hk]
    simpa using h.fd_ne hlt
  | none =>
    by_cases hlt : l.length < maxFdNum
    · have hfree := h.free _ (Nat.le_refl _) hlt
      rw [delPos, find_free hP hk hlt (by simp [hfree])]
      simp [hfree]
    · rw [delPos, find_none hP hk fun j hj hj' ↦ absurd hj' (by omega)]
      rfl

/-- `get_conn_inf`: the first connection with the number; otherwise -1 in a shard with a free slot,
and an undefined value in a full one. -/
theorem getConnInf_rep (h : ShardRep m i l) (ssn : BitVec 32) :
    getConnInf m i ssn =
      match l.findIdx? (·.ssn == ssn) with
      | some k => some (k : ℤ)
      | none => if l.length < maxFdNum then some (-1) else none := by
  have hP : ∀ j (hj : j < l.length),
      (getCommClientFD m i j == -1 || getCommClientSsn m i j == ssn) = (l[j].ssn == ssn) :=
    fun j hj ↦ by
      rw [beq_false_of_ne (h.fd_ne hj), Bool.false_or, h.ssn_eq hj]
  cases hk : l.findIdx? (·.ssn == ssn) with
  | some k =>
    have hlt := (List.findIdx?_eq_some_iff_getElem.1 hk).1
    rw [getConnInf, h.find_some hP hk, Option.map_some, if_pos (h.fd_ne hlt)]
  | none =>
    by_cases hlt : l.length < maxFdNum
    · have hfree := h.free _ (Nat.le_refl _) hlt
      rw [getConnInf, find_free hP hk hlt (by simp [hfree])]
      simp [hfree, hlt]
    · rw [getConnInf, find_none hP hk fun j hj hj' ↦ absurd hj' (by omega)]
      simp [hlt]

/-- `get_read_fd`: the first connection that waits to be read. -/
theorem getReadFd_rep (h : ShardRep m i l) :
    getReadFd m i = l.findIdx? (·.status == fdStatPoll) := by
  have hpos : ∀ j (hj : j < l.length), ¬ (getCommClientFD m i j).toInt < 0 := fun j hj ↦ by
    rw [h.fd_eq hj]
    exact Int.not_lt.2 (h.open_fd _ (List.getElem_mem hj))
  have hP : ∀ j (hj : j < l.length),
      (decide ((getCommClientFD m i j).toInt < 0) || getCommClientStat m i j == fdStatPoll) =
        (l[j].status == fdStatPoll) := fun j hj ↦ by
    rw [decide_eq_false (hpos j hj), Bool.false_or, h.stat_eq hj]
  cases hk : l.findIdx? (·.status == fdStatPoll) with
  | some k =>
    have hlt := (List.findIdx?_eq_some_iff_getElem.1 hk).1
    rw [getReadFd, h.find_some hP hk]
    simpa using hpos k hlt
  | none =>
    by_cases hlt : l.length < maxFdNum
    · have hneg : (getCommClientFD m i l.length).toInt < 0 := by
        rw [h.free _ (Nat.le_refl _) hlt]
        decide
      rw [getReadFd, find_free hP hk hlt (by simp [hneg])]
      simp [hneg]
    · rw [getReadFd, find_none hP hk fun j hj hj' ↦ absurd hj' (by omega)]
      rfl

/-- `getconnetcount` counts the connections. -/
theorem getConnetCount_rep (h : ShardRep m i l) : getConnetCount m i = l.length := by
  have hle := h.length_le
  obtain ⟨n, hn⟩ := Nat.exists_eq_add_of_le hle
  have hfront : ∀ j ∈ List.range l.length, (getCommClientFD m i j != -1) = true := fun j hj ↦ by
    simpa using h.fd_ne (List.mem_range.1 hj)
  rw [getConnetCount, hn, List.range_add, List.takeWhile_append_of_pos hfront, List.length_append,
    List.length_range]
  cases n with
  | zero => rfl
  | succ n =>
    have hfree := h.free l.length (Nat.le_refl _) (by omega)
    simp [List.range_succ_eq_map, hfree]

end ShardRep

/-! ### Writing one slot -/

/-- Only the slot `connect[j]` of shard `i` may have changed. -/
def SameOutsideSlot (m m' : WordMem) (i j : ℕ) : Prop :=
  ∀ x, (x < connectAt i j ∨ connectAt i j + sizeofConnect ≤ x) → m' x = m x

theorem SameOutsideSlot.connect (h : SameOutsideSlot m m' i j) (ht : t ≠ j) :
    connect m' i t = connect m i t := by
  refine connect_congr fun f hf ↦ h _ ?_
  simp only [connectAt, sizeofClient, sizeofConnect] at hf ⊢
  omega

theorem SameOutsideSlot.sameElsewhere (h : SameOutsideSlot m m' i j) (hj : j < maxFdNum) :
    SameElsewhere m m' i := fun x hx ↦ h x (by
  simp only [connectAt, sizeofClient, sizeofConnect, maxFdNum] at hx hj ⊢
  omega)

theorem sameOutsideSlot_putConnect (m : WordMem) (i j : ℕ) (c : ConnectHandle) :
    SameOutsideSlot m (putConnect m i j c) i j := fun x hx ↦ by
  rw [sizeofConnect] at hx
  rw [putConnect, setCommClientStat, storeByte_of_ne _ _ (by omega), store_of_ne _ _ (by omega),
    store_of_ne _ _ (by omega), store_of_ne _ _ (by omega)]

theorem connect_putConnect (m : WordMem) (i j : ℕ) (c : ConnectHandle) :
    connect (putConnect m i j c) i j = c := by
  have hstat : getCommClientStat (putConnect m i j c) i j = c.status := byte_storeByte_self _ _ _
  ext1
  · simp [connect, getCommClientFD, putConnect, setCommClientStat, storeByte_of_ne, store_of_ne]
  · simp [connect, getCommClientSsn, putConnect, setCommClientStat, storeByte_of_ne, store_of_ne]
  · simp [connect, getCommClientTime, putConnect, setCommClientStat, storeByte_of_ne]
  · exact hstat

theorem sameOutsideSlot_setStat (m : WordMem) (i j : ℕ) (v : BitVec 8) :
    SameOutsideSlot m (setCommClientStat m i j v) i j := fun x hx ↦ by
  rw [sizeofConnect] at hx
  exact storeByte_of_ne _ _ (by omega)

theorem connect_setStat (m : WordMem) (i j : ℕ) (v : BitVec 8) :
    connect (setCommClientStat m i j v) i j = { connect m i j with status := v } := by
  have hstat : getCommClientStat (setCommClientStat m i j v) i j = v := byte_storeByte_self _ _ _
  ext1
  · exact storeByte_of_ne _ _ (by omega)
  · exact storeByte_of_ne _ _ (by omega)
  · exact storeByte_of_ne _ _ (by omega)
  · exact hstat

/-- Storing a counter changes no slot. -/
theorem connect_setNum (m : WordMem) (k i : ℕ) (v : BitVec 32) (hj : j < maxFdNum) :
    connect (setCommClientNum m k v) i j = connect m i j :=
  connect_congr fun f hf ↦ by
    refine store_of_ne _ _ ?_
    simp only [numAt, connectAt, sizeofClient, sizeofConnect, maxFdNum] at hf hj ⊢
    rcases Nat.lt_or_ge i k with hik | hik <;> omega

namespace ShardRep

/-- Writing the slot of a connection. -/
theorem set_slot (h : ShardRep m i l) (hout : SameOutsideSlot m m' i j) (hj : j < l.length)
    (hopen : 0 ≤ (connect m' i j).fd.toInt) : ShardRep m' i (l.set j (connect m' i j)) where
  length_le := by rw [List.length_set]; exact h.length_le
  slot t ht := by
    rw [List.length_set] at ht
    by_cases htj : j = t
    · subst htj
      rw [List.getElem_set_self]
    · rw [List.getElem_set_ne htj, hout.connect (Ne.symm htj), h.slot t ht]
  open_fd c hc := by
    rcases List.mem_or_eq_of_mem_set hc with hc | rfl
    · exact h.open_fd c hc
    · exact hopen
  free t ht ht' := by
    rw [List.length_set] at ht
    rw [← h.free t ht ht']
    exact congrArg ConnectHandle.fd (hout.connect (by omega))

/-- Writing the first free slot. -/
theorem append_slot (h : ShardRep m i l) (hout : SameOutsideSlot m m' i l.length)
    (hlt : l.length < maxFdNum) (hopen : 0 ≤ (connect m' i l.length).fd.toInt) :
    ShardRep m' i (l ++ [connect m' i l.length]) where
  length_le := by rw [List.length_append, List.length_singleton]; exact hlt
  slot t ht := by
    rw [List.length_append, List.length_singleton] at ht
    rcases Nat.lt_or_ge t l.length with htl | htl
    · rw [List.getElem_append_left htl, hout.connect (by omega), h.slot t htl]
    · obtain rfl : t = l.length := by omega
      rw [List.getElem_concat_length rfl]
  open_fd c hc := by
    rcases List.mem_append.1 hc with hc | hc
    · exact h.open_fd c hc
    · rw [List.mem_singleton.1 hc]
      exact hopen
  free t ht ht' := by
    rw [List.length_append, List.length_singleton] at ht
    rw [← h.free t (by omega) ht']
    exact congrArg ConnectHandle.fd (hout.connect (by omega))

/-- A status is stored into the slot of a connection. -/
theorem setStat_rep (h : ShardRep m i l) (hj : j < l.length) (v : BitVec 8) :
    ShardRep (setCommClientStat m i j v) i (l.set j { l[j] with status := v }) ∧
      SameElsewhere m (setCommClientStat m i j v) i := by
  have hle := h.length_le
  have hout := sameOutsideSlot_setStat m i j v
  have hslot : connect (setCommClientStat m i j v) i j = { l[j] with status := v } := by
    rw [connect_setStat, h.slot j hj]
  refine ⟨?_, hout.sameElsewhere (by omega)⟩
  rw [← hslot]
  refine h.set_slot hout hj ?_
  rw [hslot]
  exact h.open_fd l[j] (List.getElem_mem hj)

/-- The connection that `new_accept` stores. -/
theorem newAccept_rep {num sockfd : ℕ} {gssn now : BitVec 32} (h : ShardRep m (sockfd % num) l)
    (hfd : sockfd < 2 ^ 31) (hlt : l.length < maxFdNum) :
    ∃ m', newAccept m num gssn sockfd now = some (m', gssn + 1) ∧
      ShardRep m' (sockfd % num) (l ++ [⟨BitVec.ofNat 32 sockfd, gssn, now, fdStatReg⟩]) ∧
      SameElsewhere m m' (sockfd % num) := by
  have hout := sameOutsideSlot_putConnect m (sockfd % num) l.length
    ⟨BitVec.ofNat 32 sockfd, gssn, now, fdStatReg⟩
  have hslot := connect_putConnect m (sockfd % num) l.length
    ⟨BitVec.ofNat 32 sockfd, gssn, now, fdStatReg⟩
  refine ⟨_, ?_, ?_, hout.sameElsewhere hlt⟩
  · rw [newAccept, h.getConnectPos_free, if_pos hlt, Option.map_some]
  · have happ := h.append_slot hout hlt (by
      rw [hslot]
      exact toInt_ofNat_nonneg hfd)
    rwa [hslot] at happ

/-- A full shard refuses the connection. -/
theorem newAccept_full {num sockfd : ℕ} {gssn now : BitVec 32} (h : ShardRep m (sockfd % num) l)
    (hfull : ¬ l.length < maxFdNum) : newAccept m num gssn sockfd now = none := by
  rw [newAccept, h.getConnectPos_free, if_neg hfull, Option.map_none]

theorem setNum_rep (h : ShardRep m i l) (k : ℕ) (v : BitVec 32) :
    ShardRep (setCommClientNum m k v) i l :=
  h.congr fun _ hj ↦ connect_setNum m k i v hj

end ShardRep

/-! ### Erasing -/

/-- `CommClearFd(i, j)` does what it is meant for in a shard with `c` connections: the block it shifts
ends inside the array, and no connection stands behind the block. -/
def ClearInRange (i j c : ℕ) : Prop :=
  j = i ∨ j < i ∧ c + i ≤ j + (maxFdNum - 1)

instance (i j c : ℕ) : Decidable (ClearInRange i j c) :=
  inferInstanceAs (Decidable (_ ∨ _))

theorem sameOutsideSlot_initConnect (m : WordMem) (i j : ℕ) :
    SameOutsideSlot m (initConnect m i j) i j := fun x hx ↦ by
  rw [sizeofConnect] at hx
  rw [initConnect, storeByte_of_ne _ _ (by omega), store_of_ne _ _ (by omega)]

theorem fd_initConnect (m : WordMem) (i j : ℕ) : getCommClientFD (initConnect m i j) i j = -1 := by
  rw [getCommClientFD, initConnect, storeByte_of_ne _ _ (by omega), store_self]

/-- The slots after `CommClearFd`, but for the last one. -/
theorem connect_commClearFd (m : WordMem) (i j : ℕ) (ht : t + 1 < maxFdNum) :
    connect (commClearFd m i j) i t =
      if j ≤ t ∧ t < j + (maxFdNum - i - 1) then connect m i (t + 1) else connect m i t := by
  rw [maxFdNum] at ht
  rw [commClearFd, (sameOutsideSlot_initConnect _ i (maxFdNum - 1)).connect (by rw [maxFdNum]; omega)]
  split
  · next hin =>
    refine connect_congr fun f hf ↦ ?_
    rw [copy_inside _ (by simp only [connectAt, sizeofConnect] at *; omega)
      (by simp only [connectAt, sizeofConnect, maxFdNum] at *; omega)]
    congr 1
    simp only [connectAt, sizeofConnect] at *
    omega
  · next hout =>
    refine connect_congr fun f hf ↦ copy_outside _ ?_
    simp only [connectAt, sizeofConnect, maxFdNum] at *
    omega

/-- In range, `CommClearFd` stays in its shard. -/
theorem sameElsewhere_commClearFd (m : WordMem) (hj : j ≤ i) (hi : i < maxFdNum) :
    SameElsewhere m (commClearFd m i j) i := fun x hx ↦ by
  have hlast := (sameOutsideSlot_initConnect
    (m.copy (connectAt i j) (connectAt i (j + 1)) (sizeofConnect * (maxFdNum - i - 1)))
    i (maxFdNum - 1)).sameElsewhere (by decide) x hx
  rw [commClearFd, hlast]
  refine copy_outside _ ?_
  simp only [connectAt, sizeofConnect, maxFdNum] at *
  omega

namespace ShardRep

/-- **`CommClearFd` in range** erases one connection and keeps the others in their order. -/
theorem commClearFd_rep (h : ShardRep m i l) (hj : j < l.length) (hi : i < maxFdNum)
    (hrange : ClearInRange i j l.length) :
    ShardRep (commClearFd m i j) i (l.eraseIdx j) ∧ SameElsewhere m (commClearFd m i j) i := by
  have hle := h.length_le
  have hlen : (l.eraseIdx j).length = l.length - 1 := List.length_eraseIdx_of_lt hj
  rw [ClearInRange, maxFdNum] at hrange
  rw [maxFdNum] at hi hle
  refine ⟨⟨?_, fun t ht ↦ ?_, fun c hc ↦ ?_, fun t ht ht' ↦ ?_⟩, ?_⟩
  · rw [hlen, maxFdNum]
    omega
  · rw [hlen] at ht
    rw [connect_commClearFd m i j (by rw [maxFdNum]; omega), List.getElem_eraseIdx]
    by_cases htj : t < j
    · rw [if_neg (by omega), dif_pos htj, h.slot t (by omega)]
    · rw [if_pos (by rw [maxFdNum]; omega), dif_neg htj, h.slot (t + 1) (by omega)]
  · exact h.open_fd c (List.mem_of_mem_eraseIdx hc)
  · rw [hlen] at ht
    by_cases hlast : t + 1 < maxFdNum
    · have hslot := congrArg ConnectHandle.fd (connect_commClearFd m i j hlast)
      rw [maxFdNum] at hlast
      split at hslot
      · exact hslot.trans (h.free (t + 1) (by omega) (by rw [maxFdNum]; omega))
      · next hout =>
        rw [maxFdNum] at hout
        exact hslot.trans (h.free t (by omega) ht')
    · obtain rfl : t = maxFdNum - 1 := by omega
      exact fd_initConnect _ i (maxFdNum - 1)
  · exact sameElsewhere_commClearFd m (by omega) (by rw [maxFdNum]; omega)

end ShardRep

/-! ### Expiry -/

/-- The connection has been open for `idletime` or longer, in `unsigned` arithmetic. -/
def ConnectHandle.expired (idletime currtime : BitVec 32) (c : ConnectHandle) : Bool :=
  idletime ≤ currtime - c.utime

namespace ShardRep

/-- The first connection decides whether a pass of the inner loop closes it. -/
theorem timedOut_cons {c : ConnectHandle} {idletime currtime : BitVec 32}
    (h : ShardRep m i (c :: l)) :
    timedOut m idletime currtime i 0 ↔ c.expired idletime currtime = true := by
  have hne := h.fd_ne (j := 0) (by simp)
  rw [timedOut, h.time_eq (j := 0) (by simp), and_iff_right hne]
  simp [ConnectHandle.expired]

/-- **The inner loop of `clean_time_out_connect`** drops the expired front of a shard, if the first
deletion is in range; all that follow are then too. -/
theorem cleanShard_rep {idletime currtime : BitVec 32} {fuel : ℕ} (h : ShardRep m i l)
    (hi : i < maxFdNum) (hfuel : l.length < fuel)
    (hrange : (∃ c ∈ l.head?, c.expired idletime currtime) → ClearInRange i 0 l.length) :
    ∃ m', cleanShard idletime currtime i fuel m =
        some (m', (l.takeWhile (·.expired idletime currtime)).map (·.fd)) ∧
      ShardRep m' i (l.dropWhile (·.expired idletime currtime)) ∧ SameElsewhere m m' i := by
  induction l generalizing m fuel with
  | nil =>
    obtain ⟨fuel, rfl⟩ : ∃ k, fuel = k + 1 := ⟨fuel - 1, by omega⟩
    have hfree := h.free 0 (Nat.le_refl _) (by decide)
    have hnot : ¬ timedOut m idletime currtime i 0 := fun ht ↦ ht.1 hfree
    exact ⟨m, by rw [cleanShard, if_neg hnot]; rfl, h, .refl m i⟩
  | cons c l ih =>
    obtain ⟨fuel, rfl⟩ : ∃ k, fuel = k + 1 := ⟨fuel - 1, by omega⟩
    have hlt : l.length < fuel := by
      rw [List.length_cons] at hfuel
      omega
    by_cases hexp : c.expired idletime currtime = true
    · have hclear := hrange ⟨c, rfl, hexp⟩
      have hfd : getCommClientFD m i 0 = c.fd := h.fd_eq (j := 0) (by simp)
      obtain ⟨hrep, hsame⟩ := h.commClearFd_rep (by simp) hi hclear
      have hnext : (∃ c ∈ l.head?, c.expired idletime currtime) → ClearInRange i 0 l.length :=
        fun _ ↦ by
          rw [ClearInRange, List.length_cons] at hclear
          rw [ClearInRange]
          omega
      obtain ⟨m', hclean, hrep', hsame'⟩ := ih hrep hlt hnext
      refine ⟨m', ?_, ?_, hsame.trans hsame'⟩
      · rw [cleanShard, if_pos (h.timedOut_cons.2 hexp), hclean, Option.map_some, hfd,
          List.takeWhile_cons_of_pos hexp, List.map_cons]
      · rwa [List.dropWhile_cons_of_pos hexp]
    · refine ⟨m, ?_, ?_, .refl m i⟩
      · rw [cleanShard, if_neg fun ht ↦ hexp (h.timedOut_cons.1 ht),
          List.takeWhile_cons_of_neg hexp, List.map_nil]
      · rwa [List.dropWhile_cons_of_neg hexp]

end ShardRep

/-! ### The whole table -/

/-- The first `num` shards hold the lists `T`. -/
def TableRep (m : WordMem) (num : ℕ) (T : ℕ → List ConnectHandle) : Prop :=
  ∀ i < num, ShardRep m i (T i)

namespace TableRep

variable {num : ℕ} {T : ℕ → List ConnectHandle}

/-- A change inside one shard. -/
theorem update (h : TableRep m num T) (hrep : ShardRep m' i l) (hsame : SameElsewhere m m' i) :
    TableRep m' num (Function.update T i l) := fun k hk ↦ by
  by_cases hki : k = i
  · subst hki
    rwa [Function.update_self]
  · rw [Function.update_of_ne hki]
    exact (h k hk).frame hsame hki

/-- **`new_accept`** puts the connection behind the others of its shard. -/
theorem newAccept_rep {sockfd : ℕ} (h : TableRep m num T) (hnum : 0 < num) (hfd : sockfd < 2 ^ 31)
    (hlt : (T (sockfd % num)).length < maxFdNum) (gssn now : BitVec 32) :
    ∃ m', newAccept m num gssn sockfd now = some (m', gssn + 1) ∧
      TableRep m' num (Function.update T (sockfd % num)
        (T (sockfd % num) ++ [⟨BitVec.ofNat 32 sockfd, gssn, now, fdStatReg⟩])) ∧
      ∀ k, getCommClientNum m' k = getCommClientNum m k := by
  obtain ⟨m', hacc, hrep, hsame⟩ := (h _ (Nat.mod_lt sockfd hnum)).newAccept_rep hfd hlt
  exact ⟨m', hacc, h.update hrep hsame, hsame.num⟩

/-- The outer loop of `clean_time_out_connect`, over `n` shards from `i` on, when the inner loop is
known for each of them: a shard is cleaned as it was before the loop. -/
theorem cleanShards_each {idletime currtime : BitVec 32} {fuel n : ℕ} {C : ℕ → List (BitVec 32)}
    {R : ℕ → List ConnectHandle} (h : TableRep m num T) (hn : i + n ≤ num)
    (heach : ∀ k, i ≤ k → k < i + n → ∀ m, ShardRep m k (T k) →
      ∃ m', cleanShard idletime currtime k fuel m = some (m', C k) ∧ ShardRep m' k (R k) ∧
        SameElsewhere m m' k) :
    ∃ m', cleanShards idletime currtime fuel n i m = some (m', (List.range' i n).flatMap C) ∧
      TableRep m' num (fun k ↦ if i ≤ k ∧ k < i + n then R k else T k) ∧
      ∀ k, getCommClientNum m' k = getCommClientNum m k := by
  induction n generalizing m i T with
  | zero =>
    refine ⟨m, rfl, fun k hk ↦ ?_, fun _ ↦ rfl⟩
    beta_reduce
    rw [if_neg (by omega)]
    exact h k hk
  | succ n ih =>
    obtain ⟨m1, hclean, hrep, hsame⟩ := heach i (Nat.le_refl i) (by omega) m (h i (by omega))
    have hT1 := h.update hrep hsame
    obtain ⟨m2, hrest, hT2, hnums⟩ := ih (i := i + 1) hT1 (by omega) fun k hk hk' m' hm' ↦ by
      rw [Function.update_of_ne (by omega)] at hm'
      exact heach k (by omega) (by omega) m' hm'
    refine ⟨m2, ?_, fun k hk ↦ ?_, fun k ↦ (hnums k).trans (hsame.num k)⟩
    · rw [cleanShards, hclean, Option.bind_some, hrest, Option.map_some, List.range'_succ,
        List.flatMap_cons]
    · have hk2 := hT2 k hk
      beta_reduce at hk2 ⊢
      by_cases hki : k = i
      · subst hki
        rw [if_neg (by omega), Function.update_self] at hk2
        rwa [if_pos (by omega)]
      · rw [Function.update_of_ne hki] at hk2
        by_cases hin : i + 1 ≤ k ∧ k < i + 1 + n
        · rw [if_pos hin] at hk2
          rwa [if_pos (by omega)]
        · rw [if_neg hin] at hk2
          rwa [if_neg (by omega)]

/-- **`clean_time_out_connect`**, when the inner loop is known for each shard. -/
theorem cleanTimeOutConnect_each {idletime currtime : BitVec 32} {fuel : ℕ}
    {C : ℕ → List (BitVec 32)} {R : ℕ → List ConnectHandle} (h : TableRep m num T)
    (heach : ∀ k < num, ∀ m, ShardRep m k (T k) →
      ∃ m', cleanShard idletime currtime k fuel m = some (m', C k) ∧ ShardRep m' k (R k) ∧
        SameElsewhere m m' k) :
    ∃ m', cleanTimeOutConnect m num idletime currtime fuel =
        some (m', (List.range num).flatMap C) ∧ TableRep m' num R ∧
      ∀ k, getCommClientNum m' k = getCommClientNum m k := by
  obtain ⟨m', hclean, hT, hnums⟩ := h.cleanShards_each (i := 0) (n := num) (by omega)
    fun k _ hk ↦ heach k (by omega)
  refine ⟨m', by rw [cleanTimeOutConnect, hclean, List.range_eq_range'], fun k hk ↦ ?_, hnums⟩
  have hk' := hT k hk
  beta_reduce at hk'
  rwa [if_pos (by omega)] at hk'

/-- **`clean_time_out_connect`** drops the expired front of every shard and closes what it dropped;
more passes than there are slots are never needed. -/
theorem cleanTimeOutConnect_rep {idletime currtime : BitVec 32} {fuel : ℕ} (h : TableRep m num T)
    (hnum : num ≤ maxTreadNum) (hfuel : maxFdNum < fuel)
    (hrange : ∀ k < num, timedOut m idletime currtime k 0 →
      ClearInRange k 0 (getConnetCount m k)) :
    ∃ m' closed, cleanTimeOutConnect m num idletime currtime fuel = some (m', closed) ∧
      TableRep m' num (fun k ↦ (T k).dropWhile (·.expired idletime currtime)) ∧
      (∀ fd, fd ∈ closed ↔ ∃ k < num,
        fd ∈ ((T k).takeWhile (·.expired idletime currtime)).map (·.fd)) ∧
      ∀ k, getCommClientNum m' k = getCommClientNum m k := by
  rw [maxTreadNum] at hnum
  have hfirst : ∀ k < num, (∃ c ∈ (T k).head?, c.expired idletime currtime) →
      ClearInRange k 0 (T k).length := by
    rintro k hk ⟨c, hc, hexp⟩
    obtain ⟨rest, hrest⟩ : ∃ rest, T k = c :: rest :=
      ⟨(T k).tail, (List.cons_head?_tail hc).symm⟩
    have hrep : ShardRep m k (c :: rest) := hrest ▸ h k hk
    rw [← (h k hk).getConnetCount_rep]
    exact hrange k hk (hrep.timedOut_cons.2 hexp)
  obtain ⟨m', hclean, hT, hnums⟩ := h.cleanTimeOutConnect_each fun k hk m1 h1 ↦
    h1.cleanShard_rep (by rw [maxFdNum]; omega) (Nat.lt_of_le_of_lt h1.length_le hfuel)
      (hfirst k hk)
  refine ⟨m', _, hclean, hT, fun fd ↦ ?_, hnums⟩
  simp only [List.mem_flatMap, List.mem_range]

end TableRep

/-- A loop that ended within `fuel` passes does the same with more of them. -/
theorem cleanShard_mono {idletime currtime : BitVec 32} {fuel fuel' : ℕ}
    {r : WordMem × List (BitVec 32)} (h : cleanShard idletime currtime i fuel m = some r)
    (hle : fuel ≤ fuel') : cleanShard idletime currtime i fuel' m = some r := by
  induction fuel generalizing m r fuel' with
  | zero => cases h
  | succ fuel ih =>
    obtain ⟨n, rfl⟩ : ∃ n, fuel' = n + 1 := ⟨fuel' - 1, by omega⟩
    rw [cleanShard] at h ⊢
    by_cases ht : timedOut m idletime currtime i 0
    · rw [if_pos ht] at h ⊢
      obtain ⟨r', hr', rfl⟩ := Option.map_eq_some_iff.1 h
      rw [ih hr' (by omega), Option.map_some]
    · rw [if_neg ht] at h ⊢
      exact h

theorem cleanShards_mono {idletime currtime : BitVec 32} {fuel fuel' n : ℕ}
    {r : WordMem × List (BitVec 32)} (h : cleanShards idletime currtime fuel n i m = some r)
    (hle : fuel ≤ fuel') : cleanShards idletime currtime fuel' n i m = some r := by
  induction n generalizing m i r with
  | zero => exact h
  | succ n ih =>
    rw [cleanShards] at h ⊢
    obtain ⟨r1, hr1, h⟩ := Option.bind_eq_some_iff.1 h
    obtain ⟨r2, hr2, rfl⟩ := Option.map_eq_some_iff.1 h
    rw [cleanShard_mono hr1 hle, Option.bind_some, ih hr2, Option.map_some]

/-! ### Deletion -/

theorem delConnectFd_none {num fd : ℕ} (h : delPos m (fd % num) (BitVec.ofNat 32 fd) = none) :
    delConnectFd m num fd = m := by
  rw [delConnectFd, h, Option.elim_none]

/-- **`del_connect_fd` in range** erases the connection. If it was waiting to be read, the counter of
the shard with the number of its slot is decremented. -/
theorem TableRep.delConnectFd_some {num fd : ℕ} {T : ℕ → List ConnectHandle}
    (h : TableRep m num T) (hnum : num ≤ maxTreadNum) (hi : fd % num < num)
    (hpos : delPos m (fd % num) (BitVec.ofNat 32 fd) = some j)
    (hrange : ClearInRange (fd % num) j (getConnetCount m (fd % num))) :
    TableRep (delConnectFd m num fd) num
      (Function.update T (fd % num) ((T (fd % num)).eraseIdx j)) ∧
    ∀ k, getCommClientNum (delConnectFd m num fd) k =
      if getCommClientStat m (fd % num) j = fdStatPoll ∧ k = j then decNum (getCommClientNum m j)
      else getCommClientNum m k := by
  have hrep := h (fd % num) hi
  rw [hrep.getConnetCount_rep] at hrange
  have hj : j < (T (fd % num)).length := by
    rw [hrep.delPos_rep] at hpos
    exact (List.findIdx?_eq_some_iff_getElem.1 hpos).1
  have hlt : fd % num < maxFdNum := by
    rw [maxTreadNum] at hnum
    rw [maxFdNum]
    omega
  have hdel : delConnectFd m num fd = delSlot m (fd % num) j := by
    rw [delConnectFd, hpos, Option.elim_some]
  rw [hdel, delSlot]
  by_cases hpoll : getCommClientStat m (fd % num) j = fdStatPoll
  · rw [if_pos hpoll]
    have hT : TableRep (setCommClientNum m j (decNum (getCommClientNum m j))) num T :=
      fun k hk ↦ (h k hk).setNum_rep j _
    obtain ⟨hclear, hsame⟩ := (hT _ hi).commClearFd_rep hj hlt hrange
    refine ⟨hT.update hclear hsame, fun k ↦ ?_⟩
    rw [hsame.num]
    by_cases hkj : k = j
    · rw [if_pos ⟨hpoll, hkj⟩, hkj]
      exact store_self _ _ _
    · rw [if_neg fun hk ↦ hkj hk.2]
      refine store_of_ne _ _ ?_
      simp only [numAt, sizeofClient]
      omega
  · rw [if_neg hpoll]
    obtain ⟨hclear, hsame⟩ := hrep.commClearFd_rep hj hlt hrange
    refine ⟨h.update hclear hsame, fun k ↦ ?_⟩
    rw [hsame.num, if_neg fun hk ↦ hpoll hk.1]

/-- In range, `del_connect_fd` changes no slot of another shard. -/
theorem delConnectFd_others {num fd : ℕ}
    (hnum : num ≤ maxTreadNum) (hi : fd % num < num)
    (hpos : delPos m (fd % num) (BitVec.ofNat 32 fd) = some t)
    (hrange : ClearInRange (fd % num) t (getConnetCount m (fd % num))) (hk : k ≠ fd % num)
    (hj : j < maxFdNum) : connect (delConnectFd m num fd) k j = connect m k j := by
  have hlt : fd % num < maxFdNum := by
    rw [maxTreadNum] at hnum
    rw [maxFdNum]
    omega
  rw [delConnectFd, hpos, Option.elim_some, delSlot]
  have hsame := sameElsewhere_commClearFd
    (if getCommClientStat m (fd % num) t = fdStatPoll then
      setCommClientNum m t (decNum (getCommClientNum m t)) else m)
    (j := t) (i := fd % num) (by rw [ClearInRange] at hrange; omega) hlt
  rw [hsame.connect hk hj]
  split
  · exact connect_setNum m t k _ hj
  · rfl

/-! ### The initial table -/

/-- The inner loop of `comm_init` frees the slots of one shard. -/
theorem foldl_initConnect (m : WordMem) (i : ℕ) {n : ℕ} (hn : n ≤ maxFdNum) :
    (∀ j < n, getCommClientFD ((List.range n).foldl (initConnect · i) m) i j = -1) ∧
      SameElsewhere m ((List.range n).foldl (initConnect · i) m) i := by
  induction n with
  | zero => exact ⟨fun j hj ↦ absurd hj (by omega), .refl m i⟩
  | succ n ih =>
    obtain ⟨hfree, hsame⟩ := ih (by omega)
    have hout := sameOutsideSlot_initConnect ((List.range n).foldl (initConnect · i) m) i n
    rw [List.range_succ, List.foldl_append, List.foldl_cons, List.foldl_nil]
    refine ⟨fun j hj ↦ ?_, hsame.trans (hout.sameElsewhere (by omega))⟩
    by_cases hjn : j = n
    · subst hjn
      exact fd_initConnect _ i j
    · rw [← hfree j (by omega)]
      exact congrArg ConnectHandle.fd (hout.connect hjn)

/-- `CommHandClear` changes the words of one shard. -/
theorem commHandClear_of_ne (m : WordMem) {x : ℕ} (h : x < numAt i ∨ numAt i + sizeofClient ≤ x) :
    commHandClear m i x = m x := by
  rw [sizeofClient] at h
  rw [commHandClear, setCommClientNum, store_of_ne _ _ (by omega),
    fill_outside _ _ (by rw [sizeofClient]; omega)]

/-- **`comm_init`** leaves `num` empty shards, with their counters at 0. -/
theorem commInit_rep (num : ℕ) :
    TableRep (commInit num) num (fun _ ↦ []) ∧ ∀ i < num, getCommClientNum (commInit num) i = 0 := by
  induction num with
  | zero => exact ⟨fun i hi ↦ absurd hi (by omega), fun i hi ↦ absurd hi (by omega)⟩
  | succ n ih =>
    obtain ⟨hT, hnums⟩ := ih
    have hinit : commInit (n + 1) =
        (List.range maxFdNum).foldl (initConnect · n) (commHandClear (commInit n) n) := by
      rw [commInit, List.range_succ, List.foldl_append, List.foldl_cons, List.foldl_nil, commInit]
    obtain ⟨hfree, hsame⟩ := foldl_initConnect (commHandClear (commInit n) n) n (Nat.le_refl _)
    rw [← hinit] at hfree hsame
    refine ⟨fun k hk ↦ ?_, fun k hk ↦ ?_⟩
    · by_cases hkn : k = n
      · subst hkn
        exact ⟨Nat.zero_le _, fun j hj ↦ absurd hj (by simp), fun c hc ↦ absurd hc (by simp),
          fun j _ hj ↦ hfree j hj⟩
      · refine ((hT k (by omega)).congr fun j hj ↦ connect_congr fun f hf ↦ ?_).frame hsame hkn
        refine commHandClear_of_ne _ ?_
        simp only [connectAt, numAt, sizeofClient, sizeofConnect, maxFdNum] at hf hj ⊢
        omega
    · rw [hsame.num]
      by_cases hkn : k = n
      · subst hkn
        rw [getCommClientNum, commHandClear, setCommClientNum, store_self]
      · rw [← hnums k (by omega)]
        refine commHandClear_of_ne _ ?_
        simp only [numAt, sizeofClient]
        omega

end Sunda
