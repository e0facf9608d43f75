import Sunda.Comm.Commserver.TableHolds
import Sunda.Comm.Commserver.WriteTask

/-!
# The mutex-protected sections

What the main loop and `read_task` do to the connection table while they hold the mutex of a shard:
`pollEvent` records a readable event, and `readClaim` takes the first connection with a recorded event
away for reading. The section of `write_task` is `writeMark`, the one of a failed read is
`delConnectFd`.

The counter of a shard goes up by one at every event and down by one at every claim; it is set to 0
when a reader finds no event recorded.
-/

namespace Sunda

/-- The `EPOLLIN` branch of the main loop. A descriptor that is not in the table is closed. -/
def pollEvent (m : WordMem) (num fd : ℕ) : WordMem :=
  (getConnectPos m (fd % num) (BitVec.ofNat 32 fd)).elim (delConnectFd m num fd) fun pos ↦
    setCommClientNum (setCommClientStat m (fd % num) pos fdStatPoll) (fd % num)
      (getCommClientNum (setCommClientStat m (fd % num) pos fdStatPoll) (fd % num) + 1)

/-- The outcome of the section in which `read_task` claims a connection. -/
inductive Claim
  /-- The counter is 0: the reader waits on the condition variable. -/
  | wait
  /-- No event was recorded, and the counter is reset. -/
  | reset (mem : WordMem)
  /-- `connect[pos]` was claimed; `tClient` is the copy of it. -/
  | claimed (mem : WordMem) (pos : ℕ) (tClient : ConnectHandle)

/-- What a claim does at the slot it found. -/
def claimSlot (m : WordMem) (idx pos : ℕ) : WordMem :=
  setCommClientNum (setCommClientStat m idx pos fdStatRead) idx
    (getCommClientNum (setCommClientStat m idx pos fdStatRead) idx - 1)

/-- The first section of `read_task`. -/
def readClaim (m : WordMem) (idx : ℕ) : Claim :=
  if getCommClientNum m idx = 0 then .wait
  else
    (getReadFd m idx).elim (.reset (setCommClientNum m idx 0)) fun pos ↦
      .claimed (claimSlot m idx pos) pos (connect (setCommClientStat m idx pos fdStatRead) idx pos)

@[simp]
theorem getCommClientNum_setNum_self (m : WordMem) (i : ℕ) (v : BitVec 32) :
    getCommClientNum (setCommClientNum m i v) i = v :=
  m.store_self _ v

theorem getCommClientNum_setNum_of_ne (m : WordMem) {i k : ℕ} (v : BitVec 32) (h : k ≠ i) :
    getCommClientNum (setCommClientNum m i v) k = getCommClientNum m k :=
  m.store_of_ne v (by
    simp only [numAt, sizeofClient, ne_eq]
    omega)

namespace TableHolds

variable {m m' : WordMem} {num i j fd : ℕ} {S : Set ℕ} {T : ℕ → List ConnectHandle}

/-! ### Events -/

/-- The slot of a descriptor holds its connection. -/
theorem of_getConnectPos (h : TableHolds m num S T) (hnum : 0 < num) (hfd : fd < 2 ^ 31)
    (hpos : getConnectPos m (fd % num) (BitVec.ofNat 32 fd) = some j) :
    ∃ hj : j < (T (fd % num)).length, (T (fd % num))[j].key = fd := by
  have hne : BitVec.ofNat 32 fd ≠ -1 := ConnectHandle.fd_ne (c := ⟨_, 0, 0, 0⟩)
    (toInt_ofNat_nonneg hfd)
  rw [(h.rep _ (Nat.mod_lt _ hnum)).getConnectPos_rep hne, fd_beq_eq hfd] at hpos
  obtain ⟨hj, hkey, -⟩ := List.findIdx?_eq_some_iff_getElem.1 hpos
  exact ⟨hj, by simpa using hkey⟩

/-- A descriptor without a slot is not open. -/
theorem notMem_of_getConnectPos (h : TableHolds m num S T) (hnum : 0 < num) (hfd : fd < 2 ^ 31)
    (hpos : getConnectPos m (fd % num) (BitVec.ofNat 32 fd) = none) : fd ∉ S := by
  have hne : BitVec.ofNat 32 fd ≠ -1 := ConnectHandle.fd_ne (c := ⟨_, 0, 0, 0⟩)
    (toInt_ofNat_nonneg hfd)
  rw [(h.rep _ (Nat.mod_lt _ hnum)).getConnectPos_rep hne, fd_beq_eq hfd,
    List.findIdx?_eq_none_iff] at hpos
  intro hmem
  obtain ⟨c, hc, hkey⟩ := h.exists_of_mem hmem
  simpa [hkey] using hpos c hc

/-- An event on a descriptor that is not in the table leaves the table as it is. -/
theorem pollEvent_none (h : TableHolds m num S T) (hnum : 0 < num) (hfd : fd < 2 ^ 31)
    (hpos : getConnectPos m (fd % num) (BitVec.ofNat 32 fd) = none) : pollEvent m num fd = m := by
  rw [pollEvent, hpos, Option.elim_none]
  refine delConnectFd_none ?_
  cases hdel : delPos m (fd % num) (BitVec.ofNat 32 fd) with
  | none => rfl
  | some k =>
    obtain ⟨hk, hkey⟩ := h.of_delPos hnum hfd hdel
    exact absurd (hkey ▸ h.holds.mem (List.getElem_mem hk)) (h.notMem_of_getConnectPos hnum hfd hpos)

/-- **An event** sets the status of its connection and counts it. -/
theorem pollEvent_some (h : TableHolds m num S T) (hnum : 0 < num)
    (hpos : getConnectPos m (fd % num) (BitVec.ofNat 32 fd) = some j)
    (hj : j < (T (fd % num)).length) :
    TableHolds (pollEvent m num fd) num S (Function.update T (fd % num)
      ((T (fd % num)).set j { (T (fd % num))[j] with status := fdStatPoll })) ∧
    getCommClientNum (pollEvent m num fd) (fd % num) = getCommClientNum m (fd % num) + 1 ∧
    ∀ k ≠ fd % num, getCommClientNum (pollEvent m num fd) k = getCommClientNum m k := by
  obtain ⟨hT, hnums⟩ := h.setStat (Nat.mod_lt _ hnum) hj fdStatPoll
  rw [pollEvent, hpos, Option.elim_some]
  refine ⟨hT.setNum _ _, ?_, fun k hk ↦ ?_⟩
  · rw [getCommClientNum_setNum_self, hnums]
  · rw [getCommClientNum_setNum_of_ne _ _ hk, hnums]

/-! ### Claims -/

/-- **A claim** takes a connection with a recorded event, and counts it off. -/
theorem of_readClaim_claimed (h : TableHolds m num S T) (hi : i < num) {tClient : ConnectHandle}
    (hclaim : readClaim m i = .claimed m' j tClient) :
    ∃ hj : j < (T i).length, (T i)[j].status = fdStatPoll ∧
      tClient = { (T i)[j] with status := fdStatRead } ∧
      TableHolds m' num S (Function.update T i ((T i).set j tClient)) ∧
      getCommClientNum m i ≠ 0 ∧ getCommClientNum m' i = getCommClientNum m i - 1 ∧
      ∀ k ≠ i, getCommClientNum m' k = getCommClientNum m k := by
  have hrep := h.rep i hi
  rw [readClaim] at hclaim
  split at hclaim
  · cases hclaim
  · next hne =>
    rw [hrep.getReadFd_rep] at hclaim
    cases hfind : (T i).findIdx? (·.status == fdStatPoll) with
    | none =>
      rw [hfind, Option.elim_none] at hclaim
      cases hclaim
    | some k =>
      rw [hfind, Option.elim_some] at hclaim
      obtain ⟨rfl, rfl, rfl⟩ := Claim.claimed.inj hclaim
      obtain ⟨hk, hstat, -⟩ := List.findIdx?_eq_some_iff_getElem.1 hfind
      obtain ⟨hT, hnums⟩ := h.setStat hi hk fdStatRead
      have hcopy : connect (setCommClientStat m i k fdStatRead) i k =
          { (T i)[k] with status := fdStatRead } := by
        rw [connect_setStat, hrep.slot k hk]
      rw [hcopy]
      refine ⟨hk, by simpa using hstat, rfl, hT.setNum _ _, hne, ?_, fun k' hk' ↦ ?_⟩
      · rw [claimSlot, getCommClientNum_setNum_self, hnums]
      · rw [claimSlot, getCommClientNum_setNum_of_ne _ _ hk', hnums]

/-- The first connection with a recorded event is claimed. -/
theorem readClaim_eq_claimed (h : TableHolds m num S T) (hi : i < num)
    (hne : getCommClientNum m i ≠ 0) (hj : j < (T i).length)
    (hfind : (T i).findIdx? (·.status == fdStatPoll) = some j) :
    readClaim m i = .claimed (claimSlot m i j) j { (T i)[j] with status := fdStatRead } := by
  rw [readClaim, if_neg hne, (h.rep i hi).getReadFd_rep, hfind, Option.elim_some, connect_setStat,
    (h.rep i hi).slot j hj]

/-- A reset happens when no event is recorded. -/
theorem of_readClaim_reset (h : TableHolds m num S T) (hi : i < num)
    (hclaim : readClaim m i = .reset m') :
    (∀ c ∈ T i, c.status ≠ fdStatPoll) ∧ TableHolds m' num S T ∧ getCommClientNum m' i = 0 ∧
      ∀ k ≠ i, getCommClientNum m' k = getCommClientNum m k := by
  rw [readClaim] at hclaim
  split at hclaim
  · cases hclaim
  · rw [(h.rep i hi).getReadFd_rep] at hclaim
    cases hfind : (T i).findIdx? (·.status == fdStatPoll) with
    | none =>
      rw [hfind, Option.elim_none] at hclaim
      obtain rfl := Claim.reset.inj hclaim
      refine ⟨fun c hc ↦ ?_, h.setNum _ _, getCommClientNum_setNum_self _ _ _, fun k hk ↦
        getCommClientNum_setNum_of_ne _ _ hk⟩
      simpa using List.findIdx?_eq_none_iff.1 hfind c hc
    | some k =>
      rw [hfind, Option.elim_some] at hclaim
      cases hclaim

end TableHolds

/-! ### Marks -/

/-- The shard has a free slot. -/
def ShardFree (m : WordMem) (idx : ℕ) : Prop :=
  ∃ j < maxFdNum, getCommClientFD m idx j = -1

/-- The shard has a connection with the number `ssn`. -/
def HasSsn (m : WordMem) (idx : ℕ) (ssn : BitVec 32) : Prop :=
  ∃ j < maxFdNum, getCommClientFD m idx j ≠ -1 ∧ getCommClientSsn m idx j = ssn

namespace ShardRep

variable {m : WordMem} {i : ℕ} {l : List ConnectHandle}

theorem length_lt_of_shardFree (h : ShardRep m i l) (hfree : ShardFree m i) :
    l.length < maxFdNum := by
  obtain ⟨j, hj, hfd⟩ := hfree
  exact Nat.lt_of_le_of_lt ((h.fd_eq_neg_one_iff hj).1 hfd) hj

theorem hasSsn_iff (h : ShardRep m i l) {ssn : BitVec 32} :
    HasSsn m i ssn ↔ ∃ c ∈ l, c.ssn = ssn := by
  constructor
  · rintro ⟨j, hj, hfd, hssn⟩
    have hlt : j < l.length := by rwa [ne_eq, h.fd_eq_neg_one_iff hj, Nat.not_le] at hfd
    exact ⟨_, List.getElem_mem hlt, (h.ssn_eq hlt).symm.trans hssn⟩
  · rintro ⟨c, hc, rfl⟩
    obtain ⟨j, hj, rfl⟩ := List.mem_iff_getElem.1 hc
    exact ⟨j, Nat.lt_of_lt_of_le hj h.length_le, h.fd_ne hj, h.ssn_eq hj⟩

/-- `get_conn_inf` finds a connection with the number, or there is none and it returns -1, in a shard
that has a free slot or the number. -/
theorem getConnInf_cases (h : ShardRep m i l) {ssn : BitVec 32}
    (hguard : ShardFree m i ∨ HasSsn m i ssn) :
    (∃ k, ∃ hk : k < l.length, l[k].ssn = ssn ∧ getConnInf m i ssn = some (k : ℤ)) ∨
      (¬ HasSsn m i ssn ∧ getConnInf m i ssn = some (-1)) := by
  have hrep := h.getConnInf_rep ssn
  cases hfind : l.findIdx? (·.ssn == ssn) with
  | some k =>
    rw [hfind] at hrep
    obtain ⟨hk, hssn, -⟩ := List.findIdx?_eq_some_iff_getElem.1 hfind
    exact .inl ⟨k, hk, by simpa using hssn, hrep⟩
  | none =>
    rw [hfind] at hrep
    have hnot : ¬ HasSsn m i ssn := by
      rw [h.hasSsn_iff]
      rintro ⟨c, hc, hssn⟩
      simpa [hssn] using List.findIdx?_eq_none_iff.1 hfind c hc
    have hlt := h.length_lt_of_shardFree (hguard.resolve_right hnot)
    exact .inr ⟨hnot, by rw [hrep]; exact if_pos hlt⟩

end ShardRep

/-- **A mark** goes to a connection with the number, in a shard that has a free slot or the number. -/
theorem TableHolds.writeMark_cases {m : WordMem} {num : ℕ} {S : Set ℕ} {T : ℕ → List ConnectHandle}
    (h : TableHolds m num S T) (hnum : 0 < num) (junk : ℤ) {fd connSsn : BitVec 32}
    (hguard : ShardFree m (fd.toNat % num) ∨ HasSsn m (fd.toNat % num) connSsn) :
    (∃ k, ∃ hk : k < (T (fd.toNat % num)).length, (T (fd.toNat % num))[k].ssn = connSsn ∧
      writeMark m num junk fd connSsn =
        some (setCommClientStat m (fd.toNat % num) k fdStatWrite)) ∨
      (¬ HasSsn m (fd.toNat % num) connSsn ∧ writeMark m num junk fd connSsn = none) := by
  rcases (h.rep _ (Nat.mod_lt _ hnum)).getConnInf_cases hguard with ⟨k, hk, hssn, hinf⟩ | ⟨hnot, hinf⟩
  · refine .inl ⟨k, hk, hssn, ?_⟩
    simp only [writeMark, hinf, Option.getD_some, Int.toNat_natCast]
    exact if_neg (by omega)
  · refine .inr ⟨hnot, ?_⟩
    simp only [writeMark, hinf, Option.getD_some]
    exact if_pos (by decide)

end Sunda
