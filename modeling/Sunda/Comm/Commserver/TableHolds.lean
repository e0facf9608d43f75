import Sunda.Base.Sharded
import Sunda.Comm.Commserver.TableRep

/-!
# The table of the open descriptors

`TableHolds m num S T` says what a connection table is for: its shards hold one connection for each
descriptor of the set `S`, in the shard of the descriptor, and nothing else. The set is kept by
every function of the table, as long as deletions are in range: `accept` adds to it, `del` and
`timeout` take from it, `setStat` and `setNum` leave it alone.
-/

namespace Sunda

open Sharded

/-- The key of a connection, its descriptor. -/
def ConnectHandle.key (c : ConnectHandle) : ℕ := c.fd.toNat

theorem ConnectHandle.key_eq_iff (c : ConnectHandle) {fd : ℕ} (hfd : fd < 2 ^ 31) :
    c.key = fd ↔ c.fd = BitVec.ofNat 32 fd := by
  rw [ConnectHandle.key, BitVec.toNat_eq, BitVec.toNat_ofNat, Nat.mod_eq_of_lt (by omega)]

theorem fd_beq_eq {fd : ℕ} (hfd : fd < 2 ^ 31) :
    (fun c : ConnectHandle ↦ c.fd == BitVec.ofNat 32 fd) = (·.key == fd) := by
  funext c
  rw [Bool.eq_iff_iff, beq_iff_eq, beq_iff_eq, c.key_eq_iff hfd]

theorem filter_fd_ne {fd : ℕ} (hfd : fd < 2 ^ 31) (l : List ConnectHandle) :
    l.filter (·.fd ≠ BitVec.ofNat 32 fd) = l.filter (·.key ≠ fd) :=
  List.filter_congr fun c _ ↦ by
    have h := c.key_eq_iff hfd
    simp only [ne_eq, h]

/-- The first `num` shards hold one connection for each descriptor of `S`, and nothing else. -/
structure TableHolds (m : WordMem) (num : ℕ) (S : Set ℕ) (T : ℕ → List ConnectHandle) : Prop where
  rep : TableRep m num T
  holds : Holds (· % num) ConnectHandle.key T S
  small : ∀ fd ∈ S, fd < 2 ^ 31

/-- The deletion of a descriptor is in range. -/
def DelInRange (m : WordMem) (num fd : ℕ) : Prop :=
  ∀ j, delPos m (fd % num) (BitVec.ofNat 32 fd) = some j →
    ClearInRange (fd % num) j (getConnetCount m (fd % num))

/-- The deletions of a time-out are in range: it deletes the first entry of a shard, as long as that
is expired. -/
def CleanInRange (m : WordMem) (num : ℕ) (idletime now : BitVec 32) : Prop :=
  ∀ i < num, timedOut m idletime now i 0 → ClearInRange i 0 (getConnetCount m i)

theorem tableHolds_init (num : ℕ) : TableHolds (commInit num) num ∅ (fun _ ↦ []) where
  rep := (commInit_rep num).1
  holds := Holds.empty
  small fd hfd := absurd hfd (Set.notMem_empty fd)

namespace TableHolds

variable {m m' : WordMem} {num i j fd : ℕ} {S : Set ℕ} {T : ℕ → List ConnectHandle}

theorem index_lt (h : TableHolds m num S T) (hnum : 0 < num) {c : ConnectHandle} (hc : c ∈ T i) :
    i < num := by
  rw [← h.holds.home i c hc]
  exact Nat.mod_lt _ hnum

/-- An open descriptor has a connection in its shard. -/
theorem exists_of_mem (h : TableHolds m num S T) (hfd : fd ∈ S) : ∃ c ∈ T (fd % num), c.key = fd :=
  (h.holds.mem_iff fd).1 hfd

/-! ### Accepting -/

/-- **`new_accept`** adds a descriptor that is not open. -/
theorem accept (h : TableHolds m num S T) (hnum : 0 < num) (hfd : fd < 2 ^ 31) (hnew : fd ∉ S)
    (hlt : (T (fd % num)).length < maxFdNum) (gssn now : BitVec 32) :
    ∃ m', newAccept m num gssn fd now = some (m', gssn + 1) ∧
      TableHolds m' num (insert fd S) (Function.update T (fd % num)
        (T (fd % num) ++ [⟨BitVec.ofNat 32 fd, gssn, now, fdStatReg⟩])) ∧
      ∀ k, getCommClientNum m' k = getCommClientNum m k := by
  obtain ⟨m', hacc, hT, hnums⟩ := h.rep.newAccept_rep hnum hfd hlt gssn now
  have hkey : (⟨BitVec.ofNat 32 fd, gssn, now, fdStatReg⟩ : ConnectHandle).key = fd :=
    (ConnectHandle.key_eq_iff _ hfd).2 rfl
  refine ⟨m', hacc, ⟨hT, ?_, ?_⟩, hnums⟩
  · have happ := h.holds.append (a := ⟨BitVec.ofNat 32 fd, gssn, now, fdStatReg⟩)
      (by rwa [hkey])
    rwa [hkey] at happ
  · rintro k (rfl | hk)
    · exact hfd
    · exact h.small k hk

/-! ### Statuses and counters -/

/-- A status is stored into the slot of a connection. -/
theorem setStat (h : TableHolds m num S T) (hi : i < num) (hj : j < (T i).length) (v : BitVec 8) :
    TableHolds (setCommClientStat m i j v) num S
      (Function.update T i ((T i).set j { (T i)[j] with status := v })) ∧
    ∀ k, getCommClientNum (setCommClientStat m i j v) k = getCommClientNum m k := by
  obtain ⟨hrep, hsame⟩ := (h.rep i hi).setStat_rep hj v
  refine ⟨⟨h.rep.update hrep hsame, h.holds.congr_keys ?_, h.small⟩, hsame.num⟩
  -- the key of the entry is not its status
  rw [List.map_set]
  show ((T i).map ConnectHandle.key).set j (T i)[j].key = _
  rw [← List.getElem_map ConnectHandle.key (h := by rwa [List.length_map])]
  exact List.set_getElem_self _

theorem setNum (h : TableHolds m num S T) (k : ℕ) (v : BitVec 32) :
    TableHolds (setCommClientNum m k v) num S T where
  rep i hi := (h.rep i hi).setNum_rep k v
  holds := h.holds
  small := h.small

/-! ### Deleting -/

/-- The slot of a deletion holds the only connection with the descriptor. -/
theorem eraseIdx_eq (h : TableHolds m num S T) (hnum : 0 < num) (hfd : fd < 2 ^ 31)
    (hpos : delPos m (fd % num) (BitVec.ofNat 32 fd) = some j) :
    (T (fd % num)).eraseIdx j = (T (fd % num)).filter (·.key ≠ fd) := by
  rw [(h.rep _ (Nat.mod_lt _ hnum)).delPos_rep, fd_beq_eq hfd] at hpos
  exact eraseIdx_eq_filter (h.holds.nodup _) hpos

/-- The lists after a deletion in range. -/
theorem delConnectFd_rep (h : TableHolds m num S T) (hnum : 0 < num) (hmax : num ≤ maxTreadNum)
    (hfd : fd < 2 ^ 31) (hrange : DelInRange m num fd) :
    TableRep (delConnectFd m num fd) num
      (Function.update T (fd % num) ((T (fd % num)).filter (·.key ≠ fd))) := by
  have hi : fd % num < num := Nat.mod_lt _ hnum
  cases hpos : delPos m (fd % num) (BitVec.ofNat 32 fd) with
  | none =>
    rw [delConnectFd_none hpos]
    rw [(h.rep _ hi).delPos_rep, fd_beq_eq hfd, List.findIdx?_eq_none_iff] at hpos
    have hself : (T (fd % num)).filter (·.key ≠ fd) = T (fd % num) :=
      List.filter_eq_self.2 fun c hc ↦ by simpa using hpos c hc
    rw [hself, Function.update_eq_self]
    exact h.rep
  | some j =>
    have hT := (h.rep.delConnectFd_some hmax hi hpos (hrange j hpos)).1
    rwa [h.eraseIdx_eq hnum hfd hpos] at hT

/-- **`del_connect_fd` in range** takes away one descriptor. -/
theorem del (h : TableHolds m num S T) (hnum : 0 < num) (hmax : num ≤ maxTreadNum)
    (hfd : fd < 2 ^ 31) (hrange : DelInRange m num fd) :
    TableHolds (delConnectFd m num fd) num (S \ {fd})
      (Function.update T (fd % num) ((T (fd % num)).filter (·.key ≠ fd))) where
  rep := h.delConnectFd_rep hnum hmax hfd hrange
  holds := h.holds.delete fd
  small k hk := h.small k hk.1

/-- A deletion in range changes a counter only if the connection was waiting to be read, and then the
one with the number of its slot. -/
theorem num_del (h : TableHolds m num S T) (hnum : 0 < num) (hmax : num ≤ maxTreadNum)
    (hrange : DelInRange m num fd) (k : ℕ) :
    getCommClientNum (delConnectFd m num fd) k =
      if delPos m (fd % num) (BitVec.ofNat 32 fd) = some k ∧
        getCommClientStat m (fd % num) k = fdStatPoll then decNum (getCommClientNum m k)
      else getCommClientNum m k := by
  cases hpos : delPos m (fd % num) (BitVec.ofNat 32 fd) with
  | none =>
    rw [delConnectFd_none hpos, if_neg]
    simp
  | some j =>
    rw [(h.rep.delConnectFd_some hmax (Nat.mod_lt _ hnum) hpos (hrange j hpos)).2 k]
    by_cases hk : k = j
    · subst hk
      simp
    · rw [if_neg fun h' ↦ hk h'.2, if_neg fun h' ↦ hk (Option.some.inj h'.1).symm]

/-- The connection at the slot of a deletion. -/
theorem of_delPos (h : TableHolds m num S T) (hnum : 0 < num) (hfd : fd < 2 ^ 31)
    (hpos : delPos m (fd % num) (BitVec.ofNat 32 fd) = some j) :
    ∃ hj : j < (T (fd % num)).length, (T (fd % num))[j].key = fd := by
  rw [(h.rep _ (Nat.mod_lt _ hnum)).delPos_rep, fd_beq_eq hfd] at hpos
  obtain ⟨hj, hkey, -⟩ := List.findIdx?_eq_some_iff_getElem.1 hpos
  exact ⟨hj, by simpa using hkey⟩

/-! ### Time-outs -/

/-- The lists after a time-out in range. -/
theorem cleanTimeOutConnect_rep (h : TableHolds m num S T) (hmax : num ≤ maxTreadNum)
    {idletime now : BitVec 32} {fuel : ℕ} (hrange : CleanInRange m num idletime now)
    {r : WordMem × List (BitVec 32)} (hr : cleanTimeOutConnect m num idletime now fuel = some r) :
    TableRep r.1 num (fun k ↦ (T k).dropWhile (·.expired idletime now)) ∧
      (∀ fd, fd ∈ r.2 ↔ ∃ k < num, fd ∈ ((T k).takeWhile (·.expired idletime now)).map (·.fd)) ∧
      ∀ k, getCommClientNum r.1 k = getCommClientNum m k := by
  obtain ⟨m', closed, hclean, hrest⟩ := h.rep.cleanTimeOutConnect_rep hmax
    (Nat.lt_succ_of_le (Nat.le_max_left maxFdNum fuel)) hrange
  have hmono := cleanShards_mono hr (Nat.le_succ_of_le (Nat.le_max_right maxFdNum fuel))
  obtain rfl : (m', closed) = r := Option.some.inj (hclean.symm.trans hmono)
  exact hrest

/-- **`clean_time_out_connect` in range** takes away the descriptors it closes. -/
theorem timeout (h : TableHolds m num S T) (hnum : 0 < num) (hmax : num ≤ maxTreadNum)
    {idletime now : BitVec 32} {fuel : ℕ} (hrange : CleanInRange m num idletime now)
    {r : WordMem × List (BitVec 32)} (hr : cleanTimeOutConnect m num idletime now fuel = some r) :
    TableHolds r.1 num (S \ {fd | BitVec.ofNat 32 fd ∈ r.2})
        (fun k ↦ (T k).dropWhile (·.expired idletime now)) ∧
      ∀ k, getCommClientNum r.1 k = getCommClientNum m k := by
  obtain ⟨hT, hclosed, hnums⟩ := h.cleanTimeOutConnect_rep hmax hrange hr
  refine ⟨⟨hT, ?_, fun k hk ↦ h.small k hk.1⟩, hnums⟩
  have hset : S \ {k | ∃ i, k ∈ ((T i).takeWhile (·.expired idletime now)).map ConnectHandle.key} =
      S \ {fd | BitVec.ofNat 32 fd ∈ r.2} := by
    ext k
    simp only [Set.mem_sdiff, Set.mem_ofPred_eq, hclosed]
    refine and_congr_right fun hk ↦ not_congr ?_
    constructor
    · rintro ⟨i, hi⟩
      obtain ⟨c, hc, hck⟩ := List.mem_map.1 hi
      refine ⟨i, h.index_lt hnum ((List.takeWhile_prefix _).subset hc), List.mem_map.2 ⟨c, hc, ?_⟩⟩
      exact (c.key_eq_iff (h.small k hk)).1 hck
    · rintro ⟨i, -, hi⟩
      obtain ⟨c, hc, hck⟩ := List.mem_map.1 hi
      exact ⟨i, List.mem_map.2 ⟨c, hc, (c.key_eq_iff (h.small k hk)).2 hck⟩⟩
  rw [← hset]
  exact h.holds.dropWhile _

end TableHolds

end Sunda
