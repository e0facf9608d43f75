import Sunda.Base.Guarded
import Sunda.Comm.Commserver.TableHolds

/-!
# Runs of accepts, deletions and time-outs

The connection table under `new_accept`, `del_connect_fd` and `clean_time_out_connect`, each taken
as one atomic step, from the table of `comm_init`. The state carries the descriptors that are open
beside the table, and a new connection gets one that is not.

`TableOk` is the invariant the rest of the server relies on. It holds in every state of a run whose
deletions are all in range (`tableGuard`, `table_invariant`), and fails in
`not_tableOk_of_clear_out_of_range`, where a deletion shifts a block that reaches into the next
shard. The invariant behind it is `TableInv`: the shards hold exactly the open descriptors.
-/

namespace Sunda

/-- The connection table and the descriptors of the connections that are open. -/
structure TableState where
  mem : WordMem
  gssn : BitVec 32
  opened : List ℕ

/-- The steps. A time-out says how many passes its inner loops may take, so that a loop that does not
end is no step. -/
inductive TableAct
  | accept (fd : ℕ) (now : BitVec 32)
  | del (fd : ℕ)
  | timeout (now : BitVec 32) (fuel : ℕ)

/-- One step. A connection that finds no free slot is closed again. -/
def tableStep (num : ℕ) (idletime : BitVec 32) (s : TableState) : TableAct → Option TableState
  | .accept fd now =>
    if fd < 2 ^ 31 ∧ fd ∉ s.opened then
      match newAccept s.mem num s.gssn fd now with
      | some (mem, gssn) => some ⟨mem, gssn, fd :: s.opened⟩
      | none => some s
    else none
  | .del fd =>
    if fd < 2 ^ 31 then some { s with
      mem := delConnectFd s.mem num fd
      opened := s.opened.filter (· ≠ fd) }
    else none
  | .timeout now fuel =>
    (cleanTimeOutConnect s.mem num idletime now fuel).map fun r ↦ { s with
      mem := r.1
      opened := s.opened.filter (BitVec.ofNat 32 · ∉ r.2) }

/-- The system, from the table of `comm_init`. -/
def tableSystem (num : ℕ) (idletime : BitVec 32) : Guarded TableState TableAct :=
  .ofFn (· = ⟨commInit num, 0, []⟩) (tableStep num idletime)

/-! ### What is claimed of a state and of a step -/

/-- The occupied slots are a front of every shard; an open descriptor is in exactly one slot, in its
own shard; and no other descriptor is in the table. -/
structure TableOk (num : ℕ) (s : TableState) : Prop where
  front : ∀ i < num, ∃ c ≤ maxFdNum, ∀ j < maxFdNum, getCommClientFD s.mem i j ≠ -1 ↔ j < c
  unique : ∀ fd ∈ s.opened, ∃! p : ℕ × ℕ, p.1 < num ∧ p.2 < maxFdNum ∧
    getCommClientFD s.mem p.1 p.2 = BitVec.ofNat 32 fd
  home : ∀ fd ∈ s.opened, ∀ i < num, ∀ j < maxFdNum,
    getCommClientFD s.mem i j = BitVec.ofNat 32 fd → i = fd % num
  isOpen : ∀ i < num, ∀ j < maxFdNum, getCommClientFD s.mem i j ≠ -1 →
    (getCommClientFD s.mem i j).toNat ∈ s.opened

/-- The connections of a shard, read off its slots. -/
def shardConns (m : WordMem) (i : ℕ) : List ConnectHandle :=
  (List.range (getConnetCount m i)).map (connect m i)

/-- A deletion leaves the other entries of its shard in their order and every other shard unchanged,
and the block it shifts ends inside the array of its shard. -/
structure DeletionOk (num fd : ℕ) (s s' : TableState) : Prop where
  order : shardConns s'.mem (fd % num) =
    (shardConns s.mem (fd % num)).filter (·.fd ≠ BitVec.ofNat 32 fd)
  others : ∀ i < num, i ≠ fd % num → ∀ j < maxFdNum, connect s'.mem i j = connect s.mem i j
  counters : ∀ i < num, getCommClientNum s'.mem i = getCommClientNum s.mem i
  inBounds : ∀ j, delPos s.mem (fd % num) (BitVec.ofNat 32 fd) = some j →
    j + 1 + (maxFdNum - fd % num - 1) ≤ maxFdNum

/-- A time-out drops a front of every shard and leaves the rest in order. -/
structure TimeoutOk (num : ℕ) (idletime now : BitVec 32) (s s' : TableState) : Prop where
  order : ∀ i < num, shardConns s'.mem i =
    (shardConns s.mem i).dropWhile (·.expired idletime now)
  counters : ∀ i < num, getCommClientNum s'.mem i = getCommClientNum s.mem i

/-- Every deletion of the step is in range. -/
def tableGuard (num : ℕ) (idletime : BitVec 32) (s : TableState) : TableAct → Prop
  | .accept _ _ => True
  | .del fd => DelInRange s.mem num fd
  | .timeout now _ => CleanInRange s.mem num idletime now

/-! ### The invariant -/

/-- The shards hold exactly the open descriptors, and no event has been recorded. -/
structure TableInv (num : ℕ) (s : TableState) (T : ℕ → List ConnectHandle) : Prop extends
    TableHolds s.mem num {fd | fd ∈ s.opened} T where
  reg : ∀ i, ∀ c ∈ T i, c.status = fdStatReg

theorem ShardRep.shardConns_eq {m : WordMem} {i : ℕ} {l : List ConnectHandle}
    (h : ShardRep m i l) : shardConns m i = l := by
  refine List.ext_getElem ?_ fun j hj hj' ↦ ?_
  · rw [shardConns, List.length_map, List.length_range, h.getConnetCount_rep]
  · simp only [shardConns, List.getElem_map, List.getElem_range]
    exact h.slot j hj'

theorem tableInv_init (num : ℕ) : TableInv num ⟨commInit num, 0, []⟩ (fun _ ↦ []) where
  toTableHolds := by simpa using tableHolds_init num
  reg i c hc := absurd hc (by simp)

namespace TableInv

variable {num : ℕ} {s s' : TableState} {T : ℕ → List ConnectHandle} {idletime : BitVec 32}

/-- As no event has been recorded, a deletion in range changes no counter. -/
theorem num_delConnectFd (h : TableInv num s T) (hnum : 0 < num) (hmax : num ≤ maxTreadNum) {fd : ℕ}
    (hfd : fd < 2 ^ 31) (hrange : DelInRange s.mem num fd) (k : ℕ) :
    getCommClientNum (delConnectFd s.mem num fd) k = getCommClientNum s.mem k := by
  rw [h.num_del hnum hmax hrange, if_neg]
  rintro ⟨hpos, hstat⟩
  obtain ⟨hk, -⟩ := h.of_delPos hnum hfd hpos
  rw [(h.rep _ (Nat.mod_lt _ hnum)).stat_eq hk, h.reg _ _ (List.getElem_mem hk)] at hstat
  exact absurd hstat (by decide)

theorem accept (h : TableInv num s T) (hnum : 0 < num) {fd : ℕ} {now : BitVec 32}
    (hs : tableStep num idletime s (.accept fd now) = some s') : ∃ T', TableInv num s' T' := by
  rw [tableStep] at hs
  split at hs
  · next hnew =>
    by_cases hlt : (T (fd % num)).length < maxFdNum
    · obtain ⟨m', hacc, hT, -⟩ := h.toTableHolds.accept hnum hnew.1 hnew.2 hlt s.gssn now
      rw [hacc] at hs
      obtain rfl := Option.some.inj hs
      have hset : insert fd {k | k ∈ s.opened} = {k | k ∈ fd :: s.opened} := by
        ext k
        simp
      refine ⟨_, hset ▸ hT, fun i a ha ↦ ?_⟩
      rcases eq_or_ne i (fd % num) with rfl | hi
      · rw [Function.update_self, List.mem_append, List.mem_singleton] at ha
        rcases ha with ha | rfl
        · exact h.reg _ a ha
        · rfl
      · rw [Function.update_of_ne hi] at ha
        exact h.reg i a ha
    · rw [(h.rep _ (Nat.mod_lt fd hnum)).newAccept_full hlt] at hs
      obtain rfl := Option.some.inj hs
      exact ⟨T, h⟩
  · cases hs

theorem del (h : TableInv num s T) (hnum : 0 < num) (hmax : num ≤ maxTreadNum) {fd : ℕ}
    (hguard : tableGuard num idletime s (.del fd))
    (hs : tableStep num idletime s (.del fd) = some s') : ∃ T', TableInv num s' T' := by
  rw [tableStep] at hs
  split at hs
  · next hfd =>
    obtain rfl := Option.some.inj hs
    have hset : {k | k ∈ s.opened} \ {fd} = {k | k ∈ s.opened.filter (· ≠ fd)} := by
      ext k
      simp
    refine ⟨_, hset ▸ h.toTableHolds.del hnum hmax hfd hguard, fun i c hc ↦ ?_⟩
    rcases eq_or_ne i (fd % num) with rfl | hi
    · rw [Function.update_self] at hc
      exact h.reg _ c (List.mem_of_mem_filter hc)
    · rw [Function.update_of_ne hi] at hc
      exact h.reg i c hc
  · cases hs

theorem timeout (h : TableInv num s T) (hnum : 0 < num) (hmax : num ≤ maxTreadNum)
    {now : BitVec 32} {fuel : ℕ} (hguard : tableGuard num idletime s (.timeout now fuel))
    (hs : tableStep num idletime s (.timeout now fuel) = some s') : ∃ T', TableInv num s' T' := by
  obtain ⟨r, hr, rfl⟩ := Option.map_eq_some_iff.1 hs
  have hset : {k | k ∈ s.opened} \ {k | BitVec.ofNat 32 k ∈ r.2} =
      {k | k ∈ s.opened.filter (BitVec.ofNat 32 · ∉ r.2)} := by
    ext k
    simp
  exact ⟨_, hset ▸ (h.toTableHolds.timeout hnum hmax hguard hr).1,
    fun i c hc ↦ h.reg i c ((List.dropWhile_suffix _).subset hc)⟩

/-- **The step lemma**: every step in range keeps the invariant. -/
theorem step (h : TableInv num s T) (hnum : 0 < num) (hmax : num ≤ maxTreadNum) {a : TableAct}
    (hguard : tableGuard num idletime s a) (hs : tableStep num idletime s a = some s') :
    ∃ T', TableInv num s' T' := by
  cases a with
  | accept fd now => exact h.accept hnum hs
  | del fd => exact h.del hnum hmax hguard hs
  | timeout now fuel => exact h.timeout hnum hmax hguard hs

/-! ### What follows from the invariant -/

/-- A slot holds a descriptor exactly when its list does. -/
theorem fd_eq_iff (h : TableInv num s T) {i j fd : ℕ} (hi : i < num) (hj : j < maxFdNum)
    (hfd : fd < 2 ^ 31) : getCommClientFD s.mem i j = BitVec.ofNat 32 fd ↔
      ((T i)[j]?).map ConnectHandle.key = some fd := by
  have hrep := h.rep i hi
  rcases Nat.lt_or_ge j (T i).length with hlt | hge
  · rw [List.getElem?_eq_getElem hlt, hrep.fd_eq hlt, Option.map_some, Option.some.injEq,
      ConnectHandle.key_eq_iff _ hfd]
  · have hne : getCommClientFD s.mem i j ≠ BitVec.ofNat 32 fd := by
      rw [hrep.free j hge hj]
      intro h0
      have hpos := toInt_ofNat_nonneg hfd
      rw [← h0] at hpos
      exact absurd hpos (by decide)
    simp [hne, hge]

theorem tableOk (h : TableInv num s T) (hnum : 0 < num) : TableOk num s where
  front i hi := by
    refine ⟨_, (h.rep i hi).length_le, fun j hj ↦ ?_⟩
    rw [ne_eq, (h.rep i hi).fd_eq_neg_one_iff hj, Nat.not_le]
  unique fd hfd := by
    obtain ⟨⟨i, j⟩, hp, huniq⟩ := h.holds.existsUnique_index hfd
    have hsmall := h.small fd hfd
    obtain ⟨c, hc, hck⟩ := Option.map_eq_some_iff.1 hp
    obtain ⟨hj, -⟩ := List.getElem?_eq_some_iff.1 hc
    have hi : i < num := by
      rw [← h.holds.home i c (List.mem_of_getElem? hc)]
      exact Nat.mod_lt _ hnum
    have hj' : j < maxFdNum := Nat.lt_of_lt_of_le hj (h.rep i hi).length_le
    refine ⟨(i, j), ⟨hi, hj', (h.fd_eq_iff hi hj' hsmall).2 hp⟩, ?_⟩
    rintro ⟨i', j'⟩ ⟨hi', hj', hfd'⟩
    exact huniq (i', j') ((h.fd_eq_iff hi' hj' hsmall).1 hfd')
  home fd hfd i hi j hj heq := by
    obtain ⟨c, hc, hck⟩ := Option.map_eq_some_iff.1 ((h.fd_eq_iff hi hj (h.small fd hfd)).1 heq)
    rw [← h.holds.home i c (List.mem_of_getElem? hc), hck]
  isOpen i hi j hj hne := by
    have hlt : j < (T i).length := by
      rwa [ne_eq, (h.rep i hi).fd_eq_neg_one_iff hj, Nat.not_le] at hne
    rw [(h.rep i hi).fd_eq hlt]
    exact h.holds.mem (List.getElem_mem hlt)

theorem deletionOk (h : TableInv num s T) (hnum : 0 < num) (hmax : num ≤ maxTreadNum) {fd : ℕ}
    (hguard : tableGuard num idletime s (.del fd))
    (hs : tableStep num idletime s (.del fd) = some s') : DeletionOk num fd s s' := by
  rw [tableStep] at hs
  split at hs
  · next hfd =>
    obtain rfl := Option.some.inj hs
    have hi : fd % num < num := Nat.mod_lt _ hnum
    have hrep := h.delConnectFd_rep hnum hmax hfd hguard _ hi
    rw [Function.update_self] at hrep
    refine ⟨?_, fun i hi' hne j hj ↦ ?_, fun i _ ↦ h.num_delConnectFd hnum hmax hfd hguard i,
      fun j hpos ↦ ?_⟩
    · rw [hrep.shardConns_eq, (h.rep _ hi).shardConns_eq, filter_fd_ne hfd]
    · cases hpos : delPos s.mem (fd % num) (BitVec.ofNat 32 fd) with
      | none =>
        show connect (delConnectFd s.mem num fd) i j = connect s.mem i j
        rw [delConnectFd_none hpos]
      | some k => exact delConnectFd_others hmax hi hpos (hguard k hpos) hne hj
    · have hrange := hguard j hpos
      rw [ClearInRange] at hrange
      rw [maxTreadNum] at hmax
      rw [maxFdNum]
      omega
  · cases hs

theorem timeoutOk (h : TableInv num s T) (hmax : num ≤ maxTreadNum) {now : BitVec 32} {fuel : ℕ}
    (hguard : tableGuard num idletime s (.timeout now fuel))
    (hs : tableStep num idletime s (.timeout now fuel) = some s') :
    TimeoutOk num idletime now s s' := by
  obtain ⟨r, hr, rfl⟩ := Option.map_eq_some_iff.1 hs
  obtain ⟨hT, -, hnums⟩ := h.cleanTimeOutConnect_rep hmax hguard hr
  refine ⟨fun i hi ↦ ?_, fun i _ ↦ hnums i⟩
  have hrep := hT i hi
  beta_reduce at hrep
  rw [hrep.shardConns_eq, (h.rep i hi).shardConns_eq]

end TableInv

/-! ### Runs -/

/-- **The connection table invariant.** In every state of a run whose deletions and time-outs are in
range the table is in order, and a further deletion or time-out in range leaves the other entries
and the other shards alone. -/
theorem table_invariant {num : ℕ} (hnum : 1 ≤ num) (hmax : num ≤ maxTreadNum)
    (idletime : BitVec 32) {s : TableState}
    (h : (tableSystem num idletime).Reach (tableGuard num idletime) s) :
    TableOk num s ∧
    (∀ fd s', tableGuard num idletime s (.del fd) →
      (tableSystem num idletime).step s (.del fd) s' → DeletionOk num fd s s') ∧
    ∀ now fuel s', tableGuard num idletime s (.timeout now fuel) →
      (tableSystem num idletime).step s (.timeout now fuel) s' →
        TimeoutOk num idletime now s s' := by
  have hinv : ∃ T, TableInv num s T := by
    refine h.invariant (I := fun s ↦ ∃ T, TableInv num s T) ?_ ?_
    · rintro s rfl
      exact ⟨_, tableInv_init num⟩
    · rintro s a s' ⟨T, hT⟩ hguard hstep
      exact hT.step hnum hmax hguard hstep
  obtain ⟨T, hT⟩ := hinv
  exact ⟨hT.tableOk hnum, fun fd s' hguard hstep ↦ hT.deletionOk hnum hmax hguard hstep,
    fun now fuel s' hguard hstep ↦ hT.timeoutOk hmax hguard hstep⟩

/-- A connection that finds a free slot is a step. -/
theorem step_accept {num fd : ℕ} {idletime now gssn : BitVec 32} {s : TableState} {m' : WordMem}
    (hfd : fd < 2 ^ 31) (hnew : fd ∉ s.opened)
    (h : newAccept s.mem num s.gssn fd now = some (m', gssn)) :
    (tableSystem num idletime).step s (.accept fd now) ⟨m', gssn, fd :: s.opened⟩ := by
  show tableStep num idletime s _ = _
  rw [tableStep, if_pos ⟨hfd, hnew⟩, h]

/-- One connection in a table of two shards, deleted again. -/
theorem table_invariant_two : ∃ s s', s.opened = [4] ∧ s'.opened = [] ∧
    (tableSystem 2 60).step s (.del 4) s' ∧ TableOk 2 s ∧ DeletionOk 2 4 s s' := by
  have hfour : 4 < 2 ^ 31 := by decide
  obtain ⟨m, hacc, hT, -⟩ := (commInit_rep 2).1.newAccept_rep (by decide) hfour (by decide) 0 100
  have hreach : (tableSystem 2 60).Reach (tableGuard 2 60) ⟨m, 0 + 1, [4]⟩ :=
    .step (a := .accept 4 100) (.init rfl) trivial (step_accept hfour (by decide) hacc)
  have hpos : delPos m 0 4 = some 0 := by
    rw [(hT 0 (by decide)).delPos_rep]
    decide
  have hguard : tableGuard 2 60 ⟨m, 0 + 1, [4]⟩ (.del 4) := fun j hj ↦
    .inl (Option.some.inj (hj.symm.trans hpos))
  obtain ⟨hok, hdel, -⟩ := table_invariant (by decide) (by decide) 60 hreach
  exact ⟨_, _, rfl, rfl, rfl, hok, hdel 4 _ hguard rfl⟩

/-- Four connections in a table of two shards, and the third of the first shard is deleted: the block
reaches into the second shard, whose only connection is lost. -/
theorem not_tableOk_of_clear_out_of_range :
    ∃ s, (tableSystem 2 60).Reach Guarded.always s ∧ ¬ TableOk 2 s := by
  have h4 : 4 < 2 ^ 31 := by decide
  have h6 : 6 < 2 ^ 31 := by decide
  have h8 : 8 < 2 ^ 31 := by decide
  have h5 : 5 < 2 ^ 31 := by decide
  obtain ⟨m1, a1, r1, -⟩ := (commInit_rep 2).1.newAccept_rep (by decide) h4 (by decide) 0 100
  obtain ⟨m2, a2, r2, -⟩ := r1.newAccept_rep (by decide) h6 (by decide) 1 100
  obtain ⟨m3, a3, r3, -⟩ := r2.newAccept_rep (by decide) h8 (by decide) 2 100
  obtain ⟨m4, a4, r4, -⟩ := r3.newAccept_rep (by decide) h5 (by decide) 3 100
  have hreach : (tableSystem 2 60).Reach Guarded.always ⟨m4, 3 + 1, [5, 8, 6, 4]⟩ :=
    .step (.step (.step (.step (.init rfl)
      trivial (step_accept h4 (by simp) a1)) trivial (step_accept h6 (by simp) a2))
      trivial (step_accept h8 (by simp) a3)) trivial (step_accept h5 (by simp) a4)
  have hs0 : ShardRep m4 0 [⟨4, 0, 100, fdStatReg⟩, ⟨6, 1, 100, fdStatReg⟩, ⟨8, 2, 100, fdStatReg⟩] :=
    r4 0 (by decide)
  have hs1 : ShardRep m4 1 [⟨5, 3, 100, fdStatReg⟩] := r4 1 (by decide)
  have hpos : delPos m4 (8 % 2) (BitVec.ofNat 32 8) = some 2 := by
    rw [hs0.delPos_rep]
    decide
  have hstat : getCommClientStat m4 0 2 = fdStatReg := hs0.stat_eq (by decide)
  -- the block moves `connect[1].fd` of the second shard, a free slot, to `connect[0].fd`
  have hlost : getCommClientFD (delConnectFd m4 2 8) 1 0 = -1 := by
    rw [delConnectFd, hpos, Option.elim_some, delSlot, if_neg (by rw [hstat]; decide)]
    have hout := sameOutsideSlot_initConnect
      (m4.copy (connectAt 0 2) (connectAt 0 3) (sizeofConnect * (maxFdNum - 0 - 1))) 0
      (maxFdNum - 1) (connectAt 1 0) (.inr (by decide))
    exact (hout.trans (WordMem.copy_inside m4 (by decide) (by decide))).trans
      (hs1.free 1 (by decide) (by decide))
  refine ⟨_, hreach.step trivial (a := .del 8) rfl, fun hok ↦ ?_⟩
  obtain ⟨⟨i, j⟩, ⟨hi, hj, hfd⟩, -⟩ := hok.unique 5 (by simp)
  obtain rfl : i = 1 := hok.home 5 (by simp) i hi j hj hfd
  obtain ⟨c, -, hc⟩ := hok.front 1 (by decide)
  have hc0 : ¬ 0 < c := fun h0 ↦ (hc 0 (by decide)).2 h0 hlost
  have hne : getCommClientFD (delConnectFd m4 2 8) 1 j ≠ -1 := by
    rw [hfd]
    decide
  have := (hc j hj).1 hne
  omega

end Sunda
