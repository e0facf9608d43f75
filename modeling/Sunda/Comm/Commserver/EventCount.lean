import Sunda.Comm.Commserver.Sections
import Sunda.Comm.Commserver.TableInvariant

/-!
# Recorded events and their counter

An interleaving of the mutex-protected sections: the main loop records events, readers claim
connections, the writer marks connections, connections are deleted. Accepts and time-outs, which the
main loop does without the mutex, are steps too.

Two things keep a recorded event alive. The status of its connection stays `FD_STAT_POLL` until a
reader claims it or the connection is deleted (`EventKept`); and the counter of the shard is at least
the number of connections with that status (`EventInv`), so that the reader does not wait. Both hold
in every run that keeps to `sectionGuard` (`events_not_lost`). The status does not survive a reply
that is written while a further request is recorded: `event_lost_by_write`.
-/

namespace Sunda

/-! ### The system -/

/-- The steps: one for every section, and the accepts and time-outs of the main loop. -/
inductive SectionAct
  | accept (fd : ℕ) (now : BitVec 32)
  | timeout (now : BitVec 32) (fuel : ℕ)
  /-- The `EPOLLIN` branch of the main loop. -/
  | poll (fd : ℕ)
  /-- The first section of `read_task`, of the reader of a shard. -/
  | claim (idx : ℕ)
  /-- `del_connect_fd`, after a failed read and in the last branch of the main loop. -/
  | del (fd : ℕ)
  /-- The section of `write_task`, for a reply with this descriptor and connection number. -/
  | write (junk : ℤ) (fd connSsn : BitVec 32)

/-- One step. A reader that finds the counter at 0 waits, which is no step. -/
def sectionStep (num : ℕ) (idletime : BitVec 32) (s : TableState) : SectionAct → Option TableState
  | .accept fd now => tableStep num idletime s (.accept fd now)
  | .timeout now fuel => tableStep num idletime s (.timeout now fuel)
  | .del fd => tableStep num idletime s (.del fd)
  | .poll fd =>
    if fd < 2 ^ 31 then
      some ((getConnectPos s.mem (fd % num) (BitVec.ofNat 32 fd)).elim
        { s with mem := pollEvent s.mem num fd, opened := s.opened.filter (· ≠ fd) }
        fun _ ↦ { s with mem := pollEvent s.mem num fd })
    else none
  | .claim idx =>
    if idx < num then
      match readClaim s.mem idx with
      | .wait => none
      | .reset mem => some { s with mem := mem }
      | .claimed mem _ _ => some { s with mem := mem }
    else none
  | .write junk fd connSsn =>
    if 0 ≤ fd.toInt then
      some ((writeMark s.mem num junk fd connSsn).elim s fun mem ↦ { s with mem := mem })
    else none

/-- The system, from the start of the server. -/
def sectionSystem (num : ℕ) (idletime : BitVec 32) : Guarded TableState SectionAct :=
  .ofFn (· = ⟨commInit num, 0, []⟩) (sectionStep num idletime)

/-! ### What is claimed -/

/-- The connection with the descriptor `fd` has the status `FD_STAT_POLL`. -/
def Waiting (m : WordMem) (num fd : ℕ) : Prop :=
  ∃ j < maxFdNum, getCommClientFD m (fd % num) j = BitVec.ofNat 32 fd ∧
    getCommClientStat m (fd % num) j = fdStatPoll

/-- The step is a reader's claim of the connection with the descriptor `fd`. -/
def Claims (s : TableState) (a : SectionAct) (fd : ℕ) : Prop :=
  ∃ idx mem pos tClient, a = .claim idx ∧ readClaim s.mem idx = .claimed mem pos tClient ∧
    tClient.fd = BitVec.ofNat 32 fd

/-- A step that does not lose the recorded event of `fd`: it is still recorded, or claimed by the step,
or the connection is closed. -/
def EventKept (num : ℕ) (s : TableState) (a : SectionAct) (s' : TableState) (fd : ℕ) : Prop :=
  Waiting s'.mem num fd ∨ Claims s a fd ∨ fd ∉ s'.opened

/-- In a shard with a recorded event the counter is positive. -/
def CounterOk (num : ℕ) (s : TableState) : Prop :=
  ∀ i < num, (∃ j < maxFdNum, getCommClientFD s.mem i j ≠ -1 ∧
    getCommClientStat s.mem i j = fdStatPoll) → 0 < (getCommClientNum s.mem i).toInt

/-! ### The condition on a step -/

/-- Deletions are in range; a deletion of a connection with a recorded event is at the slot with the
number of the shard; an event does not overflow the counter; and a reply is looked up in a shard with
a free slot or its number, and not for a connection with a recorded event. -/
def sectionGuard (num : ℕ) (idletime : BitVec 32) (s : TableState) : SectionAct → Prop
  | .accept _ _ => True
  | .timeout now _ => CleanInRange s.mem num idletime now
  | .del fd => DelInRange s.mem num fd ∧ ∀ j < maxFdNum,
      getCommClientFD s.mem (fd % num) j = BitVec.ofNat 32 fd →
        getCommClientStat s.mem (fd % num) j = fdStatPoll → j = fd % num
  | .poll fd => (getCommClientNum s.mem (fd % num)).toInt < 2 ^ 31 - 1
  | .claim _ => True
  | .write _ fd connSsn =>
    (ShardFree s.mem (fd.toNat % num) ∨ HasSsn s.mem (fd.toNat % num) connSsn) ∧
    ∀ j < maxFdNum, getCommClientFD s.mem (fd.toNat % num) j ≠ -1 →
      getCommClientSsn s.mem (fd.toNat % num) j = connSsn →
        getCommClientStat s.mem (fd.toNat % num) j ≠ fdStatPoll

/-! ### Counting -/

/-- An event is recorded for the connection. -/
def ConnectHandle.waiting (c : ConnectHandle) : Bool := c.status == fdStatPoll

theorem ConnectHandle.waiting_iff {c : ConnectHandle} : c.waiting = true ↔ c.status = fdStatPoll :=
  beq_iff_eq

theorem toInt_add_one {x : BitVec 32} (h : x.toInt < 2 ^ 31 - 1) : (x + 1).toInt = x.toInt + 1 := by
  have hlow := x.le_toInt
  rw [BitVec.toInt_add, show (1 : BitVec 32).toInt = 1 by decide, Int.bmod_def]
  omega

theorem toInt_sub_one {x : BitVec 32} (h : 0 < x.toInt) : (x - 1).toInt = x.toInt - 1 := by
  have hlow := x.toInt_lt
  rw [BitVec.toInt_sub, show (1 : BitVec 32).toInt = 1 by decide, Int.bmod_def]
  omega

/-- One entry is erased. -/
theorem countP_waiting_eraseIdx {l : List ConnectHandle} {j : ℕ} (hj : j < l.length) :
    (l.eraseIdx j).countP ConnectHandle.waiting + l[j].waiting.toNat =
      l.countP ConnectHandle.waiting := by
  rw [← (List.getElem_cons_eraseIdx_perm hj).countP_eq, List.countP_cons]
  cases l[j].waiting <;> rfl

/-- One entry is replaced. -/
theorem countP_waiting_set {l : List ConnectHandle} {j : ℕ} (hj : j < l.length) (c : ConnectHandle) :
    (l.set j c).countP ConnectHandle.waiting + l[j].waiting.toNat =
      l.countP ConnectHandle.waiting + c.waiting.toNat := by
  have hset : (l.set j c).countP ConnectHandle.waiting =
      (l.eraseIdx j).countP ConnectHandle.waiting + c.waiting.toNat := by
    rw [(List.set_perm_cons_eraseIdx hj c).countP_eq, List.countP_cons]
    cases c.waiting <;> rfl
  have herase := countP_waiting_eraseIdx hj
  omega

/-! ### The invariant -/

/-- The shards hold the open descriptors, and each counter is at least the number of recorded events
of its shard. -/
structure EventInv (num : ℕ) (s : TableState) (T : ℕ → List ConnectHandle) : Prop extends
    TableHolds s.mem num {fd | fd ∈ s.opened} T where
  counted : ∀ i < num, ((T i).countP ConnectHandle.waiting : ℤ) ≤ (getCommClientNum s.mem i).toInt

theorem eventInv_init (num : ℕ) : EventInv num ⟨commInit num, 0, []⟩ (fun _ ↦ []) where
  toTableHolds := by simpa using tableHolds_init num
  counted i hi := by
    rw [(commInit_rep num).2 i hi]
    decide

namespace EventInv

variable {num : ℕ} {s s' : TableState} {T T' : ℕ → List ConnectHandle} {idletime : BitVec 32}

/-- A recorded event is an entry of the list of its shard. -/
theorem waiting_iff (h : TableHolds s.mem num {fd | fd ∈ s.opened} T) (hnum : 0 < num) {fd : ℕ}
    (hfd : fd < 2 ^ 31) :
    Waiting s.mem num fd ↔ ∃ c ∈ T (fd % num), c.key = fd ∧ c.waiting = true := by
  have hrep := h.rep _ (Nat.mod_lt fd hnum)
  constructor
  · rintro ⟨j, hj, hslot, hstat⟩
    have hlt : j < (T (fd % num)).length := by
      by_contra hge
      rw [hrep.free j (by omega) hj] at hslot
      have hpos := toInt_ofNat_nonneg hfd
      rw [← hslot] at hpos
      exact absurd hpos (by decide)
    refine ⟨_, List.getElem_mem hlt, ?_, ?_⟩
    · rw [ConnectHandle.key_eq_iff _ hfd, ← hrep.fd_eq hlt, hslot]
    · rw [ConnectHandle.waiting_iff, ← hrep.stat_eq hlt, hstat]
  · rintro ⟨c, hc, hkey, hwait⟩
    obtain ⟨j, hj, rfl⟩ := List.mem_iff_getElem.1 hc
    refine ⟨j, Nat.lt_of_lt_of_le hj hrep.length_le, ?_, ?_⟩
    · rw [hrep.fd_eq hj, ← ConnectHandle.key_eq_iff _ hfd, hkey]
    · rw [hrep.stat_eq hj, ← ConnectHandle.waiting_iff, hwait]

/-- A reader does not wait while an event of its shard is recorded. -/
theorem counterOk (h : EventInv num s T) : CounterOk num s := by
  rintro i hi ⟨j, hj, hfd, hstat⟩
  have hrep := h.rep i hi
  have hlt : j < (T i).length := by rwa [ne_eq, hrep.fd_eq_neg_one_iff hj, Nat.not_le] at hfd
  have hpos : 0 < (T i).countP ConnectHandle.waiting :=
    List.countP_pos_iff.2 ⟨_, List.getElem_mem hlt, by
      rw [ConnectHandle.waiting_iff, ← hrep.stat_eq hlt, hstat]⟩
  have hle := h.counted i hi
  omega

/-! ### What a step keeps -/

/-- The entry of a recorded event is still there, still with the status. -/
theorem kept_of_mem {a : SectionAct}
    (hT' : TableHolds s'.mem num {fd | fd ∈ s'.opened} T') (hnum : 0 < num) {fd : ℕ}
    (hfd : fd < 2 ^ 31) {c : ConnectHandle} (hc : c ∈ T' (fd % num)) (hkey : c.key = fd)
    (hwait : c.waiting = true) : EventKept num s a s' fd :=
  .inl ((waiting_iff hT' hnum hfd).2 ⟨c, hc, hkey, hwait⟩)

/-- Entries are deleted, the others stay as they are. -/
theorem kept_of_subset {a : SectionAct} (hT : TableHolds s.mem num {fd | fd ∈ s.opened} T)
    (hT' : TableHolds s'.mem num {fd | fd ∈ s'.opened} T') (hnum : 0 < num)
    (hsub : ∀ i, T' i ⊆ T i) {fd : ℕ} (hfd : fd < 2 ^ 31) (hwait : Waiting s.mem num fd) :
    EventKept num s a s' fd := by
  obtain ⟨c, hc, hkey, hw⟩ := (waiting_iff hT hnum hfd).1 hwait
  by_cases hopen : fd ∈ s'.opened
  · obtain ⟨c', hc', hkey'⟩ := hT'.exists_of_mem hopen
    obtain ⟨-, rfl⟩ := hT.holds.eq_of_key_eq hc (hsub _ hc') (hkey.trans hkey'.symm)
    exact kept_of_mem hT' hnum hfd hc' hkey hw
  · exact .inr (.inr hopen)

/-- Replacing one entry keeps the others. -/
theorem mem_set_or_eq {l : List ConnectHandle} {j : ℕ} (hj : j < l.length) (x : ConnectHandle)
    {c : ConnectHandle} (hc : c ∈ l) : c ∈ l.set j x ∨ c = l[j] := by
  obtain ⟨k, hk, rfl⟩ := List.mem_iff_getElem.1 hc
  rcases eq_or_ne j k with rfl | hne
  · exact .inr rfl
  · refine .inl (List.mem_iff_getElem.2 ⟨k, by rwa [List.length_set], ?_⟩)
    exact List.getElem_set_ne hne _

/-- One entry gets another status: the entries of the other recorded events stay. -/
theorem kept_of_set {a : SectionAct} {i j : ℕ} (hT : TableHolds s.mem num {fd | fd ∈ s.opened} T)
    (hj : j < (T i).length) {v : BitVec 8}
    (hT' : TableHolds s'.mem num {fd | fd ∈ s'.opened}
      (Function.update T i ((T i).set j { (T i)[j] with status := v }))) (hnum : 0 < num) {fd : ℕ}
    (hfd : fd < 2 ^ 31) (hwait : Waiting s.mem num fd)
    (hself : (T i)[j].key = fd → (T i)[j].waiting = true → v = fdStatPoll ∨ Claims s a fd) :
    EventKept num s a s' fd := by
  obtain ⟨c, hc, hkey, hw⟩ := (waiting_iff hT hnum hfd).1 hwait
  rcases eq_or_ne (fd % num) i with rfl | hne
  · rcases mem_set_or_eq hj { (T (fd % num))[j] with status := v } hc with hmem | rfl
    · exact kept_of_mem hT' hnum hfd (by rwa [Function.update_self]) hkey hw
    · rcases hself hkey hw with rfl | hclaim
      · refine kept_of_mem hT' hnum hfd (c := { (T (fd % num))[j] with status := fdStatPoll }) ?_ hkey
          (ConnectHandle.waiting_iff.2 rfl)
        rw [Function.update_self]
        exact List.mem_set hj _
      · exact .inr (.inl hclaim)
  · exact kept_of_mem hT' hnum hfd (by rwa [Function.update_of_ne hne]) hkey hw

/-! ### Steps -/

theorem accept (h : EventInv num s T) (hnum : 0 < num) {fd : ℕ} {now : BitVec 32}
    (hs : tableStep num idletime s (.accept fd now) = some s') :
    ∃ T', EventInv num s' T' ∧ ∀ fd' < 2 ^ 31, Waiting s.mem num fd' →
      EventKept num s (.accept fd now) s' fd' := by
  rw [tableStep] at hs
  split at hs
  · next hnew =>
    by_cases hlt : (T (fd % num)).length < maxFdNum
    · obtain ⟨m', hacc, hT, hnums⟩ := h.toTableHolds.accept hnum hnew.1 hnew.2 hlt s.gssn now
      rw [hacc] at hs
      obtain rfl := Option.some.inj hs
      have hset : insert fd {k | k ∈ s.opened} = {k | k ∈ fd :: s.opened} := by
        ext k
        simp
      rw [hset] at hT
      refine ⟨_, ⟨hT, fun i hi ↦ ?_⟩, fun fd' hfd' hwait ↦ ?_⟩
      · show _ ≤ (getCommClientNum m' i).toInt
        rw [hnums]
        rcases eq_or_ne i (fd % num) with rfl | hne
        · rw [Function.update_self, List.countP_append]
          exact h.counted _ hi
        · rw [Function.update_of_ne hne]
          exact h.counted i hi
      · obtain ⟨c, hc, hkey, hw⟩ := (waiting_iff h.toTableHolds hnum hfd').1 hwait
        refine kept_of_mem hT hnum hfd' (c := c) ?_ hkey hw
        rcases eq_or_ne (fd' % num) (fd % num) with heq | hne
        · rw [heq, Function.update_self, ← heq]
          exact List.mem_append_left _ hc
        · rwa [Function.update_of_ne hne]
    · rw [(h.rep _ (Nat.mod_lt fd hnum)).newAccept_full hlt] at hs
      obtain rfl := Option.some.inj hs
      exact ⟨T, h, fun _ _ hwait ↦ .inl hwait⟩
  · cases hs

theorem timeout (h : EventInv num s T) (hnum : 0 < num) (hmax : num ≤ maxTreadNum)
    {now : BitVec 32} {fuel : ℕ} (hguard : sectionGuard num idletime s (.timeout now fuel))
    (hs : tableStep num idletime s (.timeout now fuel) = some s') :
    ∃ T', EventInv num s' T' ∧ ∀ fd' < 2 ^ 31, Waiting s.mem num fd' →
      EventKept num s (.timeout now fuel) s' fd' := by
  obtain ⟨r, hr, rfl⟩ := Option.map_eq_some_iff.1 hs
  obtain ⟨hT, hnums⟩ := h.toTableHolds.timeout hnum hmax hguard hr
  have hset : {k | k ∈ s.opened} \ {k | BitVec.ofNat 32 k ∈ r.2} =
      {k | k ∈ s.opened.filter (BitVec.ofNat 32 · ∉ r.2)} := by
    ext k
    simp
  rw [hset] at hT
  refine ⟨_, ⟨hT, fun i hi ↦ ?_⟩, fun fd' hfd' hwait ↦ kept_of_subset h.toTableHolds hT hnum
    (fun i ↦ (List.dropWhile_suffix _).subset) hfd' hwait⟩
  show _ ≤ (getCommClientNum r.1 i).toInt
  rw [hnums]
  have hle := (List.dropWhile_suffix (l := T i) (·.expired idletime now)).sublist.countP_le
    (p := ConnectHandle.waiting)
  have hcount := h.counted i hi
  omega

/-- A deletion takes at most the event of the deleted connection from a counter, and only from the
counter of its own shard. -/
theorem counted_del (h : EventInv num s T) (hnum : 0 < num) (hmax : num ≤ maxTreadNum) {fd : ℕ}
    (hfd : fd < 2 ^ 31) (hguard : sectionGuard num idletime s (.del fd)) {i : ℕ} (hi : i < num) :
    ((Function.update T (fd % num) ((T (fd % num)).filter (·.key ≠ fd)) i).countP
      ConnectHandle.waiting : ℤ) ≤ (getCommClientNum (delConnectFd s.mem num fd) i).toInt := by
  have hrep := h.rep _ (Nat.mod_lt fd hnum)
  have hcount := h.counted i hi
  rw [h.num_del hnum hmax hguard.1]
  split
  · next hpoll =>
    obtain ⟨hpos, hstat⟩ := hpoll
    obtain ⟨hj, hkey⟩ := h.of_delPos hnum hfd hpos
    have hslot : getCommClientFD s.mem (fd % num) i = BitVec.ofNat 32 fd := by
      rw [hrep.fd_eq hj, ← ConnectHandle.key_eq_iff _ hfd, hkey]
    -- the slot with the number of the shard
    obtain rfl : i = fd % num :=
      hguard.2 i (Nat.lt_of_lt_of_le hj hrep.length_le) hslot hstat
    have herase := countP_waiting_eraseIdx hj
    have hwait : (T (fd % num))[fd % num].waiting = true := by
      rw [ConnectHandle.waiting_iff, ← hrep.stat_eq hj, hstat]
    rw [hwait, Bool.toNat_true] at herase
    have hpositive : 0 < (getCommClientNum s.mem (fd % num)).toInt := by omega
    have hne : getCommClientNum s.mem (fd % num) ≠ 0 := fun h0 ↦ by
      rw [h0] at hpositive
      exact absurd hpositive (by decide)
    rw [Function.update_self, ← h.eraseIdx_eq hnum hfd hpos, decNum, if_neg hne,
      toInt_sub_one (by omega)]
    omega
  · rcases eq_or_ne i (fd % num) with rfl | hne
    · rw [Function.update_self]
      have hle := (List.filter_sublist (l := T (fd % num)) (p := (·.key ≠ fd))).countP_le
        (p := ConnectHandle.waiting)
      omega
    · rw [Function.update_of_ne hne]
      exact hcount

theorem del (h : EventInv num s T) (hnum : 0 < num) (hmax : num ≤ maxTreadNum) {fd : ℕ}
    (hguard : sectionGuard num idletime s (.del fd))
    (hs : tableStep num idletime s (.del fd) = some s') :
    ∃ T', EventInv num s' T' ∧ ∀ fd' < 2 ^ 31, Waiting s.mem num fd' →
      EventKept num s (.del fd) s' fd' := by
  rw [tableStep] at hs
  split at hs
  · next hfd =>
    obtain rfl := Option.some.inj hs
    have hT := h.toTableHolds.del hnum hmax hfd hguard.1
    have hset : {k | k ∈ s.opened} \ {fd} = {k | k ∈ s.opened.filter (· ≠ fd)} := by
      ext k
      simp
    rw [hset] at hT
    refine ⟨_, ⟨hT, fun i hi ↦ h.counted_del hnum hmax hfd hguard hi⟩, fun fd' hfd' hwait ↦
      kept_of_subset h.toTableHolds hT hnum (fun i c hc ↦ ?_) hfd' hwait⟩
    rcases eq_or_ne i (fd % num) with rfl | hne
    · rw [Function.update_self] at hc
      exact List.mem_of_mem_filter hc
    · rwa [Function.update_of_ne hne] at hc
  · cases hs

theorem poll (h : EventInv num s T) (hnum : 0 < num) {fd : ℕ}
    (hguard : sectionGuard num idletime s (.poll fd))
    (hs : sectionStep num idletime s (.poll fd) = some s') :
    ∃ T', EventInv num s' T' ∧ ∀ fd' < 2 ^ 31, Waiting s.mem num fd' →
      EventKept num s (.poll fd) s' fd' := by
  rw [sectionStep] at hs
  split at hs
  · next hfd =>
    obtain rfl := Option.some.inj hs
    cases hpos : getConnectPos s.mem (fd % num) (BitVec.ofNat 32 fd) with
    | none =>
      have hnot : fd ∉ s.opened := h.notMem_of_getConnectPos hnum hfd hpos
      have hself : s.opened.filter (· ≠ fd) = s.opened := List.filter_eq_self.2 fun k hk ↦ by
        have hne : k ≠ fd := fun h0 ↦ hnot (h0 ▸ hk)
        simpa using hne
      rw [Option.elim_none, h.pollEvent_none hnum hfd hpos, hself]
      exact ⟨T, h, fun _ _ hwait ↦ .inl hwait⟩
    | some j =>
      obtain ⟨hj, -⟩ := h.of_getConnectPos hnum hfd hpos
      obtain ⟨hT, hself, hothers⟩ := h.pollEvent_some hnum hpos hj
      refine ⟨_, ⟨hT, fun i hi ↦ ?_⟩, fun fd' hfd' hwait ↦
        kept_of_set h.toTableHolds hj hT hnum hfd' hwait fun _ _ ↦ .inl rfl⟩
      have hcount := h.counted i hi
      show _ ≤ (getCommClientNum (pollEvent s.mem num fd) i).toInt
      rcases eq_or_ne i (fd % num) with rfl | hne
      · -- the counter grows by one, the number of recorded events by at most one
        have hset := countP_waiting_set hj { (T (fd % num))[j] with status := fdStatPoll }
        have hone := Bool.toNat_le
          (ConnectHandle.waiting { (T (fd % num))[j] with status := fdStatPoll })
        rw [Function.update_self, hself, toInt_add_one hguard]
        omega
      · rw [Function.update_of_ne hne, hothers i hne]
        exact hcount
  · cases hs

theorem claim (h : EventInv num s T) (hnum : 0 < num) {idx : ℕ}
    (hs : sectionStep num idletime s (.claim idx) = some s') :
    ∃ T', EventInv num s' T' ∧ ∀ fd' < 2 ^ 31, Waiting s.mem num fd' →
      EventKept num s (.claim idx) s' fd' := by
  rw [sectionStep] at hs
  split at hs
  · next hidx =>
    cases hclaim : readClaim s.mem idx with
    | wait =>
      rw [hclaim] at hs
      cases hs
    | reset mem =>
      rw [hclaim] at hs
      obtain rfl := Option.some.inj hs
      obtain ⟨hnone, hT, hself, hothers⟩ := h.of_readClaim_reset hidx hclaim
      refine ⟨T, ⟨hT, fun i hi ↦ ?_⟩, fun fd' hfd' hwait ↦
        kept_of_subset h.toTableHolds hT hnum (fun _ ↦ List.Subset.refl _) hfd' hwait⟩
      show _ ≤ (getCommClientNum mem i).toInt
      rcases eq_or_ne i idx with rfl | hne
      · -- no event is recorded, so 0 is enough
        have hzero : (T i).countP ConnectHandle.waiting = 0 := List.countP_eq_zero.2 fun c hc hw ↦
          hnone c hc (ConnectHandle.waiting_iff.1 hw)
        rw [hzero, hself]
        decide
      · rw [hothers i hne]
        exact h.counted i hi
    | claimed mem j tClient =>
      rw [hclaim] at hs
      obtain rfl := Option.some.inj hs
      obtain ⟨hj, hstat, htc, hT, -, hself, hothers⟩ := h.of_readClaim_claimed hidx hclaim
      rw [htc] at hT
      refine ⟨_, ⟨hT, fun i hi ↦ ?_⟩, fun fd' hfd' hwait ↦
        kept_of_set h.toTableHolds hj hT hnum hfd' hwait fun hkey _ ↦ .inr ?_⟩
      · have hcount := h.counted i hi
        show _ ≤ (getCommClientNum mem i).toInt
        rcases eq_or_ne i idx with rfl | hne
        · have hset := countP_waiting_set hj { (T i)[j] with status := fdStatRead }
          have hold : (T i)[j].waiting = true := ConnectHandle.waiting_iff.2 hstat
          have hnew : ConnectHandle.waiting { (T i)[j] with status := fdStatRead } = false := rfl
          rw [hold, hnew, Bool.toNat_true, Bool.toNat_false] at hset
          rw [Function.update_self, hself, toInt_sub_one (by omega)]
          omega
        · rw [Function.update_of_ne hne, hothers i hne]
          exact hcount
      · refine ⟨idx, mem, j, tClient, rfl, hclaim, ?_⟩
        rw [htc]
        exact (ConnectHandle.key_eq_iff _ hfd').1 hkey
  · cases hs

theorem write (h : EventInv num s T) (hnum : 0 < num) {junk : ℤ} {fd connSsn : BitVec 32}
    (hguard : sectionGuard num idletime s (.write junk fd connSsn))
    (hs : sectionStep num idletime s (.write junk fd connSsn) = some s') :
    ∃ T', EventInv num s' T' ∧ ∀ fd' < 2 ^ 31, Waiting s.mem num fd' →
      EventKept num s (.write junk fd connSsn) s' fd' := by
  obtain ⟨hlookup, hquiet⟩ := hguard
  rw [sectionStep] at hs
  split at hs
  · obtain rfl := Option.some.inj hs
    rcases h.writeMark_cases hnum junk hlookup with ⟨k, hk, hssn, hmark⟩ | ⟨-, hmark⟩
    · have hi : fd.toNat % num < num := Nat.mod_lt _ hnum
      have hrep := h.rep _ hi
      -- the marked connection has no recorded event
      have hold : (T (fd.toNat % num))[k].waiting = false := by
        rw [Bool.eq_false_iff]
        intro hw
        refine hquiet k (Nat.lt_of_lt_of_le hk hrep.length_le) (hrep.fd_ne hk) ?_ ?_
        · rw [hrep.ssn_eq hk, hssn]
        · rw [hrep.stat_eq hk, ConnectHandle.waiting_iff.1 hw]
      obtain ⟨hT, hnums⟩ := h.setStat hi hk fdStatWrite
      rw [hmark, Option.elim_some]
      refine ⟨_, ⟨hT, fun i hi' ↦ ?_⟩, fun fd' hfd' hwait ↦
        kept_of_set h.toTableHolds hk hT hnum hfd' hwait fun _ hw ↦ ?_⟩
      · have hcount := h.counted i hi'
        show _ ≤ (getCommClientNum (setCommClientStat s.mem (fd.toNat % num) k fdStatWrite) i).toInt
        rw [hnums]
        rcases eq_or_ne i (fd.toNat % num) with rfl | hne
        · have hset := countP_waiting_set hk { (T (fd.toNat % num))[k] with status := fdStatWrite }
          have hnew : ConnectHandle.waiting
              { (T (fd.toNat % num))[k] with status := fdStatWrite } = false := rfl
          rw [hold, hnew] at hset
          rw [Function.update_self]
          omega
        · rw [Function.update_of_ne hne]
          exact hcount
      · rw [hold] at hw
        cases hw
    · rw [hmark, Option.elim_none]
      exact ⟨T, h, fun _ _ hwait ↦ .inl hwait⟩
  · cases hs

/-- **The step lemma.** -/
theorem step (h : EventInv num s T) (hnum : 0 < num) (hmax : num ≤ maxTreadNum) {a : SectionAct}
    (hguard : sectionGuard num idletime s a) (hs : sectionStep num idletime s a = some s') :
    ∃ T', EventInv num s' T' ∧ ∀ fd < 2 ^ 31, Waiting s.mem num fd → EventKept num s a s' fd := by
  cases a with
  | accept fd now =>
    exact h.accept hnum (show tableStep num idletime s (.accept fd now) = some s' from hs)
  | timeout now fuel => exact h.timeout hnum hmax hguard hs
  | poll fd => exact h.poll hnum hguard hs
  | claim idx => exact h.claim hnum hs
  | del fd => exact h.del hnum hmax hguard hs
  | write junk fd connSsn => exact h.write hnum hguard hs

end EventInv

/-! ### Runs -/

/-- **No recorded event is lost.** In every state of a run that keeps to the condition, a shard with a
recorded event has a positive counter, and a further step that keeps to it leaves every recorded event
recorded, unless it is the claim of a reader or closes the connection. -/
theorem events_not_lost {num : ℕ} (hnum : 1 ≤ num) (hmax : num ≤ maxTreadNum) (idletime : BitVec 32)
    {s : TableState} (h : (sectionSystem num idletime).Reach (sectionGuard num idletime) s) :
    CounterOk num s ∧
    ∀ a s', sectionGuard num idletime s a → (sectionSystem num idletime).step s a s' →
      ∀ fd < 2 ^ 31, Waiting s.mem num fd → EventKept num s a s' fd := by
  have hinv : ∃ T, EventInv num s T := by
    refine h.invariant (I := fun s ↦ ∃ T, EventInv num s T) ?_ ?_
    · rintro s rfl
      exact ⟨_, eventInv_init num⟩
    · rintro s a s' ⟨T, hT⟩ hguard hstep
      obtain ⟨T', hT', -⟩ := hT.step hnum hmax hguard hstep
      exact ⟨T', hT'⟩
  obtain ⟨T, hT⟩ := hinv
  refine ⟨hT.counterOk, fun a s' hguard hstep fd hfd hwait ↦ ?_⟩
  obtain ⟨T', -, hkept⟩ := hT.step hnum hmax hguard hstep
  exact hkept fd hfd hwait

/-! ### One connection -/

/-- In a server with two reader threads the descriptor 4 is open, with the status `v` and the counter
`n`. -/
structure OneConn (s : TableState) (v : BitVec 8) (n : BitVec 32) : Prop where
  opened : s.opened = [4]
  table : ∃ T, TableHolds s.mem 2 {fd | fd ∈ s.opened} T ∧ T 0 = [⟨4, 0, 100, v⟩]
  num : getCommClientNum s.mem 0 = n

namespace OneConn

variable {s : TableState} {v : BitVec 8} {n : BitVec 32}

theorem waiting_iff (h : OneConn s v n) : Waiting s.mem 2 4 ↔ v = fdStatPoll := by
  obtain ⟨T, hT, h0⟩ := h.table
  have hlist : T (4 % 2) = [⟨4, 0, 100, v⟩] := h0
  rw [EventInv.waiting_iff hT (by decide) (by decide), hlist]
  simp only [List.mem_singleton, exists_eq_left, ConnectHandle.waiting_iff]
  exact and_iff_right rfl

theorem accept : ∃ s, (sectionSystem 2 60).step ⟨commInit 2, 0, []⟩ (.accept 4 100) s ∧
    OneConn s fdStatReg 0 := by
  obtain ⟨m, hacc, hT, hnum⟩ := (tableHolds_init 2).accept (by decide)
    (show 4 < 2 ^ 31 by decide) (Set.notMem_empty 4) (by decide) 0 100
  have hset : insert 4 (∅ : Set ℕ) = {fd | fd ∈ [4]} := by
    ext k
    simp
  rw [hset] at hT
  refine ⟨⟨m, 0 + 1, [4]⟩, ?_, rfl, ⟨_, hT, rfl⟩, ?_⟩
  · show sectionStep 2 60 _ _ = _
    rw [sectionStep]
    exact step_accept (s := ⟨commInit 2, 0, []⟩) (by decide) (by simp) hacc
  · rw [hnum, (commInit_rep 2).2 0 (by decide)]

theorem poll (h : OneConn s v n) :
    ∃ s', (sectionSystem 2 60).step s (.poll 4) s' ∧ OneConn s' fdStatPoll (n + 1) := by
  obtain ⟨T, hT, h0⟩ := h.table
  have hlist : T (4 % 2) = [⟨4, 0, 100, v⟩] := h0
  have hpos : getConnectPos s.mem (4 % 2) (BitVec.ofNat 32 4) = some 0 := by
    rw [(hT.rep 0 (by decide)).getConnectPos_rep (by decide), h0]
    rfl
  obtain ⟨hT', hself, -⟩ := hT.pollEvent_some (by decide) hpos (by rw [hlist]; exact Nat.one_pos)
  refine ⟨{ s with mem := pollEvent s.mem 2 4 }, ?_, h.opened, ⟨_, hT', ?_⟩, ?_⟩
  · show sectionStep 2 60 s _ = _
    rw [sectionStep, if_pos (by decide), hpos]
    rfl
  · show Function.update T (4 % 2) _ (4 % 2) = _
    simp only [Function.update_self, hlist]
    rfl
  · show getCommClientNum (pollEvent s.mem 2 4) (4 % 2) = _
    rw [hself]
    exact congrArg (· + 1) h.num

theorem claim (h : OneConn s fdStatPoll n) (hn : n ≠ 0) :
    ∃ s', (sectionSystem 2 60).step s (.claim 0) s' ∧ OneConn s' fdStatRead (n - 1) := by
  obtain ⟨T, hT, h0⟩ := h.table
  have hclaim := hT.readClaim_eq_claimed (i := 0) (j := 0) (by decide) (h.num ▸ hn)
    (by rw [h0]; decide) (by rw [h0]; rfl)
  obtain ⟨-, -, -, hT', -, hself, -⟩ := hT.of_readClaim_claimed (by decide) hclaim
  refine ⟨{ s with mem := claimSlot s.mem 0 0 }, ?_, h.opened, ⟨_, hT', ?_⟩, ?_⟩
  · show sectionStep 2 60 s _ = _
    rw [sectionStep, if_pos (by decide), hclaim]
  · simp only [Function.update_self, h0]
    rfl
  · show getCommClientNum (claimSlot s.mem 0 0) 0 = _
    rw [hself, h.num]

theorem write (h : OneConn s v n) :
    ∃ s', (sectionSystem 2 60).step s (.write 0 4 0) s' ∧ OneConn s' fdStatWrite n := by
  obtain ⟨T, hT, h0⟩ := h.table
  have hhas : HasSsn s.mem 0 0 := (hT.rep 0 (by decide)).hasSsn_iff.2 ⟨⟨4, 0, 100, v⟩, by simp [h0], rfl⟩
  have hlookup : ShardFree s.mem ((4 : BitVec 32).toNat % 2) ∨
      HasSsn s.mem ((4 : BitVec 32).toNat % 2) 0 := .inr hhas
  rcases hT.writeMark_cases (by decide) 0 hlookup with
    ⟨k, hk, -, hmark⟩ | ⟨hnot, -⟩
  · obtain ⟨hT', hnum⟩ := hT.setStat (i := 0) (by decide) hk fdStatWrite
    obtain rfl : k = 0 := by
      have hlen : k < (T 0).length := hk
      rw [h0, List.length_singleton] at hlen
      omega
    refine ⟨{ s with mem := setCommClientStat s.mem 0 0 fdStatWrite }, ?_, h.opened, ⟨_, hT', ?_⟩, ?_⟩
    · show sectionStep 2 60 s _ = _
      rw [sectionStep, if_pos (by decide), hmark]
      rfl
    · simp only [Function.update_self, h0]
      rfl
    · show getCommClientNum (setCommClientStat s.mem 0 0 fdStatWrite) 0 = _
      rw [hnum, h.num]
  · exact absurd hhas hnot

end OneConn

/-- An event on a new connection, claimed by the reader. -/
theorem events_not_lost_one : ∃ s s', Waiting s.mem 2 4 ∧ CounterOk 2 s ∧
    (sectionSystem 2 60).step s (.claim 0) s' ∧ EventKept 2 s (.claim 0) s' 4 := by
  obtain ⟨s1, hs1, h1⟩ := OneConn.accept
  obtain ⟨s2, hs2, h2⟩ := h1.poll
  obtain ⟨s3, hs3, -⟩ := h2.claim (by decide)
  have hsmall : sectionGuard 2 60 s1 (.poll 4) := by
    show (getCommClientNum s1.mem 0).toInt < _
    rw [h1.num]
    decide
  have hreach : (sectionSystem 2 60).Reach (sectionGuard 2 60) s2 :=
    .step (.step (a := .accept 4 100) (.init rfl) trivial hs1) hsmall hs2
  obtain ⟨hok, hkept⟩ := events_not_lost (by decide) (by decide) 60 hreach
  have hwait : Waiting s2.mem 2 4 := h2.waiting_iff.2 rfl
  exact ⟨s2, s3, hwait, hok, hs3, hkept (.claim 0) s3 trivial hs3 4 (by decide) hwait⟩

/-- A client sends a second request before the reply to its first: the event of the second is recorded
when the reply is written, and the mark of the writer takes its place. -/
theorem event_lost_by_write : ∃ s s', (sectionSystem 2 60).Reach Guarded.always s ∧
    (sectionSystem 2 60).step s (.write 0 4 0) s' ∧ Waiting s.mem 2 4 ∧
    ¬ EventKept 2 s (.write 0 4 0) s' 4 := by
  obtain ⟨s1, hs1, h1⟩ := OneConn.accept
  obtain ⟨s2, hs2, h2⟩ := h1.poll
  obtain ⟨s3, hs3, h3⟩ := h2.claim (by decide)
  obtain ⟨s4, hs4, h4⟩ := h3.poll
  obtain ⟨s5, hs5, h5⟩ := h4.write
  refine ⟨s4, s5, .step (.step (.step (.step (.init rfl) trivial hs1) trivial hs2) trivial hs3)
    trivial hs4, hs5, h4.waiting_iff.2 rfl, ?_⟩
  rintro (hwait | ⟨_, _, _, _, ha, -⟩ | hclosed)
  · exact absurd (h5.waiting_iff.1 hwait) (by decide)
  · cases ha
  · exact hclosed (by simp [h5.opened])

end Sunda
