import Sunda.Main.Governor.Registration

/-!
# The pid table and the children

A used pid entry should name a child of the Governor that is alive, started for the server of the
entry, and no two entries the same one; then `server_kill` signals children only (`NamesLive`).

Between an exit and `server_deatch` an entry names a child that was not collected yet. So the
invariant is about all children whose numbers are still taken (`PidsOk`): the kernel does not hand such
a number out, which keeps the entries apart (`Works.pidsOk`).

An entry is released by `server_kill` and by a start that fails, but not when its process exits: the
handler counts on the restart. `table_names_live` proves the property for the runs in which every
restart gives a process (`ReleasesPids`). The command must not be for the id 0, either: cleared
entries have this id, and so has the entry of the Governor itself.
-/

namespace Sunda

variable {n m : ℕ} {s t : Sys n m} {k : Fin n} {pid : ℤ}

/-! ### The property -/

/-- Used entries name different children, alive if none is left to collect, and all signals were sent
to children. -/
structure NamesLive (s : Sys n m) : Prop where
  live : s.exited = [] → ∀ i, i.val ≠ 0 → (s.tSvrPid i).pid ≠ -1 →
    ⟨(s.tSvrPid i).pid, (s.tSvrPid i).svrpos⟩ ∈ s.live
  distinct : ∀ i j, i.val ≠ 0 → j.val ≠ 0 → i ≠ j → (s.tSvrPid i).pid ≠ -1 →
    (s.tSvrPid i).pid ≠ (s.tSvrPid j).pid
  signals : ∀ sig ∈ s.signals, sig.own = true

/-! ### The invariant -/

/-- Used entries name different children whose numbers are taken, and unused ones have no id. -/
structure PidsOk (s : Sys n m) : Prop where
  named : ∀ i, i.val ≠ 0 → (s.tSvrPid i).pid ≠ -1 →
    ⟨(s.tSvrPid i).pid, (s.tSvrPid i).svrpos⟩ ∈ s.live ++ s.exited
  distinct : ∀ i j, i.val ≠ 0 → j.val ≠ 0 → i ≠ j → (s.tSvrPid i).pid ≠ -1 →
    (s.tSvrPid i).pid ≠ (s.tSvrPid j).pid
  nodup : s.pids.Nodup
  positive : ∀ pid ∈ s.pids, 0 < pid
  unused : ∀ i, (s.tSvrPid i).pid = -1 ∨ i.val = 0 → (s.tSvrPid i).svrid = 0
  signals : ∀ sig ∈ s.signals, sig.own = true

theorem PidsOk.namesLive (h : PidsOk s) : NamesLive s := by
  refine ⟨fun hex i h0 hpid ↦ ?_, h.distinct, h.signals⟩
  have hmem := h.named i h0 hpid
  rwa [hex, List.append_nil] at hmem

/-- The server table does not matter. -/
theorem PidsOk.congr (h : PidsOk s) (hpid : t.tSvrPid = s.tSvrPid) (hlive : t.live = s.live)
    (hex : t.exited = s.exited) (hsig : t.signals = s.signals) : PidsOk t := by
  have hpids : t.pids = s.pids := by rw [Sys.pids, Sys.pids, hlive, hex]
  constructor
  all_goals simp only [hpid, hlive, hex, hsig, hpids]
  exacts [h.named, h.distinct, h.nodup, h.positive, h.unused, h.signals]

/-! ### Starts -/

section Starts

variable [NeZero n] {c : ℕ}

omit [NeZero n] in
/-- An entry is given a new child: the other entries name the children they did, and these are all
still there. -/
theorem PidsOk.given (h : PidsOk s) {i : Fin m} (hi0 : i.val ≠ 0)
    (hlive : t.live = ⟨(t.tSvrPid i).pid, (t.tSvrPid i).svrpos⟩ :: s.live)
    (hex : t.exited.Sublist s.exited) (hpos : 0 < (t.tSvrPid i).pid)
    (hnew : (t.tSvrPid i).pid ∉ (s.live ++ t.exited).map (·.pid))
    (hother : ∀ l, l ≠ i → (t.tSvrPid l).pid = (s.tSvrPid l).pid ∧
      (t.tSvrPid l).svrpos = (s.tSvrPid l).svrpos ∧ (t.tSvrPid l).svrid = (s.tSvrPid l).svrid)
    (hthere : ∀ l, l ≠ i → l.val ≠ 0 → (s.tSvrPid l).pid ≠ -1 →
      ⟨(s.tSvrPid l).pid, (s.tSvrPid l).svrpos⟩ ∈ s.live ++ t.exited)
    (hsig : t.signals = s.signals) : PidsOk t := by
  have hpids : t.pids = (t.tSvrPid i).pid :: (s.live ++ t.exited).map (·.pid) := by
    rw [Sys.pids, hlive]
    rfl
  have hsub : ((s.live ++ t.exited).map (·.pid)).Sublist s.pids :=
    (List.Sublist.append_left hex s.live).map _
  have hchild {l : Fin m} (h0 : l.val ≠ 0) (hl : l ≠ i) (hused : (t.tSvrPid l).pid ≠ -1) :
      ⟨(t.tSvrPid l).pid, (t.tSvrPid l).svrpos⟩ ∈ s.live ++ t.exited := by
    obtain ⟨hsame, hsamePos, -⟩ := hother l hl
    rw [hsame] at hused
    rw [hsame, hsamePos]
    exact hthere l hl h0 hused
  -- the new number is not in the table
  have hne {l : Fin m} (h0 : l.val ≠ 0) (hl : l ≠ i) (hused : (t.tSvrPid l).pid ≠ -1) :
      (t.tSvrPid i).pid ≠ (t.tSvrPid l).pid :=
    fun heq ↦ hnew (List.mem_map.2 ⟨_, hchild h0 hl hused, heq.symm⟩)
  constructor
  case named =>
    intro l h0 hused
    rw [hlive]
    rcases eq_or_ne l i with rfl | hl
    · exact List.mem_append_left _ List.mem_cons_self
    · exact List.mem_cons_of_mem _ (hchild h0 hl hused)
  case distinct =>
    intro j l hj hl hjl hused
    rcases eq_or_ne j i with rfl | hji
    · intro heq
      exact hne hl hjl.symm (heq ▸ hused) heq
    · rcases eq_or_ne l i with rfl | hli
      · exact (hne hj hji hused).symm
      · obtain ⟨hsame, -⟩ := hother j hji
        obtain ⟨hsame', -⟩ := hother l hli
        rw [hsame] at hused
        rw [hsame, hsame']
        exact h.distinct j l hj hl hjl hused
  case nodup =>
    rw [hpids]
    exact List.nodup_cons.2 ⟨hnew, hsub.nodup h.nodup⟩
  case positive =>
    rw [hpids]
    intro p hp
    rcases List.mem_cons.1 hp with rfl | hmem
    · exact hpos
    · exact h.positive p (hsub.subset hmem)
  case unused =>
    intro l hl
    rcases eq_or_ne l i with rfl | hli
    · rcases hl with hl | hl
      · omega
      · exact absurd hl hi0
    · obtain ⟨hsame, -, hid⟩ := hother l hli
      rw [hsame] at hl
      rw [hid]
      exact h.unused l hl
  case signals =>
    rw [hsig]
    exact h.signals

omit [NeZero n] in
/-- A new process gets an entry of its own. -/
theorem PidsOk.fill (h : PidsOk s) {i : Fin m} {f : Fork} (hi : serverGetPidentry s = some i)
    (hf : 0 < f.pid) (ho : s.owns f.pid = false) (seq : ℤ) (forks : List Fork) :
    PidsOk (s.fill k i seq f forks) := by
  have hself : (s.fill k i seq f forks).tSvrPid i = { s.tSvrPid i with
      pid := f.pid, svrid := (s.tSvrTab k).svrid, svrpos := k, seq := seq, lastStart := f.now } :=
    Sys.setPid_self ..
  refine h.given (serverGetPidentry_eq_some hi).1 ?_ (List.Sublist.refl _) ?_ ?_ (fun l hl ↦ ?_)
    (fun l _ ↦ h.named l) rfl
  · rw [hself]
    rfl
  · rw [hself]
    exact hf
  · rw [hself]
    exact Sys.owns_eq_false_iff.1 ho
  · have hsame : (s.fill k i seq f forks).tSvrPid l = s.tSvrPid l := Sys.setPid_of_ne _ _ hl
    rw [hsame]
    exact ⟨rfl, rfl, rfl⟩

/-- An entry that is cleared names nobody. -/
theorem PidsOk.clear (h : PidsOk s) {p : Fin m → Bool}
    (ht : ∀ i, t.tSvrPid i = if p i then .clear else s.tSvrPid i) (hlive : t.live = s.live)
    (hex : t.exited = s.exited) (hsig : ∀ sig ∈ t.signals, sig.own = true) : PidsOk t := by
  have hpids : t.pids = s.pids := by rw [Sys.pids, Sys.pids, hlive, hex]
  have hused {i : Fin m} (hpid : (t.tSvrPid i).pid ≠ -1) : t.tSvrPid i = s.tSvrPid i := by
    rw [ht] at hpid ⊢
    split at hpid
    · exact absurd rfl hpid
    · next hp => rw [if_neg hp]
  constructor
  · intro i h0 hpid
    have heq := hused hpid
    rw [heq] at hpid ⊢
    rw [hlive, hex]
    exact h.named i h0 hpid
  · intro i j hi hj hij hpid heq
    have hsame := hused hpid
    have hsame' := hused (heq ▸ hpid : (t.tSvrPid j).pid ≠ -1)
    rw [hsame] at hpid heq
    rw [hsame'] at heq
    exact h.distinct i j hi hj hij hpid heq
  · rw [hpids]
    exact h.nodup
  · rw [hpids]
    exact h.positive
  · intro i hi
    rw [ht] at hi ⊢
    split
    · rfl
    · next hp =>
      rw [if_neg hp] at hi
      exact h.unused i hi
  · exact hsig

/-- **Work for a server keeps the invariant.** -/
theorem Works.pidsOk (h : Works k s c t) (hs : PidsOk s) : PidsOk t := by
  induction h with
  | refl => exact hs
  | svr _ _ ih => exact ih.congr rfl rfl rfl rfl
  | fill seq forks _ hi hf ho ih => exact ih.fill hi hf ho seq forks
  | @abort _ u i forks _ _ ih =>
    refine ih.clear (p := fun j ↦ decide (j = i)) (fun j ↦ ?_) rfl rfl ih.signals
    rcases eq_or_ne j i with rfl | hj
    · rw [Sys.abort, Sys.setPid_self]
      simp
    · rw [Sys.abort, Sys.setPid_of_ne _ _ hj]
      simp [hj]

/-- `server_kill` for another id than 0 signals used entries only. -/
theorem PidsOk.stopped (h : PidsOk s) (hid : (s.tSvrTab k).svrid ≠ 0) :
    PidsOk (stopServer s k) := by
  refine h.clear (fun i ↦ stopServer_tSvrPid s k i) rfl rfl fun sig hsig ↦ ?_
  rcases List.mem_append.1 hsig with hold | hnew
  · exact h.signals sig hold
  · obtain ⟨i, hi, rfl⟩ := List.mem_map.1 hnew
    have hkill := (List.mem_filter.1 hi).2
    have hsvrid : (s.tSvrPid i).svrid = (s.tSvrTab k).svrid := by
      rw [killed, Bool.and_eq_true, Bool.and_eq_true, Sys.setSvr_self] at hkill
      exact eq_of_beq hkill.1.1
    have hi0 : i.val ≠ 0 := fun h0 ↦ hid (hsvrid.symm.trans (h.unused i (.inr h0)))
    have hpid : (s.tSvrPid i).pid ≠ -1 := fun hp ↦ hid (hsvrid.symm.trans (h.unused i (.inl hp)))
    show (List.any (s.live ++ s.exited) fun c ↦ c.pid == (s.tSvrPid i).pid) = true
    exact List.any_eq_true.2 ⟨_, h.named i hi0 hpid, beq_self_eq_true _⟩

end Starts

/-! ### Exits -/

/-- A child that exits is still a child. -/
theorem PidsOk.exit (h : PidsOk s) (pid : ℤ) :
    PidsOk { s with
      live := s.live.filter (·.pid ≠ pid)
      exited := s.live.filter (·.pid = pid) ++ s.exited } := by
  have hperm : (s.live.filter (·.pid ≠ pid) ++ (s.live.filter (·.pid = pid) ++ s.exited)).Perm
      (s.live ++ s.exited) := by
    rw [← List.append_assoc]
    refine List.Perm.append_right _ (List.perm_append_comm.trans ?_)
    have hsplit := List.filter_append_perm (fun c : Child n ↦ decide (c.pid = pid)) s.live
    simpa using hsplit
  constructor
  · intro i h0 hpid
    exact hperm.mem_iff.2 (h.named i h0 hpid)
  · exact h.distinct
  · exact (hperm.map _).nodup_iff.2 h.nodup
  · intro p hp
    exact h.positive p ((hperm.map _).mem_iff.1 hp)
  · exact h.unused
  · exact h.signals

/-- Collecting a child keeps the others. -/
theorem mem_collected {env : Env} {pid : ℤ} {c : Child n} (h : c ∈ s.live ++ s.exited)
    (hpid : c.pid ≠ pid) : c ∈ (s.collected env pid).live ++ (s.collected env pid).exited := by
  rcases List.mem_append.1 h with hmem | hmem
  · exact List.mem_append_left _ hmem
  · exact List.mem_append_right _ (List.mem_filter.2 ⟨hmem, decide_eq_true hpid⟩)

/-- **A restart that gives a process keeps the invariant**: the entry goes from the child that was
collected to the new one. -/
theorem PidsOk.handled {env : Env} {now : ℤ} {i : Fin m} (h : PidsOk s)
    (hi : serverFindPid s pid = some i) (hr : Restarts s i)
    (hok : (s.collected env pid).forkOk = true)
    (hh : HandledPids (s.collected env pid) now i (s.tSvrPid i).svrpos t) : PidsOk t := by
  obtain ⟨hi0, hpid⟩ := serverFindPid_eq_some hi
  obtain ⟨-, -, hpos, hown, hlive⟩ | ⟨hno, -⟩ := hh.process
  · refine h.given hi0 ?_ ?_ hpos ?_ (fun l hl ↦ hh.keep hl) (fun l hl h0 hused ↦ ?_) hh.signals
    · rw [hlive, hh.svrpos]
      rfl
    · rw [hh.exited]
      exact List.filter_sublist
    · rw [hh.exited]
      exact Sys.owns_eq_false_iff.1 hown
    · rw [hh.exited]
      exact mem_collected (h.named l h0 hused) (hpid ▸ h.distinct l i h0 hi0 hl hused)
  · exact absurd ⟨hr, hok⟩ hno

/-- A child whose entry is gone is only forgotten. -/
theorem PidsOk.collected {env : Env} (h : PidsOk s) (hnone : serverFindPid s pid = none) :
    PidsOk (s.collected env pid) := by
  have hsub := pids_collected s env pid
  rw [serverFindPid, Slots.find_eq_none_iff] at hnone
  exact ⟨fun i h0 hpid ↦ mem_collected (h.named i h0 hpid) (ne_of_beq_false (hnone i h0)), h.distinct,
    hsub.nodup h.nodup, fun p hp ↦ h.positive p (hsub.subset hp), h.unused, h.signals⟩

/-! ### Runs -/

variable [NeZero n]

/-- The condition: when the process of an entry is collected, it is restarted, and `fork` gives a
process; and `TSK_CMD_EXIT` and `TSK_CMD_FRESH` are not for a server with id 0. -/
def ReleasesPids (s : Sys n m) : Event → Prop
  | .exit _ => True
  | .collect env x => ∀ i, serverFindPid s x.pid = some i →
      Restarts s i ∧ (s.collected env x.pid).forkOk = true
  | .cmd _ cmd id => cmd = tskCmdExit ∨ cmd = tskCmdFresh → findServerId s id ≠ none → id ≠ 0

theorem PidsOk.cmd {env : Env} {cmd id rc : ℤ} (h : PidsOk s)
    (hG : cmd = tskCmdExit ∨ cmd = tskCmdFresh → findServerId s id ≠ none → id ≠ 0)
    (hs : governor env cmd id s = some (rc, t)) : PidsOk t := by
  have hstop {k : Fin n} (hk : findServerId s id = some k)
      (hcmd : cmd = tskCmdExit ∨ cmd = tskCmdFresh) : PidsOk (stopServer s k) := by
    refine h.stopped ?_
    rw [(findServerId_eq_some hk).2]
    exact hG hcmd (by rw [hk]; exact Option.some_ne_none k)
  rcases governor_cases hs with ⟨k, hk, ⟨-, hrun⟩ | ⟨hcmd, rfl⟩ | ⟨hcmd, hrun⟩⟩ | ⟨-, -, hrun⟩ | rfl
  · rcases startKnown_works hrun with ⟨-, rfl⟩ | ⟨l, hl, d, -, hd, -⟩
    · exact h.congr rfl rfl rfl rfl
    · exact hd.pidsOk (h.congr rfl rfl rfl rfl)
  · exact hstop hk (.inl hcmd)
  · obtain ⟨c, hc, -⟩ := runTaskId_works hrun
    exact hc.pidsOk (hstop hk (.inr hcmd))
  · rcases startUnknown_works hrun with ⟨-, rfl⟩ | ⟨k, c, -, -, hc⟩
    · exact h
    · exact hc.pidsOk h
  · exact h

theorem PidsOk.step {a : Event} (h : PidsOk s) (hG : ReleasesPids s a) (hs : govStep s a = some t) :
    PidsOk t := by
  cases a with
  | exit pid =>
    rw [govStep] at hs
    split at hs
    · obtain rfl := Option.some.inj hs
      exact h.exit pid
    · cases hs
  | collect env x =>
    obtain ⟨-, ⟨hnone, rfl⟩ | ⟨i, hi, hexit⟩⟩ := deatchOne_cases hs
    · exact h.collected hnone
    · obtain ⟨hr, hok⟩ := hG i hi
      exact h.handled hi hr hok (oneServerExit_handled hexit rfl).toHandledPids
  | cmd env cmd id =>
    obtain ⟨⟨rc, t'⟩, hgov, rfl⟩ := Option.map_eq_some_iff.1 hs
    have hforks : PidsOk { s with forks := env.forks } := h.congr rfl rfl rfl rfl
    exact hforks.cmd hG hgov

/-- Nothing was started yet. -/
theorem pidsOk_of_loaded {env : Env} {lines : List (List UInt8)} {mainPid now : ℤ}
    (hu : Loaded env lines mainPid now s) : PidsOk s := by
  have hclear {i : Fin m} (hi : i.val ≠ 0) : (s.tSvrPid i).pid = -1 := by
    rw [hu.tSvrPid_clear hi]
    rfl
  have hempty : s.pids = [] := hu.pids_nil
  have hsignals : s.signals = [] := by
    rw [hu.same]
    rfl
  refine ⟨fun i hi hne ↦ absurd (hclear hi) hne, fun i _ hi _ _ hne ↦ absurd (hclear hi) hne, ?_, ?_,
    fun i _ ↦ ?_, ?_⟩
  · rw [hempty]
    exact List.nodup_nil
  · rw [hempty]
    exact fun p hp ↦ absurd hp List.not_mem_nil
  · rcases eq_or_ne i.val 0 with hi | hi
    · rw [hu.same]
      show ServerPid.svrid (if i.val = 0 then _ else _) = 0
      rw [if_pos hi]
      rfl
    · rw [hu.tSvrPid_clear hi]
      rfl
  · rw [hsignals]
    exact fun sig hsig ↦ absurd hsig List.not_mem_nil

end Sunda
