import Sunda.Main.Governor.Registration

/-!
# Process counts

`pid_tot` of a server should be the number of pid entries of the server (`CountsExact`). It is set by
`register_server` before any process runs, raised by `TSK_CMD_START`, lowered when a process exits, and
set again when the line is read before the restart.

`Works.running` and `running_stopServer` say what starts and kills do to the number of entries, and
`HandledPids.running` that the handler does nothing to it: the entry of a dead process stays. What the
source does to `pid_tot` fits these only under the condition `CountsKept`, with which `counts_exact`
holds of every run. Above all, `server_kill` leaves `pid_tot` as it is, so that `TSK_CMD_EXIT` of a
running server breaks it (`exit_keeps_count`).
-/

namespace Sunda

variable {n m : ℕ} {s t : Sys n m} {k : Fin n} {i : Fin m}

/-! ### The property -/

/-- Process counts of registered servers are exact. -/
def CountsExact (s : Sys n m) : Prop :=
  ∀ k, k.val ≠ 0 → (s.tSvrTab k).svrid ≠ -1 → (s.tSvrTab k).pidTot = running s k

/-- Only the id, the count and the used entries matter. -/
theorem CountsExact.congr (h : CountsExact s) {k : Fin n}
    (hid : (t.tSvrTab k).svrid = (s.tSvrTab k).svrid)
    (hpid : (t.tSvrTab k).pidTot = (s.tSvrTab k).pidTot) (hrun : running t k = running s k)
    (h0 : k.val ≠ 0) (hne : (t.tSvrTab k).svrid ≠ -1) :
    (t.tSvrTab k).pidTot = running t k := by
  rw [hid] at hne
  rw [hpid, hrun]
  exact h k h0 hne

/-! ### Positive numbers -/

/-- Children have positive numbers. -/
def PidsPositive (s : Sys n m) : Prop :=
  ∀ pid ∈ s.pids, 0 < pid

theorem Works.pidsPositive [NeZero n] {c : ℕ} (h : Works k s c t) (hs : PidsPositive s) :
    PidsPositive t := by
  induction h with
  | refl => exact hs
  | svr _ _ ih => exact ih
  | fill _ _ _ _ hf _ ih =>
    intro pid hpid
    rcases List.mem_cons.1 hpid with rfl | hmem
    · exact hf
    · exact ih pid hmem
  | abort _ _ _ ih => exact ih

theorem PidsPositive.handled {env : Env} {x : Exit} (hs : PidsPositive s)
    (hh : HandledPids (s.collected env x.pid) x.now i k t) : PidsPositive t := by
  have hsub := pids_collected s env x.pid
  obtain ⟨-, -, hpos, -, hlive⟩ | ⟨-, -, hlive⟩ := hh.process
  · intro pid hpid
    rw [Sys.pids, hlive, hh.exited] at hpid
    rcases List.mem_cons.1 hpid with rfl | hmem
    · exact hpos
    · exact hs pid (hsub.subset hmem)
  · intro pid hpid
    rw [Sys.pids, hlive, hh.exited] at hpid
    exact hs pid (hsub.subset hpid)

/-! ### Entries of a server -/

/-- How many entries of server `j` are left when `server_kill` stops server `k`. -/
def survivors (s : Sys n m) (k j : Fin n) : ℕ :=
  Slots.count (fun p ↦ p.svrpos == j && p.pid != -1 && !killed (s.tSvrTab k).svrid p) s.tSvrPid

theorem running_stopServer [NeZero n] (s : Sys n m) (k j : Fin n) :
    running (stopServer s k) j = survivors s k j :=
  Slots.count_congr fun i _ ↦ by
    rw [stopServer_tSvrPid]
    cases hk : killed (s.tSvrTab k).svrid (s.tSvrPid i) with
    | true => simp [ServerPid.clear]
    | false => simp

/-- The handler leaves the entry where it is. -/
theorem HandledPids.running {now : ℤ} (h : HandledPids s now i k t) (hpos : (s.tSvrPid i).svrpos = k)
    (hpid : (s.tSvrPid i).pid ≠ -1) (j : Fin n) : running t j = running s j :=
  Slots.count_congr fun l _ ↦ by
    rcases eq_or_ne l i with rfl | hl
    · have hused : (t.tSvrPid l).pid ≠ -1 := by
        obtain ⟨-, -, hnew, -⟩ | ⟨-, hsame, -⟩ := h.process
        · omega
        · rwa [hsame]
      rw [h.svrpos, hpos, bne_iff_ne.2 hpid, bne_iff_ne.2 hused]
    · obtain ⟨hsame, hsamePos, -⟩ := h.keep hl
      rw [hsame, hsamePos]

/-! ### The condition -/

section Steps

variable [NeZero n]

/-- The id of the server of the pid entry `i` when its exit was handled. -/
def exitSvrid (env : Env) (s : Sys n m) (i : Fin m) : ℤ :=
  if Restarts s i then (reloadEntry env s.tSvrTab (s.tSvrPid i).svrpos).svrid
  else (s.tSvrTab (s.tSvrPid i).svrpos).svrid

/-- The condition: after an exit the count that is stored is the number of entries, which it is when
the process is restarted and its line asks for that number; an entry that is filled for a new id has
no processes left over and its line does not ask for a negative number; `server_kill` stops no process
of a server that keeps its count; and what it leaves of a server that is refreshed makes up its new
count together with what the lines ask for. -/
def CountsKept (s : Sys n m) : Event → Prop
  | .exit _ => True
  | .collect env x => ∀ i, serverFindPid s x.pid = some i → (s.tSvrPid i).svrpos.val ≠ 0 →
      exitSvrid env s i ≠ -1 → exitPidTot env s i = running s (s.tSvrPid i).svrpos
  | .cmd env cmd id =>
    match findServerId s id with
    | none => ∀ k e, Registers s k e (.cmd env cmd id) →
        running s k + e.pidTot.toNat = e.pidTot
    | some k =>
      (cmd = tskCmdExit ∨ cmd = tskCmdFresh → ∀ j, j.val ≠ 0 → (cmd = tskCmdFresh → j ≠ k) →
        (s.tSvrTab j).svrid ≠ -1 → survivors s k j = running s j) ∧
      ∀ e lines, env.task = some lines → Registers s k e (.cmd env cmd id) → e.svrid ≠ -1 →
        survivors s k k + freshTotal lines (s.tSvrTab k) = e.pidTot

/-! ### Steps -/

/-- Work for server `k` changes the count and the entries of that server only. -/
theorem CountsExact.works {c : ℕ} (h : ∀ j, j ≠ k → j.val ≠ 0 → (s.tSvrTab j).svrid ≠ -1 →
      (s.tSvrTab j).pidTot = running s j) (hworks : Works k s c t)
    (hk : (t.tSvrTab k).svrid ≠ -1 → (t.tSvrTab k).pidTot = running s k + c) : CountsExact t := by
  intro j h0 hne
  rw [hworks.running]
  rcases eq_or_ne j k with rfl | hj
  · rw [if_pos rfl, hk hne]
    push_cast
    rfl
  · rw [hworks.tSvrTab_of_ne hj] at hne ⊢
    rw [if_neg hj, add_zero]
    exact h j hj h0 hne

/-- The entries that are left when the processes of `k` were stopped. -/
theorem CountsExact.stopped {env : Env} {cmd id : ℤ} (h : CountsExact s)
    (hG : CountsKept s (.cmd env cmd id)) (hid : findServerId s id = some k)
    (hcmd : cmd = tskCmdExit ∨ cmd = tskCmdFresh) {j : Fin n} (hj : cmd = tskCmdFresh → j ≠ k)
    (h0 : j.val ≠ 0) (hne : ((stopServer { s with forks := env.forks } k).tSvrTab j).svrid ≠ -1) :
    ((stopServer { s with forks := env.forks } k).tSvrTab j).pidTot =
      running (stopServer { s with forks := env.forks } k) j := by
  rw [CountsKept, hid] at hG
  have hpid : ((stopServer { s with forks := env.forks } k).tSvrTab j).pidTot =
      (s.tSvrTab j).pidTot := Sys.setSvr_field _ SvrTab.pidTot (by rfl) j
  rw [stopServer_svrid] at hne
  have hsame : survivors { s with forks := env.forks } k j = running s j := hG.1 hcmd j h0 hj hne
  rw [hpid, running_stopServer, hsame]
  exact h j h0 hne

/-- `TSK_CMD_START` of an id in the table: one more process, or none. -/
theorem CountsExact.startKnown {env : Env} {rc : ℤ} (h : CountsExact s) (h0 : k.val ≠ 0)
    (hrun : startKnown env { s with forks := env.forks } k = some (rc, t)) : CountsExact t := by
  rcases startKnown_works hrun with ⟨-, rfl⟩ | ⟨l, hl, d, -, hd, hpid⟩
  · refine CountsExact.works (s := { s with forks := env.forks }) (fun j _ ↦ h j)
      (Works.svr _ .refl) fun hne ↦ ?_
    rw [Sys.setSvr_self] at hne ⊢
    rw [Nat.cast_zero, add_zero]
    exact h k h0 hne
  · have hmarked (j : Fin n) :
        ((Sys.marked { s with forks := env.forks } k ⟨l, hl⟩).tSvrTab j).svrid =
          (s.tSvrTab j).svrid ∧
        ((Sys.marked { s with forks := env.forks } k ⟨l, hl⟩).tSvrTab j).pidTot =
          (s.tSvrTab j).pidTot := by
      refine ⟨Sys.marked_svrid .., ?_⟩
      rw [Sys.marked]
      exact (Sys.setSvr_field _ SvrTab.pidTot (by rfl) j).trans
        (Sys.setSvr_field _ SvrTab.pidTot (by rfl) j)
    refine .works (fun j _ hj0 hne ↦ ?_) hd fun hne ↦ ?_
    · exact h.congr (hmarked j).1 (hmarked j).2 rfl hj0 hne
    · have hidk : (t.tSvrTab k).svrid = (s.tSvrTab k).svrid :=
        congrArg (·.svrid) (startKnown_reg hrun k)
      rw [hidk] at hne
      rw [hpid]
      exact congrArg (· + (d : ℤ)) (h k h0 hne)

/-- `TSK_CMD_FRESH` of an id in the table. -/
theorem CountsExact.fresh {env : Env} {id rc : ℤ} (h : CountsExact s)
    (hG : CountsKept s (.cmd env tskCmdFresh id)) (hid : findServerId s id = some k)
    (hrun : runTaskId env (stopServer { s with forks := env.forks } k) k = some (rc, t)) :
    CountsExact t := by
  obtain ⟨c, hworks, hk⟩ := runTaskId_registers hrun hid
  refine .works (fun j hj h0 hne ↦ h.stopped hG hid (.inr rfl) (fun _ ↦ hj) h0 hne) hworks fun hne ↦ ?_
  rcases hk with hclear | ⟨e, lines, htask, he, hreg, hpid, rfl⟩
  · rw [hclear] at hne
    exact absurd rfl hne
  · rw [CountsKept, hid] at hG
    have hide : (t.tSvrTab k).svrid = e.svrid := congrArg (·.svrid) hreg
    rw [hpid, running_stopServer]
    exact (hG.2 e lines htask he (hide ▸ hne)).symm

/-- A command with an id that is not in the table. -/
theorem CountsExact.startUnknown {env : Env} {cmd id rc : ℤ} (h : CountsExact s)
    (hG : CountsKept s (.cmd env cmd id)) (hcmd : cmd = tskCmdStart ∨ cmd = tskCmdFresh)
    (hid : findServerId s id = none)
    (hrun : startUnknown env { s with forks := env.forks } id = some (rc, t)) : CountsExact t := by
  rw [CountsKept, hid] at hG
  rcases startUnknown_registers hrun hcmd hid with rfl | ⟨k, c, hworks, hk⟩
  · exact h
  · refine CountsExact.works (s := { s with forks := env.forks }) (fun j _ ↦ h j) hworks fun hne ↦ ?_
    rcases hk with hclear | ⟨e, he, -, hpid, rfl⟩
    · rw [hclear] at hne
      exact absurd rfl hne
    · rw [hpid]
      exact (hG k e he).symm

/-- **One command**, by what it is and whether its id is in the table. -/
theorem CountsExact.cmd {env : Env} {cmd id rc : ℤ} (h : CountsExact s)
    (hG : CountsKept s (.cmd env cmd id))
    (hs : governor env cmd id { s with forks := env.forks } = some (rc, t)) : CountsExact t := by
  rcases governor_cases hs with ⟨k, hid, ⟨-, hrun⟩ | ⟨hcmd, rfl⟩ | ⟨rfl, hrun⟩⟩ | ⟨hid, hcmd, hrun⟩ | rfl
  · exact h.startKnown (findServerId_eq_some hid).1 hrun
  · subst hcmd
    exact fun j h0 hne ↦ h.stopped hG hid (.inl rfl) (fun hf ↦ absurd hf (by decide)) h0 hne
  · exact h.fresh hG hid hrun
  · exact h.startUnknown hG hcmd hid hrun
  · exact h

omit [NeZero n] in
theorem CountsExact.handled {env : Env} {x : Exit} (h : CountsExact s)
    (hpid : (s.tSvrPid i).pid ≠ -1)
    (hG : (s.tSvrPid i).svrpos.val ≠ 0 → exitSvrid env s i ≠ -1 →
      exitPidTot env s i = running s (s.tSvrPid i).svrpos)
    (hh : Handled env (s.collected env x.pid) x.now i (s.tSvrPid i).svrpos t) : CountsExact t := by
  intro j h0 hne
  have hrun : running t j = running s j := hh.running rfl hpid j
  rcases eq_or_ne j (s.tSvrPid i).svrpos with rfl | hj
  · have hreg : (t.tSvrTab (s.tSvrPid i).svrpos).reg =
        if Restarts s i then (reloadEntry env s.tSvrTab (s.tSvrPid i).svrpos).reg
        else (s.tSvrTab (s.tSvrPid i).svrpos).reg := hh.reg
    have hid : (t.tSvrTab (s.tSvrPid i).svrpos).svrid = exitSvrid env s i := by
      rw [exitSvrid]
      split at hreg
      · next hr =>
        rw [if_pos hr]
        exact congrArg (·.svrid) hreg
      · next hr =>
        rw [if_neg hr]
        exact congrArg (·.svrid) hreg
    rw [hrun, hh.pidTot]
    exact hG h0 (hid ▸ hne)
  · have hsvr := hh.servers j hj
    exact h.congr (congrArg (·.svrid) hsvr) (congrArg (·.pidTot) hsvr) hrun h0 hne

/-- The children that a command finds are those from before. -/
theorem governor_works {env : Env} {cmd id rc : ℤ} (h : governor env cmd id s = some (rc, t)) :
    ∃ k u c, u.live = s.live ∧ u.exited = s.exited ∧ Works k u c t := by
  rcases governor_cases h with ⟨k, -, ⟨-, hrun⟩ | ⟨-, rfl⟩ | ⟨-, hrun⟩⟩ | ⟨-, -, hrun⟩ | rfl
  · rcases startKnown_works hrun with ⟨-, rfl⟩ | ⟨l, hl, d, -, hd, -⟩
    · exact ⟨k, s, 0, rfl, rfl, .svr _ .refl⟩
    · exact ⟨k, s.marked k ⟨l, hl⟩, d, rfl, rfl, hd⟩
  · exact ⟨k, stopServer s k, 0, rfl, rfl, .refl⟩
  · obtain ⟨c, hc, -⟩ := runTaskId_works hrun
    exact ⟨k, stopServer s k, c, rfl, rfl, hc⟩
  · rcases startUnknown_works hrun with ⟨-, rfl⟩ | ⟨k, c, -, -, hc⟩
    · exact ⟨0, t, 0, rfl, rfl, .refl⟩
    · exact ⟨k, s, c, rfl, rfl, hc⟩
  · exact ⟨0, t, 0, rfl, rfl, .refl⟩

/-- The invariant. -/
structure CountsOk (s : Sys n m) : Prop where
  exact : CountsExact s
  positive : PidsPositive s

theorem CountsOk.step {a : Event} (h : CountsOk s) (hG : CountsKept s a)
    (hs : govStep s a = some t) : CountsOk t := by
  cases a with
  | exit pid =>
    rw [govStep] at hs
    split at hs
    · obtain rfl := Option.some.inj hs
      refine ⟨h.exact, fun p hp ↦ h.positive p ?_⟩
      obtain ⟨c, hc, rfl⟩ := List.mem_map.1 hp
      refine List.mem_map.2 ⟨c, ?_, rfl⟩
      -- a child that exits moves from one list to the other
      rcases List.mem_append.1 hc with hc | hc
      · exact List.mem_append_left _ (List.mem_of_mem_filter hc)
      · rcases List.mem_append.1 hc with hc | hc
        · exact List.mem_append_left _ (List.mem_of_mem_filter hc)
        · exact List.mem_append_right _ hc
    · cases hs
  | collect env x =>
    obtain ⟨hany, ⟨-, rfl⟩ | ⟨i, hi, hexit⟩⟩ := deatchOne_cases hs
    · exact ⟨h.exact, fun p hp ↦ h.positive p ((pids_collected s env x.pid).subset hp)⟩
    · have hh : Handled env (s.collected env x.pid) x.now i (s.tSvrPid i).svrpos t :=
        oneServerExit_handled hexit rfl
      refine ⟨h.exact.handled ?_ (hG i hi) hh, h.positive.handled hh.toHandledPids⟩
      -- the number of a child is not -1
      obtain ⟨c, hc, hpid⟩ := List.any_eq_true.1 hany
      have hpos := h.positive c.pid (List.mem_map.2 ⟨c, List.mem_append_right _ hc, rfl⟩)
      rw [(serverFindPid_eq_some hi).2, ← eq_of_beq hpid]
      omega
  | cmd env cmd id =>
    obtain ⟨⟨rc, t'⟩, hgov, rfl⟩ := Option.map_eq_some_iff.1 hs
    obtain ⟨k, u, c, hlive, hex, hworks⟩ := governor_works hgov
    have hu : PidsPositive u := by
      rw [PidsPositive, Sys.pids, hlive, hex]
      exact h.positive
    exact ⟨h.exact.cmd hG hgov, hworks.pidsPositive hu⟩

/-! ### Start -/

/-- The number of processes that an entry asks for at start. -/
def SvrTab.wanted (e : SvrTab) : ℕ :=
  if e.svrid = -1 then 0 else e.pidTot.toNat

/-- The number of processes that the loaded lines ask for together. -/
def loadTotal (n : ℕ) (exec : List UInt8 → Bool) (lines : List (List UInt8)) : ℕ :=
  ((List.range (n - 1)).map fun i ↦ (loadedEntry exec lines i).wanted).sum

/-- No loaded line asks for a negative number of processes, and all can be started. -/
def LoadsAll (n m : ℕ) [NeZero n] (env : Env) : Prop :=
  ∀ lines, env.task = some lines →
    (∀ i, i + 1 < n → (loadedEntry env.exec lines i).svrid ≠ -1 →
      0 ≤ (loadedEntry env.exec lines i).pidTot) ∧
    Sys.Startable { (sysStart 0 0 : Sys n m) with forks := env.forks } (loadTotal n env.exec lines)

/-- What entry `j` asks for when `load_server` comes to it. -/
def needed (u : Sys n m) (j : Fin n) : ℕ :=
  if j.val = 0 then 0 else (u.tSvrTab j).wanted

/-- **`load_server`** starts the processes of one server after the other. -/
theorem loadServer_fold {u v : Sys n m} {l : List (Fin n)} (hl : l.Nodup)
    (hv : ∀ j, (v.tSvrTab j).svrid = (u.tSvrTab j).svrid ∧
      (v.tSvrTab j).pidTot = (u.tSvrTab j).pidTot)
    (hstart : v.Startable (l.map (needed u)).sum) (j : Fin n) :
    running (l.foldl (fun s i ↦
      if i.val ≠ 0 ∧ (s.tSvrTab i).svrid ≠ -1 then (serverRun s i).2 else s) v) j =
      running v j + if j ∈ l then needed u j else 0 := by
  induction l generalizing v with
  | nil => simp
  | cons k l ih =>
    obtain ⟨hk, hl⟩ := List.nodup_cons.1 hl
    rw [List.map_cons, List.sum_cons] at hstart
    rw [List.foldl_cons]
    split
    · next hrun =>
      have hneed : needed u k = (v.tSvrTab k).pidTot.toNat := by
        rw [needed, if_neg hrun.1, SvrTab.wanted, ← (hv k).1, if_neg hrun.2, (hv k).2]
      have hreg := serverRun_reg v k
      generalize hrun' : serverRun v k = run at hreg ⊢
      obtain ⟨rc, w⟩ := run
      obtain ⟨c, hc⟩ := serverRun_ran hrun'
      obtain ⟨hall, hbehind⟩ := serverRun_startable hrun'
      rw [← hneed] at hc hall hbehind
      have hrc := hall.2 hstart.mono
      have hcount : c = needed u k := hc.all hrc
      rw [ih hl (fun j ↦ ⟨(congrArg (·.svrid) (hreg j).1).trans (hv j).1,
        (hreg j).2.trans (hv j).2⟩) ((hbehind hrc _).2 hstart), hc.works.running, hcount]
      rcases eq_or_ne j k with rfl | hj
      · simp [hk]
      · simp [hj]
    · next hskip =>
      have hneed : needed u k = 0 := by
        rw [needed, SvrTab.wanted, ← (hv k).1]
        split
        · rfl
        · next h0 => rw [if_pos (not_not.1 fun hne ↦ hskip ⟨h0, hne⟩)]
      rw [hneed, Nat.zero_add] at hstart
      rw [ih hl hv hstart]
      rcases eq_or_ne j k with rfl | hj
      · simp [hk, hneed]
      · simp [hj]

theorem loadTotal_eq {env : Env} {lines : List (List UInt8)} {mainPid now : ℤ}
    (hu : Loaded env lines mainPid now s) :
    ((List.finRange n).map (needed s)).sum = loadTotal n env.exec lines := by
  obtain ⟨n', rfl⟩ := Nat.exists_eq_succ_of_ne_zero (NeZero.ne n)
  have hneed (j : Fin n') : needed s j.succ = (loadedEntry env.exec lines j.val).wanted := by
    have h0 : j.succ.val ≠ 0 := by
      rw [Fin.val_succ]
      omega
    obtain ⟨timeout, heq⟩ := hu.entry j.succ h0
    rw [needed, if_neg h0, heq]
    rfl
  rw [List.finRange_succ, List.map_cons, List.sum_cons, List.map_map, loadTotal,
    Nat.succ_sub_one, ← List.map_coe_finRange_eq_range, List.map_map]
  have hzero : needed s 0 = 0 := rfl
  rw [hzero, Nat.zero_add]
  congr 1
  exact List.map_congr_left fun j _ ↦ hneed j

/-- The tables in which the Governor starts its loop. -/
theorem countsOk_of_governorMain {env : Env} {mainPid now : ℤ} (hI : LoadsAll n m env)
    (hs : governorMain env mainPid now = some s) : CountsOk s := by
  obtain ⟨lines, u, htask, hu, rfl⟩ := governorMain_cases hs
  obtain ⟨hnonneg, hfree, hgood⟩ := hI lines htask
  have hempty : u.pids = [] := hu.pids_nil
  have hrunning (j : Fin n) : running u j = 0 :=
    Slots.count_eq_zero_iff.2 fun i hi ↦ by simp [hu.tSvrPid_clear hi, ServerPid.clear]
  have hstart : u.Startable ((List.finRange n).map (needed u)).sum := by
    rw [loadTotal_eq hu]
    refine ⟨hfree.trans_eq (Slots.count_congr fun i hi ↦ ?_), ?_⟩
    · rw [hu.tSvrPid_clear hi]
      show ((if i.val = 0 then _ else ServerPid.clear).pid == -1) = (ServerPid.clear.pid == -1)
      rw [if_neg hi]
    · rw [hempty, hu.same]
      exact hgood
  refine ⟨fun k h0 hne ↦ ?_, ?_⟩
  · obtain ⟨hreg, hpid⟩ := loadServer_reg u k
    have hid : ((loadServer u).tSvrTab k).svrid = (u.tSvrTab k).svrid := congrArg (·.svrid) hreg
    have hcount := loadServer_fold (u := u) (List.nodup_finRange n) (fun j ↦ ⟨rfl, rfl⟩) hstart k
    rw [hid] at hne
    rw [hpid]
    rw [hrunning, Nat.zero_add, if_pos (List.mem_finRange k), needed, if_neg h0, SvrTab.wanted,
      if_neg hne] at hcount
    obtain ⟨timeout, heq⟩ := hu.entry k h0
    have hnn : 0 ≤ (u.tSvrTab k).pidTot := by
      rw [heq] at hne ⊢
      exact hnonneg _ (by have := k.isLt; omega) hne
    have hgoal : running (loadServer u) k = (u.tSvrTab k).pidTot.toNat := hcount
    omega
  · refine loadServer_induction ?_ fun k v _ _ hv ↦ ?_
    · rw [PidsPositive, hempty]
      exact fun p hp ↦ absurd hp List.not_mem_nil
    · obtain ⟨c, hc⟩ := serverRun_ran (k := k) (s := v) rfl
      exact hc.works.pidsPositive hv

/-! ### Runs -/

end Steps

end Sunda
