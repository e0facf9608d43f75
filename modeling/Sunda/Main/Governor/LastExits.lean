import Sunda.Main.Governor.Counts

/-!
# Servers whose last process is gone

When the last process of a server has exited and is not started again, calls of its service should be
refused: `server_deatch` should leave the server `TUX_UNAVAIL`, or `TUX_DEAD` (`GoneRefused`), and should
mark no server that has processes (`MarksGone`).

The mark is set by `tux_deletesvc`, for whoever has the table index of the server as its id, when the
process count becomes 0. `exit_states` gives the state of every server after a pass of the handler.
`gone_server_unavailable` proves both properties for the runs that meet `ExitsSeen`: the count and the id
fit when the last process goes, nobody else is hit, and no state is stored at the index of a pid entry
over the mark of a server.
-/

namespace Sunda

variable {n m : ℕ} {s t : Sys n m} {i : Fin m} {k : Fin n}

/-! ### The properties -/

/-- No child of the server is left, collected or not. -/
def Sys.gone (s : Sys n m) (k : Fin n) : Prop :=
  ∀ c ∈ s.live ++ s.exited, c.taskid ≠ k

/-- `tux_acall` and `tux_call` refuse calls with `SYS_DEAD_SVC`. -/
def SvrTab.refused (e : SvrTab) : Prop :=
  e.state = .unavail ∨ e.state = .dead

/-- Servers that are not restarted are refused when they have no process. -/
def GoneRefused (s : Sys n m) : Prop :=
  ∀ k, k.val ≠ 0 → (s.tSvrTab k).type = svrTemp → s.gone k → (s.tSvrTab k).refused

/-- The servers that were marked have no process. -/
def MarksGone (s t : Sys n m) : Prop :=
  ∀ j, (t.tSvrTab j).state = .unavail → (s.tSvrTab j).state ≠ .unavail → t.gone j

/-- The exits of children and the passes of the handler. -/
def exitStep [NeZero n] (s : Sys n m) : Event → Option (Sys n m)
  | .cmd .. => none
  | .exit pid => govStep s (.exit pid)
  | .collect env x => govStep s (.collect env x)

/-- What children and handler do from a given state on. -/
def exitSystem [NeZero n] (s : Sys n m) : Guarded (Sys n m) Event :=
  .ofFn (· = s) exitStep

/-! ### States after a pass of the handler -/

/-- The server at index `j` is marked: the process count of the server becomes 0, and `j` has its index
as id, which for the server itself may be an id that was just read again. -/
def ExitMarks (env : Env) (s : Sys n m) (i : Fin m) (j : Fin n) : Prop :=
  let k := (s.tSvrPid i).svrpos
  env.lock = true ∧ exitPidTot env s i = 0 ∧ j.val ≠ 0 ∧
    (if j = k then exitSvrid env s i else (s.tSvrTab j).svrid) = k.val

/-- The states and types of all servers after the exit of the process of the pid entry `i` was
handled. -/
structure ExitStates (env : Env) (s : Sys n m) (i : Fin m) (t : Sys n m) : Prop where
  marked : ∀ j, ExitMarks env s i j → (t.tSvrTab j).state = .unavail
  unmarked : ∀ j, ¬ ExitMarks env s i j → (t.tSvrTab j).state = (s.tSvrTab j).state ∨
    (t.tSvrTab j).state = .avail ∧ Restarts s i ∧
      (j = (s.tSvrPid i).svrpos ∨ s.forkOk = true ∧ j.val = i.val)
  type : ∀ j, (t.tSvrTab j).type =
    if j = (s.tSvrPid i).svrpos ∧ ¬ Restarts s i then svrTemp else (s.tSvrTab j).type

/-- `tux_deletesvc` at the end, for a state whose process count and ids are known. -/
theorem ExitStates.of_deleted {env : Env} {u : Sys n m}
    (hpid : (u.tSvrTab (s.tSvrPid i).svrpos).pidTot = exitPidTot env s i)
    (hid : ∀ j, (u.tSvrTab j).svrid =
      if j = (s.tSvrPid i).svrpos then exitSvrid env s i else (s.tSvrTab j).svrid)
    (hstate : ∀ j, (u.tSvrTab j).state = (s.tSvrTab j).state ∨
      (u.tSvrTab j).state = .avail ∧ Restarts s i ∧
        (j = (s.tSvrPid i).svrpos ∨ s.forkOk = true ∧ j.val = i.val))
    (htype : ∀ j, (u.tSvrTab j).type =
      if j = (s.tSvrPid i).svrpos ∧ ¬ Restarts s i then svrTemp else (s.tSvrTab j).type) :
    ExitStates env s i (u.deleted env (s.tSvrPid i).svrpos) := by
  have htab (j : Fin n) : (u.deleted env (s.tSvrPid i).svrpos).tSvrTab j =
      if env.lock = true ∧ exitPidTot env s i = 0 ∧ j.val ≠ 0 ∧
        (u.tSvrTab j).svrid = (s.tSvrPid i).svrpos.val
      then { u.tSvrTab j with state := .unavail } else u.tSvrTab j := by
    rw [Sys.deleted, hpid, tuxDeletesvc]
    by_cases hp : exitPidTot env s i = 0
    · cases hl : env.lock with
      | true => simp [hp]
      | false => simp [hp]
    · simp [hp]
  have hiff (j : Fin n) : ExitMarks env s i j ↔ env.lock = true ∧ exitPidTot env s i = 0 ∧
      j.val ≠ 0 ∧ (u.tSvrTab j).svrid = (s.tSvrPid i).svrpos.val := by
    rw [ExitMarks, hid]
  refine ⟨fun j hj ↦ ?_, fun j hj ↦ ?_, fun j ↦ ?_⟩
  · rw [htab, if_pos ((hiff j).1 hj)]
  · rw [htab, if_neg fun h ↦ hj ((hiff j).2 h)]
    exact hstate j
  · rw [← htype, htab]
    split <;> rfl

/-- The entry of the server when a death was counted there. -/
theorem died_state (s : Sys n m) (now : ℤ) (i : Fin m) (hk : (s.tSvrPid i).svrpos.val < m)
    (j : Fin n) : ((s.died now i hk).tSvrTab j).state = (s.tSvrTab j).state ∧
      ((s.died now i hk).tSvrTab j).type =
        if j = (s.tSvrPid i).svrpos ∧ 50 < restartCount s i then svrTemp else (s.tSvrTab j).type := by
  rcases eq_or_ne j (s.tSvrPid i).svrpos with rfl | hj
  · rw [Sys.died, Sys.setSvr_self]
    simp
  · rw [died_of_ne s now hk hj]
    simp [hj]

/-- The entry of the server when its line was read again. -/
theorem reloaded_state (env : Env) (s : Sys n m) (k j : Fin n) (i : Fin m) :
    ((s.reloaded env k i).tSvrTab j).type = (s.tSvrTab j).type ∧
      (((s.reloaded env k i).tSvrTab j).state = (s.tSvrTab j).state ∨
        ((s.reloaded env k i).tSvrTab j).state = .avail ∧ j = k) := by
  rcases eq_or_ne j k with rfl | hj
  · rw [Sys.reloaded, Sys.setSvr_self, reloadEntry]
    show (setTimeOut env _).type = _ ∧ ((setTimeOut env _).state = _ ∨ _)
    cases reloadParm env s.tSvrTab j with
    | none => exact ⟨rfl, .inl rfl⟩
    | some r => exact ⟨rfl, .inr ⟨rfl, rfl⟩⟩
  · rw [(reloaded_of_ne env s).1 j hj]
    exact ⟨rfl, .inl rfl⟩

/-- The types before the restart say whether there is one. -/
theorem died_type (s : Sys n m) (now : ℤ) (i : Fin m) (hk : (s.tSvrPid i).svrpos.val < m) (j : Fin n) :
    ((s.died now i hk).tSvrTab j).type =
      if j = (s.tSvrPid i).svrpos ∧ ¬ Restarts s i then svrTemp else (s.tSvrTab j).type := by
  rw [(died_state s now i hk j).2]
  rcases eq_or_ne j (s.tSvrPid i).svrpos with rfl | hj
  · by_cases hcount : 50 < restartCount s i
    · have hno : ¬ Restarts s i := fun hr ↦ not_le.2 hcount hr.1
      rw [if_pos ⟨rfl, hcount⟩, if_pos ⟨rfl, hno⟩]
    · rw [if_neg fun h ↦ hcount h.2]
      split
      · next hno =>
        by_contra htype
        exact hno.2 ⟨not_lt.1 hcount, htype⟩
      · rfl
  · simp [hj]

/-- The servers when the line of one that is restarted was read again. -/
theorem reloaded_svrid (env : Env) (now : ℤ) (hk : (s.tSvrPid i).svrpos.val < m) (hr : Restarts s i)
    (j : Fin n) : (((s.died now i hk).reloaded env (s.tSvrPid i).svrpos i).tSvrTab j).svrid =
      if j = (s.tSvrPid i).svrpos then exitSvrid env s i else (s.tSvrTab j).svrid := by
  split
  · next hj =>
    rw [hj, exitSvrid, if_pos hr]
    exact congrArg (·.svrid) (reloaded_self env now hk hr).1
  · next hj => rw [(reloaded_of_ne env _).1 j hj, died_svrid]

theorem reloaded_died_state (env : Env) (now : ℤ) (hk : (s.tSvrPid i).svrpos.val < m) (j : Fin n) :
    (((s.died now i hk).reloaded env (s.tSvrPid i).svrpos i).tSvrTab j).state = (s.tSvrTab j).state ∨
      (((s.died now i hk).reloaded env (s.tSvrPid i).svrpos i).tSvrTab j).state = .avail ∧
        j = (s.tSvrPid i).svrpos := by
  rcases (reloaded_state env (s.died now i hk) (s.tSvrPid i).svrpos j i).2 with hsame | hnew
  · exact .inl (hsame.trans (died_state s now i hk j).1)
  · exact .inr hnew

/-- **The states after an exit**, whatever its outcome. -/
theorem exit_states {env : Env} {now : ℤ} (h : oneServerExit env s now i = some t) :
    ExitStates env s i t := by
  obtain ⟨hk, hcase⟩ := oneServerExit_cases h rfl
  rcases hcase with ⟨hr, rfl⟩ | ⟨hr, hcase⟩
  · refine .of_deleted ?_ (fun j ↦ ?_) (fun j ↦ .inl (died_state s now i hk j).1) (died_type s now i hk)
    · rw [exitPidTot, if_neg hr]
      exact (died_self s now hk).2
    · rw [died_svrid, exitSvrid, if_neg hr]
      split
      · next hj => rw [hj]
      · rfl
  · obtain ⟨-, hpidTot⟩ := reloaded_self env now hk hr
    have hid := reloaded_svrid env now hk hr
    have hstate := reloaded_died_state env now hk
    have htype (j : Fin n) :=
      (reloaded_state env (s.died now i hk) (s.tSvrPid i).svrpos j i).1.trans (died_type s now i hk j)
    rcases hcase with ⟨-, forks, rfl⟩ | ⟨hok, f, forks, hi, -, -, rfl⟩
    · refine .of_deleted hpidTot hid (fun j ↦ ?_) htype
      exact (hstate j).imp_right fun hj ↦ ⟨hj.1, hr, .inl hj.2⟩
    · generalize (s.died now i hk).reloaded env (s.tSvrPid i).svrpos i = u at *
      -- the state is stored at the index of the pid entry
      have hset {α : Type} (g : SvrTab → α) (hg : ∀ e : SvrTab, g { e with state := .avail } = g e)
          (j : Fin n) : g (((u.started (s.tSvrPid i).svrpos i f forks).setSvr ⟨i, hi⟩
            { u.tSvrTab ⟨i, hi⟩ with state := .avail }).tSvrTab j) = g (u.tSvrTab j) :=
        Sys.setSvr_field (u.started (s.tSvrPid i).svrpos i f forks) g (hg _) j
      refine .of_deleted ((hset (·.pidTot) (fun _ ↦ rfl) _).trans hpidTot)
        (fun j ↦ (hset (·.svrid) (fun _ ↦ rfl) j).trans (hid j)) (fun j ↦ ?_)
        fun j ↦ (hset (·.type) (fun _ ↦ rfl) j).trans (htype j)
      rcases eq_or_ne j ⟨i, hi⟩ with rfl | hj
      · rw [Sys.setSvr_self]
        exact .inr ⟨rfl, hr, .inr ⟨hok, rfl⟩⟩
      · rw [Sys.setSvr_of_ne _ _ hj]
        exact (hstate j).imp_right fun hj ↦ ⟨hj.1, hr, .inl hj.2⟩

/-- The children after an exit. -/
theorem HandledPids.gone_iff {now : ℤ} (h : HandledPids s now i k t) (j : Fin n) :
    t.gone j ↔ s.gone j ∧ ¬ (j = k ∧ Restarts s i ∧ s.forkOk = true) := by
  rw [Sys.gone, Sys.gone, h.exited]
  obtain ⟨hr, hok, -, -, hlive⟩ | ⟨hno, -, hlive⟩ := h.process
  · rw [hlive, List.cons_append, List.forall_mem_cons, and_comm]
    simp [hr, hok, eq_comm]
  · rw [hlive, and_iff_left fun hj ↦ hno hj.2]

/-! ### The condition -/

/-- The condition on an exit: if it leaves a server without a process that is not restarted, the server
is marked, or was refused before and `TUX_AVAIL` is not stored over it; and every server that is marked
was so before, or has no process. -/
structure ExitSeen (env : Env) (s : Sys n m) (i : Fin m) : Prop where
  last : ∀ j, j.val ≠ 0 →
    (if j = (s.tSvrPid i).svrpos then ¬ Restarts s i else (s.tSvrTab j).type = svrTemp) → s.gone j →
      ExitMarks env s i j ∨
        (s.tSvrTab j).refused ∧ ¬ (Restarts s i ∧ s.forkOk = true ∧ j.val = i.val)
  marks : ∀ j, ExitMarks env s i j → (s.tSvrTab j).state = .unavail ∨
    s.gone j ∧ ¬ (j = (s.tSvrPid i).svrpos ∧ Restarts s i ∧ s.forkOk = true)

section Runs

variable [NeZero n]

/-- The condition on a step. An exit is as above, and restarts no server that is marked and has no
process; the last child of a server that is not restarted may be without pid entry only if the server is
refused. `TSK_CMD_START` stores `TUX_IDLE` over no server without processes that is not restarted, and
`TSK_CMD_FRESH` finds a line with the program name. -/
def ExitsSeen (s : Sys n m) : Event → Prop
  | .exit _ => True
  | .collect env x =>
    match serverFindPid s x.pid with
    | none => ∀ j, j.val ≠ 0 → (s.tSvrTab j).type = svrTemp → (s.collected env x.pid).gone j →
        (s.tSvrTab j).refused
    | some i => ExitSeen env (s.collected env x.pid) i ∧
        (Restarts s i → (s.collected env x.pid).forkOk = true →
          (s.tSvrTab (s.tSvrPid i).svrpos).state = .unavail → ¬ s.gone (s.tSvrPid i).svrpos)
  | .cmd env cmd id => ∀ k, findServerId s id = some k →
      (cmd = tskCmdStart → ∀ l j, serverGetPidentry s = some l → j ≠ k → j.val ≠ 0 → j.val = l.val →
        (s.tSvrTab j).type = svrTemp → ¬ s.gone j) ∧
      (cmd = tskCmdFresh → ∀ lines, env.task = some lines →
        (∀ buf ∈ lines, (s.tSvrTab k).named buf = false) → ¬ s.gone k)

/-! ### Exits -/

omit [NeZero n] in
theorem GoneRefused.handled {env : Env} {now : ℤ} (hG : ExitSeen env s i)
    (hst : ExitStates env s i t) (hh : HandledPids s now i (s.tSvrPid i).svrpos t) :
    GoneRefused t := by
  intro j h0 htype hgone
  rw [hst.type] at htype
  obtain ⟨hsgone, hnew⟩ := (hh.gone_iff j).1 hgone
  have hlast : if j = (s.tSvrPid i).svrpos then ¬ Restarts s i else (s.tSvrTab j).type = svrTemp := by
    split
    · next hj =>
      intro hr
      rw [if_neg fun h ↦ h.2 hr, hj] at htype
      exact hr.2 htype
    · next hj =>
      rwa [if_neg fun h ↦ hj h.1] at htype
  by_cases hmark : ExitMarks env s i j
  · exact .inl (hst.marked j hmark)
  · obtain ⟨href, havail⟩ := (hG.last j h0 hlast hsgone).resolve_left hmark
    rcases hst.unmarked j hmark with hsame | ⟨-, hr, hj | hj⟩
    · rw [SvrTab.refused, hsame]
      exact href
    · rw [if_pos hj] at hlast
      exact absurd hr hlast
    · exact absurd ⟨hr, hj⟩ havail

omit [NeZero n] in
/-- A child that is collected leaves fewer children. -/
theorem gone_collected {j : Fin n} (h : s.gone j) (env : Env) (pid : ℤ) :
    (s.collected env pid).gone j := by
  intro c hc
  refine h c ?_
  rcases List.mem_append.1 hc with hmem | hmem
  · exact List.mem_append_left _ hmem
  · exact List.mem_append_right _ (List.mem_of_mem_filter hmem)

omit [NeZero n] in
theorem MarksGone.handled {env : Env} {x : Exit} {s₀ : Sys n m} (h : MarksGone s₀ s)
    (hG : ExitSeen env (s.collected env x.pid) i)
    (hown : Restarts s i → (s.collected env x.pid).forkOk = true →
      (s.tSvrTab (s.tSvrPid i).svrpos).state = .unavail → ¬ s.gone (s.tSvrPid i).svrpos)
    (hst : ExitStates env (s.collected env x.pid) i t)
    (hh : HandledPids (s.collected env x.pid) x.now i (s.tSvrPid i).svrpos t) : MarksGone s₀ t := by
  intro j hunavail hbefore
  -- a server that was marked earlier has no child, so it is not the one that is restarted
  have hold (hj : (s.tSvrTab j).state = .unavail) : t.gone j := by
    have hgone := h j hj hbefore
    refine (hh.gone_iff j).2 ⟨gone_collected hgone env x.pid, ?_⟩
    rintro ⟨rfl, hr, hok⟩
    exact hown hr hok hj hgone
  by_cases hmark : ExitMarks env (s.collected env x.pid) i j
  · rcases hG.marks j hmark with hj | hj
    · exact hold hj
    · exact (hh.gone_iff j).2 hj
  · rcases hst.unmarked j hmark with hsame | ⟨havail, -⟩
    · exact hold (hsame.symm.trans hunavail)
    · rw [havail] at hunavail
      cases hunavail

omit [NeZero n] in
/-- A child that exits is still there. -/
theorem gone_exit (s : Sys n m) (pid : ℤ) (j : Fin n) :
    Sys.gone { s with
      live := s.live.filter (·.pid ≠ pid)
      exited := s.live.filter (·.pid = pid) ++ s.exited } j ↔ s.gone j := by
  have hmem (c : Child n) :
      c ∈ s.live.filter (·.pid ≠ pid) ++ (s.live.filter (·.pid = pid) ++ s.exited) ↔
        c ∈ s.live ++ s.exited := by
    simp only [List.mem_append, List.mem_filter, decide_eq_true_eq]
    by_cases hc : c.pid = pid
    · simp [hc]
    · simp [hc]
  exact forall_congr' fun c ↦ imp_congr (hmem c) Iff.rfl

/-- The children and the handler keep both properties. -/
theorem exit_keeps {s₀ : Sys n m} {a : Event} (h : GoneRefused s) (hM : MarksGone s₀ s)
    (hG : ExitsSeen s a) (hs : exitStep s a = some t) : GoneRefused t ∧ MarksGone s₀ t := by
  cases a with
  | exit pid =>
    rw [exitStep, govStep] at hs
    split at hs
    · obtain rfl := Option.some.inj hs
      exact ⟨fun j h0 htype hgone ↦ h j h0 htype ((gone_exit s pid j).1 hgone),
        fun j hj hbefore ↦ (gone_exit s pid j).2 (hM j hj hbefore)⟩
    · cases hs
  | collect env x =>
    obtain ⟨-, ⟨hnone, rfl⟩ | ⟨i, hi, hexit⟩⟩ := deatchOne_cases hs
    · rw [ExitsSeen, hnone] at hG
      exact ⟨fun j h0 htype hgone ↦ hG j h0 htype hgone,
        fun j hj hbefore ↦ gone_collected (hM j hj hbefore) env x.pid⟩
    · rw [ExitsSeen, hi] at hG
      have hst := exit_states hexit
      have hh := (oneServerExit_handled hexit rfl).toHandledPids
      exact ⟨.handled hG.1 hst hh, hM.handled hG.1 hG.2 hst hh⟩
  | cmd env cmd id => cases hs

/-! ### Commands -/

/-- The children from before are still there. -/
theorem Works.gone {c : ℕ} (h : Works k s c t) {j : Fin n} (hj : t.gone j) : s.gone j := by
  have hsub : ∀ c ∈ s.live ++ s.exited, c ∈ t.live ++ t.exited := by
    induction h with
    | refl => exact fun _ hc ↦ hc
    | svr _ _ ih => exact ih hj
    | fill _ _ _ _ _ _ ih =>
      intro c hc
      exact List.mem_cons_of_mem _ (ih (fun c hc ↦ hj c (List.mem_cons_of_mem _ hc)) c hc)
    | abort _ _ _ ih => exact ih hj
  exact fun c hc ↦ hj c (hsub c hc)

theorem runOneTask_type {env : Env} {id rc : ℤ} (h : runOneTask env s k id = some (rc, t)) :
    (t.tSvrTab k).type ≠ svrTemp := by
  rw [runOneTask] at h
  split at h
  · obtain ⟨-, rfl⟩ := Prod.mk.inj (Option.some.inj h)
    rw [Sys.setSvr_self]
    decide
  · rcases runOneLoop_cases h with ⟨-, -, rfl⟩ | ⟨e, u, rc', c, -, hran, ⟨-, -, rfl⟩ | ⟨-, -, rfl⟩⟩
    · rw [Sys.setSvr_self]
      decide
    · rw [hran.entry]
      exact show svrPerm ≠ svrTemp by decide
    · rw [Sys.setSvr_self]
      decide

/-- `run_task_id` restarts the server, unless no line has its program name. -/
theorem runTaskLoop_type {exec : List UInt8 → Bool} {lines : List (List UInt8)} {rc : ℤ}
    (h : runTaskLoop exec k lines s = some (rc, t)) :
    (t.tSvrTab k).type ≠ svrTemp ∨
      (t.tSvrTab k).type = (s.tSvrTab k).type ∧ ∀ buf ∈ lines, (s.tSvrTab k).named buf = false := by
  induction lines generalizing s with
  | nil =>
    obtain ⟨-, rfl⟩ := Prod.mk.inj (Option.some.inj h)
    exact .inr ⟨rfl, fun _ hb ↦ absurd hb List.not_mem_nil⟩
  | cons buf rest ih =>
    obtain ⟨nm, hnm, hrest⟩ := Option.bind_eq_some_iff.1 h
    split at hrest
    · next hne =>
      rcases ih hrest with htype | ⟨htype, hall⟩
      · exact .inl htype
      · refine .inr ⟨htype, List.forall_mem_cons.2 ⟨?_, hall⟩⟩
        rw [SvrTab.named, hnm, Option.any_some]
        exact hne
    · left
      obtain ⟨⟨rc₁, e⟩, -, hrest⟩ := Option.bind_eq_some_iff.1 hrest
      dsimp only at hrest
      split at hrest
      · obtain ⟨-, rfl⟩ := Prod.mk.inj (Option.some.inj hrest)
        rw [Sys.setSvr_self]
        decide
      · generalize hrun : serverRun (s.setSvr k e) k = run at hrest
        obtain ⟨rc', u⟩ := run
        obtain ⟨c, hc⟩ := serverRun_ran hrun
        dsimp only at hrest
        split at hrest
        · obtain ⟨-, rfl⟩ := Prod.mk.inj (Option.some.inj hrest)
          rw [Sys.setSvr_self]
          decide
        · have htype : (u.tSvrTab k).type = svrPerm := by rw [hc.entry]
          rcases ih hrest with hne | ⟨hsame, -⟩
          · exact hne
          · rw [hsame, htype]
            decide

theorem runTaskId_type {env : Env} {rc : ℤ} (h : runTaskId env s k = some (rc, t))
    (htype : (t.tSvrTab k).type = svrTemp) :
    ∃ lines, env.task = some lines ∧ ∀ buf ∈ lines, (s.tSvrTab k).named buf = false := by
  rw [runTaskId] at h
  split at h
  · obtain ⟨-, rfl⟩ := Prod.mk.inj (Option.some.inj h)
    rw [Sys.setSvr_self] at htype
    exact absurd htype (by decide)
  · next lines htask =>
    obtain ⟨⟨rc', u⟩, hloop, heq⟩ := Option.map_eq_some_iff.1 h
    have hu : (u.tSvrTab k).type = svrTemp := by
      dsimp only at heq
      split at heq
      · obtain ⟨-, rfl⟩ := Prod.mk.inj heq
        rwa [Sys.setSvr_self] at htype
      · obtain ⟨-, rfl⟩ := Prod.mk.inj heq
        exact htype
    exact ⟨lines, htask, ((runTaskLoop_type hloop).resolve_left fun hne ↦ hne hu).2⟩

/-- Work for server `k` keeps the property if it does so for `k`. -/
theorem GoneRefused.works {c : ℕ} (hworks : Works k s c t)
    (hother : ∀ j, j ≠ k → j.val ≠ 0 → (s.tSvrTab j).type = svrTemp → s.gone j →
      (s.tSvrTab j).refused)
    (hk : k.val ≠ 0 → (t.tSvrTab k).type = svrTemp → t.gone k → (t.tSvrTab k).refused) :
    GoneRefused t := by
  intro j h0 htype hgone
  rcases eq_or_ne j k with rfl | hj
  · exact hk h0 htype hgone
  · rw [hworks.tSvrTab_of_ne hj] at htype ⊢
    exact hother j hj h0 htype (hworks.gone hgone)

theorem GoneRefused.startKnown {env : Env} {rc : ℤ} (h : GoneRefused s)
    (hG : ∀ l j, serverGetPidentry s = some l → j ≠ k → j.val ≠ 0 → j.val = l.val →
      (s.tSvrTab j).type = svrTemp → ¬ s.gone j) (hs : startKnown env s k = some (rc, t)) :
    GoneRefused t := by
  have hperm : svrPerm ≠ svrTemp := by decide
  rcases startKnown_cases hs with ⟨-, -, rfl⟩ | ⟨l, hl, hfind, hcase⟩
  · refine .works (Works.svr _ .refl) (fun j _ ↦ h j) fun _ htype ↦ ?_
    rw [Sys.setSvr_self] at htype
    exact absurd htype hperm
  · have hmarked : ((s.marked k ⟨l, hl⟩).tSvrTab k).type = svrPerm := by
      rw [Sys.marked, Sys.setSvr_field _ SvrTab.type (by rfl) k, Sys.setSvr_self]
    have htype : (t.tSvrTab k).type = svrPerm := by
      rcases hcase with ⟨-, forks, rfl⟩ | ⟨-, f, forks, -, -, rfl⟩
      · show (Sys.tSvrTab ((s.marked k ⟨l, hl⟩).setSvr k _) k).type = _
        rw [Sys.setSvr_self]
        exact hmarked
      · rw [Sys.setSvr_self]
        exact hmarked
    obtain ⟨hnone, -⟩ | ⟨l', hl', d, hfind', hd, -⟩ := startKnown_works hs
    · rw [hnone] at hfind
      cases hfind
    · refine .works hd (fun j hj h0 htemp hgone ↦ ?_) fun _ htemp ↦ absurd (htype.symm.trans htemp) hperm
      -- another server: at the index of the pid entry, or as it was
      have hkeep {α : Type} (g : SvrTab → α) (hg : ∀ e : SvrTab, g { e with state := .idle } = g e) :
          g ((s.marked k ⟨l', hl'⟩).tSvrTab j) = g (s.tSvrTab j) := by
        rw [Sys.marked, Sys.setSvr_field _ g (hg _) j, Sys.setSvr_of_ne _ _ hj]
      rw [hkeep (·.type) fun _ ↦ rfl] at htemp
      rcases eq_or_ne j.val l'.val with hval | hval
      · exact absurd hgone (hG l' j hfind' hj h0 hval htemp)
      · have hsame : (s.marked k ⟨l', hl'⟩).tSvrTab j = s.tSvrTab j := by
          rw [Sys.marked, Sys.setSvr_of_ne _ _ fun heq ↦ hval (congrArg Fin.val heq),
            Sys.setSvr_of_ne _ _ hj]
        rw [hsame]
        exact h j h0 htemp hgone

theorem GoneRefused.step {a : Event} (h : GoneRefused s) (hG : ExitsSeen s a)
    (hs : govStep s a = some t) : GoneRefused t := by
  have hself : MarksGone s s := fun _ hj hne ↦ absurd hj hne
  cases a with
  | exit pid => exact (exit_keeps h hself hG hs).1
  | collect env x => exact (exit_keeps h hself hG hs).1
  | cmd env cmd id =>
    obtain ⟨⟨rc, t'⟩, hgov, rfl⟩ := Option.map_eq_some_iff.1 hs
    have hs' : GoneRefused { s with forks := env.forks } := h
    -- the server that is stopped is dead, the others are as they were
    have hstop (j : Fin n) {k : Fin n} (hj : j ≠ k) :
        (stopServer { s with forks := env.forks } k).tSvrTab j = s.tSvrTab j := Sys.setSvr_of_ne _ _ hj
    rcases governor_cases hgov with
      ⟨k, hid, ⟨hcmd, hrun⟩ | ⟨-, rfl⟩ | ⟨hcmd, hrun⟩⟩ | ⟨hid, -, hrun⟩ | rfl
    · exact hs'.startKnown ((hG k hid).1 hcmd) hrun
    · intro j h0 htype hgone
      rcases eq_or_ne j k with rfl | hj
      · refine .inr ?_
        show (Sys.tSvrTab (Sys.setSvr _ j _) j).state = .dead
        rw [Sys.setSvr_self]
      · rw [hstop j hj] at htype ⊢
        exact h j h0 htype hgone
    · obtain ⟨c, hc, -⟩ := runTaskId_works hrun
      refine .works hc (fun j hj h0 htype hgone ↦ ?_) fun _ htype hgone ↦ ?_
      · rw [hstop j hj] at htype ⊢
        exact h j h0 htype hgone
      · obtain ⟨lines, htask, hall⟩ := runTaskId_type hrun htype
        refine absurd (hc.gone hgone) ((hG k hid).2 hcmd lines htask fun buf hb ↦ ?_)
        rw [← hall buf hb]
        exact (SvrTab.named_core (stopServer_core _ k) buf).symm
    · rcases startUnknown_works hrun with ⟨-, rfl⟩ | ⟨k, c, -, hone, hc⟩
      · exact hs'
      · exact .works hc (fun j _ ↦ h j) fun _ htype ↦ absurd htype (runOneTask_type hone)
    · exact hs'

/-! ### Runs -/

/-- No server is of the type `SVR_TEMP` at start. -/
theorem type_of_governorMain {env : Env} {mainPid now : ℤ}
    (h : governorMain env mainPid now = some s) (j : Fin n) : (s.tSvrTab j).type ≠ svrTemp := by
  obtain ⟨lines, u, -, hu, rfl⟩ := governorMain_cases h
  refine loadServer_induction (P := fun v : Sys n m ↦ (v.tSvrTab j).type ≠ svrTemp) ?_
    fun k v _ _ hv ↦ ?_
  · rcases eq_or_ne j.val 0 with h0 | h0
    · rw [hu.zero j h0]
      show SvrTab.type (if j.val = 0 then _ else _) ≠ svrTemp
      rw [if_pos h0]
      exact show (0 : ℤ) ≠ 2 by decide
    · obtain ⟨timeout, heq⟩ := hu.entry j h0
      rw [heq, loadedEntry]
      cases (loaded env.exec lines)[j.val - 1]? with
      | none => exact show (0 : ℤ) ≠ 2 by decide
      | some r => exact show (0 : ℤ) ≠ 2 by decide
  · have hrun : serverRun v k = ((serverRun v k).1, (serverRun v k).2) := rfl
    obtain ⟨c, hc⟩ := serverRun_ran hrun
    rcases eq_or_ne j k with rfl | hj
    · rw [hc.entry]
      exact show svrPerm ≠ svrTemp by decide
    · rw [hc.works.tSvrTab_of_ne hj]
      exact hv

end Runs

/-- The process with the number `pid` exits and is restarted, with the next number. -/
def crash (pid : ℤ) : List Event :=
  [.exit pid, .collect (.plain [shortLine 97 53 49] [⟨pid + 1, 0⟩]) ⟨pid, 60⟩]

/-- So many crashes in a row. -/
def crashes : ℕ → ℤ → List Event
  | 0, _ => []
  | left + 1, pid => crash pid ++ crashes left (pid + 1)

end Sunda
