import Sunda.Main.Governor.Tables
import Sunda.Base.Guarded

/-!
# The Governor

The rest of `Main/Governor.c`: the walks over the `tsk.task` lines of the configuration file at start
(`server_load_cfg`), after the death of a process (`reload_server_param`) and in a command
(`run_task_id`, `run_one_task`), the handler of `SIGCLD` (`server_deatch`), and the commands of the
administration tool (`Governor`).

`Env` is what an invocation finds outside the tables. Commands and the handler exclude each other:
`Governor` holds `SIGCLD`. So a run is a sequence of exits of children, passes of the handler's loop
and commands (`govSystem`); the handler itself is a sequence of passes (`serverDeatch_run`). The
request queue, which the command `TSK_CMD_EXIT` purges of the server's messages, is not part of the
state.

An outcome `none` is one that leaves the tables: an index of one table used outside the other, or a
line that `register_server` cannot take apart.
-/

namespace Sunda

open Bytes

variable {n m : ℕ} [NeZero n]

/-- The commands of `task.h`. -/
def tskCmdStart : ℤ := 1
def tskCmdExit : ℤ := 2
def tskCmdFresh : ℤ := 3

/-- What an invocation finds outside the tables. -/
structure Env where
  /-- The `tsk.task` lines, if the configuration file can be opened. -/
  task : Option (List (List UInt8))
  /-- The `sd.svc` lines, if the file can be opened. -/
  svc : Option (List (List UInt8))
  /-- The programs that are there. -/
  exec : List UInt8 → Bool
  /-- Whether `tux_lock` succeeds. -/
  lock : Bool
  /-- What `fork` answers. -/
  forks : List Fork

/-- With a file that has these `tsk.task` lines and no `sd.svc` lines, and all programs in place. -/
def Env.plain (lines : List (List UInt8)) (forks : List Fork) : Env :=
  ⟨some lines, some [], fun _ ↦ true, true, forks⟩

/-! ### Start -/

/-- `sys_start`: both tables cleared, and the Governor's own entries. -/
def sysStart (mainPid now : ℤ) : Sys n m where
  tSvrTab i :=
    if i.val = 0 then
      { SvrTab.clear with
        name := charField 33 [71, 111, 118, 101, 114, 110, 111, 114] 0
        svcName := charField 33 [71, 111, 118, 101, 114, 110, 111, 114] 0
        pidTot := 1
        svrid := 0
        state := .idle
        msgType := msgTypeOf 0
        timeout := -1 }
    else .clear
  tSvrPid i := if i.val = 0 then { ServerPid.clear with pid := mainPid, lastStart := now } else .clear
  live := []
  exited := []
  signals := []
  forks := []

/-- The first loop of `server_load_cfg`, at entry `i`. -/
def loadCfgLoop (exec : List UInt8 → Bool) :
    ℕ → List (List UInt8) → Sys n m → Option (ℤ × Sys n m)
  | _, [], s => some (0, s)
  | i, buf :: rest, s =>
    if h : i < n then
      (registerServer exec (s.tSvrTab ⟨i, h⟩) buf).bind fun r ↦
        let s := s.setSvr ⟨i, h⟩ r.2
        if r.1 < 0 then some (-1, s)
        else if 0 < r.1 then loadCfgLoop exec i rest s
        else loadCfgLoop exec (i + 1) rest s
    else some (0, s)

/-- Store the time-out of the server's service. -/
def setTimeOut (env : Env) (e : SvrTab) : SvrTab :=
  { e with timeout := tuxGetTimeout env.svc e.svcName.toList }

/-- The second loop of `server_load_cfg`. -/
def loadTimeOuts (env : Env) (s : Sys n m) : Sys n m :=
  { s with
    tSvrTab := fun i ↦
      if i.val ≠ 0 ∧ (s.tSvrTab i).svrid ≠ -1 then setTimeOut env (s.tSvrTab i) else s.tSvrTab i }

/-- `server_load_cfg`. -/
def serverLoadCfg (env : Env) (s : Sys n m) : Option (ℤ × Sys n m) :=
  match env.task with
  | none => some (-1, s)
  | some lines =>
    (loadCfgLoop env.exec 1 lines s).map fun r ↦
      if r.1 = 0 then (0, loadTimeOuts env r.2) else r

/-- `load_server`; the return values of `server_run` are ignored. -/
def loadServer (s : Sys n m) : Sys n m :=
  (List.finRange n).foldl (fun s i ↦
    if i.val ≠ 0 ∧ (s.tSvrTab i).svrid ≠ -1 then (serverRun s i).2 else s) s

/-- `main` up to the service loop, when the configuration can be loaded. -/
def governorMain (env : Env) (mainPid now : ℤ) : Option (Sys n m) :=
  (serverLoadCfg env { sysStart mainPid now with forks := env.forks }).bind fun r ↦
    if r.1 = 0 then some (loadServer r.2) else none

/-! ### The death of a process -/

/-- The loop of `reload_server_param`, at entry `i`. The outcomes of `register_server` all end it. -/
def reloadLoop (exec : List UInt8 → Bool) (taskid : Fin n) :
    ℕ → List (List UInt8) → Sys n m → Option (Sys n m)
  | _, [], s => some s
  | i, buf :: rest, s =>
    if h : i < n then
      if (s.tSvrTab ⟨i, h⟩).svrid ≠ (s.tSvrTab taskid).svrid then
        reloadLoop exec taskid (i + 1) rest s
      else (registerServer exec (s.tSvrTab taskid) buf).map fun r ↦ s.setSvr taskid r.2
    else some s

/-- `reload_server_param`; its return value is not used. -/
def reloadServerParam (env : Env) (s : Sys n m) (taskid : Fin n) : Option (Sys n m) :=
  env.task.elim (some s) fun lines ↦ reloadLoop env.exec taskid 1 lines s

/-- An exited process, as `waitpid` returns it, with the time. -/
structure Exit where
  pid : ℤ
  now : ℤ

/-- The branch of `server_deatch` that starts the process again. The state is stored at the index of
the pid entry; the start time, which `server_start_pid` has just stored, is stored once more. -/
def restart (env : Env) (s : Sys n m) (taskid : Fin n) (pidIndex : Fin m) : Option (Sys n m) :=
  let p := s.tSvrPid pidIndex
  let s := s.setPid pidIndex { p with totRestartCount := p.totRestartCount + 1 }
  (reloadServerParam env s taskid).bind fun s ↦
    let s := s.setSvr taskid (setTimeOut env (s.tSvrTab taskid))
    match serverStartPid s taskid pidIndex with
    | .error s => some s
    | .ok s =>
      if h : pidIndex.val < n then
        some (s.setSvr ⟨pidIndex, h⟩ { s.tSvrTab ⟨pidIndex, h⟩ with state := .avail })
      else none

/-- `server_deatch` behind the search, up to the restart: the counters and the type. The time of death
and the first counter are stored at the index of the server. -/
def exitCounters (s : Sys n m) (now : ℤ) (pidIndex : Fin m)
    (h : (s.tSvrPid pidIndex).svrpos.val < m) : Sys n m :=
  let taskid := (s.tSvrPid pidIndex).svrpos
  let e := s.tSvrTab taskid
  let s := s.setSvr taskid { e with pidTot := e.pidTot - 1 }
  let p := s.tSvrPid ⟨taskid, h⟩
  let s := s.setPid ⟨taskid, h⟩
    { p with lastDie := now, totRestartCount := p.totRestartCount + 1 }
  if 50 < (s.tSvrPid pidIndex).totRestartCount then
    s.setSvr taskid { s.tSvrTab taskid with type := svrTemp }
  else s

/-- The rest of `server_deatch`: the restart and the deletion. -/
def oneServerExit (env : Env) (s : Sys n m) (now : ℤ) (pidIndex : Fin m) : Option (Sys n m) :=
  let taskid := (s.tSvrPid pidIndex).svrpos
  if h : taskid.val < m then
    let s := exitCounters s now pidIndex h
    (if (s.tSvrTab taskid).type ≠ svrTemp then restart env s taskid pidIndex else some s).map
      fun s ↦ if (s.tSvrTab taskid).pidTot = 0 then tuxDeletesvc env.lock s taskid else s
  else none

/-- One pass of the loop of `server_deatch`, for a child that `waitpid` collects. -/
def deatchOne (env : Env) (s : Sys n m) (e : Exit) : Option (Sys n m) :=
  if s.exited.any (·.pid == e.pid) then
    let s := { s with exited := s.exited.filter (·.pid ≠ e.pid) }
    match serverFindPid s e.pid with
    | none => some s
    | some pidIndex => oneServerExit env s e.now pidIndex
  else none

/-- `server_deatch`, with what its calls of `waitpid` return. -/
def serverDeatch (env : Env) : List Exit → Sys n m → Option (Sys n m)
  | [], s => some s
  | e :: es, s => (deatchOne env s e).bind (serverDeatch env es)

/-! ### Commands -/

/-- The loop of `run_task_id`. The name is read through a pointer into the entry. -/
def runTaskLoop (exec : List UInt8 → Bool) (taskid : Fin n) :
    List (List UInt8) → Sys n m → Option (ℤ × Sys n m)
  | [], s => some (0, s)
  | temp :: rest, s =>
    (lineName temp).bind fun sSvrName ↦
      if strncmpEq tuxNameLen (s.tSvrTab taskid).name.toList sSvrName = false then
        runTaskLoop exec taskid rest s
      else
        (registerServer exec (s.tSvrTab taskid) temp).bind fun r ↦
          let s := s.setSvr taskid r.2
          if r.1 ≠ 0 then some (sysSystem, s.setSvr taskid .clear)
          else
            let run := serverRun s taskid
            if run.1 ≠ 0 then some (sysOs, run.2.setSvr taskid .clear)
            else runTaskLoop exec taskid rest run.2

/-- `run_task_id`, called with the name of the entry. -/
def runTaskId (env : Env) (s : Sys n m) (taskid : Fin n) : Option (ℤ × Sys n m) :=
  match env.task with
  | none => some (sysSystem, s.setSvr taskid .clear)
  | some lines =>
    (runTaskLoop env.exec taskid lines s).map fun r ↦
      if r.1 = 0 then
        let e := r.2.tSvrTab taskid
        (0, r.2.setSvr taskid
          { e with timeout := tuxGetTimeout env.svc e.name.toList, state := .idle })
      else r

/-- The loop of `run_one_task`. -/
def runOneLoop (exec : List UInt8 → Bool) (taskid : Fin n) (tuxId : ℤ) :
    List (List UInt8) → Sys n m → Option (ℤ × Sys n m)
  | [], s => some (sysNoent, s.setSvr taskid .clear)
  | buf :: rest, s =>
    (registerServer exec (s.tSvrTab taskid) buf).bind fun r ↦
      let s := s.setSvr taskid r.2
      if r.1 ≠ 0 then some (sysSystem, s.setSvr taskid .clear)
      else if (s.tSvrTab taskid).svrid = tuxId then
        let run := serverRun s taskid
        if run.1 ≠ 0 then some (sysOs, run.2.setSvr taskid .clear) else some (0, run.2)
      else runOneLoop exec taskid tuxId rest s

/-- `run_one_task`. -/
def runOneTask (env : Env) (s : Sys n m) (taskid : Fin n) (tuxId : ℤ) : Option (ℤ × Sys n m) :=
  match env.task with
  | none => some (sysSystem, s.setSvr taskid .clear)
  | some lines => runOneLoop env.exec taskid tuxId lines s

/-- The branch that `TSK_CMD_START` and `TSK_CMD_FRESH` share: the id is not in the table. -/
def startUnknown (env : Env) (s : Sys n m) (id : ℤ) : Option (ℤ × Sys n m) :=
  match serverGetIdentry s with
  | none => some (sysLimit, s)
  | some taskid => runOneTask env s taskid id

/-- The branch of `TSK_CMD_START` for an id in the table. The state is stored at the index of the pid
entry. -/
def startKnown (env : Env) (s : Sys n m) (taskid : Fin n) : Option (ℤ × Sys n m) :=
  let s := s.setSvr taskid { s.tSvrTab taskid with type := svrPerm }
  match serverGetPidentry s with
  | none => some (sysLimit, s)
  | some pidIndex =>
    let s := s.setPid pidIndex
      { s.tSvrPid pidIndex with svrid := (s.tSvrTab taskid).svrid, svrpos := taskid }
    if h : pidIndex.val < n then
      let s := s.setSvr ⟨pidIndex, h⟩ { s.tSvrTab ⟨pidIndex, h⟩ with state := .idle }
      let s := s.setSvr taskid (setTimeOut env (s.tSvrTab taskid))
      match serverStartPid s taskid pidIndex with
      | .error s => some (sysOs, s.setPid pidIndex .clear)
      | .ok s =>
        some (0, s.setSvr taskid
          { s.tSvrTab taskid with pidTot := (s.tSvrTab taskid).pidTot + 1 })
    else none

/-- What `TSK_CMD_EXIT` and `TSK_CMD_FRESH` do to a server first: `SVR_TEMP`, `TUX_DEAD`,
`server_kill`. -/
def stopServer (s : Sys n m) (taskid : Fin n) : Sys n m :=
  serverKill (s.setSvr taskid { s.tSvrTab taskid with type := svrTemp, state := .dead }) taskid true

/-- `Governor`: the `err` of the reply, and the tables. -/
def governor (env : Env) (cmd id : ℤ) (s : Sys n m) : Option (ℤ × Sys n m) :=
  if cmd = tskCmdStart then
    match findServerId s id with
    | some taskid => startKnown env s taskid
    | none => startUnknown env s id
  else if cmd = tskCmdExit then
    match findServerId s id with
    | some taskid => some (0, stopServer s taskid)
    | none => some (sysNoent, s)
  else if cmd = tskCmdFresh then
    match findServerId s id with
    | some taskid => runTaskId env (stopServer s taskid) taskid
    | none => startUnknown env s id
  else some (0, s)

/-! ### Runs -/

/-- The events. -/
inductive Event
  /-- A child exits. -/
  | exit (pid : ℤ)
  /-- A pass of the loop of `server_deatch`. -/
  | collect (env : Env) (e : Exit)
  | cmd (env : Env) (cmd id : ℤ)

/-- One event. -/
def govStep (s : Sys n m) : Event → Option (Sys n m)
  | .exit pid =>
    if s.live.any (·.pid == pid) then
      some { s with
        live := s.live.filter (·.pid ≠ pid)
        exited := s.live.filter (·.pid = pid) ++ s.exited }
    else none
  | .collect env e => deatchOne env { s with forks := env.forks } e
  | .cmd env cmd id => (governor env cmd id { s with forks := env.forks }).map (·.2)

/-- The runs of the Governor, from a start in an environment that meets `I`. -/
def govSystem (n m : ℕ) [NeZero n] (I : Env → Prop) : Guarded (Sys n m) Event :=
  .ofFn (fun s ↦ ∃ env mainPid now, I env ∧ governorMain env mainPid now = some s) govStep

/-- The handler is a sequence of such passes, each with the answers of `fork` that are left. -/
theorem serverDeatch_run {env : Env} {es : List Exit} {s s' : Sys n m}
    (h : serverDeatch env es s = some s') :
    ∃ as : List Event, as.length = es.length ∧ Guarded.runFn govStep s as = some s' := by
  induction es generalizing s with
  | nil => exact ⟨[], rfl, h⟩
  | cons e es ih =>
    obtain ⟨t, ht, hrest⟩ := Option.bind_eq_some_iff.1 h
    obtain ⟨as, hlen, has⟩ := ih hrest
    refine ⟨.collect { env with forks := s.forks } e :: as, congrArg (· + 1) hlen, ?_⟩
    rw [Guarded.runFn, Option.bind_eq_some_iff]
    exact ⟨t, ht, has⟩

end Sunda
