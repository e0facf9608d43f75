import Sunda.Main.Governor.Config
import Sunda.Base.Slots

/-!
# Servers and their processes

The shared tables of `sunda.h`, the children of the Governor, and the functions of
`Main/Governor.c` that search the tables, start processes and stop them.

`nsvrnum` and `npidnum` are the sizes `n` and `m` of the two tables. Indices are `Fin`: where the
program uses an index of one table in the other, a check stands in front, and an index that fails it
is a write outside the table.

What `fork` answers is part of the state. The kernel never hands out the number of a child that is
alive or was not collected yet; `live` and `exited` are these children, each with the server it was
started for.
-/

namespace Sunda

open Bytes

variable {n m : ℕ}

def sysLimit : ℤ := -2000

/-! ### The tables -/

/-- `server_pid_t`. The field `req_done`, which only the servers count, and
`restart_count_grace`, which nobody uses, are left out. -/
structure ServerPid (n : ℕ) where
  pid : ℤ
  svrid : ℤ
  svrpos : Fin n
  seq : ℤ
  totRestartCount : ℤ
  lastDie : ℤ
  lastStart : ℤ
  deriving DecidableEq

/-- `sdSvrPidClear`. -/
def ServerPid.clear [NeZero n] : ServerPid n := ⟨-1, 0, 0, 0, 0, 0, 0⟩

/-- A child of the Governor, started for the server entry `taskid`. -/
structure Child (n : ℕ) where
  pid : ℤ
  taskid : Fin n
  deriving DecidableEq

/-- An answer of `fork`, with the time. -/
structure Fork where
  pid : ℤ
  now : ℤ

/-- A signal sent by `server_kill`, and whether its target was a child of the Governor then. -/
structure Signal where
  pid : ℤ
  own : Bool
  deriving DecidableEq

/-- The tables and the processes. -/
structure Sys (n m : ℕ) where
  tSvrTab : Fin n → SvrTab
  tSvrPid : Fin m → ServerPid n
  live : List (Child n)
  /-- Children that exited and were not collected by `waitpid` yet. -/
  exited : List (Child n)
  signals : List Signal
  /-- What the next calls of `fork` answer. -/
  forks : List Fork

namespace Sys

/-- The number belongs to a child that is alive or not collected. -/
def owns (s : Sys n m) (pid : ℤ) : Bool :=
  (s.live ++ s.exited).any fun c ↦ c.pid == pid

/-- A write to the server table. -/
def setSvr (s : Sys n m) (i : Fin n) (e : SvrTab) : Sys n m :=
  { s with tSvrTab := Function.update s.tSvrTab i e }

/-- A write to the pid table. -/
def setPid (s : Sys n m) (i : Fin m) (p : ServerPid n) : Sys n m :=
  { s with tSvrPid := Function.update s.tSvrPid i p }

section Writes

variable (s : Sys n m) (i j : Fin n) (e : SvrTab) (k l : Fin m) (p : ServerPid n)

@[simp] theorem setSvr_self : (s.setSvr i e).tSvrTab i = e := Function.update_self ..
@[simp] theorem setSvr_setSvr (e' : SvrTab) : (s.setSvr i e).setSvr i e' = s.setSvr i e' := by
  simp [setSvr]
@[simp] theorem setSvr_eq_self : s.setSvr i (s.tSvrTab i) = s := by simp [setSvr]
@[simp] theorem setSvr_tSvrPid : (s.setSvr i e).tSvrPid = s.tSvrPid := rfl
@[simp] theorem setSvr_live : (s.setSvr i e).live = s.live := rfl
@[simp] theorem setSvr_exited : (s.setSvr i e).exited = s.exited := rfl
@[simp] theorem setSvr_signals : (s.setSvr i e).signals = s.signals := rfl
@[simp] theorem setSvr_forks : (s.setSvr i e).forks = s.forks := rfl
@[simp] theorem setPid_self : (s.setPid k p).tSvrPid k = p := Function.update_self ..
@[simp] theorem setPid_tSvrTab : (s.setPid k p).tSvrTab = s.tSvrTab := rfl
@[simp] theorem setPid_live : (s.setPid k p).live = s.live := rfl
@[simp] theorem setPid_exited : (s.setPid k p).exited = s.exited := rfl
@[simp] theorem setPid_signals : (s.setPid k p).signals = s.signals := rfl
@[simp] theorem setPid_forks : (s.setPid k p).forks = s.forks := rfl

variable {i j k l}

@[simp] theorem setSvr_of_ne (h : j ≠ i) : (s.setSvr i e).tSvrTab j = s.tSvrTab j :=
  Function.update_of_ne h ..

@[simp] theorem setPid_of_ne (h : l ≠ k) : (s.setPid k p).tSvrPid l = s.tSvrPid l :=
  Function.update_of_ne h ..

/-- A write that keeps a field of the entry keeps it everywhere. -/
theorem setSvr_field {α : Type*} (g : SvrTab → α) {e : SvrTab} (h : g e = g (s.tSvrTab i))
    (j : Fin n) : g ((s.setSvr i e).tSvrTab j) = g (s.tSvrTab j) := by
  rcases eq_or_ne j i with rfl | hji
  · rw [setSvr_self, h]
  · rw [setSvr_of_ne _ _ hji]

end Writes

end Sys

/-! ### Searches -/

/-- `server_find_pid`. -/
def serverFindPid (s : Sys n m) (pid : ℤ) : Option (Fin m) :=
  Slots.find (fun p ↦ p.pid == pid) s.tSvrPid

/-- `server_get_pidentry`. -/
def serverGetPidentry (s : Sys n m) : Option (Fin m) :=
  serverFindPid s (-1)

/-- `find_server_id`. -/
def findServerId (s : Sys n m) (svrid : ℤ) : Option (Fin n) :=
  Slots.find (fun e ↦ e.svrid == svrid) s.tSvrTab

/-- `server_get_identry`. -/
def serverGetIdentry (s : Sys n m) : Option (Fin n) :=
  findServerId s (-1)

/-! ### Starting and stopping processes -/

/-- `server_load` of the program of a server: the answer of `fork`. -/
def serverLoad (s : Sys n m) (taskid : Fin n) : Option Fork × Sys n m :=
  match s.forks with
  | [] => (none, s)
  | f :: forks =>
    if 0 < f.pid ∧ s.owns f.pid = false then
      (some f, { s with forks := forks, live := ⟨f.pid, taskid⟩ :: s.live })
    else (none, { s with forks := forks })

/-- `server_start_pid`; an error is its -1. -/
def serverStartPid (s : Sys n m) (taskid : Fin n) (pidIndex : Fin m) :
    Except (Sys n m) (Sys n m) :=
  match serverLoad s taskid with
  | (none, s) => .error s
  | (some f, s) =>
    .ok (s.setPid pidIndex { s.tSvrPid pidIndex with pid := f.pid, lastStart := f.now })

/-- The loop of `server_run`, with the number of passes left and the number of the pass. -/
def serverRunLoop [NeZero n] (srvnum : Fin n) : ℕ → ℤ → Sys n m → ℤ × Sys n m
  | 0, _, s => (0, s)
  | left + 1, i, s =>
    match serverGetPidentry s with
    | none => (sysLimit, s)
    | some pidIndex =>
      let s := s.setPid pidIndex
        { s.tSvrPid pidIndex with
          svrid := (s.tSvrTab srvnum).svrid
          seq := i
          svrpos := srvnum }
      match serverStartPid s srvnum pidIndex with
      | .error s => (-1, s.setPid pidIndex .clear)
      | .ok s =>
        serverRunLoop srvnum left (i + 1)
          (s.setSvr srvnum { s.tSvrTab srvnum with state := .idle })

/-- `server_run`. -/
def serverRun [NeZero n] (s : Sys n m) (srvnum : Fin n) : ℤ × Sys n m :=
  let s := s.setSvr srvnum { s.tSvrTab srvnum with type := svrPerm }
  serverRunLoop srvnum (s.tSvrTab srvnum).pidTot.toNat 0 s

/-- The test of `server_kill`. It compares the server's id with `TUX_DEAD`, which is 4. -/
def killed (svrid : ℤ) (p : ServerPid n) : Bool :=
  p.svrid == svrid && p.svrid != -1 && p.svrid != 4

/-- `server_kill`. -/
def serverKill [NeZero n] (s : Sys n m) (taskid : Fin n) (clear : Bool) : Sys n m :=
  let svrid := (s.tSvrTab taskid).svrid
  { s with
    tSvrPid := fun i ↦ if clear && killed svrid (s.tSvrPid i) then .clear else s.tSvrPid i
    signals := s.signals ++
      ((List.finRange m).filter fun i ↦ killed svrid (s.tSvrPid i)).map fun i ↦
        ⟨(s.tSvrPid i).pid, s.owns (s.tSvrPid i).pid⟩ }

/-- `tux_deletesvc`; `lock` says whether `tux_lock` succeeds. The argument is an index, and is
compared with the ids. -/
def tuxDeletesvc (lock : Bool) (s : Sys n m) (taskid : Fin n) : Sys n m :=
  if lock then
    { s with
      tSvrTab := fun i ↦
        if i.val ≠ 0 ∧ (s.tSvrTab i).svrid = taskid.val then
          { s.tSvrTab i with state := .unavail }
        else s.tSvrTab i }
  else s

end Sunda
