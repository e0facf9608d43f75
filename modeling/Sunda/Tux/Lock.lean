import Sunda.Base.Guarded
import Sunda.Base.Permits
import Mathlib.Data.Int.Notation
import Mathlib.Logic.Function.Basic

/-!
# The lock of the shared tables

`tux_lock` and `tux_unlock` (`pubfun/tux/tuxmgr.c`) are a `semop` by -1 and by 1 on the semaphore that
`sys_start` created with `sem_create`, and whose id every process reads from `mbctrl->semid`
(`pubfun/common/funsem.c`). A process gets there by `ipc_connect`, which calls `sem_connect`; both end in
`sem_attach_internal`, so every connecting process sets the semaphore to 1 once more and stores its id
again.

A run is any interleaving of the steps of any number of processes, after `sys_start`. Of `ipc_connect`
the steps that matter here are separate: `semget`, `semctl`, and the store to `mbctrl->semid`, which is
-1 when one of the two failed. What else it does, with the shared memory before and with the queues
behind, has no part in this.

`tux_lock_excludes` says in which runs the semaphore is a mutual exclusion lock: those in which no `semctl`
of a connecting process falls into the time in which the lock is held, and no `tux_unlock` into a time in
which `mbctrl->semid` is -1. A step outside these loses the property at once.
-/

namespace Sunda

/-- The largest value of a semaphore. -/
def semvmx : ℕ := 32767

/-- Where a process is. -/
inductive ConnectPc
  /-- `mbctrl` is `NULL`. -/
  | detached
  /-- In `sem_attach_internal`, in front of `semctl`. -/
  | attach
  /-- In front of the assignment of `sem_connect`'s value to `mbctrl->semid`. -/
  | store (semid : ℤ)
  /-- Outside of `ipc_connect`, with `mbctrl` set. -/
  | ready
  deriving DecidableEq

/-- The semaphore with the processes that are between a successful `tux_lock` and their `tux_unlock`, its
id in the kernel, and the id in the shared memory. -/
structure LockState (P : Type*) where
  sem : Permits P
  semid : ℤ
  mbSemid : ℤ
  pc : P → ConnectPc

/-- The steps. `fails` is whether the system call fails, which the program does not decide. -/
inductive LockAct (P : Type*)
  | semget (p : P) (fails : Bool)
  | semctl (p : P) (fails : Bool)
  | store (p : P)
  | lock (p : P)
  | unlock (p : P)

variable {P : Type*} [DecidableEq P]

namespace LockState

/-- A process goes on to `c`. -/
def goto (s : LockState P) (p : P) (c : ConnectPc) : LockState P :=
  { s with pc := Function.update s.pc p c }

@[simp] theorem goto_sem (s : LockState P) (p : P) (c : ConnectPc) : (s.goto p c).sem = s.sem := rfl

end LockState

/-- `arg.val` of `sem_attach_internal`. -/
def semInit : ℕ := 1

/-- `sem_call` with -1, which is `tux_lock`: `none` is a process that waits, otherwise the return value. -/
def tuxLock (s : LockState P) (p : P) : Option (ℤ × LockState P) :=
  if s.mbSemid ≠ s.semid then some (-1, s)
  else if s.sem.free = 0 then none
  else some (0, { s with sem := s.sem.take p })

/-- `sem_call` with 1, which is `tux_unlock`. -/
def tuxUnlock (s : LockState P) (p : P) : ℤ × LockState P :=
  if s.mbSemid ≠ s.semid ∨ semvmx < s.sem.free + 1 then (-1, { s with sem := s.sem.lose p })
  else (0, { s with sem := s.sem.give p })

/-- One step; `none` where the process is not at this step, or waits. -/
def lockStep (s : LockState P) : LockAct P → Option (LockState P)
  | .semget p fails =>
    if s.pc p = .detached ∨ s.pc p = .ready then
      some (s.goto p (if fails then .store (-1) else .attach))
    else none
  | .semctl p fails =>
    if s.pc p = .attach then
      if fails then some (s.goto p (.store (-1)))
      else some ({ s with sem := s.sem.reset semInit }.goto p (.store s.semid))
    else none
  | .store p =>
    match s.pc p with
    | .store semid => some ({ s with mbSemid := semid }.goto p .ready)
    | _ => none
  | .lock p => if s.pc p = .ready then (tuxLock s p).map Prod.snd else none
  | .unlock p => if s.pc p = .ready ∧ p ∈ s.sem.holders then some (tuxUnlock s p).2 else none

/-- Behind `sys_start` of the process `main`, with the id that the kernel chose: `sem_create` has set the
semaphore and stored its id. -/
def sysStartLock (main : P) (semid : ℤ) : LockState P where
  sem := (⟨0, []⟩ : Permits P).reset semInit
  semid := semid
  mbSemid := semid
  pc p := if p = main then .ready else .detached

/-- The processes with the lock. -/
def lockSystem (P : Type*) [DecidableEq P] : Guarded (LockState P) (LockAct P) :=
  .ofFn (fun s ↦ ∃ main semid, s = sysStartLock main semid) lockStep

/-- The semaphore is a mutual exclusion lock: its value and the number of holders add up to 1, and there
is at most one holder. -/
def LockOk (s : LockState P) : Prop :=
  s.sem.holders.length ≤ 1 ∧ s.sem.free + s.sem.holders.length = 1

/-- What may not happen: a connecting process sets the semaphore while the lock is held, or a process
unlocks while the id in the shared memory is not that of the semaphore. -/
def LockGuard (s : LockState P) : LockAct P → Prop
  | .semctl _ fails => fails = true ∨ s.sem.holders = []
  | .unlock _ => s.mbSemid = s.semid
  | _ => True

instance (s : LockState P) (a : LockAct P) : Decidable (LockGuard s a) := by
  cases a <;> unfold LockGuard <;> infer_instance

omit [DecidableEq P] in
theorem lockOk_iff (s : LockState P) : LockOk s ↔ s.sem.total = 1 :=
  ⟨fun h ↦ h.2, fun h ↦ ⟨Permits.holders_length_le h, h⟩⟩

/-- A `semctl` that succeeds keeps the lock exactly when it is free. -/
theorem lockOk_semctl_iff (s : LockState P) (p : P) (c : ConnectPc) :
    LockOk ({ s with sem := s.sem.reset semInit }.goto p c) ↔ s.sem.holders = [] := by
  rw [lockOk_iff, LockState.goto_sem]
  exact s.sem.total_reset_eq_iff semInit

omit [DecidableEq P] in
/-- `tux_lock` keeps it, whether it returns 0 or -1. -/
theorem lockOk_tuxLock {s s' : LockState P} {p : P} {rc : ℤ} (hs : LockOk s)
    (h : tuxLock s p = some (rc, s')) : LockOk s' := by
  rw [lockOk_iff] at hs ⊢
  rw [tuxLock] at h
  split at h
  · rw [← (Prod.mk.inj (Option.some.inj h)).2]
    exact hs
  · split at h
    · cases h
    · next hfree =>
      rw [← (Prod.mk.inj (Option.some.inj h)).2, ← hs]
      exact Permits.total_take (Nat.pos_of_ne_zero hfree) p

/-- `tux_unlock` of a holder keeps it exactly when it reaches the semaphore. -/
theorem lockOk_tuxUnlock_iff {s : LockState P} {p : P} (hs : LockOk s) (hp : p ∈ s.sem.holders) :
    LockOk (tuxUnlock s p).2 ↔ s.mbSemid = s.semid := by
  rw [lockOk_iff] at hs ⊢
  have hfree := Permits.free_eq_zero hs hp
  rw [tuxUnlock]
  by_cases hid : s.mbSemid = s.semid
  · rw [if_neg (by rw [hfree, semvmx]; simp [hid])]
    exact iff_of_true ((Permits.total_give hp).trans hs) hid
  · rw [if_pos (.inl hid)]
    refine iff_of_false (fun h ↦ ?_) hid
    have hlose := Permits.total_lose hp
    dsimp only at h
    omega

/-- **One step**: from a state in which the semaphore is a lock, it stays one exactly when the step meets
the guard. -/
theorem lockOk_step_iff {s s' : LockState P} {a : LockAct P} (hs : LockOk s)
    (h : lockStep s a = some s') : LockOk s' ↔ LockGuard s a := by
  cases a with
  | semget p fails =>
    rw [lockStep] at h
    split at h
    · rw [← Option.some.inj h]
      exact iff_of_true hs trivial
    · cases h
  | semctl p fails =>
    rw [lockStep] at h
    split at h
    · cases fails with
      | true =>
        rw [← Option.some.inj h]
        exact iff_of_true hs (.inl rfl)
      | false =>
        rw [← Option.some.inj h, lockOk_semctl_iff, LockGuard]
        simp
    · cases h
  | store p =>
    rw [lockStep] at h
    split at h
    · rw [← Option.some.inj h]
      exact iff_of_true hs trivial
    · cases h
  | lock p =>
    rw [lockStep] at h
    split at h
    · obtain ⟨⟨rc, s1⟩, hlock, rfl⟩ := Option.map_eq_some_iff.1 h
      exact iff_of_true (lockOk_tuxLock hs hlock) trivial
    · cases h
  | unlock p =>
    rw [lockStep] at h
    split at h
    · next hp =>
      rw [← Option.some.inj h]
      exact lockOk_tuxUnlock_iff hs hp.2
    · cases h

/-- **The lock excludes.** In every state of a run in which no connecting process sets the semaphore while
the lock is held, and no process unlocks with the id of a failed connect, at most one process holds the
lock, and the value of the semaphore and the number of holders add up to 1. Any other step ends that. -/
theorem tux_lock_excludes {s : LockState P} (h : (lockSystem P).Reach LockGuard s) :
    LockOk s ∧ ∀ a s', lockStep s a = some s' → (LockOk s' ↔ LockGuard s a) := by
  have hok : LockOk s := by
    refine h.invariant (I := LockOk) ?_ ?_
    · rintro _ ⟨main, semid, rfl⟩
      exact ⟨Nat.zero_le _, rfl⟩
    · exact fun _ _ _ hs hG hstep ↦ (lockOk_step_iff hs hstep).2 hG
  exact ⟨hok, fun a s' hstep ↦ lockOk_step_iff hok hstep⟩

/-- A second process connects while the lock is free, and locks it. -/
theorem tux_lock_excludes_two :
    ∃ s : LockState ℕ, (lockSystem ℕ).Reach LockGuard s ∧ s.sem.holders = [1] ∧ LockOk s := by
  obtain ⟨s, hs, hholders⟩ : ∃ s, Guarded.runFn (Guarded.guardFn LockGuard lockStep) (sysStartLock 0 5)
      [.semget 1 false, .semctl 1 false, .store 1, .lock 1] = some s ∧ s.sem.holders = [1] :=
    ⟨_, rfl, rfl⟩
  have hreach : (lockSystem ℕ).Reach LockGuard s := Guarded.reach_of_runFn (.init ⟨0, 5, rfl⟩) hs
  exact ⟨s, hreach, hholders, (tux_lock_excludes hreach).1⟩

/-- The process 0 holds the lock when the process 1 connects and locks it too. -/
theorem two_processes_hold_lock :
    ∃ s : LockState ℕ, (lockSystem ℕ).Reach Guarded.always s ∧ s.sem.holders = [1, 0] ∧ ¬ LockOk s := by
  obtain ⟨s, hs, hholders⟩ : ∃ s, Guarded.runFn (Guarded.guardFn Guarded.always lockStep)
      (sysStartLock 0 5) [.lock 0, .semget 1 false, .semctl 1 false, .store 1, .lock 1] = some s ∧
        s.sem.holders = [1, 0] := ⟨_, rfl, rfl⟩
  have hreach : (lockSystem ℕ).Reach Guarded.always s := Guarded.reach_of_runFn (.init ⟨0, 5, rfl⟩) hs
  refine ⟨s, hreach, hholders, fun h ↦ ?_⟩
  rw [LockOk, hholders] at h
  exact absurd h.1 (by decide)

end Sunda
