import Sunda.Base.Guarded
import Sunda.Tux.SysStart

/-!
# From start to shutdown

`ipc_remove` with `stop_system` (`pubfun/tux/tuxmgr.c`) and `sem_delete` (`pubfun/common/funsem.c`), as the
tool `tmdown` calls them behind `ipc_connect` (`Main/tmdown.c`). The objects of the system outlive every
process, so what matters is how starts, connections and shutdowns follow each other.

A connection looks the semaphore and the queues up under their keys, and finds what is there unless the kernel
refuses the call (`IpcObjects.lookups`). Then it may leave -1 in place of an id in the shared memory; but as
the keys stay, the connection that `tmdown` makes first repairs this, and `ipc_remove` removes the right
objects.

So in all runs whose starts are all or nothing and whose shutdowns are not refused a call, whatever fails
while other processes connect, the objects are there completely or not at all, and an id in the shared memory
is right or -1 (`life_cycle`).
-/

namespace Sunda

/-! ### The shutdown -/

/-- The calls of a shutdown that the kernel lets succeed: those that `que_remove` and `shm_delete` make also
at the exits of a start, and the `semget` and `semctl` of `sem_delete`. -/
structure StopCalls extends StartCalls where
  semDelete : Bool
  semctl : Bool

/-- `sem_delete`. -/
def semDelete (k : StopCalls) (w : IpcObjects) : ℤ × IpcObjects :=
  if k.semDelete = false ∨ w.sem = none then (-1, w)
  else if k.semctl = false then (-1, w)
  else (0, { w with sem := none })

/-- `stop_system`, with the control block attached: whom it sends `SIGTERM`. -/
def stopSystem (mbctrl : MbCtrlBlock) : Option ℤ :=
  if mbctrl.mainPid ≤ 0 then none else some mbctrl.mainPid

/-- `ipc_remove`, with the control block attached. It returns 0 whatever fails. -/
def ipcRemove (k : StopCalls) (w : IpcObjects) : IpcObjects :=
  let w := queRemove k.toStartCalls w
  let w := (semDelete k w).2
  (shmDelete k.toStartCalls w).2

/-! ### Connections -/

/-- The calls of a connection that the kernel lets succeed, if there is something to be found. -/
structure Grants where
  shmget : Bool
  shmat : Bool
  semget : Bool
  setval : Bool
  msggetReq : Bool
  msggetRsp : Bool

/-- What a connection finds. -/
def IpcObjects.lookups (w : IpcObjects) (g : Grants) : Lookups where
  shmget := g.shmget
  shmat := g.shmat
  semget := if g.semget then w.sem else none
  setval := g.setval
  msggetReq := if g.msggetReq then w.shm.bind fun b ↦ w.msq.lookup b.reqQue else none
  msggetRsp := if g.msggetRsp then w.shm.bind fun b ↦ w.msq.lookup b.rspQue else none

/-- `ipc_connect` and the objects. -/
def IpcObjects.connect (g : Grants) (stray : ℤ) (w : IpcObjects) : Option ℤ × IpcObjects :=
  let r := ipcConnect (w.lookups g) stray w.shm
  (r.1, { w with shm := r.2 })

/-- `main` of `tmdown`: the return value, whom `stop_system` sends `SIGTERM`, and the objects. -/
def tmdown (g : Grants) (stray : ℤ) (k : StopCalls) (w : IpcObjects) : Option ℤ × Option ℤ × IpcObjects :=
  let c := w.connect g stray
  match c.1 with
  | none => (none, none, c.2)
  | some rc =>
    if rc ≠ 0 then (some (-1), none, c.2)
    else (some 0, c.2.shm.bind stopSystem, ipcRemove k c.2)

/-! ### Runs -/

/-- The objects, and the process whose `sys_start` was the last to return 0. -/
structure IpcSystem where
  objects : IpcObjects
  starter : Option ℤ

/-- What processes do to the objects. -/
inductive IpcAct
  /-- `sys_start` of a process. -/
  | start (cfg : SysParam) (pid : ℤ) (k : StartCalls)
  /-- `ipc_connect` of any other process. -/
  | connect (g : Grants) (stray : ℤ)
  | down (g : Grants) (stray : ℤ) (k : StopCalls)

def ipcStep (x : IpcSystem) : IpcAct → IpcSystem
  | .start cfg pid k =>
    let r := Tuxmgr.sysStart cfg pid k x.objects
    ⟨r.2, if r.1 = some 0 then some pid else x.starter⟩
  | .connect g stray => { x with objects := (x.objects.connect g stray).2 }
  | .down g stray k => { x with objects := (tmdown g stray k x.objects).2.2 }

def ipcSystem : Guarded IpcSystem IpcAct :=
  .ofFn (fun x ↦ x = ⟨.empty, none⟩) fun x a ↦ some (ipcStep x a)

/-- The settings were read from a configuration file, and a start by itself is all or nothing. -/
structure StartGranted (cfg : SysParam) (pid : ℤ) (k : StartCalls) : Prop where
  settings : ∃ f, sysParam f = some cfg
  clean : StartsClean cfg k
  shmLookup : k.shmLookup = true
  pid : 0 < pid

/-- No call of the shutdown is refused, and the end of `que_connect` finds a value that is not negative. -/
structure StopGranted (g : Grants) (stray : ℤ) (k : StopCalls) : Prop where
  grants : g = ⟨true, true, true, true, true, true⟩
  stray : 0 ≤ stray
  queues : k.msgctlReq = true ∧ k.msgctlRsp = true
  sem : k.semDelete = true ∧ k.semctl = true
  shm : k.toStartCalls.Removes

/-- The condition on starts and shutdowns. Connections can fail in every way. -/
def IpcAct.Granted (_ : IpcSystem) : IpcAct → Prop
  | .start cfg pid k => StartGranted cfg pid k
  | .connect _ _ => True
  | .down g stray k => StopGranted g stray k

/-! ### The property -/

/-- An id in the shared memory is the one that belongs there, or -1. -/
def IdOk (id : ℤ) (right : ℕ) : Prop :=
  id = right ∨ id = -1

/-- The objects of a started system: the segment, the semaphore, and the queues under the keys of the control
block, with the ids `s`, `r` and `p`. -/
structure Complete (w : IpcObjects) (b : MbCtrlBlock) (s r p : ℕ) : Prop where
  shm : w.shm = some b
  sem : w.sem = some s
  req : w.msq.lookup b.reqQue = some r
  rsp : w.msq.lookup b.rspQue = some p
  only : ∀ q ∈ w.msq, q.2 = r ∨ q.2 = p
  keys : 0 < b.reqQue ∧ 0 < b.rspQue
  semid : IdOk b.semid s
  reqQueId : IdOk b.reqQueId r
  rspQueId : IdOk b.rspQueId p

/-- What is claimed of a state: nothing or everything is there; only from nothing can the system be started;
and it can be shut down, which tells the process that started it. -/
structure LifeCycle (x : IpcSystem) : Prop where
  objects : x.objects = .empty ∨
    ∃ b s r p, Complete x.objects b s r p ∧ x.starter = some b.mainPid
  starts : ∀ cfg pid k, StartGranted cfg pid k →
    (Tuxmgr.sysStart cfg pid k x.objects).1 = some 0 → x.objects = .empty
  startsAgain : ∀ cfg, cfg.Fits → x.objects = .empty → StartsAgain cfg x.objects
  stops : ∀ g stray k, StopGranted g stray k → (tmdown g stray k x.objects).2.2 = .empty
  stopped : ∀ g stray k, StopGranted g stray k → x.objects ≠ .empty →
    (tmdown g stray k x.objects).1 = some 0 ∧ (tmdown g stray k x.objects).2.1 = x.starter

/-! ### Starts -/

variable {cfg : SysParam} {pid : ℤ} {k : StartCalls} {w : IpcObjects} {b : MbCtrlBlock} {s r p : ℕ}

/-- The queues that a start makes. -/
def SysParam.queues (cfg : SysParam) (r p : ℕ) : List (ℤ × ℕ) :=
  if cfg.nrspQue = cfg.nreqQue then [(cfg.nreqQue, r)] else [(cfg.nrspQue, p), (cfg.nreqQue, r)]

/-- With one key there is one queue. -/
theorem lookup_queues (cfg : SysParam) (r p : ℕ) :
    (cfg.queues r p).lookup cfg.nreqQue = some r ∧
      (cfg.queues r p).lookup cfg.nrspQue = some (if cfg.nrspQue = cfg.nreqQue then r else p) := by
  rw [SysParam.queues]
  split
  · next heq => simp [heq]
  · next hne =>
    have hne' : (cfg.nreqQue == cfg.nrspQue) = false := by
      rw [beq_eq_false_iff_ne]
      exact Ne.symm hne
    simp [List.lookup_cons, hne']

theorem createqueue_nil {reqQue rspQue : ℤ} (hreq : k.msggetReq = some r) (hrsp : k.msggetRsp = some p) :
    createqueue k reqQue rspQue ⟨some b, none, []⟩ =
      (0, ⟨some { b with
          reqQue, rspQue
          reqQueId := r
          rspQueId := ((if rspQue = reqQue then r else p : ℕ) : ℤ) }, none,
        if rspQue = reqQue then [(reqQue, r)] else [(rspQue, p), (reqQue, r)]⟩) := by
  have hr : ¬ (r : ℤ) < 0 := not_lt.2 (Int.natCast_nonneg r)
  have hp : ¬ (p : ℤ) < 0 := not_lt.2 (Int.natCast_nonneg p)
  by_cases heq : rspQue = reqQue
  · subst heq
    simp [createqueue, msqCreate, hreq, hrsp, hr, IpcObjects.store]
  · have hne : (rspQue == reqQue) = false := beq_eq_false_iff_ne.2 heq
    simp [createqueue, msqCreate, hreq, hrsp, hr, hp, IpcObjects.store, List.lookup_cons, hne, heq]

/-- **A start that returns 0 makes everything.** -/
theorem complete_of_sysStart (hcfg : ∃ f, sysParam f = some cfg)
    (h : (Tuxmgr.sysStart cfg pid k .empty).1 = some 0) :
    ∃ b s r p, Complete (Tuxmgr.sysStart cfg pid k .empty).2 b s r p ∧ b.mainPid = pid := by
  obtain ⟨f, hf⟩ := hcfg
  obtain ⟨-, -, -, hreqQue, hrspQue⟩ := sysParam_pos hf
  have heq := sysStart_eq_of_zero h
  rw [heq] at h ⊢
  obtain ⟨⟨r, hreq⟩, ⟨p, hrsp⟩, ⟨⟨s, hs⟩, hset⟩⟩ := of_sysStartObjects_zero rfl h
  have hsemid : ¬ (s : ℤ) < 0 := not_lt.2 (Int.natCast_nonneg s)
  obtain ⟨hreq', hrsp'⟩ := lookup_queues cfg r p
  rw [sysStartObjects, createqueue_nil hreq hrsp]
  simp only [ne_eq, not_true_eq_false, if_false, semCreate, hs, Option.getD_none, semAttachInternal, hset,
    if_true, hsemid]
  refine ⟨_, s, r, if cfg.nrspQue = cfg.nreqQue then r else p, ⟨rfl, rfl, hreq', hrsp', fun q hq ↦ ?_,
    ⟨hreqQue, hrspQue⟩, .inl rfl, .inl rfl, .inl rfl⟩, rfl⟩
  have hq' : q ∈ cfg.queues r p := hq
  rw [SysParam.queues] at hq'
  split at hq'
  · next heq =>
    rw [List.mem_singleton.1 hq']
    exact .inl rfl
  · next hne =>
    rw [if_neg hne]
    rcases List.mem_cons.1 hq' with rfl | hq'
    · exact .inr rfl
    · rw [List.mem_singleton.1 hq']
      exact .inl rfl

/-- A system that is there is not started again. -/
theorem sysStart_of_complete (h : Complete w b s r p) (hlook : k.shmLookup = true) :
    Tuxmgr.sysStart cfg pid k w = (some (-1), w) := by
  rw [Tuxmgr.sysStart]
  split
  · rfl
  · rw [if_pos ⟨hlook, by rw [h.shm]; rfl⟩]

/-! ### Connections -/

/-- What a connection finds is what is there. -/
theorem Complete.lookups (h : Complete w b s r p) (g : Grants) :
    (w.lookups g).sem = (if g.semget && g.setval then some s else none) ∧
      (w.lookups g).msggetReq = (if g.msggetReq then some r else none) ∧
      (w.lookups g).msggetRsp = (if g.msggetRsp then some p else none) := by
  refine ⟨?_, ?_, ?_⟩
  · rw [Lookups.sem, IpcObjects.lookups, h.sem]
    cases g.semget <;> cases g.setval <;> rfl
  · show (if g.msggetReq then w.shm.bind fun b ↦ w.msq.lookup b.reqQue else none) = _
    rw [h.shm, Option.bind_some, h.req]
  · show (if g.msggetRsp then w.shm.bind fun b ↦ w.msq.lookup b.rspQue else none) = _
    rw [h.shm, Option.bind_some, h.rsp]

/-- Other ids in the control block, each of them right or -1. -/
theorem Complete.withIds (h : Complete w b s r p) {s' r' p' : ℤ} (hs : IdOk s' s) (hr : IdOk r' r)
    (hp : IdOk p' p) : Complete { w with shm := some (b.withIds s' r' p') } (b.withIds s' r' p') s r p :=
  ⟨rfl, h.sem, h.req, h.rsp, h.only, h.keys, hs, hr, hp⟩

theorem idOk_ite (c : Bool) (id : ℕ) : IdOk (idOf (if c then some id else none)) id := by
  cases c
  · exact .inr rfl
  · exact .inl rfl

/-- **A connection**, whatever fails, leaves the objects, the keys and the starter, and ids that are right or
-1. -/
theorem Complete.connect (h : Complete w b s r p) (g : Grants) (stray : ℤ) :
    ∃ b', Complete (w.connect g stray).2 b' s r p ∧ b'.mainPid = b.mainPid := by
  obtain ⟨hsem, hreq, hrsp⟩ := h.lookups g
  rw [IpcObjects.connect]
  by_cases hreach : Reaches (w.lookups g) w.shm b
  · cases hs : (w.lookups g).sem with
    | none =>
      rw [hreach.of_sem_none stray hs]
      exact ⟨_, h.withIds (.inr rfl) h.reqQueId h.rspQueId, rfl⟩
    | some s' =>
      have hs' : IdOk s' s := by
        rw [hs] at hsem
        split at hsem
        · rw [Option.some.inj hsem]
          exact .inl rfl
        · cases hsem
      cases hr : (w.lookups g).msggetReq with
      | none =>
        rw [hreach.of_req_none stray hs hr]
        exact ⟨_, h.withIds hs' (.inr rfl) h.rspQueId, rfl⟩
      | some r' =>
        have hr' : IdOk r' r := by
          rw [hr] at hreq
          split at hreq
          · rw [Option.some.inj hreq]
            exact .inl rfl
          · cases hreq
        rw [hreach.of_req_some stray hs hr, hrsp]
        exact ⟨_, h.withIds hs' hr' (idOk_ite g.msggetRsp p), rfl⟩
  · have hnone : ∀ b', ¬ Reaches (w.lookups g) w.shm b' := fun b' hb' ↦ by
      obtain rfl := Option.some.inj (h.shm.symm.trans hb'.shm_eq)
      exact hreach hb'
    rw [(ipcConnect_of_not_reaches stray hnone).2]
    exact ⟨b, h, rfl⟩

/-! ### The shutdown removes everything -/

/-- The connection of the shutdown finds all ids. -/
theorem Complete.connect_granted (h : Complete w b s r p) {g : Grants} {stray : ℤ} {k : StopCalls}
    (hg : StopGranted g stray k) :
    w.connect g stray = (some 0, { w with shm := some (b.withIds s r p) }) := by
  obtain ⟨hsem, hreq, hrsp⟩ := h.lookups g
  obtain ⟨hreqQue, hrspQue⟩ := h.keys
  have hstray := hg.stray
  rw [hg.grants] at hsem hreq hrsp ⊢
  have hreach : Reaches (w.lookups ⟨true, true, true, true, true, true⟩) w.shm b :=
    ⟨h.shm, rfl, rfl, by omega⟩
  rw [IpcObjects.connect, hreach.of_req_some stray hsem hreq, hrsp, if_neg (by omega)]
  rfl

/-- **`ipc_remove` leaves nothing** when the ids are right. -/
theorem ipcRemove_complete {k : StopCalls} (h : Complete w b s r p) (hreq : b.reqQueId = r)
    (hrsp : b.rspQueId = p) (hqueues : k.msgctlReq = true ∧ k.msgctlRsp = true)
    (hsem : k.semDelete = true ∧ k.semctl = true) (hshm : k.toStartCalls.Removes) :
    ipcRemove k w = .empty := by
  have hmsq : (queRemove k.toStartCalls w).msq = [] := by
    simp only [queRemove, h.shm, msqClose, hqueues.1, hqueues.2, if_true, hreq, hrsp]
    rw [List.filter_filter, List.filter_eq_nil_iff]
    intro q hq
    rcases h.only q hq with heq | heq <;> simp [heq]
  have hrest : (queRemove k.toStartCalls w).sem = w.sem ∧ (queRemove k.toStartCalls w).shm = w.shm := by
    simp only [queRemove, h.shm, msqClose, hqueues.1, hqueues.2, if_true, and_self]
  obtain ⟨hsem', hshm'⟩ := hrest
  have hdel : (semDelete k (queRemove k.toStartCalls w)).2 = ⟨some b, none, []⟩ := by
    rw [semDelete, hsem.1, hsem.2, hsem', h.sem, if_neg (by simp), if_neg (by simp)]
    dsimp only
    rw [hmsq, hshm', h.shm]
  rw [ipcRemove, hdel, shmDelete_of_removes hshm rfl]
  rfl

theorem Complete.tmdown (h : Complete w b s r p) {g : Grants} {stray : ℤ} {k : StopCalls}
    (hg : StopGranted g stray k) :
    tmdown g stray k w = (some 0, stopSystem b, .empty) := by
  have hc : Complete { w with shm := some (b.withIds s r p) } (b.withIds s r p) s r p :=
    h.withIds (.inl rfl) (.inl rfl) (.inl rfl)
  rw [Sunda.tmdown, h.connect_granted hg]
  dsimp only
  rw [if_neg (not_not.2 rfl), ipcRemove_complete hc rfl rfl hg.queues hg.sem hg.shm]
  rfl

/-! ### Runs -/

/-- The invariant: nothing, or everything and who made it. -/
def Whole (x : IpcSystem) : Prop :=
  x.objects = .empty ∨ ∃ b s r p, Complete x.objects b s r p ∧ x.starter = some b.mainPid ∧ 0 < b.mainPid

theorem Whole.step {x : IpcSystem} {a : IpcAct} (hx : Whole x) (ha : a.Granted x) : Whole (ipcStep x a) := by
  cases a with
  | start cfg pid k =>
    have hgr : StartGranted cfg pid k := ha
    rcases hx with hempty | ⟨b, s, r, p, hc, hst, hpos⟩
    · rw [ipcStep, hempty]
      by_cases hrc : (Tuxmgr.sysStart cfg pid k .empty).1 = some 0
      · obtain ⟨b, s, r, p, hc, hpid⟩ := complete_of_sysStart hgr.settings hrc
        refine .inr ⟨b, s, r, p, hc, ?_, ?_⟩
        · rw [if_pos hrc, hpid]
        · rw [hpid]
          exact hgr.pid
      · exact .inl (((startsClean_iff cfg pid k).2 hgr.clean).nothing hrc).1
    · rw [ipcStep, sysStart_of_complete hc hgr.shmLookup]
      exact .inr ⟨b, s, r, p, hc, hst, hpos⟩
  | connect g stray =>
    rcases hx with hempty | ⟨b, s, r, p, hc, hst, hpos⟩
    · rw [ipcStep, hempty]
      exact .inl rfl
    · obtain ⟨b', hc', hpid⟩ := hc.connect g stray
      exact .inr ⟨b', s, r, p, hc', by rw [hpid]; exact hst, by rw [hpid]; exact hpos⟩
  | down g stray k =>
    rcases hx with hempty | ⟨b, s, r, p, hc, -, -⟩
    · rw [ipcStep, hempty]
      exact .inl rfl
    · rw [ipcStep, hc.tmdown ha]
      exact .inl rfl

/-- What follows from the invariant. -/
theorem Whole.lifeCycle {x : IpcSystem} (hx : Whole x) : LifeCycle x := by
  constructor
  · exact hx.imp_right fun ⟨b, s, r, p, hc, hst, _⟩ ↦ ⟨b, s, r, p, hc, hst⟩
  · intro cfg pid k hgr h0
    rcases hx with hempty | ⟨b, s, r, p, hc, -, -⟩
    · exact hempty
    · rw [sysStart_of_complete hc hgr.shmLookup] at h0
      exact absurd (Option.some.inj h0) (by decide)
  · intro cfg hfit hempty
    rw [hempty]
    exact (startsAgain_empty_iff cfg).2 hfit
  · intro g stray k hg
    rcases hx with hempty | ⟨b, s, r, p, hc, -, -⟩
    · rw [hempty]
      rfl
    · rw [hc.tmdown hg]
  · intro g stray k hg hne
    rcases hx with hempty | ⟨b, s, r, p, hc, hst, hpos⟩
    · exact absurd hempty hne
    · rw [hc.tmdown hg, hst]
      exact ⟨rfl, if_neg (not_le.2 hpos)⟩

/-- **Nothing or everything**, in every run of starts, connections and shutdowns. -/
theorem life_cycle {x : IpcSystem} (h : Guarded.Reach ipcSystem IpcAct.Granted x) : LifeCycle x := by
  have hwhole : Whole x := by
    refine h.invariant (fun x hx ↦ ?_) fun x a x' hx ha hstep ↦ ?_
    · exact .inl (congrArg IpcSystem.objects hx)
    · obtain rfl := Option.some.inj hstep
      exact hx.step ha
  exact hwhole.lifeCycle

/-- The system is started with the settings of an empty file, and a process does not get at the reply queue:
its id is gone, and the shutdown removes everything nevertheless. -/
theorem life_cycle_lost_id :
    ∃ x, Guarded.Reach ipcSystem IpcAct.Granted x ∧ x.objects.shm.map (·.rspQueId) = some (-1) ∧ LifeCycle x := by
  have hsettings : sysParam (cfOpen []) = some .defaults := by decide +kernel
  have hclean : StartsClean .defaults
      ⟨true, true, true, true, some 7, some 0, some 1, some 2, true, true, true, true, true, true⟩ :=
    ⟨by decide +kernel, .inr (.inr ⟨rfl, .inr ⟨by simp, by simp, ⟨2, rfl⟩, rfl⟩⟩)⟩
  have hreach : Guarded.Reach ipcSystem IpcAct.Granted _ :=
    .step (.step (.init rfl)
      (show IpcAct.Granted _ (.start .defaults 100 _) from ⟨⟨_, hsettings⟩, hclean, rfl, by decide⟩) rfl)
      (show IpcAct.Granted _ (.connect ⟨true, true, true, true, true, false⟩ 0) from trivial) rfl
  exact ⟨_, hreach, by decide +kernel, life_cycle hreach⟩

end Sunda
