import Sunda.Common.Funfile
import Sunda.Tux.IpcConnect

/-!
# Starting the system

`sys_start` with `createqueue` and `que_remove` (`pubfun/tux/tuxmgr.c`), `sem_create`
(`pubfun/common/funsem.c`), `shm_create` and `shm_delete` (`pubfun/common/funmem.c`). The shared memory,
the two queues and the semaphore are created one after the other, and every failure has an exit of its
own that undoes a part of it:

* `createqueue` fails: `shm_delete` alone, so the request queue stays when the reply queue fails;
* `sem_create` fails: `shm_delete` and then `que_remove`, which reads the ids of the queues from the
  memory that `shm_delete` has detached;
* `shmat` fails: no exit, since `shm_attach_internal` does not notice.

`IpcObjects` is what exists under the names and keys of the system, `StartCalls` says of every system call
whether the kernel lets it succeed. `startsClean_iff` is the exact condition under which a start is all or
nothing. A start that returns 0 leaves a running system behind (`running_of_sysStart`), which the
connections of the other processes keep running (`running_of_start_connects`).
-/

namespace Sunda

/-! ### The objects and the calls -/

/-- The IPC objects of the system: the shared memory with the control block in front of it, the
semaphore, and the queues with their keys and ids. -/
structure IpcObjects where
  shm : Option MbCtrlBlock
  sem : Option ℕ
  msq : List (ℤ × ℕ)
  deriving DecidableEq

def IpcObjects.empty : IpcObjects := ⟨none, none, []⟩

/-- The calls that the kernel lets succeed; those that look up or create an object answer with the id
that a new one gets. `shmLookup` is the `shmget` of `shm_connect`, `shmCreate` that of `shm_create`, `memid`
that of `shm_getid`, and `shmDelete` that of `shm_delete`. -/
structure StartCalls where
  cfOpen : Bool
  shmLookup : Bool
  shmCreate : Bool
  shmat : Bool
  memid : Option ℕ
  msggetReq : Option ℕ
  msggetRsp : Option ℕ
  semget : Option ℕ
  setval : Bool
  shmdt : Bool
  shmDelete : Bool
  shmctl : Bool
  msgctlReq : Bool
  msgctlRsp : Bool

/-- A store to the control block. -/
def IpcObjects.store (w : IpcObjects) (f : MbCtrlBlock → MbCtrlBlock) : IpcObjects :=
  { w with shm := w.shm.map f }

/-- `MsqCreate`: the queue that exists under the key, or a new one. -/
def msqCreate (new : Option ℕ) (w : IpcObjects) (key : ℤ) : ℤ × IpcObjects :=
  match new with
  | none => (-1, w)
  | some id =>
    match w.msq.lookup key with
    | some old => (old, w)
    | none => (id, { w with msq := (key, id) :: w.msq })

/-- `MsqClose`. -/
def msqClose (msgctl : Bool) (w : IpcObjects) (id : ℤ) : IpcObjects :=
  if msgctl then { w with msq := w.msq.filter fun q ↦ (q.2 : ℤ) ≠ id } else w

/-- `sem_create`. -/
def semCreate (k : StartCalls) (w : IpcObjects) : ℤ × IpcObjects :=
  match k.semget with
  | none => (-1, w)
  | some new =>
    let id := w.sem.getD new
    (semAttachInternal k.setval id, { w with sem := some id })

/-- `shm_delete`, for a segment that is attached. It stays attached exactly when `shmdt` fails. -/
def shmDelete (k : StartCalls) (w : IpcObjects) : ℤ × IpcObjects :=
  if k.shmdt = false then (-1, w)
  else if k.shmDelete = false ∨ w.shm = none then (-1, w)
  else if k.shmctl = false then (-1, w)
  else (0, { w with shm := none })

/-- `que_remove`, with the control block attached. -/
def queRemove (k : StartCalls) (w : IpcObjects) : IpcObjects :=
  match w.shm with
  | none => w
  | some b => msqClose k.msgctlRsp (msqClose k.msgctlReq w b.reqQueId) b.rspQueId

/-- `createqueue`. -/
def createqueue (k : StartCalls) (reqQue rspQue : ℤ) (w : IpcObjects) : ℤ × IpcObjects :=
  let w := w.store fun b ↦ { b with reqQue, rspQue }
  let req := msqCreate k.msggetReq w reqQue
  let w := req.2.store fun b ↦ { b with reqQueId := req.1 }
  if req.1 < 0 then (-1, w)
  else
    let rsp := msqCreate k.msggetRsp w rspQue
    let w := rsp.2.store fun b ↦ { b with rspQueId := rsp.1 }
    if rsp.1 < 0 then (-1, w) else (0, w)

/-! ### The start -/

/-- `count_memory_size`. -/
def countMemorySize (nsvrnum npidnum : ℤ) : ℕ :=
  (BitVec.ofInt 64 (sizeofMbCtrl + sizeofServerTab * nsvrnum + sizeofServerPid * npidnum +
    sizeofServiceTab * nsvrnum)).toNat

/-- The size of the segment that `shm_create` asks for, which takes it as an `int`. -/
def shmSize (size : ℕ) : ℕ :=
  ((BitVec.ofNat 32 size).signExtend 64).toNat

/-- The segment holds the tables. -/
def SysParam.Fits (cfg : SysParam) : Prop :=
  countMemorySize cfg.nsvrnum cfg.npidnum ≤ shmSize (countMemorySize cfg.nsvrnum cfg.npidnum)
  deriving Decidable

/-- The control block behind the `memset`. -/
def SysParam.block (cfg : SysParam) (pid memid : ℤ) : MbCtrlBlock where
  nsvrnum := cfg.nsvrnum
  npidnum := cfg.npidnum
  mainPid := pid
  semid := 0
  memid := memid
  reqQue := 0
  rspQue := 0
  reqQueId := 0
  rspQueId := 0
  maxMsgLen := cfg.nmsglen

/-- `sys_start` behind the initialised shared memory. The entry of the manager, which is registered at
the end, lies behind the control block. -/
def sysStartObjects (cfg : SysParam) (k : StartCalls) (w : IpcObjects) : Option ℤ × IpcObjects :=
  let que := createqueue k cfg.nreqQue cfg.nrspQue w
  if que.1 ≠ 0 then (some que.1, (shmDelete k que.2).2)
  else
    let sem := semCreate k que.2
    let w := sem.2.store fun b ↦ { b with semid := sem.1 }
    if sem.1 < 0 then
      let w := (shmDelete k w).2
      -- `que_remove` reads the ids through `mbctrl`
      if k.shmdt then (none, w) else (some (-1), queRemove k w)
    else (some 0, w)

/-- `sys_start`: the return value, `none` for a process that is killed for touching memory which is not
attached, and the objects. `cfg` is what was read from the configuration. -/
def Tuxmgr.sysStart (cfg : SysParam) (pid : ℤ) (k : StartCalls) (w : IpcObjects) : Option ℤ × IpcObjects :=
  if k.cfOpen = false then (some (-1), w)
  else if k.shmLookup = true ∧ w.shm.isSome then (some (-1), w)
  else if k.shmCreate = false then (some (-1), w)
  else
    let w := { w with shm := some (cfg.block pid (idOf k.memid)) }
    -- the `memset` behind a failing `shmat`, or beyond the segment
    if k.shmat = false ∨ ¬ cfg.Fits then (none, w)
    else sysStartObjects cfg k w

/-! ### Rules -/

variable {cfg : SysParam} {pid : ℤ} {k : StartCalls} {w : IpcObjects} {b : MbCtrlBlock}

@[simp]
theorem IpcObjects.store_sem (w : IpcObjects) (f : MbCtrlBlock → MbCtrlBlock) :
    (w.store f).sem = w.sem :=
  rfl

@[simp]
theorem IpcObjects.store_msq (w : IpcObjects) (f : MbCtrlBlock → MbCtrlBlock) :
    (w.store f).msq = w.msq :=
  rfl

@[simp]
theorem IpcObjects.store_shm (w : IpcObjects) (f : MbCtrlBlock → MbCtrlBlock) :
    (w.store f).shm = w.shm.map f :=
  rfl

@[simp]
theorem msqCreate_none (w : IpcObjects) (key : ℤ) : msqCreate none w key = (-1, w) :=
  rfl

/-- A call that succeeds brings an id and leaves a queue under the key. -/
theorem msqCreate_some (id : ℕ) (w : IpcObjects) (key : ℤ) :
    0 ≤ (msqCreate (some id) w key).1 ∧ (msqCreate (some id) w key).2.shm = w.shm ∧
      (msqCreate (some id) w key).2.sem = w.sem ∧ (msqCreate (some id) w key).2.msq ≠ [] := by
  rw [msqCreate]
  split
  · next old hold =>
    refine ⟨Int.natCast_nonneg old, rfl, rfl, ?_⟩
    rintro hnil
    rw [hnil] at hold
    cases hold
  · exact ⟨Int.natCast_nonneg id, rfl, rfl, List.cons_ne_nil _ _⟩

theorem createqueue_of_req_none (reqQue rspQue : ℤ) (w : IpcObjects) (hreq : k.msggetReq = none) :
    createqueue k reqQue rspQue w =
      (-1, w.store fun b ↦ { b with reqQue, rspQue, reqQueId := -1 }) := by
  simp [createqueue, hreq, IpcObjects.store, Function.comp_def]

/-- The request queue stays when the reply queue fails. -/
theorem createqueue_of_rsp_none {r : ℕ} (reqQue rspQue : ℤ) (w : IpcObjects)
    (hreq : k.msggetReq = some r) (hrsp : k.msggetRsp = none) :
    (createqueue k reqQue rspQue w).1 = -1 ∧ (createqueue k reqQue rspQue w).2.msq ≠ [] := by
  obtain ⟨hid, -, -, hne⟩ := msqCreate_some r (w.store fun b ↦ { b with reqQue, rspQue }) reqQue
  simp only [createqueue, hreq, hrsp, if_neg (not_lt.2 hid), msqCreate_none]
  exact ⟨rfl, hne⟩

/-- With both queues the control block holds their keys and ids. -/
theorem createqueue_of_some {r p : ℕ} (reqQue rspQue : ℤ) (hshm : w.shm = some b)
    (hreq : k.msggetReq = some r) (hrsp : k.msggetRsp = some p) :
    (createqueue k reqQue rspQue w).1 = 0 ∧ ∃ reqQueId rspQueId : ℤ, 0 ≤ reqQueId ∧ 0 ≤ rspQueId ∧
      (createqueue k reqQue rspQue w).2.shm =
        some { b with reqQue, rspQue, reqQueId, rspQueId } := by
  obtain ⟨hid, hreqshm, -, -⟩ := msqCreate_some r (w.store fun b ↦ { b with reqQue, rspQue }) reqQue
  simp only [createqueue, hreq, hrsp, if_neg (not_lt.2 hid)]
  generalize msqCreate (some r) (w.store fun b ↦ { b with reqQue, rspQue }) reqQue = req at hid hreqshm ⊢
  obtain ⟨hid', hrspshm, -, -⟩ :=
    msqCreate_some p (req.2.store fun b ↦ { b with reqQueId := req.1 }) rspQue
  generalize msqCreate (some p) (req.2.store fun b ↦ { b with reqQueId := req.1 }) rspQue = rsp
    at hid' hrspshm ⊢
  rw [if_neg (not_lt.2 hid')]
  refine ⟨rfl, req.1, rsp.1, hid, hid', ?_⟩
  rw [IpcObjects.store_shm, hrspshm, IpcObjects.store_shm, hreqshm, IpcObjects.store_shm, hshm]
  rfl

/-- `shm_delete` removes the segment. -/
structure StartCalls.Removes (k : StartCalls) : Prop where
  shmdt : k.shmdt = true
  shmDelete : k.shmDelete = true
  shmctl : k.shmctl = true

@[simp]
theorem shmDelete_msq (k : StartCalls) (w : IpcObjects) : (shmDelete k w).2.msq = w.msq := by
  simp only [shmDelete]
  split_ifs <;> rfl

theorem shmDelete_of_removes (hk : k.Removes) (hshm : w.shm = some b) :
    shmDelete k w = (0, { w with shm := none }) := by
  simp [shmDelete, hk.shmdt, hk.shmDelete, hk.shmctl, hshm]

/-- Otherwise the segment stays. -/
theorem shmDelete_of_not_removes (hk : ¬ k.Removes) (w : IpcObjects) :
    shmDelete k w = (-1, w) := by
  rw [shmDelete]
  split
  · rfl
  · next hdt =>
    split
    · rfl
    · next hget =>
      split
      · rfl
      · next hctl =>
        have hlook : k.shmDelete ≠ false := fun h ↦ hget (.inl h)
        exact absurd ⟨by simpa using hdt, by simpa using hlook, by simpa using hctl⟩ hk

theorem semCreate_shm (k : StartCalls) (w : IpcObjects) : (semCreate k w).2.shm = w.shm := by
  rw [semCreate]
  split <;> rfl

/-- The semaphore is there and set. -/
def StartCalls.HasSem (k : StartCalls) : Prop :=
  (∃ s, k.semget = some s) ∧ k.setval = true

theorem semCreate_neg_iff (k : StartCalls) (w : IpcObjects) : (semCreate k w).1 < 0 ↔ ¬ k.HasSem := by
  rw [semCreate, StartCalls.HasSem]
  cases k.semget with
  | none => simp
  | some s => cases k.setval <;> simp [semAttachInternal]

/-- Below the range of `long`, the tables do not fit exactly when their size leaves the range of an
`unsigned int` and the rest is not negative as an `int`. -/
theorem le_shmSize_iff {size : ℕ} (h : size < 2 ^ 63) :
    size ≤ shmSize size ↔ size < 2 ^ 32 ∨ 2 ^ 31 ≤ size % 2 ^ 32 := by
  rw [shmSize, BitVec.toNat_signExtend, BitVec.toNat_setWidth, BitVec.toNat_ofNat,
    BitVec.msb_eq_decide, BitVec.toNat_ofNat]
  have hmod : size % 2 ^ 32 % 2 ^ 64 = size % 2 ^ 32 := Nat.mod_eq_of_lt (by omega)
  rw [hmod]
  by_cases hneg : 2 ^ 31 ≤ size % 2 ^ 32
  · rw [if_pos (decide_eq_true hneg)]
    omega
  · rw [if_neg (by simpa using hneg)]
    omega

/-! ### The exits -/

theorem sysStartObjects_of_req_none (cfg : SysParam) (hreq : k.msggetReq = none) (w : IpcObjects) :
    ∃ f, sysStartObjects cfg k w = (some (-1), (shmDelete k (w.store f)).2) := by
  refine ⟨fun b ↦ { b with reqQue := cfg.nreqQue, rspQue := cfg.nrspQue, reqQueId := -1 }, ?_⟩
  have hrc : (-1 : ℤ) ≠ 0 := by decide
  rw [sysStartObjects, createqueue_of_req_none _ _ w hreq, if_pos hrc]

/-- The exit behind the reply queue leaves the request queue. -/
theorem sysStartObjects_of_rsp_none (cfg : SysParam) {r : ℕ} (hreq : k.msggetReq = some r)
    (hrsp : k.msggetRsp = none) (w : IpcObjects) :
    (sysStartObjects cfg k w).1 = some (-1) ∧ (sysStartObjects cfg k w).2.msq ≠ [] := by
  obtain ⟨hrc, hmsq⟩ := createqueue_of_rsp_none cfg.nreqQue cfg.nrspQue w hreq hrsp
  rw [sysStartObjects, hrc, if_pos (by decide)]
  exact ⟨rfl, by rwa [shmDelete_msq]⟩

/-- The exit behind the semaphore kills the process, or leaves the shared memory. -/
theorem sysStartObjects_of_not_hasSem (cfg : SysParam) {r p : ℕ} (hreq : k.msggetReq = some r)
    (hrsp : k.msggetRsp = some p) (hsem : ¬ k.HasSem) (hshm : w.shm = some b) :
    (sysStartObjects cfg k w).1 = none ∨
      (sysStartObjects cfg k w).1 = some (-1) ∧ (sysStartObjects cfg k w).2.shm ≠ none := by
  obtain ⟨hrc, r', p', -, -, hb⟩ := createqueue_of_some cfg.nreqQue cfg.nrspQue hshm hreq hrsp
  rw [sysStartObjects, hrc, if_neg (by decide)]
  simp only [if_pos ((semCreate_neg_iff k _).2 hsem)]
  cases hdt : k.shmdt with
  | true => exact .inl rfl
  | false =>
    have hk : ¬ k.Removes := fun h ↦ by simp [h.shmdt] at hdt
    refine .inr ⟨rfl, ?_⟩
    rw [shmDelete_of_not_removes hk]
    simp only [queRemove, IpcObjects.store_shm, semCreate_shm, hb, Option.map_some, msqClose,
      apply_ite IpcObjects.shm, ite_self, Bool.false_eq_true, if_false]
    simp

/-- With everything there, the control block holds the keys and three valid ids. -/
theorem sysStartObjects_of_some (cfg : SysParam) {r p : ℕ} (hreq : k.msggetReq = some r)
    (hrsp : k.msggetRsp = some p) (hsem : k.HasSem) (hshm : w.shm = some b) :
    (sysStartObjects cfg k w).1 = some 0 ∧ ∃ semid reqQueId rspQueId : ℤ,
      0 ≤ semid ∧ 0 ≤ reqQueId ∧ 0 ≤ rspQueId ∧
      (sysStartObjects cfg k w).2.shm =
        some { b with semid, reqQueId, rspQueId, reqQue := cfg.nreqQue, rspQue := cfg.nrspQue } := by
  obtain ⟨hrc, r', p', hr, hp, hb⟩ := createqueue_of_some cfg.nreqQue cfg.nrspQue hshm hreq hrsp
  have hpos := (not_congr (semCreate_neg_iff k (createqueue k cfg.nreqQue cfg.nrspQue w).2)).2
    (not_not.2 hsem)
  rw [sysStartObjects, hrc, if_neg (by decide)]
  simp only [if_neg hpos, IpcObjects.store_shm, semCreate_shm, hb, Option.map_some, true_and]
  exact ⟨_, r', p', not_lt.1 hpos, hr, hp, rfl⟩

/-- Behind the initialised shared memory 0 means that everything was created. -/
theorem of_sysStartObjects_zero (hshm : w.shm = some b) (h : (sysStartObjects cfg k w).1 = some 0) :
    (∃ r, k.msggetReq = some r) ∧ (∃ p, k.msggetRsp = some p) ∧ k.HasSem := by
  cases hreq : k.msggetReq with
  | none =>
    obtain ⟨f, hobj⟩ := sysStartObjects_of_req_none cfg hreq w
    rw [hobj] at h
    cases h
  | some r =>
    cases hrsp : k.msggetRsp with
    | none =>
      rw [(sysStartObjects_of_rsp_none cfg hreq hrsp w).1] at h
      cases h
    | some p =>
      refine ⟨⟨r, rfl⟩, ⟨p, rfl⟩, ?_⟩
      by_contra hsem
      obtain hkill | ⟨hrc, -⟩ := sysStartObjects_of_not_hasSem cfg hreq hrsp hsem hshm
      · rw [hkill] at h
        cases h
      · rw [hrc] at h
        cases h

/-! ### All or nothing -/

/-- The system calls of a start all succeed. -/
structure StartCalls.AllSucceed (k : StartCalls) : Prop where
  cfOpen : k.cfOpen = true
  shmLookup : k.shmLookup = true
  shmCreate : k.shmCreate = true
  shmat : k.shmat = true
  memid : k.memid ≠ none
  msggetReq : k.msggetReq ≠ none
  msggetRsp : k.msggetRsp ≠ none
  hasSem : k.HasSem

/-- A later start whose calls all succeed returns 0. -/
def StartsAgain (cfg : SysParam) (w : IpcObjects) : Prop :=
  ∀ pid k, k.AllSucceed → (Tuxmgr.sysStart cfg pid k w).1 = some 0

/-- What is claimed of a start without earlier objects: it touches attached memory only, and when it
returns something other than 0, no object is left and the system can be started again. -/
structure AllOrNothing (cfg : SysParam) (pid : ℤ) (k : StartCalls) : Prop where
  returns : (Tuxmgr.sysStart cfg pid k .empty).1 ≠ none
  nothing : (Tuxmgr.sysStart cfg pid k .empty).1 ≠ some 0 →
    (Tuxmgr.sysStart cfg pid k .empty).2 = .empty ∧
      StartsAgain cfg (Tuxmgr.sysStart cfg pid k .empty).2

/-- The calls of a start that is all or nothing: the tables fit into the segment that is asked for, and
either the configuration or the segment is not there, or the request queue is the first failure and
`shm_delete` works, or nothing fails. -/
def StartsClean (cfg : SysParam) (k : StartCalls) : Prop :=
  cfg.Fits ∧ (k.cfOpen = false ∨ k.shmCreate = false ∨ k.shmat = true ∧
    (k.msggetReq = none ∧ k.Removes ∨ k.msggetReq ≠ none ∧ k.msggetRsp ≠ none ∧ k.HasSem))

/-- Without earlier objects the start gets past the configuration and the segment. -/
theorem sysStart_empty (cfg : SysParam) (pid : ℤ) (hcf : k.cfOpen = true) (hshm : k.shmCreate = true) :
    Tuxmgr.sysStart cfg pid k .empty =
      let w : IpcObjects := ⟨some (cfg.block pid (idOf k.memid)), none, []⟩
      if k.shmat = false ∨ ¬ cfg.Fits then (none, w) else sysStartObjects cfg k w := by
  simp [Tuxmgr.sysStart, IpcObjects.empty, hcf, hshm]

theorem sysStart_of_cfOpen (hcf : k.cfOpen = false) : Tuxmgr.sysStart cfg pid k w = (some (-1), w) := by
  rw [Tuxmgr.sysStart, if_pos hcf]

theorem sysStart_of_shmCreate (hshm : k.shmCreate = false) :
    Tuxmgr.sysStart cfg pid k w = (some (-1), w) := by
  simp [Tuxmgr.sysStart, hshm]

/-- From nothing, the system can be started exactly when the tables fit. -/
theorem startsAgain_empty_iff (cfg : SysParam) : StartsAgain cfg .empty ↔ cfg.Fits := by
  constructor
  · intro h
    have h0 := h 0 ⟨true, true, true, true, some 0, some 0, some 0, some 0, true, true, true, true,
      true, true⟩ ⟨rfl, rfl, rfl, rfl, by simp, by simp, by simp, ⟨0, rfl⟩, rfl⟩
    rw [sysStart_empty cfg 0 rfl rfl] at h0
    by_contra hfit
    rw [if_pos (.inr hfit)] at h0
    cases h0
  · intro hfit pid k hk
    obtain ⟨r, hreq⟩ := Option.ne_none_iff_exists'.1 hk.msggetReq
    obtain ⟨p, hrsp⟩ := Option.ne_none_iff_exists'.1 hk.msggetRsp
    rw [sysStart_empty cfg pid hk.cfOpen hk.shmCreate]
    dsimp only
    rw [if_neg (by simp [hk.shmat, hfit])]
    exact (sysStartObjects_of_some cfg hreq hrsp hk.hasSem rfl).1

/-- A start that returned -1 is all or nothing exactly when nothing is left and the tables fit. -/
theorem allOrNothing_iff_of_fails (hrc : (Tuxmgr.sysStart cfg pid k .empty).1 = some (-1)) :
    AllOrNothing cfg pid k ↔ (Tuxmgr.sysStart cfg pid k .empty).2 = .empty ∧ cfg.Fits := by
  constructor
  · rintro ⟨-, hnothing⟩
    obtain ⟨hempty, hagain⟩ := hnothing (by rw [hrc]; decide)
    rw [hempty, startsAgain_empty_iff] at hagain
    exact ⟨hempty, hagain⟩
  · rintro ⟨hempty, hfit⟩
    constructor
    · rw [hrc]
      exact Option.some_ne_none _
    · intro _
      rw [hempty, startsAgain_empty_iff]
      exact ⟨rfl, hfit⟩

theorem allOrNothing_of_zero (hrc : (Tuxmgr.sysStart cfg pid k .empty).1 = some 0) :
    AllOrNothing cfg pid k := by
  constructor
  · rw [hrc]
    exact Option.some_ne_none _
  · exact fun h ↦ absurd hrc h

/-- The exits behind the initialised shared memory. -/
theorem allOrNothing_iff_of_objects
    (heq : Tuxmgr.sysStart cfg pid k .empty =
      sysStartObjects cfg k ⟨some (cfg.block pid (idOf k.memid)), none, []⟩) (hfit : cfg.Fits) :
    AllOrNothing cfg pid k ↔
      k.msggetReq = none ∧ k.Removes ∨ k.msggetReq ≠ none ∧ k.msggetRsp ≠ none ∧ k.HasSem := by
  cases hreq : k.msggetReq with
  | none =>
    obtain ⟨f, hobj⟩ := sysStartObjects_of_req_none cfg hreq
      ⟨some (cfg.block pid (idOf k.memid)), none, []⟩
    rw [hobj] at heq
    rw [allOrNothing_iff_of_fails (by rw [heq]), heq]
    by_cases hk : k.Removes
    · rw [shmDelete_of_removes hk rfl]
      simp [hk, hfit, IpcObjects.empty, IpcObjects.store]
    · rw [shmDelete_of_not_removes hk]
      simp [hk, IpcObjects.empty, IpcObjects.store]
  | some r =>
    cases hrsp : k.msggetRsp with
    | none =>
      obtain ⟨hrc, hmsq⟩ := sysStartObjects_of_rsp_none cfg hreq hrsp
        ⟨some (cfg.block pid (idOf k.memid)), none, []⟩
      rw [allOrNothing_iff_of_fails (by rw [heq, hrc]), heq]
      constructor
      · rintro ⟨hempty, -⟩
        rw [hempty] at hmsq
        exact absurd rfl hmsq
      · simp
    | some p =>
      by_cases hsem : k.HasSem
      · have hok := (sysStartObjects_of_some cfg hreq hrsp hsem
          (w := ⟨some (cfg.block pid (idOf k.memid)), none, []⟩) rfl).1
        simp [hsem, allOrNothing_of_zero (heq ▸ hok)]
      · simp only [hsem, and_false, or_false, reduceCtorEq, false_and, iff_false]
        intro h
        obtain hkill | ⟨hrc, hshm⟩ := sysStartObjects_of_not_hasSem cfg hreq hrsp hsem
          (w := ⟨some (cfg.block pid (idOf k.memid)), none, []⟩) rfl
        · exact h.returns (by rw [heq, hkill])
        · rw [allOrNothing_iff_of_fails (by rw [heq, hrc]), heq] at h
          exact hshm (by rw [h.1, IpcObjects.empty])

/-- **All or nothing.** A start without earlier objects touches attached memory only and leaves nothing
behind when it fails, so that the next one works, if and only if it is one of `StartsClean`. -/
theorem startsClean_iff (cfg : SysParam) (pid : ℤ) (k : StartCalls) :
    AllOrNothing cfg pid k ↔ StartsClean cfg k := by
  cases hcf : k.cfOpen with
  | false =>
    rw [allOrNothing_iff_of_fails (by rw [sysStart_of_cfOpen hcf]), sysStart_of_cfOpen hcf]
    simp [StartsClean, hcf]
  | true =>
    cases hshm : k.shmCreate with
    | false =>
      rw [allOrNothing_iff_of_fails (by rw [sysStart_of_shmCreate hshm]), sysStart_of_shmCreate hshm]
      simp [StartsClean, hshm]
    | true =>
      have heq := sysStart_empty cfg pid hcf hshm
      dsimp only at heq
      simp only [StartsClean, hcf, hshm, Bool.true_eq_false, false_or]
      split at heq
      · next hkill =>
        constructor
        · exact fun h ↦ absurd (by rw [heq]) h.returns
        · rintro ⟨hfit, hat, -⟩
          simp [hat, hfit] at hkill
      · next hok =>
        rw [not_or, not_not] at hok
        rw [allOrNothing_iff_of_objects heq hok.2]
        simp [hok.1, hok.2]

/-- Every call succeeds but the `msgget` for the reply queue. -/
def rspQueueFails : StartCalls :=
  ⟨true, true, true, true, some 7, some 0, none, some 1, true, true, true, true, true, true⟩

/-- The reply queue cannot be created, and the request queue stays. -/
theorem request_queue_left :
    ¬ ∀ (cfg : SysParam) (pid : ℤ) (k : StartCalls), AllOrNothing cfg pid k := fun h ↦ by
  have hrc : (Tuxmgr.sysStart .defaults 100 rspQueueFails .empty).1 ≠ some 0 := by decide +kernel
  have hempty := ((h .defaults 100 rspQueueFails).nothing hrc).1
  revert hempty
  decide +kernel

/-- The semaphore cannot be created, and `que_remove` reads detached memory. -/
example :
    (Tuxmgr.sysStart .defaults 100 { rspQueueFails with msggetRsp := some 1, semget := none } .empty).1 =
      none := by
  decide +kernel

/-! ### The running system -/

theorem sysSetting_pos {pname : String} {dflt n : ℤ} {f : CfFile} (hd : 0 < dflt)
    (h : (sysSetting pname dflt f).1 = some n) : 0 < n := by
  simp only [sysSetting, Option.map_eq_some_iff] at h
  obtain ⟨r, -, rfl⟩ := h
  cases r with
  | none => exact hd
  | some v =>
    dsimp only [Option.elim_some]
    split <;> omega

/-- Every setting is positive. -/
theorem sysParam_pos {f : CfFile} (h : sysParam f = some cfg) :
    0 < cfg.nsvrnum ∧ 0 < cfg.npidnum ∧ 0 < cfg.nmsglen ∧ 0 < cfg.nreqQue ∧ 0 < cfg.nrspQue := by
  simp only [sysParam, Option.bind_eq_some_iff, Option.map_eq_some_iff] at h
  obtain ⟨svrnum, e1, pidnum, e2, msglen, e3, reqQue, e4, rspQue, e5, rfl⟩ := h
  exact ⟨sysSetting_pos (by decide) e1, sysSetting_pos (by decide) e2, sysSetting_pos (by decide) e3,
    sysSetting_pos (by decide) e4, sysSetting_pos (by decide) e5⟩

/-- A start that returned 0 got past the configuration and the segment. -/
theorem sysStart_eq_of_zero (h : (Tuxmgr.sysStart cfg pid k .empty).1 = some 0) :
    Tuxmgr.sysStart cfg pid k .empty =
      sysStartObjects cfg k ⟨some (cfg.block pid (idOf k.memid)), none, []⟩ := by
  have hcf : k.cfOpen = true := by
    by_contra hcf
    rw [sysStart_of_cfOpen (by simpa using hcf)] at h
    cases h
  have hshm : k.shmCreate = true := by
    by_contra hshm
    rw [sysStart_of_shmCreate (by simpa using hshm)] at h
    cases h
  rw [sysStart_empty cfg pid hcf hshm] at h ⊢
  dsimp only at h ⊢
  split at h
  · cases h
  · next hok => rw [if_neg hok]

/-- A start that returned 0 leaves a running system behind. -/
theorem running_of_sysStart {f : CfFile} (hcfg : sysParam f = some cfg)
    (h : (Tuxmgr.sysStart cfg pid k .empty).1 = some 0) :
    ∃ b, (Tuxmgr.sysStart cfg pid k .empty).2.shm = some b ∧ b.Running := by
  obtain ⟨-, -, -, hreqQue, hrspQue⟩ := sysParam_pos hcfg
  have heq := sysStart_eq_of_zero h
  rw [heq] at h ⊢
  obtain ⟨⟨r, hreq⟩, ⟨p, hrsp⟩, hsem⟩ := of_sysStartObjects_zero rfl h
  obtain ⟨-, s, r', p', hs, hr, hp, hb⟩ := sysStartObjects_of_some cfg hreq hrsp hsem
    (w := ⟨some (cfg.block pid (idOf k.memid)), none, []⟩) rfl
  exact ⟨_, hb, hs, hr, hp, hreqQue, hrspQue⟩

/-- **From the start on**, connections in which no lookup fails keep the system running. -/
theorem running_of_start_connects {f : CfFile} (hcfg : sysParam f = some cfg)
    (h : (Tuxmgr.sysStart cfg pid k .empty).1 = some 0) (cs : List (Lookups × ℤ))
    (hcs : ∀ c ∈ cs, ∃ s r p, c.1.Found s r p) :
    ∃ b, cs.foldl afterConnect (Tuxmgr.sysStart cfg pid k .empty).2.shm = some b ∧ b.Running := by
  obtain ⟨b, hb, hrun⟩ := running_of_sysStart hcfg h
  rw [hb]
  exact running_of_connects cs hrun hcs

end Sunda
