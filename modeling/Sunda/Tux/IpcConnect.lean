import Sunda.Tux.Types

/-!
# Connecting to the running system

`ipc_connect` and `que_connect` (`pubfun/tux/tuxmgr.c`), with `sem_connect` (`pubfun/common/funsem.c`)
and `shm_connect` (`pubfun/common/funmem.c`). Every process of the system and every tool starts with
`ipc_connect`. The ids that it looks up go straight into the control block, which lies in the memory
that all processes share, and are checked afterwards: a lookup that fails leaves -1 there for
everybody. The check behind the second queue reads the key `rsp_que` in place of the id, and
`que_connect` has no `return` at its end.

The kernel's answers are data (`Lookups`), so a statement about all of them covers every point at which a
connection can fail. The value that the caller of `que_connect` finds at its end is an argument too,
`stray`: the language leaves it open.

`ipcConnect_safe_iff` says for which control blocks and answers a connection is harmless and its result
right. On a running system (`MbCtrlBlock.Running`) these are the connections in which nothing fails
(`harmless_iff_of_running`), and they keep the system running (`running_of_connects`).
-/

namespace Sunda

/-- `mb_ctrl_t`, at the start of the shared memory. -/
structure MbCtrlBlock where
  nsvrnum : ℤ
  npidnum : ℤ
  mainPid : ℤ
  semid : ℤ
  memid : ℤ
  reqQue : ℤ
  rspQue : ℤ
  reqQueId : ℤ
  rspQueId : ℤ
  maxMsgLen : ℤ
  deriving DecidableEq

/-- The kernel's answers while one process connects, one for each call: `false` and `none` are failures,
and otherwise a lookup answers with an id. -/
structure Lookups where
  shmget : Bool
  shmat : Bool
  semget : Option ℕ
  setval : Bool
  msggetReq : Option ℕ
  msggetRsp : Option ℕ

/-- The value of `semget`, `shmget` and `msgget`. -/
def idOf (found : Option ℕ) : ℤ :=
  found.elim (-1) fun id ↦ id

/-- `sem_attach_internal`, for the one semaphore of the set. -/
def semAttachInternal (setval : Bool) (semId : ℤ) : ℤ :=
  if setval then semId else -1

/-- `sem_connect`. -/
def semConnect (k : Lookups) : ℤ :=
  let semid := idOf k.semget
  if semid < 0 then -1 else semAttachInternal k.setval semid

/-- `que_connect`. -/
def queConnect (k : Lookups) (stray : ℤ) (mbctrl : MbCtrlBlock) : ℤ × MbCtrlBlock :=
  let mbctrl := { mbctrl with reqQueId := idOf k.msggetReq }
  if mbctrl.reqQueId < 0 then (-1, mbctrl)
  else
    let mbctrl := { mbctrl with rspQueId := idOf k.msggetRsp }
    -- the key, not the id
    if mbctrl.rspQue < 0 then (-1, mbctrl) else (stray, mbctrl)

/-- `ipc_connect`: the return value, `none` for a process that is killed, and the shared memory. -/
def ipcConnect (k : Lookups) (stray : ℤ) (shm : Option MbCtrlBlock) :
    Option ℤ × Option MbCtrlBlock :=
  match shm.filter fun _ ↦ k.shmget with
  | none => (some (-1), shm)
  | some mbctrl =>
    -- `shm_attach_internal` compares with NULL, and a failing `shmat` returns `(void *)-1`
    if k.shmat = false then (none, shm)
    else if mbctrl.reqQue = 0 ∧ mbctrl.rspQue = 0 then (some (-1), shm)
    else
      let mbctrl := { mbctrl with semid := semConnect k }
      if mbctrl.semid < 0 then (some (-1), some mbctrl)
      else
        let r := queConnect k stray mbctrl
        (some (if r.1 < 0 then -1 else 0), some r.2)

/-! ### What a connection finds -/

/-- The semaphore, found and set. -/
def Lookups.sem (k : Lookups) : Option ℕ :=
  if k.setval then k.semget else none

/-- The connection gets as far as the first lookup, with the control block `b` attached. -/
structure Reaches (k : Lookups) (shm : Option MbCtrlBlock) (b : MbCtrlBlock) : Prop where
  shm_eq : shm = some b
  shmget : k.shmget = true
  shmat : k.shmat = true
  keys : ¬ (b.reqQue = 0 ∧ b.rspQue = 0)

/-- All lookups succeeded. -/
structure Lookups.Found (k : Lookups) (s r p : ℕ) : Prop where
  sem : k.sem = some s
  req : k.msggetReq = some r
  rsp : k.msggetRsp = some p

/-- The control block with the ids that were found. -/
def MbCtrlBlock.withIds (b : MbCtrlBlock) (s r p : ℤ) : MbCtrlBlock :=
  { b with semid := s, reqQueId := r, rspQueId := p }

@[simp]
theorem idOf_none : idOf none = -1 :=
  rfl

@[simp]
theorem idOf_some (id : ℕ) : idOf (some id) = id :=
  rfl

theorem idOf_neg_iff (found : Option ℕ) : idOf found < 0 ↔ found = none := by
  cases found with
  | none => simp
  | some id => simp

theorem semConnect_eq (k : Lookups) : semConnect k = idOf k.sem := by
  rw [semConnect, Lookups.sem, semAttachInternal]
  cases k.semget with
  | none => simp
  | some id =>
    have hid : ¬ (id : ℤ) < 0 := by omega
    cases k.setval <;> simp [hid]

variable {k : Lookups} {shm : Option MbCtrlBlock} {b : MbCtrlBlock} {s r p : ℕ}

/-- `ipc_connect` from the first lookup on. -/
theorem Reaches.ipcConnect_eq (h : Reaches k shm b) (stray : ℤ) :
    ipcConnect k stray shm =
      if k.sem = none then (some (-1), some { b with semid := -1 })
      else
        let r := queConnect k stray { b with semid := idOf k.sem }
        (some (if r.1 < 0 then -1 else 0), some r.2) := by
  obtain ⟨rfl, hget, hat, hkeys⟩ := h
  have hshm : (some b).filter (fun _ ↦ k.shmget) = some b := by simp [hget]
  simp only [ipcConnect, hshm, hat, Bool.true_eq_false, if_false, if_neg hkeys, semConnect_eq,
    idOf_neg_iff]
  split
  · next hnone => rw [hnone, idOf_none]
  · rfl

/-- A connection that does not get there returns -1 or nothing, and stores nothing. -/
theorem ipcConnect_of_not_reaches (stray : ℤ) (h : ∀ b, ¬ Reaches k shm b) :
    (ipcConnect k stray shm).1 ≠ some 0 ∧ (ipcConnect k stray shm).2 = shm := by
  rw [ipcConnect]
  split
  · exact ⟨by simp, rfl⟩
  · next b hb =>
    obtain ⟨hshm, hget⟩ := Option.filter_eq_some_iff.1 hb
    split
    · exact ⟨by simp, rfl⟩
    · next hat =>
      have hkeys : b.reqQue = 0 ∧ b.rspQue = 0 := by
        by_contra hkeys
        exact h b ⟨hshm, hget, by simpa using hat, hkeys⟩
      rw [if_pos hkeys]
      exact ⟨by simp, rfl⟩

theorem Reaches.of_sem_none (h : Reaches k shm b) (stray : ℤ) (hsem : k.sem = none) :
    ipcConnect k stray shm = (some (-1), some { b with semid := -1 }) := by
  rw [h.ipcConnect_eq, if_pos hsem]

theorem Reaches.of_req_none (h : Reaches k shm b) (stray : ℤ) (hsem : k.sem = some s)
    (hreq : k.msggetReq = none) :
    ipcConnect k stray shm = (some (-1), some { b with semid := s, reqQueId := -1 }) := by
  simp [h.ipcConnect_eq, queConnect, hsem, hreq]

/-- Behind both queues the result has nothing to do with the second lookup. -/
theorem Reaches.of_req_some (h : Reaches k shm b) (stray : ℤ) (hsem : k.sem = some s)
    (hreq : k.msggetReq = some r) :
    ipcConnect k stray shm =
      (some (if b.rspQue < 0 ∨ stray < 0 then -1 else 0), some (b.withIds s r (idOf k.msggetRsp))) := by
  have hr : ¬ (r : ℤ) < 0 := by omega
  rw [h.ipcConnect_eq, if_neg (by simp [hsem])]
  simp only [queConnect, hsem, hreq, idOf_some, if_neg hr, MbCtrlBlock.withIds]
  by_cases hrsp : b.rspQue < 0
  · simp [hrsp]
  · simp [hrsp]

/-! ### Harmless connections -/

/-- The ways in which a connection to the control block `b` is harmless and its result right. -/
inductive Harmless (k : Lookups) (stray : ℤ) (b : MbCtrlBlock) : Prop
  /-- Everything is found, the key of the reply queue is not negative, and neither is the value that
  `que_connect` leaves behind. -/
  | found {s r p : ℕ} (hfound : k.Found s r p) (hkey : 0 ≤ b.rspQue) (hstray : 0 ≤ stray)
  /-- The lookup that fails overwrites an id that was -1 before, and those in front of it found what
  was stored. -/
  | sem (hsem : k.sem = none) (hid : b.semid = -1)
  | req {s : ℕ} (hsem : k.sem = some s) (hreq : k.msggetReq = none) (hs : b.semid = s)
      (hid : b.reqQueId = -1)
  | rsp {s r : ℕ} (hsem : k.sem = some s) (hreq : k.msggetReq = some r) (hrsp : k.msggetRsp = none)
      (hfails : b.rspQue < 0 ∨ stray < 0) (hs : b.semid = s) (hr : b.reqQueId = r)
      (hid : b.rspQueId = -1)

/-- What is claimed of a connection: a failure leaves the shared memory as it was, and the result is 0
exactly when every lookup was made and succeeded. -/
structure ConnectSafe (k : Lookups) (stray : ℤ) (shm : Option MbCtrlBlock) : Prop where
  unchanged : ∀ rc, (ipcConnect k stray shm).1 = some rc → rc ≠ 0 → (ipcConnect k stray shm).2 = shm
  zero_iff : (ipcConnect k stray shm).1 = some 0 ↔ ∃ b s r p, Reaches k shm b ∧ k.Found s r p

/-- The ids are those that were there. -/
theorem MbCtrlBlock.withIds_eq_iff (b : MbCtrlBlock) (s r p : ℤ) :
    b.withIds s r p = b ↔ b.semid = s ∧ b.reqQueId = r ∧ b.rspQueId = p := by
  constructor
  · intro h
    rw [← h]
    exact ⟨rfl, rfl, rfl⟩
  · rintro ⟨rfl, rfl, rfl⟩
    rfl

/-- A connection in which a lookup fails is safe exactly when it returns -1 and stores what was there. -/
theorem Reaches.connectSafe_iff_of_not_found {stray rc : ℤ} {b' : MbCtrlBlock} (h : Reaches k shm b)
    (hnot : ∀ s r p, ¬ k.Found s r p) (heq : ipcConnect k stray shm = (some rc, some b')) :
    ConnectSafe k stray shm ↔ rc ≠ 0 ∧ b' = b := by
  constructor
  · rintro ⟨hun, hzero⟩
    rw [heq] at hun hzero
    have hrc : rc ≠ 0 := by
      rintro rfl
      obtain ⟨_, s, r, p, -, hfound⟩ := hzero.1 rfl
      exact hnot s r p hfound
    have hshm := hun rc rfl hrc
    rw [h.shm_eq] at hshm
    exact ⟨hrc, Option.some.inj hshm⟩
  · rintro ⟨hrc, rfl⟩
    constructor
    · intro _ _ _
      rw [heq, h.shm_eq]
    · rw [heq]
      constructor
      · intro h0
        exact absurd (Option.some.inj h0) hrc
      · rintro ⟨_, s, r, p, -, hfound⟩
        exact absurd hfound (hnot s r p)

/-- A connection that finds everything is safe exactly when it returns 0. -/
theorem Reaches.connectSafe_iff_of_found {stray : ℤ} (h : Reaches k shm b) (hfound : k.Found s r p) :
    ConnectSafe k stray shm ↔ 0 ≤ b.rspQue ∧ 0 ≤ stray := by
  have heq := h.of_req_some stray hfound.sem hfound.req
  constructor
  · intro hsafe
    have h0 := hsafe.zero_iff.2 ⟨b, s, r, p, h, hfound⟩
    rw [heq] at h0
    split at h0
    · cases h0
    · omega
  · intro hpos
    rw [if_neg (by omega)] at heq
    constructor
    · intro rc hrc hne
      rw [heq] at hrc
      exact absurd (Option.some.inj hrc).symm hne
    · rw [heq]
      exact ⟨fun _ ↦ ⟨b, s, r, p, h, hfound⟩, fun _ ↦ rfl⟩

theorem harmless_iff_of_sem_none {stray : ℤ} (hsem : k.sem = none) :
    Harmless k stray b ↔ b.semid = -1 := by
  constructor
  · rintro (⟨hf, -, -⟩ | ⟨-, hid⟩ | ⟨hs, -, -, -⟩ | ⟨hs, -, -, -, -, -, -⟩)
    · simp [hf.sem] at hsem
    · exact hid
    · simp [hs] at hsem
    · simp [hs] at hsem
  · exact .sem hsem

theorem harmless_iff_of_req_none {stray : ℤ} (hsem : k.sem = some s) (hreq : k.msggetReq = none) :
    Harmless k stray b ↔ b.semid = s ∧ b.reqQueId = -1 := by
  constructor
  · rintro (⟨hf, -, -⟩ | ⟨hs, -⟩ | ⟨hs, -, hid, hrid⟩ | ⟨-, hr, -, -, -, -, -⟩)
    · simp [hf.req] at hreq
    · simp [hs] at hsem
    · obtain rfl := Option.some.inj (hsem.symm.trans hs)
      exact ⟨hid, hrid⟩
    · simp [hr] at hreq
  · exact fun ⟨hs, hid⟩ ↦ .req hsem hreq hs hid

theorem harmless_iff_of_rsp_none {stray : ℤ} (hsem : k.sem = some s) (hreq : k.msggetReq = some r)
    (hrsp : k.msggetRsp = none) :
    Harmless k stray b ↔
      (b.rspQue < 0 ∨ stray < 0) ∧ b.semid = s ∧ b.reqQueId = r ∧ b.rspQueId = -1 := by
  constructor
  · rintro (⟨hf, -, -⟩ | ⟨hs, -⟩ | ⟨-, hr, -, -⟩ | ⟨hs, hr, -, hneg, h1, h2, h3⟩)
    · simp [hf.rsp] at hrsp
    · simp [hs] at hsem
    · simp [hr] at hreq
    · obtain rfl := Option.some.inj (hsem.symm.trans hs)
      obtain rfl := Option.some.inj (hreq.symm.trans hr)
      exact ⟨hneg, h1, h2, h3⟩
  · exact fun ⟨hneg, h1, h2, h3⟩ ↦ .rsp hsem hreq hrsp hneg h1 h2 h3

theorem harmless_iff_of_found {stray : ℤ} (hfound : k.Found s r p) :
    Harmless k stray b ↔ 0 ≤ b.rspQue ∧ 0 ≤ stray := by
  constructor
  · rintro (⟨-, hkey, hstray⟩ | ⟨hs, -⟩ | ⟨-, hr, -, -⟩ | ⟨-, -, hp, -, -, -, -⟩)
    · exact ⟨hkey, hstray⟩
    · simp [hfound.sem] at hs
    · simp [hfound.req] at hr
    · simp [hfound.rsp] at hp
  · exact fun ⟨hkey, hstray⟩ ↦ .found hfound hkey hstray

/-- The cases are those of the lookups, in their order. -/
theorem Reaches.connectSafe_iff {stray : ℤ} (h : Reaches k shm b) :
    ConnectSafe k stray shm ↔ Harmless k stray b := by
  cases hsem : k.sem with
  | none =>
    have hnot : ∀ s r p, ¬ k.Found s r p := fun s r p hf ↦ by simp [hf.sem] at hsem
    rw [h.connectSafe_iff_of_not_found hnot (h.of_sem_none stray hsem),
      harmless_iff_of_sem_none hsem]
    constructor
    · rintro ⟨-, heq⟩
      rw [← heq]
    · intro hid
      exact ⟨by decide, by rw [← hid]⟩
  | some s =>
    cases hreq : k.msggetReq with
    | none =>
      have hnot : ∀ s r p, ¬ k.Found s r p := fun s r p hf ↦ by simp [hf.req] at hreq
      rw [h.connectSafe_iff_of_not_found hnot (h.of_req_none stray hsem hreq),
        harmless_iff_of_req_none hsem hreq]
      constructor
      · rintro ⟨-, heq⟩
        rw [← heq]
        exact ⟨rfl, rfl⟩
      · rintro ⟨hid, hrid⟩
        exact ⟨by decide, by rw [← hid, ← hrid]⟩
    | some r =>
      cases hrsp : k.msggetRsp with
      | none =>
        have hnot : ∀ s r p, ¬ k.Found s r p := fun s r p hf ↦ by simp [hf.rsp] at hrsp
        rw [h.connectSafe_iff_of_not_found hnot (h.of_req_some stray hsem hreq),
          MbCtrlBlock.withIds_eq_iff, hrsp, idOf_none, harmless_iff_of_rsp_none hsem hreq hrsp]
        refine and_congr_left fun _ ↦ ?_
        split <;> simp_all
      | some p =>
        rw [h.connectSafe_iff_of_found ⟨hsem, hreq, hrsp⟩, harmless_iff_of_found ⟨hsem, hreq, hrsp⟩]

/-- **Harmless connections.** A connection leaves the shared memory alone when it fails, and returns 0
exactly when it found everything, if and only if it does not get to the lookups or meets one of the
cases of `Harmless`. -/
theorem ipcConnect_safe_iff (k : Lookups) (stray : ℤ) (shm : Option MbCtrlBlock) :
    ConnectSafe k stray shm ↔ ∀ b, Reaches k shm b → Harmless k stray b := by
  by_cases hr : ∃ b, Reaches k shm b
  · obtain ⟨b, hb⟩ := hr
    rw [hb.connectSafe_iff]
    constructor
    · intro h b' hb'
      rwa [← Option.some.inj (hb.shm_eq.symm.trans hb'.shm_eq)]
    · intro h
      exact h b hb
  · have hnone : ∀ b, ¬ Reaches k shm b := fun b hb ↦ hr ⟨b, hb⟩
    obtain ⟨hne, hshm⟩ := ipcConnect_of_not_reaches stray hnone
    constructor
    · exact fun _ b hb ↦ absurd hb (hnone b)
    · intro _
      refine ⟨fun _ _ _ ↦ hshm, ?_, ?_⟩
      · exact fun h0 ↦ absurd h0 hne
      · rintro ⟨b, -, -, -, hb, -⟩
        exact absurd hb (hnone b)

/-- A running system: ids 1, 2 and 3, and the default keys of the queues. -/
def runningBlock : MbCtrlBlock :=
  ⟨80, 800, 100, 1, 0, 601107, 601117, 2, 3, 4096⟩

/-- `semctl` fails in a process that connects: the call returns -1, and the id of the semaphore is gone
for every process. -/
theorem failed_connect_disturbs :
    ¬ ∀ (k : Lookups) (stray : ℤ) (shm : Option MbCtrlBlock), ConnectSafe k stray shm := fun h ↦ by
  have hun := (h ⟨true, true, some 1, false, some 2, some 3⟩ 0 (some runningBlock)).unchanged (-1)
    (by decide) (by decide)
  revert hun
  decide

/-- The reply queue is gone, and the call returns 0 nevertheless. -/
example :
    ipcConnect ⟨true, true, some 1, true, some 2, none⟩ 0 (some runningBlock) =
      (some 0, some { runningBlock with rspQueId := -1 }) := by
  decide

/-! ### A running system -/

/-- The control block of a running system: no id is -1, and the keys are positive. -/
structure MbCtrlBlock.Running (b : MbCtrlBlock) : Prop where
  semid : 0 ≤ b.semid
  reqQueId : 0 ≤ b.reqQueId
  rspQueId : 0 ≤ b.rspQueId
  reqQue : 0 < b.reqQue
  rspQue : 0 < b.rspQue

/-- On a running system every failure of a lookup does harm. -/
theorem harmless_iff_of_running {stray : ℤ} (hb : b.Running) :
    Harmless k stray b ↔ (∃ s r p, k.Found s r p) ∧ 0 ≤ stray := by
  obtain ⟨hsem, hreq, hrsp, -, hkey⟩ := hb
  constructor
  · rintro (⟨hf, -, hstray⟩ | ⟨-, hid⟩ | ⟨-, -, -, hid⟩ | ⟨-, -, -, -, -, -, hid⟩)
    · exact ⟨⟨_, _, _, hf⟩, hstray⟩
    · omega
    · omega
    · omega
  · rintro ⟨⟨s, r, p, hf⟩, hstray⟩
    exact .found hf hkey.le hstray

/-- The shared memory after a connection. -/
def afterConnect (shm : Option MbCtrlBlock) (c : Lookups × ℤ) : Option MbCtrlBlock :=
  (ipcConnect c.1 c.2 shm).2

/-- **One connection** in which no lookup fails keeps the system running. -/
theorem running_of_connect {c : Lookups × ℤ} (hb : b.Running) (hf : c.1.Found s r p) :
    ∃ b', afterConnect (some b) c = some b' ∧ b'.Running := by
  rw [afterConnect]
  by_cases hr : Reaches c.1 (some b) b
  · rw [hr.of_req_some c.2 hf.sem hf.req, hf.rsp]
    exact ⟨_, rfl, Int.natCast_nonneg s, Int.natCast_nonneg r, Int.natCast_nonneg p, hb.reqQue,
      hb.rspQue⟩
  · have hnone : ∀ b', ¬ Reaches c.1 (some b) b' := fun b' h ↦ by
      obtain rfl := Option.some.inj h.shm_eq
      exact hr h
    exact ⟨b, (ipcConnect_of_not_reaches c.2 hnone).2, hb⟩

/-- **Every run** of such connections keeps it running. -/
theorem running_of_connects (cs : List (Lookups × ℤ)) (hb : b.Running)
    (hcs : ∀ c ∈ cs, ∃ s r p, c.1.Found s r p) :
    ∃ b', cs.foldl afterConnect (some b) = some b' ∧ b'.Running := by
  induction cs generalizing b with
  | nil => exact ⟨b, rfl, hb⟩
  | cons c cs ih =>
    obtain ⟨s, r, p, hf⟩ := hcs c List.mem_cons_self
    obtain ⟨b1, hb1, hrun⟩ := running_of_connect hb hf
    rw [List.foldl_cons, hb1]
    exact ih hrun fun c hc ↦ hcs c (List.mem_cons_of_mem _ hc)

end Sunda
