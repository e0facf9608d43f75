import Sunda.Common.Funmsq
import Sunda.Common.Funstr

/-!
# Requests and replies on the bus

The functions of `pubfun/tux/tuxmgr.c` that move a request to a worker and its reply back:
`tux_acall` queues a request for the server that offers a service, `tux_service` receives one and
calls its handler, `tux_return` queues the handler's reply, and `tux_getreply` receives a reply.

The process is attached to the shared memory (`mbctrl != NULL`), except in `tuxGetreply`, where it
is an argument. An outcome `none` is a copy beyond the end of a local array, after which the C
program means nothing any more.

The specifications are `of_tuxAcall_ok` and `tuxAcall_eq_ok`, `tuxService_of_first` with
`tuxDispatch_called`, `tuxReturnReply_eq_ok` and `tuxGetreply_of_first`.
-/

namespace Sunda

open Bytes SysV

/-! ### Shared tables -/

/-- The states of a server; `clear` is the 0 of an entry that was never used. -/
inductive SvrStat
  | clear
  | avail
  | idle
  | unavail
  | dead
  deriving DecidableEq

/-- `server_tab_t`. -/
structure ServerTab where
  svrid : ℤ
  svcName : List.Vector UInt8 33
  state : SvrStat
  msgType : BitVec 64
  timeout : ℤ

/-- `service_tab_t`; the function pointer is a number. -/
structure ServiceTab where
  flags : ℤ
  name : List.Vector UInt8 33
  sdFun : ℕ

/-- What the modelled functions use of `mb_ctrl_t` and of the tables behind it, which have
`nsvrnum` entries each. -/
structure MbCtrl where
  maxMsgLen : BitVec 32
  tSvrTab : List ServerTab
  tSvcTab : List ServiceTab
  nsvrnum_eq : tSvcTab.length = tSvrTab.length

/-- `sd_info_t`. -/
structure SdInfo where
  name : List.Vector UInt8 33
  data : List UInt8
  len : ℤ
  deriving DecidableEq

/-- `tux_locatemb`. -/
def tuxLocatemb (mb : MbCtrl) (svrName : List UInt8) : Option ℕ :=
  mb.tSvrTab.findIdx? fun e ↦ strncmpEq tuxNameLen svrName e.svcName.toList

/-- The loop of `tux_find_service`, at index `i`. -/
def findServiceLoop (svrName : List UInt8) : List ServiceTab → ℕ → ℤ → Option ℕ × ℤ
  | [], _, pos => (none, pos)
  | e :: es, i, pos =>
    if e.flags = -1 ∧ pos < 0 then findServiceLoop svrName es (i + 1) i
    else if strncmpEq tuxNameLen e.name.toList svrName then (some i, pos)
    else findServiceLoop svrName es (i + 1) pos

/-- `tux_find_service`: the index found and the value of `*pos` afterwards. -/
def tuxFindService (mb : MbCtrl) (svrName : List UInt8) (pos : ℤ) : Option ℕ × ℤ :=
  findServiceLoop svrName mb.tSvcTab 0 pos

/-- With a non-negative `*pos` the flags are not looked at, and `*pos` stays. -/
theorem findServiceLoop_eq (svrName : List UInt8) (es : List ServiceTab) (i : ℕ) {pos : ℤ}
    (hpos : 0 ≤ pos) :
    findServiceLoop svrName es i pos =
      ((es.findIdx? fun e ↦ strncmpEq tuxNameLen e.name.toList svrName).map (i + ·), pos) := by
  induction es generalizing i with
  | nil => rfl
  | cons e es ih =>
    rw [findServiceLoop, if_neg (by omega), List.findIdx?_cons]
    split
    · rfl
    · rw [ih, Option.map_map]
      congr 2
      funext k
      show i + 1 + k = i + (k + 1)
      omega

/-- `e` is the first entry of a table whose name is the string `name`. -/
def FirstNamed {α : Type} (nm : α → List.Vector UInt8 33) (tab : List α) (name : List UInt8)
    (e : α) : Prop :=
  ∃ pre post, tab = pre ++ e :: post ∧
    (cstr name).take tuxNameLen = (cstr (nm e).toList).take tuxNameLen ∧
    ∀ x ∈ pre, (cstr name).take tuxNameLen ≠ (cstr (nm x).toList).take tuxNameLen

/-- Both tables are searched for their first entry with a name. -/
theorem FirstNamed.findIdx? {α : Type} {nm : α → List.Vector UInt8 33} {tab : List α}
    {name : List UInt8} {e : α} (h : FirstNamed nm tab name e) {P : α → Bool}
    (hP : ∀ x, P x = true ↔
      (cstr name).take tuxNameLen = (cstr (nm x).toList).take tuxNameLen) :
    ∃ i, tab.findIdx? P = some i ∧ tab[i]? = some e := by
  obtain ⟨pre, post, rfl, he, hpre⟩ := h
  have hnone : pre.findIdx? P = none := List.findIdx?_eq_none_iff.2 fun x hx ↦ by
    rw [Bool.eq_false_iff]
    exact fun hx' ↦ hpre x hx ((hP x).1 hx')
  refine ⟨pre.length, ?_, by simp⟩
  rw [List.findIdx?_append, hnone, List.findIdx?_cons, (hP e).2 he]
  simp

theorem tuxLocatemb_eq_some {mb : MbCtrl} {name : List UInt8} {e : ServerTab}
    (h : FirstNamed ServerTab.svcName mb.tSvrTab name e) :
    ∃ svrno, tuxLocatemb mb name = some svrno ∧ mb.tSvrTab[svrno]? = some e :=
  h.findIdx? fun _ ↦ strncmpEq_iff _ _ _

/-- The entry that `tux_locatemb` finds. -/
def locatedEntry (tab : List ServerTab) (svrName : List UInt8) : Option ServerTab :=
  tab.find? fun e ↦ strncmpEq tuxNameLen svrName e.svcName.toList

theorem locatedEntry_eq (mb : MbCtrl) (svrName : List UInt8) :
    ((tuxLocatemb mb svrName).bind fun svrno ↦ mb.tSvrTab[svrno]?) = locatedEntry mb.tSvrTab svrName :=
  List.find?_eq_bind_findIdx?_getElem?.symm

theorem tuxFindService_eq_some {mb : MbCtrl} {name : List UInt8} {e : ServiceTab} {pos : ℤ}
    (hpos : 0 ≤ pos) (h : FirstNamed ServiceTab.name mb.tSvcTab name e) :
    ∃ i, (tuxFindService mb name pos).1 = some i ∧ mb.tSvcTab[i]? = some e := by
  obtain ⟨i, hi, hget⟩ := h.findIdx? fun x ↦
    (strncmpEq_iff tuxNameLen x.name.toList name).trans eq_comm
  refine ⟨i, ?_, hget⟩
  rw [tuxFindService, findServiceLoop_eq _ _ _ hpos, hi, Option.map_some, Nat.zero_add]

/-! ### Requests -/

/-- `tux_acall`: an error with its `tux_errno`, or the request queue after the call returned 0.
`realLen` is what `tux_real_len` returns, which is asked for a zero length only. -/
def tuxAcall (mb : MbCtrl) (k : SndKernel) (realLen : ℤ) (q : List Msg)
    (svrName reqBuf : Option (List UInt8)) (reqBuflen : ℤ) : Option (Except ℤ (List Msg)) :=
  match svrName, reqBuf with
  | some svrName, some reqBuf =>
    let reqBuflen := if reqBuflen = 0 then realLen else reqBuflen
    if reqBuflen < 0 ∨ mb.maxMsgLen.toInt < reqBuflen then some (.error sysInval)
    else
      match (tuxLocatemb mb svrName).bind fun svrno ↦ mb.tSvrTab[svrno]? with
      | none => some (.error sysErrSvc)
      | some e =>
        if e.state = .unavail ∨ e.state = .dead then some (.error sysDeadSvc)
        else if busMaxMsgLen < reqBuflen then none
        else
          match msqSnd k q ⟨e.msgType, 0, bufRead reqBuf 0 reqBuflen.toNat⟩ reqBuflen .yes with
          | (0, q') => some (.ok q')
          | (_, _) => some (.error sysOs)
  | _, _ => some (.error sysInval)

/-- What a successful `tux_acall` found and did: the first server that offers the service was neither
`TUX_UNAVAIL` nor `TUX_DEAD`, and the request stands behind all others. A length 0 stands for the length
of the buffer. -/
theorem sent_of_tuxAcall {mb : MbCtrl} {k : SndKernel} {realLen reqBuflen : ℤ} {q q' : List Msg}
    {svrName reqBuf : List UInt8}
    (h : tuxAcall mb k realLen q (some svrName) (some reqBuf) reqBuflen = some (.ok q')) :
    ∃ (svrno : ℕ) (e : ServerTab) (L : ℕ), tuxLocatemb mb svrName = some svrno ∧
      mb.tSvrTab[svrno]? = some e ∧ e.state ≠ .unavail ∧ e.state ≠ .dead ∧ 0 < e.msgType.toInt ∧
      L < busMaxMsgLen ∧ (L : ℤ) = (if reqBuflen = 0 then realLen else reqBuflen) ∧
      q' = q ++ [(⟨e.msgType, 0, bufRead reqBuf 0 L⟩ : IPCQueMsg).queued L] := by
  simp only [tuxAcall] at h
  generalize (if reqBuflen = 0 then realLen else reqBuflen) = n at h ⊢
  split at h
  · cases h
  · next hn =>
    have hcast : (n.toNat : ℤ) = n := Int.toNat_of_nonneg (by omega)
    split at h
    · cases h
    · next e he =>
      obtain ⟨svrno, hno, hget⟩ := Option.bind_eq_some_iff.1 he
      split at h
      · cases h
      · next hstate =>
        split at h
        · cases h
        · split at h
          · next q1 hsnd =>
            obtain rfl := Except.ok.inj (Option.some.inj h)
            rw [← hcast, Int.toNat_natCast] at hsnd
            obtain ⟨rfl, hpos, hlt⟩ := of_msqSnd_zero hsnd
            exact ⟨svrno, e, n.toNat, hno, hget, fun h ↦ hstate (.inl h), fun h ↦ hstate (.inr h), hpos,
              hlt, hcast, rfl⟩
          · cases h

/-- A request whose length is given. -/
theorem of_tuxAcall_ok {mb : MbCtrl} {k : SndKernel} {realLen : ℤ} {q q' : List Msg}
    {svrName reqBuf : List UInt8} {L : ℕ} (hL : 0 < L)
    (h : tuxAcall mb k realLen q (some svrName) (some reqBuf) L = some (.ok q')) :
    ∃ svrno e, tuxLocatemb mb svrName = some svrno ∧ mb.tSvrTab[svrno]? = some e ∧
      e.state ≠ .unavail ∧ e.state ≠ .dead ∧ 0 < e.msgType.toInt ∧ L < busMaxMsgLen ∧
      q' = q ++ [(⟨e.msgType, 0, bufRead reqBuf 0 L⟩ : IPCQueMsg).queued L] := by
  obtain ⟨svrno, e, n, hno, hget, havail, halive, hpos, hlt, hn, rfl⟩ := sent_of_tuxAcall h
  rw [if_neg (by omega)] at hn
  obtain rfl : n = L := by exact_mod_cast hn
  exact ⟨svrno, e, hno, hget, havail, halive, hpos, hlt, rfl⟩

/-- A request that nothing stands against is queued. -/
theorem tuxAcall_eq_ok {mb : MbCtrl} {k : SndKernel} {q : List Msg} {svrName reqBuf : List UInt8}
    {svrno : ℕ} {e : ServerTab} {L : ℕ} (realLen : ℤ) (hk : k.Accepts q) (hL : 0 < L)
    (hno : tuxLocatemb mb svrName = some svrno) (hget : mb.tSvrTab[svrno]? = some e)
    (havail : e.state ≠ .unavail) (halive : e.state ≠ .dead) (htype : 0 < e.msgType.toInt)
    (hmax : (L : ℤ) ≤ mb.maxMsgLen.toInt) (hbus : L + sizeofLong ≤ busMaxMsgLen) :
    tuxAcall mb k realLen q (some svrName) (some reqBuf) L =
      some (.ok (q ++ [(⟨e.msgType, 0, bufRead reqBuf 0 L⟩ : IPCQueMsg).queued L])) := by
  have hL0 : (L : ℤ) ≠ 0 := by omega
  have hlt : L < busMaxMsgLen := by
    rw [sizeofLong] at hbus
    omega
  have hmsq := msqSnd_eq_zero (m := ⟨e.msgType, 0, bufRead reqBuf 0 L⟩) hk htype hlt (.inl hbus)
  simp only [tuxAcall, if_neg hL0, hno, Option.bind_some, hget, Int.toNat_natCast, hmsq]
  rw [if_neg (by omega), if_neg (by simp [havail, halive]), if_neg (by omega)]

/-- The outcome of one pass through the receive loop of `tux_service`. -/
inductive Service
  /-- No message of the server's type is queued. -/
  | waiting
  /-- The `continue` behind `EINTR`. -/
  | again (rest : List Msg)
  /-- The function returned without calling a handler. -/
  | ret (rc : ℤ) (rest : List Msg)
  /-- The handler `sdFun` was called; `head` is `gipcMsgHead` at that time. -/
  | called (sdFun : ℕ) (sdInfo : SdInfo) (head : IPCMsgHead) (rest : List Msg)
  /-- The request was removed from the queue and its copy left the received message, or the
  buffer that `tux_alloc` did not give. -/
  | fault (head : IPCMsgHead) (rest : List Msg)
  deriving DecidableEq

/-- The part of `tux_service` behind the receive. -/
def tuxDispatch (mb : MbCtrl) (ipcMsgIn : IPCQueMsg) (rest : List Msg) : Service :=
  let head := IPCMsgHead.ofBytes ipcMsgIn.sBuf
  match (tuxFindService mb head.name.toList 1).1.bind fun i ↦ mb.tSvcTab[i]? with
  | none => .ret 0 rest
  | some svc =>
    let len := head.len.toInt
    if 0 ≤ len ∧ sizeofIPCMsgHead + len ≤ busMaxMsgLen then
      .called svc.sdFun
        ⟨charField 33 ((cstr head.name.toList).take tuxNameLen) 0,
          bufRead ipcMsgIn.sBuf sizeofIPCMsgHead len.toNat, len⟩ head rest
    else .fault head rest

/-- `tux_service`, one pass through its receive loop. `errno` is what an earlier call left there: a
message without payload looks like an error to the loop. -/
def tuxService (mb : MbCtrl) (fault : Option Errno) (errno : ℤ) (q : List Msg) (svrid : ℤ) :
    Service :=
  match msqRcv fault q busMaxMsgLen (svrid + svrMsgTypeRoot) false with
  | .waiting => .waiting
  | .fail e => if e = EINTR then .again q else .ret (-1) q
  | .got iMsgLen ipcMsgIn rest =>
    if iMsgLen ≤ 0 then if errno = EINTR then .again rest else .ret (-1) rest
    else tuxDispatch mb ipcMsgIn rest

/-- A request at its turn reaches the dispatching part of `tux_service`. -/
theorem tuxService_of_first {mb : MbCtrl} {m : IPCQueMsg} {L : ℕ} {svrid : ℤ} (errno : ℤ)
    (hsvr : m.nMsgType.toInt = svrid + svrMsgTypeRoot) (htype : 0 < m.nMsgType.toInt) (hL : 0 < L)
    (hbus : L + sizeofLong ≤ busMaxMsgLen) {pre post : List Msg}
    (hpre : ∀ x ∈ pre, x.mtype ≠ m.nMsgType.toInt) :
    tuxService mb none errno (pre ++ m.queued L :: post) svrid =
      tuxDispatch mb ⟨m.nMsgType, m.nMsgSource, bufRead m.sBuf 0 L⟩ (pre ++ post) := by
  have hrcv := msqRcv_of_first L htype hpre post busMaxMsgLen false
  rw [if_pos (by omega), hsvr] at hrcv
  simp only [tuxService, hrcv]
  rw [if_neg (by omega)]

/-- The handler gets the bytes behind the head, as many as the head announces. -/
theorem tuxDispatch_called {mb : MbCtrl} {i : ℕ} {svc : ServiceTab} (head : IPCMsgHead)
    {body : List UInt8} (rest : List UInt8) (t src : BitVec 64) (q : List Msg)
    (hfind : (tuxFindService mb head.name.toList 1).1 = some i) (hget : mb.tSvcTab[i]? = some svc)
    (hlen : head.len.toInt = body.length)
    (hbus : sizeofIPCMsgHead + body.length ≤ busMaxMsgLen) :
    tuxDispatch mb ⟨t, src, head.toBytes ++ (body ++ rest)⟩ q =
      .called svc.sdFun
        ⟨charField 33 ((cstr head.name.toList).take tuxNameLen) 0, body, body.length⟩ head q := by
  have hbody : bufRead (head.toBytes ++ (body ++ rest)) sizeofIPCMsgHead body.length = body := by
    rw [bufRead_append_right _ _ (by rw [head.toBytes_length]), head.toBytes_length, Nat.sub_self,
      bufRead_append_zero _ _ rfl]
  simp only [tuxDispatch, IPCMsgHead.ofBytes_toBytes_append, hfind, Option.bind_some, hget, hlen,
    Int.toNat_natCast, hbody]
  rw [if_pos ⟨by omega, by omega⟩]

/-! ### Replies -/

/-- `gipcMsgHead.len = (int)rsplen`. -/
def IPCMsgHead.setLen (h : IPCMsgHead) (rsplen : ℤ) : IPCMsgHead :=
  { h with len := (BitVec.ofInt 32 rsplen).signExtend 64 }

/-- `tux_return_reply`: its return value and the reply queue. -/
def tuxReturnReply (mb : MbCtrl) (k : SndKernel) (realLen : ℤ) (gipcMsgHead : IPCMsgHead)
    (q : List Msg) (rsp : Option (List UInt8)) (rsplen flags : ℤ) : Option (ℤ × List Msg) :=
  if flags = -1 then some (0, q)
  else
    match rsp with
    | none => some (0, q)
    | some rsp =>
      let rsplen := if rsplen = 0 then realLen else rsplen
      if rsplen < 0 ∨ mb.maxMsgLen.toInt < rsplen then some (-1, q)
      else
        let head := gipcMsgHead.setLen rsplen
        let len := head.len.toInt
        if busMaxMsgLen < sizeofIPCMsgHead + len then none
        else
          match msqSnd k q ⟨head.reqMsgType, 0, head.toBytes ++ bufRead rsp 0 len.toNat⟩
              (sizeofIPCMsgHead + len) .yes with
          | (0, q') => some (0, q')
          | (_, _) => some (-1, q)

/-- The length of a reply that fits an `int` is stored exactly. -/
theorem IPCMsgHead.setLen_toInt (h : IPCMsgHead) {n : ℕ} (hn : n < 2 ^ 31) :
    (h.setLen n).len.toInt = n := by
  rw [setLen, BitVec.toInt_signExtend_of_le (by omega), BitVec.toInt_ofInt, Int.bmod_def]
  omega

/-- The length of a result that is allowed is stored in the head exactly. -/
theorem setLen_len {mb : MbCtrl} (head : IPCMsgHead) {n : ℤ} (h0 : 0 ≤ n)
    (hmax : n ≤ mb.maxMsgLen.toInt) : (head.setLen n).len.toInt = n := by
  have hlt := mb.maxMsgLen.toInt_lt
  have hset := head.setLen_toInt (n := n.toNat) (by omega)
  rwa [Int.toNat_of_nonneg h0] at hset

/-- A reply that nothing stands against is queued under the type that the request asked for. -/
theorem tuxReturnReply_eq_ok {mb : MbCtrl} {k : SndKernel} {head : IPCMsgHead} {q : List Msg}
    {rsp : List UInt8} (realLen : ℤ) {flags : ℤ} (hflags : flags ≠ -1) (hk : k.Accepts q)
    (hrsp : 0 < rsp.length) (htype : 0 < head.reqMsgType.toInt)
    (hmax : (rsp.length : ℤ) ≤ mb.maxMsgLen.toInt)
    (hbus : sizeofIPCMsgHead + rsp.length + sizeofLong ≤ busMaxMsgLen) :
    tuxReturnReply mb k realLen head q (some rsp) rsp.length flags =
      some (0, q ++ [(⟨head.reqMsgType, 0, (head.setLen rsp.length).toBytes ++ rsp⟩ :
        IPCQueMsg).queued (sizeofIPCMsgHead + rsp.length)]) := by
  have hlen0 : (rsp.length : ℤ) ≠ 0 := by omega
  have hlen : (head.setLen rsp.length).len.toInt = rsp.length :=
    head.setLen_toInt (by rw [busMaxMsgLen] at hbus; omega)
  have hlt : sizeofIPCMsgHead + rsp.length < busMaxMsgLen := by
    rw [sizeofLong] at hbus
    omega
  have hmsq := msqSnd_eq_zero (L := sizeofIPCMsgHead + rsp.length)
    (m := ⟨(head.setLen rsp.length).reqMsgType, 0, (head.setLen rsp.length).toBytes ++ rsp⟩)
    hk htype hlt (.inl hbus)
  rw [Nat.cast_add] at hmsq
  simp only [tuxReturnReply, if_neg hflags, if_neg hlen0, hlen, Int.toNat_natCast,
    bufRead_zero_length, hmsq]
  rw [if_neg (by omega), if_neg (by omega)]
  rfl

/-- What a successful `tux_return_reply` that was given a result sends: the result behind the head of the
request, which gets the length of the result, under the type that the request asked for. A length 0 stands
for the length of the buffer. -/
theorem sent_of_tuxReturnReply {mb : MbCtrl} {k : SndKernel} {realLen rsplen flags rc : ℤ}
    {head : IPCMsgHead} {q q' : List Msg} {rsp : List UInt8} (hflags : flags ≠ -1)
    (h : tuxReturnReply mb k realLen head q (some rsp) rsplen flags = some (rc, q')) :
    (rc = -1 ∧ q' = q) ∨ ∃ (m : Msg) (L : ℕ), q' = q ++ [m] ∧
      (L : ℤ) = (if rsplen = 0 then realLen else rsplen) ∧ m.mtype = head.reqMsgType.toInt ∧
      (head.setLen L).len.toInt = L ∧ Msg.payload m = (head.setLen L).toBytes ++ bufRead rsp 0 L := by
  simp only [tuxReturnReply, if_neg hflags] at h
  generalize (if rsplen = 0 then realLen else rsplen) = n at h ⊢
  split at h
  · obtain ⟨rfl, rfl⟩ := Prod.mk.inj (Option.some.inj h)
    exact .inl ⟨rfl, rfl⟩
  · next hn =>
    obtain ⟨L, rfl⟩ := Int.eq_ofNat_of_zero_le (show 0 ≤ n by omega)
    have hlen := setLen_len head (Int.natCast_nonneg L) (by omega : (L : ℤ) ≤ mb.maxMsgLen.toInt)
    rw [hlen] at h
    split at h
    · cases h
    · split at h
      · next q1 hsnd =>
        obtain ⟨-, rfl⟩ := Prod.mk.inj (Option.some.inj h)
        rw [← Nat.cast_add] at hsnd
        obtain ⟨rfl, -, -⟩ := of_msqSnd_zero hsnd
        refine .inr ⟨_, L, rfl, rfl, rfl, hlen, ?_⟩
        have hadd := bufRead_append_add (head.setLen L).toBytes (bufRead rsp 0 L) L
        rw [IPCMsgHead.toBytes_length] at hadd
        rw [IPCQueMsg.payload_queued, Int.toNat_natCast, hadd, bufRead_bufRead _ (by omega)]
      · obtain ⟨rfl, rfl⟩ := Prod.mk.inj (Option.some.inj h)
        exact .inl ⟨rfl, rfl⟩

/-- Whatever `tux_return_reply` queues goes out under the type that the request asked for, and starts
with the head of the request. -/
theorem of_tuxReturnReply {mb : MbCtrl} {k : SndKernel} {realLen rsplen flags rc : ℤ}
    {head : IPCMsgHead} {q q' : List Msg} {rsp : Option (List UInt8)}
    (h : tuxReturnReply mb k realLen head q rsp rsplen flags = some (rc, q')) :
    q' = q ∨ ∃ m, q' = q ++ [m] ∧ m.mtype = head.reqMsgType.toInt ∧
      ∃ (n : ℤ) (body : List UInt8), Msg.payload m = (head.setLen n).toBytes ++ body := by
  by_cases hflags : flags = -1
  · rw [tuxReturnReply.eq_def, if_pos hflags] at h
    exact .inl (Prod.mk.inj (Option.some.inj h)).2.symm
  cases rsp with
  | none =>
    rw [tuxReturnReply.eq_def, if_neg hflags] at h
    exact .inl (Prod.mk.inj (Option.some.inj h)).2.symm
  | some rsp =>
    rcases sent_of_tuxReturnReply hflags h with ⟨-, rfl⟩ | ⟨m, L, rfl, -, hm, -, hp⟩
    · exact .inl rfl
    · exact .inr ⟨m, rfl, hm, L, _, hp⟩

/-- `tux_return`, called by a handler (`_mb_longjmp` is 1): the value it jumps back with, and the
reply queue. -/
def tuxReturn (mb : MbCtrl) (k : SndKernel) (realLen : ℤ) (gipcMsgHead : IPCMsgHead)
    (q : List Msg) (rsp : Option (List UInt8)) (rsplen flags : ℤ) : Option (ℤ × List Msg) :=
  (tuxReturnReply mb k realLen gipcMsgHead q rsp rsplen flags).map fun r ↦
    if r.1 = 0 then (1, r.2) else r

/-- The outcome of `tux_getreply`: 0 with the reply stored, or -1 with `tux_errno`. -/
inductive GetReply
  | got (rspBuf : List UInt8) (rspLen : ℤ) (rest : List Msg)
  | fail (tuxErrno : ℤ) (rest : List Msg)
  | waiting
  deriving DecidableEq

/-- `tux_getreply`. `errno` is what an earlier call left there. -/
def tuxGetreply (attached : Bool) (fault : Option Errno) (errno : ℤ) (q : List Msg) (cd flags : ℤ) :
    GetReply :=
  if !attached then .fail sysSystem q
  else
    match msqRcv fault q busMaxMsgLen cd (flags ≠ 0) with
    | .waiting => .waiting
    | .fail e => .fail e q
    | .got iMsgLen ipcMsgIn rest =>
      if iMsgLen ≤ 0 then .fail errno rest
      else .got (bufRead ipcMsgIn.sBuf 0 iMsgLen.toNat) iMsgLen rest

/-- Whatever `tux_getreply` delivers is the payload of the oldest message of the type. -/
theorem of_tuxGetreply_got {attached : Bool} {fault : Option Errno} {errno cd flags rspLen : ℤ}
    {q rest : List Msg} {rspBuf : List UInt8} (hcd : 0 < cd)
    (h : tuxGetreply attached fault errno q cd flags = .got rspBuf rspLen rest) :
    ∃ pre m post, q = pre ++ m :: post ∧ rest = pre ++ post ∧ (∀ x ∈ pre, x.mtype ≠ cd) ∧
      m.mtype = cd ∧ rspBuf = Msg.payload m ∧ rspLen = rspBuf.length ∧
      rspBuf.length ≤ busMaxMsgLen := by
  rw [tuxGetreply] at h
  split at h
  · cases h
  · split at h
    · cases h
    · cases h
    · next code ipcMsgIn rest' hrcv =>
      obtain ⟨pre, m, post, hq, hrest, hpre, hm, hle, hcode, hbuf⟩ := of_msqRcv_got hcd hrcv
      split at h
      · cases h
      · obtain ⟨rfl, rfl, rfl⟩ := GetReply.got.inj h
        have hsize : code.toNat = (Msg.payload m).length := by
          rw [Msg.payload, List.length_drop]
          omega
        have hpayload : bufRead ipcMsgIn.sBuf 0 code.toNat = Msg.payload m := by
          rw [hbuf, hsize, bufRead_zero_length]
        refine ⟨pre, m, post, hq, hrest, hpre, hm, hpayload, ?_, ?_⟩
        · rw [hpayload, ← hsize]
          omega
        · rw [hpayload, ← hsize]
          omega

/-- A failing `tux_getreply` adds nothing to the queue. -/
theorem of_tuxGetreply_fail {attached : Bool} {fault : Option Errno} {errno cd flags tuxErrno : ℤ}
    {q rest : List Msg} (hcd : 0 < cd)
    (h : tuxGetreply attached fault errno q cd flags = .fail tuxErrno rest) : rest ⊆ q := by
  rw [tuxGetreply] at h
  split at h
  · rw [(GetReply.fail.inj h).2]
    exact fun _ hx ↦ hx
  · split at h
    · cases h
    · rw [(GetReply.fail.inj h).2]
      exact fun _ hx ↦ hx
    · next hrcv =>
      obtain ⟨pre, m, post, rfl, rfl, -⟩ := of_msqRcv_got hcd hrcv
      split at h
      · rw [← (GetReply.fail.inj h).2]
        exact List.append_subset.2 ⟨List.subset_append_left .., fun x hx ↦
          List.mem_append_right _ (List.mem_cons_of_mem _ hx)⟩
      · cases h

/-- A reply at its turn is stored in the caller's buffer. -/
theorem tuxGetreply_of_first {m : IPCQueMsg} {L : ℕ} {cd : ℤ} (errno flags : ℤ)
    (hcd : m.nMsgType.toInt = cd) (htype : 0 < m.nMsgType.toInt) (hL : 0 < L)
    (hbus : L + sizeofLong ≤ busMaxMsgLen) {pre post : List Msg}
    (hpre : ∀ x ∈ pre, x.mtype ≠ m.nMsgType.toInt) :
    tuxGetreply true none errno (pre ++ m.queued L :: post) cd flags =
      .got (bufRead m.sBuf 0 L) L (pre ++ post) := by
  have hrcv := msqRcv_of_first L htype hpre post busMaxMsgLen (flags ≠ 0)
  rw [if_pos (by omega), hcd] at hrcv
  simp only [tuxGetreply, Bool.not_true, hrcv, Int.toNat_natCast]
  rw [if_neg (by simp), if_neg (by omega), bufRead_bufRead _ (by omega), Nat.zero_add]

end Sunda
