import Sunda.Tux.Tuxmgr

/-!
# Synchronous calls

`tux_call` (`pubfun/tux/tuxmgr.c`) queues a request and waits for the reply. Nothing happens to its
state in between, so it is two functions here: `tuxCallSend` up to the request, and `tuxCallRcv` from
there on. The reply is received by its message type, the `req_msg_type` that the caller left in
`gipcMsgHead`; the time-out is an alarm, which either interrupts the receive or is noticed behind it.
The process is attached, as in `Sunda.Tux.Tuxmgr`.

`svr_cmd_deal` (`pubfun/tux/tuxcmd.c`), the call of the administration tools, is `svrCmdDeal` up to
its request.
-/

namespace Sunda

open Bytes SysV

/-! ### `tux_call` -/

/-- `tux_call` up to its request: an error with `tux_errno`, or the request queue. `tuxErrno` is what an
earlier call left there, as a refused message does not set it; `rsp` is whether the arguments for the
reply are given. -/
def tuxCallSend (mb : MbCtrl) (k : SndKernel) (realLen tuxErrno : ℤ) (q : List Msg)
    (svrName reqBuf : Option (List UInt8)) (reqBuflen : ℤ) (rsp : Bool) :
    Option (Except ℤ (List Msg)) :=
  match svrName, reqBuf, rsp with
  | some svrName, some reqBuf, true =>
    let reqBuflen := if reqBuflen = 0 then realLen else reqBuflen
    if reqBuflen < 0 ∨ mb.maxMsgLen.toInt < reqBuflen then some (.error sysInval)
    else
      match (tuxLocatemb mb svrName).bind fun svrno ↦ mb.tSvrTab[svrno]? with
      | none => some (.error sysNoent)
      | some e =>
        if e.state = .unavail ∨ e.state = .dead then some (.error sysDeadSvc)
        else if busMaxMsgLen < reqBuflen then none
        else
          match msqSnd k q ⟨e.msgType, 0, bufRead reqBuf 0 reqBuflen.toNat⟩ reqBuflen .yes with
          | (0, q') => some (.ok q')
          | (_, _) => some (.error tuxErrno)
  | _, _, _ => some (.error sysInval)

/-- The error number of `tux_call` where `tux_acall` has `e`: they differ for an unknown service and
for a refused message. -/
def callErrno (tuxErrno e : ℤ) : ℤ :=
  if e = sysErrSvc then sysNoent else if e = sysOs then tuxErrno else e

/-- Up to the request, `tux_call` and `tux_acall` differ in their error numbers only. -/
theorem tuxCallSend_eq (mb : MbCtrl) (k : SndKernel) (realLen tuxErrno : ℤ) (q : List Msg)
    (svrName reqBuf : Option (List UInt8)) (reqBuflen : ℤ) :
    tuxCallSend mb k realLen tuxErrno q svrName reqBuf reqBuflen true =
      (tuxAcall mb k realLen q svrName reqBuf reqBuflen).map
        (Except.mapError (callErrno tuxErrno)) := by
  match svrName, reqBuf with
  | none, _ => rfl
  | some _, none => rfl
  | some svrName, some reqBuf =>
    simp only [tuxCallSend, tuxAcall]
    generalize (if reqBuflen = 0 then realLen else reqBuflen) = n
    by_cases hn : n < 0 ∨ mb.maxMsgLen.toInt < n
    · rw [if_pos hn, if_pos hn]
      rfl
    rw [if_neg hn, if_neg hn]
    generalize ((tuxLocatemb mb svrName).bind fun svrno ↦ mb.tSvrTab[svrno]?) = entry
    cases entry with
    | none => rfl
    | some e =>
      dsimp only
      by_cases hstate : e.state = .unavail ∨ e.state = .dead
      · rw [if_pos hstate, if_pos hstate]
        rfl
      rw [if_neg hstate, if_neg hstate]
      by_cases hbus : (busMaxMsgLen : ℤ) < n
      · rw [if_pos hbus, if_pos hbus]
        rfl
      rw [if_neg hbus, if_neg hbus]
      generalize msqSnd k q ⟨e.msgType, 0, bufRead reqBuf 0 n.toNat⟩ n .yes = sent
      obtain ⟨rc, q'⟩ := sent
      by_cases hrc : rc = 0
      · subst hrc
        rfl
      · simp [Except.mapError, callErrno, sysOs, sysErrSvc]

theorem tuxAcall_of_tuxCallSend {mb : MbCtrl} {k : SndKernel} {realLen tuxErrno reqBuflen : ℤ}
    {q q' : List Msg} {svrName reqBuf : List UInt8} {rsp : Bool}
    (h : tuxCallSend mb k realLen tuxErrno q (some svrName) (some reqBuf) reqBuflen rsp =
      some (.ok q')) :
    tuxAcall mb k realLen q (some svrName) (some reqBuf) reqBuflen = some (.ok q') := by
  cases rsp with
  | false => cases h
  | true =>
    rw [tuxCallSend_eq, Option.map_eq_some_iff] at h
    obtain ⟨outcome, hacall, hmap⟩ := h
    cases outcome with
    | error e => cases hmap
    | ok q₁ =>
      rw [hacall]
      exact congrArg (fun q ↦ some (Except.ok q)) (Except.ok.inj hmap)

/-- The outcome of `tux_call` behind its request: 0 with the reply stored, -1 with `tux_errno`, or still
waiting. -/
inductive CallRcvd
  | got (rspBuf : List UInt8) (rspBuflen : ℤ) (rest : List Msg)
  | fail (tuxErrno : ℤ) (rest : List Msg)
  | waiting
  deriving DecidableEq

/-- `tux_call` behind its request. `fault` is what interrupts the receive, the alarm for instance;
`expired` is whether `timer_expired` is set when the receive has returned. A receive that fails leaves
`tux_errno` as it was. -/
def tuxCallRcv (fault : Option Errno) (expired : Bool) (tuxErrno : ℤ) (q : List Msg)
    (reqMsgType : BitVec 64) : CallRcvd :=
  match msqRcv fault q busMaxMsgLen reqMsgType.toInt false with
  | .waiting => .waiting
  | .fail _ => .fail tuxErrno q
  | .got iMsgLen ipcMsgOut rest =>
    if iMsgLen ≤ 0 then .fail tuxErrno rest
    else if expired then .fail sysTimeout rest
    else .got (bufRead ipcMsgOut.sBuf 0 iMsgLen.toNat) iMsgLen rest

/-- The reply queue behind the call. -/
def CallRcvd.rest (q : List Msg) : CallRcvd → List Msg
  | .got _ _ rest | .fail _ rest => rest
  | .waiting => q

/-! ### Requests -/

/-- The type under which a request will be answered: the `req_msg_type` of the head in front of it. -/
def replyType (m : Msg) : ℤ := (IPCMsgHead.ofBytes (Msg.payload m)).reqMsgType.toInt

/-- The request that `tux_call` queues for a head with something behind it. -/
theorem of_tuxCallSend_ok {mb : MbCtrl} {k : SndKernel} {realLen tuxErrno : ℤ} {q q' : List Msg}
    {svrName body : List UInt8} {head : IPCMsgHead} {rsp : Bool}
    (h : tuxCallSend mb k realLen tuxErrno q (some svrName) (some (head.toBytes ++ body))
      (sizeofIPCMsgHead + body.length : ℕ) rsp = some (.ok q')) :
    ∃ m, q' = q ++ [m] ∧ IPCMsgHead.ofBytes (Msg.payload m) = head := by
  have hpos : 0 < sizeofIPCMsgHead + body.length := by
    rw [sizeofIPCMsgHead]
    omega
  obtain ⟨_, e, -, -, -, -, -, -, rfl⟩ := of_tuxAcall_ok hpos (tuxAcall_of_tuxCallSend h)
  refine ⟨_, rfl, ?_⟩
  have hall := bufRead_zero_length (head.toBytes ++ body)
  rw [List.length_append, head.toBytes_length] at hall
  rw [IPCQueMsg.payload_queued, bufRead_bufRead _ (by omega), Nat.zero_add, hall,
    IPCMsgHead.ofBytes_toBytes_append]

/-! ### `svr_cmd_deal` -/

/-- `SD_MANAGER_SVC_NAME`, which is `Governor`. -/
def sdManagerSvcName : List UInt8 := [71, 111, 118, 101, 114, 110, 111, 114]

/-- `sizeof(tskcmd_t)`: the command, the id and the error code. -/
def sizeofTskcmd : ℕ := 12

/-- `packReqHead`, on a cleared head. -/
def packReqHead (lMsgType now : BitVec 64) : IPCMsgHead where
  name := charField 33 sdManagerSvcName 0
  ssn := now.setWidth 32
  connSsn := 0
  reqMsgType := lMsgType
  fd := 0
  utime := now
  replyFlag := BitVec.ofNat 32 replyFlagSyn
  noteMsgType := 0
  len := BitVec.ofNat 64 sizeofTskcmd

/-- `tTaskCmd`, as it is sent. -/
def tTaskCmd (cmd id : BitVec 32) : List UInt8 :=
  leBytes 4 cmd.toNat ++ (leBytes 4 id.toNat ++ leBytes 4 0)

/-- The message type for the reply to a command. -/
def cmdMsgType (cmd : BitVec 32) : BitVec 64 :=
  (cmd + BitVec.ofNat 32 mngMsgTypeRoot).signExtend 64

/-- `svr_cmd_deal` up to the request of `tux_call`. The length is not zero, so `tux_real_len` is not
asked. -/
def svrCmdDeal (mb : MbCtrl) (k : SndKernel) (tuxErrno : ℤ) (q : List Msg) (id cmd : BitVec 32)
    (now : BitVec 64) : Option (Except ℤ (List Msg)) :=
  tuxCallSend mb k 0 tuxErrno q (some sdManagerSvcName)
    (some ((packReqHead (cmdMsgType cmd) now).toBytes ++ tTaskCmd cmd id))
    (sizeofTskcmd + sizeofIPCMsgHead) true

@[simp]
theorem tTaskCmd_length (cmd id : BitVec 32) : (tTaskCmd cmd id).length = sizeofTskcmd := by
  simp [tTaskCmd, sizeofTskcmd]

theorem of_svrCmdDeal_ok {mb : MbCtrl} {k : SndKernel} {tuxErrno : ℤ} {q q' : List Msg}
    {id cmd : BitVec 32} {now : BitVec 64} (h : svrCmdDeal mb k tuxErrno q id cmd now = some (.ok q')) :
    ∃ m, q' = q ++ [m] ∧ replyType m = (cmdMsgType cmd).toInt := by
  have hlen : ((sizeofTskcmd : ℤ) + sizeofIPCMsgHead) =
      (sizeofIPCMsgHead + (tTaskCmd cmd id).length : ℕ) := by
    rw [tTaskCmd_length]
    rfl
  rw [svrCmdDeal, hlen] at h
  obtain ⟨m, hq, hhead⟩ := of_tuxCallSend_ok h
  exact ⟨m, hq, congrArg (fun head ↦ head.reqMsgType.toInt) hhead⟩

end Sunda
