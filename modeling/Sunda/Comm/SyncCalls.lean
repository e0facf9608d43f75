import Sunda.Base.Guarded
import Sunda.Comm.Commserver.ReadTask
import Sunda.Tux.ServiceReply
import Sunda.Tux.NotedQueues

/-!
# Processes that call and servers that answer

The children of C001 (`comm/C001/C001.c`) and the administration tools call `tux_call`, servers take
the requests with `tux_service` and answer with `tux_return`, and the asynchronous front ends use the
same two queues. A run is any interleaving of these steps. A child is forked, makes one call and
exits; the kernel gives its process id to nobody else while it lives, and to anyone afterwards.

The programs work on the plain queues. The notes on the messages say which call a request is from,
and hence which call a reply belongs to; `produced` and `returned` are the history, all replies with
the call they were produced for and all calls that returned 0.

What the steps do to the noted queues is said once, in the lemmas `callStep_*`.
-/

namespace Sunda

open Bytes SysV

/-! ### `call_svr` -/

/-- The size of `sSrcBuf` in `child_proc`. -/
def sizeofChildSrcBuf : ℕ := 8097

/-- The `gipcMsgHead` that `call_svr` fills. -/
def callSvrHead (sSrcBuf : List UInt8) (iBufLen : ℤ) (pid : ℕ) (utime : BitVec 64) : IPCMsgHead where
  name := charField 33 (cstr (reqSvcName (frameReqHead sSrcBuf))) 0
  ssn := (frameReqHead sSrcBuf).ssn
  connSsn := 0
  reqMsgType := BitVec.ofNat 64 pid
  fd := 0
  utime := utime
  replyFlag := BitVec.ofNat 32 replyFlagAsyn
  noteMsgType := 0
  len := BitVec.ofInt 64 (iBufLen - socketMsgHeadLen - sizeofReqHead)

/-- `call_svr` up to the request of `tux_call`, for a frame of `iBufLen` bytes. `none` is a copy beyond
the end of an array: of a frame that does not fit `sSrcBuf`, or of a body of negative length. -/
def callSvr (mb : MbCtrl) (k : SndKernel) (tuxErrno : ℤ) (q : List Msg) (sSrcBuf : List UInt8)
    (iBufLen : ℕ) (pid : ℕ) (utime : BitVec 64) : Option (Except ℤ (List Msg)) :=
  if iBufLen < socketMsgHeadLen + sizeofReqHead ∨ sizeofChildSrcBuf < iBufLen then none
  else
    let len := iBufLen - socketMsgHeadLen - sizeofReqHead
    tuxCallSend mb k 0 tuxErrno q (some (reqSvcName (frameReqHead sSrcBuf)))
      (some ((callSvrHead sSrcBuf iBufLen pid utime).toBytes ++
        bufRead sSrcBuf (socketMsgHeadLen + sizeofReqHead) len))
      (sizeofIPCMsgHead + len : ℕ) true

theorem of_callSvr_ok {mb : MbCtrl} {k : SndKernel} {tuxErrno : ℤ} {q q' : List Msg}
    {sSrcBuf : List UInt8} {iBufLen pid : ℕ} {utime : BitVec 64}
    (h : callSvr mb k tuxErrno q sSrcBuf iBufLen pid utime = some (.ok q')) :
    ∃ m, q' = q ++ [m] ∧ replyType m = (BitVec.ofNat 64 pid).toInt := by
  rw [callSvr] at h
  split at h
  · cases h
  · dsimp only at h
    have hlen := bufRead_length sSrcBuf (socketMsgHeadLen + sizeofReqHead)
      (iBufLen - socketMsgHeadLen - sizeofReqHead)
    rw [show sizeofIPCMsgHead + (iBufLen - socketMsgHeadLen - sizeofReqHead) = sizeofIPCMsgHead +
      (bufRead sSrcBuf (socketMsgHeadLen + sizeofReqHead)
        (iBufLen - socketMsgHeadLen - sizeofReqHead)).length by rw [hlen]] at h
    obtain ⟨m, hq, hhead⟩ := of_tuxCallSend_ok h
    exact ⟨m, hq, congrArg (fun head ↦ head.reqMsgType.toInt) hhead⟩

/-! ### The system -/

/-- A call that waits for its reply; `pid` is the process id of a child. -/
structure WaitingCall where
  id : ℕ
  reqMsgType : BitVec 64
  pid : Option ℕ
  deriving DecidableEq

/-- A call that returned 0: what it stored in `rsp_buf`, and the note of the reply it received. -/
structure Returned where
  id : ℕ
  rspBuf : List UInt8
  note : Option ℕ
  deriving DecidableEq

/-- The queues, the handlers that run, the processes and the history. -/
structure CallState where
  reqQue : List (Noted Msg (Option ℕ))
  /-- The `gipcMsgHead` of each server that runs a handler. -/
  serving : List (Noted IPCMsgHead (Option ℕ))
  rspQue : List (Noted Msg (Option ℕ))
  /-- The children that have not called yet. -/
  idle : List ℕ
  waiting : List WaitingCall
  /-- The children whose call is over. -/
  done : List ℕ
  /-- The number of calls so far. -/
  calls : ℕ
  produced : List (Noted Msg (Option ℕ))
  returned : List Returned
  deriving DecidableEq

/-- The steps. Their arguments are what the program does not decide. -/
inductive CallAct
  | fork (pid : ℕ)
  | callSvr (pid : ℕ) (mb : MbCtrl) (k : SndKernel) (tuxErrno : ℤ) (sSrcBuf : List UInt8)
      (iBufLen : ℕ) (utime : BitVec 64)
  | svrCmdDeal (mb : MbCtrl) (k : SndKernel) (tuxErrno : ℤ) (id cmd : BitVec 32) (now : BitVec 64)
  /-- The rest of `tux_call`, in the call with this number. -/
  | receive (id : ℕ) (fault : Option Errno) (expired : Bool) (tuxErrno : ℤ)
  | exit (pid : ℕ)
  /-- A child is killed, as `main_exit` does. -/
  | kill (pid : ℕ)
  | service (mb : MbCtrl) (fault : Option Errno) (errno svrid : ℤ)
  /-- The handler at this place ends with `tux_return`; the flag -1 stands for one that does not. -/
  | handlerReturn (i : ℕ) (mb : MbCtrl) (k : SndKernel) (args : TuxReturnArgs)
  | clean (fault : Option Errno) (msgType : ℤ)
  /-- A request of an asynchronous front end. -/
  | acall (mb : MbCtrl) (k : SndKernel) (realLen : ℤ) (svrName reqBuf : Option (List UInt8))
      (reqBuflen : ℤ)
  | getreply (attached : Bool) (fault : Option Errno) (errno cd flags : ℤ)

namespace CallState

/-- The process ids in use by children. -/
def live (s : CallState) : List ℕ :=
  s.idle ++ (s.waiting.filterMap WaitingCall.pid ++ s.done)

/-- A call has queued its request and waits. -/
def beginCall (s : CallState) (q' : List Msg) (reqMsgType : BitVec 64) (pid : Option ℕ) : CallState :=
  { s with
    reqQue := sent s.reqQue q' (some s.calls)
    waiting := ⟨s.calls, reqMsgType, pid⟩ :: s.waiting
    calls := s.calls + 1 }

/-- A call is over. -/
def endCall (s : CallState) (c : WaitingCall) : CallState :=
  { s with
    waiting := s.waiting.erase c
    done := c.pid.toList ++ s.done }

/-- A call has received something, or it goes on waiting. -/
def finishCall (s : CallState) (c : WaitingCall) (r : CallRcvd) : CallState :=
  let p := received c.reqMsgType.toInt s.rspQue (r.rest (plain s.rspQue))
  match r with
  | .waiting => s
  | .fail _ _ => { s.endCall c with rspQue := p.2 }
  | .got rspBuf _ _ => { s.endCall c with
      rspQue := p.2
      returned := s.returned ++ [⟨c.id, rspBuf, p.1.join⟩] }

/-- A process id is free again. -/
def removePid (s : CallState) (pid : ℕ) : CallState :=
  { s with
    idle := s.idle.erase pid
    waiting := s.waiting.filter (·.pid ≠ some pid)
    done := s.done.erase pid }

end CallState

/-- One step. A process whose copy leaves an array is gone, with the request it served. -/
def callStep (s : CallState) : CallAct → Option CallState
  | .fork pid =>
    if 0 < pid ∧ pid < 2 ^ 31 ∧ pid ∉ s.live then some { s with idle := pid :: s.idle } else none
  | .callSvr pid mb k tuxErrno sSrcBuf iBufLen utime =>
    if pid ∈ s.idle then
      let s' := { s with idle := s.idle.erase pid }
      match callSvr mb k tuxErrno (plain s.reqQue) sSrcBuf iBufLen pid utime with
      | none => some s'
      | some (.error _) => some { s' with done := pid :: s'.done }
      | some (.ok q') => some (s'.beginCall q' (BitVec.ofNat 64 pid) (some pid))
    else none
  | .svrCmdDeal mb k tuxErrno id cmd now =>
    match svrCmdDeal mb k tuxErrno (plain s.reqQue) id cmd now with
    | some (.ok q') => some (s.beginCall q' (cmdMsgType cmd) none)
    | _ => some s
  | .receive id fault expired tuxErrno =>
    (s.waiting.find? (·.id = id)).map fun c ↦
      s.finishCall c (tuxCallRcv fault expired tuxErrno (plain s.rspQue) c.reqMsgType)
  | .exit pid => if pid ∈ s.idle ∨ pid ∈ s.done then some (s.removePid pid) else none
  | .kill pid => if pid ∈ s.live then some (s.removePid pid) else none
  | .service mb fault errno svrid =>
    let r := tuxService mb fault errno (plain s.reqQue) svrid
    let p := received (svrid + svrMsgTypeRoot) s.reqQue (r.rest (plain s.reqQue))
    some { s with
      reqQue := p.2
      serving :=
        match r with
        | .called _ _ head _ => s.serving ++ [⟨head, p.1.join⟩]
        | _ => s.serving }
  | .handlerReturn i mb k a =>
    s.serving[i]?.map fun h ↦
      let s' := { s with serving := s.serving.eraseIdx i }
      match tuxReturn mb k a.realLen h.msg (plain s.rspQue) a.rsp a.rsplen a.flags with
      | none => s'
      | some (_, q') => { s' with
          rspQue := sent s.rspQue q' h.note
          produced := s.produced ++ added s.rspQue q' h.note }
  | .clean fault msgType =>
    let rest := cleanTaskMsg fault (plain s.reqQue) msgType
    some { s with reqQue := (received msgType s.reqQue rest).2 }
  | .acall mb k realLen svrName reqBuf reqBuflen =>
    match tuxAcall mb k realLen (plain s.reqQue) svrName reqBuf reqBuflen with
    | some (.ok q') => some { s with reqQue := sent s.reqQue q' none }
    | _ => some s
  | .getreply attached fault errno cd flags =>
    let rest := (tuxGetreply attached fault errno (plain s.rspQue) cd flags).rest (plain s.rspQue)
    some { s with rspQue := (received cd s.rspQue rest).2 }

/-- The state before the first call. -/
def callInit : CallState := ⟨[], [], [], [], [], [], 0, [], []⟩

/-- The system, from empty queues. -/
def callSystem : Guarded CallState CallAct := .ofFn (· = callInit) callStep

/-! ### What the steps do -/

variable {s s' : CallState}

/-- A pass of `tux_service` takes a request, which gets lost or is handled. -/
theorem callStep_service {mb : MbCtrl} {fault : Option Errno} {errno svrid : ℤ}
    (h : callStep s (.service mb fault errno svrid) = some s') :
    s' = s ∨ ∃ pre x post, s.reqQue = pre ++ x :: post ∧ Fits x.msg ∧
      (s' = { s with reqQue := pre ++ post } ∨
        ∃ head : IPCMsgHead, head.reqMsgType.toInt = replyType x.msg ∧
          s' = { s with reqQue := pre ++ post, serving := s.serving ++ [⟨head, x.note⟩] }) := by
  rw [callStep, Option.some.injEq] at h
  rcases tuxService_cases mb fault errno svrid s.reqQue rfl with ⟨hrest, hhead⟩ |
    ⟨pre, x, post, hq, hfits, hrec, hhead⟩
  · rw [hrest, received_self] at h
    refine .inl (h.symm.trans ?_)
    dsimp only
    split
    · next hcalled =>
      rw [hcalled] at hhead
      cases hhead
    · rfl
  · rw [hrec] at h
    refine .inr ⟨pre, x, post, hq, hfits, ?_⟩
    rw [← h]
    dsimp only
    split
    · next head _ hcalled =>
      rw [hcalled] at hhead
      rcases hhead with hnone | hsome
      · cases hnone
      · obtain rfl := Option.some.inj hsome
        exact .inr ⟨_, rfl, rfl⟩
    · exact .inl rfl

/-- A handler's return takes it off the list, and may queue a reply under the type in its head. -/
theorem callStep_handlerReturn {i : ℕ} {mb : MbCtrl} {k : SndKernel} {a : TuxReturnArgs}
    (h : callStep s (.handlerReturn i mb k a) = some s') :
    ∃ pre x post, s.serving = pre ++ x :: post ∧
      (s' = { s with serving := pre ++ post } ∨
        ∃ m : Msg, m.mtype = x.msg.reqMsgType.toInt ∧
          s' = { s with
            serving := pre ++ post
            rspQue := s.rspQue ++ [⟨m, x.note⟩]
            produced := s.produced ++ [⟨m, x.note⟩] }) := by
  obtain ⟨x, hx, rfl⟩ := Option.map_eq_some_iff.1 h
  obtain ⟨hi, rfl⟩ := List.getElem?_eq_some_iff.1 hx
  refine ⟨s.serving.take i, s.serving[i], s.serving.drop (i + 1), ?_, ?_⟩
  · rw [List.getElem_cons_drop, List.take_append_drop]
  · rw [← List.eraseIdx_eq_take_drop_succ]
    dsimp only
    split
    · exact .inl rfl
    · next rc q' hret =>
      obtain ⟨p, hp, heq⟩ := Option.map_eq_some_iff.1 hret
      obtain ⟨rc', q1⟩ := p
      have hq1 : q1 = q' := by
        dsimp only at heq
        split at heq
        · exact (Prod.mk.inj heq).2
        · exact (Prod.mk.inj heq).2
      subst hq1
      rcases of_tuxReturnReply hp with rfl | ⟨m, rfl, hm, -⟩
      · refine .inl ?_
        simp only [sent, added_self, List.append_nil]
      · refine .inr ⟨m, hm, ?_⟩
        simp only [sent, added_append]

/-- A waiting call goes on waiting, fails without a reply, or takes the oldest reply of its type. -/
theorem callStep_receive {id : ℕ} {fault : Option Errno} {expired : Bool} {tuxErrno : ℤ}
    (h : callStep s (.receive id fault expired tuxErrno) = some s') :
    ∃ c ∈ s.waiting, c.id = id ∧ (0 < c.reqMsgType.toInt →
      s' = s ∨
      (s' = s.endCall c ∧ (fault ≠ none ∨
        ∃ x ∈ s.rspQue, x.msg.mtype = c.reqMsgType.toInt ∧ ¬ Fits x.msg)) ∨
      ∃ pre x post, s.rspQue = pre ++ x :: post ∧ x.msg.mtype = c.reqMsgType.toInt ∧ Fits x.msg ∧
        (s' = { s.endCall c with rspQue := pre ++ post } ∨
          s' = { s.endCall c with
            rspQue := pre ++ post
            returned := s.returned ++ [⟨c.id, Msg.payload x.msg, x.note⟩] })) := by
  obtain ⟨c, hc, rfl⟩ := Option.map_eq_some_iff.1 h
  refine ⟨c, List.mem_of_find?_eq_some hc, by simpa using List.find?_some hc, fun hpos ↦ ?_⟩
  rcases tuxCallRcv_cases hpos rfl with (hwait | ⟨hfail, hwhy⟩) |
    ⟨pre, x, post, hq, htype, hfits, hrec, hr⟩
  · refine .inl ?_
    rw [hwait]
    rfl
  · refine .inr (.inl ⟨?_, hwhy⟩)
    rw [hfail]
    simp only [CallState.finishCall, CallRcvd.rest, received_self]
    rfl
  · refine .inr (.inr ⟨pre, x, post, hq, htype, hfits, ?_⟩)
    rcases hr with ⟨e, hr⟩ | ⟨n, hr⟩
    · refine .inl ?_
      rw [hr] at hrec ⊢
      simp only [CallState.finishCall, hrec]
    · refine .inr ?_
      rw [hr] at hrec ⊢
      simp only [CallState.finishCall, hrec, Option.join_some]

theorem CallState.beginCall_append (s : CallState) (m : Msg) (t : BitVec 64) (pid : Option ℕ) :
    s.beginCall (plain s.reqQue ++ [m]) t pid = { s with
      reqQue := s.reqQue ++ [⟨m, some s.calls⟩]
      waiting := ⟨s.calls, t, pid⟩ :: s.waiting
      calls := s.calls + 1 } := by
  rw [beginCall, sent, added_append]

/-- A child calls: it dies, its call is over without a request, or it waits with a request of its type. -/
theorem callStep_callSvr {pid : ℕ} {mb : MbCtrl} {k : SndKernel} {tuxErrno : ℤ}
    {sSrcBuf : List UInt8} {iBufLen : ℕ} {utime : BitVec 64}
    (h : callStep s (.callSvr pid mb k tuxErrno sSrcBuf iBufLen utime) = some s') :
    pid ∈ s.idle ∧
      (s' = { s with idle := s.idle.erase pid } ∨
        s' = { s with idle := s.idle.erase pid, done := pid :: s.done } ∨
        ∃ m, replyType m = (BitVec.ofNat 64 pid).toInt ∧
          s' = { s with
            idle := s.idle.erase pid
            reqQue := s.reqQue ++ [⟨m, some s.calls⟩]
            waiting := ⟨s.calls, BitVec.ofNat 64 pid, some pid⟩ :: s.waiting
            calls := s.calls + 1 }) := by
  rw [callStep] at h
  split at h
  · next hpid =>
    refine ⟨hpid, ?_⟩
    dsimp only at h
    split at h
    · exact .inl (Option.some.inj h).symm
    · exact .inr (.inl (Option.some.inj h).symm)
    · next q' hcall =>
      obtain ⟨m, rfl, hm⟩ := of_callSvr_ok hcall
      refine .inr (.inr ⟨m, hm, (Option.some.inj h).symm.trans ?_⟩)
      exact CallState.beginCall_append { s with idle := s.idle.erase pid } m _ _
  · cases h

/-- A tool fails to send its command, or it waits with a request of the type of the command. -/
theorem callStep_svrCmdDeal {mb : MbCtrl} {k : SndKernel} {tuxErrno : ℤ} {id cmd : BitVec 32}
    {now : BitVec 64} (h : callStep s (.svrCmdDeal mb k tuxErrno id cmd now) = some s') :
    s' = s ∨ ∃ m, replyType m = (cmdMsgType cmd).toInt ∧
      s' = { s with
        reqQue := s.reqQue ++ [⟨m, some s.calls⟩]
        waiting := ⟨s.calls, cmdMsgType cmd, none⟩ :: s.waiting
        calls := s.calls + 1 } := by
  rw [callStep] at h
  split at h
  · next q' hcall =>
    obtain ⟨m, rfl, hm⟩ := of_svrCmdDeal_ok hcall
    exact .inr ⟨m, hm, (Option.some.inj h).symm.trans (s.beginCall_append m _ _)⟩
  · exact .inl (Option.some.inj h).symm

/-- A purge of the request queue removes at most one request in a pass. -/
theorem callStep_clean {fault : Option Errno} {msgType : ℤ}
    (h : callStep s (.clean fault msgType) = some s') :
    s' = s ∨ ∃ pre x post, s.reqQue = pre ++ x :: post ∧ s' = { s with reqQue := pre ++ post } := by
  rw [callStep, Option.some.injEq] at h
  rcases cleanTaskMsg_cases fault s.reqQue msgType with hrest | ⟨pre, x, post, hq, hrec⟩
  · rw [hrest, received_self] at h
    exact .inl h.symm
  · rw [hrec] at h
    exact .inr ⟨pre, x, post, hq, h.symm⟩

/-- `tux_getreply` removes at most one reply. -/
theorem callStep_getreply {attached : Bool} {fault : Option Errno} {errno cd flags : ℤ}
    (h : callStep s (.getreply attached fault errno cd flags) = some s') :
    s' = s ∨ ∃ pre x post, s.rspQue = pre ++ x :: post ∧ s' = { s with rspQue := pre ++ post } := by
  rw [callStep, Option.some.injEq] at h
  rcases tuxGetreply_cases (q := s.rspQue) rfl with hrest | ⟨pre, x, post, hq, -, hrec⟩
  · rw [hrest, received_self] at h
    exact .inl h.symm
  · rw [hrec] at h
    exact .inr ⟨pre, x, post, hq, h.symm⟩

end Sunda
