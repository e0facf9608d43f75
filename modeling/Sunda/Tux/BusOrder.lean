import Sunda.Base.Ledger
import Sunda.Tux.Forward
import Sunda.Tux.ServiceReply
import Sunda.Tux.NotedQueues

/-!
# The order of the messages on the bus

Every function that touches the request queue or the reply queue, and any interleaving of their calls by any
number of processes. On the request queue: `tux_acall`, `tux_call`, `tux_forward`, `tux_service` and the
purges of `clean_task_msg` and `MsqClear`; on the reply queue: `tux_return`, the receive of `tux_call`,
`tux_getreply` and `MsqClear`. Nothing is assumed of their arguments, nor of what the kernel refuses or
interrupts.

Each of them sends at most one message or receives at most one (`ReqAct.calls`, `RspAct.calls`), so
`SysV.Traffic.Ordered` holds of both queues along every run (`busRun_ordered`): for each type the messages
sent are those received and those in the queue, in this order, and the requests that a server is called for,
like the replies that are stored for those who wait for a type, come in the order in which they were sent,
none of them twice.
-/

namespace Sunda

open Bytes SysV

/-! ### Sending -/

theorem sends_tuxAcall {mb : MbCtrl} {k : SndKernel} {realLen reqBuflen : ℤ} {q q' : List Msg}
    {svrName reqBuf : Option (List UInt8)} (h : tuxAcall mb k realLen q svrName reqBuf reqBuflen = some (.ok q')) :
    Sends q q' := by
  match svrName, reqBuf with
  | none, _ => cases h
  | some _, none => cases h
  | some svrName, some reqBuf =>
    obtain ⟨svrno, e, L, -, -, -, -, -, -, -, rfl⟩ := sent_of_tuxAcall h
    exact .inr ⟨_, rfl⟩

theorem sends_tuxCallSend {mb : MbCtrl} {k : SndKernel} {realLen tuxErrno reqBuflen : ℤ} {q q' : List Msg}
    {svrName reqBuf : Option (List UInt8)} {rsp : Bool}
    (h : tuxCallSend mb k realLen tuxErrno q svrName reqBuf reqBuflen rsp = some (.ok q')) : Sends q q' := by
  match svrName, reqBuf with
  | none, _ => cases h
  | some _, none => cases h
  | some svrName, some reqBuf => exact sends_tuxAcall (tuxAcall_of_tuxCallSend h)

theorem sends_tuxForward {mb : MbCtrl} {k : SndKernel} {realLen len : ℤ} {q q' : List Msg}
    {svrName data : Option (List UInt8)} {mbLongjmp : Bool}
    (h : tuxForward mbLongjmp mb k realLen q svrName data len = some (.done q')) : Sends q q' := by
  match svrName, data with
  | some target, some data =>
    obtain ⟨e, L, -, -, -, rfl⟩ := sent_of_tuxForward h
    exact .inr ⟨_, rfl⟩
  | none, _ | some _, none => cases mbLongjmp <;> cases h

theorem sends_tuxReturn {mb : MbCtrl} {k : SndKernel} {realLen rsplen flags rc : ℤ} {head : IPCMsgHead}
    {q q' : List Msg} {rsp : Option (List UInt8)}
    (h : tuxReturn mb k realLen head q rsp rsplen flags = some (rc, q')) : Sends q q' := by
  obtain ⟨⟨rc', q₁⟩, hreply, heq⟩ := Option.map_eq_some_iff.1 h
  obtain rfl : q₁ = q' := by
    dsimp only at heq
    split at heq <;> exact (Prod.mk.inj heq).2
  exact (of_tuxReturnReply hreply).imp id fun ⟨m, hm, _⟩ ↦ ⟨m, hm⟩

/-! ### Receiving -/

/-- A successful `MsqRcv` has removed the message whose payload it returns. -/
theorem msgrcv_of_msqRcv_got {fault : Option Errno} {q rest : List Msg} {nMsgLen : ℕ}
    {nMsgType code : ℤ} {nowait : Bool} {ipcMsgIn : IPCQueMsg}
    (h : msqRcv fault q nMsgLen nMsgType nowait = .got code ipcMsgIn rest) :
    ∃ m, msgrcv fault q nMsgLen nMsgType nowait = .got m rest ∧ ipcMsgIn.sBuf = Msg.payload m ∧
      (0 < code → code.toNat = (Msg.payload m).length) := by
  rw [msqRcv] at h
  split at h
  · next m rest' hgot =>
    obtain ⟨rfl, rfl, rfl⟩ := MsqRcvd.got.inj h
    refine ⟨m, hgot, rfl, fun hpos ↦ ?_⟩
    rw [Msg.payload, List.length_drop]
    omega
  · cases h
  · cases h

/-- What a server is called with for a request: the head, and the data behind it. -/
def requestOf (m : Msg) : IPCMsgHead × SdInfo :=
  (.ofBytes (Msg.payload m), sdInfoOf (.ofBytes (Msg.payload m)) (Msg.payload m))

/-- What a pass of `tux_service` hands to the handler. -/
def Service.hand : Service → Option (IPCMsgHead × SdInfo)
  | .called _ sdInfo head _ => some (head, sdInfo)
  | .waiting | .again _ | .ret _ _ | .fault _ _ => none

theorem calls_tuxService (mb : MbCtrl) (fault : Option Errno) (errno svrid : ℤ) (q : List Msg) :
    Calls requestOf (.receive (svrid + svrMsgTypeRoot)) q ((tuxService mb fault errno q svrid).rest q)
      (tuxService mb fault errno q svrid).hand := by
  rw [tuxService]
  split
  · exact .inl ⟨rfl, rfl⟩
  · split <;> exact .inl ⟨rfl, rfl⟩
  · next iMsgLen ipcMsgIn rest hrcv =>
    obtain ⟨m, hgot, hbuf, -⟩ := msgrcv_of_msqRcv_got hrcv
    split
    · split <;> exact .inr ⟨_, _, _, m, hgot, .inl rfl⟩
    · rw [tuxDispatch, hbuf]
      dsimp only
      split
      · exact .inr ⟨_, _, _, m, hgot, .inl rfl⟩
      · split
        · exact .inr ⟨_, _, _, m, hgot, .inr rfl⟩
        · exact .inr ⟨_, _, _, m, hgot, .inl rfl⟩

/-- What the receive of `tux_call` stores for the caller. -/
def CallRcvd.hand : CallRcvd → Option (List UInt8)
  | .got rspBuf _ _ => some rspBuf
  | .fail _ _ | .waiting => none

theorem calls_tuxCallRcv (fault : Option Errno) (expired : Bool) (tuxErrno : ℤ) (q : List Msg)
    (reqMsgType : BitVec 64) :
    Calls Msg.payload (.receive reqMsgType.toInt) q ((tuxCallRcv fault expired tuxErrno q reqMsgType).rest q)
      (tuxCallRcv fault expired tuxErrno q reqMsgType).hand := by
  rw [tuxCallRcv]
  split
  · exact .inl ⟨rfl, rfl⟩
  · exact .inl ⟨rfl, rfl⟩
  · next iMsgLen ipcMsgOut rest hrcv =>
    obtain ⟨m, hgot, hbuf, hlen⟩ := msgrcv_of_msqRcv_got hrcv
    split
    · exact .inr ⟨_, _, _, m, hgot, .inl rfl⟩
    · next hpos =>
      split
      · exact .inr ⟨_, _, _, m, hgot, .inl rfl⟩
      · refine .inr ⟨_, _, _, m, hgot, .inr ?_⟩
        rw [CallRcvd.hand, hbuf, hlen (by omega), bufRead_zero_length]

/-- What `tux_getreply` stores for the caller. -/
def GetReply.hand : GetReply → Option (List UInt8)
  | .got rspBuf _ _ => some rspBuf
  | .fail _ _ | .waiting => none

theorem calls_tuxGetreply (attached : Bool) (fault : Option Errno) (errno : ℤ) (q : List Msg) (cd flags : ℤ) :
    Calls Msg.payload (.receive cd) q ((tuxGetreply attached fault errno q cd flags).rest q)
      (tuxGetreply attached fault errno q cd flags).hand := by
  rw [tuxGetreply]
  split
  · exact .inl ⟨rfl, rfl⟩
  · split
    · exact .inl ⟨rfl, rfl⟩
    · exact .inl ⟨rfl, rfl⟩
    · next iMsgLen ipcMsgIn rest hrcv =>
      obtain ⟨m, hgot, hbuf, hlen⟩ := msgrcv_of_msqRcv_got hrcv
      split
      · exact .inr ⟨_, _, _, m, hgot, .inl rfl⟩
      · refine .inr ⟨_, _, _, m, hgot, .inr ?_⟩
        rw [GetReply.hand, hbuf, hlen (by omega), bufRead_zero_length]

theorem calls_cleanTaskMsg {β : Type} (of : Msg → β) (fault : Option Errno) (q : List Msg) (msgType : ℤ) :
    Calls of (.receive msgType) q (cleanTaskMsg fault q msgType) none := by
  rw [cleanTaskMsg]
  split
  · next hrcv =>
    obtain ⟨m, hgot, -⟩ := msgrcv_of_msqRcv_got hrcv
    exact .inr ⟨_, _, _, m, hgot, .inl rfl⟩
  · exact .inl ⟨rfl, rfl⟩

/-! ### The calls -/

/-- A call that touches the request queue. `svr_cmd_deal` and `call_svr` are calls of `tux_call`. -/
inductive ReqAct
  | acall (mb : MbCtrl) (k : SndKernel) (realLen : ℤ) (svrName reqBuf : Option (List UInt8)) (reqBuflen : ℤ)
  | call (mb : MbCtrl) (k : SndKernel) (realLen tuxErrno : ℤ) (svrName reqBuf : Option (List UInt8)) (reqBuflen : ℤ)
      (rsp : Bool)
  | forward (mbLongjmp : Bool) (mb : MbCtrl) (k : SndKernel) (realLen : ℤ) (svrName data : Option (List UInt8))
      (len : ℤ)
  | service (mb : MbCtrl) (fault : Option Errno) (errno svrid : ℤ)
  /-- A pass of `clean_task_msg`, or of `MsqClear`, which asks for the type 0. -/
  | clean (fault : Option Errno) (msgType : ℤ)

namespace ReqAct

def use : ReqAct → Use
  | acall .. | call .. | forward .. => .send
  | service _ _ _ svrid => .receive (svrid + svrMsgTypeRoot)
  | clean _ msgType => .receive msgType

/-- The request queue behind the call. A process whose copy leaves an array is gone, and has sent nothing. -/
def rest (q : List Msg) : ReqAct → List Msg
  | acall mb k realLen svrName reqBuf reqBuflen =>
    match tuxAcall mb k realLen q svrName reqBuf reqBuflen with
    | some (.ok q') => q'
    | _ => q
  | call mb k realLen tuxErrno svrName reqBuf reqBuflen rsp =>
    match tuxCallSend mb k realLen tuxErrno q svrName reqBuf reqBuflen rsp with
    | some (.ok q') => q'
    | _ => q
  | forward mbLongjmp mb k realLen svrName data len =>
    match tuxForward mbLongjmp mb k realLen q svrName data len with
    | some (.done q') => q'
    | _ => q
  | service mb fault errno svrid => (tuxService mb fault errno q svrid).rest q
  | clean fault msgType => cleanTaskMsg fault q msgType

/-- What a handler is called with. -/
def hand (q : List Msg) : ReqAct → Option (IPCMsgHead × SdInfo)
  | service mb fault errno svrid => (tuxService mb fault errno q svrid).hand
  | acall .. | call .. | forward .. | clean .. => none

theorem calls (a : ReqAct) (q : List Msg) : Calls requestOf a.use q (a.rest q) (a.hand q) := by
  cases a with
  | acall =>
    refine ⟨?_, rfl⟩
    rw [rest]
    split
    · next hsent => exact sends_tuxAcall hsent
    · exact .inl rfl
  | call =>
    refine ⟨?_, rfl⟩
    rw [rest]
    split
    · next hsent => exact sends_tuxCallSend hsent
    · exact .inl rfl
  | forward =>
    refine ⟨?_, rfl⟩
    rw [rest]
    split
    · next hsent => exact sends_tuxForward hsent
    · exact .inl rfl
  | service mb fault errno svrid => exact calls_tuxService mb fault errno svrid q
  | clean fault msgType => exact calls_cleanTaskMsg requestOf fault q msgType

end ReqAct

/-- A call that touches the reply queue. -/
inductive RspAct
  | ret (mb : MbCtrl) (k : SndKernel) (realLen : ℤ) (gipcMsgHead : IPCMsgHead) (rsp : Option (List UInt8))
      (rsplen flags : ℤ)
  | callRcv (fault : Option Errno) (expired : Bool) (tuxErrno : ℤ) (reqMsgType : BitVec 64)
  | getreply (attached : Bool) (fault : Option Errno) (errno cd flags : ℤ)
  /-- A pass of `MsqClear`. -/
  | clear (fault : Option Errno)

namespace RspAct

def use : RspAct → Use
  | ret .. => .send
  | callRcv _ _ _ reqMsgType => .receive reqMsgType.toInt
  | getreply _ _ _ cd _ => .receive cd
  | clear _ => .receive 0

/-- The reply queue behind the call. -/
def rest (q : List Msg) : RspAct → List Msg
  | ret mb k realLen gipcMsgHead rsp rsplen flags =>
    match tuxReturn mb k realLen gipcMsgHead q rsp rsplen flags with
    | some (_, q') => q'
    | none => q
  | callRcv fault expired tuxErrno reqMsgType => (tuxCallRcv fault expired tuxErrno q reqMsgType).rest q
  | getreply attached fault errno cd flags => (tuxGetreply attached fault errno q cd flags).rest q
  | clear fault => cleanTaskMsg fault q 0

/-- What is stored for the caller. -/
def hand (q : List Msg) : RspAct → Option (List UInt8)
  | callRcv fault expired tuxErrno reqMsgType => (tuxCallRcv fault expired tuxErrno q reqMsgType).hand
  | getreply attached fault errno cd flags => (tuxGetreply attached fault errno q cd flags).hand
  | ret .. | clear .. => none

theorem calls (a : RspAct) (q : List Msg) : Calls Msg.payload a.use q (a.rest q) (a.hand q) := by
  cases a with
  | ret =>
    refine ⟨?_, rfl⟩
    rw [rest]
    split
    · next hsent => exact sends_tuxReturn hsent
    · exact .inl rfl
  | callRcv fault expired tuxErrno reqMsgType => exact calls_tuxCallRcv fault expired tuxErrno q reqMsgType
  | getreply attached fault errno cd flags => exact calls_tuxGetreply attached fault errno q cd flags
  | clear fault => exact calls_cleanTaskMsg Msg.payload fault q 0

end RspAct

/-! ### Runs -/

/-- The two queues. -/
structure Bus where
  req : Traffic Msg (IPCMsgHead × SdInfo)
  rsp : Traffic Msg (List UInt8)

/-- A call by some process. -/
inductive BusAct
  | req (a : ReqAct)
  | rsp (a : RspAct)

def busStep (b : Bus) : BusAct → Bus
  | .req a => { b with req := b.req.call a.use (a.rest b.req.que) (a.hand b.req.que) }
  | .rsp a => { b with rsp := b.rsp.call a.use (a.rest b.rsp.que) (a.hand b.rsp.que) }

/-- The queues behind the calls, which found these messages in them. -/
def busRun (reqQue rspQue : List Msg) (acts : List BusAct) : Bus :=
  acts.foldl busStep ⟨.start reqQue, .start rspQue⟩

/-- Both queues keep the order. -/
structure Bus.Ordered (b : Bus) : Prop where
  req : b.req.Ordered requestOf
  rsp : b.rsp.Ordered Msg.payload

theorem Bus.Ordered.busStep {b : Bus} (h : b.Ordered) (a : BusAct) : (busStep b a).Ordered := by
  cases a with
  | req a => exact ⟨h.req.call (a.calls _), h.rsp⟩
  | rsp a => exact ⟨h.req, h.rsp.call (a.calls _)⟩

theorem ordered_busRun (reqQue rspQue : List Msg) (acts : List BusAct) : (busRun reqQue rspQue acts).Ordered := by
  have hrun {b : Bus} (h : b.Ordered) : (acts.foldl Sunda.busStep b).Ordered := by
    induction acts generalizing b with
    | nil => exact h
    | cons a acts ih => exact ih (h.busStep a)
  exact hrun ⟨Traffic.ordered_start _ _, Traffic.ordered_start _ _⟩

/-- **Order on the bus.** Whatever the processes do, on both queues: the messages in the queue are those sent
and not received, and for each type those received were sent before those in the queue, which all stand in the
order in which they were sent. The requests that the server with this id is called for and the replies stored
for those who wait for a type are messages of their type, each at most once, in the order in which they were
sent. -/
theorem busRun_ordered (reqQue rspQue : List Msg) (acts : List BusAct) :
    let b := busRun reqQue rspQue acts
    (plain b.req.ledger.que = b.req.que ∧ b.req.ledger.Numbered ∧ b.req.ledger.InOrder) ∧
      (plain b.rsp.ledger.que = b.rsp.que ∧ b.rsp.ledger.Numbered ∧ b.rsp.ledger.InOrder) ∧
      (∀ svrid : ℤ, 0 < svrid + svrMsgTypeRoot → (b.req.handedTo (svrid + svrMsgTypeRoot)).Sublist
        ((Ledger.ofType (svrid + svrMsgTypeRoot) b.req.ledger.sent).map fun x ↦ requestOf x.msg)) ∧
      ∀ t : ℤ, 0 < t →
        (b.rsp.handedTo t).Sublist ((Ledger.ofType t b.rsp.ledger.sent).map fun x ↦ Msg.payload x.msg) := by
  intro b
  have h : b.Ordered := ordered_busRun reqQue rspQue acts
  exact ⟨⟨h.req.plain, h.req.numbered, h.req.inOrder⟩, ⟨h.rsp.plain, h.rsp.numbered, h.rsp.inOrder⟩,
    fun svrid hid ↦ h.req.sublist hid, fun t ht ↦ h.rsp.sublist ht⟩

/-- The second of two replies is asked for by its type. -/
theorem busRun_ordered_second :
    let b := busRun [] [⟨5, List.replicate 9 1⟩, ⟨6, List.replicate 9 2⟩] [.rsp (.getreply true none 0 6 0)]
    b.rsp.que = [⟨5, List.replicate 9 1⟩] ∧ b.rsp.handedTo 6 = [[2]] ∧ b.rsp.ledger.InOrder ∧
      (b.rsp.handedTo 6).Sublist ((Ledger.ofType 6 b.rsp.ledger.sent).map fun x ↦ Msg.payload x.msg) := by
  have h := busRun_ordered [] [⟨5, List.replicate 9 1⟩, ⟨6, List.replicate 9 2⟩]
    [.rsp (.getreply true none 0 6 0)]
  exact ⟨by decide, by decide, h.2.1.2.2, h.2.2.2 6 (by decide)⟩

end Sunda
