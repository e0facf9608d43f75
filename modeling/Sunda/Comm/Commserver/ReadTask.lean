import Sunda.Common.Funsock
import Sunda.Comm.Commserver.Table
import Sunda.Tux.Tuxmgr

/-!
# Reading a request

One pass of `read_task` (`comm/commserver/commserver.c`) behind the section in which it claims a
connection: receive a frame, put an `IPCMsgHead` in front of its body, and queue the result with
`tux_acall`; on failure answer with `response_err_req`.

The body of the queued request is an over-long copy: it starts behind the request head of the frame
but is as long as the whole frame, so it ends with zeros. `wellFormed_of_readTask_iff` says when the
length that the head announces is one a worker can use.
-/

namespace Sunda

open Bytes Arrivals SysV

/-- The size of `sSrcBuf` in `read_task`. -/
def sizeofReadSrcBuf : ℕ := 8097

/-- The name of a service as `read_task` finds it in a frame: `sSvcName`, trimmed in place. -/
def reqSvcName (reqHead : SundaReqHead) : List UInt8 :=
  allTrim (bufRead reqHead.name.toList 0 (tuxNameLen + 1))

/-- The `sunda_req_head_t` behind the length prefix of a frame. -/
def frameReqHead (sSrcBuf : List UInt8) : SundaReqHead :=
  .ofBytes (bufRead sSrcBuf socketMsgHeadLen sizeofReqHead)

/-- The `ipcMsgHead` that `read_task` fills for a frame of `iBufLen` bytes. -/
def readTaskHead (sSrcBuf : List UInt8) (iBufLen : ℤ) (socketid : BitVec 32)
    (tClient : ConnectHandle) : IPCMsgHead where
  name := charField 33 (cstr (reqSvcName (frameReqHead sSrcBuf))) 0
  ssn := (frameReqHead sSrcBuf).ssn
  connSsn := tClient.ssn
  reqMsgType := BitVec.ofNat 64 commSMsgTypeRoot
  fd := socketid
  utime := tClient.utime.setWidth 64
  replyFlag := BitVec.ofNat 32 replyFlagAsyn
  noteMsgType := 0
  len := BitVec.ofInt 64 (iBufLen - socketMsgHeadLen - sizeofReqHead)

/-- What `read_task` copies to the front of `sReqBuf`, of which `tux_acall` gets `iBufLen` bytes and
the head. -/
def readTaskReqBuf (sSrcBuf : List UInt8) (iBufLen : ℤ) (socketid : BitVec 32)
    (tClient : ConnectHandle) : List UInt8 :=
  (readTaskHead sSrcBuf iBufLen socketid tClient).toBytes ++
    bufRead sSrcBuf (socketMsgHeadLen + sizeofReqHead) iBufLen.toNat

/-- The frame that `response_err_req` writes. -/
def responseErrReq (reqHead : SundaReqHead) : List UInt8 :=
  Decimal.sprintf0d socketMsgHeadLen sizeofReqHead ++ reqHead.toBytes

/-- `read_task` once a frame is received: the request queue, or the error response to write. `none`
is a copy beyond the end of a local array; the copy of the body ends where the frame has as many
bytes again as its two heads. -/
def readTaskRequest (mb : MbCtrl) (k : SndKernel) (realLen : ℤ) (q : List Msg)
    (sSrcBuf : List UInt8) (iBufLen : ℤ) (socketid : BitVec 32) (tClient : ConnectHandle) :
    Option (Except (List UInt8) (List Msg)) :=
  if sizeofReadSrcBuf < socketMsgHeadLen + sizeofReqHead + iBufLen then none
  else
    (tuxAcall mb k realLen q (some (reqSvcName (frameReqHead sSrcBuf)))
      (some (readTaskReqBuf sSrcBuf iBufLen socketid tClient))
      (iBufLen + sizeofIPCMsgHead)).map fun r ↦
        r.mapError fun tuxErrno ↦
          responseErrReq { frameReqHead sSrcBuf with errNo := BitVec.ofInt 32 tuxErrno }

/-- The outcome of one pass of `read_task`. -/
inductive ReadOut
  /-- `RcvTxnMsg` failed, and the connection is deleted. -/
  | closed
  | queued (q : List Msg)
  | errRsp (frame : List UInt8)
  | overrun
  deriving DecidableEq

/-- One pass of `read_task` on the socket of a claimed connection, and the socket afterwards. -/
def readTask (mb : MbCtrl) (k : SndKernel) (realLen : ℤ) (q : List Msg) (sock : Sock UInt8)
    (socketid : BitVec 32) (tClient : ConnectHandle) : ReadOut × Sock UInt8 :=
  match rcvTxnMsg sock socketMsgHeadLen with
  | ⟨0, some (sSrcBuf, iBufLen), sock'⟩ =>
    match readTaskRequest mb k realLen q sSrcBuf iBufLen socketid tClient with
    | none => (.overrun, sock')
    | some (.ok q') => (.queued q', sock')
    | some (.error frame) => (.errRsp frame, sock')
  | ⟨_, _, sock'⟩ => (.closed, sock')

/-! ### The queued request -/

/-- A request that a worker can unpack: the announced length is not negative, and head and body are
inside the payload. -/
def WellFormedPayload (p : List UInt8) : Prop :=
  0 ≤ (IPCMsgHead.ofBytes p).len.toInt ∧
    sizeofIPCMsgHead + (IPCMsgHead.ofBytes p).len.toInt ≤ p.length

@[simp]
theorem readTaskReqBuf_length (sSrcBuf : List UInt8) (n : ℕ) (socketid : BitVec 32)
    (tClient : ConnectHandle) :
    (readTaskReqBuf sSrcBuf n socketid tClient).length = n + sizeofIPCMsgHead := by
  rw [readTaskReqBuf, List.length_append, IPCMsgHead.toBytes_length, bufRead_length,
    Int.toNat_natCast, Nat.add_comm]

/-- The length in the head, for frames that fit an `int`. -/
theorem readTaskHead_len (sSrcBuf : List UInt8) {iBufLen : ℤ} (h0 : 0 ≤ iBufLen)
    (h1 : iBufLen < 2 ^ 31) (socketid : BitVec 32) (tClient : ConnectHandle) :
    (readTaskHead sSrcBuf iBufLen socketid tClient).len.toInt =
      iBufLen - socketMsgHeadLen - sizeofReqHead := by
  show (BitVec.ofInt 64 _).toInt = _
  rw [BitVec.toInt_ofInt, Int.bmod_def, socketMsgHeadLen, sizeofReqHead]
  omega

/-- A request that `read_task` queued is the head it filled and the body behind it, together shorter
than the buffer of a message. -/
theorem of_readTaskRequest_ok {mb : MbCtrl} {k : SndKernel} {realLen : ℤ} {q q' : List Msg}
    {sSrcBuf : List UInt8} {n : ℕ} {socketid : BitVec 32} {tClient : ConnectHandle}
    (h : readTaskRequest mb k realLen q sSrcBuf n socketid tClient = some (.ok q')) :
    ∃ m, q' = q ++ [m] ∧ Msg.payload m = readTaskReqBuf sSrcBuf n socketid tClient ∧
      n + sizeofIPCMsgHead < busMaxMsgLen := by
  rw [readTaskRequest] at h
  split at h
  · cases h
  · obtain ⟨r, hr, hok⟩ := Option.map_eq_some_iff.1 h
    obtain rfl : r = .ok q' := by
      cases r with
      | error e => cases hok
      | ok q1 => rw [Except.ok.inj hok]
    have hL : 0 < n + sizeofIPCMsgHead := by
      rw [sizeofIPCMsgHead]
      omega
    obtain ⟨_, e, -, -, -, -, -, hlt, rfl⟩ := of_tuxAcall_ok hL (by exact_mod_cast hr)
    refine ⟨_, rfl, ?_, hlt⟩
    rw [IPCQueMsg.payload_queued, bufRead_bufRead _ (by omega), Nat.zero_add,
      ← readTaskReqBuf_length sSrcBuf n socketid tClient, bufRead_zero_length]

/-- A pass of `read_task` that queued something received one frame first. -/
theorem of_readTask_queued {mb : MbCtrl} {k : SndKernel} {realLen : ℤ} {q q' : List Msg}
    {sock : Sock UInt8} {socketid : BitVec 32} {tClient : ConnectHandle}
    (h : (readTask mb k realLen q sock socketid tClient).1 = .queued q') :
    ∃ n : ℕ, 0 < n ∧ Decimal.atoi (sock.stream.take socketMsgHeadLen) = n ∧
      readTaskRequest mb k realLen q (sock.stream.take (socketMsgHeadLen + n))
        (socketMsgHeadLen + n : ℕ) socketid tClient = some (.ok q') := by
  rw [readTask] at h
  split at h
  · next sSrcBuf iBufLen sock' hrcv =>
    obtain ⟨n, hn, hat, -, hstored, -⟩ := rcvTxnMsg_zero (h := socketMsgHeadLen) (by decide)
      (congrArg RcvTxn.ret hrcv)
    obtain ⟨rfl, rfl⟩ := Prod.mk.inj (Option.some.inj ((congrArg RcvTxn.stored hrcv).symm.trans hstored))
    refine ⟨n, hn, hat, ?_⟩
    split at h
    · cases h
    · next q1 hreq =>
      rw [← ReadOut.queued.inj h, ← hreq]
      push_cast
      rfl
    · cases h
  · cases h

/-- An error response is what `response_err_req` makes of some request head. -/
theorem of_readTask_errRsp {mb : MbCtrl} {k : SndKernel} {realLen : ℤ} {q : List Msg}
    {sock : Sock UInt8} {socketid : BitVec 32} {tClient : ConnectHandle} {frame : List UInt8}
    (h : (readTask mb k realLen q sock socketid tClient).1 = .errRsp frame) :
    ∃ reqHead, frame = responseErrReq reqHead := by
  rw [readTask] at h
  split at h
  · split at h
    · cases h
    · cases h
    · next frame' hreq =>
      obtain rfl := ReadOut.errRsp.inj h
      rw [readTaskRequest] at hreq
      split at hreq
      · cases hreq
      · obtain ⟨r, -, herr⟩ := Option.map_eq_some_iff.1 hreq
        cases r with
        | error e => exact ⟨_, (Except.error.inj herr).symm⟩
        | ok q' => cases herr
  · cases h

/-- The queued request starts with the head that `read_task` filled. -/
theorem head_of_readTask_queued {mb : MbCtrl} {k : SndKernel} {realLen : ℤ} {q q' : List Msg}
    {sock : Sock UInt8} {socketid : BitVec 32} {tClient : ConnectHandle}
    (h : (readTask mb k realLen q sock socketid tClient).1 = .queued q') :
    ∃ m sSrcBuf n, q' = q ++ [m] ∧
      IPCMsgHead.ofBytes (Msg.payload m) = readTaskHead sSrcBuf n socketid tClient := by
  obtain ⟨n, -, -, hreq⟩ := of_readTask_queued h
  obtain ⟨m, hq, hp, -⟩ := of_readTaskRequest_ok hreq
  refine ⟨m, sock.stream.take (socketMsgHeadLen + n), (socketMsgHeadLen + n : ℕ), hq, ?_⟩
  rw [hp]
  exact IPCMsgHead.ofBytes_toBytes_append _ _

/-- The payload that `read_task` makes of a frame with `n` bytes behind its prefix can be unpacked
exactly when the frame is not shorter than its head. -/
theorem wellFormedPayload_readTaskReqBuf_iff (sSrcBuf : List UInt8) {n : ℕ}
    (hn : socketMsgHeadLen + n < busMaxMsgLen) (socketid : BitVec 32) (tClient : ConnectHandle) :
    WellFormedPayload (readTaskReqBuf sSrcBuf (socketMsgHeadLen + n : ℕ) socketid tClient) ↔
      sizeofReqHead ≤ n := by
  have hhead : IPCMsgHead.ofBytes
      (readTaskReqBuf sSrcBuf (socketMsgHeadLen + n : ℕ) socketid tClient) =
        readTaskHead sSrcBuf (socketMsgHeadLen + n : ℕ) socketid tClient :=
    IPCMsgHead.ofBytes_toBytes_append _ _
  rw [busMaxMsgLen] at hn
  rw [WellFormedPayload, hhead, readTaskReqBuf_length,
    readTaskHead_len sSrcBuf (by omega) (by omega)]
  omega

/-- No worker runs into trouble with a request that can be unpacked. -/
theorem tuxDispatch_ne_fault {p : List UInt8} (hwf : WellFormedPayload p)
    (hlen : p.length ≤ busMaxMsgLen) (mb : MbCtrl) (t src : BitVec 64) (rest : List Msg)
    (head : IPCMsgHead) (rest' : List Msg) : tuxDispatch mb ⟨t, src, p⟩ rest ≠ .fault head rest' := by
  rw [tuxDispatch]
  split
  · simp
  · have hin := hwf.2
    have hle : sizeofIPCMsgHead + (IPCMsgHead.ofBytes p).len.toInt ≤ busMaxMsgLen := by omega
    simp only [if_pos (And.intro hwf.1 hle), ne_eq, reduceCtorEq, not_false_eq_true]

/-- **Malformed frames.** Whatever a client sends and however it arrives: a request that `read_task`
queues can be unpacked by a worker exactly when the length prefix of its frame is at least the size
of the request head. -/
theorem wellFormed_of_readTask_iff {mb : MbCtrl} {k : SndKernel} {realLen : ℤ} {q q' : List Msg}
    {sock : Sock UInt8} {socketid : BitVec 32} {tClient : ConnectHandle}
    (h : (readTask mb k realLen q sock socketid tClient).1 = .queued q') :
    ∃ m, q' = q ++ [m] ∧
      (WellFormedPayload (Msg.payload m) ↔
        sizeofReqHead ≤ Decimal.atoi (sock.stream.take socketMsgHeadLen)) ∧
      (WellFormedPayload (Msg.payload m) → ∀ mb' t src rest head rest',
        tuxDispatch mb' ⟨t, src, Msg.payload m⟩ rest ≠ .fault head rest') := by
  obtain ⟨n, -, hat, hreq⟩ := of_readTask_queued h
  obtain ⟨m, rfl, hp, hlt⟩ := of_readTaskRequest_ok hreq
  refine ⟨m, rfl, ?_, fun hwf mb' t src rest head rest' ↦ ?_⟩
  · rw [hp, wellFormedPayload_readTaskReqBuf_iff _ (by omega), hat, Nat.cast_le]
  · refine tuxDispatch_ne_fault hwf ?_ mb' t src rest head rest'
    rw [hp, readTaskReqBuf_length]
    omega

/-- The name `testsvr`. -/
def testsvrName : List UInt8 := [116, 101, 115, 116, 115, 118, 114]

/-- A table with one server, which is idle and offers the service `testsvr`. -/
def testsvrMb : MbCtrl where
  maxMsgLen := 8096
  tSvrTab := [⟨1, charField 33 testsvrName 0, .idle, 300001, 20⟩]
  tSvcTab := [⟨0, charField 33 testsvrName 0, 7⟩]
  nsvrnum_eq := rfl

/-- The message that `read_task` queues for such a frame of `n` bytes behind the prefix. -/
def testsvrMsg (frame : List UInt8) (n : ℕ) : Msg :=
  (⟨300001, 0, readTaskReqBuf frame (socketMsgHeadLen + n : ℕ) 5 ⟨5, 0, 0, fdStatRead⟩⟩ :
    IPCQueMsg).queued (socketMsgHeadLen + n + sizeofIPCMsgHead)

/-- The frame of a request for it, without a body. -/
def bareFrame : List UInt8 := [48, 48, 52, 48] ++ testsvrName ++ List.replicate 33 0

/-- A frame of a request head without a body. -/
theorem wellFormed_of_readTask_head :
    ∃ m, (readTask testsvrMb ⟨none, none, 8192⟩ 0 []
        ⟨[48, 48, 52, 48] ++ testsvrName ++ List.replicate 33 0, []⟩ 5
        ⟨5, 0, 0, fdStatRead⟩).1 = .queued [m] ∧
      WellFormedPayload (Msg.payload m) := by
  have hq : (readTask testsvrMb ⟨none, none, 8192⟩ 0 []
      ⟨[48, 48, 52, 48] ++ testsvrName ++ List.replicate 33 0, []⟩ 5
      ⟨5, 0, 0, fdStatRead⟩).1 =
        .queued [testsvrMsg ([48, 48, 52, 48] ++ testsvrName ++ List.replicate 33 0) 40] := by
    decide +kernel
  obtain ⟨m, hm, hiff, -⟩ := wellFormed_of_readTask_iff hq
  obtain rfl := List.singleton_inj.1 hm
  exact ⟨_, hq, hiff.2 (by decide)⟩

/-- A frame of seven bytes, which is shorter than the request head. -/
theorem readTask_short_not_wellFormed :
    ∃ m, (readTask testsvrMb ⟨none, none, 8192⟩ 0 [] ⟨[48, 48, 48, 55] ++ testsvrName, []⟩ 5
        ⟨5, 0, 0, fdStatRead⟩).1 = .queued [m] ∧
      ¬ WellFormedPayload (Msg.payload m) := by
  refine ⟨testsvrMsg ([48, 48, 48, 55] ++ testsvrName) 7, by decide +kernel, fun hwf ↦ ?_⟩
  exact absurd hwf.1 (by decide +kernel)

end Sunda
