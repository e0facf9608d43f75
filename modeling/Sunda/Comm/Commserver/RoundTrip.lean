import Sunda.Comm.Commserver.ReadTask
import Sunda.Comm.Commserver.TableRep
import Sunda.Comm.Commserver.WriteTask

/-!
# From a request frame to its response

A frame passes through four copies in two processes: `read_task` puts an `IPCMsgHead` in front of its
body and queues both, `tux_service` hands the body to a handler, `tux_return_reply` queues the
handler's result behind the same head, and `write_task` makes a response frame of it.

There is one lemma for each stage, about the bytes that come out of it: `readTask_requestFrame`,
`tuxService_request`, `tuxReturnReply_eq_ok` and `writeTask_reply`. `request_reply_round_trip` puts
them together. It asks of the server table that the **first** entry with the name of the service can
take requests, because `tux_locatemb` does not look further.
-/

namespace Sunda

open Bytes Arrivals SysV

/-- The name of the service that a request head asks for. -/
def svcNameOf (reqHead : SundaReqHead) : List UInt8 :=
  trimmed (cstr reqHead.name.toList)

/-- The frame of a request: its length, the head, the body. -/
def requestFrame (reqHead : SundaReqHead) (body : List UInt8) : List UInt8 :=
  Decimal.sprintf0d socketMsgHeadLen (sizeofReqHead + body.length : ℕ) ++ (reqHead.toBytes ++ body)

/-- The response that a client expects: the length, a head with the name of the service, the number of
the request and no error, and the result. -/
def replyFrame (svcName : List UInt8) (ssn : BitVec 32) (rsp : List UInt8) : List UInt8 :=
  Decimal.sprintf0d socketMsgHeadLen (sizeofReqHead + rsp.length : ℕ) ++
    ((⟨charField 32 svcName 0, ssn, 0⟩ : SundaReqHead).toBytes ++ rsp)

/-- The head that travels with the request and comes back with its reply. -/
def requestHead (reqHead : SundaReqHead) (n : ℕ) (fd : BitVec 32) (tClient : ConnectHandle) :
    IPCMsgHead where
  name := charField 33 (svcNameOf reqHead) 0
  ssn := reqHead.ssn
  connSsn := tClient.ssn
  reqMsgType := BitVec.ofNat 64 commSMsgTypeRoot
  fd := fd
  utime := tClient.utime.setWidth 64
  replyFlag := BitVec.ofNat 32 replyFlagAsyn
  noteMsgType := 0
  len := BitVec.ofInt 64 n

/-- The request in the queue: the head, the body, and the zeros that the copy of the body took along. -/
def requestMsg (msgType : BitVec 64) (reqHead : SundaReqHead) (body : List UInt8) (fd : BitVec 32)
    (tClient : ConnectHandle) : IPCQueMsg where
  nMsgType := msgType
  nMsgSource := 0
  sBuf := (requestHead reqHead body.length fd tClient).toBytes ++
    (body ++ bufRead [] 0 (socketMsgHeadLen + sizeofReqHead))

/-- The length of a request with `n` bytes of body, as it is queued. -/
def requestLen (n : ℕ) : ℕ :=
  socketMsgHeadLen + sizeofReqHead + n + sizeofIPCMsgHead

/-! ### The name of the service -/

theorem cstr_reqSvcName (reqHead : SundaReqHead) :
    cstr (reqSvcName reqHead) = svcNameOf reqHead := by
  have hlen : reqHead.name.toList.length = tuxNameLen := reqHead.name.toList_length
  -- the copy is one byte longer than the field, so it is terminated
  have hread : bufRead reqHead.name.toList 0 (tuxNameLen + 1) = reqHead.name.toList ++ [0] := by
    have hadd := bufRead_append_add reqHead.name.toList [] 1
    rwa [List.append_nil, hlen] at hadd
  rw [reqSvcName, cstr_allTrim, hread, cstr_append_singleton_zero, svcNameOf]

theorem zero_notMem_svcNameOf (reqHead : SundaReqHead) : (0 : UInt8) ∉ svcNameOf reqHead :=
  fun h ↦ zero_notMem_cstr _ (trimmed_subset _ h)

theorem svcNameOf_length_le (reqHead : SundaReqHead) :
    (svcNameOf reqHead).length ≤ tuxNameLen := by
  have hlen : reqHead.name.toList.length = tuxNameLen := reqHead.name.toList_length
  exact (trimmed_length_le _).trans ((cstr_length_le _).trans hlen.le)

/-- The name in the head reads back. -/
theorem cstr_requestHead_name (reqHead : SundaReqHead) (n : ℕ) (fd : BitVec 32)
    (tClient : ConnectHandle) :
    cstr (requestHead reqHead n fd tClient).name.toList = svcNameOf reqHead :=
  cstr_bufRead (zero_notMem_svcNameOf reqHead) (Nat.le_succ_of_le (svcNameOf_length_le reqHead))

/-- Which entry of a table has a name depends on the string alone, not on the bytes behind it. -/
theorem FirstNamed.congr {α : Type} {nm : α → List.Vector UInt8 33} {tab : List α}
    {name name' : List UInt8} {e : α} (h : FirstNamed nm tab name e) (heq : cstr name' = cstr name) :
    FirstNamed nm tab name' e := by
  rw [FirstNamed, heq]
  exact h

/-! ### The request -/

theorem requestFrame_length (reqHead : SundaReqHead) {body : List UInt8}
    (h : sizeofReqHead + body.length < 10 ^ socketMsgHeadLen) :
    (requestFrame reqHead body).length = socketMsgHeadLen + (sizeofReqHead + body.length) := by
  rw [requestFrame, List.length_append, List.length_append, SundaReqHead.toBytes_length,
    Decimal.sprintf0d_length (by decide) h]

theorem frameReqHead_requestFrame (reqHead : SundaReqHead) {body : List UInt8}
    (h : sizeofReqHead + body.length < 10 ^ socketMsgHeadLen) :
    frameReqHead (requestFrame reqHead body) = reqHead := by
  have hpfx := Decimal.sprintf0d_length (w := socketMsgHeadLen) (by decide) h
  have hread : bufRead (requestFrame reqHead body) socketMsgHeadLen sizeofReqHead =
      reqHead.toBytes := by
    rw [requestFrame, bufRead_append_right _ _ hpfx.le, hpfx, Nat.sub_self]
    exact bufRead_append_zero _ _ reqHead.toBytes_length
  rw [frameReqHead, hread, ← List.append_nil reqHead.toBytes]
  exact reqHead.ofBytes_toBytes_append []

theorem requestMsg_sBuf_length (msgType : BitVec 64) (reqHead : SundaReqHead) (body : List UInt8)
    (fd : BitVec 32) (tClient : ConnectHandle) :
    (requestMsg msgType reqHead body fd tClient).sBuf.length = requestLen body.length := by
  simp only [requestMsg, requestLen, List.length_append, IPCMsgHead.toBytes_length, bufRead_length]
  omega

/-- The queued request starts with its head. -/
theorem ofBytes_payload_requestMsg (msgType : BitVec 64) (reqHead : SundaReqHead) (body : List UInt8)
    (fd : BitVec 32) (tClient : ConnectHandle) :
    IPCMsgHead.ofBytes (Msg.payload ((requestMsg msgType reqHead body fd tClient).queued
      (requestLen body.length))) = requestHead reqHead body.length fd tClient := by
  rw [IPCQueMsg.payload_queued, ← requestMsg_sBuf_length msgType reqHead body fd tClient,
    bufRead_zero_length]
  exact IPCMsgHead.ofBytes_toBytes_append _ _

/-- The buffer that `read_task` fills for a frame. -/
theorem readTaskReqBuf_requestFrame (msgType : BitVec 64) (reqHead : SundaReqHead)
    {body : List UInt8} (h : sizeofReqHead + body.length < 10 ^ socketMsgHeadLen) (fd : BitVec 32)
    (tClient : ConnectHandle) :
    readTaskReqBuf (requestFrame reqHead body)
        (socketMsgHeadLen + (sizeofReqHead + body.length) : ℕ) fd tClient =
      (requestMsg msgType reqHead body fd tClient).sBuf := by
  have hpfx := Decimal.sprintf0d_length (w := socketMsgHeadLen) (by decide) h
  have hhead : readTaskHead (requestFrame reqHead body)
      (socketMsgHeadLen + (sizeofReqHead + body.length) : ℕ) fd tClient =
        requestHead reqHead body.length fd tClient := by
    rw [readTaskHead, frameReqHead_requestFrame reqHead h, cstr_reqSvcName, requestHead]
    congr 2
    push_cast
    omega
  -- the copy is as long as the whole frame, so it goes beyond the body by the prefix and the head
  have hbody : bufRead (requestFrame reqHead body) (socketMsgHeadLen + sizeofReqHead)
      (socketMsgHeadLen + (sizeofReqHead + body.length)) =
        body ++ bufRead [] 0 (socketMsgHeadLen + sizeofReqHead) := by
    have hadd := bufRead_append_add body [] (socketMsgHeadLen + sizeofReqHead)
    rw [List.append_nil] at hadd
    rw [requestFrame, bufRead_append_right _ _ (by omega), hpfx, Nat.add_sub_cancel_left,
      bufRead_append_right _ _ reqHead.toBytes_length.le, reqHead.toBytes_length, Nat.sub_self,
      ← hadd]
    congr 1
    omega
  rw [readTaskReqBuf, hhead, Int.toNat_natCast, hbody, requestMsg]

/-- `RcvTxnMsg` delivers a frame whose bytes are there in time. -/
theorem rcvTxnMsg_requestFrame {sock : Sock UInt8} {reqHead : SundaReqHead}
    {body more : List UInt8} (h : sizeofReqHead + body.length < 10 ^ socketMsgHeadLen)
    (hsock : sock.stream = requestFrame reqHead body ++ more)
    (htime : FrameInTime sock socketMsgHeadLen (sizeofReqHead + body.length)) :
    ∃ sock', rcvTxnMsg sock socketMsgHeadLen =
      ⟨0, some (requestFrame reqHead body,
        (socketMsgHeadLen + (sizeofReqHead + body.length) : ℕ)), sock'⟩ := by
  have hpfx := Decimal.sprintf0d_length (w := socketMsgHeadLen) (by decide) h
  have hat : Decimal.atoi (sock.stream.take socketMsgHeadLen) = (sizeofReqHead + body.length : ℕ) := by
    rw [hsock, requestFrame, List.append_assoc, List.take_left' hpfx,
      Decimal.atoi_sprintf0d _ (Nat.lt_trans h (by decide))]
  have hpos : 0 < sizeofReqHead + body.length := by
    rw [sizeofReqHead]
    omega
  rcases rcvTxnMsg_ret_cases sock (h := socketMsgHeadLen) (by decide) hpos hat with
    ⟨-, hret⟩ | ⟨hlate, -⟩
  · obtain ⟨n, -, hat', -, hstored, -⟩ := rcvTxnMsg_zero (by decide) hret
    obtain rfl : n = sizeofReqHead + body.length := by
      rw [hat] at hat'
      exact_mod_cast hat'.symm
    rw [hsock, List.take_left' (requestFrame_length reqHead h)] at hstored
    refine ⟨(rcvTxnMsg sock socketMsgHeadLen).sock, ?_⟩
    calc rcvTxnMsg sock socketMsgHeadLen
        = ⟨(rcvTxnMsg sock socketMsgHeadLen).ret, (rcvTxnMsg sock socketMsgHeadLen).stored,
            (rcvTxnMsg sock socketMsgHeadLen).sock⟩ := rfl
      _ = _ := by
          rw [hret, hstored]
          push_cast
          rfl
  · exact absurd htime hlate

/-- The request in a frame is queued for the server that offers the service. -/
theorem readTaskRequest_requestFrame {mb : MbCtrl} {k : SndKernel} {q : List Msg}
    {reqHead : SundaReqHead} {body : List UInt8} {e : ServerTab} (realLen : ℤ) (fd : BitVec 32)
    (tClient : ConnectHandle) (hk : k.Accepts q)
    (hsvr : FirstNamed ServerTab.svcName mb.tSvrTab (svcNameOf reqHead) e)
    (havail : e.state ≠ .unavail) (halive : e.state ≠ .dead) (htype : 0 < e.msgType.toInt)
    (hmax : (requestLen body.length : ℤ) ≤ mb.maxMsgLen.toInt)
    (hbus : requestLen body.length + sizeofLong ≤ busMaxMsgLen) :
    readTaskRequest mb k realLen q (requestFrame reqHead body)
      (socketMsgHeadLen + (sizeofReqHead + body.length) : ℕ) fd tClient =
        some (.ok (q ++ [(requestMsg e.msgType reqHead body fd tClient).queued
          (requestLen body.length)])) := by
  have hfit : sizeofReqHead + body.length < 10 ^ socketMsgHeadLen := by
    rw [requestLen, socketMsgHeadLen, busMaxMsgLen] at *
    omega
  have hbuf := readTaskReqBuf_requestFrame e.msgType reqHead hfit fd tClient
  have hsize := requestMsg_sBuf_length e.msgType reqHead body fd tClient
  have hlen : ((socketMsgHeadLen + (sizeofReqHead + body.length) : ℕ) : ℤ) + sizeofIPCMsgHead =
      (requestLen body.length : ℕ) := by
    rw [requestLen]
    omega
  have hroom : ¬ ((sizeofReadSrcBuf : ℤ) < socketMsgHeadLen + sizeofReqHead +
      (socketMsgHeadLen + (sizeofReqHead + body.length) : ℕ)) := by
    rw [requestLen, sizeofReadSrcBuf, socketMsgHeadLen, busMaxMsgLen, sizeofReqHead] at *
    omega
  have hname : cstr (reqSvcName reqHead) = cstr (svcNameOf reqHead) := by
    rw [cstr_reqSvcName, cstr_eq_self (zero_notMem_svcNameOf reqHead)]
  obtain ⟨svrno, hno, hget⟩ := tuxLocatemb_eq_some (hsvr.congr hname)
  have hpos : 0 < requestLen body.length := by
    rw [requestLen, sizeofIPCMsgHead]
    omega
  have hcall : tuxAcall mb k realLen q (some (reqSvcName reqHead))
      (some (requestMsg e.msgType reqHead body fd tClient).sBuf) (requestLen body.length : ℕ) = _ :=
    tuxAcall_eq_ok realLen hk hpos hno hget havail halive htype hmax hbus
  have hcopy : bufRead (requestMsg e.msgType reqHead body fd tClient).sBuf 0
      (requestLen body.length) = (requestMsg e.msgType reqHead body fd tClient).sBuf := by
    rw [← hsize, bufRead_zero_length]
  rw [hcopy] at hcall
  rw [readTaskRequest, if_neg hroom, frameReqHead_requestFrame reqHead hfit, hbuf, hlen, hcall]
  rfl

/-- **The first stage.** `read_task` receives the frame and queues its request. -/
theorem readTask_requestFrame {mb : MbCtrl} {k : SndKernel} {q : List Msg} {sock : Sock UInt8}
    {reqHead : SundaReqHead} {body more : List UInt8} {e : ServerTab} (realLen : ℤ) (fd : BitVec 32)
    (tClient : ConnectHandle) (hk : k.Accepts q)
    (hsock : sock.stream = requestFrame reqHead body ++ more)
    (htime : FrameInTime sock socketMsgHeadLen (sizeofReqHead + body.length))
    (hsvr : FirstNamed ServerTab.svcName mb.tSvrTab (svcNameOf reqHead) e)
    (havail : e.state ≠ .unavail) (halive : e.state ≠ .dead) (htype : 0 < e.msgType.toInt)
    (hmax : (requestLen body.length : ℤ) ≤ mb.maxMsgLen.toInt)
    (hbus : requestLen body.length + sizeofLong ≤ busMaxMsgLen) :
    (readTask mb k realLen q sock fd tClient).1 =
      .queued (q ++ [(requestMsg e.msgType reqHead body fd tClient).queued
        (requestLen body.length)]) := by
  have hfit : sizeofReqHead + body.length < 10 ^ socketMsgHeadLen := by
    rw [requestLen, socketMsgHeadLen, busMaxMsgLen] at *
    omega
  obtain ⟨sock', hrcv⟩ := rcvTxnMsg_requestFrame hfit hsock htime
  have hreq := readTaskRequest_requestFrame realLen fd tClient hk hsvr havail halive htype hmax hbus
  simp only [readTask, hrcv, hreq]

/-- **The second stage.** `tux_service` hands the body to the handler of the service. -/
theorem tuxService_request {mb : MbCtrl} {reqHead : SundaReqHead} {body : List UInt8}
    {svc : ServiceTab} {svrid : ℤ} {msgType : BitVec 64} (errno : ℤ) (fd : BitVec 32)
    (tClient : ConnectHandle)
    (hsvc : FirstNamed ServiceTab.name mb.tSvcTab (svcNameOf reqHead) svc)
    (hsvr : msgType.toInt = svrid + svrMsgTypeRoot) (htype : 0 < msgType.toInt)
    (hbus : requestLen body.length + sizeofLong ≤ busMaxMsgLen) {pre : List Msg}
    (hpre : ∀ x ∈ pre, x.mtype ≠ msgType.toInt) (post : List Msg) :
    tuxService mb none errno (pre ++ (requestMsg msgType reqHead body fd tClient).queued
        (requestLen body.length) :: post) svrid =
      .called svc.sdFun ⟨charField 33 (svcNameOf reqHead) 0, body, body.length⟩
        (requestHead reqHead body.length fd tClient) (pre ++ post) := by
  have hsize := requestMsg_sBuf_length msgType reqHead body fd tClient
  have hname := cstr_requestHead_name reqHead body.length fd tClient
  have hsame : cstr (requestHead reqHead body.length fd tClient).name.toList =
      cstr (svcNameOf reqHead) := by
    rw [hname, cstr_eq_self (zero_notMem_svcNameOf reqHead)]
  obtain ⟨i, hi, hget⟩ := tuxFindService_eq_some (show (0 : ℤ) ≤ 1 by decide) (hsvc.congr hsame)
  have hlen : (requestHead reqHead body.length fd tClient).len.toInt = body.length := by
    rw [requestLen, busMaxMsgLen] at hbus
    exact BitVec.toInt_ofInt_eq_self (by decide) (by omega) (by omega)
  rw [tuxService_of_first errno hsvr htype (by rw [requestLen, sizeofIPCMsgHead]; omega) hbus hpre,
    ← hsize, bufRead_zero_length]
  have hbusMax : sizeofIPCMsgHead + body.length ≤ busMaxMsgLen := by
    rw [requestLen] at hbus
    omega
  have hcalled := tuxDispatch_called (requestHead reqHead body.length fd tClient)
    (bufRead [] 0 (socketMsgHeadLen + sizeofReqHead)) msgType 0 (pre ++ post) hi hget hlen hbusMax
  rw [hname, List.take_of_length_le (svcNameOf_length_le reqHead)] at hcalled
  exact hcalled

/-! ### The reply -/

/-- The slots of a shard up to slot `j` are occupied, and slot `j` holds the connection with the
descriptor `fd` and the number `ssn`. -/
def InTable (m : WordMem) (num : ℕ) (fd ssn : BitVec 32) : Prop :=
  ∃ j < maxFdNum, (∀ i ≤ j, getCommClientFD m (fd.toNat % num) i ≠ -1) ∧
    getCommClientFD m (fd.toNat % num) j = fd ∧ getCommClientSsn m (fd.toNat % num) j = ssn

/-- A connection in the list of its shard is in the table. -/
theorem ShardRep.inTable {m : WordMem} {num j : ℕ} {fd ssn : BitVec 32} {l : List ConnectHandle}
    (h : ShardRep m (fd.toNat % num) l) (hj : j < l.length) (hfd : l[j].fd = fd)
    (hssn : l[j].ssn = ssn) : InTable m num fd ssn :=
  ⟨j, Nat.lt_of_lt_of_le hj h.length_le, fun _ hi ↦ h.fd_ne (Nat.lt_of_le_of_lt hi hj),
    (h.fd_eq hj).trans hfd, (h.ssn_eq hj).trans hssn⟩

/-- `get_conn_inf` finds a slot with the number of a connection in the table. -/
theorem getConnInf_of_inTable {m : WordMem} {num : ℕ} {fd ssn : BitVec 32}
    (h : InTable m num fd ssn) :
    ∃ i : ℕ, getConnInf m (fd.toNat % num) ssn = some (i : ℤ) := by
  obtain ⟨j, hj, hocc, -, hssn⟩ := h
  unfold getConnInf findSlot
  cases hfind : (List.range maxFdNum).find? fun i ↦
      getCommClientFD m (fd.toNat % num) i == -1 || getCommClientSsn m (fd.toNat % num) i == ssn with
  | none =>
    have hnot := List.find?_eq_none.1 hfind j (List.mem_range.2 hj)
    simp [hssn] at hnot
  | some i =>
    obtain ⟨-, -, hbefore⟩ := List.find?_range_eq_some.1 hfind
    -- the search ends at slot `j` at the latest
    have hij : i ≤ j := by
      by_contra hlt
      have hnot := hbefore j (by omega)
      simp [hssn] at hnot
    exact ⟨i, by rw [Option.map_some, if_pos (hocc i hij)]⟩

/-- **The last stage.** `write_task` makes a response frame of a reply whose connection is in the
table. -/
theorem writeTask_reply {m : WordMem} {num : ℕ} (head : IPCMsgHead) (rsp : List UInt8)
    (junk errno iBufLen : ℤ) (htable : InTable m num head.fd head.connSsn)
    (hfd : 0 ≤ head.fd.toInt) (hmsgType : head.reqMsgType.toInt = commSMsgTypeRoot)
    (hbus : sizeofIPCMsgHead + rsp.length + sizeofLong ≤ busMaxMsgLen) {pre : List Msg}
    (hpre : ∀ x ∈ pre, x.mtype ≠ commSMsgTypeRoot) (post : List Msg) :
    ∃ m', writeTask m num junk true none errno
        (pre ++ (⟨head.reqMsgType, 0, head.toBytes ++ rsp⟩ : IPCQueMsg).queued
          (sizeofIPCMsgHead + rsp.length) :: post) iBufLen =
      .write (pre ++ post) (sizeofIPCMsgHead + rsp.length : ℕ) m' head.fd
        (responseFrame head rsp) := by
  have hsize : (head.toBytes ++ rsp).length = sizeofIPCMsgHead + rsp.length := by
    rw [List.length_append, head.toBytes_length]
  have hpre' : ∀ x ∈ pre, x.mtype ≠ head.reqMsgType.toInt := by
    rw [hmsgType]
    exact hpre
  have hpos : 0 < sizeofIPCMsgHead + rsp.length := by
    rw [sizeofIPCMsgHead]
    omega
  have hrcv : tuxGetreply true none errno
      (pre ++ (⟨head.reqMsgType, 0, head.toBytes ++ rsp⟩ : IPCQueMsg).queued
        (sizeofIPCMsgHead + rsp.length) :: post) commSMsgTypeRoot 0 = _ :=
    tuxGetreply_of_first errno 0 hmsgType (by rw [hmsgType]; decide) hpos hbus hpre'
  rw [← hsize, bufRead_zero_length, hsize] at hrcv
  have hlen : rspLen (sizeofIPCMsgHead + rsp.length : ℕ) = (sizeofReqHead + rsp.length : ℕ) :=
    rspLen_eq (by rw [busMaxMsgLen] at hbus; rw [sizeofReqHead]; omega)
  have hframe : rspFrame (head.toBytes ++ rsp) (sizeofReqHead + rsp.length) =
      responseFrame head rsp :=
    rspFrame_eq head rsp (by
      rw [busMaxMsgLen, sizeofIPCMsgHead] at hbus
      rw [sizeofReqHead, socketMsgHeadLen]
      omega)
  obtain ⟨i, hi⟩ := getConnInf_of_inTable htable
  have hmark : writeMark m num junk head.fd head.connSsn =
      some (setCommClientStat m (head.fd.toNat % num) i fdStatWrite) := by
    simp only [writeMark, hi, Option.getD_some, Int.toNat_natCast]
    exact if_neg (by omega)
  refine ⟨setCommClientStat m (head.fd.toNat % num) i fdStatWrite, ?_⟩
  rw [writeTask, hrcv]
  simp only [writeResponse, head.ofBytes_toBytes_append, hlen, hmark, Int.toNat_natCast, hframe]
  rw [if_neg (by omega)]

/-- The response to a reply under the head of a request is the frame that the client expects. -/
theorem responseFrame_requestHead (reqHead : SundaReqHead) (n : ℕ) (fd : BitVec 32)
    (tClient : ConnectHandle) (rsp : List UInt8) :
    responseFrame ((requestHead reqHead n fd tClient).setLen rsp.length) rsp =
      replyFrame (svcNameOf reqHead) reqHead.ssn rsp := by
  have hname : charField 32 (requestHead reqHead n fd tClient).name.toList 0 =
      charField 32 (svcNameOf reqHead) 0 :=
    charField_eq_of_bufRead (bufRead_bufRead (svcNameOf reqHead) (by decide))
  have hhead : rspReqHead ((requestHead reqHead n fd tClient).setLen rsp.length) =
      ⟨charField 32 (svcNameOf reqHead) 0, reqHead.ssn, 0⟩ := by
    rw [← hname]
    rfl
  rw [responseFrame, hhead, replyFrame]

/-! ### The whole way -/

/-- **End-to-end round trip.** A frame whose bytes are there in time, for a service whose first entry in
the server table can take requests, is queued; the worker that receives it calls the handler of the
service with exactly the body; and the handler's result, once it is received by `write_task` while
the connection is still in the table, goes to that connection as exactly one response frame. -/
theorem request_reply_round_trip {mb mb' : MbCtrl} {k k' : SndKernel} {q q' : List Msg}
    {sock : Sock UInt8} {reqHead : SundaReqHead} {b more r : List UInt8} {e : ServerTab}
    {svc : ServiceTab} {svrid : ℤ} {fd : BitVec 32} (tClient : ConnectHandle) (realLen : ℤ)
    (hsock : sock.stream = requestFrame reqHead b ++ more)
    (htime : FrameInTime sock socketMsgHeadLen (sizeofReqHead + b.length))
    (hsvr : FirstNamed ServerTab.svcName mb.tSvrTab (svcNameOf reqHead) e)
    (havail : e.state ≠ .unavail) (halive : e.state ≠ .dead)
    (hsvrid : e.msgType.toInt = svrid + svrMsgTypeRoot) (htype : 0 < e.msgType.toInt)
    (hsvc : FirstNamed ServiceTab.name mb'.tSvcTab (svcNameOf reqHead) svc)
    (hmax : (requestLen b.length : ℤ) ≤ mb.maxMsgLen.toInt)
    (hbus : requestLen b.length + sizeofLong ≤ busMaxMsgLen)
    (hr : 0 < r.length) (hrmax : (r.length : ℤ) ≤ mb'.maxMsgLen.toInt)
    (hrbus : sizeofIPCMsgHead + r.length + sizeofLong ≤ busMaxMsgLen)
    (hk : k.Accepts q) (hk' : k'.Accepts q') (hfd : 0 ≤ fd.toInt) :
    ∃ m head m',
      (readTask mb k realLen q sock fd tClient).1 = .queued (q ++ [m]) ∧
      (∀ errno pre post, (∀ x ∈ pre, x.mtype ≠ m.mtype) →
        tuxService mb' none errno (pre ++ m :: post) svrid =
          .called svc.sdFun ⟨charField 33 (svcNameOf reqHead) 0, b, b.length⟩ head (pre ++ post)) ∧
      tuxReturn mb' k' realLen head q' (some r) r.length 0 = some (1, q' ++ [m']) ∧
      ∀ mem num junk errno iBufLen pre post, InTable mem num fd tClient.ssn →
        (∀ x ∈ pre, x.mtype ≠ m'.mtype) →
          ∃ mem', writeTask mem num junk true none errno (pre ++ m' :: post) iBufLen =
            .write (pre ++ post) (sizeofIPCMsgHead + r.length : ℕ) mem' fd
              (replyFrame (svcNameOf reqHead) reqHead.ssn r) := by
  let head := requestHead reqHead b.length fd tClient
  have hreply : head.reqMsgType.toInt = commSMsgTypeRoot := by
    show (BitVec.ofNat 64 commSMsgTypeRoot).toInt = _
    decide
  have hreturn : tuxReturnReply mb' k' realLen head q' (some r) r.length 0 = _ :=
    tuxReturnReply_eq_ok realLen (by decide) hk' hr (by rw [hreply]; decide) hrmax hrbus
  refine ⟨(requestMsg e.msgType reqHead b fd tClient).queued (requestLen b.length), head, _,
    readTask_requestFrame realLen fd tClient hk hsock htime hsvr havail halive htype hmax hbus,
    fun errno pre post hpre ↦ ?_, by rw [tuxReturn, hreturn]; rfl,
    fun mem num junk errno iBufLen pre post htable hpre ↦ ?_⟩
  · exact tuxService_request errno fd tClient hsvc hsvrid htype hbus hpre post
  · have hpre' : ∀ x ∈ pre, x.mtype ≠ commSMsgTypeRoot := by
      intro x hx
      exact hreply ▸ hpre x hx
    have hwrite := writeTask_reply (head.setLen r.length) r junk errno iBufLen htable hfd hreply
      hrbus hpre' post
    rw [responseFrame_requestHead] at hwrite
    exact hwrite

/-- The request head of a client that asks for `testsvr`. -/
def testsvrReqHead : SundaReqHead := ⟨charField 32 testsvrName 0, 7, 0⟩

/-- A request of two bytes and a result of one, on the descriptor 5 of a server with two reader
threads. -/
theorem request_reply_round_trip_testsvr :
    ∃ m head m' mem mem',
      (readTask testsvrMb ⟨none, none, 8192⟩ 0 [] ⟨requestFrame testsvrReqHead [65, 66], []⟩ 5
        ⟨5, 0, 100, fdStatRead⟩).1 = .queued [m] ∧
      tuxService testsvrMb none 0 [m] 1 =
        .called 7 ⟨charField 33 testsvrName 0, [65, 66], 2⟩ head [] ∧
      tuxReturn testsvrMb ⟨none, none, 8192⟩ 0 head [] (some [67]) 1 0 = some (1, [m']) ∧
      writeTask mem 2 0 true none 0 [m'] 0 =
        .write [] 97 mem' 5 (replyFrame testsvrName 7 [67]) := by
  have hname : svcNameOf testsvrReqHead = testsvrName := by decide
  have hk : SndKernel.Accepts ⟨none, none, 8192⟩ [] := ⟨rfl, rfl, by decide, by decide⟩
  have hsock : (⟨requestFrame testsvrReqHead [65, 66], []⟩ : Sock UInt8).stream =
      requestFrame testsvrReqHead [65, 66] ++ [] := by rfl
  have htime : FrameInTime (⟨requestFrame testsvrReqHead [65, 66], []⟩ : Sock UInt8)
      socketMsgHeadLen (sizeofReqHead + ([65, 66] : List UInt8).length) :=
    .of_buffered (by decide +kernel)
  have hsvr : FirstNamed ServerTab.svcName testsvrMb.tSvrTab (svcNameOf testsvrReqHead)
      ⟨1, charField 33 testsvrName 0, .idle, 300001, 20⟩ :=
    ⟨[], [], rfl, by rw [hname]; decide, by simp⟩
  have hsvrid : (300001 : BitVec 64).toInt = 1 + svrMsgTypeRoot := by decide
  have hsvc : FirstNamed ServiceTab.name testsvrMb.tSvcTab (svcNameOf testsvrReqHead)
      ⟨0, charField 33 testsvrName 0, 7⟩ :=
    ⟨[], [], rfl, by rw [hname]; decide, by simp⟩
  have hr : 0 < ([67] : List UInt8).length := by decide
  have hfd : 0 ≤ (5 : BitVec 32).toInt := by decide
  obtain ⟨m, head, m', hread, hservice, hreturn, hwrite⟩ := request_reply_round_trip
    ⟨5, 0, 100, fdStatRead⟩ 0 hsock htime hsvr (by decide) (by decide) hsvrid (by decide) hsvc
    (by decide) (by decide) hr (by decide) (by decide) hk hk hfd
  obtain ⟨mem, -, hT, -⟩ := (commInit_rep 2).1.newAccept_rep (by decide) (show 5 < 2 ^ 31 by decide)
    (by decide) 0 100
  have htable : InTable mem 2 5 0 := (hT 1 (by decide)).inTable (j := 0) (by decide) rfl rfl
  obtain ⟨mem', hwrite'⟩ := hwrite mem 2 0 0 0 [] [] htable (by simp)
  rw [hname] at hservice hwrite'
  exact ⟨m, head, m', mem, mem', hread, hservice 0 [] [] (by simp), hreturn, hwrite'⟩

/-- A table in which a dead server stands before an idle one that offers the same service. -/
def deadFirstMb : MbCtrl where
  maxMsgLen := 8096
  tSvrTab := [⟨1, charField 33 testsvrName 0, .dead, 300001, 20⟩,
    ⟨2, charField 33 testsvrName 0, .idle, 300002, 20⟩]
  tSvcTab := [⟨0, charField 33 testsvrName 0, 7⟩, ⟨0, charField 33 testsvrName 0, 7⟩]
  nsvrnum_eq := rfl

/-- A service that an idle server offers is refused when a dead server stands before it. -/
theorem readTask_deadFirst_errRsp :
    (∃ e ∈ deadFirstMb.tSvrTab, cstr e.svcName.toList = svcNameOf testsvrReqHead ∧
      e.state ≠ .unavail ∧ e.state ≠ .dead) ∧
    (∃ svc ∈ deadFirstMb.tSvcTab, cstr svc.name.toList = svcNameOf testsvrReqHead) ∧
    (readTask deadFirstMb ⟨none, none, 8192⟩ 0 [] ⟨requestFrame testsvrReqHead [65, 66], []⟩ 5
      ⟨5, 0, 100, fdStatRead⟩).1 =
        .errRsp (responseErrReq { testsvrReqHead with errNo := BitVec.ofInt 32 sysDeadSvc }) :=
  ⟨⟨_, List.mem_cons_of_mem _ (List.mem_cons_self ..), by decide, by decide, by decide⟩,
    ⟨_, List.mem_cons_self .., by decide⟩, by decide +kernel⟩

end Sunda
