import Sunda.Comm.FrontEnds
import Sunda.Comm.SyncCalls

/-!
# One frame in three front ends

`read_task` of `commserver`, `call_svr` of C001 and `ChdDoSvr` of C002 translate the same client frames: each
fills an `IPCMsgHead` from the frame, copies the rest of the frame behind it and passes the result to
`tux_acall` or `tux_call`. `Translator.passes` is what each of them passes on, and `Translator.carries_iff`
is the one argument for all three: it is the head that decides whether the request arrives.

`requests_never_alike` says that they do not agree on any frame. Two of them carry the request; `ChdDoSvr`
subtracts `COMM_L_MSG_TYPE_ROOT` from the length of the frame where the others subtract the size of its
prefix, so its head never announces the length of the body, and no handler is ever called with it.
-/

namespace Sunda

open Bytes Arrivals SysV

/-! ### What is passed on -/

/-- The arguments of `tux_acall` or `tux_call`: the name, and a buffer of which `len` bytes are queued. -/
structure Passed where
  svcName : List UInt8
  buf : List UInt8
  len : ℕ
  deriving DecidableEq

/-- The functions that translate a frame, with what they put into the head from elsewhere. -/
inductive Translator
  | readTask (socketid : BitVec 32) (tClient : ConnectHandle)
  | callSvr (pid : ℕ) (utime : BitVec 64)
  | chdDoSvr (giConnScktId : BitVec 32) (utime : BitVec 64)

namespace Translator

/-- What is passed on for a frame of `iBufLen` bytes; `none` is a copy beyond the end of an array. -/
def passes (t : Translator) (sSrcBuf : List UInt8) (iBufLen : ℕ) : Option Passed :=
  let svcName := reqSvcName (frameReqHead sSrcBuf)
  match t with
  | .readTask socketid tClient =>
    if sizeofReadSrcBuf < socketMsgHeadLen + sizeofReqHead + iBufLen then none
    else some ⟨svcName, readTaskReqBuf sSrcBuf iBufLen socketid tClient, iBufLen + sizeofIPCMsgHead⟩
  | .callSvr pid utime =>
    if iBufLen < socketMsgHeadLen + sizeofReqHead ∨ sizeofChildSrcBuf < iBufLen then none
    else
      let len := iBufLen - socketMsgHeadLen - sizeofReqHead
      some ⟨svcName, (callSvrHead sSrcBuf iBufLen pid utime).toBytes ++
        bufRead sSrcBuf (socketMsgHeadLen + sizeofReqHead) len, sizeofIPCMsgHead + len⟩
  | .chdDoSvr giConnScktId utime =>
    if sizeofReadSrcBuf < socketMsgHeadLen + sizeofReqHead + iBufLen then none
    else some ⟨svcName, chdDoSvrReqBuf sSrcBuf iBufLen giConnScktId utime, iBufLen + sizeofIPCMsgHead⟩

/-- The head that goes in front of the body. -/
def head (t : Translator) (sSrcBuf : List UInt8) (iBufLen : ℕ) : IPCMsgHead :=
  match t with
  | .readTask socketid tClient => readTaskHead sSrcBuf iBufLen socketid tClient
  | .callSvr pid utime => callSvrHead sSrcBuf iBufLen pid utime
  | .chdDoSvr giConnScktId utime => chdDoSvrHead sSrcBuf iBufLen giConnScktId utime

/-- What is subtracted from the length of the frame, apart from the size of its head. -/
def prefixLen : Translator → ℕ
  | .readTask _ _ | .callSvr _ _ => socketMsgHeadLen
  | .chdDoSvr _ _ => commLMsgTypeRoot

end Translator

theorem readTaskRequest_eq_passes (mb : MbCtrl) (k : SndKernel) (realLen : ℤ) (q : List Msg)
    (sSrcBuf : List UInt8) (iBufLen : ℕ) (socketid : BitVec 32) (tClient : ConnectHandle) :
    readTaskRequest mb k realLen q sSrcBuf iBufLen socketid tClient =
      ((Translator.readTask socketid tClient).passes sSrcBuf iBufLen).bind fun p ↦
        (tuxAcall mb k realLen q (some p.svcName) (some p.buf) p.len).map fun r ↦
          r.mapError fun tuxErrno ↦
            responseErrReq { frameReqHead sSrcBuf with errNo := BitVec.ofInt 32 tuxErrno } := by
  simp only [readTaskRequest, Translator.passes]
  by_cases h : sizeofReadSrcBuf < socketMsgHeadLen + sizeofReqHead + iBufLen
  · rw [if_pos h, if_pos (by exact_mod_cast h), Option.bind_none]
  · rw [if_neg h, if_neg (by exact_mod_cast h), Option.bind_some]
    rfl

theorem callSvr_eq_passes (mb : MbCtrl) (k : SndKernel) (tuxErrno : ℤ) (q : List Msg)
    (sSrcBuf : List UInt8) (iBufLen pid : ℕ) (utime : BitVec 64) :
    callSvr mb k tuxErrno q sSrcBuf iBufLen pid utime =
      ((Translator.callSvr pid utime).passes sSrcBuf iBufLen).bind fun p ↦
        tuxCallSend mb k 0 tuxErrno q (some p.svcName) (some p.buf) p.len true := by
  simp only [callSvr, Translator.passes]
  split <;> rfl

theorem chdDoSvr_eq_passes (mb : MbCtrl) (k : SndKernel) (realLen : ℤ) (q : List Msg)
    (sSrcBuf : List UInt8) (iBufLen : ℕ) (giConnScktId : BitVec 32) (utime : BitVec 64) :
    chdDoSvr mb k realLen q sSrcBuf iBufLen giConnScktId utime =
      ((Translator.chdDoSvr giConnScktId utime).passes sSrcBuf iBufLen).bind fun p ↦
        tuxAcall mb k realLen q (some p.svcName) (some p.buf) p.len := by
  simp only [chdDoSvr, Translator.passes]
  split <;> rfl

/-! ### Requests that arrive -/

namespace Passed

/-- The message that the bus queues. -/
def queued (p : Passed) (msgType : BitVec 64) : IPCQueMsg :=
  ⟨msgType, 0, bufRead p.buf 0 p.len⟩

/-- Name, number and body of the request, apart from the length that the head announces. -/
structure Holds (p : Passed) (reqHead : SundaReqHead) (body : List UInt8) : Prop where
  svcName : cstr p.svcName = svcNameOf reqHead
  headName : cstr (IPCMsgHead.ofBytes p.buf).name.toList = svcNameOf reqHead
  ssn : (IPCMsgHead.ofBytes p.buf).ssn = reqHead.ssn
  inside : sizeofIPCMsgHead + body.length ≤ p.len
  content : bufRead p.buf sizeofIPCMsgHead body.length = body

/-- The request arrives: the head also announces the length of the body. -/
structure Carries (p : Passed) (reqHead : SundaReqHead) (body : List UInt8) : Prop
    extends p.Holds reqHead body where
  len : (IPCMsgHead.ofBytes p.buf).len.toInt = body.length

/-- A server calls the handler of a service with the request. -/
def Handled (p : Passed) (mb : MbCtrl) (sdFun : ℕ) (sdInfo : SdInfo) : Prop :=
  ∀ msgType rest, ∃ head, tuxDispatch mb (p.queued msgType) rest = .called sdFun sdInfo head rest

/-- No server calls any handler with it. -/
def NeverHandled (p : Passed) : Prop :=
  ∀ mb msgType rest sdFun sdInfo head rest',
    tuxDispatch mb (p.queued msgType) rest ≠ .called sdFun sdInfo head rest'

end Passed

/-- **Requests are translated alike**: each of the functions passes the request on. -/
def RequestsAlike (sSrcBuf : List UInt8) (iBufLen : ℕ) (reqHead : SundaReqHead) (body : List UInt8) :
    Prop :=
  ∀ t : Translator, ∃ p, t.passes sSrcBuf iBufLen = some p ∧ p.Carries reqHead body

/-! ### One frame -/

/-- The length of a whole frame. -/
def frameLen (body : List UInt8) : ℕ := socketMsgHeadLen + (sizeofReqHead + body.length)

section Frame

variable {reqHead : SundaReqHead} {body : List UInt8}

/-- The bytes behind the two heads of the frame, and some of the zeros behind it. -/
theorem bufRead_requestFrame (h : sizeofReqHead + body.length < 10 ^ socketMsgHeadLen) {n : ℕ}
    (hn : body.length ≤ n) : ∃ more, bufRead (requestFrame reqHead body)
      (socketMsgHeadLen + sizeofReqHead) n = body ++ more := by
  have hpfx := Decimal.sprintf0d_length (w := socketMsgHeadLen) (by decide) h
  obtain ⟨k, rfl⟩ := Nat.exists_eq_add_of_le hn
  have hadd := bufRead_append_add body [] k
  rw [List.append_nil] at hadd
  refine ⟨bufRead [] 0 k, ?_⟩
  rw [requestFrame, bufRead_append_right _ _ (by omega), hpfx, Nat.add_sub_cancel_left,
    bufRead_append_right _ _ reqHead.toBytes_length.le, reqHead.toBytes_length, Nat.sub_self, hadd]

/-- What a translator passes on is the name, its head and the body, with something behind it. -/
theorem Translator.of_passes (h : sizeofReqHead + body.length < 10 ^ socketMsgHeadLen) {t : Translator}
    {p : Passed} (hp : t.passes (requestFrame reqHead body) (frameLen body) = some p) :
    p.svcName = reqSvcName reqHead ∧ sizeofIPCMsgHead + body.length ≤ p.len ∧
      ∃ more, p.buf = (t.head (requestFrame reqHead body) (frameLen body)).toBytes ++ (body ++ more) := by
  have hname := frameReqHead_requestFrame reqHead h
  have hle : body.length ≤ frameLen body := by
    rw [frameLen]
    omega
  have hinside : sizeofIPCMsgHead + body.length ≤ frameLen body + sizeofIPCMsgHead := by
    omega
  cases t with
  | readTask socketid tClient =>
    simp only [passes] at hp
    split at hp
    · cases hp
    · obtain rfl := Option.some.inj hp
      obtain ⟨more, hmore⟩ := bufRead_requestFrame h hle
      refine ⟨congrArg reqSvcName hname, hinside, more, ?_⟩
      show readTaskReqBuf _ _ _ _ = _
      rw [readTaskReqBuf, Int.toNat_natCast, hmore]
      rfl
  | callSvr pid utime =>
    simp only [passes] at hp
    split at hp
    · cases hp
    · obtain rfl := Option.some.inj hp
      have hbody : frameLen body - socketMsgHeadLen - sizeofReqHead = body.length := by
        rw [frameLen]
        omega
      obtain ⟨more, hmore⟩ := bufRead_requestFrame h le_rfl
      refine ⟨congrArg reqSvcName hname, ?_, more, ?_⟩
      · show _ ≤ sizeofIPCMsgHead + _
        rw [hbody]
      · show _ ++ bufRead _ _ _ = _
        rw [hbody, hmore]
        rfl
  | chdDoSvr giConnScktId utime =>
    simp only [passes] at hp
    split at hp
    · cases hp
    · obtain rfl := Option.some.inj hp
      obtain ⟨more, hmore⟩ := bufRead_requestFrame h hle
      refine ⟨congrArg reqSvcName hname, hinside, more, ?_⟩
      show chdDoSvrReqBuf _ _ _ _ = _
      rw [chdDoSvrReqBuf, hmore]
      rfl

/-- The head has the name and the number of the frame. -/
theorem Translator.head_name (t : Translator) (sSrcBuf : List UInt8) (iBufLen : ℕ) :
    (t.head sSrcBuf iBufLen).name = charField 33 (cstr (reqSvcName (frameReqHead sSrcBuf))) 0 := by
  cases t <;> rfl

theorem Translator.head_ssn (t : Translator) (sSrcBuf : List UInt8) (iBufLen : ℕ) :
    (t.head sSrcBuf iBufLen).ssn = (frameReqHead sSrcBuf).ssn := by
  cases t <;> rfl

/-- And the length of the frame without what is taken for its prefix. -/
theorem Translator.head_len (t : Translator) (sSrcBuf : List UInt8)
    (h : sizeofReqHead + body.length < 10 ^ socketMsgHeadLen) :
    (t.head sSrcBuf (frameLen body)).len.toInt =
      (socketMsgHeadLen : ℤ) + body.length - t.prefixLen := by
  have hlen : (t.head sSrcBuf (frameLen body)).len =
      BitVec.ofInt 64 ((frameLen body : ℕ) - t.prefixLen - sizeofReqHead) := by
    cases t <;> rfl
  have hprefix : t.prefixLen ≤ commLMsgTypeRoot := by
    cases t
    · show socketMsgHeadLen ≤ commLMsgTypeRoot
      decide
    · show socketMsgHeadLen ≤ commLMsgTypeRoot
      decide
    · exact le_rfl
  rw [hlen, BitVec.toInt_ofInt, Int.bmod_def, frameLen]
  rw [socketMsgHeadLen, sizeofReqHead] at *
  rw [commLMsgTypeRoot] at hprefix
  omega

/-- Each of the three passes on the name, the number and the body. -/
theorem Translator.holds (h : sizeofReqHead + body.length < 10 ^ socketMsgHeadLen) {t : Translator}
    {p : Passed} (hp : t.passes (requestFrame reqHead body) (frameLen body) = some p) :
    p.Holds reqHead body := by
  obtain ⟨hname, hlen, more, hbuf⟩ := of_passes h hp
  have hhead : IPCMsgHead.ofBytes p.buf = t.head (requestFrame reqHead body) (frameLen body) := by
    rw [hbuf, IPCMsgHead.ofBytes_toBytes_append]
  refine ⟨?_, ?_, ?_, hlen, ?_⟩
  · rw [hname, cstr_reqSvcName]
  · rw [hhead, t.head_name, frameReqHead_requestFrame reqHead h, cstr_reqSvcName]
    exact cstr_bufRead (zero_notMem_svcNameOf reqHead) (Nat.le_succ_of_le (svcNameOf_length_le reqHead))
  · rw [hhead, t.head_ssn, frameReqHead_requestFrame reqHead h]
  · rw [hbuf, bufRead_append_right _ _ (by rw [IPCMsgHead.toBytes_length]), IPCMsgHead.toBytes_length,
      Nat.sub_self, bufRead_append_zero _ _ rfl]

/-- The length that arrives. -/
theorem Translator.passed_len (h : sizeofReqHead + body.length < 10 ^ socketMsgHeadLen) {t : Translator}
    {p : Passed} (hp : t.passes (requestFrame reqHead body) (frameLen body) = some p) :
    (IPCMsgHead.ofBytes p.buf).len.toInt = (socketMsgHeadLen : ℤ) + body.length - t.prefixLen := by
  obtain ⟨-, -, more, hbuf⟩ := of_passes h hp
  rw [hbuf, IPCMsgHead.ofBytes_toBytes_append, t.head_len _ h]

/-- **The request arrives** exactly when the right prefix is subtracted. -/
theorem Translator.carries_iff (h : sizeofReqHead + body.length < 10 ^ socketMsgHeadLen)
    {t : Translator} {p : Passed}
    (hp : t.passes (requestFrame reqHead body) (frameLen body) = some p) :
    p.Carries reqHead body ↔ t.prefixLen = socketMsgHeadLen := by
  have hlen := passed_len h hp
  constructor
  · intro hc
    rw [hc.len] at hlen
    omega
  · intro ht
    rw [ht] at hlen
    exact ⟨holds h hp, by omega⟩

/-- A frame within the limits of the queue overruns no array. -/
theorem Translator.exists_passes (h : requestLen body.length + sizeofLong ≤ busMaxMsgLen)
    (t : Translator) (sSrcBuf : List UInt8) : ∃ p, t.passes sSrcBuf (frameLen body) = some p := by
  have hroom : ¬ sizeofReadSrcBuf < socketMsgHeadLen + sizeofReqHead + frameLen body := by
    rw [frameLen]
    rw [requestLen, sizeofReadSrcBuf, socketMsgHeadLen, busMaxMsgLen, sizeofReqHead] at *
    omega
  cases t with
  | readTask socketid tClient => exact ⟨_, if_neg hroom⟩
  | callSvr pid utime =>
    refine ⟨_, if_neg ?_⟩
    rw [frameLen, sizeofChildSrcBuf]
    rw [requestLen, socketMsgHeadLen, busMaxMsgLen, sizeofReqHead] at *
    omega
  | chdDoSvr giConnScktId utime => exact ⟨_, if_neg hroom⟩

/-- A head behind a copy that covers it. -/
theorem ofBytes_bufRead (bs : List UInt8) {n : ℕ} (h : sizeofIPCMsgHead ≤ n) :
    IPCMsgHead.ofBytes (bufRead bs 0 n) = IPCMsgHead.ofBytes bs := by
  have hread {off w : ℕ} (hoff : off + w ≤ sizeofIPCMsgHead) :
      bufRead (bufRead bs 0 n) off w = bufRead bs off w := by
    rw [bufRead_bufRead _ (by omega), Nat.zero_add]
  ext1
  · exact Subtype.ext (hread (by decide))
  all_goals exact congrArg (fun cs ↦ BitVec.ofNat _ (leValue cs)) (hread (by decide))

/-- The request of `ChdDoSvr` does not reach a handler: its head announces a negative length. -/
theorem Translator.neverHandled (h : sizeofReqHead + body.length < 10 ^ socketMsgHeadLen)
    {giConnScktId : BitVec 32} {utime : BitVec 64} {p : Passed}
    (hp : (Translator.chdDoSvr giConnScktId utime).passes (requestFrame reqHead body) (frameLen body) =
      some p) : p.NeverHandled := by
  intro mb msgType rest sdFun sdInfo head rest' hcalled
  have hneg : (IPCMsgHead.ofBytes (p.queued msgType).sBuf).len.toInt < 0 := by
    have hin := (holds h hp).inside
    have hlen := passed_len h hp
    rw [prefixLen, socketMsgHeadLen, commLMsgTypeRoot] at hlen
    rw [sizeofReqHead, socketMsgHeadLen] at h
    rw [Passed.queued, ofBytes_bufRead _ (by omega), hlen]
    omega
  simp only [tuxDispatch] at hcalled
  split at hcalled
  · cases hcalled
  · split at hcalled
    · omega
    · cases hcalled

/-- A request that arrives reaches the handler, with the name and the body. -/
theorem Passed.Carries.handled {p : Passed} (hc : p.Carries reqHead body)
    (h : requestLen body.length + sizeofLong ≤ busMaxMsgLen) {mb : MbCtrl} {svc : ServiceTab}
    (hsvc : FirstNamed ServiceTab.name mb.tSvcTab (svcNameOf reqHead) svc) :
    p.Handled mb svc.sdFun ⟨charField 33 (svcNameOf reqHead) 0, body, body.length⟩ := by
  intro msgType rest
  have hhead : IPCMsgHead.ofBytes (bufRead p.buf 0 p.len) = IPCMsgHead.ofBytes p.buf := by
    have hin := hc.inside
    exact ofBytes_bufRead _ (by omega)
  have hbody : bufRead (bufRead p.buf 0 p.len) sizeofIPCMsgHead body.length = body := by
    rw [bufRead_bufRead _ hc.inside, Nat.zero_add, hc.content]
  have hsame : cstr (IPCMsgHead.ofBytes p.buf).name.toList = cstr (svcNameOf reqHead) := by
    rw [hc.headName, cstr_eq_self (zero_notMem_svcNameOf reqHead)]
  obtain ⟨i, hi, hget⟩ := tuxFindService_eq_some (show (0 : ℤ) ≤ 1 by decide) (hsvc.congr hsame)
  refine ⟨IPCMsgHead.ofBytes p.buf, ?_⟩
  simp only [tuxDispatch, queued, hhead, hi, Option.bind_some, hget, hc.len, Int.toNat_natCast, hbody,
    hc.headName, List.take_of_length_le (svcNameOf_length_le reqHead)]
  refine if_pos ⟨by omega, ?_⟩
  rw [requestLen] at h
  omega

end Frame

/-- **No frame is translated alike.** For every frame that `RcvTxnMsg` delivers, `ChdDoSvr` passes on the
name, the number and the body, but not the length, and its request never reaches a handler; the other two
carry the request within the limits of the queue, and their handler gets the same data. -/
theorem requests_never_alike {sock : Sock UInt8} {reqHead : SundaReqHead} {body more : List UInt8}
    (h : sizeofReqHead + body.length < 10 ^ socketMsgHeadLen)
    (hsock : sock.stream = requestFrame reqHead body ++ more)
    (htime : FrameInTime sock socketMsgHeadLen (sizeofReqHead + body.length)) :
    (∃ sock', rcvTxnMsg sock socketMsgHeadLen =
      ⟨0, some (requestFrame reqHead body, (frameLen body : ℕ)), sock'⟩) ∧
    ¬ RequestsAlike (requestFrame reqHead body) (frameLen body) reqHead body ∧
    (∀ giConnScktId utime p, (Translator.chdDoSvr giConnScktId utime).passes (requestFrame reqHead body)
      (frameLen body) = some p → p.Holds reqHead body ∧ p.NeverHandled) ∧
    (requestLen body.length + sizeofLong ≤ busMaxMsgLen → ∀ t : Translator,
      t.prefixLen = socketMsgHeadLen → ∃ p, t.passes (requestFrame reqHead body) (frameLen body) = some p ∧
        p.Carries reqHead body ∧ ∀ mb svc,
          FirstNamed ServiceTab.name mb.tSvcTab (svcNameOf reqHead) svc →
            p.Handled mb svc.sdFun ⟨charField 33 (svcNameOf reqHead) 0, body, body.length⟩) := by
  refine ⟨rcvTxnMsg_requestFrame h hsock htime, fun halike ↦ ?_, fun giConnScktId utime p hp ↦ ?_,
    fun hlimit t ht ↦ ?_⟩
  · obtain ⟨p, hp, hc⟩ := halike (.chdDoSvr 0 0)
    exact absurd ((Translator.carries_iff h hp).1 hc) (by decide)
  · exact ⟨Translator.holds h hp, Translator.neverHandled h hp⟩
  · obtain ⟨p, hp⟩ := t.exists_passes hlimit (requestFrame reqHead body)
    have hc := (Translator.carries_iff h hp).2 ht
    exact ⟨p, hp, hc, fun mb svc hsvc ↦ hc.handled hlimit hsvc⟩

/-- A request of two bytes to `testsvr`, received in one piece. -/
theorem requests_never_alike_testsvr :
    (∃ sock', rcvTxnMsg ⟨requestFrame testsvrReqHead [65, 66], []⟩ socketMsgHeadLen =
      ⟨0, some (requestFrame testsvrReqHead [65, 66], (46 : ℕ)), sock'⟩) ∧
    ¬ RequestsAlike (requestFrame testsvrReqHead [65, 66]) 46 testsvrReqHead [65, 66] := by
  have hsock : (⟨requestFrame testsvrReqHead [65, 66], []⟩ : Sock UInt8).stream =
      requestFrame testsvrReqHead [65, 66] ++ [] := by rfl
  have htime : FrameInTime (⟨requestFrame testsvrReqHead [65, 66], []⟩ : Sock UInt8)
      socketMsgHeadLen (sizeofReqHead + ([65, 66] : List UInt8).length) :=
    .of_buffered (by decide +kernel)
  have h := requests_never_alike (by decide) hsock htime
  exact ⟨h.1, h.2.1⟩

/-- `ChdDoSvr` announces -199994 bytes for the two bytes of a request. -/
theorem chdDoSvr_announces_negative_len :
    ¬ RequestsAlike (requestFrame testsvrReqHead [65, 66]) 46 testsvrReqHead [65, 66] := by
  intro halike
  obtain ⟨p, hp, hc⟩ := halike (.chdDoSvr 0 0)
  have hlen : (IPCMsgHead.ofBytes p.buf).len.toInt = -199994 :=
    Translator.passed_len (by decide) hp
  rw [hc.len] at hlen
  exact absurd hlen (by decide)

end Sunda
