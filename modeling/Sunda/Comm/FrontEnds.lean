import Sunda.Base.Guarded
import Sunda.Comm.Commserver.RoundTrip
import Sunda.Tux.NotedQueues
import Sunda.Tux.ServiceReply

/-!
# Asynchronous front ends

Any number of front ends use the two queues: instances of `commserver`, which ask for replies of the type
`COMM_S_MSG_TYPE_ROOT` and receive by it, and instances of C002 (`comm/C002/C002.c`), which ask for the
type `COMM_L_MSG_TYPE_ROOT` in `ChdDoSvr` and receive in `ChdDoClt` by that number plus the server id. A
run is any interleaving of their requests, of servers that take and answer them, and of receives. The
notes say which front end a message belongs to.

`replies_reach_front_end_iff` says for which sets of front ends all replies reach their front end, and
nobody else, in every run: there is one `commserver`, and if C002 gets replies at all, it is a single one
with the server id 0. It gets none from a server that dies on its requests: `ChdDoSvr` subtracts
`COMM_L_MSG_TYPE_ROOT` from the length of a frame instead of the size of a prefix, so the head announces a
negative length, and `tux_service` copies as many bytes to the `NULL` of `tux_alloc`. What the program
does from there on is open, so it is a parameter, `survives`.
-/

namespace Sunda

open Bytes SysV

/-! ### `ChdDoSvr` -/

/-- The `ipcMsgHead` that `ChdDoSvr` fills for a frame of `iBufLen` bytes. -/
def chdDoSvrHead (sSrcBuf : List UInt8) (iBufLen : ℤ) (giConnScktId : BitVec 32) (utime : BitVec 64) :
    IPCMsgHead where
  name := charField 33 (cstr (reqSvcName (frameReqHead sSrcBuf))) 0
  ssn := (frameReqHead sSrcBuf).ssn
  connSsn := 0
  reqMsgType := BitVec.ofNat 64 commLMsgTypeRoot
  fd := giConnScktId
  utime := utime
  replyFlag := BitVec.ofNat 32 replyFlagAsyn
  noteMsgType := 0
  len := BitVec.ofInt 64 (iBufLen - commLMsgTypeRoot - sizeofReqHead)

/-- `sReqBuf` of `ChdDoSvr`, as far as `tux_acall` gets it. -/
def chdDoSvrReqBuf (sSrcBuf : List UInt8) (iBufLen : ℕ) (giConnScktId : BitVec 32)
    (utime : BitVec 64) : List UInt8 :=
  (chdDoSvrHead sSrcBuf iBufLen giConnScktId utime).toBytes ++
    bufRead sSrcBuf (socketMsgHeadLen + sizeofReqHead) iBufLen

/-- `ChdDoSvr` once a frame is received. `none` is a copy beyond the end of a local array, which are of
the sizes that `read_task` has. -/
def chdDoSvr (mb : MbCtrl) (k : SndKernel) (realLen : ℤ) (q : List Msg) (sSrcBuf : List UInt8)
    (iBufLen : ℕ) (giConnScktId : BitVec 32) (utime : BitVec 64) : Option (Except ℤ (List Msg)) :=
  if sizeofReadSrcBuf < socketMsgHeadLen + sizeofReqHead + iBufLen then none
  else
    tuxAcall mb k realLen q (some (reqSvcName (frameReqHead sSrcBuf)))
      (some (chdDoSvrReqBuf sSrcBuf iBufLen giConnScktId utime)) (iBufLen + sizeofIPCMsgHead : ℕ)

/-! ### Front ends -/

/-- A front end; an instance of C002 has a server id. -/
inductive FrontEnd
  | commserver
  | c002 (gSvrId : BitVec 32)
  deriving DecidableEq

namespace FrontEnd

/-- The type of reply that a front end asks for. -/
def reqMsgType : FrontEnd → ℤ
  | .commserver => commSMsgTypeRoot
  | .c002 _ => commLMsgTypeRoot

/-- The type by which it receives, an `int`. -/
def cd : FrontEnd → ℤ
  | .commserver => commSMsgTypeRoot
  | .c002 gSvrId => (BitVec.ofNat 32 commLMsgTypeRoot + gSvrId).toInt

/-- The request queue once the front end has queued the request in a frame, if it did. -/
def request (f : FrontEnd) (mb : MbCtrl) (k : SndKernel) (realLen : ℤ) (q : List Msg)
    (sSrcBuf : List UInt8) (iBufLen : ℕ) (socketid : BitVec 32) (tClient : ConnectHandle)
    (utime : BitVec 64) : Option (List Msg) :=
  match f with
  | .commserver =>
    match readTaskRequest mb k realLen q sSrcBuf iBufLen socketid tClient with
    | some (.ok q') => some q'
    | _ => none
  | .c002 _ =>
    match chdDoSvr mb k realLen q sSrcBuf iBufLen socketid utime with
    | some (.ok q') => some q'
    | _ => none

end FrontEnd

/-! ### The system -/

/-- The queues and the handlers that run, each message with the index of its front end, and the history:
the replies that were queued, and who dequeued a reply of whom. -/
structure FrontState where
  reqQue : List (Noted Msg ℕ)
  serving : List (Noted IPCMsgHead ℕ)
  rspQue : List (Noted Msg ℕ)
  replied : List (Noted Msg ℕ)
  taken : List (ℕ × ℕ)

/-- The steps. Their arguments are what the program does not decide. -/
inductive FrontAct
  | request (i : ℕ) (mb : MbCtrl) (k : SndKernel) (realLen : ℤ) (sSrcBuf : List UInt8) (iBufLen : ℕ)
      (socketid : BitVec 32) (tClient : ConnectHandle) (utime : BitVec 64)
  | service (mb : MbCtrl) (fault : Option Errno) (errno svrid : ℤ)
  | handlerReturn (i : ℕ) (mb : MbCtrl) (k : SndKernel) (args : TuxReturnArgs)
  | clean (fault : Option Errno) (msgType : ℤ)
  | getreply (i : ℕ) (attached : Bool) (fault : Option Errno) (errno : ℤ)

/-- The heads with which a server goes on to its handler. -/
def Service.handled (survives : Bool) : Service → Option IPCMsgHead
  | .called _ _ head _ => some head
  | .fault head _ => if survives then some head else none
  | .waiting | .again _ | .ret _ _ => none

/-- One step of a set of front ends and of the servers. -/
def frontStep (fs : List FrontEnd) (survives : Bool) (s : FrontState) : FrontAct → Option FrontState
  | .request i mb k realLen sSrcBuf iBufLen socketid tClient utime =>
    fs[i]?.map fun f ↦
      match f.request mb k realLen (plain s.reqQue) sSrcBuf iBufLen socketid tClient utime with
      | some q' => { s with reqQue := sent s.reqQue q' i }
      | none => s
  | .service mb fault errno svrid =>
    let r := tuxService mb fault errno (plain s.reqQue) svrid
    let p := received (svrid + svrMsgTypeRoot) s.reqQue (r.rest (plain s.reqQue))
    some { s with
      reqQue := p.2
      serving :=
        match r.handled survives, p.1 with
        | some head, some note => s.serving ++ [⟨head, note⟩]
        | _, _ => s.serving }
  | .handlerReturn i mb k a =>
    s.serving[i]?.map fun h ↦
      let s' := { s with serving := s.serving.eraseIdx i }
      match tuxReturn mb k a.realLen h.msg (plain s.rspQue) a.rsp a.rsplen a.flags with
      | none => s'
      | some (_, q') => { s' with
          rspQue := sent s.rspQue q' h.note
          replied := s.replied ++ added s.rspQue q' h.note }
  | .clean fault msgType =>
    let rest := cleanTaskMsg fault (plain s.reqQue) msgType
    some { s with reqQue := (received msgType s.reqQue rest).2 }
  | .getreply i attached fault errno =>
    fs[i]?.map fun f ↦
      let rest := (tuxGetreply attached fault errno (plain s.rspQue) f.cd 0).rest (plain s.rspQue)
      let p := received f.cd s.rspQue rest
      { s with
        rspQue := p.2
        taken := s.taken ++ p.1.toList.map fun note ↦ (i, note) }

/-- The state before the first request. -/
def frontInit : FrontState := ⟨[], [], [], [], []⟩

def frontSystem (fs : List FrontEnd) (survives : Bool) : Guarded FrontState FrontAct :=
  .ofFn (· = frontInit) (frontStep fs survives)

/-! ### The property -/

/-- Each queued reply has the type by which its front end receives, and whoever dequeued one is the front
end of it. -/
structure RepliesReach (fs : List FrontEnd) (s : FrontState) : Prop where
  type : ∀ x ∈ s.replied, ∃ f, fs[x.note]? = some f ∧ x.msg.mtype = f.cd
  owner : ∀ p ∈ s.taken, p.1 = p.2

/-- It is so in every run. -/
def RepliesAlwaysReach (fs : List FrontEnd) (survives : Bool) : Prop :=
  ∀ s, (frontSystem fs survives).Reach Guarded.always s → RepliesReach fs s

/-- The server ids of different instances of C002 are different. -/
def DistinctSvrIds (fs : List FrontEnd) : Prop :=
  ∀ (i j : ℕ) (gSvrId : BitVec 32), fs[i]? = some (.c002 gSvrId) →
    fs[j]? = some (.c002 gSvrId) → i = j

/-! ### The condition -/

/-- One `commserver`, whose replies no instance of C002 receives; and where C002 gets replies, the server
id 0. -/
structure FrontEndsOk (fs : List FrontEnd) (survives : Bool) : Prop where
  commserver : ∀ i j : ℕ, fs[i]? = some .commserver → fs[j]? = some .commserver → i = j
  apart : .commserver ∈ fs → ∀ gSvrId, .c002 gSvrId ∈ fs →
    ¬ Takes (FrontEnd.c002 gSvrId).cd commSMsgTypeRoot
  c002 : survives = true → ∀ gSvrId, .c002 gSvrId ∈ fs → gSvrId = 0

/-- Requests of this front end can be answered. -/
def FrontEnd.Answered (f : FrontEnd) (survives : Bool) : Prop :=
  f = .commserver ∨ survives = true

namespace FrontEndsOk

variable {fs : List FrontEnd} {survives : Bool} {i j : ℕ} {f g : FrontEnd}

theorem cd_eq (h : FrontEndsOk fs survives) (hf : fs[i]? = some f) (hans : f.Answered survives) :
    f.reqMsgType = f.cd := by
  cases f with
  | commserver => rfl
  | c002 gSvrId =>
    obtain hsurv : survives = true := hans.resolve_left (by simp)
    rw [h.c002 hsurv gSvrId (List.mem_of_getElem? hf)]
    rfl

/-- Nobody else receives the replies of a front end. -/
theorem eq_of_takes (h : FrontEndsOk fs survives) (hids : DistinctSvrIds fs) (hf : fs[i]? = some f)
    (hg : fs[j]? = some g) (hans : f.Answered survives) (ht : Takes g.cd f.reqMsgType) : j = i := by
  cases f with
  | commserver =>
    cases g with
    | commserver => exact h.commserver j i hg hf
    | c002 v =>
      exact absurd ht (h.apart (List.mem_of_getElem? hf) v (List.mem_of_getElem? hg))
  | c002 u =>
    obtain hsurv : survives = true := hans.resolve_left (by simp)
    obtain rfl := h.c002 hsurv u (List.mem_of_getElem? hf)
    cases g with
    | commserver => exact absurd ht (by decide)
    | c002 v =>
      obtain rfl := h.c002 hsurv v (List.mem_of_getElem? hg)
      exact hids j i 0 hg hf

end FrontEndsOk

/-! ### The requests of a front end -/

/-- What the head of a request says: the type of its front end, and for C002 a negative length. -/
def FrontEnd.HeadOf (f : FrontEnd) (head : IPCMsgHead) : Prop :=
  head.reqMsgType.toInt = f.reqMsgType ∧ (f ≠ .commserver → head.len.toInt < 0)

/-- The length that `ChdDoSvr` announces. -/
theorem chdDoSvrHead_len (sSrcBuf : List UInt8) {iBufLen : ℕ}
    (h : socketMsgHeadLen + sizeofReqHead + iBufLen ≤ sizeofReadSrcBuf) (giConnScktId : BitVec 32)
    (utime : BitVec 64) : (chdDoSvrHead sSrcBuf iBufLen giConnScktId utime).len.toInt < 0 := by
  show (BitVec.ofInt 64 _).toInt < 0
  rw [BitVec.toInt_ofInt, Int.bmod_def, commLMsgTypeRoot, sizeofReqHead]
  rw [socketMsgHeadLen, sizeofReqHead, sizeofReadSrcBuf] at h
  omega

/-- What a front end queues is one request of its own. -/
theorem FrontEnd.of_request {f : FrontEnd} {mb : MbCtrl} {k : SndKernel} {realLen : ℤ}
    {q q' : List Msg} {sSrcBuf : List UInt8} {iBufLen : ℕ} {socketid : BitVec 32}
    {tClient : ConnectHandle} {utime : BitVec 64}
    (h : f.request mb k realLen q sSrcBuf iBufLen socketid tClient utime = some q') :
    ∃ m, q' = q ++ [m] ∧ f.HeadOf (.ofBytes (Msg.payload m)) := by
  cases f with
  | commserver =>
    rw [FrontEnd.request] at h
    split at h
    · next q1 hreq =>
      obtain rfl := Option.some.inj h
      obtain ⟨m, hq, hp, -⟩ := of_readTaskRequest_ok hreq
      refine ⟨m, hq, ?_, fun hne ↦ absurd rfl hne⟩
      rw [hp, readTaskReqBuf, IPCMsgHead.ofBytes_toBytes_append]
      rfl
    · cases h
  | c002 gSvrId =>
    rw [FrontEnd.request] at h
    split at h
    · next q1 hreq =>
      obtain rfl := Option.some.inj h
      rw [chdDoSvr] at hreq
      split at hreq
      · cases hreq
      · next hlen =>
        have hpos : 0 < iBufLen + sizeofIPCMsgHead := by
          rw [sizeofIPCMsgHead]
          omega
        obtain ⟨_, e, -, -, -, -, -, -, rfl⟩ := of_tuxAcall_ok hpos hreq
        have hbuf : (chdDoSvrReqBuf sSrcBuf iBufLen socketid utime).length =
            iBufLen + sizeofIPCMsgHead := by
          rw [chdDoSvrReqBuf, List.length_append, IPCMsgHead.toBytes_length, bufRead_length,
            Nat.add_comm]
        refine ⟨_, rfl, ?_⟩
        rw [IPCQueMsg.payload_queued, bufRead_bufRead _ (by omega), Nat.zero_add, ← hbuf,
          bufRead_zero_length, chdDoSvrReqBuf, IPCMsgHead.ofBytes_toBytes_append]
        exact ⟨rfl, fun _ ↦ chdDoSvrHead_len sSrcBuf (by omega) socketid utime⟩
    · cases h

/-- A server that goes on with a request has its head; it calls the handler, so the length is not
negative, or it survived a copy. -/
theorem Service.handled_eq_some {survives : Bool} {mb : MbCtrl} {fault : Option Errno}
    {errno svrid : ℤ} {q : List Msg} {head : IPCMsgHead}
    (h : (tuxService mb fault errno q svrid).handled survives = some head) :
    (tuxService mb fault errno q svrid).head = some head ∧
      (0 ≤ head.len.toInt ∨ survives = true) := by
  cases hr : tuxService mb fault errno q svrid with
  | called sdFun sdInfo head' rest =>
    rw [hr] at h
    obtain rfl := Option.some.inj h
    exact ⟨rfl, .inl (len_of_tuxService_called hr)⟩
  | fault head' rest =>
    rw [hr, Service.handled] at h
    split at h
    · next hsurv =>
      obtain rfl := Option.some.inj h
      exact ⟨rfl, .inr hsurv⟩
    · cases h
  | waiting => rw [hr] at h; cases h
  | again rest => rw [hr] at h; cases h
  | ret rc rest => rw [hr] at h; cases h

/-! ### The invariant -/

/-- Requests, handlers and replies ask for the type of their front end, and only front ends that can be
answered have the latter two. -/
structure FrontInv (fs : List FrontEnd) (survives : Bool) (s : FrontState) : Prop where
  reqQue : ∀ x ∈ s.reqQue, ∃ f, fs[x.note]? = some f ∧ f.HeadOf (.ofBytes (Msg.payload x.msg))
  serving : ∀ x ∈ s.serving, ∃ f, fs[x.note]? = some f ∧ f.Answered survives ∧
    x.msg.reqMsgType.toInt = f.reqMsgType
  rspQue : ∀ x ∈ s.rspQue, ∃ f, fs[x.note]? = some f ∧ f.Answered survives ∧
    x.msg.mtype = f.reqMsgType
  type : ∀ x ∈ s.replied, ∃ f, fs[x.note]? = some f ∧ x.msg.mtype = f.cd
  owner : ∀ p ∈ s.taken, p.1 = p.2

theorem frontInv_init (fs : List FrontEnd) (survives : Bool) : FrontInv fs survives frontInit where
  reqQue _ hx := absurd hx List.not_mem_nil
  serving _ hx := absurd hx List.not_mem_nil
  rspQue _ hx := absurd hx List.not_mem_nil
  type _ hx := absurd hx List.not_mem_nil
  owner _ hp := absurd hp List.not_mem_nil

namespace FrontInv

variable {fs : List FrontEnd} {survives : Bool} {s s' : FrontState}

theorem request (h : FrontInv fs survives s) {i : ℕ} {mb : MbCtrl} {k : SndKernel} {realLen : ℤ}
    {sSrcBuf : List UInt8} {iBufLen : ℕ} {socketid : BitVec 32} {tClient : ConnectHandle}
    {utime : BitVec 64} (hs : frontStep fs survives s
      (.request i mb k realLen sSrcBuf iBufLen socketid tClient utime) = some s') :
    FrontInv fs survives s' := by
  obtain ⟨f, hf, rfl⟩ := Option.map_eq_some_iff.1 hs
  split
  · next q' hreq =>
    obtain ⟨m, rfl, hm⟩ := FrontEnd.of_request hreq
    refine { h with reqQue := fun x hx ↦ ?_ }
    rw [sent, added_append] at hx
    rcases List.mem_append.1 hx with hx | hx
    · exact h.reqQue x hx
    · obtain rfl := List.mem_singleton.1 hx
      exact ⟨f, hf, hm⟩
  · exact h

theorem service (h : FrontInv fs survives s) {mb : MbCtrl} {fault : Option Errno} {errno svrid : ℤ}
    (hs : frontStep fs survives s (.service mb fault errno svrid) = some s') :
    FrontInv fs survives s' := by
  rw [frontStep, Option.some.injEq] at hs
  rcases tuxService_cases mb fault errno svrid s.reqQue rfl with ⟨hrest, hhead⟩ |
    ⟨pre, x, post, hq, -, hrec, hhead⟩
  · rw [hrest, received_self] at hs
    rw [← hs]
    dsimp only
    split
    · next heq => cases heq
    · exact h
  · rw [hrec] at hs
    rw [← hs]
    have hx : x ∈ s.reqQue := hq ▸ List.mem_append_right _ List.mem_cons_self
    refine { h with reqQue := fun y hy ↦ h.reqQue y ?_, serving := fun y hy ↦ ?_ }
    · rw [hq]
      exact remove_subset pre x post hy
    · dsimp only at hy
      split at hy
      · next head note hhandled hnote =>
        obtain rfl := Option.some.inj hnote
        rcases List.mem_append.1 hy with hy | hy
        · exact h.serving y hy
        · -- the handler of a request of C002 would have been called for a negative length
          obtain rfl := List.mem_singleton.1 hy
          obtain ⟨hsome, hlen⟩ := Service.handled_eq_some hhandled
          obtain rfl := Option.some.inj (hsome.symm.trans (hhead.resolve_left (by rw [hsome]; simp)))
          obtain ⟨f, hf, htype, hneg⟩ := h.reqQue x hx
          refine ⟨f, hf, ?_, htype⟩
          rcases eq_or_ne f .commserver with hcomm | hcomm
          · exact .inl hcomm
          · exact .inr (hlen.resolve_left (Int.not_le.2 (hneg hcomm)))
      · exact h.serving y hy

theorem handlerReturn (h : FrontInv fs survives s) (hok : FrontEndsOk fs survives) {i : ℕ}
    {mb : MbCtrl} {k : SndKernel} {a : TuxReturnArgs}
    (hs : frontStep fs survives s (.handlerReturn i mb k a) = some s') : FrontInv fs survives s' := by
  obtain ⟨x, hx, rfl⟩ := Option.map_eq_some_iff.1 hs
  have hmem : x ∈ s.serving := List.mem_of_getElem? hx
  have hserving : ∀ y ∈ s.serving.eraseIdx i, ∃ f, fs[y.note]? = some f ∧ f.Answered survives ∧
      y.msg.reqMsgType.toInt = f.reqMsgType :=
    fun y hy ↦ h.serving y (List.mem_of_mem_eraseIdx hy)
  dsimp only
  split
  · exact { h with serving := hserving }
  · next rc q' hret =>
    obtain ⟨⟨rc', q1⟩, hp, heq⟩ := Option.map_eq_some_iff.1 hret
    obtain rfl : q1 = q' := by
      dsimp only at heq
      split at heq
      · exact (Prod.mk.inj heq).2
      · exact (Prod.mk.inj heq).2
    obtain ⟨f, hf, hans, htype⟩ := h.serving x hmem
    rcases of_tuxReturnReply hp with rfl | ⟨m, rfl, hm, -⟩
    · simp only [sent, added_self, List.append_nil]
      exact { h with serving := hserving }
    · -- the reply has the type from the head, by which its front end receives
      simp only [sent, added_append]
      refine ⟨h.reqQue, hserving, fun y hy ↦ ?_, fun y hy ↦ ?_, h.owner⟩
      · rcases List.mem_append.1 hy with hy | hy
        · exact h.rspQue y hy
        · obtain rfl := List.mem_singleton.1 hy
          exact ⟨f, hf, hans, hm.trans htype⟩
      · rcases List.mem_append.1 hy with hy | hy
        · exact h.type y hy
        · obtain rfl := List.mem_singleton.1 hy
          exact ⟨f, hf, (hm.trans htype).trans (hok.cd_eq hf hans)⟩

theorem clean (h : FrontInv fs survives s) {fault : Option Errno} {msgType : ℤ}
    (hs : frontStep fs survives s (.clean fault msgType) = some s') : FrontInv fs survives s' := by
  rw [frontStep, Option.some.injEq] at hs
  rcases cleanTaskMsg_cases fault s.reqQue msgType with hrest | ⟨pre, x, post, hq, hrec⟩
  · rw [hrest, received_self] at hs
    exact hs ▸ h
  · rw [hrec] at hs
    rw [← hs]
    refine { h with reqQue := fun y hy ↦ h.reqQue y ?_ }
    rw [hq]
    exact remove_subset pre x post hy

theorem getreply (h : FrontInv fs survives s) (hok : FrontEndsOk fs survives)
    (hids : DistinctSvrIds fs) {i : ℕ} {attached : Bool} {fault : Option Errno} {errno : ℤ}
    (hs : frontStep fs survives s (.getreply i attached fault errno) = some s') :
    FrontInv fs survives s' := by
  obtain ⟨g, hg, rfl⟩ := Option.map_eq_some_iff.1 hs
  rcases tuxGetreply_cases (q := s.rspQue) rfl with hrest | ⟨pre, x, post, hq, htakes, hrec⟩
  · dsimp only
    rw [hrest, received_self]
    dsimp only
    rw [Option.toList_none, List.map_nil, List.append_nil]
    exact h
  · dsimp only
    rw [hrec]
    have hx : x ∈ s.rspQue := hq ▸ List.mem_append_right _ List.mem_cons_self
    refine ⟨h.reqQue, h.serving, fun y hy ↦ h.rspQue y ?_, h.type, fun p hp ↦ ?_⟩
    · rw [hq]
      exact remove_subset pre x post hy
    · rcases List.mem_append.1 hp with hp | hp
      · exact h.owner p hp
      · obtain rfl := List.mem_singleton.1 hp
        obtain ⟨f, hf, hans, htype⟩ := h.rspQue x hx
        exact hok.eq_of_takes hids hf hg hans (htype ▸ htakes)

/-- **The step.** -/
theorem step (h : FrontInv fs survives s) (hok : FrontEndsOk fs survives) (hids : DistinctSvrIds fs)
    {a : FrontAct} (hs : frontStep fs survives s a = some s') : FrontInv fs survives s' := by
  cases a with
  | request i mb k realLen sSrcBuf iBufLen socketid tClient utime => exact h.request hs
  | service mb fault errno svrid => exact h.service hs
  | handlerReturn i mb k a => exact h.handlerReturn hok hs
  | clean fault msgType => exact h.clean hs
  | getreply i attached fault errno => exact h.getreply hok hids hs

end FrontInv

/-! ### Runs to the contrary -/

/-- A handler answers with one byte. -/
theorem exists_oneByteReply (head : IPCMsgHead) (htype : 0 < head.reqMsgType.toInt) :
    ∃ y : Msg, tuxReturn testsvrMb ⟨none, none, 8192⟩ 0 head [] (some [67]) 1 0 = some (1, [y]) ∧
      y.mtype = head.reqMsgType.toInt ∧ Fits y := by
  have hrsp : 0 < ([67] : List UInt8).length := by decide
  have hreturn : tuxReturnReply testsvrMb ⟨none, none, 8192⟩ 0 head [] (some [67])
      (([67] : List UInt8).length : ℤ) 0 = _ :=
    tuxReturnReply_eq_ok 0 (by decide) ⟨rfl, rfl, by decide, by decide⟩ hrsp htype (by decide)
      (by decide)
  refine ⟨_, congrArg (Option.map _) hreturn, rfl, ?_⟩
  rw [Fits, IPCQueMsg.queued_length]
  decide

/-- The head of the requests below. -/
def bareReqHead : SundaReqHead := ⟨charField 32 testsvrName 0, 0, 0⟩

/-- A request is queued, handled and answered, from empty queues. -/
theorem FrontEnd.exists_request (f : FrontEnd) {survives : Bool} (h : f.Answered survives) :
    ∃ m head y,
      f.request testsvrMb ⟨none, none, 8192⟩ 0 [] bareFrame 44 4 ⟨4, 0, 0, fdStatRead⟩ 0 = some [m] ∧
      (tuxService testsvrMb none 0 [m] 1).rest [m] = [] ∧
      (tuxService testsvrMb none 0 [m] 1).handled survives = some head ∧
      tuxReturn testsvrMb ⟨none, none, 8192⟩ 0 head [] (some [67]) 1 0 = some (1, [y]) ∧
      y.mtype = f.reqMsgType ∧ Fits y := by
  cases f with
  | commserver =>
    -- the way of a well-formed frame
    let tClient : ConnectHandle := ⟨4, 0, 0, fdStatRead⟩
    let m := (requestMsg 300001 bareReqHead [] 4 tClient).queued (requestLen 0)
    let head := requestHead bareReqHead 0 4 tClient
    have hname : svcNameOf bareReqHead = testsvrName := by decide
    have hsvr : FirstNamed ServerTab.svcName testsvrMb.tSvrTab (svcNameOf bareReqHead)
        ⟨1, charField 33 testsvrName 0, .idle, 300001, 20⟩ :=
      ⟨[], [], rfl, by rw [hname]; decide, by simp⟩
    have hsvc : FirstNamed ServiceTab.name testsvrMb.tSvcTab (svcNameOf bareReqHead)
        ⟨0, charField 33 testsvrName 0, 7⟩ :=
      ⟨[], [], rfl, by rw [hname]; decide, by simp⟩
    have hsvrid : (300001 : BitVec 64).toInt = 1 + svrMsgTypeRoot := by decide
    have hmax : (requestLen ([] : List UInt8).length : ℤ) ≤ testsvrMb.maxMsgLen.toInt := by decide
    have hbus : requestLen ([] : List UInt8).length + sizeofLong ≤ busMaxMsgLen := by decide
    have hframe : bareFrame = requestFrame bareReqHead [] := by decide +kernel
    have hrequest : readTaskRequest testsvrMb ⟨none, none, 8192⟩ 0 [] bareFrame (44 : ℕ) 4
        ⟨4, 0, 0, fdStatRead⟩ = some (.ok [m]) := by
      rw [hframe]
      exact readTaskRequest_requestFrame 0 4 tClient ⟨rfl, rfl, by decide, by decide⟩ hsvr (by decide)
        (by decide) (by decide) hmax hbus
    have hservice : tuxService testsvrMb none 0 [m] 1 = .called 7 _ head [] :=
      tuxService_request 0 4 tClient hsvc hsvrid (by decide) hbus (List.forall_mem_nil _) []
    obtain ⟨y, hreturn, htype, hfits⟩ := exists_oneByteReply head (by decide)
    refine ⟨m, head, y, ?_, ?_, ?_, hreturn, htype.trans (by decide), hfits⟩
    · rw [FrontEnd.request, hrequest]
    · rw [hservice]
      rfl
    · rw [hservice]
      rfl
  | c002 gSvrId =>
    obtain rfl : survives = true := h.resolve_left (by simp)
    let m := (⟨300001, 0, chdDoSvrReqBuf bareFrame 44 4 0⟩ : IPCQueMsg).queued 140
    let head := chdDoSvrHead bareFrame 44 4 0
    have hsend : chdDoSvr testsvrMb ⟨none, none, 8192⟩ 0 [] bareFrame 44 4 0 = some (.ok [m]) := by
      decide +kernel
    -- the announced length is negative
    have hservice : tuxService testsvrMb none 0 [m] 1 = .fault head [] := by decide +kernel
    have hroot : head.reqMsgType.toInt = commLMsgTypeRoot := by decide
    obtain ⟨y, hreturn, htype, hfits⟩ := exists_oneByteReply head (by decide)
    refine ⟨m, head, y, ?_, ?_, ?_, hreturn, htype.trans hroot, hfits⟩
    · rw [FrontEnd.request, hsend]
    · rw [hservice]
      rfl
    · rw [hservice]
      rfl

/-- One front end sends a request, which is answered. -/
theorem exists_reply {fs : List FrontEnd} {survives : Bool} {i : ℕ} {f : FrontEnd}
    (hi : fs[i]? = some f) (hans : f.Answered survives) :
    ∃ y, y.mtype = f.reqMsgType ∧ Fits y ∧
      (frontSystem fs survives).Reach Guarded.always ⟨[], [], [⟨y, i⟩], [⟨y, i⟩], []⟩ := by
  obtain ⟨m, head, y, hreq, hrest, hhandled, hret, htype, hfits⟩ := f.exists_request hans
  refine ⟨y, htype, hfits, ?_⟩
  -- the request is queued
  have h1 : (frontSystem fs survives).Reach Guarded.always ⟨[⟨m, i⟩], [], [], [], []⟩ := by
    refine .step (.init rfl) (a := .request i testsvrMb ⟨none, none, 8192⟩ 0 bareFrame 44 4
      ⟨4, 0, 0, fdStatRead⟩ 0) trivial ?_
    show fs[i]?.map _ = _
    rw [hi, Option.map_some]
    dsimp only [frontInit]
    rw [show plain ([] : List (Noted Msg ℕ)) = [] from rfl, hreq]
    rfl
  -- a server handles it
  have hrec : received (1 + svrMsgTypeRoot) [(⟨m, i⟩ : Noted Msg ℕ)] [] = (some i, []) := by
    rcases tuxService_cases testsvrMb none 0 1 [(⟨m, i⟩ : Noted Msg ℕ)] rfl with ⟨hsame, -⟩ |
      ⟨pre, x, post, hq, -, hrec, -⟩
    · cases hrest.symm.trans hsame
    · obtain ⟨rfl, rfl, rfl⟩ := remove_singleton hq
      exact hrest ▸ hrec
  have h2 : (frontSystem fs survives).Reach Guarded.always ⟨[], [⟨head, i⟩], [], [], []⟩ := by
    refine h1.step (a := .service testsvrMb none 0 1) trivial ?_
    show frontStep fs survives _ _ = _
    have hplain : plain [(⟨m, i⟩ : Noted Msg ℕ)] = [m] := rfl
    simp only [frontStep, hplain, hrest, hrec, hhandled, List.nil_append]
  -- and answers
  refine h2.step (a := .handlerReturn 0 testsvrMb ⟨none, none, 8192⟩ ⟨2, 0, some [67], 1, 0, 0⟩)
    trivial ?_
  show frontStep fs survives _ _ = _
  have hplain : plain ([] : List (Noted Msg ℕ)) = [] := rfl
  simp only [frontStep, List.getElem?_cons_zero, Option.map_some, hplain, hret]
  rfl

/-- Whoever receives by a type that takes the replies of a `commserver` dequeues one. -/
theorem exists_taken {fs : List FrontEnd} (survives : Bool) {i j : ℕ} {g : FrontEnd}
    (hi : fs[i]? = some .commserver) (hj : fs[j]? = some g) (ht : Takes g.cd commSMsgTypeRoot) :
    ∃ s, (frontSystem fs survives).Reach Guarded.always s ∧ (j, i) ∈ s.taken := by
  have hans : FrontEnd.commserver.Answered survives := .inl rfl
  obtain ⟨y, htype, hfits, hreach⟩ := exists_reply hi hans
  have hrcv : msgrcv none [y] busMaxMsgLen g.cd false = .got y [] :=
    msgrcv_singleton (m := y) (by rw [show Message.mtype y = y.mtype from rfl, htype]; exact ht) hfits false
  have hrest : (tuxGetreply true none 0 [y] g.cd 0).rest [y] = [] := by
    rw [tuxGetreply, msqRcv]
    simp only [ne_eq, not_true_eq_false, decide_false, Bool.not_true, hrcv]
    rw [if_neg Bool.false_ne_true]
    split
    · rfl
    · rfl
  have hrec : received g.cd [(⟨y, i⟩ : Noted Msg ℕ)] [] = (some i, []) := by
    rcases tuxGetreply_cases (q := [(⟨y, i⟩ : Noted Msg ℕ)]) rfl with hsame |
      ⟨pre, x, post, hq, -, hrec⟩
    · cases hrest.symm.trans hsame
    · obtain ⟨rfl, rfl, rfl⟩ := remove_singleton hq
      exact hrest ▸ hrec
  refine ⟨⟨[], [], [], [⟨y, i⟩], [(j, i)]⟩, hreach.step (a := .getreply j true none 0) trivial ?_,
    List.mem_singleton_self _⟩
  show frontStep fs survives _ _ = _
  have hplain : plain [(⟨y, i⟩ : Noted Msg ℕ)] = [y] := rfl
  simp only [frontStep, hj, Option.map_some, hplain, hrest, hrec]
  rfl

/-! ### All runs -/

/-- **Which front ends share the queues well.** Instances of C002 have different server ids. Then replies
reach the front end of their request, and nobody else, in every run if and only if there is one
`commserver`, no instance of C002 receives by a type that takes its replies, and, should servers survive
the requests of C002, its server id is 0. -/
theorem replies_reach_front_end_iff {fs : List FrontEnd} (hids : DistinctSvrIds fs) (survives : Bool) :
    RepliesAlwaysReach fs survives ↔ FrontEndsOk fs survives := by
  constructor
  · intro h
    -- a reply to a `commserver` is taken by itself only
    have htaken {i j : ℕ} {g : FrontEnd} (hi : fs[i]? = some .commserver) (hj : fs[j]? = some g)
        (ht : Takes g.cd commSMsgTypeRoot) : j = i := by
      obtain ⟨s, hreach, hmem⟩ := exists_taken survives hi hj ht
      exact (h s hreach).owner _ hmem
    refine ⟨fun i j hi hj ↦ htaken hj hi (.inl rfl), fun hcomm gSvrId hc ht ↦ ?_,
      fun hsurv gSvrId hc ↦ ?_⟩
    · obtain ⟨i, hi⟩ := List.mem_iff_getElem?.1 hcomm
      obtain ⟨j, hj⟩ := List.mem_iff_getElem?.1 hc
      obtain rfl := htaken hi hj ht
      cases hi.symm.trans hj
    · -- the reply to an instance of C002 has its type for the server id 0 alone
      obtain ⟨i, hi⟩ := List.mem_iff_getElem?.1 hc
      obtain ⟨y, htype, -, hreach⟩ := exists_reply hi (.inr hsurv)
      obtain ⟨f, hf, hcd⟩ := (h _ hreach).type ⟨y, i⟩ (List.mem_singleton_self _)
      obtain rfl := Option.some.inj (hi.symm.trans hf)
      have heq : (commLMsgTypeRoot : ℤ) = (BitVec.ofNat 32 commLMsgTypeRoot + gSvrId).toInt :=
        htype.symm.trans hcd
      have hroot : (BitVec.ofNat 32 commLMsgTypeRoot).toInt = commLMsgTypeRoot := by decide
      have hbv := BitVec.toInt_inj.1 (hroot.trans heq)
      simpa using hbv
  · intro hok s hreach
    have hinv : FrontInv fs survives s := by
      refine hreach.invariant (I := FrontInv fs survives) ?_ fun s a s' hI _ hs ↦ hI.step hok hids hs
      rintro s rfl
      exact frontInv_init fs survives
    exact ⟨hinv.type, hinv.owner⟩

/-- One `commserver` and one instance of C002 with the server id 0. -/
theorem replies_reach_front_end_two : RepliesAlwaysReach [.commserver, .c002 0] true := by
  have hc002 {i : ℕ} {v : BitVec 32}
      (hi : ([.commserver, .c002 0] : List FrontEnd)[i]? = some (.c002 v)) : i = 1 ∧ v = 0 := by
    match i with
    | 0 => cases hi
    | 1 => exact ⟨rfl, (FrontEnd.c002.inj (Option.some.inj hi)).symm⟩
    | _ + 2 => cases hi
  have hcomm {i : ℕ} (hi : ([.commserver, .c002 0] : List FrontEnd)[i]? = some .commserver) :
      i = 0 := by
    match i with
    | 0 => rfl
    | 1 => cases hi
    | _ + 2 => cases hi
  have hzero {v : BitVec 32} (hv : .c002 v ∈ ([.commserver, .c002 0] : List FrontEnd)) : v = 0 := by
    obtain ⟨i, hi⟩ := List.mem_iff_getElem?.1 hv
    exact (hc002 hi).2
  refine (replies_reach_front_end_iff
    (fun i j v hi hj ↦ (hc002 hi).1.trans (hc002 hj).1.symm) true).2 ⟨?_, ?_, ?_⟩
  · exact fun i j hi hj ↦ (hcomm hi).trans (hcomm hj).symm
  · intro _ v hv
    rw [hzero hv]
    decide
  · exact fun _ v hv ↦ hzero hv

/-- Two instances of `commserver`: one takes the reply to a request of the other. -/
theorem two_commservers_share_replies : ¬ RepliesAlwaysReach [.commserver, .commserver] false := by
  intro h
  have hi : ([.commserver, .commserver] : List FrontEnd)[0]? = some .commserver := rfl
  have hj : ([.commserver, .commserver] : List FrontEnd)[1]? = some .commserver := rfl
  obtain ⟨s, hreach, hmem⟩ := exists_taken false hi hj (.inl rfl)
  cases (h s hreach).owner _ hmem

end Sunda
