import Sunda.Main.Governor.Dispatch
import Sunda.Tux.QueuePurge

/-!
# Commands over the bus

The tools `tmstart`, `tmexit` and `tmfresh` (`Main/`) ask the Governor for a command with `svr_cmd_deal`
(`pubfun/tux/tuxcmd.c`): a request in the request queue, whose reply they get from the reply queue by the
message type of the command. The service loop of the Governor calls `Governor` for a request, which carries the
command out and replies with `err` in the bytes of the request (`Main/Governor.c`).

`CmdBus` has the tables, both queues, and what was sent, done and told so far. `GovRun` are the runs of the
Governor alone, with its commands and what it answered. Whatever the tools, the Governor and everybody else on
the bus do, in any order (`commands_obeyed`): the tables and the commands are those of such a run, the
commands were sent in this order and no other one was, and for each of the commands the tools are told the
answers in the order in which the Governor gave them. Which tool is told which of them is left open: the
replies to a command have one message type, and a tool does not look at the id in its reply.
-/

namespace Sunda

open Bytes SysV

variable {n m : ℕ} [NeZero n]

/-! ### The code -/

/-- `cmd` and `id` of a `tskcmd_t`. -/
structure Command where
  cmd : BitVec 32
  id : BitVec 32
  deriving DecidableEq

/-- The command in the data of a request. -/
def commandOf (data : List UInt8) : Command := ⟨leField 4 data 0, leField 4 data 4⟩

/-- `Governor`, on the data of a request: the data with `err` stored, and the tables. -/
def governorData (env : Env) (data : List UInt8) (s : Sys n m) : Option (List UInt8 × Sys n m) :=
  let c := commandOf data
  (governor env c.cmd.toInt c.id.toInt { s with forks := env.forks }).map fun r ↦
    (patch data 8 (leBytes 4 (BitVec.ofInt 32 r.1).toNat), r.2)

/-- The request queue behind a command: `TSK_CMD_EXIT` throws the requests for the server away. -/
def governorQue (c : Command) (s : Sys n m) (q : List Msg) : Option (List Msg) :=
  if c.cmd.toInt = tskCmdExit then
    match findServerId s c.id.toInt with
    | some taskid => cleanTaskMsgLoop (s.tSvrTab taskid).msgType.toInt (q.length + 1) q
    | none => some q
  else some q

/-- The shared memory: the limit for messages, the server table, and the service table, which all servers write
to. -/
def Sys.shared (s : Sys n m) (maxMsgLen : BitVec 32) (tSvcTab : Fin n → ServiceTab) : MbCtrl where
  maxMsgLen
  tSvrTab := s.serverTab
  tSvcTab := List.ofFn tSvcTab
  nsvrnum_eq := by rw [Sys.serverTab, List.length_ofFn, List.length_ofFn]

/-- The Governor and the bus. -/
structure CmdBus (n m : ℕ) where
  sys : Sys n m
  reqQue : List Msg
  rspQue : List Msg
  /-- The commands whose requests were queued. -/
  sent : List Command
  /-- The commands that were carried out, with the `err` of the reply. -/
  done : List (Command × BitVec 32)
  /-- The replies that tools for this command received, with what they return; none if the time was out. -/
  told : List (BitVec 32 × Option (BitVec 32))

namespace CmdBus

variable (x : CmdBus n m)

/-- A pass of the service loop of the Governor, where `fn` is the address of `Governor`. A failure ends the
loop; here the Governor is left as it is. -/
def service (fn : ℕ) (mb : MbCtrl) (k : SndKernel) (realLen : ℤ) (fault : Option Errno) (errno : ℤ)
    (env : Env) : Option (CmdBus n m) :=
  match tuxService mb fault errno x.reqQue 0 with
  | .called sdFun sdInfo head rest =>
    if sdFun = fn then
      (governorData env sdInfo.data x.sys).bind fun r ↦
      (governorQue (commandOf sdInfo.data) x.sys rest).bind fun reqQue ↦
      (tuxReturn mb k realLen head x.rspQue (some r.1) sdInfo.len 0).map fun sent ↦
        { x with
          sys := r.2
          reqQue
          rspQue := sent.2
          done := x.done ++ [(commandOf sdInfo.data, leField 4 r.1 8)] }
    else none
  | .fault _ _ => none
  | .waiting => some x
  | .again rest | .ret _ rest => some { x with reqQue := rest }

/-- `svr_cmd_deal` up to its request. -/
def send (mb : MbCtrl) (k : SndKernel) (tuxErrno : ℤ) (c : Command) (now : BitVec 64) : Option (CmdBus n m) :=
  (svrCmdDeal mb k tuxErrno x.reqQue c.id c.cmd now).map fun r ↦
    match r with
    | .ok reqQue => { x with reqQue, sent := x.sent ++ [c] }
    | .error _ => x

/-- `svr_cmd_deal` behind its request. -/
def receive (fault : Option Errno) (expired : Bool) (tuxErrno : ℤ) (cmd : BitVec 32) : CmdBus n m :=
  match tuxCallRcv fault expired tuxErrno x.rspQue (cmdMsgType cmd) with
  | .got rspBuf _ rest =>
    { x with rspQue := rest, told := x.told ++ [(cmd, some (leField 4 rspBuf (sizeofIPCMsgHead + 8)))] }
  | .fail _ rest =>
    if rest.length < x.rspQue.length then { x with rspQue := rest, told := x.told ++ [(cmd, none)] } else x
  | .waiting => x

end CmdBus

/-- What happens: an event of the Governor that is no command, a tool that asks for a command, a pass of the
service loop, a tool that waits for a reply, and other traffic. -/
inductive CmdAct (n : ℕ)
  | event (a : Event)
  | send (tSvcTab : Fin n → ServiceTab) (k : SndKernel) (tuxErrno : ℤ) (c : Command) (now : BitVec 64)
  | service (tSvcTab : Fin n → ServiceTab) (k : SndKernel) (realLen : ℤ) (fault : Option Errno) (errno : ℤ)
      (env : Env)
  | receive (fault : Option Errno) (expired : Bool) (tuxErrno : ℤ) (cmd : BitVec 32)
  | other (reqQue rspQue : List Msg)

/-- One step. -/
def cmdStep (fn : ℕ) (maxMsgLen : BitVec 32) (x : CmdBus n m) : CmdAct n → Option (CmdBus n m)
  | .event a => (govStep x.sys a).map fun s ↦ { x with sys := s }
  | .send tSvcTab k tuxErrno c now => x.send (x.sys.shared maxMsgLen tSvcTab) k tuxErrno c now
  | .service tSvcTab k realLen fault errno env =>
    x.service fn (x.sys.shared maxMsgLen tSvcTab) k realLen fault errno env
  | .receive fault expired tuxErrno cmd => some (x.receive fault expired tuxErrno cmd)
  | .other reqQue rspQue => some { x with reqQue, rspQue }

/-- The runs of the Governor, its tools and everybody else, from a start of the Governor with empty queues. -/
def cmdSystem (n m : ℕ) [NeZero n] (I : Env → Prop) (fn : ℕ) (maxMsgLen : BitVec 32) :
    Guarded (CmdBus n m) (CmdAct n) :=
  .ofFn (fun x ↦ (∃ env mainPid now, I env ∧ governorMain env mainPid now = some x.sys) ∧
    x.reqQue = [] ∧ x.rspQue = [] ∧ x.sent = [] ∧ x.done = [] ∧ x.told = []) (cmdStep fn maxMsgLen)

/-! ### What is claimed of a run -/

/-- A run of the Governor with the commands it carried out and what it answered. -/
inductive GovRun (I : Env → Prop) : Sys n m → List (Command × BitVec 32) → Prop
  | start {env : Env} {mainPid now : ℤ} {s : Sys n m} :
    I env → governorMain env mainPid now = some s → GovRun I s []
  | event {s t : Sys n m} {l : List (Command × BitVec 32)} {a : Event} :
    GovRun I s l → (∀ env cmd id, a ≠ .cmd env cmd id) → govStep s a = some t → GovRun I t l
  | cmd {s t : Sys n m} {l : List (Command × BitVec 32)} {env : Env} {c : Command} {err : ℤ} :
    GovRun I s l → governor env c.cmd.toInt c.id.toInt { s with forks := env.forks } = some (err, t) →
      GovRun I t (l ++ [(c, BitVec.ofInt 32 err)])

/-- What holds in all runs of the Governor holds in these. -/
theorem GovRun.reach {I : Env → Prop} {s : Sys n m} {l : List (Command × BitVec 32)} (h : GovRun I s l) :
    Guarded.Reach (govSystem n m I) Guarded.always s := by
  induction h with
  | start henv hs => exact .init ⟨_, _, _, henv, hs⟩
  | event _ _ hs ih => exact .step ih trivial hs
  | @cmd s t l env c err _ hgov ih =>
    have hstep : govStep s (.cmd env c.cmd.toInt c.id.toInt) = some t := congrArg (Option.map Prod.snd) hgov
    exact .step ih trivial hstep

/-- The message asks for the command. -/
def Asks (c : Command) (msg : Msg) : Prop :=
  0 < (cmdMsgType c.cmd).toInt ∧
    ∃ now, Msg.payload msg = (packReqHead (cmdMsgType c.cmd) now).toBytes ++ tTaskCmd c.cmd c.id

/-- `err` in a reply. -/
def errOf (msg : Msg) : BitVec 32 := leField 4 (Msg.payload msg) (sizeofIPCMsgHead + 8)

/-- The tool is told this answer, or its time was out. -/
def Hears (told : Option (BitVec 32)) (err : BitVec 32) : Prop := told = none ∨ told = some err

/-- The answers to one command. -/
def answers (l : List (Command × BitVec 32)) (cmd : BitVec 32) : List (BitVec 32) :=
  (l.filter (·.1.cmd = cmd)).map Prod.snd

/-- What the tools for one command were told. -/
def toldFor (l : List (BitVec 32 × Option (BitVec 32))) (cmd : BitVec 32) : List (Option (BitVec 32)) :=
  (l.filter (·.1 = cmd)).map Prod.snd

/-- Commands are carried out in the order in which they were sent, each once; and the answers to each of them
are told in the order in which they were given, each at most once. -/
structure Obeyed (I : Env → Prop) (x : CmdBus n m) : Prop where
  run : GovRun I x.sys x.done
  requests : ∃ asked, x.sent = x.done.map Prod.fst ++ asked ∧
    List.Forall₂ Asks asked (ofType svrMsgTypeRoot x.reqQue)
  replies : ∀ cmd, 0 < (cmdMsgType cmd).toInt → ∃ taken,
    answers x.done cmd = taken ++ (ofType (cmdMsgType cmd).toInt x.rspQue).map errOf ∧
      List.Forall₂ Hears (toldFor x.told cmd) taken

/-- The command does not throw away the requests for the Governor: it is no `TSK_CMD_EXIT` of the Governor
itself, and none of an entry without a proper message type. -/
def SparesRequests (s : Sys n m) (c : Command) : Prop :=
  c.cmd.toInt = tskCmdExit → ∀ k, findServerId s c.id.toInt = some k →
    0 < (s.tSvrTab k).msgType.toInt ∧ (s.tSvrTab k).msgType.toInt ≠ svrMsgTypeRoot

/-- The name in a request for the Governor is found in the service table. -/
def Advertised (mb : MbCtrl) : Prop :=
  ∃ i svc, (tuxFindService mb (charField 33 sdManagerSvcName 0).toList 1).1 = some i ∧
    mb.tSvcTab[i]? = some svc

/-- What is needed of a step. A command comes over the bus. A tool uses a command with a proper message type,
and the service `Governor` is found in the server table, if at all, with the message type of the Governor.
When the service loop has a request, its name is found in the service table, the kernel takes the reply, and
the command spares the other requests. Other traffic leaves the requests for the Governor and the replies to
commands alone. -/
def CmdAct.Granted (maxMsgLen : BitVec 32) (x : CmdBus n m) : CmdAct n → Prop
  | .event a => ∀ env cmd id, a ≠ .cmd env cmd id
  | .send _ _ _ c _ => 0 < (cmdMsgType c.cmd).toInt ∧
    ∀ e, locatedEntry x.sys.serverTab sdManagerSvcName = some e → e.msgType.toInt = svrMsgTypeRoot
  | .service tSvcTab k _ _ _ _ => k.Accepts x.rspQue ∧ Advertised (x.sys.shared maxMsgLen tSvcTab) ∧
    ∀ c, x.sent[x.done.length]? = some c → SparesRequests x.sys c
  | .receive _ _ _ cmd => 0 < (cmdMsgType cmd).toInt
  | .other reqQue rspQue => ofType svrMsgTypeRoot reqQue = ofType svrMsgTypeRoot x.reqQue ∧
    ∀ cmd, 0 < (cmdMsgType cmd).toInt →
      ofType (cmdMsgType cmd).toInt rspQue = ofType (cmdMsgType cmd).toInt x.rspQue

/-! ### Queues -/

section Queues

variable {t u : ℤ} {pre post q r : List Msg} {msg : Msg}

theorem ofType_append (t : ℤ) (q r : List Msg) : ofType t (q ++ r) = ofType t q ++ ofType t r :=
  List.filter_append ..

theorem ofType_singleton_self (h : msg.mtype = t) : ofType t [msg] = [msg] :=
  List.filter_cons_of_pos (by simpa using h)

theorem ofType_singleton_of_ne (h : msg.mtype ≠ t) : ofType t [msg] = [] :=
  List.filter_cons_of_neg (by simpa using h)

/-- The first message of a type is the first of those of the type. -/
theorem ofType_of_first (hpre : ∀ y ∈ pre, y.mtype ≠ t) (hm : msg.mtype = t) :
    ofType t (pre ++ msg :: post) = msg :: ofType t (pre ++ post) := by
  have hnone : ofType t pre = [] := List.filter_eq_nil_iff.2 fun y hy ↦ by simpa using hpre y hy
  rw [ofType_append, ofType_append, hnone, ← List.singleton_append, ofType_append, ofType_singleton_self hm]
  rfl

/-- A message that is taken does not change those of another type. -/
theorem ofType_taken (hm : msg.mtype ≠ u) : ofType u (pre ++ msg :: post) = ofType u (pre ++ post) := by
  rw [← List.singleton_append, ofType_append, ofType_append, ofType_append, ofType_singleton_of_ne hm,
    List.nil_append]

/-- `clean_task_msg` leaves the messages of other types alone. -/
theorem ofType_cleanTaskMsgLoop (ht : 0 < t) (hne : t ≠ u) {fuel : ℕ}
    (h : cleanTaskMsgLoop t fuel q = some r) : ofType u r = ofType u q := by
  induction fuel generalizing q with
  | zero => cases h
  | succ fuel ih =>
    rw [cleanTaskMsgLoop] at h
    split at h
    · next code msgbuf rest hgot =>
      obtain ⟨pre, msg, post, rfl, rfl, -, hm, -⟩ := of_msqRcv_got ht hgot
      rw [ofType_taken (hm.trans_ne hne)]
      split at h
      · rw [Option.some.inj h]
      · exact ih h
    all_goals rw [Option.some.inj h]

end Queues

/-! ### Bytes -/

theorem leField_append_right {w : ℕ} {as bs : List UInt8} {len off : ℕ} (h : as.length = len) :
    leField w (as ++ bs) (len + off) = leField w bs off := by
  rw [leField, bufRead_append_right _ _ (by omega), h, Nat.add_sub_cancel_left, leField]

theorem commandOf_tTaskCmd (c : Command) : commandOf (tTaskCmd c.cmd c.id) = c := by
  have hcmd : bufRead (tTaskCmd c.cmd c.id) 0 4 = leBytes 4 c.cmd.toNat :=
    bufRead_append_zero _ _ (leBytes_length _ _)
  have hid : bufRead (tTaskCmd c.cmd c.id) 4 4 = leBytes 4 c.id.toNat := by
    rw [tTaskCmd, bufRead_append_right _ _ (leBytes_length _ _).le, leBytes_length, Nat.sub_self,
      bufRead_append_zero _ _ (leBytes_length _ _)]
  obtain ⟨cmd, id⟩ := c
  exact congrArg₂ Command.mk (leField_eq_of_bufRead hcmd) (leField_eq_of_bufRead hid)

/-- The request of a tool is carried out, and the data of the reply are as many and have `err`. -/
theorem of_governorData {env : Env} {c : Command} {s t : Sys n m} {data : List UInt8}
    (h : governorData env (tTaskCmd c.cmd c.id) s = some (data, t)) :
    ∃ err, governor env c.cmd.toInt c.id.toInt { s with forks := env.forks } = some (err, t) ∧
      data.length = sizeofTskcmd ∧ leField 4 data 8 = BitVec.ofInt 32 err := by
  rw [governorData, commandOf_tTaskCmd, Option.map_eq_some_iff] at h
  obtain ⟨⟨err, t'⟩, hgov, heq⟩ := h
  obtain ⟨rfl, rfl⟩ := Prod.mk.inj heq
  have hroom : 8 + (leBytes 4 (BitVec.ofInt 32 err).toNat).length ≤ (tTaskCmd c.cmd c.id).length := by
    rw [leBytes_length, tTaskCmd_length]
    decide
  have hread := bufRead_patch hroom
  rw [leBytes_length] at hread
  exact ⟨err, hgov, (patch_length hroom).trans (tTaskCmd_length _ _), leField_eq_of_bufRead hread⟩

/-- `err` in the reply that `tux_return` queues. -/
theorem errOf_reply {head : IPCMsgHead} {data : List UInt8} {t src : BitVec 64}
    (hdata : data.length = sizeofTskcmd) :
    errOf ((⟨t, src, head.toBytes ++ data⟩ : IPCQueMsg).queued (sizeofIPCMsgHead + sizeofTskcmd)) =
      leField 4 data 8 := by
  have hlen : (head.toBytes ++ data).length = sizeofIPCMsgHead + sizeofTskcmd := by
    rw [List.length_append, head.toBytes_length, hdata]
  rw [errOf, IPCQueMsg.payload_queued, ← hlen, bufRead_zero_length, leField_append_right head.toBytes_length]

theorem Asks.payload_length {c : Command} {msg : Msg} (h : Asks c msg) :
    (Msg.payload msg).length = sizeofIPCMsgHead + sizeofTskcmd := by
  obtain ⟨-, now, hpayload⟩ := h
  rw [hpayload, List.length_append, IPCMsgHead.toBytes_length, tTaskCmd_length]

/-! ### Steps -/

/-- What a tool queues is a request for its command, for the server that was located. -/
theorem of_svrCmdDeal {mb : MbCtrl} {k : SndKernel} {tuxErrno : ℤ} {q q' : List Msg} {c : Command}
    {now : BitVec 64} (hc : 0 < (cmdMsgType c.cmd).toInt)
    (h : svrCmdDeal mb k tuxErrno q c.id c.cmd now = some (.ok q')) :
    ∃ e msg, locatedEntry mb.tSvrTab sdManagerSvcName = some e ∧ q' = q ++ [msg] ∧
      msg.mtype = e.msgType.toInt ∧ Asks c msg := by
  have hpos : 0 < sizeofTskcmd + sizeofIPCMsgHead := by decide
  obtain ⟨svrno, e, hno, hget, -, -, -, -, rfl⟩ := of_tuxAcall_ok hpos (tuxAcall_of_tuxCallSend h)
  have hlocated : locatedEntry mb.tSvrTab sdManagerSvcName = some e := by
    rw [← locatedEntry_eq, hno]
    exact hget
  refine ⟨e, _, hlocated, rfl, rfl, hc, now, ?_⟩
  have hlen : ((packReqHead (cmdMsgType c.cmd) now).toBytes ++ tTaskCmd c.cmd c.id).length =
      sizeofTskcmd + sizeofIPCMsgHead := by
    rw [List.length_append, IPCMsgHead.toBytes_length, tTaskCmd_length, Nat.add_comm]
  rw [IPCQueMsg.payload_queued, bufRead_bufRead _ (Nat.zero_add _).le, Nat.zero_add, ← hlen,
    bufRead_zero_length]

/-- A pass of `tux_service` of the Governor takes the first message with its type, or leaves the queue alone. -/
theorem tuxService_zero_cases (mb : MbCtrl) (fault : Option Errno) (errno : ℤ) (q : List Msg) :
    (∃ (pre : List Msg) (msg : Msg) (post : List Msg) (t src : BitVec 64),
      q = pre ++ msg :: post ∧ (∀ y ∈ pre, y.mtype ≠ svrMsgTypeRoot) ∧ msg.mtype = svrMsgTypeRoot ∧
        (0 < (Msg.payload msg).length →
          tuxService mb fault errno q 0 = tuxDispatch mb ⟨t, src, Msg.payload msg⟩ (pre ++ post))) ∨
    tuxService mb fault errno q 0 = .waiting ∨ tuxService mb fault errno q 0 = .again q ∨
      tuxService mb fault errno q 0 = .ret (-1) q := by
  have hroot : (0 : ℤ) < svrMsgTypeRoot := by decide
  rw [tuxService, zero_add]
  cases hrcv : msqRcv fault q busMaxMsgLen svrMsgTypeRoot false with
  | waiting => exact .inr (.inl rfl)
  | fail e =>
    refine .inr (.inr ?_)
    dsimp only
    split
    · exact .inl rfl
    · exact .inr rfl
  | got code ipcMsgIn rest =>
    obtain ⟨pre, msg, post, rfl, rfl, hpre, hm, -, rfl, hbuf⟩ := of_msqRcv_got hroot hrcv
    refine .inl ⟨pre, msg, post, ipcMsgIn.nMsgType, ipcMsgIn.nMsgSource, rfl, hpre, hm, fun hpos ↦ ?_⟩
    rw [Msg.payload, List.length_drop] at hpos
    dsimp only
    rw [if_neg (by omega), ← hbuf]

/-- A tool takes the first reply with the type of its command, whether its time is out or not. -/
theorem tuxCallRcv_takes (fault : Option Errno) (expired : Bool) (tuxErrno : ℤ) (q : List Msg) {t : BitVec 64}
    (ht : 0 < t.toInt) :
    tuxCallRcv fault expired tuxErrno q t = .waiting ∨
      (∃ e, tuxCallRcv fault expired tuxErrno q t = .fail e q) ∨
      ∃ (pre : List Msg) (msg : Msg) (post : List Msg),
        q = pre ++ msg :: post ∧ (∀ y ∈ pre, y.mtype ≠ t.toInt) ∧ msg.mtype = t.toInt ∧
        ((∃ e, tuxCallRcv fault expired tuxErrno q t = .fail e (pre ++ post)) ∨
          ∃ len, tuxCallRcv fault expired tuxErrno q t = .got (Msg.payload msg) len (pre ++ post)) := by
  rw [tuxCallRcv]
  cases hrcv : msqRcv fault q busMaxMsgLen t.toInt false with
  | waiting => exact .inl rfl
  | fail e => exact .inr (.inl ⟨_, rfl⟩)
  | got code ipcMsgOut rest =>
    obtain ⟨pre, msg, post, hq, rfl, hpre, hm, -, rfl, hbuf⟩ := of_msqRcv_got ht hrcv
    refine .inr (.inr ⟨pre, msg, post, hq, hpre, hm, ?_⟩)
    dsimp only
    split
    · exact .inl ⟨_, rfl⟩
    · split
      · exact .inl ⟨_, rfl⟩
      · have hlen : ((msg.mtext.length : ℤ) - sizeofLong).toNat = (Msg.payload msg).length := by
          rw [Msg.payload, List.length_drop]
          omega
        rw [hbuf, hlen, bufRead_zero_length]
        exact .inr ⟨_, rfl⟩

/-- A pass that has a request for a command. -/
theorem tuxService_asks {mb : MbCtrl} {c : Command} {msg : Msg} (hmb : Advertised mb) (h : Asks c msg)
    (t src : BitVec 64) (rest : List Msg) :
    ∃ sdFun sdInfo head, tuxDispatch mb ⟨t, src, Msg.payload msg⟩ rest = .called sdFun sdInfo head rest ∧
      sdInfo.data = tTaskCmd c.cmd c.id ∧ sdInfo.len = sizeofTskcmd ∧ head.reqMsgType = cmdMsgType c.cmd := by
  obtain ⟨i, svc, hfind, hget⟩ := hmb
  obtain ⟨-, now, hpayload⟩ := h
  have hlen : (packReqHead (cmdMsgType c.cmd) now).len.toInt = (tTaskCmd c.cmd c.id).length := by
    rw [tTaskCmd_length]
    rfl
  have hbus : sizeofIPCMsgHead + (tTaskCmd c.cmd c.id).length ≤ busMaxMsgLen := by
    rw [tTaskCmd_length]
    decide
  have hcalled := tuxDispatch_called (packReqHead (cmdMsgType c.cmd) now) [] t src rest hfind hget hlen hbus
  rw [List.append_nil, ← hpayload] at hcalled
  exact ⟨_, _, _, hcalled, rfl, congrArg _ (tTaskCmd_length c.cmd c.id), rfl⟩

/-- The reply of `Governor`. -/
theorem tuxReturn_governor {mb : MbCtrl} {k : SndKernel} {head : IPCMsgHead} {q : List Msg} {data : List UInt8}
    (realLen : ℤ) (hk : k.Accepts q) (hmax : (sizeofTskcmd : ℤ) ≤ mb.maxMsgLen.toInt)
    (htype : 0 < head.reqMsgType.toInt) (hdata : data.length = sizeofTskcmd) :
    ∃ reply, tuxReturn mb k realLen head q (some data) sizeofTskcmd 0 = some (1, q ++ [reply]) ∧
      reply.mtype = head.reqMsgType.toInt ∧ errOf reply = leField 4 data 8 := by
  have hrsp : 0 < data.length := by
    rw [hdata]
    decide
  have hbus : sizeofIPCMsgHead + data.length + sizeofLong ≤ busMaxMsgLen := by
    rw [hdata]
    decide
  rw [← hdata] at hmax
  have hreply := tuxReturnReply_eq_ok realLen (show (0 : ℤ) ≠ -1 by decide) hk hrsp htype hmax hbus
  rw [hdata] at hreply
  have hreturn := congrArg (Option.map fun r : ℤ × List Msg ↦ if r.1 = 0 then (1, r.2) else r) hreply
  exact ⟨_, hreturn, rfl, errOf_reply hdata⟩

theorem cmdMsgType_inj {cmd cmd' : BitVec 32} (h : (cmdMsgType cmd).toInt = (cmdMsgType cmd').toInt) :
    cmd = cmd' := by
  rw [cmdMsgType, cmdMsgType, BitVec.toInt_signExtend_of_le (by decide),
    BitVec.toInt_signExtend_of_le (by decide)] at h
  exact (BitVec.add_left_inj _).1 (BitVec.eq_of_toInt_eq h)

omit [NeZero n] in
/-- A command spares the requests for the Governor. -/
theorem ofType_governorQue {c : Command} {s : Sys n m} {q r : List Msg} (hs : SparesRequests s c)
    (h : governorQue c s q = some r) : ofType svrMsgTypeRoot r = ofType svrMsgTypeRoot q := by
  rw [governorQue] at h
  split at h
  · next hexit =>
    cases hfind : findServerId s c.id.toInt with
    | none =>
      rw [hfind] at h
      rw [Option.some.inj h]
    | some k =>
      rw [hfind] at h
      exact ofType_cleanTaskMsgLoop (hs hexit k hfind).1 (hs hexit k hfind).2 h
  · rw [Option.some.inj h]

theorem answers_append (l : List (Command × BitVec 32)) (c : Command) (err cmd : BitVec 32) :
    answers (l ++ [(c, err)]) cmd = answers l cmd ++ if c.cmd = cmd then [err] else [] := by
  rw [answers, List.filter_append, List.map_append, answers]
  split
  · next heq => rw [List.filter_cons_of_pos (by simpa using heq)]; rfl
  · next hne => rw [List.filter_cons_of_neg (by simpa using hne)]; rfl

theorem toldFor_append (l : List (BitVec 32 × Option (BitVec 32))) (cmd cmd' : BitVec 32)
    (told : Option (BitVec 32)) :
    toldFor (l ++ [(cmd, told)]) cmd' = toldFor l cmd' ++ if cmd = cmd' then [told] else [] := by
  rw [toldFor, List.filter_append, List.map_append, toldFor]
  split
  · next heq => rw [List.filter_cons_of_pos (by simpa using heq)]; rfl
  · next hne => rw [List.filter_cons_of_neg (by simpa using hne)]; rfl

namespace Obeyed

variable {I : Env → Prop} {x x' : CmdBus n m} {fn : ℕ} {maxMsgLen : BitVec 32}

theorem event {a : Event} {s : Sys n m} (h : Obeyed I x) (ha : ∀ env cmd id, a ≠ .cmd env cmd id)
    (hs : govStep x.sys a = some s) : Obeyed I { x with sys := s } :=
  ⟨h.run.event ha hs, h.requests, h.replies⟩

theorem send {mb : MbCtrl} {k : SndKernel} {tuxErrno : ℤ} {c : Command} {now : BitVec 64} (h : Obeyed I x)
    (hc : 0 < (cmdMsgType c.cmd).toInt)
    (hmb : ∀ e, locatedEntry mb.tSvrTab sdManagerSvcName = some e → e.msgType.toInt = svrMsgTypeRoot)
    (hs : x.send mb k tuxErrno c now = some x') : Obeyed I x' := by
  obtain ⟨r, hr, rfl⟩ := Option.map_eq_some_iff.1 hs
  cases r with
  | error e => exact h
  | ok q =>
    obtain ⟨e, msg, he, rfl, hm, hasks⟩ := of_svrCmdDeal hc hr
    obtain ⟨asked, hsent, hqueue⟩ := h.requests
    refine ⟨h.run, ⟨asked ++ [c], ?_, ?_⟩, h.replies⟩
    · rw [hsent, List.append_assoc]
    · rw [ofType_append, ofType_singleton_self (hm.trans (hmb e he))]
      exact List.rel_append hqueue (.cons hasks .nil)

/-- A reply that a tool takes. -/
theorem take {cmd : BitVec 32} {pre post : List Msg} {msg : Msg} {told : Option (BitVec 32)} (h : Obeyed I x)
    (hq : x.rspQue = pre ++ msg :: post) (hpre : ∀ y ∈ pre, y.mtype ≠ (cmdMsgType cmd).toInt)
    (hm : msg.mtype = (cmdMsgType cmd).toInt) (htold : Hears told (errOf msg)) :
    Obeyed I { x with rspQue := pre ++ post, told := x.told ++ [(cmd, told)] } := by
  refine ⟨h.run, h.requests, fun cmd' hcmd' ↦ ?_⟩
  obtain ⟨taken, hanswers, hhears⟩ := h.replies cmd' hcmd'
  rw [hq] at hanswers
  rw [toldFor_append]
  rcases eq_or_ne cmd cmd' with rfl | hne
  · rw [ofType_of_first hpre hm, List.map_cons] at hanswers
    refine ⟨taken ++ [errOf msg], ?_, ?_⟩
    · rw [List.append_assoc]
      exact hanswers
    · rw [if_pos rfl]
      exact List.rel_append hhears (.cons htold .nil)
  · rw [ofType_taken fun heq ↦ hne (cmdMsgType_inj (hm.symm.trans heq))] at hanswers
    refine ⟨taken, hanswers, ?_⟩
    rwa [if_neg hne, List.append_nil]

theorem receive {fault : Option Errno} {expired : Bool} {tuxErrno : ℤ} {cmd : BitVec 32} (h : Obeyed I x)
    (hcmd : 0 < (cmdMsgType cmd).toInt) : Obeyed I (x.receive fault expired tuxErrno cmd) := by
  rw [CmdBus.receive]
  rcases tuxCallRcv_takes fault expired tuxErrno x.rspQue hcmd with
    hrcv | ⟨e, hrcv⟩ | ⟨pre, msg, post, hq, hpre, hm, ⟨e, hrcv⟩ | ⟨len, hrcv⟩⟩
  · rw [hrcv]
    exact h
  · rw [hrcv]
    dsimp only
    rw [if_neg (lt_irrefl _)]
    exact h
  · have hshort : (pre ++ post).length < x.rspQue.length := by
      rw [hq, List.length_append, List.length_append, List.length_cons]
      omega
    rw [hrcv]
    dsimp only
    rw [if_pos hshort]
    exact h.take hq hpre hm (.inl rfl)
  · rw [hrcv]
    exact h.take hq hpre hm (.inr rfl)

theorem service {mb : MbCtrl} {k : SndKernel} {realLen : ℤ} {fault : Option Errno} {errno : ℤ} {env : Env}
    (h : Obeyed I x) (hmax : (sizeofTskcmd : ℤ) ≤ mb.maxMsgLen.toInt) (hk : k.Accepts x.rspQue)
    (hmb : Advertised mb) (hspare : ∀ c, x.sent[x.done.length]? = some c → SparesRequests x.sys c)
    (hs : x.service fn mb k realLen fault errno env = some x') : Obeyed I x' := by
  rw [CmdBus.service] at hs
  rcases tuxService_zero_cases mb fault errno x.reqQue with
    ⟨pre, msg, post, t, src, hq, hpre, hm, hserve⟩ | hserve | hserve | hserve
  · obtain ⟨asked, hsent, hqueue⟩ := h.requests
    rw [hq, ofType_of_first hpre hm] at hqueue
    obtain ⟨c, asked, hasks, hqueue, rfl⟩ := List.forall₂_cons_right_iff.1 hqueue
    obtain ⟨sdFun, sdInfo, head, hcalled, hinfo, hinfoLen, hhead⟩ :=
      tuxService_asks hmb hasks t src (pre ++ post)
    rw [hserve (by rw [hasks.payload_length]; decide), hcalled] at hs
    dsimp only at hs
    split at hs
    · rw [hinfo, hinfoLen, commandOf_tTaskCmd] at hs
      obtain ⟨⟨data, s⟩, hdata, hs⟩ := Option.bind_eq_some_iff.1 hs
      obtain ⟨reqQue, hclean, hs⟩ := Option.bind_eq_some_iff.1 hs
      obtain ⟨err, hgov, hlen, herr⟩ := of_governorData hdata
      have hpos : 0 < head.reqMsgType.toInt := by
        rw [hhead]
        exact hasks.1
      obtain ⟨reply, hreply, hreplyType, hreplyErr⟩ := tuxReturn_governor realLen hk hmax hpos hlen
      rw [hreply] at hs
      obtain rfl := Option.some.inj hs
      have hnext : x.sent[x.done.length]? = some c := by
        rw [hsent, List.getElem?_append_right (List.length_map _).le, List.length_map, Nat.sub_self]
        rfl
      refine ⟨?_, ⟨asked, ?_, ?_⟩, fun cmd hcmd ↦ ?_⟩
      · dsimp only
        rw [herr]
        exact h.run.cmd hgov
      · rw [hsent, List.map_append, List.append_assoc]
        rfl
      · rwa [ofType_governorQue (hspare c hnext) hclean]
      · obtain ⟨taken, hanswers, hhears⟩ := h.replies cmd hcmd
        refine ⟨taken, ?_, hhears⟩
        rw [answers_append, ofType_append, hanswers, List.map_append, List.append_assoc]
        rcases eq_or_ne c.cmd cmd with rfl | hne
        · rw [if_pos rfl, ofType_singleton_self (hreplyType.trans (congrArg _ hhead)), List.map_singleton,
            hreplyErr]
        · have hother : reply.mtype ≠ (cmdMsgType cmd).toInt := by
            rw [hreplyType, hhead]
            exact fun heq ↦ hne (cmdMsgType_inj heq)
          rw [if_neg hne, ofType_singleton_of_ne hother]
          rfl
    · cases hs
  · rw [hserve] at hs
    rwa [← Option.some.inj hs]
  all_goals
    rw [hserve] at hs
    rwa [← Option.some.inj hs]

theorem other {reqQue rspQue : List Msg} (h : Obeyed I x)
    (hreq : ofType svrMsgTypeRoot reqQue = ofType svrMsgTypeRoot x.reqQue)
    (hrsp : ∀ cmd, 0 < (cmdMsgType cmd).toInt →
      ofType (cmdMsgType cmd).toInt rspQue = ofType (cmdMsgType cmd).toInt x.rspQue) :
    Obeyed I { x with reqQue, rspQue } := by
  refine ⟨h.run, ?_, fun cmd hcmd ↦ ?_⟩
  · obtain ⟨asked, hsent, hqueue⟩ := h.requests
    refine ⟨asked, hsent, ?_⟩
    rwa [hreq]
  · obtain ⟨taken, hanswers, hhears⟩ := h.replies cmd hcmd
    refine ⟨taken, ?_, hhears⟩
    rwa [hrsp cmd hcmd]

/-- What one step preserves. -/
theorem step {a : CmdAct n} (hmax : (sizeofTskcmd : ℤ) ≤ maxMsgLen.toInt) (h : Obeyed I x)
    (ha : a.Granted maxMsgLen x) (hs : cmdStep fn maxMsgLen x a = some x') : Obeyed I x' := by
  cases a with
  | event a =>
    obtain ⟨s, hgov, rfl⟩ := Option.map_eq_some_iff.1 hs
    exact h.event ha hgov
  | send tSvcTab k tuxErrno c now => exact h.send ha.1 ha.2 hs
  | service tSvcTab k realLen fault errno env => exact h.service hmax ha.1 ha.2.1 ha.2.2 hs
  | receive fault expired tuxErrno cmd =>
    obtain rfl := Option.some.inj hs
    exact h.receive ha
  | other reqQue rspQue =>
    obtain rfl := Option.some.inj hs
    exact h.other ha.1 ha.2

theorem start {env : Env} {mainPid now : ℤ} (henv : I env) (hsys : governorMain env mainPid now = some x.sys)
    (hx : x.reqQue = [] ∧ x.rspQue = [] ∧ x.sent = [] ∧ x.done = [] ∧ x.told = []) : Obeyed I x := by
  obtain ⟨hreq, hrsp, hsent, hdone, htold⟩ := hx
  refine ⟨?_, ⟨[], ?_, ?_⟩, fun cmd _ ↦ ⟨[], ?_, ?_⟩⟩
  · rw [hdone]
    exact .start henv hsys
  · rw [hsent, hdone]
    rfl
  · rw [hreq]
    exact .nil
  · rw [hdone, hrsp]
    rfl
  · rw [htold]
    exact .nil

end Obeyed

/-- A service table in which every entry is that of the Governor. -/
def managerSvc (_ : Fin 2) : ServiceTab := ⟨1, charField 33 sdManagerSvcName 0, 1⟩

end Sunda
