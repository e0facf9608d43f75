import Sunda.Base.SysV
import Sunda.Tux.Types

/-!
# Sending to and receiving from a message queue

`MsqSnd` and `MsqRcv` (`pubfun/common/funmsq.c`). The text of a queued message is the field
`nMsgSource` followed by the payload, so it is `sizeof(long)` longer than the payload. `MsqSnd`
compares the payload alone with `BUS_MAX_MSG_LEN` and adds the field afterwards; `MsqRcv` hands its
caller's limit to `msgrcv` unchanged and subtracts the field from the result.

`of_msqSnd_zero` says what a successful send put into the queue, `msqRcv_of_first` what a receive
makes of a message at its turn, and `msqRcv_of_msqSnd_iff` compares the two limits.
-/

namespace Sunda

open Bytes SysV

/-- `sizeof(long)`, the size of `nMsgSource`. -/
def sizeofLong : ℕ := 8

/-- What the kernel contributes to one `MsqSnd`: failures of `msgctl` and `msgsnd`, and the limit
for the length of a text. -/
structure SndKernel where
  statFault : Option Errno
  sndFault : Option Errno
  msgmax : ℕ
  deriving DecidableEq

/-- The first `size` bytes that `msgsnd` finds behind `nMsgType`. -/
def IPCQueMsg.text (m : IPCQueMsg) (size : ℕ) : List UInt8 :=
  bufRead (leBytes sizeofLong m.nMsgSource.toNat ++ m.sBuf) 0 size

/-- The largest number of queued messages, compared as an `unsigned long`. -/
def IPCChkMsq.maxNum (chk : IPCChkMsq) : ℕ :=
  if chk.nMsqMaxNum = 0 then msqMaxNum else (BitVec.ofInt 64 chk.nMsqMaxNum).toNat

/-- The check of the queue state in `MsqSnd`; `some rc` is an early return. -/
def msqChk (k : SndKernel) (q : List Msg) (chk : IPCChkMsq) : Option ℤ :=
  if chk.nChkFlag = 1 then
    match k.statFault with
    | some e => some e
    | none =>
      if chk.maxNum < q.length then some (-1) else none
  else none

/-- `MsqSnd`: the return value and the queue afterwards. A negative length that is still negative
after `sizeof(long)` was added is an enormous `size_t`, which the kernel refuses. -/
def msqSnd (k : SndKernel) (q : List Msg) (ipcMsgIn : IPCQueMsg) (nMsgLen : ℤ) (chk : IPCChkMsq) :
    ℤ × List Msg :=
  match msqChk k q chk with
  | some rc => (rc, q)
  | none =>
    if busMaxMsgLen ≤ nMsgLen then (-2, q)
    else if nMsgLen + sizeofLong < 0 then (EINVAL, q)
    else
      match msgsnd k.sndFault k.msgmax q
          ⟨ipcMsgIn.nMsgType.toInt, ipcMsgIn.text (nMsgLen + sizeofLong).toNat⟩ with
      | .error e => (e, q)
      | .ok q' => (0, q')

/-- The outcome of `MsqRcv`: the return value with the received structure and the rest of the
queue; a failure, whose return value is `-1 - sizeof(long)`; or still waiting. -/
inductive MsqRcvd
  | got (code : ℤ) (ipcMsgIn : IPCQueMsg) (rest : List Msg)
  | fail (errno : Errno)
  | waiting
  deriving DecidableEq

/-- `MsqRcv`. `nowait` is `iRcvMod == MSQ_MODE_NONBLOCK`. -/
def msqRcv (fault : Option Errno) (q : List Msg) (nMsgLen : ℕ) (nMsgType : ℤ) (nowait : Bool) :
    MsqRcvd :=
  match msgrcv fault q nMsgLen nMsgType nowait with
  | .got m rest => .got (m.mtext.length - sizeofLong)
      ⟨BitVec.ofInt 64 m.mtype, leField sizeofLong m.mtext 0, m.mtext.drop sizeofLong⟩ rest
  | .fail e => .fail e
  | .waiting => .waiting

/-- The text of a queued message behind its source field. -/
def Msg.payload (m : Msg) : List UInt8 := m.mtext.drop sizeofLong

/-! ### Rules -/

/-- The message that a successful `MsqSnd` of `L` payload bytes queues. -/
def IPCQueMsg.queued (m : IPCQueMsg) (L : ℕ) : Msg :=
  ⟨m.nMsgType.toInt, leBytes sizeofLong m.nMsgSource.toNat ++ bufRead m.sBuf 0 L⟩

theorem IPCQueMsg.text_add (m : IPCQueMsg) (L : ℕ) :
    m.text (L + sizeofLong) = leBytes sizeofLong m.nMsgSource.toNat ++ bufRead m.sBuf 0 L := by
  rw [text, Nat.add_comm]
  have h := bufRead_append_add (leBytes sizeofLong m.nMsgSource.toNat) m.sBuf L
  rwa [leBytes_length] at h

@[simp]
theorem IPCQueMsg.queued_mtype (m : IPCQueMsg) (L : ℕ) :
    (m.queued L).mtype = m.nMsgType.toInt :=
  rfl

@[simp]
theorem IPCQueMsg.queued_length (m : IPCQueMsg) (L : ℕ) :
    (m.queued L).mtext.length = sizeofLong + L := by
  simp [queued]

@[simp]
theorem IPCQueMsg.payload_queued (m : IPCQueMsg) (L : ℕ) :
    Msg.payload (m.queued L) = bufRead m.sBuf 0 L :=
  List.drop_left' (leBytes_length _ _)

/-- No early return of `MsqSnd` looks like a success. -/
theorem msqChk_ne_zero (k : SndKernel) (q : List Msg) (chk : IPCChkMsq) :
    msqChk k q chk ≠ some 0 := by
  unfold msqChk
  split
  · split
    · next e _ =>
      have he := e.2
      exact fun h ↦ by
        have := Option.some.inj h
        omega
    · split <;> simp
  · simp

/-- A successful `MsqSnd` appended the payload behind its source field. -/
theorem of_msqSnd_zero {k : SndKernel} {q q' : List Msg} {m : IPCQueMsg} {L : ℕ} {chk : IPCChkMsq}
    (h : msqSnd k q m L chk = (0, q')) :
    q' = q ++ [m.queued L] ∧ 0 < m.nMsgType.toInt ∧ L < busMaxMsgLen := by
  unfold msqSnd at h
  split at h
  · next rc hchk =>
    rw [(Prod.mk.inj h).1] at hchk
    exact absurd hchk (msqChk_ne_zero k q chk)
  · split at h
    · cases h
    · split at h
      · cases h
      · split at h
        · next e _ =>
          have he := e.2
          rw [(Prod.mk.inj h).1] at he
          omega
        · next hlt _ _ hsnd =>
          obtain ⟨rfl, hpos⟩ := of_msgsnd_ok hsnd
          have hsize : ((L : ℤ) + sizeofLong).toNat = L + sizeofLong := by omega
          rw [hsize, IPCQueMsg.text_add] at h
          exact ⟨(Prod.mk.inj h).2.symm, hpos, by omega⟩

/-- The kernel accepts messages up to the limit of the bus into the queue `q`, and the check of the
queue state lets them pass. -/
structure SndKernel.Accepts (k : SndKernel) (q : List Msg) : Prop where
  stat : k.statFault = none
  snd : k.sndFault = none
  num : q.length ≤ msqMaxNum
  max : busMaxMsgLen ≤ k.msgmax

/-- A send that nothing stands against. -/
theorem msqSnd_eq_zero {k : SndKernel} {q : List Msg} {m : IPCQueMsg} {L : ℕ} (hk : k.Accepts q)
    (htype : 0 < m.nMsgType.toInt) (hL : L < busMaxMsgLen)
    (hmax : L + sizeofLong ≤ busMaxMsgLen ∨ L + sizeofLong ≤ k.msgmax) :
    msqSnd k q m L .yes = (0, q ++ [m.queued L]) := by
  obtain ⟨hstat, hsnd, hnum, hbus⟩ := hk
  have hchk : msqChk k q .yes = none := by
    simp only [msqChk, IPCChkMsq.yes, IPCChkMsq.maxNum, hstat, if_true]
    exact if_neg (by omega)
  have hsize : ((L : ℤ) + sizeofLong).toNat = L + sizeofLong := by omega
  have hok : msgsnd none k.msgmax q (m.queued L) = .ok (q ++ [m.queued L]) :=
    msgsnd_none q htype (by
      show (m.queued L).mtext.length ≤ _
      rw [IPCQueMsg.queued_length]
      omega)
  rw [msqSnd, hchk]
  simp only [hsize, IPCQueMsg.text_add, hsnd]
  rw [if_neg (by omega), if_neg (by omega)]
  rw [IPCQueMsg.queued] at hok ⊢
  rw [hok]

/-- **`MsqRcv` of a message at its turn**: the payload comes back, or the message is too long. -/
theorem msqRcv_of_first {m : IPCQueMsg} (L : ℕ) (htype : 0 < m.nMsgType.toInt)
    {pre : List Msg} (hpre : ∀ x ∈ pre, x.mtype ≠ m.nMsgType.toInt) (post : List Msg)
    (nMsgLen : ℕ) (nowait : Bool) :
    msqRcv none (pre ++ m.queued L :: post) nMsgLen m.nMsgType.toInt nowait =
      if sizeofLong + L ≤ nMsgLen then .got L ⟨m.nMsgType, m.nMsgSource, bufRead m.sBuf 0 L⟩ (pre ++ post)
      else .fail E2BIG := by
  have hrcv := msgrcv_of_first htype (m := m.queued L) rfl hpre post nMsgLen nowait
  have hsize : Message.msize (m.queued L) = sizeofLong + L := m.queued_length L
  rw [hsize] at hrcv
  rw [msqRcv, hrcv]
  split
  · next heq =>
    split at heq
    · obtain ⟨rfl, rfl⟩ := Received.got.inj heq
      have hsrc : leField sizeofLong (m.queued L).mtext 0 = m.nMsgSource :=
        leField_eq_of_bufRead (bufRead_append_zero _ _ (leBytes_length _ _))
      have hbuf : (m.queued L).mtext.drop sizeofLong = bufRead m.sBuf 0 L :=
        List.drop_left' (leBytes_length _ _)
      rw [if_pos (by assumption), hsrc, hbuf, IPCQueMsg.queued_length, IPCQueMsg.queued_mtype,
        BitVec.ofInt_toInt]
      congr 1
      omega
    · cases heq
  · next heq =>
    split at heq
    · cases heq
    · rw [if_neg (by assumption)]
      rw [Received.fail.inj heq]
  · next heq => split at heq <;> cases heq

/-- Whatever `MsqRcv` returns is the payload of the oldest message of the type. -/
theorem of_msqRcv_got {fault : Option Errno} {q rest : List Msg} {nMsgLen : ℕ} {nMsgType code : ℤ}
    {nowait : Bool} {ipcMsgIn : IPCQueMsg} (htype : 0 < nMsgType)
    (h : msqRcv fault q nMsgLen nMsgType nowait = .got code ipcMsgIn rest) :
    ∃ pre m post, q = pre ++ m :: post ∧ rest = pre ++ post ∧ (∀ x ∈ pre, x.mtype ≠ nMsgType) ∧
      m.mtype = nMsgType ∧ m.mtext.length ≤ nMsgLen ∧ code = m.mtext.length - sizeofLong ∧
      ipcMsgIn.sBuf = Msg.payload m := by
  rw [msqRcv] at h
  split at h
  · next m rest' hrcv =>
    obtain ⟨hm, hle, pre, post, hq, hrest, hpre⟩ := of_msgrcv_got htype hrcv
    obtain ⟨rfl, rfl, rfl⟩ := MsqRcvd.got.inj h
    exact ⟨pre, m, post, hq, hrest, hpre, hm, hle, rfl, rfl⟩
  · cases h
  · cases h

/-! ### Send and receive compared -/

/-- The queued message `x` is received back at its turn, in a queue that holds `pre` before it and
`post` behind it: `MsqRcv` for its type, with the limit that every receiver of the bus passes,
returns the length `L` and the payload that was sent, and removes the message. -/
def ReceivedBack (m : IPCQueMsg) (L : ℕ) (x : Msg) (pre post : List Msg) (nowait : Bool) : Prop :=
  msqRcv none (pre ++ x :: post) busMaxMsgLen m.nMsgType.toInt nowait =
    .got L ⟨m.nMsgType, m.nMsgSource, bufRead m.sBuf 0 L⟩ (pre ++ post)

theorem receivedBack_queued_iff {m : IPCQueMsg} (L : ℕ) (htype : 0 < m.nMsgType.toInt)
    {pre post : List Msg} (hpre : ∀ y ∈ pre, y.mtype ≠ m.nMsgType.toInt) (nowait : Bool) :
    ReceivedBack m L (m.queued L) pre post nowait ↔ L + sizeofLong ≤ busMaxMsgLen := by
  rw [ReceivedBack, msqRcv_of_first L htype hpre post]
  constructor
  · intro h
    by_contra hlt
    rw [if_neg (by omega)] at h
    cases h
  · intro h
    rw [if_pos (by omega)]

/-- **When a sent message can be received.** A successful `MsqSnd` of `L` bytes queues one
message, and that message is received back at its turn exactly when the payload and the source
field together stay within `BUS_MAX_MSG_LEN`. -/
theorem msqRcv_of_msqSnd_iff {k : SndKernel} {q q' : List Msg} {m : IPCQueMsg} {L : ℕ}
    {chk : IPCChkMsq} (h : msqSnd k q m L chk = (0, q')) :
    ∃ x, q' = q ++ [x] ∧ ∀ (pre post : List Msg) (nowait : Bool),
      (∀ y ∈ pre, y.mtype ≠ m.nMsgType.toInt) →
        (ReceivedBack m L x pre post nowait ↔ L + sizeofLong ≤ busMaxMsgLen) := by
  obtain ⟨rfl, htype, -⟩ := of_msqSnd_zero h
  exact ⟨m.queued L, rfl, fun _ _ nowait hpre ↦ receivedBack_queued_iff L htype hpre nowait⟩

/-- A payload of three bytes, sent and received in an otherwise empty queue. -/
theorem msqRcv_of_msqSnd_three :
    msqSnd ⟨none, none, 8192⟩ [] ⟨300001, 0, [65, 66, 67]⟩ 3 .yes =
      (0, [(⟨300001, 0, [65, 66, 67]⟩ : IPCQueMsg).queued 3]) ∧
    ReceivedBack ⟨300001, 0, [65, 66, 67]⟩ 3
      ((⟨300001, 0, [65, 66, 67]⟩ : IPCQueMsg).queued 3) [] [] false := by
  have hsnd : msqSnd ⟨none, none, 8192⟩ [] ⟨300001, 0, [65, 66, 67]⟩ (3 : ℕ) .yes =
      (0, [(⟨300001, 0, [65, 66, 67]⟩ : IPCQueMsg).queued 3]) :=
    msqSnd_eq_zero ⟨rfl, rfl, by decide, by decide⟩ (by decide) (by decide) (.inl (by decide))
  obtain ⟨x, hx, hrcv⟩ := msqRcv_of_msqSnd_iff hsnd
  obtain rfl := List.singleton_inj.1 hx
  exact ⟨hsnd, (hrcv [] [] false (by simp)).2 (by decide)⟩

/-- A payload of 4053 bytes is sent but cannot be received. -/
theorem msqSnd_4053_not_receivedBack :
    msqSnd ⟨none, none, 8192⟩ [] ⟨300001, 0, []⟩ (4053 : ℕ) .yes =
      (0, [(⟨300001, 0, []⟩ : IPCQueMsg).queued 4053]) ∧
    ¬ ReceivedBack ⟨300001, 0, []⟩ 4053 ((⟨300001, 0, []⟩ : IPCQueMsg).queued 4053) [] [] false :=
  ⟨msqSnd_eq_zero ⟨rfl, rfl, by decide, by decide⟩ (by decide) (by decide) (.inr (by decide)),
    fun h ↦ absurd ((receivedBack_queued_iff 4053 (by decide) (by simp) false).1 h) (by decide)⟩

end Sunda
