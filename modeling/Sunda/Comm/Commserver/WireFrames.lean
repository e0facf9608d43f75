import Sunda.Base.Pieces
import Sunda.Comm.Commserver.ReplyRouting

/-!
# What is written to a connection

The runs of `ReplyRouting`, down to the `write` calls: `write_task` and `response_err_req` hand a frame
to `WriteSocket`, which writes it piece by piece and gives up when a `write` call fails. The threads
write at the same time, and a `write` call goes to whichever connection has the descriptor then.

`frames_on_wire` says that the bytes on every connection are whole frames with at most one incomplete
frame at the end, behind which nothing is written, in every run in which frames start between frames
(`wireGuard`): not on a connection on which an earlier `WriteSocket` has given up partway, nor while
another one is partway. Both callers of `WriteSocket` only log that it failed and keep the connection,
so the next response is written behind the torn one: `frame_behind_torn_frame`.
-/

namespace Sunda

open Bytes Arrivals SysV Pieces

/-! ### The system -/

/-- The threads that write to connections. -/
inductive Thread
  | writer
  | reader (idx : ℕ)
  deriving DecidableEq

/-- The server between two `write` calls. -/
structure WireState where
  route : RouteState
  /-- The threads that are in `WriteSocket`. -/
  calls : Thread → Option WriteCall
  /-- The frames that were handed to `WriteSocket`. -/
  handed : List (List UInt8)
  /-- The bytes that were written to a connection. -/
  sent : Conn → List UInt8
  /-- A `WriteSocket` to the connection gave up partway. -/
  failed : Conn → Bool

inductive WireAct
  | route (a : RouteAct)
  /-- The `write` call of a thread returns `nNum`. -/
  | write (t : Thread) (nNum : ℕ)
  /-- The `write` call of a thread fails. -/
  | fail (t : Thread)

/-- The thread that takes a step. -/
def threadOf : RouteAct → Option Thread
  | .read idx .. => some (.reader idx)
  | .write .. => some .writer
  | _ => none

/-- The arguments of the `WriteSocket` that a step ends with: in `response_err_req` and in
`write_task`. -/
def handedFrame (num : ℕ) (s : RouteState) : RouteAct → Option (BitVec 32 × List UInt8)
  | .read idx mb k realLen q sock =>
    match readClaim s.mem idx with
    | .claimed _ _ tClient =>
      match (readTask mb k realLen q sock tClient.fd tClient).1 with
      | .errRsp frame =>
        (s.opened.find? (·.fd = tClient.fd.toNat)).map fun _ ↦ (tClient.fd, frame)
      | _ => none
    | _ => none
  | .write junk attached fault errno =>
    match writeTask s.mem num junk attached fault errno s.replies s.iBufLen with
    | .write _ _ _ fd frame => some (fd, frame)
    | _ => none
  | _ => none

/-- A step that ends in `WriteSocket` begins a call. -/
def WireState.begin (s : WireState) (t : Option Thread) (r : Option (BitVec 32 × List UInt8)) :
    WireState :=
  match t, r with
  | some t, some (fd, frame) => { s with
      calls := Function.update s.calls t (writeSocket fd frame)
      handed := frame :: s.handed }
  | _, _ => s

/-- The connection that a descriptor means. -/
def WireState.connOf (s : WireState) (fd : BitVec 32) : Option Conn :=
  s.route.opened.find? (·.fd = fd.toNat)

/-- One step. A thread in `WriteSocket` does nothing else. -/
def wireStep (num : ℕ) (idletime : BitVec 32) (s : WireState) : WireAct → Option WireState
  | .route a =>
    if ((threadOf a).bind s.calls).isNone then
      (routeStep num idletime s.route a).map fun r ↦
        WireState.begin { s with route := r } (threadOf a) (handedFrame num s.route a)
    else none
  | .write t nNum =>
    (s.calls t).bind fun c ↦
      if 0 < nNum ∧ c.nWriteLen + nNum ≤ c.sBuf.length then
        some { s with
          calls := Function.update s.calls t (c.next nNum)
          sent := (s.connOf c.nSocket).elim s.sent fun conn ↦
            Function.update s.sent conn (s.sent conn ++ c.written nNum) }
      else none
  | .fail t =>
    (s.calls t).map fun c ↦ { s with
      calls := Function.update s.calls t none
      failed := (s.connOf c.nSocket).elim s.failed fun conn ↦
        Function.update s.failed conn (s.failed conn || decide (0 < c.nWriteLen)) }

/-- The state at the start of the server. -/
def wireInit (num : ℕ) : WireState where
  route := ⟨commInit num, 0, [], [], [], [], 0, true⟩
  calls := fun _ ↦ none
  handed := []
  sent := fun _ ↦ []
  failed := fun _ ↦ false

/-- The system. -/
def wireSystem (num : ℕ) (idletime : BitVec 32) : Guarded WireState WireAct :=
  .ofFn (· = wireInit num) (wireStep num idletime)

/-! ### What is claimed -/

/-- A whole frame: four characters that announce the number of bytes behind them. -/
def WholeFrame (bs : List UInt8) : Prop :=
  ∃ n : ℕ, Decimal.atoi (bs.take socketMsgHeadLen) = n ∧ bs.length = socketMsgHeadLen + n

/-- The thread is in `WriteSocket` for the descriptor and has written a part of its frame. -/
def PartwayOf (s : WireState) (fd : ℕ) (t : Thread) (c : WriteCall) : Prop :=
  s.calls t = some c ∧ c.nSocket.toNat = fd ∧ 0 < c.nWriteLen

/-- Some thread is partway in a frame for the descriptor. -/
def Partway (s : WireState) (fd : ℕ) : Prop :=
  ∃ t c, PartwayOf s fd t c

/-- The last frame on the connection is incomplete, and no thread is partway in it. -/
def Torn (s : WireState) (conn : Conn) : Prop :=
  ¬ IsConcat {f | f ∈ s.handed} (s.sent conn) ∧ (conn ∈ s.route.opened → ¬ Partway s conn.fd)

/-- The frames handed to `WriteSocket` are whole, and the bytes on every connection are such frames one
after the other, with at most one incomplete frame at the end. -/
structure FramesOnWire (s : WireState) : Prop where
  whole : ∀ f ∈ s.handed, WholeFrame f
  frames : ∀ conn, IsConcatThenPart {f | f ∈ s.handed} (s.sent conn)

/-! ### The condition on a step -/

/-- A connection is not accepted on a descriptor for which a thread is partway in a frame. The first
bytes of a frame are not written to a connection on which a `WriteSocket` has given up partway or
another thread is partway. -/
def wireGuard (s : WireState) : WireAct → Prop
  | .route (.accept fd _) => ¬ Partway s fd
  | .write t _ => ∀ c, s.calls t = some c → c.nWriteLen = 0 → ∀ conn, s.connOf c.nSocket = some conn →
      s.failed conn = false ∧ ¬ Partway s conn.fd
  | _ => True

/-! ### Frames -/

/-- A prefix of four digits and what it announces. -/
theorem wholeFrame_of_prefix {n : ℕ} (hn : n < 10 ^ socketMsgHeadLen) {bs body : List UInt8}
    (hbs : bs = Decimal.sprintf0d socketMsgHeadLen n ++ body) (hbody : body.length = n) :
    WholeFrame bs := by
  have hlen : (Decimal.sprintf0d socketMsgHeadLen n).length = socketMsgHeadLen :=
    Decimal.sprintf0d_length (by decide) hn
  have h31 : n < 2 ^ 31 := Nat.lt_trans hn (by decide)
  subst hbs
  refine ⟨n, ?_, ?_⟩
  · rw [List.take_left' hlen, Decimal.atoi_sprintf0d _ h31]
  · rw [List.length_append, hlen, hbody]

theorem wholeFrame_responseErrReq (reqHead : SundaReqHead) : WholeFrame (responseErrReq reqHead) :=
  wholeFrame_of_prefix (n := sizeofReqHead) (by decide) rfl reqHead.toBytes_length

theorem wholeFrame_rspFrame (sSrcBuf : List UInt8) {n : ℕ} (hn : n < 10 ^ socketMsgHeadLen) :
    WholeFrame (rspFrame sSrcBuf n) := by
  have hlen : (Decimal.sprintf0d socketMsgHeadLen n).length = socketMsgHeadLen :=
    Decimal.sprintf0d_length (by decide) hn
  have hsplit := bufRead_append_add (Decimal.sprintf0d socketMsgHeadLen n)
    ((rspReqHead (.ofBytes sSrcBuf)).toBytes ++ bufRead sSrcBuf sizeofIPCMsgHead n) n
  rw [hlen] at hsplit
  refine wholeFrame_of_prefix hn ?_ (bufRead_length ((rspReqHead (.ofBytes sSrcBuf)).toBytes ++
    bufRead sSrcBuf sizeofIPCMsgHead n) 0 n)
  rw [rspFrame, List.take_of_length_le (Nat.le_of_eq hlen), Nat.add_comm, hsplit]

/-- The length of a reply in `write_task`, which is kept if a receive fails. -/
def RspBounded (n : ℤ) : Prop := 0 ≤ n ∧ n ≤ busMaxMsgLen

theorem rspLen_lt {n : ℤ} (hn : RspBounded n) :
    (rspLen n).toNat < 10 ^ socketMsgHeadLen := by
  obtain ⟨hlow, hhigh⟩ := hn
  rw [rspLen, BitVec.toInt_ofInt, Int.bmod_def] at *
  rw [busMaxMsgLen] at hhigh
  rw [sizeofIPCMsgHead, sizeofReqHead, socketMsgHeadLen] at *
  omega

/-- A frame that `writeResponse` hands on is whole. -/
theorem wholeFrame_of_writeResponse {m mem : WordMem} {num : ℕ} {junk n n' : ℤ} {buf frame : List UInt8}
    {rest rest' : List Msg} {fd : BitVec 32} (hn : RspBounded n)
    (h : writeResponse m num junk buf n rest = .write rest' n' mem fd frame) :
    WholeFrame frame ∧ n' = n := by
  simp only [writeResponse] at h
  split at h
  · cases h
  · split at h
    · cases h
    · obtain ⟨-, rfl, -, -, rfl⟩ := WriteOut.write.inj h
      exact ⟨wholeFrame_rspFrame buf (rspLen_lt hn), rfl⟩

/-- What an iteration of `write_task` leaves in `iBufLen`, and what it hands to `WriteSocket`. -/
theorem writeTask_bounded {m : WordMem} {num : ℕ} {junk errno iBufLen : ℤ} {attached : Bool}
    {fault : Option Errno} {q : List Msg} (hn : RspBounded iBufLen) :
    (∀ rest n, writeTask m num junk attached fault errno q iBufLen = .next rest n → RspBounded n) ∧
    ∀ rest n mem fd frame,
      writeTask m num junk attached fault errno q iBufLen = .write rest n mem fd frame →
        RspBounded n ∧ WholeFrame frame := by
  have hresponse : ∀ buf k rest, RspBounded k →
      (∀ rest' n, writeResponse m num junk buf k rest = .next rest' n → RspBounded n) ∧
      ∀ rest' n mem fd frame,
        writeResponse m num junk buf k rest = .write rest' n mem fd frame →
          RspBounded n ∧ WholeFrame frame := by
    intro buf k rest hk
    refine ⟨fun rest' n h ↦ ?_, fun rest' n mem fd frame h ↦ ?_⟩
    · simp only [writeResponse] at h
      split at h
      · cases h
      · split at h
        · obtain ⟨-, rfl⟩ := WriteOut.next.inj h
          exact hk
        · cases h
    · obtain ⟨hframe, rfl⟩ := wholeFrame_of_writeResponse hk h
      exact ⟨hk, hframe⟩
  rw [writeTask]
  cases hget : tuxGetreply attached fault errno q commSMsgTypeRoot 0 with
  | waiting => simp
  | got buf k rest =>
    obtain ⟨_, _, _, -, -, -, -, -, hlen, hle⟩ := of_tuxGetreply_got (by decide) hget
    refine hresponse buf k rest ⟨by omega, ?_⟩
    rw [hlen]
    exact_mod_cast hle
  | fail tuxErrno rest =>
    dsimp only
    split
    · simp
    · split
      · refine ⟨fun rest' n h ↦ ?_, fun _ _ _ _ _ h ↦ by cases h⟩
        obtain ⟨-, rfl⟩ := WriteOut.next.inj h
        exact hn
      · exact hresponse [] iBufLen rest hn

/-- Every frame that a step hands to `WriteSocket` is whole. -/
theorem wholeFrame_of_handedFrame {num : ℕ} {s : RouteState} {a : RouteAct} {fd : BitVec 32}
    {frame : List UInt8} (hn : RspBounded s.iBufLen) (h : handedFrame num s a = some (fd, frame)) :
    WholeFrame frame := by
  cases a with
  | read idx mb k realLen q sock =>
    rw [handedFrame] at h
    split at h
    · next mem j tClient hclaim =>
      split at h
      · next frame' hread =>
        obtain ⟨conn, -, heq⟩ := Option.map_eq_some_iff.1 h
        obtain ⟨-, rfl⟩ := Prod.mk.inj heq
        obtain ⟨reqHead, rfl⟩ := of_readTask_errRsp hread
        exact wholeFrame_responseErrReq reqHead
      · cases h
    · cases h
  | write junk attached fault errno =>
    rw [handedFrame] at h
    split at h
    · next rest n mem fd' frame' hwrite =>
      obtain ⟨-, rfl⟩ := Prod.mk.inj (Option.some.inj h)
      exact ((writeTask_bounded hn).2 _ _ _ _ _ hwrite).2
    · cases h
  | accept fd now => cases h
  | event fd => cases h
  | error fd => cases h
  | timeout now fuel => cases h
  | reply r mb k realLen rsp rsplen flags => cases h

/-! ### Steps of the server -/

/-- What a read does to the connections. -/
theorem routeRead_opened {num : ℕ} {s s' : RouteState} {mem : WordMem} {tClient : ConnectHandle}
    {mb : MbCtrl} {k : SndKernel} {realLen : ℤ} {q : List Msg} {sock : Sock UInt8}
    (hs : routeRead num s mem tClient mb k realLen q sock = some s') :
    s'.accepted = s.accepted ∧ s'.opened.Sublist s.opened ∧ s'.iBufLen = s.iBufLen := by
  rw [routeRead] at hs
  split at hs
  · obtain rfl := Option.some.inj hs
    exact ⟨rfl, List.filter_sublist, rfl⟩
  · split at hs
    · obtain rfl := Option.some.inj hs
      exact ⟨rfl, List.filter_sublist, rfl⟩
    · obtain rfl := Option.some.inj hs
      exact ⟨rfl, List.Sublist.refl _, rfl⟩
    · obtain rfl := Option.some.inj hs
      exact ⟨rfl, List.Sublist.refl _, rfl⟩
    · cases hs

/-- A step opens one connection, on a descriptor that is free, or none; and the length that `write_task`
keeps stays bounded. -/
theorem routeStep_cases {num : ℕ} {idletime : BitVec 32} {s s' : RouteState} {a : RouteAct}
    (hs : routeStep num idletime s a = some s') :
    ((∃ fd now, a = .accept fd now ∧ fd ∉ s.opened.map Conn.fd ∧ s'.accepted = s.accepted ++ [fd] ∧
        s'.opened = ⟨fd, s.accepted.length⟩ :: s.opened) ∨
      (s'.accepted = s.accepted ∧ s'.opened.Sublist s.opened)) ∧
    (RspBounded s.iBufLen → RspBounded s'.iBufLen) := by
  cases a with
  | accept fd now =>
    rw [routeStep] at hs
    split at hs
    · next hnew =>
      split at hs
      · obtain rfl := Option.some.inj hs
        exact ⟨.inl ⟨fd, now, rfl, hnew.2.1, rfl, rfl⟩, id⟩
      · obtain rfl := Option.some.inj hs
        exact ⟨.inr ⟨rfl, List.Sublist.refl _⟩, id⟩
    · cases hs
  | event fd =>
    rw [routeStep] at hs
    split at hs
    · obtain rfl := Option.some.inj hs
      cases getConnectPos s.mem (fd % num) (BitVec.ofNat 32 fd) with
      | none => exact ⟨.inr ⟨rfl, List.filter_sublist⟩, id⟩
      | some j => exact ⟨.inr ⟨rfl, List.Sublist.refl _⟩, id⟩
    · cases hs
  | error fd =>
    rw [routeStep] at hs
    split at hs
    · obtain rfl := Option.some.inj hs
      exact ⟨.inr ⟨rfl, List.filter_sublist⟩, id⟩
    · cases hs
  | timeout now fuel =>
    obtain ⟨r, -, rfl⟩ := Option.map_eq_some_iff.1 hs
    exact ⟨.inr ⟨rfl, List.filter_sublist⟩, id⟩
  | read idx mb k realLen q sock =>
    rw [routeStep] at hs
    split at hs
    · split at hs
      · cases hs
      · obtain rfl := Option.some.inj hs
        exact ⟨.inr ⟨rfl, List.Sublist.refl _⟩, id⟩
      · obtain ⟨haccepted, hsub, hlen⟩ := routeRead_opened hs
        exact ⟨.inr ⟨haccepted, hsub⟩, fun hn ↦ hlen ▸ hn⟩
    · cases hs
  | reply r mb k realLen rsp rsplen flags =>
    rw [routeStep] at hs
    split at hs
    · obtain ⟨p, -, rfl⟩ := Option.map_eq_some_iff.1 hs
      exact ⟨.inr ⟨rfl, List.Sublist.refl _⟩, id⟩
    · cases hs
  | write junk attached fault errno =>
    rw [routeStep] at hs
    split at hs
    · split at hs
      · obtain rfl := Option.some.inj hs
        exact ⟨.inr ⟨rfl, List.Sublist.refl _⟩, id⟩
      · obtain rfl := Option.some.inj hs
        exact ⟨.inr ⟨rfl, List.Sublist.refl _⟩, id⟩
      · next heq =>
        obtain rfl := Option.some.inj hs
        exact ⟨.inr ⟨rfl, List.Sublist.refl _⟩, fun hn ↦ (writeTask_bounded hn).1 _ _ heq⟩
      · next heq =>
        obtain rfl := Option.some.inj hs
        exact ⟨.inr ⟨rfl, List.Sublist.refl _⟩, fun hn ↦ ((writeTask_bounded hn).2 _ _ _ _ _ heq).1⟩
      · cases hs
    · cases hs

/-! ### The invariant -/

/-- What is on a connection: whole frames; or whole frames and the part that the only thread partway in
a frame has written; or an incomplete frame to which nothing can be added, because the connection is
closed or a `WriteSocket` has given up on it. -/
inductive OnWire (s : WireState) (conn : Conn) : Prop
  | whole (hsent : IsConcat {f | f ∈ s.handed} (s.sent conn)) (hfailed : s.failed conn = false)
      (hidle : conn ∈ s.route.opened → ¬ Partway s conn.fd)
  | partway (t : Thread) (c : WriteCall) (pre : List UInt8) (hcall : PartwayOf s conn.fd t c)
      (honly : ∀ t' c', PartwayOf s conn.fd t' c' → t' = t) (hpre : IsConcat {f | f ∈ s.handed} pre)
      (hsent : s.sent conn = pre ++ c.sBuf.take c.nWriteLen) (hfailed : s.failed conn = false)
      (hopen : conn ∈ s.route.opened)
  | torn (hsent : IsConcatThenPart {f | f ∈ s.handed} (s.sent conn))
      (hend : conn ∈ s.route.opened → s.failed conn = true ∧ ¬ Partway s conn.fd)

structure WireInv (s : WireState) : Prop where
  nodup : (s.route.opened.map Conn.fd).Nodup
  gen : ∀ conn ∈ s.route.opened, conn.gen < s.route.accepted.length
  fresh : ∀ conn : Conn, s.route.accepted.length ≤ conn.gen →
    s.sent conn = [] ∧ s.failed conn = false
  iBufLen : RspBounded s.route.iBufLen
  whole : ∀ f ∈ s.handed, WholeFrame f
  calls : ∀ t c, s.calls t = some c → c.sBuf ∈ s.handed ∧ c.nWriteLen < c.sBuf.length
  wire : ∀ conn, OnWire s conn

theorem wireInv_init (num : ℕ) : WireInv (wireInit num) where
  nodup := List.nodup_nil
  gen conn h := absurd h List.not_mem_nil
  fresh _ _ := ⟨rfl, rfl⟩
  iBufLen := ⟨by simp [wireInit], by simp [wireInit]⟩
  whole f h := absurd h List.not_mem_nil
  calls t c h := by cases h
  wire conn := .whole .nil rfl fun h ↦ absurd h List.not_mem_nil

/-- Storing at the connection of a descriptor leaves the others as they are. -/
theorem elim_update_of_ne {β : Type} {o : Option Conn} {f g : Conn → β} {conn : Conn}
    (hne : o ≠ some conn) :
    o.elim f (fun conn' ↦ Function.update f conn' (g conn')) conn = f conn := by
  cases o with
  | none => rfl
  | some conn' => rw [Option.elim_some, Function.update_of_ne fun h0 ↦ hne (congrArg some h0.symm)]

namespace WireInv

variable {num : ℕ} {idletime : BitVec 32} {s s' : WireState} {conn : Conn}

/-! ### What follows from the invariant -/

theorem framesOnWire (h : WireInv s) : FramesOnWire s where
  whole := h.whole
  frames conn := by
    cases h.wire conn with
    | whole hsent hfailed hidle => exact hsent.thenPart
    | partway t c pre hcall honly hpre hsent hfailed hopen =>
      obtain ⟨hmem, hlt⟩ := h.calls t c hcall.1
      rw [hsent]
      exact hpre.append_take hmem hlt
    | torn hsent hend => exact hsent

/-- The connection that a descriptor means. -/
theorem connOf_eq_some (h : WireInv s) {fd : BitVec 32} :
    s.connOf fd = some conn ↔ conn ∈ s.route.opened ∧ conn.fd = fd.toNat := by
  constructor
  · intro hfind
    exact ⟨List.mem_of_find?_eq_some hfind, by simpa using List.find?_some hfind⟩
  · rintro ⟨hmem, hfd⟩
    cases hfind : s.connOf fd with
    | none => exact absurd hfd (by simpa using List.find?_eq_none.1 hfind conn hmem)
    | some conn' =>
      have hfd' : conn'.fd = fd.toNat := by simpa using List.find?_some hfind
      rw [List.inj_on_of_nodup_map h.nodup (List.mem_of_find?_eq_some hfind) hmem
        (hfd'.trans hfd.symm)]

/-- No descriptor means a connection that does not exist yet. -/
theorem connOf_ne_of_gen (h : WireInv s) (hgen : s.route.accepted.length ≤ conn.gen)
    (fd : BitVec 32) : s.connOf fd ≠ some conn := by
  intro hof
  have hlt := h.gen conn (h.connOf_eq_some.1 hof).1
  omega

/-- Nothing is written behind a torn frame. -/
theorem connOf_ne_of_torn (h : WireInv s) (htorn : Torn s conn) {t : Thread} {nNum : ℕ}
    (hguard : wireGuard s (.write t nNum)) {c : WriteCall} (hc : s.calls t = some c) :
    s.connOf c.nSocket ≠ some conn := by
  intro hconn
  obtain ⟨hopen, hfd⟩ := h.connOf_eq_some.1 hconn
  obtain ⟨hnot, hidle⟩ := htorn
  rcases Nat.eq_zero_or_pos c.nWriteLen with hzero | hpos
  · -- a new frame would start
    cases h.wire conn with
    | whole hsent hfailed _ => exact hnot hsent
    | partway t' c' _ hcall _ _ _ _ _ => exact hidle hopen ⟨t', c', hcall⟩
    | torn _ hend =>
      have hfailed := (hguard c hc hzero conn hconn).1
      rw [(hend hopen).1] at hfailed
      cases hfailed
  · exact hidle hopen ⟨t, c, hc, hfd.symm, hpos⟩

/-! ### Connections that a step leaves alone -/

/-- The bytes on a connection stay, and the threads that are partway in a frame for it; it may be
closed. -/
theorem onWire_of_eq (h : WireInv s) (hhanded : s.handed ⊆ s'.handed)
    (hsent : s'.sent conn = s.sent conn) (hfailed : s'.failed conn = s.failed conn)
    (hopen : conn ∈ s'.route.opened → conn ∈ s.route.opened)
    (hcalls : conn ∈ s'.route.opened → ∀ t c, PartwayOf s' conn.fd t c ↔ PartwayOf s conn.fd t c) :
    OnWire s' conn := by
  have hsub : {f | f ∈ s.handed} ⊆ {f | f ∈ s'.handed} := fun f hf ↦ hhanded hf
  have hidle : conn ∈ s'.route.opened → ¬ Partway s conn.fd → ¬ Partway s' conn.fd := by
    rintro hmem hnot ⟨t, c, hc⟩
    exact hnot ⟨t, c, (hcalls hmem t c).1 hc⟩
  cases h.wire conn with
  | whole hs hf hi =>
    refine .whole (hsent ▸ hs.mono hsub) (hfailed.trans hf) fun hmem ↦ ?_
    exact hidle hmem (hi (hopen hmem))
  | partway t c pre hcall honly hpre hs hf _ =>
    by_cases hmem : conn ∈ s'.route.opened
    · exact .partway t c pre ((hcalls hmem t c).2 hcall)
        (fun t' c' h' ↦ honly t' c' ((hcalls hmem t' c').1 h')) (hpre.mono hsub) (hsent.trans hs)
        (hfailed.trans hf) hmem
    · -- the connection was closed within the frame
      obtain ⟨hc, hlt⟩ := h.calls t c hcall.1
      refine .torn ?_ fun hmem' ↦ absurd hmem' hmem
      rw [hsent, hs]
      exact (hpre.append_take hc hlt).mono hsub
  | torn hs he =>
    refine .torn (hsent ▸ hs.mono hsub) fun hmem ↦ ?_
    obtain ⟨hf, hi⟩ := he (hopen hmem)
    exact ⟨hfailed.trans hf, hidle hmem hi⟩

/-- A thread moves on in a call for another descriptor. -/
theorem partwayOf_update_of_ne {t : Thread} {c : WriteCall} (hc : s.calls t = some c) {fd : ℕ}
    (hne : c.nSocket.toNat ≠ fd) {r : Option WriteCall}
    (hr : ∀ c', r = some c' → c'.nSocket = c.nSocket) (hs' : s'.calls = Function.update s.calls t r)
    (t' : Thread) (c' : WriteCall) : PartwayOf s' fd t' c' ↔ PartwayOf s fd t' c' := by
  rw [PartwayOf, PartwayOf, hs']
  rcases eq_or_ne t' t with rfl | hne'
  · rw [Function.update_self, hc]
    constructor
    · rintro ⟨hr', hfd, -⟩
      exact absurd (hr c' hr' ▸ hfd) hne
    · rintro ⟨heq, hfd, -⟩
      obtain rfl := Option.some.inj heq
      exact absurd hfd hne
  · rw [Function.update_of_ne hne']

/-! ### Steps -/

/-- A call that begins has written nothing. -/
theorem partwayOf_begin {t : Option Thread} (hfree : t.bind s.calls = none)
    (r : Option (BitVec 32 × List UInt8)) (fd : ℕ) (t' : Thread) (c : WriteCall) :
    PartwayOf (s.begin t r) fd t' c ↔ PartwayOf s fd t' c := by
  rcases t with _ | t
  · rfl
  · rcases r with _ | ⟨fd', frame⟩
    · rfl
    · have hnone : s.calls t = none := hfree
      show Function.update s.calls t (writeSocket fd' frame) t' = some c ∧ _ ↔ s.calls t' = some c ∧ _
      rcases eq_or_ne t' t with rfl | hne
      · rw [Function.update_self, hnone, writeSocket]
        constructor
        · rintro ⟨hc, -, hpos⟩
          split at hc
          · cases hc
          · obtain rfl := Option.some.inj hc
            exact absurd hpos (Nat.lt_irrefl 0)
        · rintro ⟨hc, -⟩
          cases hc
      · rw [Function.update_of_ne hne]

/-- The calls behind a step of the server. -/
theorem calls_begin
    (h : ∀ t c, s.calls t = some c → c.sBuf ∈ s.handed ∧ c.nWriteLen < c.sBuf.length)
    (t : Option Thread) (r : Option (BitVec 32 × List UInt8)) (t' : Thread) (c : WriteCall)
    (hc : (s.begin t r).calls t' = some c) :
    c.sBuf ∈ (s.begin t r).handed ∧ c.nWriteLen < c.sBuf.length := by
  rcases t with _ | t
  · exact h t' c hc
  · rcases r with _ | ⟨fd', frame⟩
    · exact h t' c hc
    · have hcall : Function.update s.calls t (writeSocket fd' frame) t' = some c := hc
      show c.sBuf ∈ frame :: s.handed ∧ _
      rcases eq_or_ne t' t with rfl | hne
      · rw [Function.update_self, writeSocket] at hcall
        split at hcall
        · cases hcall
        · next hframe =>
          obtain rfl := Option.some.inj hcall
          refine ⟨List.mem_cons_self, List.length_pos_of_ne_nil fun hnil ↦ hframe ?_⟩
          rw [List.isEmpty_iff]
          exact hnil
      · rw [Function.update_of_ne hne] at hcall
        obtain ⟨hmem, hlt⟩ := h t' c hcall
        exact ⟨List.mem_cons_of_mem frame hmem, hlt⟩

/-- What `begin` leaves alone, and the frames it adds. -/
theorem begin_spec (s : WireState) (t : Option Thread) (r : Option (BitVec 32 × List UInt8)) :
    (s.begin t r).route = s.route ∧ (s.begin t r).sent = s.sent ∧ (s.begin t r).failed = s.failed ∧
      s.handed ⊆ (s.begin t r).handed ∧
      ∀ f ∈ (s.begin t r).handed, f ∈ s.handed ∨ ∃ fd, r = some (fd, f) := by
  rcases t with _ | t
  · exact ⟨rfl, rfl, rfl, fun _ hf ↦ hf, fun _ hf ↦ .inl hf⟩
  · rcases r with _ | ⟨fd, frame⟩
    · exact ⟨rfl, rfl, rfl, fun _ hf ↦ hf, fun _ hf ↦ .inl hf⟩
    · refine ⟨rfl, rfl, rfl, fun f hf ↦ List.mem_cons_of_mem frame hf, fun f hf ↦ ?_⟩
      rcases List.mem_cons.1 hf with rfl | hf
      · exact .inr ⟨fd, rfl⟩
      · exact .inl hf

/-- A step of the server writes nothing: what is on the connections is as it was, and so is where the
threads are partway. -/
structure Unwritten (s s' : WireState) : Prop where
  sent : s'.sent = s.sent
  failed : s'.failed = s.failed
  handed : s.handed ⊆ s'.handed
  partway : ∀ fd t c, PartwayOf s' fd t c ↔ PartwayOf s fd t c
  whole : ∀ f ∈ s'.handed, WholeFrame f
  calls : ∀ t c, s'.calls t = some c → c.sBuf ∈ s'.handed ∧ c.nWriteLen < c.sBuf.length
  iBufLen : RspBounded s'.route.iBufLen

/-- A thread that is between two calls begins one. -/
theorem unwritten_begin (h : WireInv s) {r : RouteState} {a : RouteAct}
    (hfree : (threadOf a).bind s.calls = none) (hlen : RspBounded r.iBufLen) :
    Unwritten s (WireState.begin { s with route := r } (threadOf a) (handedFrame num s.route a)) := by
  obtain ⟨hroute, hsent, hfailed, hhanded, hnew⟩ :=
    begin_spec { s with route := r } (threadOf a) (handedFrame num s.route a)
  refine ⟨hsent, hfailed, hhanded, partwayOf_begin (s := { s with route := r }) hfree _, fun f hf ↦ ?_,
    calls_begin (s := { s with route := r }) h.calls _ _, by rw [hroute]; exact hlen⟩
  rcases hnew f hf with hf | ⟨fd, hf⟩
  · exact h.whole f hf
  · exact wholeFrame_of_handedFrame h.iBufLen hf

/-- A connection is accepted, for whose descriptor no thread is partway. -/
theorem connected (h : WireInv s) {fd : ℕ} (hfd : fd ∉ s.route.opened.map Conn.fd)
    (haccepted : s'.route.accepted = s.route.accepted ++ [fd])
    (hopened : s'.route.opened = ⟨fd, s.route.accepted.length⟩ :: s.route.opened)
    (hidle : ¬ Partway s fd) (hs : Unwritten s s') : WireInv s' := by
  refine ⟨?_, fun conn hconn ↦ ?_, fun conn hconn ↦ ?_, hs.iBufLen, hs.whole, hs.calls, fun conn ↦ ?_⟩
  · rw [hopened]
    exact List.nodup_cons.2 ⟨hfd, h.nodup⟩
  · rw [hopened] at hconn
    rw [haccepted, List.length_append, List.length_singleton]
    rcases List.mem_cons.1 hconn with rfl | hconn
    · exact Nat.lt_succ_self _
    · exact Nat.lt_succ_of_lt (h.gen conn hconn)
  · rw [haccepted, List.length_append, List.length_singleton] at hconn
    rw [hs.sent, hs.failed]
    exact h.fresh conn (Nat.le_of_succ_le hconn)
  · rcases eq_or_ne conn ⟨fd, s.route.accepted.length⟩ with rfl | hne
    · obtain ⟨hnil, hok⟩ := h.fresh ⟨fd, s.route.accepted.length⟩ (Nat.le_refl _)
      refine .whole ?_ (hs.failed ▸ hok) fun _ ↦ ?_
      · rw [hs.sent]
        exact hnil ▸ IsConcat.nil
      · rintro ⟨t, c, hc⟩
        exact hidle ⟨t, c, (hs.partway _ t c).1 hc⟩
    · refine h.onWire_of_eq hs.handed (by rw [hs.sent]) (by rw [hs.failed]) (fun hmem ↦ ?_)
        fun _ ↦ hs.partway conn.fd
      rw [hopened] at hmem
      exact (List.mem_cons.1 hmem).resolve_left hne

/-- No connection is accepted, and some may be closed. -/
theorem narrowed (h : WireInv s) (haccepted : s'.route.accepted = s.route.accepted)
    (hsub : s'.route.opened.Sublist s.route.opened) (hs : Unwritten s s') : WireInv s' := by
  refine ⟨h.nodup.sublist (hsub.map _), fun conn hconn ↦ ?_, fun conn hconn ↦ ?_, hs.iBufLen, hs.whole,
    hs.calls, fun conn ↦ ?_⟩
  · rw [haccepted]
    exact h.gen conn (hsub.subset hconn)
  · rw [haccepted] at hconn
    rw [hs.sent, hs.failed]
    exact h.fresh conn hconn
  · exact h.onWire_of_eq hs.handed (by rw [hs.sent]) (by rw [hs.failed]) (fun hmem ↦ hsub.subset hmem)
      fun _ ↦ hs.partway conn.fd

theorem route (h : WireInv s) {a : RouteAct} (hguard : wireGuard s (.route a))
    (hs : wireStep num idletime s (.route a) = some s') : WireInv s' := by
  rw [wireStep] at hs
  split at hs
  · next hfree =>
    obtain ⟨r, hr, rfl⟩ := Option.map_eq_some_iff.1 hs
    obtain ⟨hcases, hbounded⟩ := routeStep_cases hr
    have hbegin : Unwritten s
        (WireState.begin { s with route := r } (threadOf a) (handedFrame num s.route a)) :=
      h.unwritten_begin (Option.isNone_iff_eq_none.1 hfree) (hbounded h.iBufLen)
    have hroute := (begin_spec { s with route := r } (threadOf a) (handedFrame num s.route a)).1
    rcases hcases with ⟨fd, now, rfl, hfd, haccepted, hopened⟩ | ⟨haccepted, hsub⟩
    · exact h.connected hfd (by rw [hroute, haccepted]) (by rw [hroute, hopened]) hguard hbegin
    · exact h.narrowed (by rw [hroute, haccepted]) (by rw [hroute]; exact hsub) hbegin
  · cases hs

/-- The frame that a thread is writing, behind whole frames: the one that it starts between two frames,
or goes on with. -/
theorem onWire_writing (h : WireInv s) {t : Thread} {nNum : ℕ} {c : WriteCall}
    (hguard : wireGuard s (.write t nNum)) (hc : s.calls t = some c)
    (hconn : s.connOf c.nSocket = some conn) :
    (∃ pre, IsConcat {f | f ∈ s.handed} pre ∧ s.sent conn = pre ++ c.sBuf.take c.nWriteLen) ∧
      s.failed conn = false ∧ ∀ t' c', PartwayOf s conn.fd t' c' → t' = t := by
  obtain ⟨hopen, hfd⟩ := h.connOf_eq_some.1 hconn
  rcases Nat.eq_zero_or_pos c.nWriteLen with hzero | hpos
  · obtain ⟨hok, hidle⟩ := hguard c hc hzero conn hconn
    have hnone : ∀ t' c', PartwayOf s conn.fd t' c' → t' = t := fun t' c' hc' ↦
      absurd ⟨t', c', hc'⟩ hidle
    rw [hzero, List.take_zero]
    cases h.wire conn with
    | whole hsent _ _ => exact ⟨⟨s.sent conn, hsent, (List.append_nil _).symm⟩, hok, hnone⟩
    | partway t' c' _ hcall _ _ _ _ _ => exact absurd ⟨t', c', hcall⟩ hidle
    | torn _ hend =>
      rw [(hend hopen).1] at hok
      cases hok
  · have hcall : PartwayOf s conn.fd t c := ⟨hc, hfd.symm, hpos⟩
    cases h.wire conn with
    | whole _ _ hidle => exact absurd ⟨t, c, hcall⟩ (hidle hopen)
    | partway t' c' pre hcall' honly hpre hsent hok _ =>
      obtain rfl := honly t c hcall
      obtain rfl := Option.some.inj (hc.symm.trans hcall'.1)
      exact ⟨⟨pre, hpre, hsent⟩, hok, honly⟩
    | torn _ hend => exact absurd ⟨t, c, hcall⟩ (hend hopen).2

/-- The rest of a call is for the same frame and descriptor, and it is not done. -/
theorem of_next {c c' : WriteCall} {nNum : ℕ} (hnext : c.next nNum = some c') :
    c' = { c with nWriteLen := c.nWriteLen + nNum } ∧ c.nWriteLen + nNum < c.sBuf.length := by
  rw [WriteCall.next] at hnext
  split at hnext
  · cases hnext
  · next hlt => exact ⟨(Option.some.inj hnext).symm, Nat.lt_of_not_le hlt⟩

/-- The connection that is written to gets a part of the frame of the thread, or the rest of it. -/
theorem onWire_written (h : WireInv s) {t : Thread} {nNum : ℕ} {c : WriteCall}
    (hguard : wireGuard s (.write t nNum)) (hc : s.calls t = some c) (hnum : 0 < nNum)
    (hof : s.connOf c.nSocket = some conn) (hroute : s'.route = s.route)
    (hhanded : s'.handed = s.handed) (hfailed : s'.failed = s.failed)
    (hcalls : s'.calls = Function.update s.calls t (c.next nNum))
    (hsent : s'.sent conn = s.sent conn ++ c.written nNum) : OnWire s' conn := by
  obtain ⟨hmem, -⟩ := h.calls t c hc
  obtain ⟨⟨pre, hpre, hold⟩, hok, honly⟩ := h.onWire_writing hguard hc hof
  obtain ⟨hopen, hfd⟩ := h.connOf_eq_some.1 hof
  have hnew : s'.sent conn = pre ++ c.sBuf.take (c.nWriteLen + nNum) := by
    rw [hsent, hold, List.append_assoc, c.take_append_written]
  have honly' : ∀ t' c', PartwayOf s' conn.fd t' c' → t' = t := by
    rintro t' c' ⟨hc', hrest⟩
    by_contra hne
    rw [hcalls, Function.update_of_ne hne] at hc'
    exact hne (honly t' c' ⟨hc', hrest⟩)
  rw [← hhanded] at hpre hmem
  rw [← hfailed] at hok
  cases hnext : c.next nNum with
  | none =>
    -- the frame is complete
    have hle : c.sBuf.length ≤ c.nWriteLen + nNum := by
      rw [WriteCall.next] at hnext
      split at hnext
      · assumption
      · cases hnext
    rw [List.take_of_length_le hle] at hnew
    refine .whole ?_ hok fun _ ⟨t', c', hc'⟩ ↦ ?_
    · rw [hnew]
      exact hpre.append hmem
    · obtain rfl := honly' t' c' hc'
      have hcall := hc'.1
      rw [hcalls, hnext, Function.update_self] at hcall
      cases hcall
  | some c' =>
    obtain ⟨rfl, -⟩ := of_next hnext
    have hcall : s'.calls t = some { c with nWriteLen := c.nWriteLen + nNum } := by
      rw [hcalls, hnext, Function.update_self]
    have hpos : 0 < c.nWriteLen + nNum := by omega
    exact .partway t _ pre ⟨hcall, hfd.symm, hpos⟩ honly' hpre hnew hok (hroute ▸ hopen)

theorem write (h : WireInv s) {t : Thread} {nNum : ℕ} (hguard : wireGuard s (.write t nNum))
    (hs : wireStep num idletime s (.write t nNum) = some s') : WireInv s' := by
  obtain ⟨c, hc, hs⟩ := Option.bind_eq_some_iff.1 hs
  split at hs
  · next hnum =>
    obtain rfl := Option.some.inj hs
    obtain ⟨hmem, -⟩ := h.calls t c hc
    refine ⟨h.nodup, h.gen, fun conn hconn ↦ ?_, h.iBufLen, h.whole, fun t' c' hc' ↦ ?_, fun conn ↦ ?_⟩
    · -- a connection that does not exist yet is not written to
      obtain ⟨hnil, hok⟩ := h.fresh conn hconn
      exact ⟨(elim_update_of_ne (h.connOf_ne_of_gen hconn _)).trans hnil, hok⟩
    · have hcall : Function.update s.calls t (c.next nNum) t' = some c' := hc'
      rcases eq_or_ne t' t with rfl | hne
      · rw [Function.update_self] at hcall
        obtain ⟨rfl, hlt⟩ := of_next hcall
        exact ⟨hmem, hlt⟩
      · rw [Function.update_of_ne hne] at hcall
        exact h.calls t' c' hcall
    · rcases eq_or_ne (s.connOf c.nSocket) (some conn) with hof | hne
      · refine h.onWire_written hguard hc hnum.1 hof rfl rfl rfl rfl ?_
        show (s.connOf c.nSocket).elim s.sent _ conn = _
        rw [hof, Option.elim_some, Function.update_self]
      · -- another connection, or none, has the descriptor
        refine h.onWire_of_eq (List.Subset.refl _) (elim_update_of_ne hne) rfl id fun hopen ↦ ?_
        have hfd : c.nSocket.toNat ≠ conn.fd := fun h0 ↦ hne (h.connOf_eq_some.2 ⟨hopen, h0.symm⟩)
        exact partwayOf_update_of_ne hc hfd (fun c' hnext ↦ by rw [(of_next hnext).1]) rfl
  · cases hs

/-- The thread that failed is partway in nothing any more. -/
theorem partwayOf_update_none {t : Thread} (hcalls : s'.calls = Function.update s.calls t none)
    (fd : ℕ) (t' : Thread) (c : WriteCall) :
    PartwayOf s' fd t' c ↔ PartwayOf s fd t' c ∧ t' ≠ t := by
  rw [PartwayOf, PartwayOf, hcalls]
  rcases eq_or_ne t' t with rfl | hne
  · simp
  · rw [Function.update_of_ne hne, and_iff_left hne]

/-- The connection on which a write failed ends within the frame, if a part of it was written. -/
theorem onWire_failed (h : WireInv s) {t : Thread} {c : WriteCall} (hc : s.calls t = some c)
    (hof : s.connOf c.nSocket = some conn) (hroute : s'.route = s.route)
    (hhanded : s'.handed = s.handed) (hsent : s'.sent = s.sent)
    (hcalls : s'.calls = Function.update s.calls t none)
    (hfailed : s'.failed conn = (s.failed conn || decide (0 < c.nWriteLen))) : OnWire s' conn := by
  obtain ⟨hopen, hfd⟩ := h.connOf_eq_some.1 hof
  have hless := partwayOf_update_none hcalls conn.fd
  rcases Nat.eq_zero_or_pos c.nWriteLen with hzero | hpos
  · -- nothing of the frame was written
    have hother : ∀ t' c', PartwayOf s conn.fd t' c' → t' ≠ t := by
      rintro t' c' ⟨hc', -, hpos⟩ rfl
      obtain rfl := Option.some.inj (hc.symm.trans hc')
      omega
    refine h.onWire_of_eq (by rw [hhanded]; exact List.Subset.refl _) (by rw [hsent]) ?_
      (by rw [hroute]; exact id) fun _ t' c' ↦ ?_
    · rw [hfailed, hzero]
      exact Bool.or_false _
    · rw [hless]
      exact and_iff_left_of_imp (hother t' c')
  · have hcall : PartwayOf s conn.fd t c := ⟨hc, hfd.symm, hpos⟩
    cases h.wire conn with
    | whole _ _ hidle => exact absurd ⟨t, c, hcall⟩ (hidle hopen)
    | partway t' c' pre hcall' honly hpre hold _ _ =>
      obtain rfl := honly t c hcall
      obtain rfl := Option.some.inj (hc.symm.trans hcall'.1)
      obtain ⟨hmem, hlt⟩ := h.calls t c hc
      refine .torn ?_ fun _ ↦ ⟨?_, fun ⟨t', c', hc'⟩ ↦ ?_⟩
      · rw [hhanded, hsent, hold]
        exact hpre.append_take hmem hlt
      · rw [hfailed, decide_eq_true hpos, Bool.or_true]
      · obtain ⟨hwas, hne⟩ := (hless t' c').1 hc'
        exact hne (honly t' c' hwas)
    | torn _ hend => exact absurd ⟨t, c, hcall⟩ (hend hopen).2

theorem fail (h : WireInv s) {t : Thread} (hs : wireStep num idletime s (.fail t) = some s') :
    WireInv s' := by
  obtain ⟨c, hc, rfl⟩ := Option.map_eq_some_iff.1 hs
  refine ⟨h.nodup, h.gen, fun conn hconn ↦ ?_, h.iBufLen, h.whole, fun t' c' hc' ↦ ?_, fun conn ↦ ?_⟩
  · obtain ⟨hnil, hok⟩ := h.fresh conn hconn
    exact ⟨hnil, (elim_update_of_ne (h.connOf_ne_of_gen hconn _)).trans hok⟩
  · have hcall : Function.update s.calls t none t' = some c' := hc'
    rcases eq_or_ne t' t with rfl | hne
    · rw [Function.update_self] at hcall
      cases hcall
    · rw [Function.update_of_ne hne] at hcall
      exact h.calls t' c' hcall
  · rcases eq_or_ne (s.connOf c.nSocket) (some conn) with hof | hne
    · refine h.onWire_failed hc hof rfl rfl rfl rfl ?_
      show (s.connOf c.nSocket).elim s.failed _ conn = _
      rw [hof, Option.elim_some, Function.update_self]
    · refine h.onWire_of_eq (List.Subset.refl _) rfl (elim_update_of_ne hne) id fun hopen ↦ ?_
      have hfd : c.nSocket.toNat ≠ conn.fd := fun h0 ↦ hne (h.connOf_eq_some.2 ⟨hopen, h0.symm⟩)
      exact partwayOf_update_of_ne hc hfd (fun c' hnext ↦ by cases hnext) rfl

/-- **The step lemma.** -/
theorem step (h : WireInv s) {a : WireAct} (hguard : wireGuard s a)
    (hs : wireStep num idletime s a = some s') : WireInv s' := by
  cases a with
  | route a => exact h.route hguard hs
  | write t nNum => exact h.write hguard hs
  | fail t => exact h.fail hs

/-- Behind an incomplete frame nothing more is written. -/
theorem sent_of_torn (h : WireInv s) (htorn : Torn s conn) {a : WireAct} (hguard : wireGuard s a)
    (hs : wireStep num idletime s a = some s') : s'.sent conn = s.sent conn := by
  cases a with
  | route a =>
    rw [wireStep] at hs
    split at hs
    · obtain ⟨r, -, rfl⟩ := Option.map_eq_some_iff.1 hs
      rw [(begin_spec { s with route := r } (threadOf a) (handedFrame num s.route a)).2.1]
    · cases hs
  | write t nNum =>
    obtain ⟨c, hc, hs⟩ := Option.bind_eq_some_iff.1 hs
    have hother := h.connOf_ne_of_torn htorn hguard hc
    split at hs
    · obtain rfl := Option.some.inj hs
      exact elim_update_of_ne hother
    · cases hs
  | fail t =>
    obtain ⟨c, -, rfl⟩ := Option.map_eq_some_iff.1 hs
    rfl

end WireInv

/-! ### Runs -/

/-- A server table without servers. -/
def noServerMb : MbCtrl where
  maxMsgLen := 8096
  tSvrTab := []
  tSvcTab := []
  nsvrnum_eq := rfl

/-- The reader takes a request that no server offers the service for. -/
def refusedRead : RouteAct :=
  .read 0 noServerMb ⟨none, none, 8192⟩ 0 [] ⟨requestFrame testsvrReqHead [], []⟩

/-- The response to it. -/
def refusedFrame : List UInt8 :=
  responseErrReq { testsvrReqHead with errNo := BitVec.ofInt 32 sysErrSvc }

theorem readTask_refused :
    (readTask noServerMb ⟨none, none, 8192⟩ 0 [] ⟨requestFrame testsvrReqHead [], []⟩ 4 oneClient).1 =
      .errRsp refusedFrame := by
  decide +kernel

/-- The server with one connection, on the descriptor 4, and a reader that is not in `WriteSocket`. -/
structure OneWire (w : WireState) (v : BitVec 8) (n : BitVec 32) : Prop where
  route : OneRoute w.route v n
  idle : ∀ t, w.calls t = none

namespace OneWire

variable {w : WireState} {v : BitVec 8} {n : BitVec 32}

/-- A client connects. -/
theorem accept : ∃ r, (wireSystem 2 60).step (wireInit 2) (.route (.accept 4 100))
    { wireInit 2 with route := r } ∧ OneWire { wireInit 2 with route := r } fdStatReg 0 := by
  obtain ⟨m, hacc, h⟩ := OneRoute.accept
  refine ⟨_, ?_, h, fun _ ↦ rfl⟩
  show wireStep 2 60 _ _ = _
  rw [wireStep, if_pos (show ((threadOf (.accept 4 100)).bind _).isNone = true from rfl)]
  exact congrArg (Option.map _) hacc

/-- A request arrives that no server offers the service for: the reader begins to write a response. -/
theorem refused (h : OneWire w v n) (hn : n + 1 ≠ 0) : ∃ w1 w2,
    (wireSystem 2 60).step w (.route (.event 4)) w1 ∧
    (wireSystem 2 60).step w1 (.route refusedRead) w2 ∧
    OneRoute w2.route fdStatRead (n + 1 - 1) ∧
    w2.calls = Function.update w.calls (.reader 0) (some ⟨4, refusedFrame, 0⟩) ∧
    w2.handed = refusedFrame :: w.handed ∧ w2.sent = w.sent ∧ w2.failed = w.failed := by
  obtain ⟨m1, hevent, h1⟩ := h.route.event
  obtain ⟨m2, hclaim, h2⟩ := h1.claim hn
  have hfind : w.route.opened.find? (·.fd = oneClient.fd.toNat) = some ⟨4, 0⟩ := by
    rw [h.route.opened]
    rfl
  have hread := readTask_refused
  have hhanded : handedFrame 2 { w.route with mem := m1 } refusedRead = some (4, refusedFrame) := by
    simp only [refusedRead, handedFrame, hclaim]
    rw [show oneClient.fd = 4 from rfl, hread]
    exact congrArg (Option.map _) hfind
  have hstep : routeStep 2 60 { w.route with mem := m1 } refusedRead =
      some { w.route with mem := m2 } := by
    rw [refusedRead, routeStep, if_pos (by decide)]
    simp only [hclaim, routeRead, hfind]
    rw [show oneClient.fd = 4 from rfl, hread]
  refine ⟨{ w with route := { w.route with mem := m1 } }, { w with
    route := { w.route with mem := m2 }
    calls := Function.update w.calls (.reader 0) (some ⟨4, refusedFrame, 0⟩)
    handed := refusedFrame :: w.handed }, ?_, ?_, h2, rfl, rfl, rfl, rfl⟩
  · show wireStep 2 60 _ _ = _
    rw [wireStep, if_pos (show ((threadOf (.event 4)).bind w.calls).isNone = true from rfl)]
    exact congrArg (Option.map _) hevent
  · show wireStep 2 60 _ _ = _
    have hfree : ((threadOf refusedRead).bind w.calls).isNone = true := by
      show (w.calls (.reader 0)).isNone = true
      rw [h.idle]
      rfl
    rw [wireStep, if_pos hfree, hhanded]
    exact congrArg (Option.map _) hstep

/-- The reader writes a part of the frame. -/
theorem write {k : ℕ} (hopen : w.route.opened = [⟨4, 0⟩])
    (hc : w.calls (.reader 0) = some ⟨4, refusedFrame, 0⟩)
    (hk : 0 < k ∧ 0 + k ≤ refusedFrame.length) :
    (wireSystem 2 60).step w (.write (.reader 0) k) { w with
      calls := Function.update w.calls (.reader 0) (WriteCall.next ⟨4, refusedFrame, 0⟩ k)
      sent := Function.update w.sent ⟨4, 0⟩ (w.sent ⟨4, 0⟩ ++ refusedFrame.take k) } := by
  have hof : w.connOf 4 = some ⟨4, 0⟩ := by
    rw [WireState.connOf, hopen]
    rfl
  show wireStep 2 60 _ _ = _
  simp only [wireStep, hc, Option.bind_some, if_pos hk, hof]
  rfl

/-- The write call fails behind the first bytes. -/
theorem fail {c : WriteCall} (hc : w.calls (.reader 0) = some c) :
    ∃ failed, (wireSystem 2 60).step w (.fail (.reader 0)) { w with
      calls := Function.update w.calls (.reader 0) none
      failed := failed } := by
  refine ⟨(w.connOf c.nSocket).elim w.failed fun conn ↦
    Function.update w.failed conn (w.failed conn || decide (0 < c.nWriteLen)), ?_⟩
  show wireStep 2 60 _ _ = _
  simp only [wireStep, hc, Option.map_some]

end OneWire

end Sunda
