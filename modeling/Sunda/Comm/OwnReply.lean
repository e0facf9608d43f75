import Sunda.Comm.SyncCalls

/-!
# Whose reply a call returns

`tux_call` receives whatever reply of its type is queued first. That is the reply to its own request in
every run in which a call starts only with a fresh type (`FreshType`): nobody waits for the type, and
nothing in the system can still lead to a reply under it. `calls_return_own_reply` proves this.

The type of a child is its process id, which the kernel does not give away twice at a time, but which a
child that ran into a time-out may leave behind with a reply under way. The type of a tool is that of
its command: `late_reply_returned` is a tool that returns the reply to an earlier call.

The invariant is that whatever can lead to a reply of a type that is waited for belongs to the call that
waits for it. Steps that only move or remove things keep it (`OwnInv.shrink`).
-/

namespace Sunda

open Bytes SysV

variable {s s' : CallState}

/-! ### The property -/

/-- Whatever calls have returned, they received the reply produced for their own request. -/
def OwnReplies (s : CallState) : Prop :=
  ∀ r ∈ s.returned, r.note = some r.id ∧
    ∃ m, ⟨m, some r.id⟩ ∈ s.produced ∧ r.rspBuf = Msg.payload m

/-! ### The condition -/

/-- Nobody waits for a reply of this type, and nothing can still lead to one that a call could
receive. -/
structure FreshType (s : CallState) (t : ℤ) : Prop where
  pos : 0 < t
  waiting : ∀ c ∈ s.waiting, c.reqMsgType.toInt ≠ t
  reqQue : ∀ x ∈ s.reqQue, Fits x.msg → replyType x.msg ≠ t
  serving : ∀ x ∈ s.serving, x.msg.reqMsgType.toInt ≠ t
  rspQue : ∀ x ∈ s.rspQue, Fits x.msg → x.msg.mtype ≠ t

instance (s : CallState) (t : ℤ) : Decidable (FreshType s t) :=
  decidable_of_iff (0 < t ∧ (∀ c ∈ s.waiting, c.reqMsgType.toInt ≠ t) ∧
      (∀ x ∈ s.reqQue, Fits x.msg → replyType x.msg ≠ t) ∧
      (∀ x ∈ s.serving, x.msg.reqMsgType.toInt ≠ t) ∧
      ∀ x ∈ s.rspQue, Fits x.msg → x.msg.mtype ≠ t)
    ⟨fun ⟨h1, h2, h3, h4, h5⟩ ↦ ⟨h1, h2, h3, h4, h5⟩,
      fun ⟨h1, h2, h3, h4, h5⟩ ↦ ⟨h1, h2, h3, h4, h5⟩⟩

/-- What an asynchronous call queues. -/
def acallAdded (s : CallState) (mb : MbCtrl) (k : SndKernel) (realLen : ℤ)
    (svrName reqBuf : Option (List UInt8)) (reqBuflen : ℤ) : List (Noted Msg (Option ℕ)) :=
  match tuxAcall mb k realLen (plain s.reqQue) svrName reqBuf reqBuflen with
  | some (.ok q') => added s.reqQue q' none
  | _ => []

/-- Calls start with a fresh type, and no asynchronous request asks for a reply of a type that a call
waits for. -/
def freshCalls (s : CallState) : CallAct → Prop
  | .callSvr pid _ _ _ _ _ _ => FreshType s (BitVec.ofNat 64 pid).toInt
  | .svrCmdDeal _ _ _ _ cmd _ => FreshType s (cmdMsgType cmd).toInt
  | .acall mb k realLen svrName reqBuf reqBuflen =>
    ∀ x ∈ acallAdded s mb k realLen svrName reqBuf reqBuflen, ∀ c ∈ s.waiting,
      replyType x.msg ≠ c.reqMsgType.toInt
  | _ => True

instance (s : CallState) (a : CallAct) : Decidable (freshCalls s a) :=
  match a with
  | .callSvr .. | .svrCmdDeal .. => inferInstanceAs (Decidable (FreshType ..))
  | .acall .. => inferInstanceAs (Decidable (∀ x ∈ _, ∀ c ∈ s.waiting, _ ≠ _))
  | .fork .. | .receive .. | .exit .. | .kill .. | .service .. | .handlerReturn .. | .clean ..
  | .getreply .. => isTrue trivial

/-! ### The invariant -/

/-- A request, a handler or a reply that can lead to a reply of the type `t`, with its note. -/
inductive Pending (s : CallState) (t : ℤ) (note : Option ℕ) : Prop
  | reqQue (x : Noted Msg (Option ℕ)) : x ∈ s.reqQue → Fits x.msg → replyType x.msg = t →
      x.note = note → Pending s t note
  | serving (x : Noted IPCMsgHead (Option ℕ)) : x ∈ s.serving → x.msg.reqMsgType.toInt = t →
      x.note = note → Pending s t note
  | rspQue (x : Noted Msg (Option ℕ)) : x ∈ s.rspQue → Fits x.msg → x.msg.mtype = t →
      x.note = note → Pending s t note

/-- Fewer things lead to fewer replies. -/
theorem Pending.mono {t : ℤ} {note : Option ℕ} (hreq : s'.reqQue ⊆ s.reqQue)
    (hsrv : s'.serving ⊆ s.serving) (hrsp : s'.rspQue ⊆ s.rspQue) :
    Pending s' t note → Pending s t note
  | .reqQue x hx hfits ht hn => .reqQue x (hreq hx) hfits ht hn
  | .serving x hx ht hn => .serving x (hsrv hx) ht hn
  | .rspQue x hx hfits ht hn => .rspQue x (hrsp hx) hfits ht hn

/-- Whatever can lead to a reply of a type that a call waits for belongs to that call. -/
structure OwnInv (s : CallState) : Prop where
  own : ∀ c ∈ s.waiting, ∀ note, Pending s c.reqMsgType.toInt note → note = some c.id
  pos : ∀ c ∈ s.waiting, 0 < c.reqMsgType.toInt
  produced : ∀ x ∈ s.rspQue, x ∈ s.produced
  returned : OwnReplies s

theorem ownInv_init : OwnInv callInit where
  own _ hc := absurd hc List.not_mem_nil
  pos _ hc := absurd hc List.not_mem_nil
  produced _ hx := absurd hx List.not_mem_nil
  returned _ hr := absurd hr List.not_mem_nil

namespace OwnInv

/-- Nothing is new: fewer calls wait, and whatever can lead to a reply could do so before. -/
theorem shrink (h : OwnInv s) (hw : s'.waiting ⊆ s.waiting)
    (hp : ∀ t note, Pending s' t note → Pending s t note)
    (hprod : ∀ x ∈ s'.rspQue, x ∈ s'.produced) (hret : OwnReplies s') : OwnInv s' where
  own c hc note hnote := h.own c (hw hc) note (hp _ _ hnote)
  pos c hc := h.pos c (hw hc)
  produced := hprod
  returned := hret

/-- Things are only removed. -/
theorem remove (h : OwnInv s) (hw : s'.waiting ⊆ s.waiting) (hreq : s'.reqQue ⊆ s.reqQue)
    (hsrv : s'.serving ⊆ s.serving) (hrsp : s'.rspQue ⊆ s.rspQue)
    (hprod : s'.produced = s.produced) (hret : OwnReplies s') : OwnInv s' :=
  h.shrink hw (fun _ _ ↦ Pending.mono hreq hsrv hrsp) (fun x hx ↦ hprod ▸ h.produced x (hrsp hx)) hret

/-- A call starts with a fresh type. -/
theorem beginCall (h : OwnInv s) {t : BitVec 64} (ht : FreshType s t.toInt) {m : Msg}
    (hm : replyType m = t.toInt) (idle : List ℕ) (pid : Option ℕ) :
    OwnInv { s with
      idle := idle
      reqQue := s.reqQue ++ [⟨m, some s.calls⟩]
      waiting := ⟨s.calls, t, pid⟩ :: s.waiting
      calls := s.calls + 1 } where
  own c hc note hnote := by
    rcases List.mem_cons.1 hc with rfl | hc
    · -- whatever has the new type is the new request
      rcases hnote with ⟨x, hx, hfits, hx', rfl⟩ | ⟨x, hx, hx', rfl⟩ | ⟨x, hx, hfits, hx', rfl⟩
      · rcases List.mem_append.1 hx with hx | hx
        · exact absurd hx' (ht.reqQue x hx hfits)
        · rw [List.mem_singleton.1 hx]
      · exact absurd hx' (ht.serving x hx)
      · exact absurd hx' (ht.rspQue x hx hfits)
    · -- the new request has none of the other types
      refine h.own c hc note ?_
      rcases hnote with ⟨x, hx, hfits, hx', hn⟩ | ⟨x, hx, hx', hn⟩ | ⟨x, hx, hfits, hx', hn⟩
      · rcases List.mem_append.1 hx with hx | hx
        · exact .reqQue x hx hfits hx' hn
        · obtain rfl := List.mem_singleton.1 hx
          exact absurd (hx'.symm.trans hm) (ht.waiting c hc)
      · exact .serving x hx hx' hn
      · exact .rspQue x hx hfits hx' hn
  pos c hc := by
    rcases List.mem_cons.1 hc with rfl | hc
    · exact ht.pos
    · exact h.pos c hc
  produced := h.produced
  returned := h.returned

theorem service (h : OwnInv s) {mb : MbCtrl} {fault : Option Errno} {errno svrid : ℤ}
    (hs : callStep s (.service mb fault errno svrid) = some s') : OwnInv s' := by
  rcases callStep_service hs with rfl | ⟨pre, x, post, hq, hfits, rfl | ⟨head, hhead, rfl⟩⟩
  · exact h
  · exact h.remove (List.Subset.refl _) (hq ▸ remove_subset pre x post) (List.Subset.refl _)
      (List.Subset.refl _) rfl h.returned
  · refine h.shrink (List.Subset.refl _) (fun t note hp ↦ ?_) h.produced h.returned
    have hx : x ∈ s.reqQue := hq ▸ List.mem_append_right _ List.mem_cons_self
    rcases hp with ⟨y, hy, hy', ht, hn⟩ | ⟨y, hy, ht, hn⟩ | ⟨y, hy, hy', ht, hn⟩
    · exact .reqQue y (hq ▸ remove_subset pre x post hy) hy' ht hn
    · rcases List.mem_append.1 hy with hy | hy
      · exact .serving y hy ht hn
      · -- the handler has what was a request
        obtain rfl := List.mem_singleton.1 hy
        exact .reqQue x hx hfits (hhead.symm.trans ht) hn
    · exact .rspQue y hy hy' ht hn

theorem handlerReturn (h : OwnInv s) {i : ℕ} {mb : MbCtrl} {k : SndKernel} {a : TuxReturnArgs}
    (hs : callStep s (.handlerReturn i mb k a) = some s') : OwnInv s' := by
  obtain ⟨pre, x, post, hq, rfl | ⟨m, hm, rfl⟩⟩ := callStep_handlerReturn hs
  · exact h.remove (List.Subset.refl _) (List.Subset.refl _) (hq ▸ remove_subset pre x post)
      (List.Subset.refl _) rfl h.returned
  · have hx : x ∈ s.serving := hq ▸ List.mem_append_right _ List.mem_cons_self
    refine h.shrink (List.Subset.refl _) (fun t note hp ↦ ?_) (fun y hy ↦ ?_) fun r hr ↦ ?_
    · rcases hp with ⟨y, hy, hy', ht, hn⟩ | ⟨y, hy, ht, hn⟩ | ⟨y, hy, hy', ht, hn⟩
      · exact .reqQue y hy hy' ht hn
      · exact .serving y (hq ▸ remove_subset pre x post hy) ht hn
      · rcases List.mem_append.1 hy with hy | hy
        · exact .rspQue y hy hy' ht hn
        · -- the reply has the type from the head of the handler
          obtain rfl := List.mem_singleton.1 hy
          exact .serving x hx (hm.symm.trans ht) hn
    · rcases List.mem_append.1 hy with hy | hy
      · exact List.mem_append_left _ (h.produced y hy)
      · exact List.mem_append_right _ hy
    · obtain ⟨hnote, m', hm', hbuf⟩ := h.returned r hr
      exact ⟨hnote, m', List.mem_append_left _ hm', hbuf⟩

theorem receive (h : OwnInv s) {id : ℕ} {fault : Option Errno} {expired : Bool} {tuxErrno : ℤ}
    (hs : callStep s (.receive id fault expired tuxErrno) = some s') : OwnInv s' := by
  obtain ⟨c, hc, rfl, hcases⟩ := callStep_receive hs
  have hw : (s.endCall c).waiting ⊆ s.waiting := List.erase_subset
  rcases hcases (h.pos c hc) with rfl | ⟨rfl, -⟩ | ⟨pre, x, post, hq, ht, hfits, rfl | rfl⟩
  · exact h
  · exact h.remove hw (List.Subset.refl _) (List.Subset.refl _) (List.Subset.refl _) rfl h.returned
  · exact h.remove hw (List.Subset.refl _) (List.Subset.refl _) (hq ▸ remove_subset pre x post) rfl
      h.returned
  · have hx : x ∈ s.rspQue := hq ▸ List.mem_append_right _ List.mem_cons_self
    refine h.remove hw (List.Subset.refl _) (List.Subset.refl _) (hq ▸ remove_subset pre x post) rfl
      fun r hr ↦ ?_
    rcases List.mem_append.1 hr with hr | hr
    · exact h.returned r hr
    · -- the reply is of the type the call waits for, so it is its own
      obtain rfl := List.mem_singleton.1 hr
      have hnote : x.note = some c.id := h.own c hc x.note (.rspQue x hx hfits ht rfl)
      refine ⟨hnote, x.msg, ?_, rfl⟩
      show (⟨x.msg, some c.id⟩ : Noted Msg (Option ℕ)) ∈ s.produced
      rw [← hnote]
      exact h.produced x hx

theorem acall (h : OwnInv s) {mb : MbCtrl} {k : SndKernel} {realLen reqBuflen : ℤ}
    {svrName reqBuf : Option (List UInt8)}
    (hG : freshCalls s (.acall mb k realLen svrName reqBuf reqBuflen))
    (hs : callStep s (.acall mb k realLen svrName reqBuf reqBuflen) = some s') : OwnInv s' := by
  rw [freshCalls, acallAdded] at hG
  rw [callStep] at hs
  split at hs
  · next q' hcall =>
    obtain rfl := Option.some.inj hs
    rw [hcall] at hG
    refine ⟨fun c hc note hnote ↦ h.own c hc note ?_, h.pos, h.produced, h.returned⟩
    rcases hnote with ⟨x, hx, hfits, ht, hn⟩ | ⟨x, hx, ht, hn⟩ | ⟨x, hx, hfits, ht, hn⟩
    · rcases List.mem_append.1 hx with hx | hx
      · exact .reqQue x hx hfits ht hn
      · exact absurd ht (hG x hx c hc)
    · exact .serving x hx ht hn
    · exact .rspQue x hx hfits ht hn
  · obtain rfl := Option.some.inj hs
    exact h

/-- Processes come and go. -/
theorem removePid (h : OwnInv s) (pid : ℕ) : OwnInv (s.removePid pid) :=
  h.remove (List.filter_subset_self _) (List.Subset.refl _) (List.Subset.refl _)
    (List.Subset.refl _) rfl h.returned

/-- **The step.** -/
theorem step (h : OwnInv s) {a : CallAct} (hG : freshCalls s a) (hs : callStep s a = some s') :
    OwnInv s' := by
  cases a with
  | fork pid =>
    rw [callStep] at hs
    split at hs
    · obtain rfl := Option.some.inj hs
      exact h.remove (List.Subset.refl _) (List.Subset.refl _) (List.Subset.refl _)
        (List.Subset.refl _) rfl h.returned
    · cases hs
  | callSvr pid mb k tuxErrno sSrcBuf iBufLen utime =>
    obtain ⟨-, rfl | rfl | ⟨m, hm, rfl⟩⟩ := callStep_callSvr hs
    · exact h.remove (List.Subset.refl _) (List.Subset.refl _) (List.Subset.refl _)
        (List.Subset.refl _) rfl h.returned
    · exact h.remove (List.Subset.refl _) (List.Subset.refl _) (List.Subset.refl _)
        (List.Subset.refl _) rfl h.returned
    · exact h.beginCall hG hm _ _
  | svrCmdDeal mb k tuxErrno id cmd now =>
    obtain rfl | ⟨m, hm, rfl⟩ := callStep_svrCmdDeal hs
    · exact h
    · exact h.beginCall hG hm _ _
  | receive id fault expired tuxErrno => exact h.receive hs
  | exit pid =>
    rw [callStep] at hs
    split at hs
    · exact Option.some.inj hs ▸ h.removePid pid
    · cases hs
  | kill pid =>
    rw [callStep] at hs
    split at hs
    · exact Option.some.inj hs ▸ h.removePid pid
    · cases hs
  | service mb fault errno svrid => exact h.service hs
  | handlerReturn i mb k a => exact h.handlerReturn hs
  | clean fault msgType =>
    obtain rfl | ⟨pre, x, post, hq, rfl⟩ := callStep_clean hs
    · exact h
    · exact h.remove (List.Subset.refl _) (hq ▸ remove_subset pre x post) (List.Subset.refl _)
        (List.Subset.refl _) rfl h.returned
  | acall mb k realLen svrName reqBuf reqBuflen => exact h.acall hG hs
  | getreply attached fault errno cd flags =>
    obtain rfl | ⟨pre, x, post, hq, rfl⟩ := callStep_getreply hs
    · exact h
    · exact h.remove (List.Subset.refl _) (List.Subset.refl _) (List.Subset.refl _)
        (hq ▸ remove_subset pre x post) rfl h.returned

end OwnInv

/-! ### Runs -/

/-- **A call returns its own reply.** In every run in which calls start with a fresh type, every call
that returned 0 stored the reply that was produced for its own request. -/
theorem calls_return_own_reply (h : callSystem.Reach freshCalls s) : OwnReplies s := by
  refine (h.invariant (I := OwnInv) ?_ fun s a s' hI hG hs ↦ hI.step hG hs).returned
  rintro s rfl
  exact ownInv_init

/-- The child with the process id 77 calls, the server answers with one byte, and the call returns. -/
def oneCall : List CallAct :=
  [.fork 77, .callSvr 77 testsvrMb ⟨none, none, 8192⟩ 0 bareFrame 44 0,
    .service testsvrMb none 0 1, .handlerReturn 0 testsvrMb ⟨none, none, 8192⟩ ⟨2, 0, some [67], 1, 0, 0⟩,
    .receive 0 none false 0]

theorem calls_return_own_reply_one : ∃ s r, callSystem.Reach freshCalls s ∧ s.returned = [r] ∧
    OwnReplies s := by
  have hrun : (Guarded.runFn (Guarded.guardFn freshCalls callStep) callInit oneCall).map
      (fun s ↦ s.returned.map fun r ↦ (r.id, r.note)) = some [(0, some 0)] := by
    decide +kernel
  obtain ⟨s, hs, hret⟩ := Option.map_eq_some_iff.1 hrun
  have hreach : callSystem.Reach freshCalls s := Guarded.reach_of_runFn (.init rfl) hs
  obtain ⟨r, hr, -⟩ := List.map_eq_singleton_iff.1 hret
  exact ⟨s, r, hreach, hr, calls_return_own_reply hreach⟩

/-- The tables when the Governor offers its commands. -/
def governorMb : MbCtrl where
  maxMsgLen := 8096
  tSvrTab := [⟨0, charField 33 sdManagerSvcName 0, .idle, 300000, 20⟩]
  tSvcTab := [⟨0, charField 33 sdManagerSvcName 0, 7⟩]
  nsvrnum_eq := rfl

/-- A tool asks to start the server 5 and runs into the time-out; a second one asks to start the server
6; the Governor answers the first. -/
def lateReply : List CallAct :=
  [.svrCmdDeal governorMb ⟨none, none, 8192⟩ 0 5 1 0, .receive 0 (some EINTR) true 0,
    .svrCmdDeal governorMb ⟨none, none, 8192⟩ 0 6 1 0, .service governorMb none 0 0,
    .handlerReturn 0 governorMb ⟨none, none, 8192⟩ ⟨2, 0, some (tTaskCmd 1 5), 12, 0, 0⟩,
    .receive 1 none false 0]

/-- The second tool returns the reply to the first. -/
theorem late_reply_returned : ∃ s, callSystem.Reach Guarded.always s ∧ ¬ OwnReplies s := by
  have hrun : (Guarded.runFn (Guarded.guardFn Guarded.always callStep) callInit lateReply).map
      (fun s ↦ s.returned.map fun r ↦ (r.id, r.note)) = some [(1, some 0)] := by
    decide +kernel
  obtain ⟨s, hs, hret⟩ := Option.map_eq_some_iff.1 hrun
  obtain ⟨r, hr, heq⟩ := List.map_eq_singleton_iff.1 hret
  refine ⟨s, Guarded.reach_of_runFn (.init rfl) hs, fun h ↦ ?_⟩
  obtain ⟨hid, hnote⟩ := Prod.mk.inj heq
  have hown := (h r (hr ▸ List.mem_singleton_self r)).1
  rw [hnote, hid] at hown
  cases hown

end Sunda
