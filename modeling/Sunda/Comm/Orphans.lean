import Sunda.Comm.OwnReply
import Mathlib.Data.Multiset.Count
import Mathlib.Data.List.Nodup

/-!
# Replies nobody waits for

A child of C001 that gives up its call leaves, and nothing takes its request back. So the reply to it is
queued for a process that is gone, and stays there. In every run in which a call that gives up, or whose
process is killed, has nothing outstanding (`noLateReply`), each queued reply belongs to a call that
waits for it, and there are at most as many as waiting calls: `no_orphans`. `late_reply_stays` is the
run of a child that runs into the time-out.

The invariant counts. `items` are all requests, handlers and replies, with their notes and the type of the
reply they lead to. No two have the same note, and each belongs to a waiting call of its type. As live
children have different process ids, a call of a type is the only one of it, and takes its own reply.
-/

namespace Sunda

open Bytes SysV

variable {s s' : CallState}

/-! ### The property -/

/-- For each queued reply a child waits or will still call; and no more replies are queued than calls are
waiting. -/
structure NoOrphan (s : CallState) : Prop where
  receiver : ∀ x ∈ s.rspQue, (∃ c ∈ s.waiting, x.msg.mtype = c.reqMsgType.toInt) ∨
    ∃ pid ∈ s.idle, x.msg.mtype = (BitVec.ofNat 64 pid).toInt
  count : s.rspQue.length ≤ s.waiting.length

/-- The steps of children and of servers. -/
def ofChildren (_ : CallState) : CallAct → Prop
  | .svrCmdDeal .. | .acall .. | .getreply .. => False
  | _ => True

instance (s : CallState) (a : CallAct) : Decidable (ofChildren s a) :=
  match a with
  | .svrCmdDeal .. | .acall .. | .getreply .. => isFalse not_false
  | .fork .. | .callSvr .. | .receive .. | .exit .. | .kill .. | .service .. | .handlerReturn ..
  | .clean .. => isTrue trivial

/-! ### The condition -/

/-- Requests that a server can take, handlers and replies, each with its note and the type of its
reply. -/
def CallState.items (s : CallState) : Multiset (Option ℕ × ℤ) :=
  ↑((s.reqQue.filter (Fits ·.msg)).map fun x ↦ (x.note, replyType x.msg)) +
    (↑(s.serving.map fun x ↦ (x.note, x.msg.reqMsgType.toInt)) +
      ↑(s.rspQue.map fun x ↦ (x.note, x.msg.mtype)))

/-- One of them belongs to the call. -/
def Outstanding (s : CallState) (id : ℕ) : Prop := some id ∈ s.items.map Prod.fst

instance (s : CallState) (id : ℕ) : Decidable (Outstanding s id) :=
  inferInstanceAs (Decidable (_ ∈ _))

/-- Of the steps of children and servers, those after which no reply comes late: a call that is
interrupted, or that finds a reply too long to receive, has nothing outstanding, and neither has a child
that is killed. -/
def noLateReply (s : CallState) : CallAct → Prop
  | .receive id fault _ _ => ∀ c ∈ s.waiting, c.id = id →
    (fault ≠ none ∨ ∃ x ∈ s.rspQue, x.msg.mtype = c.reqMsgType.toInt ∧ ¬ Fits x.msg) →
      ¬ Outstanding s id
  | .kill pid => ∀ c ∈ s.waiting, c.pid = some pid → ¬ Outstanding s c.id
  | .svrCmdDeal .. | .acall .. | .getreply .. => False
  | _ => True

instance (s : CallState) (a : CallAct) : Decidable (noLateReply s a) :=
  match a with
  | .receive _ fault _ _ => inferInstanceAs (Decidable (∀ c ∈ s.waiting, _ → (fault ≠ none ∨ _) → _))
  | .kill _ => inferInstanceAs (Decidable (∀ c ∈ s.waiting, _ → _))
  | .svrCmdDeal .. | .acall .. | .getreply .. => isFalse not_false
  | .fork .. | .callSvr .. | .exit .. | .service .. | .handlerReturn .. | .clean .. => isTrue trivial

/-! ### The items of a queue -/

theorem coe_map_remove {α β : Type*} (f : α → β) (pre : List α) (x : α) (post : List α) :
    (↑((pre ++ x :: post).map f) : Multiset β) = f x ::ₘ ↑((pre ++ post).map f) := by
  rw [List.map_append, List.map_cons, List.map_append]
  exact Multiset.coe_eq_coe.2 List.perm_middle

theorem coe_map_concat {α β : Type*} (f : α → β) (l : List α) (x : α) :
    (↑((l ++ [x]).map f) : Multiset β) = f x ::ₘ ↑(l.map f) := by
  rw [coe_map_remove, List.append_nil]

/-- Two entries of which a function makes the same number are one. -/
theorem eq_of_nodup_filterMap {α β : Type*} {f : α → Option β} {l : List α}
    (h : (l.filterMap f).Nodup) {a b : α} (ha : a ∈ l) (hb : b ∈ l) {x : β} (hfa : f a = some x)
    (hfb : f b = some x) : a = b := by
  induction l with
  | nil => cases ha
  | cons y l ih =>
    have hrest : (l.filterMap f).Nodup := by
      rw [List.filterMap_cons] at h
      split at h
      · exact h
      · exact (List.nodup_cons.1 h).2
    have hhead {c : α} (hy : f y = some x) (hc : c ∈ l) : f c ≠ some x := fun hfc ↦ by
      rw [List.filterMap_cons_some hy, List.nodup_cons] at h
      exact h.1 (List.mem_filterMap.2 ⟨c, hc, hfc⟩)
    rcases List.mem_cons.1 ha with rfl | ha'
    · rcases List.mem_cons.1 hb with rfl | hb'
      · rfl
      · exact absurd hfb (hhead hfa hb')
    · rcases List.mem_cons.1 hb with rfl | hb'
      · exact absurd hfa (hhead hfb ha')
      · exact ih hrest ha' hb'

/-! ### The invariant -/

/-- What carries the note and leads to a reply of the type belongs to a waiting call of this type. -/
def Owned (s : CallState) (p : Option ℕ × ℤ) : Prop :=
  ∃ c ∈ s.waiting, p.1 = some c.id ∧ p.2 = c.reqMsgType.toInt

/-- Process ids as the kernel gives them out. -/
def PidOk (pid : ℕ) : Prop := 0 < pid ∧ pid < 2 ^ 31

structure OrphanInv (s : CallState) : Prop where
  owned : ∀ p ∈ s.items, Owned s p
  notes : (s.items.map Prod.fst).Nodup
  calls : ∀ c ∈ s.waiting, c.id < s.calls
  child : ∀ c ∈ s.waiting, ∃ pid, PidOk pid ∧ c.pid = some pid ∧ c.reqMsgType = BitVec.ofNat 64 pid
  idle : ∀ pid ∈ s.idle, PidOk pid
  live : s.live.Nodup

theorem toInt_ofNat_pid {pid : ℕ} (h : PidOk pid) : (BitVec.ofNat 64 pid).toInt = pid := by
  obtain ⟨h0, h1⟩ := h
  rw [BitVec.toInt_ofNat', Int.bmod_eq_of_le (by omega) (by omega)]

theorem orphanInv_init : OrphanInv callInit where
  owned p hp := absurd hp (by simp [CallState.items, callInit])
  notes := by simp [CallState.items, callInit]
  calls _ hc := absurd hc List.not_mem_nil
  child _ hc := absurd hc List.not_mem_nil
  idle _ hc := absurd hc List.not_mem_nil
  live := List.nodup_nil

namespace OrphanInv

/-- Waiting calls have different types. -/
theorem eq_of_type (h : OrphanInv s) {c c' : WaitingCall} (hc : c ∈ s.waiting) (hc' : c' ∈ s.waiting)
    (ht : c.reqMsgType.toInt = c'.reqMsgType.toInt) : c = c' := by
  obtain ⟨pid, hpid, hp, htype⟩ := h.child c hc
  obtain ⟨pid', hpid', hp', htype'⟩ := h.child c' hc'
  rw [htype, htype', toInt_ofNat_pid hpid, toInt_ofNat_pid hpid', Nat.cast_inj] at ht
  have hwaiting := (List.nodup_append.1 (List.nodup_append.1 h.live).2.1).1
  exact eq_of_nodup_filterMap hwaiting hc hc' hp (ht ▸ hp')

theorem pos (h : OrphanInv s) {c : WaitingCall} (hc : c ∈ s.waiting) : 0 < c.reqMsgType.toInt := by
  obtain ⟨pid, hpid, -, htype⟩ := h.child c hc
  rw [htype, toInt_ofNat_pid hpid]
  exact_mod_cast hpid.1

/-- Things get fewer. No call leaves of which something remains. -/
theorem shrink (h : OrphanInv s) (hitems : s'.items ≤ s.items) (hw : s'.waiting.Sublist s.waiting)
    (hkeep : ∀ p ∈ s'.items, ∀ c ∈ s.waiting, p.1 = some c.id → c ∈ s'.waiting)
    (hcalls : s'.calls = s.calls) (hidle : s'.idle ⊆ s.idle) (hlive : s'.live.Subperm s.live) :
    OrphanInv s' where
  owned p hp := by
    obtain ⟨c, hc, hnote, ht⟩ := h.owned p (Multiset.mem_of_le hitems hp)
    exact ⟨c, hkeep p hp c hc hnote, hnote, ht⟩
  notes := Multiset.nodup_of_le (Multiset.map_le_map hitems) h.notes
  calls c hc := hcalls ▸ h.calls c (hw.subset hc)
  child c hc := h.child c (hw.subset hc)
  idle pid hpid := h.idle pid (hidle hpid)
  live := by
    obtain ⟨l, hperm, hsub⟩ := hlive
    exact hperm.nodup_iff.1 (h.live.sublist hsub)

/-- No process and no call comes or goes. -/
theorem move (h : OrphanInv s) (hitems : s'.items ≤ s.items) (hw : s'.waiting = s.waiting)
    (hcalls : s'.calls = s.calls) (hidle : s'.idle = s.idle) (hdone : s'.done = s.done) :
    OrphanInv s' := by
  have hlive : s'.live = s.live := by rw [CallState.live, CallState.live, hw, hidle, hdone]
  refine h.shrink hitems (hw ▸ List.Sublist.refl _) (fun _ _ c hc _ ↦ hw ▸ hc) hcalls
    (hidle ▸ List.Subset.refl _) (hlive ▸ List.Subperm.refl _)

/-! ### Steps of servers -/

theorem service (h : OrphanInv s) {mb : MbCtrl} {fault : Option Errno} {errno svrid : ℤ}
    (hs : callStep s (.service mb fault errno svrid) = some s') : OrphanInv s' := by
  rcases callStep_service hs with rfl | ⟨pre, x, post, hq, hfits, hs'⟩
  · exact h
  · have hfilter : s.reqQue.filter (Fits ·.msg) =
        pre.filter (Fits ·.msg) ++ x :: post.filter (Fits ·.msg) := by
      rw [hq, List.filter_append, List.filter_cons_of_pos (by simpa using hfits)]
    have hitems : s.items = (x.note, replyType x.msg) ::ₘ
        { s with reqQue := pre ++ post }.items := by
      simp only [CallState.items, hfilter, coe_map_remove, List.filter_append, Multiset.cons_add]
    rcases hs' with rfl | ⟨head, hhead, rfl⟩
    · exact h.move (hitems ▸ Multiset.le_cons_self _ _) rfl rfl rfl rfl
    · -- the handler has the note and the type of the request
      refine h.move (le_of_eq ?_) rfl rfl rfl rfl
      rw [hitems, ← hhead]
      simp only [CallState.items, coe_map_concat, Multiset.cons_add, Multiset.add_cons]

theorem handlerReturn (h : OrphanInv s) {i : ℕ} {mb : MbCtrl} {k : SndKernel} {a : TuxReturnArgs}
    (hs : callStep s (.handlerReturn i mb k a) = some s') : OrphanInv s' := by
  obtain ⟨pre, x, post, hq, hs'⟩ := callStep_handlerReturn hs
  have hitems : s.items = (x.note, x.msg.reqMsgType.toInt) ::ₘ
      { s with serving := pre ++ post }.items := by
    simp only [CallState.items, hq, coe_map_remove, Multiset.cons_add, Multiset.add_cons]
  rcases hs' with rfl | ⟨m, hm, rfl⟩
  · exact h.move (hitems ▸ Multiset.le_cons_self _ _) rfl rfl rfl rfl
  · -- the reply has the note and the type of the handler
    refine h.move (le_of_eq ?_) rfl rfl rfl rfl
    rw [hitems, ← hm]
    simp only [CallState.items, coe_map_concat, Multiset.add_cons]

theorem clean (h : OrphanInv s) {fault : Option Errno} {msgType : ℤ}
    (hs : callStep s (.clean fault msgType) = some s') : OrphanInv s' := by
  rcases callStep_clean hs with rfl | ⟨pre, x, post, hq, rfl⟩
  · exact h
  · have hsub : (pre ++ post).Sublist s.reqQue := by
      rw [hq]
      exact (List.Sublist.refl pre).append (List.sublist_cons_self x post)
    refine h.move ?_ rfl rfl rfl rfl
    exact add_le_add_left (Multiset.coe_le.2 ((hsub.filter _).map _).subperm) _

/-! ### Steps of children -/

theorem fork (h : OrphanInv s) {pid : ℕ} (hs : callStep s (.fork pid) = some s') : OrphanInv s' := by
  rw [callStep] at hs
  split at hs
  · next hpid =>
    obtain rfl := Option.some.inj hs
    refine { h with idle := fun p hp ↦ ?_, live := List.nodup_cons.2 ⟨hpid.2.2, h.live⟩ }
    rcases List.mem_cons.1 hp with rfl | hp
    · exact ⟨hpid.1, hpid.2.1⟩
    · exact h.idle p hp
  · cases hs

/-- A process id that moves from one list to another. -/
theorem live_move {pid : ℕ} {idle : List ℕ} (h : pid ∈ idle) (rest : List ℕ) :
    (idle.erase pid ++ pid :: rest).Perm (idle ++ rest) :=
  List.perm_middle.trans ((List.perm_cons_erase h).symm.append_right rest)

/-- A child waits with a new request. -/
theorem beginCall (h : OrphanInv s) {pid : ℕ} (hpid : pid ∈ s.idle) {m : Msg}
    (hm : replyType m = (BitVec.ofNat 64 pid).toInt)
    (hreq : s'.reqQue = s.reqQue ++ [⟨m, some s.calls⟩]) (hsrv : s'.serving = s.serving)
    (hrsp : s'.rspQue = s.rspQue) (hidle : s'.idle = s.idle.erase pid)
    (hw : s'.waiting = ⟨s.calls, BitVec.ofNat 64 pid, some pid⟩ :: s.waiting)
    (hdone : s'.done = s.done) (hcalls : s'.calls = s.calls + 1) : OrphanInv s' := by
  have hitems : s'.items ≤ (some s.calls, replyType m) ::ₘ s.items := by
    simp only [CallState.items, hreq, hsrv, hrsp, List.filter_append, List.filter_cons,
      List.filter_nil]
    split
    · rw [coe_map_concat, Multiset.cons_add]
    · rw [List.append_nil]
      exact Multiset.le_cons_self _ _
  have hfresh : some s.calls ∉ s.items.map Prod.fst := fun hmem ↦ by
    obtain ⟨p, hp, heq⟩ := Multiset.mem_map.1 hmem
    obtain ⟨c, hc, hnote, -⟩ := h.owned p hp
    have hlt := h.calls c hc
    rw [heq, Option.some.injEq] at hnote
    omega
  refine ⟨fun p hp ↦ ?_, ?_, fun c hc ↦ ?_, fun c hc ↦ ?_, fun p hp ↦ ?_, ?_⟩
  · have hmem : p ∈ (some s.calls, replyType m) ::ₘ s.items := Multiset.mem_of_le hitems hp
    rcases Multiset.mem_cons.1 hmem with rfl | hp
    · refine ⟨⟨s.calls, BitVec.ofNat 64 pid, some pid⟩, hw ▸ List.mem_cons_self, rfl, ?_⟩
      dsimp only
      exact hm
    · obtain ⟨c, hc, hnote, ht⟩ := h.owned p hp
      exact ⟨c, hw ▸ List.mem_cons_of_mem _ hc, hnote, ht⟩
  · refine Multiset.nodup_of_le (Multiset.map_le_map hitems) ?_
    rw [Multiset.map_cons, Multiset.nodup_cons]
    exact ⟨hfresh, h.notes⟩
  · rw [hcalls]
    rcases List.mem_cons.1 (hw ▸ hc) with rfl | hc
    · exact Nat.lt_succ_self _
    · exact Nat.lt_succ_of_lt (h.calls c hc)
  · rcases List.mem_cons.1 (hw ▸ hc) with rfl | hc
    · exact ⟨pid, h.idle pid hpid, rfl, rfl⟩
    · exact h.child c hc
  · exact h.idle p (List.erase_subset (hidle ▸ hp))
  · rw [CallState.live, hw, hidle, hdone]
    exact (live_move hpid _).nodup_iff.2 h.live

/-- A child calls. Its call may be over at once, and the child with it. -/
theorem callSvr (h : OrphanInv s) {pid : ℕ} {mb : MbCtrl} {k : SndKernel} {tuxErrno : ℤ}
    {sSrcBuf : List UInt8} {iBufLen : ℕ} {utime : BitVec 64}
    (hs : callStep s (.callSvr pid mb k tuxErrno sSrcBuf iBufLen utime) = some s') :
    OrphanInv s' := by
  obtain ⟨hpid, rfl | rfl | ⟨m, hm, rfl⟩⟩ := callStep_callSvr hs
  · refine h.shrink le_rfl (List.Sublist.refl _) (fun _ _ c hc _ ↦ hc) rfl List.erase_subset ?_
    exact (List.erase_sublist.append (List.Sublist.refl _)).subperm
  · refine h.shrink le_rfl (List.Sublist.refl _) (fun _ _ c hc _ ↦ hc) rfl List.erase_subset ?_
    exact ((List.perm_middle.append_left _).trans (live_move hpid _)).subperm
  · exact h.beginCall hpid hm rfl rfl rfl rfl rfl rfl rfl

/-- A call is over of which nothing remains. -/
theorem endCall (h : OrphanInv s) {c : WaitingCall} (hc : c ∈ s.waiting) (hitems : s'.items ≤ s.items)
    (hnot : some c.id ∉ s'.items.map Prod.fst) (hw : s'.waiting = s.waiting.erase c)
    (hcalls : s'.calls = s.calls) (hidle : s'.idle = s.idle)
    (hdone : s'.done = c.pid.toList ++ s.done) : OrphanInv s' := by
  refine h.shrink hitems (hw ▸ List.erase_sublist) (fun p hp c' hc' hnote ↦ ?_) hcalls
    (hidle ▸ List.Subset.refl _) ?_
  · rw [hw]
    refine (List.mem_erase_of_ne fun heq ↦ hnot ?_).2 hc'
    rw [← heq, ← hnote]
    exact Multiset.mem_map_of_mem _ hp
  · -- the process id of the child moves behind the waiting ones
    obtain ⟨pid, -, hpid, -⟩ := h.child c hc
    have hperm := (List.perm_cons_erase hc).filterMap WaitingCall.pid
    rw [List.filterMap_cons_some hpid] at hperm
    rw [CallState.live, CallState.live, hw, hidle, hdone, hpid]
    refine List.Perm.subperm (List.Perm.append_left _ ?_)
    exact List.perm_middle.trans (hperm.symm.append_right _)

theorem receive (h : OrphanInv s) {id : ℕ} {fault : Option Errno} {expired : Bool} {tuxErrno : ℤ}
    (hG : noLateReply s (.receive id fault expired tuxErrno))
    (hs : callStep s (.receive id fault expired tuxErrno) = some s') : OrphanInv s' := by
  obtain ⟨c, hc, rfl, hcases⟩ := callStep_receive hs
  rcases hcases (h.pos hc) with rfl | ⟨rfl, hwhy⟩ | ⟨pre, x, post, hq, ht, -, hs'⟩
  · exact h
  · exact h.endCall hc le_rfl (hG c hc rfl hwhy) rfl rfl rfl rfl
  · have hitems : s.items = (x.note, x.msg.mtype) ::ₘ { s with rspQue := pre ++ post }.items := by
      simp only [CallState.items, hq, coe_map_remove, Multiset.add_cons]
    have hle : { s with rspQue := pre ++ post }.items ≤ s.items :=
      hitems ▸ Multiset.le_cons_self _ _
    -- the reply is the call's own, and the only item of it
    have hown : x.note = some c.id := by
      obtain ⟨c', hc', hnote, ht'⟩ := h.owned (x.note, x.msg.mtype) (hitems ▸ Multiset.mem_cons_self _ _)
      rw [h.eq_of_type hc hc' (ht.symm.trans ht')]
      exact hnote
    have hnot : some c.id ∉ { s with rspQue := pre ++ post }.items.map Prod.fst := by
      have hnodup := h.notes
      rw [hitems, Multiset.map_cons, Multiset.nodup_cons] at hnodup
      exact hown ▸ hnodup.1
    rcases hs' with rfl | rfl
    · exact h.endCall hc hle hnot rfl rfl rfl rfl
    · exact h.endCall hc hle hnot rfl rfl rfl rfl

/-- A process is gone of whose call nothing remains. -/
theorem removePid (h : OrphanInv s) {pid : ℕ}
    (hnot : ∀ c ∈ s.waiting, c.pid = some pid → ¬ Outstanding s c.id) :
    OrphanInv (s.removePid pid) := by
  refine h.shrink le_rfl List.filter_sublist (fun p hp c hc hnote ↦ ?_) rfl List.erase_subset ?_
  · refine List.mem_filter.2 ⟨hc, decide_eq_true fun hpid ↦ hnot c hc hpid ?_⟩
    rw [Outstanding, ← hnote]
    exact Multiset.mem_map_of_mem _ hp
  · exact (List.erase_sublist.append
      ((List.filter_sublist.filterMap _).append List.erase_sublist)).subperm

/-- A child that exits by itself is not waiting. -/
theorem exit (h : OrphanInv s) {pid : ℕ} (hs : callStep s (.exit pid) = some s') : OrphanInv s' := by
  rw [callStep] at hs
  split at hs
  · next hpid =>
    obtain rfl := Option.some.inj hs
    refine h.removePid fun c hc hp ↦ ?_
    have hw : pid ∈ s.waiting.filterMap WaitingCall.pid := List.mem_filterMap.2 ⟨c, hc, hp⟩
    obtain ⟨-, hrest, hidle⟩ := List.nodup_append.1 h.live
    obtain ⟨-, -, hdone⟩ := List.nodup_append.1 hrest
    rcases hpid with hpid | hpid
    · exact absurd rfl (hidle pid hpid pid (List.mem_append_left _ hw))
    · exact absurd rfl (hdone pid hw pid hpid)
  · cases hs

/-- **The step.** -/
theorem step (h : OrphanInv s) {a : CallAct} (hG : noLateReply s a) (hs : callStep s a = some s') :
    OrphanInv s' := by
  cases a with
  | fork pid => exact h.fork hs
  | callSvr pid mb k tuxErrno sSrcBuf iBufLen utime => exact h.callSvr hs
  | svrCmdDeal mb k tuxErrno id cmd now => exact hG.elim
  | receive id fault expired tuxErrno => exact h.receive hG hs
  | exit pid => exact h.exit hs
  | kill pid =>
    rw [callStep] at hs
    split at hs
    · exact Option.some.inj hs ▸ h.removePid hG
    · cases hs
  | service mb fault errno svrid => exact h.service hs
  | handlerReturn i mb k a => exact h.handlerReturn hs
  | clean fault msgType => exact h.clean hs
  | acall mb k realLen svrName reqBuf reqBuflen => exact hG.elim
  | getreply attached fault errno cd flags => exact hG.elim

/-- Queued replies belong to waiting calls, no two to one call. -/
theorem noOrphan (h : OrphanInv s) : NoOrphan s := by
  have hmem {x : Noted Msg (Option ℕ)} (hx : x ∈ s.rspQue) : (x.note, x.msg.mtype) ∈ s.items :=
    Multiset.mem_add.2 (.inr (Multiset.mem_add.2 (.inr
      (Multiset.mem_coe.2 (List.mem_map.2 ⟨x, hx, rfl⟩)))))
  refine ⟨fun x hx ↦ ?_, ?_⟩
  · obtain ⟨c, hc, -, ht⟩ := h.owned _ (hmem hx)
    exact .inl ⟨c, hc, ht⟩
  · have hle : (↑(s.rspQue.map Noted.note) : Multiset (Option ℕ)) ≤ s.items.map Prod.fst := by
      have hrsp : (↑(s.rspQue.map fun x ↦ (x.note, x.msg.mtype)) : Multiset (Option ℕ × ℤ)) ≤
          s.items := (Multiset.le_add_left _ _).trans (Multiset.le_add_left _ _)
      simpa [Function.comp_def] using Multiset.map_le_map (f := Prod.fst) hrsp
    have hnodup : (s.rspQue.map Noted.note).Nodup := Multiset.nodup_of_le hle h.notes
    have hsub : s.rspQue.map Noted.note ⊆ s.waiting.map fun c ↦ some c.id := fun n hn ↦ by
      obtain ⟨x, hx, rfl⟩ := List.mem_map.1 hn
      obtain ⟨c, hc, hnote, -⟩ := h.owned _ (hmem hx)
      exact List.mem_map.2 ⟨c, hc, hnote.symm⟩
    simpa using (hnodup.subperm hsub).length_le

end OrphanInv

/-! ### Runs -/

/-- **No orphans.** In every run of children and servers in which a call that gives up has nothing
outstanding, every queued reply has a receiver, and there are at most as many as waiting calls. So
`MsqSnd` does not refuse a reply for their number before there are more than `MSQ_MAX_NUM` calls. -/
theorem no_orphans (h : callSystem.Reach noLateReply s) :
    NoOrphan s ∧ ∀ k : SndKernel, k.statFault = none → s.waiting.length ≤ msqMaxNum →
      msqChk k (plain s.rspQue) .yes = none := by
  have hinv : OrphanInv s := by
    refine h.invariant (I := OrphanInv) ?_ fun s a s' hI hG hs ↦ hI.step hG hs
    rintro s rfl
    exact orphanInv_init
  refine ⟨hinv.noOrphan, fun k hk hmax ↦ ?_⟩
  have hcount := hinv.noOrphan.count
  simp only [msqChk, IPCChkMsq.yes, IPCChkMsq.maxNum, hk, if_true, plain_length]
  exact if_neg (by omega)

/-- The run of one call above keeps to the condition; before the child receives, the reply to it is the
one in the queue. -/
theorem no_orphans_one : ∃ s x, callSystem.Reach noLateReply s ∧ s.rspQue = [x] ∧ NoOrphan s := by
  have hrun : (Guarded.runFn (Guarded.guardFn noLateReply callStep) callInit (oneCall.take 4)).map
      (fun s ↦ s.rspQue.map Noted.note) = some [some 0] := by
    decide +kernel
  obtain ⟨s, hs, hrsp⟩ := Option.map_eq_some_iff.1 hrun
  have hreach : callSystem.Reach noLateReply s := Guarded.reach_of_runFn (.init rfl) hs
  obtain ⟨x, hx, -⟩ := List.map_eq_singleton_iff.1 hrsp
  exact ⟨s, x, hreach, hx, (no_orphans hreach).1⟩

/-- The child runs into the time-out while its request is handled, and exits before the server
answers. -/
def lateAnswer : List CallAct :=
  [.fork 77, .callSvr 77 testsvrMb ⟨none, none, 8192⟩ 0 bareFrame 44 0,
    .service testsvrMb none 0 1, .receive 0 (some EINTR) true 0, .exit 77,
    .handlerReturn 0 testsvrMb ⟨none, none, 8192⟩ ⟨2, 0, some [67], 1, 0, 0⟩]

/-- The reply stays in the queue, and no process is left. -/
theorem late_reply_stays : ∃ s, callSystem.Reach ofChildren s ∧ s.live = [] ∧ ¬ NoOrphan s := by
  have hrun : (Guarded.runFn (Guarded.guardFn ofChildren callStep) callInit lateAnswer).map
      (fun s ↦ (s.rspQue.length, s.waiting.length, s.live)) = some (1, 0, []) := by
    decide +kernel
  obtain ⟨s, hs, heq⟩ := Option.map_eq_some_iff.1 hrun
  obtain ⟨hrsp, hrest⟩ := Prod.mk.inj heq
  obtain ⟨hwait, hlive⟩ := Prod.mk.inj hrest
  refine ⟨s, Guarded.reach_of_runFn (.init rfl) hs, hlive, fun h ↦ ?_⟩
  have hcount := h.count
  omega

end Sunda
