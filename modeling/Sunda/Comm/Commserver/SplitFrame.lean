import Sunda.Comm.Commserver.RoundTrip

/-!
# A frame that arrives in pieces

One connection of the event loop: an event on its socket sets its status to `FD_STAT_POLL`, a claim
of that status calls `RcvTxnMsg`, and a connection whose `RcvTxnMsg` fails is closed. The socket is
non-blocking, so what a read call finds is a matter of when the bytes arrive; the arrival schedule is
part of the socket.

`RcvTxnMsg` has no memory: everything is decided by the first claim. `split_frame_iff` says that the
frame is delivered, once, exactly if at each of its read calls something has arrived since everything
was read (`FrameInTime`). Otherwise the connection is closed while bytes of the frame are still on
their way.
-/

namespace Sunda

open Arrivals

/-- A frame of a length prefix and `n` bytes, which fits the buffer of `read_task`. -/
structure WellFormedFrame (frame : List UInt8) (n : ℕ) : Prop where
  pos : 0 < n
  prefix_eq : Decimal.atoi (frame.take socketMsgHeadLen) = n
  length_eq : frame.length = socketMsgHeadLen + n
  fits : frame.length < sizeofReadSrcBuf

/-- A connection of the event loop. -/
structure ConnRun where
  status : BitVec 8
  sock : Sock UInt8
  /-- The frames that `RcvTxnMsg` handed to the request path. -/
  delivered : List (List UInt8)
  closed : Bool
  /-- The connection was closed before everything had arrived. -/
  early : Bool

/-- What can happen to a connection. -/
inductive ConnAct
  /-- The main loop handles an event on the socket. -/
  | event
  /-- The reader of the shard takes the connection. -/
  | claim

/-- One step. Nothing happens to a closed connection, and only one in `FD_STAT_POLL` is claimed. -/
def connStep (c : ConnRun) : ConnAct → ConnRun
  | .event => if c.closed then c else { c with status := fdStatPoll }
  | .claim =>
    if c.closed ∨ c.status ≠ fdStatPoll then c
    else
      match rcvTxnMsg c.sock socketMsgHeadLen with
      | ⟨0, some (sSrcBuf, _), sock⟩ =>
        { c with status := fdStatRead, sock := sock, delivered := c.delivered ++ [sSrcBuf] }
      | ⟨_, _, sock⟩ => { c with
          status := fdStatRead
          sock := sock
          closed := true
          early := !sock.coming.flatten.isEmpty }

/-- A new connection whose client sends what is in the socket. -/
def connInit (sock : Sock UInt8) : ConnRun := ⟨fdStatReg, sock, [], false, false⟩

/-- Any order of events and claims. -/
def connRun (sock : Sock UInt8) (as : List ConnAct) : ConnRun :=
  as.foldl connStep (connInit sock)

/-- The frame was delivered exactly once, and the connection was not closed before all of it had
arrived. -/
structure DeliveredOnce (frame : List UInt8) (c : ConnRun) : Prop where
  once : c.delivered = [frame]
  notEarly : c.early = false

/-- An event is handled, and the connection is claimed at some time after it. -/
def EventClaimed (as : List ConnAct) : Prop :=
  ∃ pre mid post, as = pre ++ .event :: (mid ++ .claim :: post)

/-! ### Before and after the first claim -/

/-- Nothing was read yet. -/
structure Fresh (sock : Sock UInt8) (c : ConnRun) : Prop where
  sock : c.sock = sock
  delivered : c.delivered = []
  isOpen : c.closed = false
  early : c.early = false

/-- The frame was delivered, and there is nothing more to read. -/
structure Done (frame : List UInt8) (c : ConnRun) : Prop where
  once : DeliveredOnce frame c
  rest : c.closed = true ∨ c.sock.stream = []

/-- The connection was closed too early. -/
structure Lost (c : ConnRun) : Prop where
  closed : c.closed = true
  early : c.early = true

/-- The first claim has decided, by the arrival schedule. -/
def Settled (sock : Sock UInt8) (frame : List UInt8) (n : ℕ) (c : ConnRun) : Prop :=
  (FrameInTime sock socketMsgHeadLen n ∧ Done frame c) ∨
    (¬ FrameInTime sock socketMsgHeadLen n ∧ Lost c)

section

variable {sock : Sock UInt8} {frame : List UInt8} {n : ℕ} {c : ConnRun}

theorem fresh_init (sock : Sock UInt8) : Fresh sock (connInit sock) :=
  ⟨rfl, rfl, rfl, rfl⟩

/-- An event on a fresh connection is recorded. -/
theorem Fresh.event (h : Fresh sock c) :
    Fresh sock (connStep c .event) ∧ (connStep c .event).status = fdStatPoll := by
  have hstep : connStep c .event = { c with status := fdStatPoll } := by
    rw [connStep, h.isOpen]
    rfl
  rw [hstep]
  exact ⟨⟨h.sock, h.delivered, h.isOpen, h.early⟩, rfl⟩

/-- **The first claim** delivers the frame, if its bytes are there in time, and closes the connection
too early otherwise. -/
theorem Fresh.claim (h : Fresh sock c) (hpoll : c.status = fdStatPoll) (hf : WellFormedFrame frame n)
    (hsock : sock.stream = frame) : Settled sock frame n (connStep c .claim) := by
  have hat : Decimal.atoi (sock.stream.take socketMsgHeadLen) = n := hsock ▸ hf.prefix_eq
  have hclaim : ¬ (c.closed = true ∨ c.status ≠ fdStatPoll) := by
    rw [h.isOpen, hpoll]
    simp
  rw [connStep, if_neg hclaim, h.sock]
  rcases rcvTxnMsg_ret_cases sock (by decide) hf.pos hat with
    ⟨hin, hret⟩ | ⟨hlate, hret, hdrained, k, hk, hrest⟩
  · obtain ⟨n', -, hat', -, hstored, hrest⟩ := rcvTxnMsg_zero (by decide) hret
    obtain rfl : n' = n := by
      rw [hat] at hat'
      exact_mod_cast hat'.symm
    rw [hsock, ← hf.length_eq, List.drop_length] at hrest
    rw [hsock, ← hf.length_eq, List.take_length] at hstored
    rcases hrcv : rcvTxnMsg sock socketMsgHeadLen with ⟨ret, stored, sock'⟩
    rw [hrcv] at hret hstored hrest
    obtain rfl : ret = 0 := hret
    obtain rfl : stored = some (frame, _) := hstored
    refine .inl ⟨hin, ⟨?_, h.early⟩, .inr hrest⟩
    show c.delivered ++ [frame] = [frame]
    rw [h.delivered, List.nil_append]
  · rcases hrcv : rcvTxnMsg sock socketMsgHeadLen with ⟨ret, stored, sock'⟩
    rw [hrcv] at hret hdrained hrest
    obtain rfl : ret = -1 := hret
    -- less than the frame was consumed and nothing is buffered, so something is still on its way
    have hcoming : sock'.coming.flatten ≠ [] := fun hnil ↦ by
      have hlen := congrArg List.length hrest
      rw [Sock.stream, hdrained, hnil, hsock, List.length_drop, hf.length_eq] at hlen
      simp at hlen
      omega
    refine .inr ⟨hlate, rfl, ?_⟩
    show (!sock'.coming.flatten.isEmpty) = true
    rw [Bool.not_eq_true', Bool.eq_false_iff, ne_eq, List.isEmpty_iff]
    exact hcoming

/-- A step of a fresh connection leaves it fresh, or settles it. -/
theorem Fresh.step (h : Fresh sock c) (hf : WellFormedFrame frame n) (hsock : sock.stream = frame)
    (a : ConnAct) : Fresh sock (connStep c a) ∨ Settled sock frame n (connStep c a) := by
  cases a with
  | event => exact .inl h.event.1
  | claim =>
    by_cases hpoll : c.status = fdStatPoll
    · exact .inr (h.claim hpoll hf hsock)
    · rw [connStep, if_pos (.inr hpoll)]
      exact .inl h

/-- A recorded event stays recorded until the claim. -/
theorem Fresh.step_polled (h : Fresh sock c) (hpoll : c.status = fdStatPoll)
    (hf : WellFormedFrame frame n) (hsock : sock.stream = frame) (a : ConnAct) :
    (Fresh sock (connStep c a) ∧ (connStep c a).status = fdStatPoll) ∨
      Settled sock frame n (connStep c a) := by
  cases a with
  | event => exact .inl h.event
  | claim => exact .inr (h.claim hpoll hf hsock)

/-- Nothing can be read from an exhausted stream. -/
theorem rcvTxnMsg_nil {s : Sock UInt8} (h : s.stream = []) :
    (rcvTxnMsg s socketMsgHeadLen).ret ≠ 0 ∧ (rcvTxnMsg s socketMsgHeadLen).sock.stream = [] := by
  have hret : (rcvTxnMsg s socketMsgHeadLen).ret ≠ 0 := fun h0 ↦ by
    obtain ⟨n, -, -, hlen, -⟩ := rcvTxnMsg_zero (by decide) h0
    rw [h, List.length_nil, socketMsgHeadLen] at hlen
    omega
  refine ⟨hret, ?_⟩
  rcases readSocket_spec s (n := socketMsgHeadLen) (by decide) with
    ⟨-, bs, s1, m, -, hdone⟩ | ⟨-, s1, k, hread, hfail⟩
  · have hlen := hdone.length
    rw [hdone.taken, h] at hlen
    cases hlen
  · rw [rcvTxnMsg, hread]
    show s1.stream = []
    rw [hfail.rest, h, List.drop_nil]

theorem connStep_of_closed (h : c.closed = true) (a : ConnAct) : connStep c a = c := by
  cases a with
  | event => rw [connStep, if_pos h]
  | claim => rw [connStep, if_pos (.inl h)]

/-- A further claim of a connection whose frame was delivered finds nothing, and closes it. -/
theorem Done.claim (h : Done frame c) (hopen : c.closed = false) :
    Done frame (connStep c .claim) := by
  have hnil : c.sock.stream = [] := h.rest.resolve_left (by simp [hopen])
  rw [connStep]
  split
  · exact h
  · obtain ⟨hret, hrest⟩ := rcvTxnMsg_nil hnil
    split
    · next heq =>
      rw [heq] at hret
      exact absurd rfl hret
    · next ret stored sock' _ heq =>
      rw [heq] at hrest
      have hcoming : sock'.coming.flatten = [] := (List.append_eq_nil_iff.1 hrest).2
      refine ⟨⟨h.once.once, ?_⟩, .inl rfl⟩
      show (!sock'.coming.flatten.isEmpty) = false
      rw [hcoming]
      rfl

/-- What the first claim decided stays decided. -/
theorem Settled.step (h : Settled sock frame n c) (a : ConnAct) :
    Settled sock frame n (connStep c a) := by
  rcases h with ⟨hin, hdone⟩ | ⟨hlate, hlost⟩
  · refine .inl ⟨hin, ?_⟩
    rcases Bool.eq_false_or_eq_true c.closed with hclosed | hopen
    · rwa [connStep_of_closed hclosed]
    · cases a with
      | event =>
        rw [connStep, if_neg (by simp [hopen])]
        exact ⟨⟨hdone.once.once, hdone.once.notEarly⟩, hdone.rest⟩
      | claim => exact hdone.claim hopen
  · rw [connStep_of_closed hlost.closed]
    exact .inr ⟨hlate, hlost⟩

/-! ### Runs -/

theorem Settled.run (h : Settled sock frame n c) (as : List ConnAct) :
    Settled sock frame n (as.foldl connStep c) := by
  induction as generalizing c with
  | nil => exact h
  | cons a as ih => exact ih (h.step a)

/-- Whatever happens to a fresh connection, it stays fresh until it is settled. -/
theorem Fresh.run (h : Fresh sock c) (hf : WellFormedFrame frame n) (hsock : sock.stream = frame)
    (as : List ConnAct) :
    Fresh sock (as.foldl connStep c) ∨ Settled sock frame n (as.foldl connStep c) := by
  induction as generalizing c with
  | nil => exact .inl h
  | cons a as ih =>
    rcases h.step hf hsock a with h' | h'
    · exact ih h'
    · exact .inr (h'.run as)

/-- A recorded event is claimed in the end. -/
theorem Fresh.run_claimed (h : Fresh sock c) (hpoll : c.status = fdStatPoll)
    (hf : WellFormedFrame frame n) (hsock : sock.stream = frame) (mid post : List ConnAct) :
    Settled sock frame n ((mid ++ .claim :: post).foldl connStep c) := by
  induction mid generalizing c with
  | nil => exact (h.claim hpoll hf hsock).run post
  | cons a mid ih =>
    rcases h.step_polled hpoll hf hsock a with ⟨h', hpoll'⟩ | h'
    · exact ih h' hpoll'
    · exact h'.run (mid ++ .claim :: post)

end

/-- **A frame that arrives in pieces.** In every order of events and claims in which an event is
claimed, the frame is delivered exactly once, and the connection is not closed before all of it has
arrived, exactly if at each read call for the frame something has arrived since everything was
read. -/
theorem split_frame_iff {frame : List UInt8} {n : ℕ} (hf : WellFormedFrame frame n)
    {sock : Sock UInt8} (hsock : sock.stream = frame) {as : List ConnAct} (has : EventClaimed as) :
    DeliveredOnce frame (connRun sock as) ↔ FrameInTime sock socketMsgHeadLen n := by
  have hsettled : Settled sock frame n (connRun sock as) := by
    obtain ⟨pre, mid, post, rfl⟩ := has
    rw [connRun, List.foldl_append]
    rcases (fresh_init sock).run hf hsock pre with h | h
    · obtain ⟨h', hpoll⟩ := h.event
      exact h'.run_claimed hpoll hf hsock mid post
    · exact h.run _
  rcases hsettled with ⟨hin, hdone⟩ | ⟨hlate, hlost⟩
  · exact iff_of_true hdone.once hin
  · refine iff_of_false (fun honce ↦ ?_) hlate
    have hnot := honce.notEarly
    rw [hlost.early] at hnot
    cases hnot

/-- The frame of a request for `testsvr` without a body. -/
def testsvrFrame : List UInt8 := requestFrame testsvrReqHead []

theorem wellFormed_testsvrFrame : WellFormedFrame testsvrFrame 40 :=
  ⟨by decide, by decide +kernel, by decide +kernel, by decide +kernel⟩

/-- It arrives in two pieces, the second of them before the second read call. -/
theorem split_frame_two_pieces :
    DeliveredOnce testsvrFrame
      (connRun ⟨testsvrFrame.take 2, [[], testsvrFrame.drop 2]⟩ [.event, .claim]) := by
  refine (split_frame_iff wellFormed_testsvrFrame ?_ ⟨[], [], [], rfl⟩).2 fun j hj ↦ ?_
  · show testsvrFrame.take 2 ++ ([] ++ (testsvrFrame.drop 2 ++ [])) = _
    simp
  · have hall : 42 ≤ arrived [[], testsvrFrame.drop 2] 2 := by decide +kernel
    match j with
    | 0 => exact .inr (.inl ⟨rfl, by decide +kernel⟩)
    | 1 => exact .inl (by decide +kernel)
    | j + 2 =>
      have hmono := arrived_mono [[], testsvrFrame.drop 2] (Nat.le_add_left 2 j)
      have hbuf : (testsvrFrame.take 2).length = 2 := by decide +kernel
      have hj' : (testsvrFrame.take 2).length + arrived [[], testsvrFrame.drop 2] (j + 2) <
          4 + 40 := hj
      omega

/-- It arrives in two pieces, the second of them after the second read call. -/
theorem split_frame_late :
    ¬ DeliveredOnce testsvrFrame
      (connRun ⟨testsvrFrame.take 2, [[], [], testsvrFrame.drop 2]⟩ [.event, .claim]) := by
  rintro ⟨honce, -⟩
  exact absurd honce (by decide +kernel)

end Sunda
