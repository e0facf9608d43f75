import Sunda.Common.Funsock

/-!
# A stream of framed messages

A client writes each payload behind its length in four decimal digits (`client/client.c`); `RcvTxnMsg`
(`pubfun/common/funsock.c`) takes the messages off the stream again, one per call. On a blocking socket
this works for every way in which the stream is cut into short counts, which is `rcv_inverts_framing`: the
calls return the payloads in order, and each consumes its own frame and nothing else.

A frame is in time when its bytes are in the stream at all, since a blocking read waits for them
(`Sock.Blocking`); one call is `rcvTxnMsg_of_frame`, and the calls one after the other are an induction from it.
-/

namespace Sunda

open Arrivals

/-! ### Framing -/

/-- `SOCKET_MSG_HEAD_LEN`, the `iHeadLen` of all callers. -/
def frameHeadLen : ℕ := 4

/-- A payload behind its length. -/
def frame (payload : List UInt8) : List UInt8 :=
  Decimal.sprintf0d frameHeadLen payload.length ++ payload

/-- What a client writes for several payloads. -/
def framed (payloads : List (List UInt8)) : List UInt8 :=
  (payloads.map frame).flatten

/-- What `RcvTxnMsg` is to return and to store for a payload: 1 and nothing if it is empty, otherwise 0 with
the frame and its length. -/
def frameResult (payload : List UInt8) : ℤ × Option (List UInt8 × ℤ) :=
  if payload = [] then (1, none)
  else (0, some (frame payload, frameHeadLen + payload.length))

/-- The results of `n` calls of `RcvTxnMsg`, and the socket behind them. -/
def rcvTxnMsgs (iHeadLen : ℤ) : ℕ → Sock UInt8 → List (ℤ × Option (List UInt8 × ℤ)) × Sock UInt8
  | 0, s => ([], s)
  | n + 1, s =>
    let r := rcvTxnMsg s iHeadLen
    let rest := rcvTxnMsgs iHeadLen n r.sock
    ((r.ret, r.stored) :: rest.1, rest.2)

/-! ### One call -/

/-- On a blocking socket data is there for every read call, as long as the stream has it. -/
theorem inTime_of_blocking {s : Sock UInt8} (h : s.Blocking) {need : ℕ} (hneed : need ≤ s.stream.length) :
    InTime s need :=
  fun _ hj ↦ .inl (h.batch_ne_nil (hj.trans_le hneed))

/-- **`ReadSocket` on a blocking socket** takes what was asked for off the stream. -/
theorem readSocket_of_blocking {s : Sock UInt8} (h : s.Blocking) {bs more : List UInt8}
    (hs : s.stream = bs ++ more) (hpos : 0 < bs.length) :
    ∃ s', readSocket s bs.length = (some bs, s') ∧ s'.Blocking ∧ s'.stream = more := by
  have hlen : bs.length ≤ s.stream.length := by
    rw [hs, List.length_append]
    omega
  rcases readSocket_spec s hpos with ⟨-, bs', s', m, hread, hdone⟩ | ⟨hin, -⟩
  · have hbs : bs' = bs := by rw [hdone.taken, hs, List.take_left]
    refine ⟨s', by rw [hread, hbs], h.of_drop hdone.calls, ?_⟩
    rw [hdone.rest, hs, List.drop_left]
  · exact absurd (inTime_of_blocking h hlen) hin

/-- **One frame**: `RcvTxnMsg` returns its payload and consumes the frame. -/
theorem rcvTxnMsg_of_frame {s : Sock UInt8} (h : s.Blocking) {payload more : List UInt8}
    (hlen : payload.length < 10 ^ frameHeadLen) (hs : s.stream = frame payload ++ more) :
    ∃ s', rcvTxnMsg s frameHeadLen = ⟨(frameResult payload).1, (frameResult payload).2, s'⟩ ∧
      s'.Blocking ∧ s'.stream = more := by
  have hpfx : (Decimal.sprintf0d frameHeadLen payload.length).length = frameHeadLen :=
    Decimal.sprintf0d_length (by decide) hlen
  have hat : Decimal.atoi (Decimal.sprintf0d frameHeadLen payload.length) = payload.length :=
    Decimal.atoi_sprintf0d _ (by rw [frameHeadLen] at hlen; omega)
  rw [frame, List.append_assoc] at hs
  obtain ⟨s1, hread, hblock, hrest⟩ := readSocket_of_blocking h hs (by rw [hpfx]; decide)
  rw [hpfx] at hread
  by_cases hnil : payload = []
  · subst hnil
    refine ⟨s1, ?_, hblock, hrest⟩
    have hzero : Decimal.atoi (Decimal.sprintf0d frameHeadLen ([] : List UInt8).length) ≤ 0 := hat.le
    simp only [rcvTxnMsg, hread, if_pos hzero, frameResult, if_true]
  · have hpos : 0 < payload.length := List.length_pos_iff.2 hnil
    obtain ⟨s2, hread2, hblock2, hrest2⟩ := readSocket_of_blocking hblock hrest hpos
    refine ⟨s2, ?_, hblock2, hrest2⟩
    simp only [rcvTxnMsg, hread, hat, hread2, frameResult, if_neg hnil, frame]
    exact if_neg (by omega)

/-! ### The calls in a row -/

/-- **`RcvTxnMsg` inverts the framing.** However a blocking socket cuts the stream into short counts, the
calls return the payloads in order, and after each of them the stream starts with the next frame. -/
theorem rcv_inverts_framing {payloads : List (List UInt8)} (hlen : ∀ p ∈ payloads, p.length ≤ 9999)
    {s : Sock UInt8} (hblock : s.Blocking) {more : List UInt8} (hs : s.stream = framed payloads ++ more)
    (n : ℕ) (hn : n ≤ payloads.length) :
    (rcvTxnMsgs frameHeadLen n s).1 = (payloads.take n).map frameResult ∧
      (rcvTxnMsgs frameHeadLen n s).2.stream = framed (payloads.drop n) ++ more := by
  induction n generalizing payloads s with
  | zero => exact ⟨by rw [List.take_zero]; rfl, hs⟩
  | succ n ih =>
    cases payloads with
    | nil => exact absurd hn (by simp)
    | cons p ps =>
      rw [framed, List.map_cons, List.flatten_cons, List.append_assoc] at hs
      have hp : p.length < 10 ^ frameHeadLen := Nat.lt_succ_of_le (hlen p (List.mem_cons_self ..))
      obtain ⟨s', hrcv, hblock', hrest⟩ := rcvTxnMsg_of_frame hblock hp hs
      obtain ⟨hres, hstream⟩ := ih (fun q hq ↦ hlen q (List.mem_cons_of_mem _ hq)) hblock' hrest
        (Nat.le_of_succ_le_succ hn)
      rw [rcvTxnMsgs, hrcv, List.take_succ_cons, List.map_cons, List.drop_succ_cons]
      exact ⟨congrArg _ hres, hstream⟩

/-- Two messages, the first of them empty, in pieces that cut the second prefix. -/
theorem rcv_inverts_framing_two :
    (rcvTxnMsgs frameHeadLen 2 ⟨[], [[48, 48], [48, 48, 48, 48], [48], [49, 65]]⟩).1 =
      [[], [65]].map frameResult :=
  (@rcv_inverts_framing [[], [65]] (by decide) _ (by decide) [] (by decide) 2 (by decide)).1

end Sunda
