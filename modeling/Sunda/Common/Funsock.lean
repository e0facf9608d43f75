import Sunda.Base.Arrivals
import Sunda.Base.Bytes
import Sunda.Base.Decimal
import Mathlib.Tactic.Linarith

/-!
# Framed messages on a socket

`ReadSocket`, `WriteSocket` and `RcvTxnMsg` (`pubfun/common/funsock.c`): read or write exactly so many
bytes, and receive one transaction message, a decimal length of `iHeadLen` characters followed by as
many bytes.

`ReadSocket` and `RcvTxnMsg` treat every unsuccessful `read` alike, so `EAGAIN` on a non-blocking socket ends them as a
broken connection does, and what was read so far is dropped with the local buffer. When that
happens is `readSocket_spec`: a call for `n` bytes succeeds exactly when, at each of its read calls,
something has arrived since everything was read. It also says what is consumed in either case.

`rcvTxnMsg_zero` is the specification of a successful `RcvTxnMsg`, and `rcvTxnMsg_ret_cases` says
when it succeeds.
-/

namespace Sunda

open Arrivals

/-! ### `ReadSocket` -/

/-- The loop of `ReadSocket`: `need` bytes are missing and `acc` has been read. Each pass reads at
least one byte, so `fuel` never runs out when it starts at `need`. -/
def readLoop : ℕ → Sock UInt8 → ℕ → List UInt8 → Option (List UInt8) × Sock UInt8
  | 0, s, _, _ => (none, s)
  | fuel + 1, s, need, acc =>
    match s.read need with
    | (none, s') => (none, s')
    | (some bs, s') =>
      if bs.length < need then readLoop fuel s' (need - bs.length) (acc ++ bs)
      else (some (acc ++ bs), s')

/-- `ReadSocket`. `none` is the return value -1 and `some sBuf` the return value 0 with the bytes
stored in the caller's buffer. -/
def readSocket (s : Sock UInt8) (nLen : ℤ) : Option (List UInt8) × Sock UInt8 :=
  if nLen ≤ 0 then (none, s) else readLoop nLen.toNat s nLen.toNat []

/-- What a successful loop has done: it returns the next `need` bytes of the stream, and it issued
read calls `0` to `m`, the last of which completed the request. -/
structure ReadDone (s : Sock UInt8) (need : ℕ) (bs : List UInt8) (s' : Sock UInt8) (m : ℕ) :
    Prop where
  taken : bs = s.stream.take need
  length : bs.length = need
  rest : s'.stream = s.stream.drop need
  calls : s'.coming = s.coming.drop (m + 1)
  buffered : s'.buf.length + need = s.buf.length + arrived s.coming (m + 1)
  pending : ∀ i, 0 < i → i ≤ m → s.buf.length + arrived s.coming i < need

/-- What a failing loop has done: it consumed everything that has arrived, and less than asked. -/
structure ReadFailed (s : Sock UInt8) (need : ℕ) (s' : Sock UInt8) (k : ℕ) : Prop where
  consumed : k < need
  drained : s'.buf = []
  rest : s'.stream = s.stream.drop k

/-- Data is there for every read call that a request for `need` bytes issues: whenever fewer than
`need` bytes have arrived before a call, something arrives just before it. Only the first call
can live on bytes that were buffered earlier. -/
def InTime (s : Sock UInt8) (need : ℕ) : Prop :=
  ∀ j, s.buf.length + arrived s.coming j < need →
    batch s.coming j ≠ [] ∨ (j = 0 ∧ 0 < s.buf.length)

/-- A read call that returned all there was, and less than the request. -/
structure ShortRead (s : Sock UInt8) (need : ℕ) (bs : List UInt8) (s' : Sock UInt8) : Prop where
  pos : 0 < bs.length
  lt : bs.length < need
  all : bs = s.ready
  next : s' = ⟨[], s.coming.tail⟩
  split : s.stream = bs ++ s'.stream

namespace ShortRead

variable {s s' t : Sock UInt8} {need m k : ℕ} {bs cs : List UInt8}

theorem length_eq (h : ShortRead s need bs s') :
    bs.length = s.buf.length + (batch s.coming 0).length := by
  rw [h.all, s.ready_eq, List.length_append]

/-- Being in time passes over a short read: it is a condition on the remaining read calls. -/
theorem inTime_iff (h : ShortRead s need bs s') :
    InTime s need ↔ InTime s' (need - bs.length) := by
  have hlen := h.length_eq
  have hpos := h.pos
  rw [h.next]
  constructor
  · intro hin j hj
    have hstep := hin (j + 1) (by rw [arrived_succ]; simp at hj; omega)
    rw [batch_succ] at hstep
    rcases hstep with hb | ⟨h0, -⟩
    · exact .inl hb
    · omega
  · intro hin j hj
    cases j with
    | zero =>
      by_cases hb : batch s.coming 0 = []
      · rw [hb, List.length_nil] at hlen
        exact .inr ⟨rfl, by omega⟩
      · exact .inl hb
    | succ j =>
      rw [arrived_succ] at hj
      rw [batch_succ]
      rcases hin j (by simp; omega) with hb | ⟨-, h0⟩
      · exact .inl hb
      · exact absurd h0 (by simp)

/-- A successful rest of the loop, behind a short read. -/
theorem done (h : ShortRead s need bs s') (hd : ReadDone s' (need - bs.length) cs t m) :
    ReadDone s need (bs ++ cs) t (m + 1) := by
  have hlen := h.length_eq
  obtain ⟨hpos, hlt, -, hnext, hsplit⟩ := h
  have hbuf : s'.buf.length = 0 := by rw [hnext]; rfl
  have hcoming : s'.coming = s.coming.tail := by rw [hnext]
  have hshift : ∀ i, s'.buf.length + arrived s'.coming i + bs.length =
      s.buf.length + arrived s.coming (i + 1) := fun i ↦ by
    rw [hcoming, arrived_succ]
    omega
  refine ⟨?_, ?_, ?_, ?_, ?_, fun i hi hile ↦ ?_⟩
  · rw [hd.taken, hsplit, List.take_append, List.take_of_length_le (Nat.le_of_lt hlt)]
  · rw [List.length_append, hd.length]
    omega
  · rw [hd.rest, hsplit, List.drop_append, List.drop_eq_nil_of_le (Nat.le_of_lt hlt),
      List.nil_append]
  · rw [hd.calls, hcoming, List.drop_tail]
  · have := hd.buffered
    have := hshift (m + 1)
    omega
  · obtain ⟨j, rfl⟩ : ∃ j, i = j + 1 := ⟨i - 1, by omega⟩
    have hs := hshift j
    rcases Nat.eq_zero_or_pos j with rfl | hj
    · rw [arrived_zero] at hs
      omega
    · have := hd.pending j hj (by omega)
      omega

/-- A failing rest of the loop, behind a short read. -/
theorem failed (h : ShortRead s need bs s') (hf : ReadFailed s' (need - bs.length) t k) :
    ReadFailed s need t (bs.length + k) := by
  have hk := hf.consumed
  refine ⟨by omega, hf.drained, ?_⟩
  rw [hf.rest, h.split, List.drop_append, List.drop_eq_nil_of_le (Nat.le_add_right _ _),
    List.nil_append, Nat.add_sub_cancel_left]

end ShortRead

/-- A read call that completes the request. -/
theorem readDone_of_read {s s' : Sock UInt8} {need : ℕ} {bs : List UInt8} (hneed : 0 < need)
    (hread : s.read need = (some bs, s')) (hge : ¬ bs.length < need) :
    InTime s need ∧ ReadDone s need bs s' 0 := by
  obtain ⟨-, hbs, hs', hstream⟩ := Sock.of_read_some hneed hread
  have hrlen : s.ready.length = s.buf.length + (batch s.coming 0).length := by
    rw [s.ready_eq, List.length_append]
  have hblen : bs.length = min need s.ready.length := by rw [hbs, List.length_take]
  have hbl : bs.length = need := by omega
  refine ⟨fun j hj ↦ ?_, ?_, hbl, ?_, ?_, ?_, fun i hi hi' ↦ by omega⟩
  · cases j with
    | zero =>
      by_cases hb : batch s.coming 0 = []
      · rw [hb, List.length_nil] at hrlen
        exact .inr ⟨rfl, by omega⟩
      · exact .inl hb
    | succ j =>
      rw [arrived_succ] at hj
      omega
  · rw [hstream, ← hbl, List.take_left]
  · rw [hstream, ← hbl, List.drop_left]
  · rw [hs', List.drop_one]
  · rw [hs', List.length_drop, arrived_succ, arrived_zero]
    omega

/-- A read call that finds nothing. -/
theorem readFailed_of_read {s s' : Sock UInt8} {need : ℕ} (hneed : 0 < need)
    (hread : s.read need = (none, s')) : ¬ InTime s need ∧ ReadFailed s need s' 0 := by
  obtain ⟨hbuf, hbatch, hs', hstream⟩ := Sock.of_read_none hread
  refine ⟨fun h ↦ ?_, hneed, by rw [hs'], by rw [hstream, List.drop_zero]⟩
  rcases h 0 (by simpa [hbuf] using hneed) with hb | ⟨-, hpos⟩
  · exact hb hbatch
  · simp [hbuf] at hpos

/-- **The loop of `ReadSocket`.** It succeeds exactly when data is there in time, and in both cases
what it consumed is known. -/
theorem readLoop_spec (fuel : ℕ) (s : Sock UInt8) (need : ℕ) (acc : List UInt8) (hneed : 0 < need)
    (hfuel : need ≤ fuel) :
    (InTime s need ∧ ∃ bs s' m, readLoop fuel s need acc = (some (acc ++ bs), s') ∧
      ReadDone s need bs s' m) ∨
    (¬ InTime s need ∧ ∃ s' k, readLoop fuel s need acc = (none, s') ∧
      ReadFailed s need s' k) := by
  induction fuel generalizing s need acc with
  | zero => omega
  | succ fuel ih =>
    rcases hread : s.read need with ⟨_ | bs, s'⟩
    · obtain ⟨hin, hfail⟩ := readFailed_of_read hneed hread
      exact .inr ⟨hin, s', 0, by rw [readLoop, hread], hfail⟩
    · by_cases hlt : bs.length < need
      · have hshort : ShortRead s need bs s' := by
          obtain ⟨hne, hbs, hs', hstream⟩ := Sock.of_read_some hneed hread
          have hall : s.ready.length ≤ need := by
            have : bs.length = min need s.ready.length := by rw [hbs, List.length_take]
            omega
          refine ⟨List.length_pos_of_ne_nil hne, hlt, ?_, ?_, hstream⟩
          · rw [hbs, List.take_of_length_le hall]
          · rw [hs', List.drop_eq_nil_of_le hall]
        have hloop : readLoop (fuel + 1) s need acc =
            readLoop fuel s' (need - bs.length) (acc ++ bs) := by
          rw [readLoop, hread]
          exact if_pos hlt
        have hpos := hshort.pos
        rw [hshort.inTime_iff, hloop]
        rcases ih s' (need - bs.length) (acc ++ bs) (by omega) (by omega) with
          ⟨hin, cs, t, m, heq, hdone⟩ | ⟨hin, t, k, heq, hfail⟩
        · exact .inl ⟨hin, bs ++ cs, t, m + 1, by rw [heq, List.append_assoc], hshort.done hdone⟩
        · exact .inr ⟨hin, t, bs.length + k, heq, hshort.failed hfail⟩
      · obtain ⟨hin, hdone⟩ := readDone_of_read hneed hread hlt
        refine .inl ⟨hin, bs, s', 0, ?_, hdone⟩
        rw [readLoop, hread]
        exact if_neg hlt

/-- **`ReadSocket`** for a positive length. -/
theorem readSocket_spec (s : Sock UInt8) {n : ℕ} (hn : 0 < n) :
    (InTime s n ∧ ∃ bs s' m, readSocket s n = (some bs, s') ∧ ReadDone s n bs s' m) ∨
    (¬ InTime s n ∧ ∃ s' k, readSocket s n = (none, s') ∧ ReadFailed s n s' k) := by
  have heq : readSocket s n = readLoop n s n [] := by
    rw [readSocket, if_neg (by omega), Int.toNat_natCast]
  rw [heq]
  exact readLoop_spec n s n [] hn (Nat.le_refl _)

/-! ### `WriteSocket` -/

/-- A call of `WriteSocket` before one of its `write` calls: its arguments, and how many bytes it has
written. -/
structure WriteCall where
  nSocket : BitVec 32
  sBuf : List UInt8
  nWriteLen : ℕ

/-- `WriteSocket` before its first `write` call. An empty buffer is refused. -/
def writeSocket (nSocket : BitVec 32) (sBuf : List UInt8) : Option WriteCall :=
  if sBuf.isEmpty then none else some ⟨nSocket, sBuf, 0⟩

namespace WriteCall

/-- What a `write` call that returns `nNum` writes. -/
def written (c : WriteCall) (nNum : ℕ) : List UInt8 :=
  (c.sBuf.drop c.nWriteLen).take nNum

/-- Behind a `write` call that returns `nNum`; `none` if that was the last one. -/
def next (c : WriteCall) (nNum : ℕ) : Option WriteCall :=
  if c.sBuf.length ≤ c.nWriteLen + nNum then none
  else some { c with nWriteLen := c.nWriteLen + nNum }

theorem take_append_written (c : WriteCall) (nNum : ℕ) :
    c.sBuf.take c.nWriteLen ++ c.written nNum = c.sBuf.take (c.nWriteLen + nNum) :=
  List.take_add.symm

end WriteCall

/-! ### `RcvTxnMsg` -/

/-- The result of `RcvTxnMsg`: its return value, what it stored through `sSrcBuf` and `iBufLen`
(nothing unless it returns 0), and the socket afterwards. -/
structure RcvTxn where
  ret : ℤ
  stored : Option (List UInt8 × ℤ)
  sock : Sock UInt8

/-- `RcvTxnMsg`. -/
def rcvTxnMsg (s : Sock UInt8) (iHeadLen : ℤ) : RcvTxn :=
  match readSocket s iHeadLen with
  | (none, s1) => ⟨-1, none, s1⟩
  | (some sMsgLen, s1) =>
    if Decimal.atoi sMsgLen ≤ 0 then ⟨1, none, s1⟩
    else
      match readSocket s1 (Decimal.atoi sMsgLen) with
      | (none, s2) => ⟨-1, none, s2⟩
      | (some sMsgInBuf, s2) =>
        ⟨0, some (sMsgLen ++ sMsgInBuf, iHeadLen + Decimal.atoi sMsgLen), s2⟩

/-- Data is there for every read call that `RcvTxnMsg` issues for a message of `n` bytes behind a
length prefix of `h` bytes: something arrives before each call until the whole message has arrived.
The exceptions are the first call, which can live on buffered bytes, and the first call for the
body, which can live on bytes that came together with the end of the prefix. -/
def FrameInTime (s : Sock UInt8) (h n : ℕ) : Prop :=
  ∀ j, s.buf.length + arrived s.coming j < h + n →
    batch s.coming j ≠ [] ∨ (j = 0 ∧ 0 < s.buf.length) ∨
      (h < s.buf.length + arrived s.coming j ∧
        ∀ i, 0 < i → i < j → s.buf.length + arrived s.coming i < h)

/-- A message that has arrived as a whole is in time. -/
theorem FrameInTime.of_buffered {s : Sock UInt8} {h n : ℕ} (hall : h + n ≤ s.buf.length) :
    FrameInTime s h n :=
  fun j hj ↦ by omega

theorem FrameInTime.inTime {s : Sock UInt8} {h n : ℕ} (hf : FrameInTime s h n) : InTime s h := by
  intro j hj
  rcases hf j (by omega) with hb | h0 | ⟨hlt, -⟩
  · exact .inl hb
  · exact .inr h0
  · omega

/-- Behind a complete prefix, being in time for the frame is being in time for the body. -/
theorem frameInTime_iff {s s1 : Sock UInt8} {h n m : ℕ} {bs : List UInt8} (hpos : 0 < h)
    (hin : InTime s h) (hd : ReadDone s h bs s1 m) : FrameInTime s h n ↔ InTime s1 n := by
  have hbuf := hd.buffered
  have hshift : ∀ i, s1.buf.length + arrived s1.coming i + h =
      s.buf.length + arrived s.coming (m + 1 + i) := fun i ↦ by
    rw [hd.calls, arrived_drop]
    omega
  have hbatch : ∀ i, batch s1.coming i = batch s.coming (m + 1 + i) := fun i ↦ by
    rw [hd.calls, batch_drop]
  constructor
  · intro hf i hi
    have hs := hshift i
    rw [hbatch]
    rcases hf (m + 1 + i) (by omega) with hb | ⟨h0, -⟩ | ⟨hlt, hbefore⟩
    · exact .inl hb
    · omega
    · rcases Nat.eq_zero_or_pos i with rfl | hi0
      · rw [arrived_zero] at hs
        exact .inr ⟨rfl, by omega⟩
      · have := hbefore (m + 1) (by omega) (by omega)
        omega
  · intro hb j hj
    by_cases hprefix : s.buf.length + arrived s.coming j < h
    · rcases hin j hprefix with hne | h0
      · exact .inl hne
      · exact .inr (.inl h0)
    · by_cases hjm : j ≤ m
      · -- the prefix is complete before its last call only if it was buffered
        rcases Nat.eq_zero_or_pos j with rfl | hj0
        · rw [arrived_zero] at hprefix
          exact .inr (.inl ⟨rfl, by omega⟩)
        · exact absurd (hd.pending j hj0 hjm) hprefix
      · obtain ⟨i, rfl⟩ : ∃ i, j = m + 1 + i := ⟨j - (m + 1), by omega⟩
        have hs := hshift i
        rcases hb i (by omega) with hne | ⟨rfl, h0⟩
        · exact .inl (hbatch i ▸ hne)
        · refine .inr (.inr ⟨?_, fun i hi him ↦ hd.pending i hi (by omega)⟩)
          rw [arrived_zero] at hs
          omega

/-- A successful `RcvTxnMsg` took one frame off the stream: a prefix that `atoi` reads as a positive
number, and that many bytes. -/
theorem rcvTxnMsg_zero {s : Sock UInt8} {h : ℕ} (hpos : 0 < h) (h0 : (rcvTxnMsg s h).ret = 0) :
    ∃ n : ℕ, 0 < n ∧ Decimal.atoi (s.stream.take h) = n ∧ h + n ≤ s.stream.length ∧
      (rcvTxnMsg s h).stored = some (s.stream.take (h + n), (h : ℤ) + n) ∧
      (rcvTxnMsg s h).sock.stream = s.stream.drop (h + n) := by
  rcases readSocket_spec s hpos with ⟨-, pfx, s1, m, hread, hdone⟩ | ⟨-, s1, k, hread, -⟩
  · have htake := hdone.taken
    by_cases hat : Decimal.atoi pfx ≤ 0
    · simp [rcvTxnMsg, hread, hat] at h0
    · obtain ⟨n, hn⟩ : ∃ n : ℕ, Decimal.atoi pfx = n := ⟨(Decimal.atoi pfx).toNat, by omega⟩
      have hn0 : 0 < n := by omega
      rcases readSocket_spec s1 hn0 with ⟨-, body, s2, m2, hread2, hdone2⟩ | ⟨-, s2, k, hread2, -⟩
      · have hstream : s.stream = pfx ++ (body ++ s2.stream) := by
          rw [hdone2.taken, hdone2.rest, List.take_append_drop, htake, hdone.rest,
            List.take_append_drop]
        have hlen : pfx.length = h := hdone.length
        have hlen2 : body.length = n := hdone2.length
        have hr : rcvTxnMsg s h = ⟨0, some (pfx ++ body, (h : ℤ) + n), s2⟩ := by
          simp [rcvTxnMsg, hread, hn, hn0.ne', hread2]
        refine ⟨n, hn0, by rw [← htake, hn], ?_, ?_, ?_⟩
        · rw [hstream, List.length_append, List.length_append]
          omega
        · rw [hr, hstream, ← List.append_assoc, List.take_left' (by rw [List.length_append]; omega)]
        · rw [hr, hstream, ← List.append_assoc, List.drop_left' (by rw [List.length_append]; omega)]
      · simp [rcvTxnMsg, hread, hn, hn0.ne', hread2] at h0
  · simp [rcvTxnMsg, hread] at h0

/-- **When `RcvTxnMsg` succeeds.** On a stream that starts with a prefix announcing `n` bytes it
returns 0 exactly when data is there in time; otherwise it returns -1, having consumed everything
that has arrived, which is less than the frame. -/
theorem rcvTxnMsg_ret_cases (s : Sock UInt8) {h n : ℕ} (hpos : 0 < h) (hn : 0 < n)
    (hat : Decimal.atoi (s.stream.take h) = n) :
    (FrameInTime s h n ∧ (rcvTxnMsg s h).ret = 0) ∨
    (¬ FrameInTime s h n ∧ (rcvTxnMsg s h).ret = -1 ∧ (rcvTxnMsg s h).sock.buf = [] ∧
      ∃ k < h + n, (rcvTxnMsg s h).sock.stream = s.stream.drop k) := by
  rcases readSocket_spec s hpos with ⟨hin, pfx, s1, m, hread, hdone⟩ | ⟨hin, s1, k, hread, hf⟩
  · have hpfx : Decimal.atoi pfx = n := by rw [hdone.taken, hat]
    rcases readSocket_spec s1 hn with ⟨hin2, body, s2, m2, hread2, -⟩ | ⟨hin2, s2, k, hread2, hf⟩
    · refine .inl ⟨(frameInTime_iff hpos hin hdone).2 hin2, ?_⟩
      simp [rcvTxnMsg, hread, hpfx, hn.ne', hread2]
    · refine .inr ⟨fun hfr ↦ hin2 ((frameInTime_iff hpos hin hdone).1 hfr), ?_, ?_, h + k, ?_, ?_⟩
      · simp [rcvTxnMsg, hread, hpfx, hn.ne', hread2]
      · simp [rcvTxnMsg, hread, hpfx, hn.ne', hread2, hf.drained]
      · have := hf.consumed
        omega
      · simp [rcvTxnMsg, hread, hpfx, hn.ne', hread2, hf.rest, hdone.rest]
  · refine .inr ⟨fun hfr ↦ hin hfr.inTime, ?_, ?_, k, ?_, ?_⟩
    · simp [rcvTxnMsg, hread]
    · simp [rcvTxnMsg, hread, hf.drained]
    · have := hf.consumed
      omega
    · simp [rcvTxnMsg, hread, hf.rest]

end Sunda
