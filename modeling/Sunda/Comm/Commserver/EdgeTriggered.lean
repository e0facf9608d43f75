import Sunda.Comm.Commserver.EventCount
import Sunda.Comm.Commserver.SplitFrame

/-!
# Edge-triggered events

The event loop of `main` and its readers, with what the kernel does for them: the backlog of the
listening socket, the receive buffers, and the edges that `epoll_wait` reports. An edge is a flag, set
when something arrives and cleared when it is reported, so two arrivals between two waits leave one
event.

The loop accepts one connection for an event, and a reader takes one frame for a recorded event.
`edges_drained` says what that needs: nothing may arrive at a source whose last arrival was not
reported yet, and no event may be handled while the previous one of its connection is still recorded.
Then an idle server has nothing left to do. Two connections in one event are enough to leave the
second in the backlog: `connection_left_behind`.
-/

namespace Sunda

open Arrivals

/-! ### The system -/

/-- A complete frame of a client. -/
structure ClientFrame where
  bytes : List UInt8
  /-- The number of bytes behind the prefix. -/
  body : ℕ
  wellFormed : WellFormedFrame bytes body

/-- The frames of a client one after the other. -/
def framesBytes (fs : List ClientFrame) : List UInt8 :=
  (fs.map ClientFrame.bytes).flatten

/-- What `epoll_wait` reports events on. -/
inductive Source
  | listen
  | client (fd : ℕ)
  deriving DecidableEq

/-- The server between two of its steps. -/
structure LoopState where
  table : TableState
  /-- Connections that wait to be accepted. -/
  backlog : ℕ
  /-- What a socket has received and nobody has read. -/
  received : ℕ → List UInt8
  /-- The edges that were not reported yet. -/
  ready : Source → Bool
  /-- The reported events that the main loop has not handled yet. -/
  events : List Source
  /-- The descriptor that the reader of a shard has claimed. -/
  reading : ℕ → Option ℕ

inductive LoopAct
  /-- A client connects. -/
  | connect
  /-- A frame arrives at an open connection. -/
  | frame (fd : ℕ) (f : ClientFrame)
  /-- `epoll_wait` returns. -/
  | wait (evs : List Source)
  /-- The main loop handles an event of the listening socket. The client has sent some frames
  already. -/
  | accept (fd : ℕ) (now : BitVec 32) (sent : List ClientFrame)
  /-- The main loop handles an event of a client. -/
  | poll (fd : ℕ)
  /-- `clean_time_out_connect`, behind the last event. -/
  | timeout (now : BitVec 32) (fuel : ℕ)
  /-- The reader of a shard claims a connection. -/
  | claim (idx : ℕ)
  /-- The reader of a shard calls `RcvTxnMsg`. -/
  | read (idx : ℕ)
  /-- The section of `write_task`. -/
  | write (junk : ℤ) (fd connSsn : BitVec 32)

/-- The table after a step. The kernel forgets about the connections that were closed. -/
def LoopState.withTable (s : LoopState) (t : TableState) : LoopState :=
  { s with
    table := t
    received := fun fd ↦ if fd ∈ t.opened then s.received fd else []
    ready := fun
      | .listen => s.ready .listen
      | .client fd => s.ready (.client fd) && decide (fd ∈ t.opened) }

/-- The descriptor a reader claims. -/
def claimedFd (m : WordMem) (idx : ℕ) : Option ℕ :=
  match readClaim m idx with
  | .claimed _ _ tClient => some tClient.key
  | _ => none

/-- One step. `accept` waits for a connection, so it is no step while there is none. -/
def loopStep (num : ℕ) (idletime : BitVec 32) (s : LoopState) : LoopAct → Option LoopState
  | .connect => some { s with
      backlog := s.backlog + 1
      ready := Function.update s.ready .listen true }
  | .frame fd f =>
    if fd ∈ s.table.opened then some { s with
      received := Function.update s.received fd (s.received fd ++ f.bytes)
      ready := Function.update s.ready (.client fd) true }
    else none
  | .wait evs =>
    if s.events = [] ∧ evs.Nodup ∧ evs.length ≤ 200 ∧ ∀ e ∈ evs, s.ready e = true then some { s with
      events := evs
      ready := fun e ↦ s.ready e && decide (e ∉ evs) }
    else none
  | .accept fd now sent =>
    if s.events.head? = some .listen ∧ 0 < s.backlog then
      (sectionStep num idletime s.table (.accept fd now)).map <| LoopState.withTable { s with
        backlog := s.backlog - 1
        received := Function.update s.received fd (framesBytes sent)
        -- a new entry of the interest list is reported if there is something to read
        ready := Function.update s.ready (.client fd) (!sent.isEmpty)
        events := s.events.tail }
    else none
  | .poll fd =>
    if s.events.head? = some (.client fd) then
      (sectionStep num idletime s.table (.poll fd)).map <|
        LoopState.withTable { s with events := s.events.tail }
    else none
  | .timeout now fuel =>
    if s.events = [] then
      (sectionStep num idletime s.table (.timeout now fuel)).map s.withTable
    else none
  | .claim idx =>
    if s.reading idx = none then
      (sectionStep num idletime s.table (.claim idx)).map <| LoopState.withTable { s with
        reading := Function.update s.reading idx (claimedFd s.table.mem idx) }
    else none
  | .read idx =>
    (s.reading idx).bind fun fd ↦
      let r := rcvTxnMsg ⟨s.received fd, []⟩ socketMsgHeadLen
      if r.ret = 0 then some { s with
        received := Function.update s.received fd r.sock.stream
        reading := Function.update s.reading idx none }
      else
        (sectionStep num idletime s.table (.del fd)).map <| LoopState.withTable { s with
          reading := Function.update s.reading idx none }
  | .write junk fd connSsn =>
    (sectionStep num idletime s.table (.write junk fd connSsn)).map s.withTable

/-- The state at the start of the loop. -/
def loopInit (num : ℕ) : LoopState where
  table := ⟨commInit num, 0, []⟩
  backlog := 0
  received := fun _ ↦ []
  ready := fun _ ↦ false
  events := []
  reading := fun _ ↦ none

/-- The system. -/
def loopSystem (num : ℕ) (idletime : BitVec 32) : Guarded LoopState LoopAct :=
  .ofFn (· = loopInit num) (loopStep num idletime)

/-! ### What is claimed -/

/-- All reported events were handled, the readers wait, and `epoll_wait` has nothing to report. -/
structure Quiet (num : ℕ) (s : LoopState) : Prop where
  events : s.events = []
  ready : ∀ e, s.ready e = false
  reading : ∀ i < num, s.reading i = none
  waiting : ∀ i < num, getCommClientNum s.table.mem i = 0

/-- No connection waits to be accepted, and no open connection has a complete frame to read. -/
structure Drained (s : LoopState) : Prop where
  backlog : s.backlog = 0
  received : ∀ fd ∈ s.table.opened, ∀ f : ClientFrame, ¬ f.bytes <+: s.received fd

/-! ### The condition on a step -/

/-- Arrivals are not merged: nothing arrives at a source whose last arrival was not reported, a client
has sent at most one frame when it is accepted, and the previous event of a connection was claimed when
the next one is handled. And the sections keep recorded events, as in `events_not_lost`. -/
def loopGuard (num : ℕ) (idletime : BitVec 32) (s : LoopState) : LoopAct → Prop
  | .connect => s.ready .listen = false
  | .frame fd _ => s.ready (.client fd) = false
  | .wait _ => True
  | .accept _ _ sent => sent.length ≤ 1
  | .poll fd => sectionGuard num idletime s.table (.poll fd) ∧ ¬ Waiting s.table.mem num fd
  | .timeout now fuel => sectionGuard num idletime s.table (.timeout now fuel)
  | .claim _ => True
  | .read idx => ∀ fd, s.reading idx = some fd → s.received fd = [] →
      sectionGuard num idletime s.table (.del fd)
  | .write junk fd connSsn => sectionGuard num idletime s.table (.write junk fd connSsn)

/-! ### Frames -/

theorem framesBytes_cons (f : ClientFrame) (fs : List ClientFrame) :
    framesBytes (f :: fs) = f.bytes ++ framesBytes fs := by
  simp [framesBytes]

theorem framesBytes_concat (fs : List ClientFrame) (f : ClientFrame) :
    framesBytes (fs ++ [f]) = framesBytes fs ++ f.bytes := by
  simp [framesBytes]

theorem ClientFrame.length_pos (f : ClientFrame) : 0 < f.bytes.length := by
  rw [f.wellFormed.length_eq, socketMsgHeadLen]
  omega

/-- `RcvTxnMsg` takes the first frame off what was received. -/
theorem rcvTxnMsg_frame (f : ClientFrame) (rest : List UInt8) :
    (rcvTxnMsg ⟨f.bytes ++ rest, []⟩ socketMsgHeadLen).ret = 0 ∧
      (rcvTxnMsg ⟨f.bytes ++ rest, []⟩ socketMsgHeadLen).sock.stream = rest := by
  have hlen := f.wellFormed.length_eq
  have hstream : (⟨f.bytes ++ rest, []⟩ : Sock UInt8).stream = f.bytes ++ rest := by
    simp [Sock.stream]
  have hat : Decimal.atoi ((⟨f.bytes ++ rest, []⟩ : Sock UInt8).stream.take socketMsgHeadLen) =
      f.body := by
    rw [hstream, List.take_append_of_le_length (by omega), f.wellFormed.prefix_eq]
  have hall : socketMsgHeadLen + f.body ≤ (⟨f.bytes ++ rest, []⟩ : Sock UInt8).buf.length := by
    show _ ≤ (f.bytes ++ rest).length
    rw [List.length_append]
    omega
  have hret : (rcvTxnMsg ⟨f.bytes ++ rest, []⟩ socketMsgHeadLen).ret = 0 := by
    rcases rcvTxnMsg_ret_cases _ (by decide) f.wellFormed.pos hat with ⟨-, h0⟩ | ⟨hlate, -⟩
    · exact h0
    · exact absurd (.of_buffered hall) hlate
  obtain ⟨n, -, hat', -, -, hrest⟩ := rcvTxnMsg_zero (by decide) hret
  obtain rfl : n = f.body := by
    rw [hat] at hat'
    exact_mod_cast hat'.symm
  refine ⟨hret, ?_⟩
  rw [hrest, hstream, ← hlen, List.drop_left]

/-! ### The invariant -/

/-- 1 if a condition holds. -/
def one (p : Prop) [Decidable p] : ℕ := if p then 1 else 0

theorem one_of {p : Prop} [Decidable p] (h : p) : one p = 1 := if_pos h

theorem one_mono {p q : Prop} [Decidable p] [Decidable q] (h : p → q) : one p ≤ one q := by
  by_cases hp : p
  · rw [one_of hp, one_of (h hp)]
  · rw [one, if_neg hp]
    exact Nat.zero_le _

instance (m : WordMem) (num fd : ℕ) : Decidable (Waiting m num fd) :=
  inferInstanceAs (Decidable (∃ j < maxFdNum, getCommClientFD m (fd % num) j = BitVec.ofNat 32 fd ∧
    getCommClientStat m (fd % num) j = fdStatPoll))

/-- How often a connection will still be read: for its edge, for its reported events, for its
recorded event, and for the claim of its reader. -/
def LoopState.announced (s : LoopState) (num fd : ℕ) : ℕ :=
  (s.ready (.client fd)).toNat + s.events.count (.client fd) + one (Waiting s.table.mem num fd) +
    one (s.reading (fd % num) = some fd)

/-- The unread frames of a connection are announced. -/
def FramesAnnounced (num : ℕ) (s : LoopState) (fd : ℕ) : Prop :=
  ∃ fs, s.received fd = framesBytes fs ∧ fs.length ≤ s.announced num fd

/-- Each waiting connection and each unread frame is announced by something of its own. -/
structure LoopInv (num : ℕ) (s : LoopState) : Prop where
  table : ∃ T, EventInv num s.table T
  backlog : s.backlog ≤ (s.ready .listen).toNat + s.events.count .listen
  closed : ∀ fd ∉ s.table.opened, s.received fd = []
  home : ∀ i fd, s.reading i = some fd → fd % num = i
  frames : ∀ fd ∈ s.table.opened, FramesAnnounced num s fd

theorem loopInv_init (num : ℕ) : LoopInv num (loopInit num) where
  table := ⟨_, eventInv_init num⟩
  backlog := Nat.zero_le _
  closed _ _ := rfl
  home i fd h := by cases h
  frames fd hfd := absurd hfd List.not_mem_nil

namespace LoopInv

variable {num : ℕ} {idletime : BitVec 32} {s s' : LoopState}

/-- **An idle server has nothing left to do.** -/
theorem drained (h : LoopInv num s) (hnum : 0 < num) (hq : Quiet num s) : Drained s where
  backlog := by
    have hle := h.backlog
    rw [hq.ready, hq.events] at hle
    exact Nat.le_zero.1 hle
  received fd hfd f hpre := by
    obtain ⟨T, hT⟩ := h.table
    obtain ⟨fs, hfs, hle⟩ := h.frames fd hfd
    -- with the counter at 0 no event of the shard is recorded
    have hwait : ¬ Waiting s.table.mem num fd := by
      rintro ⟨j, hj, hslot, hstat⟩
      have hi := Nat.mod_lt fd hnum
      have hne : getCommClientFD s.table.mem (fd % num) j ≠ -1 := fun h0 ↦ by
        have hpos := toInt_ofNat_nonneg (hT.small fd hfd)
        rw [← hslot, h0] at hpos
        exact absurd hpos (by decide)
      have hpos := hT.counterOk _ hi ⟨j, hj, hne, hstat⟩
      rw [hq.waiting _ hi] at hpos
      exact absurd hpos (by decide)
    have hzero : s.announced num fd = 0 := by
      rw [LoopState.announced, hq.ready, hq.events, one, if_neg hwait, one,
        hq.reading _ (Nat.mod_lt fd hnum), if_neg (by simp)]
      rfl
    obtain rfl : fs = [] := List.length_eq_zero_iff.1 (by omega)
    rw [hfs] at hpre
    have hlen := hpre.length_le
    have hpos := f.length_pos
    rw [show (framesBytes []).length = 0 from rfl] at hlen
    omega

/-! ### Steps -/

theorem framesAnnounced_mono {fd : ℕ} (h : FramesAnnounced num s fd)
    (hrec : s'.received fd = s.received fd) (hle : s.announced num fd ≤ s'.announced num fd) :
    FramesAnnounced num s' fd := by
  obtain ⟨fs, hfs, hlen⟩ := h
  exact ⟨fs, hrec.trans hfs, hlen.trans hle⟩

/-- The sections open no connection but the accepted one. -/
theorem opened_of_sectionStep {t t' : TableState} {a : SectionAct}
    (hs : sectionStep num idletime t a = some t') {k : ℕ} (hk : k ∈ t'.opened) :
    k ∈ t.opened ∨ ∃ now, a = .accept k now := by
  cases a with
  | accept fd now =>
    rw [sectionStep, tableStep] at hs
    split at hs
    · split at hs
      · obtain rfl := Option.some.inj hs
        rcases List.mem_cons.1 hk with rfl | hk
        · exact .inr ⟨now, rfl⟩
        · exact .inl hk
      · exact .inl (Option.some.inj hs ▸ hk)
    · cases hs
  | timeout now fuel =>
    obtain ⟨r, -, rfl⟩ := Option.map_eq_some_iff.1 hs
    exact .inl (List.mem_of_mem_filter hk)
  | del fd =>
    rw [sectionStep, tableStep] at hs
    split at hs
    · obtain rfl := Option.some.inj hs
      exact .inl (List.mem_of_mem_filter hk)
    · cases hs
  | poll fd =>
    rw [sectionStep] at hs
    split at hs
    · obtain rfl := Option.some.inj hs
      cases hpos : getConnectPos t.mem (fd % num) (BitVec.ofNat 32 fd) with
      | none =>
        rw [hpos] at hk
        exact .inl (List.mem_of_mem_filter hk)
      | some j =>
        rw [hpos] at hk
        exact .inl hk
    · cases hs
  | claim idx =>
    rw [sectionStep] at hs
    split at hs
    · split at hs
      · cases hs
      · obtain rfl := Option.some.inj hs
        exact .inl hk
      · obtain rfl := Option.some.inj hs
        exact .inl hk
    · cases hs
  | write junk fd connSsn =>
    rw [sectionStep] at hs
    split at hs
    · obtain rfl := Option.some.inj hs
      cases hmark : writeMark t.mem num junk fd connSsn with
      | none =>
        rw [hmark] at hk
        exact .inl hk
      | some mem =>
        rw [hmark] at hk
        exact .inl hk
    · cases hs

/-- The table after a section that keeps to its condition. -/
theorem section_table (h : LoopInv num s) (hnum : 0 < num) (hmax : num ≤ maxTreadNum)
    {a : SectionAct} (hguard : sectionGuard num idletime s.table a) {t : TableState}
    (hs : sectionStep num idletime s.table a = some t) :
    (∃ T, EventInv num t T) ∧ ∀ fd ∈ t.opened, Waiting s.table.mem num fd →
      Waiting t.mem num fd ∨ Claims s.table a fd := by
  obtain ⟨T, hT⟩ := h.table
  obtain ⟨T', hT', hkept⟩ := hT.step hnum hmax hguard hs
  refine ⟨⟨T', hT'⟩, fun fd hfd hwait ↦ ?_⟩
  rcases hkept fd (hT'.small fd hfd) hwait with hw | hclaim | hclosed
  · exact .inl hw
  · exact .inr hclaim
  · exact absurd hfd hclosed

/-- The kernel's part of the invariant, over a table that has its own. -/
theorem withTable {t : TableState} (hT : ∃ T, EventInv num t T)
    (hback : s.backlog ≤ (s.ready .listen).toNat + s.events.count .listen)
    (hhome : ∀ i fd, s.reading i = some fd → fd % num = i)
    (hframes : ∀ fd ∈ t.opened, FramesAnnounced num { s with table := t } fd) :
    LoopInv num (s.withTable t) where
  table := hT
  backlog := hback
  closed fd hfd := if_neg hfd
  home := hhome
  frames fd hfd := by
    have hmem : fd ∈ t.opened := hfd
    refine framesAnnounced_mono (hframes fd hmem) (if_pos hmem) (Nat.le_of_eq ?_)
    have hready : (s.withTable t).ready (.client fd) = s.ready (.client fd) := by
      show (s.ready (.client fd) && decide (fd ∈ t.opened)) = _
      rw [decide_eq_true hmem, Bool.and_true]
    rw [LoopState.announced, LoopState.announced, hready]
    rfl

/-- A section that claims nothing leaves every frame announced. -/
theorem section_frames (h : LoopInv num s) (hnum : 0 < num) (hmax : num ≤ maxTreadNum)
    {a : SectionAct} (hguard : sectionGuard num idletime s.table a) {t : TableState}
    (hs : sectionStep num idletime s.table a = some t) (hclaim : ∀ idx, a ≠ .claim idx) {fd : ℕ}
    (hopen : fd ∈ s.table.opened) (hfd : fd ∈ t.opened) :
    FramesAnnounced num { s with table := t } fd := by
  refine framesAnnounced_mono (h.frames fd hopen) rfl ?_
  have hone : one (Waiting s.table.mem num fd) ≤ one (Waiting t.mem num fd) := one_mono fun hw ↦ by
    rcases (h.section_table hnum hmax hguard hs).2 fd hfd hw with hw' | ⟨idx, _, _, _, ha, -⟩
    · exact hw'
    · exact absurd ha (hclaim idx)
  exact Nat.add_le_add_right (Nat.add_le_add_left hone _) _

theorem connect (h : LoopInv num s) (hguard : loopGuard num idletime s .connect)
    (hs : loopStep num idletime s .connect = some s') : LoopInv num s' := by
  obtain rfl := Option.some.inj hs
  have hback := h.backlog
  refine ⟨h.table, ?_, h.closed, h.home, fun fd hfd ↦ framesAnnounced_mono (h.frames fd hfd) rfl ?_⟩
  · show s.backlog + 1 ≤
      (Function.update s.ready .listen true .listen).toNat + s.events.count .listen
    rw [show s.ready .listen = false from hguard] at hback
    rw [Function.update_self, Bool.toNat_true]
    rw [Bool.toNat_false] at hback
    omega
  · show _ ≤ (Function.update s.ready .listen true (.client fd)).toNat + _ + _ + _
    rw [Function.update_of_ne (by simp)]
    exact Nat.le_refl _

theorem frame (h : LoopInv num s) {fd : ℕ} {f : ClientFrame}
    (hguard : loopGuard num idletime s (.frame fd f))
    (hs : loopStep num idletime s (.frame fd f) = some s') : LoopInv num s' := by
  rw [loopStep] at hs
  split at hs
  · next hopen =>
    obtain rfl := Option.some.inj hs
    have hready : s.ready (.client fd) = false := hguard
    refine ⟨h.table, ?_, fun k hk ↦ ?_, h.home, fun k hk ↦ ?_⟩
    · show _ ≤ (Function.update s.ready (.client fd) true .listen).toNat + _
      rw [Function.update_of_ne (by simp)]
      exact h.backlog
    · have hne : k ≠ fd := fun h0 ↦ hk (h0 ▸ hopen)
      show Function.update s.received fd _ k = []
      rw [Function.update_of_ne hne]
      exact h.closed k hk
    · rcases eq_or_ne k fd with rfl | hne
      · -- one more frame, and one more edge
        obtain ⟨fs, hfs, hle⟩ := h.frames k hk
        refine ⟨fs ++ [f], ?_, ?_⟩
        · show Function.update s.received k _ k = _
          rw [Function.update_self, framesBytes_concat, hfs]
        · show (fs ++ [f]).length ≤ (Function.update s.ready (.client k) true (.client k)).toNat +
            s.events.count (.client k) + one (Waiting s.table.mem num k) +
            one (s.reading (k % num) = some k)
          rw [LoopState.announced, hready, Bool.toNat_false] at hle
          rw [Function.update_self, Bool.toNat_true, List.length_append, List.length_singleton]
          omega
      · refine framesAnnounced_mono (h.frames k hk) (Function.update_of_ne hne _ _) ?_
        show _ ≤ (Function.update s.ready (.client fd) true (.client k)).toNat + _ + _ + _
        rw [Function.update_of_ne (by simpa using hne)]
        exact Nat.le_refl _
  · cases hs

/-- What is reported is neither lost nor reported twice. -/
theorem report {evs : List Source} (hnodup : evs.Nodup) (hready : ∀ e ∈ evs, s.ready e = true)
    (e : Source) : (s.ready e).toNat = (s.ready e && decide (e ∉ evs)).toNat + evs.count e := by
  by_cases he : e ∈ evs
  · rw [hready e he, hnodup.count, if_pos he, decide_eq_false (not_not.2 he)]
    rfl
  · rw [List.count_eq_zero_of_not_mem he, decide_eq_true he, Bool.and_true]
    rfl

theorem wait (h : LoopInv num s) {evs : List Source}
    (hs : loopStep num idletime s (.wait evs) = some s') : LoopInv num s' := by
  rw [loopStep] at hs
  split at hs
  · next hwait =>
    obtain ⟨hevents, hnodup, -, hready⟩ := hwait
    obtain rfl := Option.some.inj hs
    refine ⟨h.table, ?_, h.closed, h.home, fun fd hfd ↦ framesAnnounced_mono (h.frames fd hfd) rfl ?_⟩
    · have hback := h.backlog
      rw [report hnodup hready, hevents, List.count_nil] at hback
      exact hback
    · rw [LoopState.announced, report hnodup hready, hevents, List.count_nil]
      exact Nat.le_refl _
  · cases hs

/-- Another event than `e` is handled. -/
theorem count_tail_of_head {l : List Source} {e x : Source} (hl : l.head? = some e) (hne : x ≠ e) :
    l.tail.count x = l.count x := by
  cases l with
  | nil => rfl
  | cons y l =>
    obtain rfl := Option.some.inj hl
    rw [List.tail_cons, List.count_cons_of_ne hne.symm]

/-- An event is handled. -/
theorem count_tail_self {l : List Source} {e : Source} (hl : l.head? = some e) :
    l.count e = l.tail.count e + 1 := by
  cases l with
  | nil => cases hl
  | cons y l =>
    obtain rfl := Option.some.inj hl
    rw [List.tail_cons, List.count_cons_self]

/-- Handling an event of another source and a table section leave the frames of a connection
announced, as long as its edge, its buffer and its claim stay. -/
theorem section_frames_of_eq (h : LoopInv num s) (hnum : 0 < num) (hmax : num ≤ maxTreadNum)
    {a : SectionAct} (hguard : sectionGuard num idletime s.table a) {t : TableState}
    (hs : sectionStep num idletime s.table a = some t) (hclaim : ∀ idx, a ≠ .claim idx) {fd : ℕ}
    (hopen : fd ∈ s.table.opened) (hfd : fd ∈ t.opened) (htable : s'.table = t)
    (hrec : s'.received fd = s.received fd) (hready : s'.ready (.client fd) = s.ready (.client fd))
    (hevents : s'.events.count (.client fd) = s.events.count (.client fd))
    (hreading : s.reading (fd % num) = some fd → s'.reading (fd % num) = some fd) :
    FramesAnnounced num s' fd := by
  refine framesAnnounced_mono (h.section_frames hnum hmax hguard hs hclaim hopen hfd) hrec ?_
  have hone : one (s.reading (fd % num) = some fd) ≤ one (s'.reading (fd % num) = some fd) :=
    one_mono hreading
  subst htable
  rw [LoopState.announced, LoopState.announced, hready, hevents]
  exact Nat.add_le_add_left hone _

theorem accept (h : LoopInv num s) (hnum : 0 < num) (hmax : num ≤ maxTreadNum) {fd : ℕ}
    {now : BitVec 32} {sent : List ClientFrame}
    (hguard : loopGuard num idletime s (.accept fd now sent))
    (hs : loopStep num idletime s (.accept fd now sent) = some s') : LoopInv num s' := by
  rw [loopStep] at hs
  split at hs
  · next hhead =>
    obtain ⟨t, ht, rfl⟩ := Option.map_eq_some_iff.1 hs
    obtain ⟨hhead, -⟩ := hhead
    have hfree : sectionGuard num idletime s.table (.accept fd now) := trivial
    refine withTable (h.section_table hnum hmax hfree ht).1 ?_ h.home fun k hk ↦ ?_
    · have hback := h.backlog
      have hcount := count_tail_self hhead
      show s.backlog - 1 ≤ (Function.update s.ready (.client fd) (!sent.isEmpty) .listen).toNat +
        s.events.tail.count .listen
      rw [Function.update_of_ne (by simp)]
      omega
    · rcases eq_or_ne k fd with rfl | hne
      · have hsent : sent.length ≤ (!sent.isEmpty).toNat := by
          have hle : sent.length ≤ 1 := hguard
          cases sent with
          | nil => exact Nat.zero_le _
          | cons f fs => exact hle
        refine ⟨sent, Function.update_self k _ _, ?_⟩
        show sent.length ≤ (Function.update s.ready (.client k) (!sent.isEmpty) (.client k)).toNat +
          s.events.tail.count (.client k) + one (Waiting t.mem num k) +
          one (s.reading (k % num) = some k)
        rw [Function.update_self]
        omega
      · have hopen : k ∈ s.table.opened := by
          rcases opened_of_sectionStep ht hk with hopen | ⟨now', ha⟩
          · exact hopen
          · cases ha
            exact absurd rfl hne
        exact h.section_frames_of_eq hnum hmax hfree ht (by simp) hopen hk rfl
          (Function.update_of_ne hne _ _) (Function.update_of_ne (by simpa using hne) _ _)
          (count_tail_of_head hhead (by simp)) id
  · cases hs

/-- A handled event is recorded. -/
theorem waiting_of_poll (h : LoopInv num s) (hnum : 0 < num) {fd : ℕ} {t : TableState}
    (hs : sectionStep num idletime s.table (.poll fd) = some t) (hmem : fd ∈ t.opened) :
    Waiting t.mem num fd := by
  obtain ⟨T, hT⟩ := h.table
  rw [sectionStep] at hs
  split at hs
  · next hfd =>
    obtain rfl := Option.some.inj hs
    cases hpos : getConnectPos s.table.mem (fd % num) (BitVec.ofNat 32 fd) with
    | none =>
      rw [hpos] at hmem
      exact absurd (List.mem_of_mem_filter hmem) (hT.notMem_of_getConnectPos hnum hfd hpos)
    | some j =>
      obtain ⟨hj, hkey⟩ := hT.of_getConnectPos hnum hfd hpos
      obtain ⟨hT', -⟩ := hT.pollEvent_some hnum hpos hj
      show Waiting (pollEvent s.table.mem num fd) num fd
      have hopen : TableHolds (pollEvent s.table.mem num fd) num
          {k | k ∈ (⟨pollEvent s.table.mem num fd, 0, s.table.opened⟩ : TableState).opened} _ := hT'
      refine (EventInv.waiting_iff (s := ⟨pollEvent s.table.mem num fd, 0, s.table.opened⟩)
        hopen hnum hfd).2 ⟨{ (T (fd % num))[j] with status := fdStatPoll }, ?_, hkey,
          ConnectHandle.waiting_iff.2 rfl⟩
      rw [Function.update_self]
      exact List.mem_set hj _
  · cases hs

theorem poll (h : LoopInv num s) (hnum : 0 < num) (hmax : num ≤ maxTreadNum) {fd : ℕ}
    (hguard : loopGuard num idletime s (.poll fd))
    (hs : loopStep num idletime s (.poll fd) = some s') : LoopInv num s' := by
  rw [loopStep] at hs
  split at hs
  · next hhead =>
    obtain ⟨t, ht, rfl⟩ := Option.map_eq_some_iff.1 hs
    refine withTable (h.section_table hnum hmax hguard.1 ht).1 ?_ h.home fun k hk ↦ ?_
    · show _ ≤ _ + s.events.tail.count .listen
      rw [count_tail_of_head hhead (by simp)]
      exact h.backlog
    · have hopen : k ∈ s.table.opened := (opened_of_sectionStep ht hk).resolve_right (by simp)
      rcases eq_or_ne k fd with rfl | hne
      · -- the reported event becomes a recorded one
        obtain ⟨fs, hfs, hle⟩ := h.frames k hopen
        refine ⟨fs, hfs, ?_⟩
        have hcount := count_tail_self hhead
        have hwait := one_of (h.waiting_of_poll hnum ht hk)
        have hnot : one (Waiting s.table.mem num k) = 0 := if_neg hguard.2
        show fs.length ≤ (s.ready (.client k)).toNat + s.events.tail.count (.client k) +
          one (Waiting t.mem num k) + one (s.reading (k % num) = some k)
        rw [LoopState.announced] at hle
        omega
      · exact h.section_frames_of_eq hnum hmax hguard.1 ht (by simp) hopen hk rfl rfl rfl
          (count_tail_of_head hhead (by simpa using hne)) id
  · cases hs

/-- A table section alone. -/
theorem section_step (h : LoopInv num s) (hnum : 0 < num) (hmax : num ≤ maxTreadNum)
    {a : SectionAct} (hguard : sectionGuard num idletime s.table a)
    (hs : (sectionStep num idletime s.table a).map s.withTable = some s')
    (hclaim : ∀ idx, a ≠ .claim idx) (haccept : ∀ fd now, a ≠ .accept fd now) : LoopInv num s' := by
  obtain ⟨t, ht, rfl⟩ := Option.map_eq_some_iff.1 hs
  refine withTable (h.section_table hnum hmax hguard ht).1 h.backlog h.home fun k hk ↦ ?_
  have hopen : k ∈ s.table.opened := (opened_of_sectionStep ht hk).resolve_right fun ⟨now, ha⟩ ↦
    haccept k now ha
  exact h.section_frames hnum hmax hguard ht hclaim hopen hk

/-- The claimed descriptor belongs to the shard of the reader. -/
theorem claimedFd_home (h : LoopInv num s) {idx fd : ℕ} (hidx : idx < num)
    (hclaim : claimedFd s.table.mem idx = some fd) : fd % num = idx := by
  obtain ⟨T, hT⟩ := h.table
  rw [claimedFd] at hclaim
  split at hclaim
  · next mem j tClient hread =>
    obtain ⟨hj, -, rfl, -⟩ := hT.of_readClaim_claimed hidx hread
    obtain rfl := Option.some.inj hclaim
    show (T idx)[j].key % num = idx
    exact hT.holds.home idx _ (List.getElem_mem hj)
  · cases hclaim

/-- A recorded event that is claimed is counted as the claim; the claims of other readers stay. -/
theorem claimed_counts (h : LoopInv num s) {idx k : ℕ} {mem : WordMem} (hidx : idx < num)
    (hnone : s.reading idx = none)
    (hkept : Waiting s.table.mem num k →
      Waiting mem num k ∨ claimedFd s.table.mem idx = some k) :
    one (Waiting s.table.mem num k) + one (s.reading (k % num) = some k) ≤ one (Waiting mem num k) +
      one (Function.update s.reading idx (claimedFd s.table.mem idx) (k % num) = some k) := by
  have hreading : s.reading (k % num) = some k →
      Function.update s.reading idx (claimedFd s.table.mem idx) (k % num) = some k := by
    intro hread
    rcases eq_or_ne (k % num) idx with heq | hne
    · rw [heq, hnone] at hread
      cases hread
    · rwa [Function.update_of_ne hne]
  by_cases hwait : Waiting s.table.mem num k
  · rcases hkept hwait with hwait' | hclaim
    · rw [one_of hwait, one_of hwait']
      exact Nat.add_le_add_left (one_mono hreading) _
    · have hhome := h.claimedFd_home hidx hclaim
      have hself : Function.update s.reading idx (claimedFd s.table.mem idx) (k % num) = some k := by
        rw [hhome, Function.update_self, hclaim]
      have hbefore : one (s.reading (k % num) = some k) = 0 := if_neg (by rw [hhome, hnone]; simp)
      rw [one_of hwait, hbefore, one_of hself]
      exact Nat.le_add_left _ _
  · rw [one, if_neg hwait, Nat.zero_add]
    exact (one_mono hreading).trans (Nat.le_add_left _ _)

theorem claim (h : LoopInv num s) (hnum : 0 < num) (hmax : num ≤ maxTreadNum) {idx : ℕ}
    (hs : loopStep num idletime s (.claim idx) = some s') : LoopInv num s' := by
  rw [loopStep] at hs
  split at hs
  · next hnone =>
    obtain ⟨t, ht, rfl⟩ := Option.map_eq_some_iff.1 hs
    have hidx : idx < num := by
      rw [sectionStep] at ht
      split at ht
      · assumption
      · cases ht
    have hfree : sectionGuard num idletime s.table (.claim idx) := trivial
    obtain ⟨hT, hkept⟩ := h.section_table hnum hmax hfree ht
    refine withTable hT h.backlog (fun i fd hi ↦ ?_) fun k hk ↦ ?_
    · have hread : Function.update s.reading idx (claimedFd s.table.mem idx) i = some fd := hi
      rcases eq_or_ne i idx with rfl | hne
      · rw [Function.update_self] at hread
        exact h.claimedFd_home hidx hread
      · rw [Function.update_of_ne hne] at hread
        exact h.home i fd hread
    · have hopen : k ∈ s.table.opened := (opened_of_sectionStep ht hk).resolve_right (by simp)
      refine framesAnnounced_mono (h.frames k hopen) rfl ?_
      have hsum := h.claimed_counts hidx hnone fun hwait ↦ by
        rcases hkept k hk hwait with hwait' | ⟨idx', mem, j, tClient, ha, hread, hfd⟩
        · exact .inl hwait'
        · obtain rfl := SectionAct.claim.inj ha
          obtain ⟨T', hT'⟩ := hT
          refine .inr ?_
          rw [claimedFd, hread]
          exact congrArg some ((ConnectHandle.key_eq_iff _ (hT'.small k hk)).2 hfd)
      rw [LoopState.announced, LoopState.announced, Nat.add_assoc _ (one _) (one _),
        Nat.add_assoc _ (one _) (one _)]
      exact Nat.add_le_add_left hsum _
  · cases hs

/-- `RcvTxnMsg` takes a frame if there is one, and fails on an empty buffer otherwise. -/
theorem read_cases (h : LoopInv num s) (fd : ℕ) :
    (s.received fd = [] ∧ (rcvTxnMsg ⟨s.received fd, []⟩ socketMsgHeadLen).ret ≠ 0) ∨
    (fd ∈ s.table.opened ∧ (rcvTxnMsg ⟨s.received fd, []⟩ socketMsgHeadLen).ret = 0 ∧
      ∃ fs, fs.length + 1 ≤ s.announced num fd ∧
        (rcvTxnMsg ⟨s.received fd, []⟩ socketMsgHeadLen).sock.stream = framesBytes fs) := by
  have hnil : s.received fd = [] → s.received fd = [] ∧
      (rcvTxnMsg ⟨s.received fd, []⟩ socketMsgHeadLen).ret ≠ 0 := fun h0 ↦
    ⟨h0, (rcvTxnMsg_nil (by rw [h0]; rfl)).1⟩
  by_cases hopen : fd ∈ s.table.opened
  · obtain ⟨_ | ⟨f, fs⟩, hfs, hle⟩ := h.frames fd hopen
    · exact .inl (hnil hfs)
    · obtain ⟨hret, hrest⟩ := rcvTxnMsg_frame f (framesBytes fs)
      rw [framesBytes_cons] at hfs
      rw [hfs]
      exact .inr ⟨hopen, hret, fs, hle, hrest⟩
  · exact .inl (hnil (h.closed fd hopen))

/-- A reader is done with its connection. -/
theorem home_update (h : LoopInv num s) (idx : ℕ) (i fd : ℕ)
    (hi : Function.update s.reading idx none i = some fd) : fd % num = i := by
  rcases eq_or_ne i idx with rfl | hne
  · rw [Function.update_self] at hi
    cases hi
  · rw [Function.update_of_ne hne] at hi
    exact h.home i fd hi

/-- The claims of the other connections stay. -/
theorem reading_update {idx fd k : ℕ} (hread : s.reading idx = some fd) (hne : k ≠ fd)
    (hk : s.reading (k % num) = some k) :
    Function.update s.reading idx none (k % num) = some k := by
  have hidx : k % num ≠ idx := fun h0 ↦ by
    rw [h0, hread] at hk
    exact hne (Option.some.inj hk).symm
  rwa [Function.update_of_ne hidx]

theorem read (h : LoopInv num s) (hnum : 0 < num) (hmax : num ≤ maxTreadNum) {idx : ℕ}
    (hguard : loopGuard num idletime s (.read idx))
    (hs : loopStep num idletime s (.read idx) = some s') : LoopInv num s' := by
  obtain ⟨fd, hread, hs⟩ := Option.bind_eq_some_iff.1 hs
  rcases h.read_cases fd with ⟨hnil, hret⟩ | ⟨hopen, hret, fs, hle, hrest⟩
  · -- there was nothing to read, and the connection is closed
    obtain ⟨t, ht, rfl⟩ := Option.map_eq_some_iff.1 ((if_neg hret).symm.trans hs)
    have hdel := hguard fd hread hnil
    refine withTable (h.section_table hnum hmax hdel ht).1 h.backlog (h.home_update idx)
      fun k hk ↦ ?_
    have hopen : k ∈ s.table.opened := (opened_of_sectionStep ht hk).resolve_right (by simp)
    have hne : k ≠ fd := by
      rw [sectionStep, tableStep] at ht
      split at ht
      · obtain rfl := Option.some.inj ht
        simpa using (List.mem_filter.1 hk).2
      · cases ht
    exact h.section_frames_of_eq hnum hmax hdel ht (by simp) hopen hk rfl rfl rfl rfl
      (reading_update hread hne)
  · obtain rfl := Option.some.inj ((if_pos hret).symm.trans hs)
    refine ⟨h.table, h.backlog, fun k hk ↦ ?_, h.home_update idx, fun k hk ↦ ?_⟩
    · have hne : k ≠ fd := fun h0 ↦ hk (h0 ▸ hopen)
      exact (Function.update_of_ne hne _ _).trans (h.closed k hk)
    · rcases eq_or_ne k fd with rfl | hne
      · -- one frame and the claim of the reader are gone
        have hhome := h.home idx k hread
        refine ⟨fs, (Function.update_self k _ _).trans hrest, ?_⟩
        have hafter : one (Function.update s.reading idx none (k % num) = some k) = 0 :=
          if_neg (by rw [hhome, Function.update_self]; simp)
        rw [LoopState.announced, one_of (hhome ▸ hread : s.reading (k % num) = some k)] at hle
        show fs.length ≤ (s.ready (.client k)).toNat + s.events.count (.client k) +
          one (Waiting s.table.mem num k) +
          one (Function.update s.reading idx none (k % num) = some k)
        rw [hafter]
        omega
      · refine framesAnnounced_mono (h.frames k hk) (Function.update_of_ne hne _ _) ?_
        exact Nat.add_le_add_left (one_mono (reading_update hread hne)) _

/-- **The step lemma.** -/
theorem step (h : LoopInv num s) (hnum : 0 < num) (hmax : num ≤ maxTreadNum) {a : LoopAct}
    (hguard : loopGuard num idletime s a) (hs : loopStep num idletime s a = some s') :
    LoopInv num s' := by
  cases a with
  | connect => exact h.connect hguard hs
  | frame fd f => exact h.frame hguard hs
  | wait evs => exact h.wait hs
  | accept fd now sent => exact h.accept hnum hmax hguard hs
  | poll fd => exact h.poll hnum hmax hguard hs
  | timeout now fuel =>
    rw [loopStep] at hs
    split at hs
    · exact h.section_step hnum hmax
        (show sectionGuard num idletime s.table (.timeout now fuel) from hguard) hs (by simp) (by simp)
    · cases hs
  | claim idx => exact h.claim hnum hmax hs
  | read idx => exact h.read hnum hmax hguard hs
  | write junk fd connSsn =>
    exact h.section_step hnum hmax
      (show sectionGuard num idletime s.table (.write junk fd connSsn) from hguard) hs (by simp)
      (by simp)

end LoopInv

/-! ### Runs -/

/-- **Edge-triggered events are drained.** In every run in which arrivals are not merged and recorded
events are kept, whenever nothing is left to report or to handle and the readers wait, no connection
waits to be accepted and no open connection has a complete frame to read. -/
theorem edges_drained {num : ℕ} (hnum : 1 ≤ num) (hmax : num ≤ maxTreadNum) (idletime : BitVec 32)
    {s : LoopState} (h : (loopSystem num idletime).Reach (loopGuard num idletime) s)
    (hq : Quiet num s) : Drained s := by
  have hinv : LoopInv num s := by
    refine h.invariant (I := LoopInv num) ?_ fun s a s' hI hguard hs ↦ hI.step hnum hmax hguard hs
    rintro s rfl
    exact loopInv_init num
  exact hinv.drained hnum hq

/-- A server with two reader threads to which `n + 1` clients have connected. -/
def connected (n : ℕ) : LoopState :=
  { loopInit 2 with
    backlog := n + 1
    ready := Function.update (loopInit 2).ready .listen true }

/-- The connections are reported as one event, for which the first of them is accepted. -/
theorem connected_accept (n : ℕ) : ∃ s s', (loopSystem 2 60).step (connected n) (.wait [.listen]) s ∧
    (loopSystem 2 60).step s (.accept 4 100 []) s' ∧ Quiet 2 s' ∧ s'.backlog = n := by
  obtain ⟨m, hacc, -, hnums⟩ := (tableHolds_init 2).accept (by decide)
    (show 4 < 2 ^ 31 by decide) (Set.notMem_empty 4) (by decide) 0 100
  have haccept : sectionStep 2 60 ⟨commInit 2, 0, []⟩ (.accept 4 100) = some ⟨m, 0 + 1, [4]⟩ := by
    rw [sectionStep]
    exact step_accept (s := ⟨commInit 2, 0, []⟩) (by decide) (by simp) hacc
  refine ⟨{ connected n with
      events := [.listen]
      ready := fun e ↦ (connected n).ready e && decide (e ∉ [Source.listen]) },
    LoopState.withTable { connected n with
      backlog := n
      received := Function.update (connected n).received 4 (framesBytes [])
      ready := Function.update (fun e ↦ (connected n).ready e && decide (e ∉ [Source.listen]))
        (.client 4) false
      events := [] } ⟨m, 0 + 1, [4]⟩, ?_, ?_, ⟨rfl, fun e ↦ ?_, fun _ _ ↦ rfl, fun i hi ↦ ?_⟩, rfl⟩
  · show loopStep 2 60 _ _ = _
    rw [loopStep, if_pos ⟨rfl, by decide, by decide, by simp [connected]⟩]
  · show loopStep 2 60 _ _ = _
    rw [loopStep, if_pos ⟨rfl, Nat.succ_pos n⟩]
    exact congrArg (Option.map _) haccept
  · cases e with
    | listen => rfl
    | client fd =>
      rcases eq_or_ne fd 4 with rfl | hne
      · rfl
      · show (Function.update (fun e ↦ (connected n).ready e && decide (e ∉ [Source.listen]))
          (.client 4) false (.client fd) && _) = false
        rw [Function.update_of_ne (by simpa using hne)]
        rfl
  · show getCommClientNum m i = 0
    rw [hnums, (commInit_rep 2).2 i hi]

/-- One client connects. -/
theorem edges_drained_one : ∃ s, Quiet 2 s ∧ Drained s := by
  obtain ⟨s, s', hwait, haccept, hq, -⟩ := connected_accept 0
  have hfirst : (loopSystem 2 60).Reach (loopGuard 2 60) (connected 0) :=
    .step (a := .connect) (.init rfl) rfl rfl
  have hreach : (loopSystem 2 60).Reach (loopGuard 2 60) s' :=
    .step (a := .accept 4 100 []) (.step (a := .wait [.listen]) hfirst trivial hwait)
      (Nat.zero_le 1) haccept
  exact ⟨s', hq, edges_drained (by decide) (by decide) 60 hreach hq⟩

/-- Two clients connect between two waits: they are reported as one event, for which one of them is
accepted, and nothing reports the other. -/
theorem connection_left_behind : ∃ s, (loopSystem 2 60).Reach Guarded.always s ∧ Quiet 2 s ∧
    ¬ Drained s := by
  obtain ⟨s, s', hwait, haccept, hq, hback⟩ := connected_accept 1
  have hfirst : (loopSystem 2 60).step (loopInit 2) .connect (connected 0) := rfl
  have hsecond : (loopSystem 2 60).step (connected 0) .connect (connected 1) := by
    show some _ = some (connected 1)
    rw [connected, connected, Function.update_idem]
  refine ⟨s', .step (.step (.step (.step (.init rfl) trivial hfirst) trivial hsecond) trivial hwait)
    trivial haccept, hq, fun hd ↦ ?_⟩
  have hzero := hd.backlog
  rw [hback] at hzero
  cases hzero

end Sunda
