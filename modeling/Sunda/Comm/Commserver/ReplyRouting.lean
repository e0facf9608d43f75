import Sunda.Comm.Commserver.RoundTrip
import Sunda.Comm.Commserver.Sections
import Sunda.Comm.Commserver.TableInvariant

/-!
# Replies and the connections they belong to

A run of the server with its clients, the kernel and the workers: connections are accepted and closed,
requests are read and queued, workers reply to requests that were queued, in any order and at any
time, and `write_task` writes responses. The kernel gives the descriptor of a closed connection to a
later one.

The state remembers beside the table which connections are open, and for every request the connection
it was read from. A connection is its descriptor and its **generation**, the number of connections
before it. What is claimed of a response is `Delivered`: it answers a reply that was just received,
and the connection of the request is still open.

`replies_reach_their_connection` proves it for every run that keeps to `routeGuard`.
`not_delivered_after_failed_getreply` shows what happens otherwise: `write_task` goes on after a
failed `tux_getreply`, with a cleared buffer.
-/

namespace Sunda

open Bytes Arrivals SysV

/-! ### The system -/

/-- An accepted connection: its descriptor, and how many connections were accepted before it. -/
structure Conn where
  fd : ℕ
  gen : ℕ
  deriving DecidableEq

/-- A queued request: the head in front of it, and the connection it was read from. -/
structure Request where
  head : IPCMsgHead
  conn : Conn
  deriving DecidableEq

/-- The table, the history, the reply queue, and the state of the writer thread. -/
structure RouteState where
  mem : WordMem
  gssn : BitVec 32
  /-- The descriptors of all connections so far, by generation. -/
  accepted : List ℕ
  opened : List Conn
  log : List Request
  replies : List Msg
  /-- `iBufLen` of `write_task`. -/
  iBufLen : ℤ
  /-- The writer thread has not returned. -/
  writing : Bool

/-- The steps. Their arguments are what the program does not decide: the descriptor and the time of a
connection, the bytes that a client has sent, the result of a handler, failures of system calls. -/
inductive RouteAct
  | accept (fd : ℕ) (now : BitVec 32)
  | event (fd : ℕ)
  /-- The last branch of the main loop. -/
  | error (fd : ℕ)
  | timeout (now : BitVec 32) (fuel : ℕ)
  | read (idx : ℕ) (mb : MbCtrl) (k : SndKernel) (realLen : ℤ) (q : List Msg) (sock : Sock UInt8)
  | reply (r : Request) (mb : MbCtrl) (k : SndKernel) (realLen : ℤ) (rsp : Option (List UInt8))
      (rsplen flags : ℤ)
  | write (junk : ℤ) (attached : Bool) (fault : Option Errno) (errno : ℤ)

/-- The connections that stay open when a descriptor is closed. -/
def closeFd (s : RouteState) (mem : WordMem) (fd : ℕ) : RouteState :=
  { s with mem := mem, opened := s.opened.filter (·.fd ≠ fd) }

/-- The part of a read behind the claim of a connection. -/
def routeRead (num : ℕ) (s : RouteState) (mem : WordMem) (tClient : ConnectHandle) (mb : MbCtrl)
    (k : SndKernel) (realLen : ℤ) (q : List Msg) (sock : Sock UInt8) : Option RouteState :=
  match s.opened.find? (·.fd = tClient.fd.toNat) with
  | none =>
    -- a read of a descriptor that is not open fails
    some (closeFd s (delConnectFd mem num tClient.fd.toNat) tClient.fd.toNat)
  | some conn =>
    match (readTask mb k realLen q sock tClient.fd tClient).1 with
    | .closed => some (closeFd s (delConnectFd mem num tClient.fd.toNat) tClient.fd.toNat)
    | .queued q' => some { s with
        mem := mem
        log := s.log ++ (q'.drop q.length).map fun m ↦ ⟨.ofBytes (Msg.payload m), conn⟩ }
    | .errRsp _ => some { s with mem := mem }
    | .overrun => none

/-- One step. A run ends where a copy leaves its array: the program has no behaviour from there on. -/
def routeStep (num : ℕ) (idletime : BitVec 32) (s : RouteState) : RouteAct → Option RouteState
  | .accept fd now =>
    if fd < 2 ^ 31 ∧ fd ∉ s.opened.map Conn.fd ∧ s.accepted.length + 1 < 2 ^ 32 then
      match newAccept s.mem num s.gssn fd now with
      | some (mem, gssn) => some { s with
          mem := mem
          gssn := gssn
          accepted := s.accepted ++ [fd]
          opened := ⟨fd, s.accepted.length⟩ :: s.opened }
      | none => some s
    else none
  | .event fd =>
    if fd < 2 ^ 31 then
      some ((getConnectPos s.mem (fd % num) (BitVec.ofNat 32 fd)).elim
        (closeFd s (pollEvent s.mem num fd) fd) fun _ ↦ { s with mem := pollEvent s.mem num fd })
    else none
  | .error fd => if fd < 2 ^ 31 then some (closeFd s (delConnectFd s.mem num fd) fd) else none
  | .timeout now fuel =>
    (cleanTimeOutConnect s.mem num idletime now fuel).map fun r ↦ { s with
      mem := r.1
      opened := s.opened.filter fun c ↦ !r.2.contains (BitVec.ofNat 32 c.fd) }
  | .read idx mb k realLen q sock =>
    if idx < num then
      match readClaim s.mem idx with
      | .wait => none
      | .reset mem => some { s with mem := mem }
      | .claimed mem _ tClient => routeRead num s mem tClient mb k realLen q sock
    else none
  | .reply r mb k realLen rsp rsplen flags =>
    if r ∈ s.log then
      (tuxReturnReply mb k realLen r.head s.replies rsp rsplen flags).map fun p ↦
        { s with replies := p.2 }
    else none
  | .write junk attached fault errno =>
    if s.writing then
      match writeTask s.mem num junk attached fault errno s.replies s.iBufLen with
      | .waiting => some s
      | .ret => some { s with writing := false }
      | .next rest iBufLen => some { s with replies := rest, iBufLen := iBufLen }
      | .write rest iBufLen mem _ _ =>
        some { s with mem := mem, replies := rest, iBufLen := iBufLen }
      | .fault => none
    else none

/-- The system, from the start of the server. -/
def routeSystem (num : ℕ) (idletime : BitVec 32) : Guarded RouteState RouteAct :=
  .ofFn (· = ⟨commInit num, 0, [], [], [], [], 0, true⟩) (routeStep num idletime)

/-! ### What is claimed of a response -/

/-- A received reply answers a request: it starts with the head of the request, up to the length. -/
def Answers (rspBuf : List UInt8) (r : Request) : Prop :=
  ∃ n, IPCMsgHead.ofBytes rspBuf = r.head.setLen n

/-- `write_task` writes to the descriptor `fd` because of a reply that it received in this iteration;
and whichever request the reply answers, the connection that request was read from is still open and
has this descriptor. -/
def Delivered (s : RouteState) (attached : Bool) (fault : Option Errno) (errno : ℤ)
    (fd : BitVec 32) : Prop :=
  ∃ rspBuf n rest,
    tuxGetreply attached fault errno s.replies commSMsgTypeRoot 0 = .got rspBuf n rest ∧
    (∃ r ∈ s.log, Answers rspBuf r) ∧
    ∀ r ∈ s.log, Answers rspBuf r → r.conn ∈ s.opened ∧ fd = BitVec.ofNat 32 r.conn.fd

/-! ### The condition on a step -/

/-- If `tux_getreply` fails in a way the loop does not end on, the first shard has a free slot and no
connection with the number 0; and a received reply is not looked up in vain in a full shard. -/
structure WriteGuard (num : ℕ) (s : RouteState) (attached : Bool) (fault : Option Errno)
    (errno : ℤ) : Prop where
  failed : ∀ tuxErrno rest,
    tuxGetreply attached fault errno s.replies commSMsgTypeRoot 0 = .fail tuxErrno rest →
      tuxErrno ≠ sysSystem → tuxErrno ≠ ENOMSG → ShardFree s.mem 0 ∧ ¬ HasSsn s.mem 0 0
  received : ∀ rspBuf n rest,
    tuxGetreply attached fault errno s.replies commSMsgTypeRoot 0 = .got rspBuf n rest →
      ShardFree s.mem ((IPCMsgHead.ofBytes rspBuf).fd.toNat % num) ∨
        HasSsn s.mem ((IPCMsgHead.ofBytes rspBuf).fd.toNat % num) (IPCMsgHead.ofBytes rspBuf).connSsn

/-- Deletions are in range, and an iteration of `write_task` meets `WriteGuard`. -/
def routeGuard (num : ℕ) (idletime : BitVec 32) (s : RouteState) : RouteAct → Prop
  | .error fd => DelInRange s.mem num fd
  | .timeout now _ => CleanInRange s.mem num idletime now
  | .read idx mb k realLen q sock => ∀ mem j tClient, readClaim s.mem idx = .claimed mem j tClient →
      (readTask mb k realLen q sock tClient.fd tClient).1 = .closed →
        DelInRange mem num tClient.fd.toNat
  | .write _ attached fault errno => WriteGuard num s attached fault errno
  | _ => True

/-! ### Responses -/

/-- What `write_task` does with a reply, in a shard that has a free slot or the number of the
connection: nothing that the program decides, a response to the connection, or nothing at all. -/
theorem TableHolds.writeResponse_cases {m : WordMem} {num : ℕ} {S : Set ℕ}
    {T : ℕ → List ConnectHandle} (h : TableHolds m num S T) (hnum : 0 < num) (junk n : ℤ)
    {buf : List UInt8} {head : IPCMsgHead} (hhead : IPCMsgHead.ofBytes buf = head) (rest : List Msg)
    (hguard : ShardFree m (head.fd.toNat % num) ∨ HasSsn m (head.fd.toNat % num) head.connSsn) :
    writeResponse m num junk buf n rest = .fault ∨
    (¬ HasSsn m (head.fd.toNat % num) head.connSsn ∧
      writeResponse m num junk buf n rest = .next rest n) ∨
    ∃ k, ∃ hk : k < (T (head.fd.toNat % num)).length,
      (T (head.fd.toNat % num))[k].ssn = head.connSsn ∧
      writeResponse m num junk buf n rest =
        .write rest n (setCommClientStat m (head.fd.toNat % num) k fdStatWrite) head.fd
          (rspFrame buf (rspLen n).toNat) := by
  subst hhead
  by_cases hf : rspLen n < 0 ∨ (IPCMsgHead.ofBytes buf).fd.toInt < 0
  · exact .inl (by simp only [writeResponse, if_pos hf])
  · rcases h.writeMark_cases hnum junk hguard with ⟨k, hk, hssn, hmark⟩ | ⟨hnot, hmark⟩
    · exact .inr (.inr ⟨k, hk, hssn, by simp only [writeResponse, if_neg hf, hmark]⟩)
    · exact .inr (.inl ⟨hnot, by simp only [writeResponse, if_neg hf, hmark]⟩)

/-! ### The invariant -/

/-- A queued request carries the descriptor and the generation of its connection. -/
structure Request.Ok (accepted : List ℕ) (r : Request) : Prop where
  gen : accepted[r.conn.gen]? = some r.conn.fd
  small : r.conn.fd < 2 ^ 31
  fd : r.head.fd = BitVec.ofNat 32 r.conn.fd
  connSsn : r.head.connSsn = BitVec.ofNat 32 r.conn.gen
  reqMsgType : r.head.reqMsgType = BitVec.ofNat 64 commSMsgTypeRoot

/-- The message is a reply to a request of the log. -/
def ReplyOf (log : List Request) (m : Msg) : Prop :=
  ∃ r ∈ log, ∃ (n : ℤ) (body : List UInt8), Msg.payload m = (r.head.setLen n).toBytes ++ body

/-- The shards hold the open connections, each under its generation; requests and replies carry the
generation of a connection. -/
structure RouteInv (num : ℕ) (s : RouteState) (T : ℕ → List ConnectHandle) : Prop where
  table : TableHolds s.mem num {fd | fd ∈ s.opened.map Conn.fd} T
  entry : ∀ i, ∀ c ∈ T i, ⟨c.key, c.ssn.toNat⟩ ∈ s.opened
  nodup : (s.opened.map Conn.fd).Nodup
  gssn : s.gssn = BitVec.ofNat 32 s.accepted.length
  count : s.accepted.length < 2 ^ 32
  gen : ∀ c ∈ s.opened, s.accepted[c.gen]? = some c.fd
  log : ∀ r ∈ s.log, r.Ok s.accepted
  replies : ∀ m ∈ s.replies, ReplyOf s.log m

theorem routeInv_init (num : ℕ) :
    RouteInv num ⟨commInit num, 0, [], [], [], [], 0, true⟩ (fun _ ↦ []) where
  table := by simpa using tableHolds_init num
  entry i c hc := absurd hc (by simp)
  nodup := List.nodup_nil
  gssn := rfl
  count := Nat.two_pow_pos 32
  gen c hc := absurd hc (by simp)
  log r hr := absurd hr (by simp)
  replies m hm := absurd hm (by simp)

theorem getElem?_append_of_some {α : Type*} {l l' : List α} {i : ℕ} {a : α} (h : l[i]? = some a) :
    (l ++ l')[i]? = some a := by
  rw [List.getElem?_append_left (List.getElem?_eq_some_iff.1 h).1, h]

theorem Request.Ok.append {accepted : List ℕ} {r : Request} (h : r.Ok accepted) (fd : ℕ) :
    r.Ok (accepted ++ [fd]) :=
  { h with gen := getElem?_append_of_some h.gen }

theorem ReplyOf.mono {log log' : List Request} {m : Msg} (h : ReplyOf log m) :
    ReplyOf (log ++ log') m := by
  obtain ⟨r, hr, hm⟩ := h
  exact ⟨r, List.mem_append_left _ hr, hm⟩

namespace RouteInv

variable {num : ℕ} {s s' : RouteState} {T T' : ℕ → List ConnectHandle} {idletime : BitVec 32}

/-- The open connection with a descriptor. -/
theorem eq_of_fd_eq (h : RouteInv num s T) {c c' : Conn} (hc : c ∈ s.opened) (hc' : c' ∈ s.opened)
    (hfd : c.fd = c'.fd) : c = c' :=
  List.inj_on_of_nodup_map h.nodup hc hc' hfd

/-- Generations are numbers below 2^32, so an entry of the table with the connection number of a request
is the entry of the connection that the request was read from. -/
theorem conn_of_ssn (h : RouteInv num s T) {r : Request} (hr : r ∈ s.log) {i : ℕ} {c : ConnectHandle}
    (hc : c ∈ T i) (hssn : c.ssn = r.head.connSsn) : r.conn ∈ s.opened := by
  obtain ⟨hgen, -, -, hconnSsn, -⟩ := h.log r hr
  have hlt := (List.getElem?_eq_some_iff.1 hgen).1
  have hcount := h.count
  have hmem := h.entry i c hc
  have hnum : c.ssn.toNat = r.conn.gen := by
    rw [hssn, hconnSsn, BitVec.toNat_ofNat, Nat.mod_eq_of_lt (by omega)]
  rw [hnum] at hmem
  have hfd : c.key = r.conn.fd := Option.some.inj ((h.gen _ hmem).symm.trans hgen)
  rwa [hfd] at hmem

/-- The table changes without a new connection: some connections are closed, and the entries of the
others may have another status. -/
theorem retable (h : RouteInv num s T) {mem : WordMem} {opened : List Conn}
    (hsub : opened.Sublist s.opened)
    (hkeep : ∀ c ∈ s.opened, c.fd ∈ opened.map Conn.fd → c ∈ opened)
    (hT : TableHolds mem num {fd | fd ∈ opened.map Conn.fd} T')
    (hentry : ∀ i, ∀ c ∈ T' i, ∃ c' ∈ T i, c'.key = c.key ∧ c'.ssn = c.ssn) :
    RouteInv num { s with mem := mem, opened := opened } T' :=
  { h with
    table := hT
    entry := fun i c hc ↦ by
      obtain ⟨c', hc', hkey, hssn⟩ := hentry i c hc
      have hmem := h.entry i c' hc'
      rw [hkey, hssn] at hmem
      exact hkeep _ hmem (hT.holds.mem hc)
    nodup := h.nodup.sublist (hsub.map _)
    gen := fun c hc ↦ h.gen c (hsub.subset hc) }

/-- Only entries of the table have another status. -/
theorem restat (h : RouteInv num s T) {mem : WordMem}
    (hT : TableHolds mem num {fd | fd ∈ s.opened.map Conn.fd} T')
    (hentry : ∀ i, ∀ c ∈ T' i, ∃ c' ∈ T i, c'.key = c.key ∧ c'.ssn = c.ssn) :
    RouteInv num { s with mem := mem } T' :=
  h.retable (List.Sublist.refl s.opened) (fun _ hc _ ↦ hc) hT hentry

/-- Entries of a shard in which one status was stored. -/
theorem entry_set {i j : ℕ} (hj : j < (T i).length) (v : BitVec 8) (k : ℕ) {c : ConnectHandle}
    (hc : c ∈ Function.update T i ((T i).set j { (T i)[j] with status := v }) k) :
    ∃ c' ∈ T k, c'.key = c.key ∧ c'.ssn = c.ssn := by
  rcases eq_or_ne k i with rfl | hk
  · rw [Function.update_self] at hc
    rcases List.mem_or_eq_of_mem_set hc with hc | rfl
    · exact ⟨c, hc, rfl, rfl⟩
    · exact ⟨_, List.getElem_mem hj, rfl, rfl⟩
  · rw [Function.update_of_ne hk] at hc
    exact ⟨c, hc, rfl, rfl⟩

/-! ### Steps of the table -/

theorem accept (h : RouteInv num s T) (hnum : 0 < num) {fd : ℕ} {now : BitVec 32}
    (hs : routeStep num idletime s (.accept fd now) = some s') : ∃ T', RouteInv num s' T' := by
  rw [routeStep] at hs
  split at hs
  · next hnew =>
    obtain ⟨hfd, hfresh, hcount⟩ := hnew
    by_cases hlt : (T (fd % num)).length < maxFdNum
    · obtain ⟨m', hacc, hT, -⟩ := h.table.accept hnum hfd hfresh hlt s.gssn now
      rw [hacc] at hs
      obtain rfl := Option.some.inj hs
      have hset : insert fd {k | k ∈ s.opened.map Conn.fd} =
          {k | k ∈ (⟨fd, s.accepted.length⟩ :: s.opened).map Conn.fd} := by
        ext k
        simp
      refine ⟨_, hset ▸ hT, fun i c hc ↦ ?_, List.nodup_cons.2 ⟨hfresh, h.nodup⟩, ?_, ?_,
        fun c hc ↦ ?_, fun r hr ↦ (h.log r hr).append fd, h.replies⟩
      · rcases eq_or_ne i (fd % num) with rfl | hi
        · rw [Function.update_self, List.mem_append, List.mem_singleton] at hc
          rcases hc with hc | rfl
          · exact List.mem_cons_of_mem _ (h.entry _ c hc)
          · -- the new entry carries the number of connections so far
            have hkey : (BitVec.ofNat 32 fd).toNat = fd := by
              rw [BitVec.toNat_ofNat, Nat.mod_eq_of_lt (by omega)]
            have hssn : s.gssn.toNat = s.accepted.length := by
              rw [h.gssn, BitVec.toNat_ofNat, Nat.mod_eq_of_lt h.count]
            show (⟨(BitVec.ofNat 32 fd).toNat, s.gssn.toNat⟩ : Conn) ∈ _
            rw [hkey, hssn]
            exact List.mem_cons_self ..
        · rw [Function.update_of_ne hi] at hc
          exact List.mem_cons_of_mem _ (h.entry i c hc)
      · show s.gssn + 1 = BitVec.ofNat 32 (s.accepted ++ [fd]).length
        rw [h.gssn, List.length_append, List.length_singleton]
        exact (BitVec.ofNat_add ..).symm
      · show (s.accepted ++ [fd]).length < _
        rwa [List.length_append, List.length_singleton]
      · show (s.accepted ++ [fd])[c.gen]? = some c.fd
        rcases List.mem_cons.1 hc with rfl | hc
        · exact List.getElem?_concat_length
        · exact getElem?_append_of_some (h.gen c hc)
    · rw [(h.table.rep _ (Nat.mod_lt fd hnum)).newAccept_full hlt] at hs
      obtain rfl := Option.some.inj hs
      exact ⟨T, h⟩
  · cases hs

/-- Closing a descriptor that is deleted from the table. -/
theorem close (h : RouteInv num s T) (hnum : 0 < num) (hmax : num ≤ maxTreadNum) {fd : ℕ}
    (hfd : fd < 2 ^ 31) (hrange : DelInRange s.mem num fd) :
    ∃ T', RouteInv num (closeFd s (delConnectFd s.mem num fd) fd) T' := by
  have hset : {k | k ∈ s.opened.map Conn.fd} \ {fd} =
      {k | k ∈ (s.opened.filter (·.fd ≠ fd)).map Conn.fd} := by
    ext k
    simp only [Set.mem_sdiff, Set.mem_ofPred_eq, Set.mem_singleton_iff, List.mem_map,
      List.mem_filter, decide_eq_true_eq]
    constructor
    · rintro ⟨⟨c, hc, rfl⟩, hne⟩
      exact ⟨c, ⟨hc, hne⟩, rfl⟩
    · rintro ⟨c, ⟨hc, hne⟩, rfl⟩
      exact ⟨⟨c, hc, rfl⟩, hne⟩
  refine ⟨_, h.retable List.filter_sublist (fun c hc hk ↦ ?_)
    (hset ▸ h.table.del hnum hmax hfd hrange) fun i c hc ↦ ?_⟩
  · obtain ⟨c', hc', hfd'⟩ := List.mem_map.1 hk
    obtain rfl := h.eq_of_fd_eq (List.mem_of_mem_filter hc') hc hfd'
    exact hc'
  · rcases eq_or_ne i (fd % num) with rfl | hi
    · rw [Function.update_self] at hc
      exact ⟨c, List.mem_of_mem_filter hc, rfl, rfl⟩
    · rw [Function.update_of_ne hi] at hc
      exact ⟨c, hc, rfl, rfl⟩

theorem event (h : RouteInv num s T) (hnum : 0 < num) {fd : ℕ}
    (hs : routeStep num idletime s (.event fd) = some s') : ∃ T', RouteInv num s' T' := by
  rw [routeStep] at hs
  split at hs
  · next hfd =>
    obtain rfl := Option.some.inj hs
    cases hpos : getConnectPos s.mem (fd % num) (BitVec.ofNat 32 fd) with
    | none =>
      -- nothing is open under the descriptor, so closing it changes nothing
      have hnot := h.table.notMem_of_getConnectPos hnum hfd hpos
      have hself : s.opened.filter (·.fd ≠ fd) = s.opened :=
        List.filter_eq_self.2 fun c hc ↦ by
          have hne : c.fd ≠ fd := fun h0 ↦ hnot (List.mem_map.2 ⟨c, hc, h0⟩)
          simpa using hne
      rw [Option.elim_none, closeFd, h.table.pollEvent_none hnum hfd hpos, hself]
      exact ⟨T, h⟩
    | some j =>
      obtain ⟨hj, -⟩ := h.table.of_getConnectPos hnum hfd hpos
      exact ⟨_, h.restat (h.table.pollEvent_some hnum hpos hj).1 fun i c hc ↦ entry_set hj _ i hc⟩
  · cases hs

theorem timeout (h : RouteInv num s T) (hnum : 0 < num) (hmax : num ≤ maxTreadNum)
    {now : BitVec 32} {fuel : ℕ} (hguard : routeGuard num idletime s (.timeout now fuel))
    (hs : routeStep num idletime s (.timeout now fuel) = some s') : ∃ T', RouteInv num s' T' := by
  obtain ⟨r, hr, rfl⟩ := Option.map_eq_some_iff.1 hs
  have hset : {k | k ∈ s.opened.map Conn.fd} \ {k | BitVec.ofNat 32 k ∈ r.2} =
      {k | k ∈ (s.opened.filter fun c ↦ !r.2.contains (BitVec.ofNat 32 c.fd)).map Conn.fd} := by
    ext k
    simp only [Set.mem_sdiff, Set.mem_ofPred_eq, List.mem_map, List.mem_filter, Bool.not_eq_true',
      List.contains_eq_mem, decide_eq_false_iff_not]
    constructor
    · rintro ⟨⟨c, hc, rfl⟩, hne⟩
      exact ⟨c, ⟨hc, hne⟩, rfl⟩
    · rintro ⟨c, ⟨hc, hne⟩, rfl⟩
      exact ⟨⟨c, hc, rfl⟩, hne⟩
  refine ⟨_, h.retable List.filter_sublist (fun c hc hk ↦ ?_)
    (hset ▸ (h.table.timeout hnum hmax hguard hr).1)
    fun i c hc ↦ ⟨c, (List.dropWhile_suffix _).subset hc, rfl, rfl⟩⟩
  obtain ⟨c', hc', hfd'⟩ := List.mem_map.1 hk
  obtain rfl := h.eq_of_fd_eq (List.mem_of_mem_filter hc') hc hfd'
  exact hc'

/-! ### Requests and replies -/

/-- The connection of a request is the one that was claimed. -/
theorem queued (h : RouteInv num s T) {tClient : ConnectHandle} {conn : Conn}
    (hentry : ⟨tClient.fd.toNat, tClient.ssn.toNat⟩ ∈ s.opened) (hconn : conn ∈ s.opened)
    (hfd : conn.fd = tClient.fd.toNat) {mb : MbCtrl} {k : SndKernel} {realLen : ℤ} {q q' : List Msg}
    {sock : Sock UInt8}
    (hread : (readTask mb k realLen q sock tClient.fd tClient).1 = .queued q') :
    RouteInv num { s with
      log := s.log ++ (q'.drop q.length).map fun m ↦ ⟨.ofBytes (Msg.payload m), conn⟩ } T := by
  obtain ⟨m, sSrcBuf, n, rfl, hhead⟩ := head_of_readTask_queued hread
  obtain rfl : conn = ⟨tClient.fd.toNat, tClient.ssn.toNat⟩ := h.eq_of_fd_eq hconn hentry hfd
  rw [List.drop_left, List.map_singleton, hhead]
  refine { h with log := fun r hr ↦ ?_, replies := fun m' hm' ↦ (h.replies m' hm').mono }
  rcases List.mem_append.1 hr with hr | hr
  · exact h.log r hr
  · obtain rfl := List.mem_singleton.1 hr
    refine ⟨h.gen _ hentry, h.table.small _ (List.mem_map.2 ⟨_, hentry, rfl⟩), ?_, ?_, rfl⟩
    · show tClient.fd = BitVec.ofNat 32 tClient.fd.toNat
      rw [BitVec.ofNat_toNat, BitVec.setWidth_eq]
    · show tClient.ssn = BitVec.ofNat 32 tClient.ssn.toNat
      rw [BitVec.ofNat_toNat, BitVec.setWidth_eq]

theorem read (h : RouteInv num s T) (hnum : 0 < num) (hmax : num ≤ maxTreadNum) {idx : ℕ}
    {mb : MbCtrl} {k : SndKernel} {realLen : ℤ} {q : List Msg} {sock : Sock UInt8}
    (hguard : routeGuard num idletime s (.read idx mb k realLen q sock))
    (hs : routeStep num idletime s (.read idx mb k realLen q sock) = some s') :
    ∃ T', RouteInv num s' T' := by
  rw [routeStep] at hs
  split at hs
  · next hidx =>
    cases hclaim : readClaim s.mem idx with
    | wait =>
      rw [hclaim] at hs
      cases hs
    | reset mem =>
      rw [hclaim] at hs
      obtain rfl := Option.some.inj hs
      exact ⟨T, h.restat (h.table.of_readClaim_reset hidx hclaim).2.1 fun i c hc ↦ ⟨c, hc, rfl, rfl⟩⟩
    | claimed mem j tClient =>
      rw [hclaim] at hs
      have hrange := hguard mem j tClient hclaim
      obtain ⟨hj, -, rfl, hT, -⟩ := h.table.of_readClaim_claimed hidx hclaim
      have h' : RouteInv num { s with mem := mem } _ := h.restat hT fun i c hc ↦ entry_set hj _ i hc
      have hentry := h.entry idx _ (List.getElem_mem hj)
      have hsmall : (T idx)[j].fd.toNat < 2 ^ 31 := h.table.small _ (List.mem_map.2 ⟨_, hentry, rfl⟩)
      simp only [routeRead] at hs
      split at hs
      · next hnone =>
        have hnot : ¬ (T idx)[j].key = (T idx)[j].fd.toNat := by
          simpa using List.find?_eq_none.1 hnone _ hentry
        exact absurd rfl hnot
      · next conn hfind =>
        have hconn : conn ∈ s.opened := List.mem_of_find?_eq_some hfind
        have hfd : conn.fd = (T idx)[j].fd.toNat := by simpa using List.find?_some hfind
        split at hs
        · next hclosed =>
          obtain rfl := Option.some.inj hs
          exact h'.close hnum hmax hsmall (hrange hclosed)
        · next hqueued =>
          obtain rfl := Option.some.inj hs
          exact ⟨_, h'.queued hentry hconn hfd hqueued⟩
        · obtain rfl := Option.some.inj hs
          exact ⟨_, h'⟩
        · cases hs
  · cases hs

theorem reply (h : RouteInv num s T) {r : Request} {mb : MbCtrl} {k : SndKernel} {realLen : ℤ}
    {rsp : Option (List UInt8)} {rsplen flags : ℤ}
    (hs : routeStep num idletime s (.reply r mb k realLen rsp rsplen flags) = some s') :
    ∃ T', RouteInv num s' T' := by
  rw [routeStep] at hs
  split at hs
  · next hr =>
    obtain ⟨⟨rc, q'⟩, hret, rfl⟩ := Option.map_eq_some_iff.1 hs
    refine ⟨T, { h with replies := fun m hm ↦ ?_ }⟩
    rcases of_tuxReturnReply hret with rfl | ⟨m', rfl, -, n, body, hp⟩
    · exact h.replies m hm
    · rcases List.mem_append.1 hm with hm | hm
      · exact h.replies m hm
      · obtain rfl := List.mem_singleton.1 hm
        exact ⟨r, hr, n, body, hp⟩
  · cases hs

/-- A received reply is a message with the head of a request, and the rest of the queue is part of the
queue. -/
theorem of_got (h : RouteInv num s T) {attached : Bool} {fault : Option Errno} {errno n : ℤ}
    {rspBuf : List UInt8} {rest : List Msg}
    (hgot : tuxGetreply attached fault errno s.replies commSMsgTypeRoot 0 = .got rspBuf n rest) :
    rest ⊆ s.replies ∧ (∃ r ∈ s.log, Answers rspBuf r) ∧ n = rspBuf.length ∧
      sizeofIPCMsgHead ≤ rspBuf.length ∧ rspBuf.length ≤ busMaxMsgLen := by
  obtain ⟨pre, m, post, hq, rfl, -, -, rfl, hn, hle⟩ := of_tuxGetreply_got (by decide) hgot
  obtain ⟨r, hr, n', body, hp⟩ := h.replies m (by simp [hq])
  refine ⟨?_, ⟨r, hr, n', by rw [hp, IPCMsgHead.ofBytes_toBytes_append]⟩, hn, ?_, hle⟩
  · rw [hq]
    exact List.append_subset.2 ⟨List.subset_append_left .., fun x hx ↦
      List.mem_append_right _ (List.mem_cons_of_mem _ hx)⟩
  · rw [hp, List.length_append, IPCMsgHead.toBytes_length]
    exact Nat.le_add_right _ _

/-- **The outcomes of an iteration of `write_task`.** A response is written only because of a reply that
was received, and only to a connection that has the number the reply carries. -/
theorem writeTask_cases (h : RouteInv num s T) (hnum : 0 < num) {errno : ℤ} {attached : Bool}
    {fault : Option Errno} (hguard : WriteGuard num s attached fault errno) {junk : ℤ} {out : WriteOut}
    (hout : writeTask s.mem num junk attached fault errno s.replies s.iBufLen = out) :
    out = .waiting ∨ out = .ret ∨ out = .fault ∨
    (∃ rest n, rest ⊆ s.replies ∧ out = .next rest n) ∨
    ∃ rspBuf n rest, tuxGetreply attached fault errno s.replies commSMsgTypeRoot 0 =
        .got rspBuf n rest ∧
      ∃ head, IPCMsgHead.ofBytes rspBuf = head ∧
        ∃ k, ∃ hk : k < (T (head.fd.toNat % num)).length,
          (T (head.fd.toNat % num))[k].ssn = head.connSsn ∧
          out = .write rest n (setCommClientStat s.mem (head.fd.toNat % num) k fdStatWrite) head.fd
            (rspFrame rspBuf (rspLen n).toNat) := by
  rw [writeTask] at hout
  split at hout
  · exact .inl hout.symm
  · next rspBuf n rest hgot =>
    rcases h.table.writeResponse_cases hnum junk n rfl rest (hguard.received _ _ _ hgot) with
      heq | ⟨-, heq⟩ | ⟨k, hk, hssn, heq⟩
    · exact .inr (.inr (.inl (hout.symm.trans heq)))
    · exact .inr (.inr (.inr (.inl ⟨rest, n, (h.of_got hgot).1, hout.symm.trans heq⟩)))
    · exact .inr (.inr (.inr (.inr ⟨rspBuf, n, rest, hgot, _, rfl, k, hk, hssn, hout.symm.trans heq⟩)))
  · next tuxErrno rest hfail =>
    have hrest : rest ⊆ s.replies := of_tuxGetreply_fail (by decide) hfail
    split at hout
    · exact .inr (.inl hout.symm)
    · next hsys =>
      split at hout
      · exact .inr (.inr (.inr (.inl ⟨rest, s.iBufLen, hrest, hout.symm⟩)))
      · next hnomsg =>
        -- the buffer was cleared: descriptor 0 and connection number 0
        obtain ⟨hfree, hnot⟩ := hguard.failed _ _ hfail hsys hnomsg
        have hidx : (IPCMsgHead.ofBytes []).fd.toNat % num = 0 := by
          rw [show (IPCMsgHead.ofBytes []).fd.toNat = 0 by decide, Nat.zero_mod]
        have hssn0 : (IPCMsgHead.ofBytes []).connSsn = 0 := by decide
        rcases h.table.writeResponse_cases hnum junk s.iBufLen rfl rest (.inl (by rwa [hidx])) with
          heq | ⟨-, heq⟩ | ⟨k, hk, hssn, -⟩
        · exact .inr (.inr (.inl (hout.symm.trans heq)))
        · exact .inr (.inr (.inr (.inl ⟨rest, s.iBufLen, hrest, hout.symm.trans heq⟩)))
        · rw [hssn0] at hssn
          have hhas := (h.table.rep _ (Nat.mod_lt _ hnum)).hasSsn_iff.2 ⟨_, List.getElem_mem hk, hssn⟩
          rw [hidx] at hhas
          exact absurd hhas hnot

theorem write (h : RouteInv num s T) (hnum : 0 < num) {junk errno : ℤ} {attached : Bool}
    {fault : Option Errno} (hguard : routeGuard num idletime s (.write junk attached fault errno))
    (hs : routeStep num idletime s (.write junk attached fault errno) = some s') :
    ∃ T', RouteInv num s' T' := by
  rw [routeStep] at hs
  split at hs
  · rcases h.writeTask_cases hnum hguard rfl with
      heq | heq | heq | ⟨rest, n, hrest, heq⟩ | ⟨rspBuf, n, rest, hgot, head, -, k, hk, -, heq⟩
    all_goals rw [heq] at hs
    · obtain rfl := Option.some.inj hs
      exact ⟨T, h⟩
    · obtain rfl := Option.some.inj hs
      exact ⟨T, { h with }⟩
    · cases hs
    · obtain rfl := Option.some.inj hs
      exact ⟨T, { h with replies := fun m hm ↦ h.replies m (hrest hm) }⟩
    · obtain rfl := Option.some.inj hs
      have h' := h.restat (h.table.setStat (Nat.mod_lt _ hnum) hk fdStatWrite).1
        fun i c hc ↦ entry_set hk _ i hc
      exact ⟨_, { h' with replies := fun m hm ↦ h.replies m ((h.of_got hgot).1 hm) }⟩
  · cases hs

/-- **The step lemma.** -/
theorem step (h : RouteInv num s T) (hnum : 0 < num) (hmax : num ≤ maxTreadNum) {a : RouteAct}
    (hguard : routeGuard num idletime s a) (hs : routeStep num idletime s a = some s') :
    ∃ T', RouteInv num s' T' := by
  cases a with
  | accept fd now => exact h.accept hnum hs
  | event fd => exact h.event hnum hs
  | error fd =>
    rw [routeStep] at hs
    split at hs
    · next hfd =>
      obtain rfl := Option.some.inj hs
      exact h.close hnum hmax hfd hguard
    · cases hs
  | timeout now fuel => exact h.timeout hnum hmax hguard hs
  | read idx mb k realLen q sock => exact h.read hnum hmax hguard hs
  | reply r mb k realLen rsp rsplen flags => exact h.reply hs
  | write junk attached fault errno => exact h.write hnum hguard hs

/-! ### What follows from the invariant -/

/-- The connection number in a reply is that of the request. -/
theorem connSsn_of_answers {rspBuf : List UInt8} {r : Request} {head : IPCMsgHead}
    (hhead : IPCMsgHead.ofBytes rspBuf = head) (h : Answers rspBuf r) :
    head.connSsn = r.head.connSsn ∧ head.fd = r.head.fd := by
  obtain ⟨n, hn⟩ := h
  rw [← hhead, hn]
  exact ⟨rfl, rfl⟩

theorem delivered (h : RouteInv num s T) (hnum : 0 < num) {junk errno n : ℤ} {attached : Bool}
    {fault : Option Errno} (hguard : WriteGuard num s attached fault errno) {rest : List Msg}
    {mem : WordMem} {fd : BitVec 32} {frame : List UInt8}
    (hw : writeTask s.mem num junk attached fault errno s.replies s.iBufLen =
      .write rest n mem fd frame) : Delivered s attached fault errno fd := by
  rcases h.writeTask_cases hnum hguard hw with
    heq | heq | heq | ⟨_, _, -, heq⟩ | ⟨rspBuf, n, rest, hgot, head, hhead, k, hk, hssn, heq⟩
  · cases heq
  · cases heq
  · cases heq
  · cases heq
  · refine ⟨rspBuf, n, rest, hgot, (h.of_got hgot).2.1, fun r hr hans ↦ ?_⟩
    obtain ⟨hconnSsn, hheadFd⟩ := connSsn_of_answers hhead hans
    refine ⟨h.conn_of_ssn hr (List.getElem_mem hk) (hssn.trans hconnSsn), ?_⟩
    rw [(WriteOut.write.inj heq).2.2.2.1, hheadFd, (h.log r hr).fd]

theorem dropped (h : RouteInv num s T) (hnum : 0 < num) {errno n : ℤ} {attached : Bool}
    {fault : Option Errno} (hguard : WriteGuard num s attached fault errno) {rspBuf : List UInt8}
    {rest : List Msg}
    (hgot : tuxGetreply attached fault errno s.replies commSMsgTypeRoot 0 = .got rspBuf n rest)
    {r : Request} (hr : r ∈ s.log) (hans : Answers rspBuf r) (hclosed : r.conn ∉ s.opened)
    (junk : ℤ) :
    writeTask s.mem num junk attached fault errno s.replies s.iBufLen = .next rest n := by
  obtain ⟨-, -, hn, hlow, hhigh⟩ := h.of_got hgot
  obtain ⟨hconnSsn, hheadFd⟩ := connSsn_of_answers rfl hans
  have hok := h.log r hr
  have hsmall := hok.small
  rw [writeTask, hgot]
  dsimp only
  rcases h.table.writeResponse_cases hnum junk n rfl rest (hguard.received _ _ _ hgot) with
    heq | ⟨-, heq⟩ | ⟨k, hk, hssn, -⟩
  · -- neither length nor descriptor is negative
    obtain ⟨j, hj⟩ := Nat.exists_eq_add_of_le hlow
    have hlen : rspLen n = (sizeofReqHead + j : ℕ) := by
      rw [hn, hj]
      refine rspLen_eq ?_
      rw [busMaxMsgLen] at hhigh
      rw [sizeofReqHead]
      omega
    have hfd : 0 ≤ (IPCMsgHead.ofBytes rspBuf).fd.toInt := by
      rw [hheadFd, hok.fd]
      exact toInt_ofNat_nonneg hsmall
    simp only [writeResponse] at heq
    rw [if_neg (by omega)] at heq
    split at heq <;> cases heq
  · exact heq
  · exact absurd (h.conn_of_ssn hr (List.getElem_mem hk) (hssn.trans hconnSsn)) hclosed

end RouteInv

/-! ### Runs -/

/-- Every state of a run that keeps to the condition has the invariant. -/
theorem exists_routeInv {num : ℕ} (hnum : 0 < num) (hmax : num ≤ maxTreadNum) {idletime : BitVec 32}
    {s : RouteState} (h : (routeSystem num idletime).Reach (routeGuard num idletime) s) :
    ∃ T, RouteInv num s T := by
  refine h.invariant (I := fun s ↦ ∃ T, RouteInv num s T) ?_ ?_
  · rintro s rfl
    exact ⟨_, routeInv_init num⟩
  · rintro s a s' ⟨T, hT⟩ hguard hstep
    exact hT.step hnum hmax hguard hstep

/-- **Replies reach their connection.** In every state of a run that keeps to the condition, an iteration
of `write_task` that keeps to it writes a response only because of a reply it received, to the
connection of the request, which is still open; and a reply to a request of a closed connection is
dropped. -/
theorem replies_reach_their_connection {num : ℕ} (hnum : 1 ≤ num) (hmax : num ≤ maxTreadNum)
    (idletime : BitVec 32) {s : RouteState}
    (h : (routeSystem num idletime).Reach (routeGuard num idletime) s) (junk : ℤ) (attached : Bool)
    (fault : Option Errno) (errno : ℤ)
    (hguard : routeGuard num idletime s (.write junk attached fault errno)) :
    (∀ rest n mem fd frame,
      writeTask s.mem num junk attached fault errno s.replies s.iBufLen =
        .write rest n mem fd frame → Delivered s attached fault errno fd) ∧
    ∀ rspBuf n rest,
      tuxGetreply attached fault errno s.replies commSMsgTypeRoot 0 = .got rspBuf n rest →
        ∀ r ∈ s.log, Answers rspBuf r → r.conn ∉ s.opened →
          writeTask s.mem num junk attached fault errno s.replies s.iBufLen = .next rest n := by
  obtain ⟨T, hT⟩ := exists_routeInv hnum hmax h
  exact ⟨fun _ _ _ _ _ hw ↦ hT.delivered hnum hguard hw,
    fun _ _ _ hgot r hr hans hclosed ↦ hT.dropped hnum hguard hgot hr hans hclosed junk⟩

/-! ### One request -/

/-- The descriptor 4 as a connection, claimed for reading. -/
def oneClient : ConnectHandle := ⟨4, 0, 100, fdStatRead⟩

/-- The request of the client in the runs below. -/
def oneRequest : Request := ⟨requestHead testsvrReqHead 2 4 oneClient, ⟨4, 0⟩⟩

/-- The reply to it, of one byte. -/
def oneReply : Msg :=
  (⟨oneRequest.head.reqMsgType, 0, (oneRequest.head.setLen (1 : ℕ)).toBytes ++ [67]⟩ :
    IPCQueMsg).queued (sizeofIPCMsgHead + 1)

/-- What `read_task` queues for the request. -/
def requestMsgQueued : Msg :=
  (requestMsg 300001 testsvrReqHead [65, 66] 4 oneClient).queued (requestLen 2)

theorem readTask_oneRequest :
    (readTask testsvrMb ⟨none, none, 8192⟩ 0 [] ⟨requestFrame testsvrReqHead [65, 66], []⟩ 4
      oneClient).1 = .queued ([] ++ [requestMsgQueued]) :=
  readTask_requestFrame (e := ⟨1, charField 33 testsvrName 0, .idle, 300001, 20⟩) 0 4
    oneClient ⟨rfl, rfl, by decide, by decide⟩
    (show _ = requestFrame testsvrReqHead [65, 66] ++ [] from (List.append_nil _).symm)
    (.of_buffered (by decide +kernel)) ⟨[], [], rfl, by decide, by simp⟩ (by decide) (by decide)
    (by decide) (by decide) (by decide)

theorem ofBytes_payload_requestMsgQueued :
    IPCMsgHead.ofBytes (Msg.payload requestMsgQueued) = oneRequest.head :=
  ofBytes_payload_requestMsg 300001 testsvrReqHead [65, 66] 4 oneClient

/-- A read that queues one request. -/
theorem routeRead_queued {s : RouteState} {tClient : ConnectHandle} {mb : MbCtrl} {k : SndKernel}
    {realLen : ℤ} {q : List Msg} {m : Msg} {sock : Sock UInt8} {conn : Conn} (num : ℕ) (mem : WordMem)
    (hfind : s.opened.find? (·.fd = tClient.fd.toNat) = some conn)
    (hread : (readTask mb k realLen q sock tClient.fd tClient).1 = .queued (q ++ [m])) :
    routeRead num s mem tClient mb k realLen q sock = some { s with
      mem := mem
      log := s.log ++ [⟨.ofBytes (Msg.payload m), conn⟩] } := by
  rw [routeRead, hfind]
  dsimp only
  rw [hread]
  dsimp only
  rw [List.drop_left, List.map_singleton]

/-- In a server with two reader threads the descriptor 4 is open, with the status `v` and the counter
`n`. -/
structure OneRoute (s : RouteState) (v : BitVec 8) (n : BitVec 32) : Prop where
  opened : s.opened = [⟨4, 0⟩]
  table : ∃ T, TableHolds s.mem 2 {fd | fd ∈ s.opened.map Conn.fd} T ∧ T 0 = [⟨4, 0, 100, v⟩]
  num : getCommClientNum s.mem 0 = n

namespace OneRoute

variable {s : RouteState} {v : BitVec 8} {n : BitVec 32}

/-- A client connects. -/
theorem accept : ∃ m,
    routeStep 2 60 ⟨commInit 2, 0, [], [], [], [], 0, true⟩ (.accept 4 100) =
      some ⟨m, 1, [4], [⟨4, 0⟩], [], [], 0, true⟩ ∧
    OneRoute ⟨m, 1, [4], [⟨4, 0⟩], [], [], 0, true⟩ fdStatReg 0 := by
  obtain ⟨m, hacc, hT, hnum⟩ := (tableHolds_init 2).accept (by decide)
    (show 4 < 2 ^ 31 by decide) (Set.notMem_empty 4) (by decide) 0 100
  have hset : insert 4 (∅ : Set ℕ) = {fd | fd ∈ [(⟨4, 0⟩ : Conn)].map Conn.fd} := by
    ext k
    simp
  rw [hset] at hT
  refine ⟨m, ?_, rfl, ⟨_, hT, rfl⟩, ?_⟩
  · rw [routeStep, if_pos ⟨by decide, by simp, by decide⟩]
    show (match newAccept (commInit 2) 2 0 4 100 with | some (mem, gssn) => _ | none => _) = _
    rw [hacc]
    rfl
  · rw [hnum, (commInit_rep 2).2 0 (by decide)]

/-- An event is recorded. -/
theorem event (h : OneRoute s v n) : ∃ m, routeStep 2 60 s (.event 4) = some { s with mem := m } ∧
    OneRoute { s with mem := m } fdStatPoll (n + 1) := by
  obtain ⟨T, hT, h0⟩ := h.table
  have hlist : T (4 % 2) = [⟨4, 0, 100, v⟩] := h0
  have hpos : getConnectPos s.mem (4 % 2) (BitVec.ofNat 32 4) = some 0 := by
    rw [(hT.rep 0 (by decide)).getConnectPos_rep (by decide), h0]
    rfl
  obtain ⟨hT', hself, -⟩ := hT.pollEvent_some (by decide) hpos (by rw [hlist]; exact Nat.one_pos)
  refine ⟨pollEvent s.mem 2 4, ?_, h.opened, ⟨_, hT', ?_⟩, ?_⟩
  · rw [routeStep, if_pos (by decide), hpos]
    rfl
  · show Function.update T (4 % 2) _ (4 % 2) = _
    simp only [Function.update_self, hlist]
    rfl
  · show getCommClientNum (pollEvent s.mem 2 4) (4 % 2) = _
    rw [hself]
    exact congrArg (· + 1) h.num

/-- The reader claims the connection. -/
theorem claim (h : OneRoute s fdStatPoll n) (hn : n ≠ 0) : ∃ m,
    readClaim s.mem 0 = .claimed m 0 oneClient ∧
    OneRoute { s with mem := m } fdStatRead (n - 1) := by
  obtain ⟨T, hT, h0⟩ := h.table
  have hclaim := hT.readClaim_eq_claimed (i := 0) (j := 0) (by decide) (h.num ▸ hn)
    (by rw [h0]; decide) (by rw [h0]; rfl)
  obtain ⟨-, -, -, hT', -, hself, -⟩ := hT.of_readClaim_claimed (by decide) hclaim
  refine ⟨claimSlot s.mem 0 0, ?_, h.opened, ⟨_, hT', ?_⟩, ?_⟩
  · rw [hclaim]
    simp only [h0]
    rfl
  · simp only [Function.update_self, h0]
    rfl
  · show getCommClientNum (claimSlot s.mem 0 0) 0 = _
    rw [hself, h.num]

end OneRoute

/-- In a server with two reader threads a client connects, sends a request, and a worker replies. -/
theorem exists_oneReply : ∃ s, (routeSystem 2 60).Reach (routeGuard 2 60) s ∧
    s.opened = [⟨4, 0⟩] ∧ s.log = [oneRequest] ∧ s.replies = [oneReply] ∧ s.writing = true := by
  obtain ⟨m1, hacc, h1⟩ := OneRoute.accept
  obtain ⟨m2, hevent, h2⟩ := h1.event
  obtain ⟨m3, hclaim, -⟩ := h2.claim (by decide)
  have hreach2 : (routeSystem 2 60).Reach (routeGuard 2 60)
      ⟨m2, 1, [4], [⟨4, 0⟩], [], [], 0, true⟩ :=
    .step (a := .event 4) (.step (a := .accept 4 100) (.init rfl) trivial hacc) trivial hevent
  -- the read
  have hreach3 : (routeSystem 2 60).Reach (routeGuard 2 60)
      ⟨m3, 1, [4], [⟨4, 0⟩], [oneRequest], [], 0, true⟩ := by
    refine hreach2.step (a := .read 0 testsvrMb ⟨none, none, 8192⟩ 0 []
      ⟨requestFrame testsvrReqHead [65, 66], []⟩) (fun mem j tClient hcl hclosed ↦ ?_) ?_
    · rw [hclaim] at hcl
      obtain ⟨-, -, rfl⟩ := Claim.claimed.inj hcl
      exact absurd (readTask_oneRequest.symm.trans hclosed) (by simp)
    · show routeStep 2 60 _ _ = _
      rw [routeStep, if_pos (by decide), hclaim]
      have hfind : ([⟨4, 0⟩] : List Conn).find? (·.fd = oneClient.fd.toNat) = some ⟨4, 0⟩ := rfl
      have hstep := routeRead_queued (s := ⟨m2, 1, [4], [⟨4, 0⟩], [], [], 0, true⟩)
        2 m3 hfind readTask_oneRequest
      rw [ofBytes_payload_requestMsgQueued] at hstep
      exact hstep
  -- the reply
  have hreply : tuxReturnReply testsvrMb ⟨none, none, 8192⟩ 0 oneRequest.head [] (some [67])
      (([67] : List UInt8).length : ℤ) 0 = some (0, [] ++ [oneReply]) :=
    tuxReturnReply_eq_ok 0 (by decide) ⟨rfl, rfl, by decide, by decide⟩ (by decide) (by decide)
      (by decide) (by decide)
  have hstep : (routeSystem 2 60).step ⟨m3, 1, [4], [⟨4, 0⟩], [oneRequest], [], 0, true⟩
      (.reply oneRequest testsvrMb ⟨none, none, 8192⟩ 0 (some [67]) 1 0)
      ⟨m3, 1, [4], [⟨4, 0⟩], [oneRequest], [oneReply], 0, true⟩ := by
    show routeStep 2 60 _ _ = _
    rw [routeStep, if_pos (List.mem_singleton_self _)]
    show (tuxReturnReply testsvrMb ⟨none, none, 8192⟩ 0 oneRequest.head [] (some [67])
      (([67] : List UInt8).length : ℤ) 0).map _ = _
    rw [hreply]
    rfl
  exact ⟨_, .step hreach3 (show routeGuard 2 60 _ (.reply ..) from trivial) hstep, rfl, rfl, rfl, rfl⟩

/-- The only connection of the runs below is in the first shard, under the number 0. -/
theorem RouteInv.inTable_zero {s : RouteState} {T : ℕ → List ConnectHandle} (h : RouteInv 2 s T)
    (hopen : s.opened = [⟨4, 0⟩]) : InTable s.mem 2 4 0 := by
  have hmem4 : 4 ∈ {fd | fd ∈ s.opened.map Conn.fd} := by simp [hopen]
  obtain ⟨c, hc, hkey⟩ := h.table.exists_of_mem hmem4
  have hmem := h.entry _ c hc
  rw [hopen, List.mem_singleton] at hmem
  have hssn : c.ssn.toNat = 0 := congrArg Conn.gen hmem
  obtain ⟨j, hj, rfl⟩ := List.mem_iff_getElem.1 hc
  exact (h.table.rep 0 (by decide)).inTable hj ((ConnectHandle.key_eq_iff _ (by decide)).1 hkey)
    (BitVec.eq_of_toNat_eq hssn)

/-- The iteration that receives the reply. -/
theorem writeTask_oneReply {s : RouteState} {T : ℕ → List ConnectHandle} (h : RouteInv 2 s T)
    (hopen : s.opened = [⟨4, 0⟩]) (hreplies : s.replies = [oneReply]) :
    ∃ buf mem frame,
      tuxGetreply true none 0 s.replies commSMsgTypeRoot 0 = .got buf 97 [] ∧
      WriteGuard 2 s true none 0 ∧
      writeTask s.mem 2 0 true none 0 s.replies s.iBufLen = .write [] 97 mem 4 frame := by
  have htype : oneRequest.head.reqMsgType.toInt = commSMsgTypeRoot := by decide
  have hrcv : tuxGetreply true none 0 ([] ++ oneReply :: []) commSMsgTypeRoot 0 = _ :=
    tuxGetreply_of_first 0 0 htype (by decide) (by decide) (by decide) (List.forall_mem_nil _)
  obtain ⟨mem, hwrite⟩ := writeTask_reply (oneRequest.head.setLen (1 : ℕ)) [67] 0 0
    s.iBufLen (h.inTable_zero hopen) (by decide) htype (by decide) (List.forall_mem_nil _) []
  have hhead : IPCMsgHead.ofBytes (bufRead ((oneRequest.head.setLen (1 : ℕ)).toBytes ++ [67]) 0
      (sizeofIPCMsgHead + 1)) = oneRequest.head.setLen (1 : ℕ) := by
    have hread := bufRead_zero_length ((oneRequest.head.setLen (1 : ℕ)).toBytes ++ [67])
    rw [List.length_append, IPCMsgHead.toBytes_length, List.length_singleton] at hread
    rw [hread, IPCMsgHead.ofBytes_toBytes_append]
  have hgot : tuxGetreply true none 0 s.replies commSMsgTypeRoot 0 = .got _ 97 [] := hreplies ▸ hrcv
  refine ⟨_, mem, _, hgot, ⟨fun e rest hfail ↦ ?_, fun buf n rest hgot' ↦ .inr ?_⟩,
    hreplies ▸ hwrite⟩
  · rw [hgot] at hfail
    cases hfail
  · obtain ⟨rfl, -, -⟩ := GetReply.got.inj (hgot.symm.trans hgot')
    rw [hhead]
    obtain ⟨j, hj, hocc, -, hnum⟩ := h.inTable_zero hopen
    exact ⟨j, hj, hocc j (Nat.le_refl j), hnum⟩

/-- The reply is delivered to the connection on the descriptor 4. -/
theorem replies_reach_their_connection_one :
    ∃ s mem frame, s.opened = [⟨4, 0⟩] ∧
      writeTask s.mem 2 0 true none 0 s.replies s.iBufLen = .write [] 97 mem 4 frame ∧
      Delivered s true none 0 4 := by
  obtain ⟨s, hreach, hopen, -, hreplies, -⟩ := exists_oneReply
  obtain ⟨T, hT⟩ := exists_routeInv (by decide) (by decide) hreach
  obtain ⟨buf, mem, frame, -, hguard, hwrite⟩ := writeTask_oneReply hT hopen hreplies
  have hroute := replies_reach_their_connection (by decide) (by decide) 60 hreach 0 true none 0 hguard
  exact ⟨s, mem, frame, hopen, hwrite, hroute.1 [] 97 mem 4 frame hwrite⟩

/-- After that iteration a signal interrupts `tux_getreply`: the loop goes on with a cleared buffer and
the length of the last reply, finds the first connection by its number 0, and writes to the descriptor
0. -/
theorem not_delivered_after_failed_getreply :
    ∃ s junk rest n mem frame, (routeSystem 2 60).Reach Guarded.always s ∧
      writeTask s.mem 2 junk true (some EINTR) 0 s.replies s.iBufLen = .write rest n mem 0 frame ∧
      ¬ Delivered s true (some EINTR) 0 0 := by
  obtain ⟨s, hreach, hopen, -, hreplies, hwriting⟩ := exists_oneReply
  obtain ⟨T, hT⟩ := exists_routeInv (by decide) (by decide) hreach
  obtain ⟨buf, mem, frame, -, hguard, hwrite⟩ := writeTask_oneReply hT hopen hreplies
  have hreach' : (routeSystem 2 60).Reach (routeGuard 2 60)
      { s with mem := mem, replies := [], iBufLen := 97 } := by
    refine hreach.step (a := .write 0 true none 0) hguard ?_
    show routeStep 2 60 _ _ = _
    rw [routeStep, if_pos hwriting, hwrite]
  obtain ⟨T', hT'⟩ := exists_routeInv (by decide) (by decide) hreach'
  obtain ⟨i, hi⟩ := getConnInf_of_inTable (hT'.inTable_zero hopen)
  refine ⟨_, 0, [], 97, setCommClientStat mem 0 i fdStatWrite, rspFrame [] 41,
    hreach'.mono fun _ _ _ ↦ trivial, ?_, ?_⟩
  · -- the cleared head has descriptor 0 and connection number 0
    have hinf : getConnInf mem ((IPCMsgHead.ofBytes []).fd.toNat % 2) (IPCMsgHead.ofBytes []).connSsn =
        some (i : ℤ) := hi
    have hmark : writeMark mem 2 0 (IPCMsgHead.ofBytes []).fd (IPCMsgHead.ofBytes []).connSsn =
        some (setCommClientStat mem 0 i fdStatWrite) := by
      simp only [writeMark, hinf, Option.getD_some, Int.toNat_natCast]
      exact if_neg (by omega)
    show writeResponse mem 2 0 [] 97 [] = _
    simp only [writeResponse, hmark]
    rw [if_neg (by decide)]
    congr 1
  · rintro ⟨buf, n, rest, hgot, -⟩
    cases hgot

end Sunda
