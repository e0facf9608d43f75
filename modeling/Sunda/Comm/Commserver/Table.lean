import Sunda.Base.WordMem
import Mathlib.Data.List.Basic
import Mathlib.Data.List.TakeWhile
import Mathlib.Data.Int.Notation

/-!
# The connection table

The array `client_ctrl` of `comm/commserver/commserver.c` and the functions that work on it. There
is one entry, a *shard*, for each reader thread; it holds a counter `num` and `MAX_FD_NUM` slots for
connections. A free slot has the descriptor -1, and every loop stops at the first free slot.

The table is a block of words, in which a slot takes four: `fd`, `ssn`, `utime` and the byte
`status`. `commClearFd` copies words as the macro does, so what it does to other shards when it
leaves its own is part of the model.
-/

namespace Sunda

open WordMem

def socketMsgHeadLen : ℕ := 4
def maxFdNum : ℕ := 1000
def maxTreadNum : ℕ := 20

def fdStatReg : BitVec 8 := 0
def fdStatPoll : BitVec 8 := 1
def fdStatRead : BitVec 8 := 2
def fdStatWrite : BitVec 8 := 3

/-- `connect_handle_t`. -/
@[ext]
structure ConnectHandle where
  fd : BitVec 32
  ssn : BitVec 32
  utime : BitVec 32
  status : BitVec 8
  deriving DecidableEq

/-! ### Addresses and macros -/

/-- `sizeof(connect_handle_t)`, in words. -/
def sizeofConnect : ℕ := 4

/-- `sizeof(client_handle_t)`, in words. -/
def sizeofClient : ℕ := 4001

/-- `&client_ctrl[i].num`. -/
def numAt (i : ℕ) : ℕ := sizeofClient * i

/-- `&client_ctrl[i].connect[j]`. -/
def connectAt (i j : ℕ) : ℕ := sizeofClient * i + 1 + sizeofConnect * j

def getCommClientNum (m : WordMem) (i : ℕ) : BitVec 32 := m (numAt i)
def getCommClientFD (m : WordMem) (i j : ℕ) : BitVec 32 := m (connectAt i j)
def getCommClientSsn (m : WordMem) (i j : ℕ) : BitVec 32 := m (connectAt i j + 1)
def getCommClientTime (m : WordMem) (i j : ℕ) : BitVec 32 := m (connectAt i j + 2)
def getCommClientStat (m : WordMem) (i j : ℕ) : BitVec 8 := m.byte (connectAt i j + 3)

def setCommClientNum (m : WordMem) (i : ℕ) (v : BitVec 32) : WordMem := m.store (numAt i) v
def setCommClientStat (m : WordMem) (i j : ℕ) (v : BitVec 8) : WordMem :=
  m.storeByte (connectAt i j + 3) v

/-- The slot `connect[j]` of shard `i`. -/
def connect (m : WordMem) (i j : ℕ) : ConnectHandle where
  fd := getCommClientFD m i j
  ssn := getCommClientSsn m i j
  utime := getCommClientTime m i j
  status := getCommClientStat m i j

/-- `CommHandClear`. -/
def commHandClear (m : WordMem) (i : ℕ) : WordMem :=
  setCommClientNum (m.fill (numAt i) sizeofClient 0) i 0

/-- `InitConnect`. -/
def initConnect (m : WordMem) (i j : ℕ) : WordMem :=
  (m.store (connectAt i j) (-1)).storeByte (connectAt i j + 3) (-1)

/-- `CommClearFd`. The block is moved towards lower addresses. -/
def commClearFd (m : WordMem) (i j : ℕ) : WordMem :=
  initConnect (m.copy (connectAt i j) (connectAt i (j + 1)) (sizeofConnect * (maxFdNum - i - 1)))
    i (maxFdNum - 1)

/-- The table part of `comm_init`, for `num` shards of a table with static storage. -/
@[irreducible]
def commInit (num : ℕ) : WordMem :=
  (List.range num).foldl (fun m i ↦ (List.range maxFdNum).foldl (initConnect · i) (commHandClear m i))
    fun _ ↦ 0

/-! ### Functions -/

/-- A loop over the slots of a shard that stops at the first one with `P`. -/
@[irreducible]
def findSlot (P : ℕ → Bool) : Option ℕ :=
  (List.range maxFdNum).find? P

/-- `get_connect_pos`. -/
def getConnectPos (m : WordMem) (idx : ℕ) (fd : BitVec 32) : Option ℕ :=
  findSlot fun i ↦
    if fd ≠ -1 then getCommClientFD m idx i == fd else getCommClientFD m idx i == -1

/-- `get_conn_inf`, with the shard `sock_id % num`. `none` is the end of the function without a
`return`, where the value is undefined. -/
def getConnInf (m : WordMem) (idx : ℕ) (ssn : BitVec 32) : Option ℤ :=
  (findSlot fun i ↦
      getCommClientFD m idx i == -1 || getCommClientSsn m idx i == ssn).map fun i ↦
    if getCommClientFD m idx i ≠ -1 then (i : ℤ) else -1

/-- `get_read_fd`. -/
def getReadFd (m : WordMem) (idx : ℕ) : Option ℕ :=
  (findSlot fun i ↦
      decide ((getCommClientFD m idx i).toInt < 0) || getCommClientStat m idx i == fdStatPoll).filter fun i ↦
    decide (¬ (getCommClientFD m idx i).toInt < 0)

/-- `getconnetcount`. -/
def getConnetCount (m : WordMem) (idx : ℕ) : ℕ :=
  ((List.range maxFdNum).takeWhile (getCommClientFD m idx · != -1)).length

/-- The four assignments of `new_accept`. -/
def putConnect (m : WordMem) (i j : ℕ) (c : ConnectHandle) : WordMem :=
  let m1 := m.store (connectAt i j) c.fd
  let m2 := m1.store (connectAt i j + 1) c.ssn
  let m3 := m2.store (connectAt i j + 2) c.utime
  setCommClientStat m3 i j c.status

/-- `new_accept`, once the connection is accepted and non-blocking. `none` is a shard without a free
slot, where the new descriptor is closed. `gssn` is returned as it is afterwards. -/
def newAccept (m : WordMem) (num : ℕ) (gssn : BitVec 32) (sockfd : ℕ) (currTime : BitVec 32) :
    Option (WordMem × BitVec 32) :=
  let idx := sockfd % num
  (getConnectPos m idx (-1)).map fun pos ↦
    (putConnect m idx pos ⟨BitVec.ofNat 32 sockfd, gssn, currTime, fdStatReg⟩, gssn + 1)

/-- The slot at which the loop of `del_connect_fd` finds the descriptor. -/
def delPos (m : WordMem) (idx : ℕ) (fd : BitVec 32) : Option ℕ :=
  (findSlot fun i ↦
      getCommClientFD m idx i == -1 || getCommClientFD m idx i == fd).filter fun i ↦
    getCommClientFD m idx i != -1

/-- A counter decremented, but not below 0. -/
def decNum (v : BitVec 32) : BitVec 32 :=
  if v = 0 then 0 else v - 1

/-- What `del_connect_fd` does at the slot it found. The counter it decrements is the one of the shard
whose number is the slot. -/
def delSlot (m : WordMem) (idx i : ℕ) : WordMem :=
  commClearFd
    (if getCommClientStat m idx i = fdStatPoll then
      setCommClientNum m i (decNum (getCommClientNum m i))
    else m)
    idx i

/-- `del_connect_fd`, the table part. -/
def delConnectFd (m : WordMem) (num fd : ℕ) : WordMem :=
  (delPos m (fd % num) (BitVec.ofNat 32 fd)).elim m (delSlot m (fd % num))

/-- The condition of `clean_time_out_connect` for closing `connect[j]` of shard `i`. -/
def timedOut (m : WordMem) (idletime currtime : BitVec 32) (i j : ℕ) : Prop :=
  getCommClientFD m i j ≠ -1 ∧ idletime ≤ currtime - getCommClientTime m i j

instance (m : WordMem) (idletime currtime : BitVec 32) (i j : ℕ) :
    Decidable (timedOut m idletime currtime i j) :=
  inferInstanceAs (Decidable (_ ∧ _))

/-- The inner loop of `clean_time_out_connect`: `j` is 0 at every pass, as it is decremented after
each deletion. It returns the table and the descriptors it closed; `none` means that `fuel` passes
were not enough. -/
def cleanShard (idletime currtime : BitVec 32) (i : ℕ) :
    ℕ → WordMem → Option (WordMem × List (BitVec 32))
  | 0, _ => none
  | fuel + 1, m =>
    if timedOut m idletime currtime i 0 then
      (cleanShard idletime currtime i fuel (commClearFd m i 0)).map fun r ↦
        (r.1, getCommClientFD m i 0 :: r.2)
    else some (m, [])

/-- The outer loop of `clean_time_out_connect`, from shard `i` on, with `k` shards to go. -/
def cleanShards (idletime currtime : BitVec 32) (fuel : ℕ) :
    ℕ → ℕ → WordMem → Option (WordMem × List (BitVec 32))
  | 0, _, m => some (m, [])
  | k + 1, i, m =>
    (cleanShard idletime currtime i fuel m).bind fun r ↦
      (cleanShards idletime currtime fuel k (i + 1) r.1).map fun r' ↦ (r'.1, r.2 ++ r'.2)

/-- `clean_time_out_connect`, the table part. -/
def cleanTimeOutConnect (m : WordMem) (num : ℕ) (idletime currtime : BitVec 32) (fuel : ℕ) :
    Option (WordMem × List (BitVec 32)) :=
  cleanShards idletime currtime fuel num 0 m

end Sunda
