import Sunda.Tux.Tuxmgr
import Sunda.Base.Decimal

/-!
# Server lines of the configuration file

`register_server` (`Main/Governor.c`) stores one `tsk.task` line of the configuration file in an entry
of the server table: the program name and then `KEY=VALUE` fields. `tux_get_timeout`
(`pubfun/tux/tuxmgr.c`) looks a time-out up in the `sd.svc` lines. A line is the text that
`cf_nextparm` copies to a cleared buffer of 513 bytes.

The parser never reads the entry it writes, so what it writes is collected in a `SrvParm` and stored
at the end, also when it fails half-way. An outcome `none` is a NULL pointer handed to `strncpy` or
`strcpy`, or a parameter that does not fit its array.

The loop of the parser runs on fuel, and `parmLoop_fuel` says that the length of the text is enough of it:
every pass leaves a shorter text.
-/

namespace Sunda

open Bytes Decimal

/-! ### The server table -/

def svrPerm : ℤ := 1
def svrTemp : ℤ := 2
def svrReplyNeed : ℤ := 1
def svrReplyNoneed : ℤ := 2
def serverMaxParam : ℕ := 128

/-- An entry of `tSvrTab` with all its fields. -/
structure SvrTab extends ServerTab where
  name : List.Vector UInt8 33
  parm : List.Vector UInt8 129
  pidTot : ℤ
  rspQ : ℤ
  type : ℤ

/-- `sbSvrTabClear`. -/
def SvrTab.clear : SvrTab where
  svrid := -1
  name := charField 33 [] 0
  svcName := charField 33 [] 0
  parm := charField 129 [] 0
  pidTot := 0
  state := .clear
  rspQ := 0
  type := 0
  msgType := 0
  timeout := 0

/-- `SVR_MSG_TYPE_ROOT + svrid`, an `int` sum stored in a `long`. -/
def msgTypeOf (svrid : ℤ) : BitVec 64 :=
  (BitVec.ofInt 32 (svrMsgTypeRoot + svrid)).signExtend 64

/-! ### Text -/

/-- `strtok` on the string at the front of `s`: where its first token starts, and the token. -/
def strtok (delims s : List UInt8) : Option (ℕ × List UInt8) :=
  let lead := ((cstr s).takeWhile (· ∈ delims)).length
  let tok := ((cstr s).drop lead).takeWhile (· ∉ delims)
  if tok = [] then none else some (lead, tok)

/-- What `strtok` left behind the token: the terminating NUL it wrote is skipped. -/
def behind (s : List UInt8) (rc : ℕ) (tok : List UInt8) : List UInt8 :=
  s.drop (rc + tok.length + 1)

/-- `str_split(src, "= ", buf, 128, 1)`: the return value and `buf`. -/
def strSplit (src : List UInt8) : Option (ℕ × List UInt8) :=
  (strtok [61, 32] src).map fun r ↦ (r.1, r.2.take 128)

/-- `strchr(s, '"')`: the string behind the quote. -/
def behindQuote (s : List UInt8) : Option (List UInt8) :=
  if 34 ∈ cstr s then some (s.drop (((cstr s).takeWhile (· ≠ 34)).length + 1)) else none

/-- `strcpy` to an array. -/
def strcpyField {w : ℕ} (dst : List.Vector UInt8 w) (src : List UInt8) : List.Vector UInt8 w :=
  charField w (cstr src ++ 0 :: dst.toList.drop ((cstr src).length + 1)) 0

/-- `strncpy(dst, src, n)` with a string of at least `n` characters. -/
def strncpyField {w : ℕ} (dst : List.Vector UInt8 w) (src : List UInt8) : List.Vector UInt8 w :=
  charField w (src ++ dst.toList.drop src.length) 0

/-- The name of the program: `strtok`, `strncpy` to a cleared array, `AllTrim`. -/
def progName (tok : List UInt8) : List UInt8 :=
  cstr (allTrim (bufRead tok 0 tuxNameLen ++ [0]))

/-! ### The fields of a line -/

/-- What `register_server` writes to an entry. -/
structure SrvParm where
  name : List.Vector UInt8 33
  svcName : List.Vector UInt8 33
  parm : List.Vector UInt8 129
  pidTot : ℤ
  rspQ : ℤ
  /-- The id, once a field `SRVID` was read. -/
  svrid : Option ℤ

/-- The entry's fields when the loop starts. -/
def SrvParm.defaults (name : List UInt8) : SrvParm where
  name := charField 33 name 0
  svcName := charField 33 [] 0
  parm := charField 129 [] 0
  pidTot := 5
  rspQ := svrReplyNeed
  svrid := none

/-- The entry after the writes. `SVR_PERM`, which is stored in the state, is the value of
`TUX_AVAIL`. -/
def SrvParm.store (r : SrvParm) (e : SvrTab) : SvrTab :=
  { e with
    name := r.name
    svcName := r.svcName
    parm := r.parm
    pidTot := r.pidTot
    rspQ := r.rspQ
    state := .avail
    timeout := maxTimeoutSec
    svrid := r.svrid.getD e.svrid
    msgType := r.svrid.elim e.msgType msgTypeOf }

/-- The keys, in ASCII. -/
inductive Key
  | srvid
  | srvnum
  | rqaddr
  | replyq
  | srvparm
  | other
  deriving DecidableEq

def Key.ofText (t : List UInt8) : Key :=
  if t = [83, 82, 86, 73, 68] then .srvid
  else if t = [83, 82, 86, 78, 85, 77] then .srvnum
  else if t = [82, 81, 65, 68, 68, 82] then .rqaddr
  else if t = [82, 69, 80, 76, 89, 81] then .replyq
  else if t = [83, 82, 86, 80, 65, 82, 77] then .srvparm
  else .other

/-- One assignment of the loop. -/
def SrvParm.assign (r : SrvParm) (val : List UInt8) : Key → SrvParm
  | .srvid => { r with svrid := some (atoi val) }
  | .srvnum => { r with pidTot := atoi val }
  | .rqaddr => { r with svcName := strcpyField r.svcName (progName val) }
  | .replyq =>
    { r with rspQ := if val.head? = some 89 ∨ val.head? = some 121 then svrReplyNeed
      else svrReplyNoneed }
  | .srvparm => { r with parm := strncpyField r.parm val }
  | .other => r

/-- The loop of `register_server`, with `p` at the front of the text. Every pass moves `p` ahead, so
the length of the text is fuel enough (`parmLoop_fuel`). -/
def parmLoop : ℕ → SrvParm → List UInt8 → Option (ℤ × SrvParm)
  | 0, r, _ => some (0, r)
  | fuel + 1, r, p =>
    match strSplit p with
    | none => some (0, r)
    | some (rc, temp) =>
      let p := behind p rc temp
      match Key.ofText temp with
      | .other => parmLoop fuel r p
      | .srvparm =>
        match behindQuote p with
        | none => some (-1, r)
        | some q =>
          match behindQuote q with
          | none => some (-2, r)
          | some rest =>
            let val := (cstr q).takeWhile (· ≠ 34)
            if serverMaxParam + 1 < val.length then none
            else parmLoop fuel (r.assign val .srvparm) rest
      | key =>
        match strSplit p with
        | none => some (0, r)
        | some (rc, val) => parmLoop fuel (r.assign val key) (behind p rc val)

/-- The text behind the program name, after `strtok(NULL, " ")`. -/
def parmText (buf : List UInt8) : Option (List UInt8) :=
  (strtok [32] buf).bind fun r ↦
    let rest := behind buf r.1 r.2
    (strtok [32] rest).map fun r ↦ r.2 ++ 0 :: behind rest r.1 r.2

/-- The program name of a line. -/
def lineName (buf : List UInt8) : Option (List UInt8) :=
  (strtok [32] buf).map fun r ↦ progName r.2

/-- What the fields of a line make of the defaults, with the return value. -/
def parseLine (buf : List UInt8) : Option (ℤ × SrvParm) :=
  (lineName buf).bind fun name ↦ (parmText buf).bind fun p ↦
    parmLoop (p.length + 1) (.defaults name) p

/-- `register_server`, with the entry it fills. `exec` says which programs are there. -/
def registerServer (exec : List UInt8 → Bool) (e : SvrTab) (buf : List UInt8) :
    Option (ℤ × SvrTab) :=
  (lineName buf).bind fun name ↦
    if exec name = false then some (1, e)
    else (parseLine buf).map fun r ↦ (r.1, r.2.store e)

/-- The line `<name> SRVID=<id> SRVNUM=<num>`, with one character for each of the three. -/
def shortLine (name id num : UInt8) : List UInt8 :=
  [name, 32, 83, 82, 86, 73, 68, 61, id, 32, 83, 82, 86, 78, 85, 77, 61, num]

example : (parseLine (shortLine 97 49 50)).map (fun r ↦ (r.1, r.2.svrid, r.2.pidTot)) =
    some (0, some 1, 2) := by
  decide +kernel

/-! ### Time-outs -/

/-- The loop of `tux_get_timeout`. -/
def timeoutLoop (svrName : List UInt8) : List (List UInt8) → ℤ
  | [] => maxTimeoutSec
  | buf :: rest =>
    match strtok [32] buf with
    | none => timeoutLoop svrName rest
    | some (rc, p) =>
      if strncmpEq tuxNameLen (p.take tuxNameLen) svrName = false then timeoutLoop svrName rest
      else
        match strtok [32] (behind buf rc p) with
        | none => maxTimeoutSec
        | some (_, p) => atoi p

/-- `tux_get_timeout`, with the `sd.svc` lines if the file can be opened. -/
def tuxGetTimeout (svc : Option (List (List UInt8))) (svrName : List UInt8) : ℤ :=
  svc.elim maxTimeoutSec (timeoutLoop svrName)

/-! ### Lemmas -/

theorem strtok_lt {delims s tok : List UInt8} {rc : ℕ} (h : strtok delims s = some (rc, tok)) :
    (behind s rc tok).length < s.length := by
  simp only [strtok] at h
  split at h
  · cases h
  · next hne =>
    obtain ⟨rfl, rfl⟩ := Prod.mk.inj (Option.some.inj h)
    have hlen : ((cstr s).drop ((cstr s).takeWhile (· ∈ delims)).length).length ≠ 0 := fun h0 ↦
      hne (by rw [List.eq_nil_of_length_eq_zero h0, List.takeWhile_nil])
    have hle := cstr_length_le s
    rw [List.length_drop] at hlen
    rw [behind, List.length_drop]
    omega

theorem strSplit_lt {s tok : List UInt8} {rc : ℕ} (h : strSplit s = some (rc, tok)) :
    (behind s rc tok).length < s.length := by
  obtain ⟨⟨rc', tok'⟩, htok, heq⟩ := Option.map_eq_some_iff.1 h
  obtain ⟨rfl, rfl⟩ := Prod.mk.inj heq
  have hlt := strtok_lt htok
  simp only [behind, List.length_drop, List.length_take] at hlt ⊢
  omega

theorem behindQuote_le {s q : List UInt8} (h : behindQuote s = some q) : q.length ≤ s.length := by
  rw [behindQuote] at h
  split at h
  · obtain rfl := Option.some.inj h
    rw [List.length_drop]
    omega
  · cases h

/-- More fuel than characters changes nothing. -/
theorem parmLoop_fuel {fuel : ℕ} (r : SrvParm) (p : List UInt8) (h : p.length < fuel) :
    parmLoop fuel r p = parmLoop (p.length + 1) r p := by
  induction fuel using Nat.strong_induction_on generalizing r p with
  | _ fuel ih =>
    -- both sides make the same pass and go on with a shorter text
    have hgo (r : SrvParm) (q : List UInt8) (hq : q.length < p.length) :
        parmLoop (fuel - 1) r q = parmLoop p.length r q := by
      rcases eq_or_ne (fuel - 1) p.length with heq | hne
      · rw [heq]
      · rw [ih (fuel - 1) (by omega) r q (by omega), ih p.length (by omega) r q hq]
    obtain ⟨k, rfl⟩ := Nat.exists_eq_succ_of_ne_zero (show fuel ≠ 0 by omega)
    rw [Nat.succ_sub_one] at hgo
    rw [parmLoop, parmLoop]
    cases hs : strSplit p with
    | none => rfl
    | some s =>
      obtain ⟨rc, temp⟩ := s
      have hlt := strSplit_lt hs
      have hval (key : Key) :
          (match strSplit (behind p rc temp) with
            | none => some (0, r)
            | some (rc', val) =>
              parmLoop k (r.assign val key) (behind (behind p rc temp) rc' val)) =
          match strSplit (behind p rc temp) with
            | none => some (0, r)
            | some (rc', val) =>
              parmLoop p.length (r.assign val key) (behind (behind p rc temp) rc' val) := by
        cases hs' : strSplit (behind p rc temp) with
        | none => rfl
        | some s' => exact hgo _ _ ((strSplit_lt hs').trans hlt)
      dsimp only
      cases Key.ofText temp with
      | other => exact hgo _ _ hlt
      | srvparm =>
        dsimp only
        cases hq : behindQuote (behind p rc temp) with
        | none => rfl
        | some q =>
          dsimp only
          cases hq' : behindQuote q with
          | none => rfl
          | some rest =>
            have hle := behindQuote_le hq
            have hle' := behindQuote_le hq'
            dsimp only
            rw [hgo _ rest (by omega)]
      | srvid => exact hval .srvid
      | srvnum => exact hval .srvnum
      | rqaddr => exact hval .rqaddr
      | replyq => exact hval .replyq

/-- **A run of the loop** keeps what every assignment keeps, and returns at most 0. -/
theorem parmLoop_keeps {I : SrvParm → Prop} (hassign : ∀ r val key, I r → I (r.assign val key))
    {fuel : ℕ} {r r' : SrvParm} {p : List UInt8} {rc : ℤ} (h : parmLoop fuel r p = some (rc, r'))
    (hr : I r) : I r' ∧ rc ≤ 0 := by
  have hend {rc₀ : ℤ} {r₀ : SrvParm} (h : some (rc₀, r₀) = some (rc, r')) (hI : I r₀)
      (hrc : rc₀ ≤ 0) : I r' ∧ rc ≤ 0 := by
    obtain ⟨rfl, rfl⟩ := Prod.mk.inj (Option.some.inj h)
    exact ⟨hI, hrc⟩
  induction fuel generalizing r p with
  | zero => exact hend h hr le_rfl
  | succ fuel ih =>
    rw [parmLoop] at h
    split at h
    · exact hend h hr le_rfl
    · dsimp only at h
      split at h
      · exact ih h hr
      · -- the quoted field
        split at h
        · exact hend h hr (by decide)
        · split at h
          · exact hend h hr (by decide)
          · split at h
            · cases h
            · exact ih h (hassign _ _ _ hr)
      · split at h
        · exact hend h hr le_rfl
        · exact ih h (hassign _ _ _ hr)

/-- A line either names a program that is not there, or its fields are stored. -/
theorem of_registerServer {exec : List UInt8 → Bool} {e e' : SvrTab} {buf : List UInt8} {rc : ℤ}
    (h : registerServer exec e buf = some (rc, e')) :
    (rc = 1 ∧ e' = e) ∨ ∃ r, parseLine buf = some (rc, r) ∧ e' = r.store e := by
  obtain ⟨name, -, hname⟩ := Option.bind_eq_some_iff.1 h
  split at hname
  · obtain ⟨rfl, rfl⟩ := Prod.mk.inj (Option.some.inj hname)
    exact .inl ⟨rfl, rfl⟩
  · obtain ⟨⟨rc', r⟩, hr, heq⟩ := Option.map_eq_some_iff.1 hname
    obtain ⟨rfl, rfl⟩ := Prod.mk.inj heq
    exact .inr ⟨r, hr, rfl⟩

/-- The values of an `int`. -/
def IntRange (v : ℤ) : Prop := -2 ^ 31 ≤ v ∧ v < 2 ^ 31

theorem intRange_atoi (val : List UInt8) : IntRange (Decimal.atoi val) :=
  ⟨BitVec.le_toInt _, BitVec.toInt_lt⟩

/-- An id on a line is an `int`. -/
theorem intRange_of_parseLine {buf : List UInt8} {rc : ℤ} {r : SrvParm}
    (h : parseLine buf = some (rc, r)) : ∀ v, r.svrid = some v → IntRange v := by
  obtain ⟨name, -, h⟩ := Option.bind_eq_some_iff.1 h
  obtain ⟨p, -, h⟩ := Option.bind_eq_some_iff.1 h
  refine (parmLoop_keeps (I := fun r ↦ ∀ v, r.svrid = some v → IntRange v) (fun r val key hr v hv ↦ ?_) h
    fun v hv ↦ by cases hv).1
  cases key with
  | srvid =>
    obtain rfl := Option.some.inj hv
    exact intRange_atoi val
  | srvnum => exact hr v hv
  | rqaddr => exact hr v hv
  | replyq => exact hr v hv
  | srvparm => exact hr v hv
  | other => exact hr v hv

end Sunda
