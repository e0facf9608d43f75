import Sunda.Main.Governor.Config

/-!
# Renderings of a server record

A server line is a program name and `KEY=VALUE` fields, in any order and with any number of blanks in
front of each. `SrvRecord` is what such a line says, `Rendering` a way to write it, and
`SrvRecord.entry` the table entry that it asks for.

`register_server` takes the name and then the first field off the line with `strtok`, which stores a
NUL behind each, and goes on from the first field by counting characters. An unquoted value is counted
with the character behind it, so the scan steps over that NUL (`parmLoop_field`) and sees the rest of
the line. A quoted value ends at its quote (`parmLoop_srvparm`): the scan stops in front of the NUL,
and a value with a blank is cut by it. This is the only difference between the fields, and it counts
only where the quoted one comes first.
-/

namespace Sunda

open Bytes Decimal

/-! ### Records -/

/-- A value of type `int`. -/
abbrev IntVal : Type :=
  { v : ℤ // -2 ^ 31 ≤ v ∧ v < 2 ^ 31 }

/-- A program name. -/
structure ProgName where
  chars : List UInt8
  ne_nil : chars ≠ []
  length_le : chars.length ≤ tuxNameLen
  noNul : 0 ∉ chars

/-- A request address. -/
structure Address where
  chars : List UInt8
  ne_nil : chars ≠ []
  length_le : chars.length ≤ tuxNameLen
  noNul : 0 ∉ chars
  noBlank : 32 ∉ chars
  noEquals : 61 ∉ chars

/-- The text between the quotes of a parameter. -/
structure Quoted where
  chars : List UInt8
  length_le : chars.length ≤ serverMaxParam
  noNul : 0 ∉ chars
  noQuote : 34 ∉ chars

/-- A server record. -/
structure SrvRecord where
  name : ProgName
  srvid : Option IntVal
  srvnum : Option IntVal
  rqaddr : Option Address
  replyq : Option Bool
  srvparm : Option Quoted

/-- A field of a record with its value. -/
inductive Field
  | srvid (v : IntVal)
  | srvnum (v : IntVal)
  | rqaddr (a : Address)
  | replyq (yes : Bool)
  | srvparm (t : Quoted)

/-- The fields that a record has. -/
def SrvRecord.fields (rec : SrvRecord) : List Field :=
  (rec.srvid.map Field.srvid).toList ++ (rec.srvnum.map Field.srvnum).toList ++
    (rec.rqaddr.map Field.rqaddr).toList ++ (rec.replyq.map Field.replyq).toList ++
    (rec.srvparm.map Field.srvparm).toList

/-- The entry that a record asks for: its values, the defaults where it has none, and everything else
as before. -/
def SrvRecord.entry (rec : SrvRecord) (e : SvrTab) : SvrTab :=
  { e with
    name := charField 33 rec.name.chars 0
    svcName := charField 33 (rec.rqaddr.elim [] Address.chars) 0
    parm := charField 129 (rec.srvparm.elim [] Quoted.chars) 0
    pidTot := rec.srvnum.elim 5 Subtype.val
    rspQ := rec.replyq.elim svrReplyNeed fun yes ↦ if yes then svrReplyNeed else svrReplyNoneed
    state := .avail
    timeout := maxTimeoutSec
    svrid := rec.srvid.elim e.svrid Subtype.val
    msgType := rec.srvid.elim e.msgType fun v ↦ msgTypeOf v }

/-! ### Renderings -/

def Key.chars : Key → List UInt8
  | .srvid => text "SRVID"
  | .srvnum => text "SRVNUM"
  | .rqaddr => text "RQADDR"
  | .replyq => text "REPLYQ"
  | .srvparm => text "SRVPARM"
  | .other => []

namespace Field

def key : Field → Key
  | .srvid _ => .srvid
  | .srvnum _ => .srvnum
  | .rqaddr _ => .rqaddr
  | .replyq _ => .replyq
  | .srvparm _ => .srvparm

/-- The characters of the value, without the quotes. -/
def val : Field → List UInt8
  | .srvid v => sprintfd v
  | .srvnum v => sprintfd v
  | .rqaddr a => a.chars
  | .replyq yes => if yes then text "Y" else text "N"
  | .srvparm t => t.chars

/-- The value as it stands in the line. -/
def shown : Field → List UInt8
  | .srvparm t => 34 :: (t.chars ++ [34])
  | f => f.val

/-- `KEY=VALUE`. -/
def chars (f : Field) : List UInt8 :=
  f.key.chars ++ 61 :: f.shown

end Field

/-- Fields with one blank and more in front of each. -/
def renderFields (parts : List (ℕ × Field)) : List UInt8 :=
  parts.flatMap fun p ↦ List.replicate (p.1 + 1) 32 ++ p.2.chars

/-- A way to write a record: the order of its fields, and the number of further blanks in front of
each. -/
structure Rendering (rec : SrvRecord) where
  parts : List (ℕ × Field)
  perm : (parts.map Prod.snd).Perm rec.fields
  length_le : (rec.name.chars ++ renderFields parts).length ≤ 512

def Rendering.line {rec : SrvRecord} (r : Rendering rec) : List UInt8 :=
  rec.name.chars ++ renderFields r.parts

/-- `register_server` on the server table; all its writes go to the entry `svrnum`. -/
def registerServerAt {n : ℕ} (exec : List UInt8 → Bool) (tSvrTab : Fin n → SvrTab) (svrnum : Fin n)
    (buf : List UInt8) : Option (ℤ × (Fin n → SvrTab)) :=
  (registerServer exec (tSvrTab svrnum) buf).map fun r ↦
    (r.1, Function.update tSvrTab svrnum r.2)

/-- `register_server` returns 0 and makes the entry what the record asks for, and nothing else. -/
def Rendering.IsRegistered {rec : SrvRecord} (r : Rendering rec) {n : ℕ} (exec : List UInt8 → Bool)
    (tSvrTab : Fin n → SvrTab) (svrnum : Fin n) : Prop :=
  registerServerAt exec tSvrTab svrnum r.line =
    some (0, Function.update tSvrTab svrnum (rec.entry (tSvrTab svrnum)))

/-! ### Tokens -/

/-- A text that `str_split` returns whole. -/
structure IsWord (w : List UInt8) : Prop where
  ne_nil : w ≠ []
  length_le : w.length ≤ 128
  noNul : 0 ∉ w
  noBlank : 32 ∉ w
  noEquals : 61 ∉ w

/-- `strtok` skips the delimiters in front of a token, and ends it at a delimiter or a NUL. -/
theorem strtok_append {delims before tok rest : List UInt8} (hbefore : ∀ c ∈ before, c ∈ delims)
    (hz : 0 ∉ before ++ tok) (hne : tok ≠ []) (htok : ∀ c ∈ tok, c ∉ delims)
    (hrest : ∀ c ∈ rest.head?, c = 0 ∨ c ∈ delims) :
    strtok delims (before ++ (tok ++ rest)) = some (before.length, tok) := by
  have hstr : cstr (before ++ (tok ++ rest)) = before ++ (tok ++ cstr rest) := by
    rw [← List.append_assoc, cstr_append hz, List.append_assoc]
  have hhead : (tok ++ cstr rest).takeWhile (· ∈ delims) = [] := by
    obtain ⟨c, cs, rfl⟩ := List.exists_cons_of_ne_nil hne
    simp [htok c List.mem_cons_self]
  have hlead : (before ++ (tok ++ cstr rest)).takeWhile (· ∈ delims) = before := by
    rw [List.takeWhile_append_of_pos (by simpa using hbefore), hhead, List.append_nil]
  have hend : (cstr rest).takeWhile (· ∉ delims) = [] := by
    cases rest with
    | nil => rfl
    | cons c cs =>
      by_cases hc : c = 0
      · rw [hc, cstr_cons_zero]
        rfl
      · have hmem := (hrest c rfl).resolve_left hc
        rw [cstr_cons_of_ne hc]
        simp [hmem]
  have htake : (tok ++ cstr rest).takeWhile (· ∉ delims) = tok := by
    rw [List.takeWhile_append_of_pos (by simpa using htok), hend, List.append_nil]
  rw [strtok, hstr, hlead, List.drop_left, htake, if_neg hne]

/-- What `strtok` returns is a text without delimiters. -/
theorem strtok_spec {delims s tok : List UInt8} {rc : ℕ} (h : strtok delims s = some (rc, tok)) :
    tok ≠ [] ∧ 0 ∉ tok ∧ ∀ c ∈ tok, c ∉ delims := by
  rw [strtok] at h
  split at h
  · cases h
  · next hne =>
    obtain ⟨-, rfl⟩ := Prod.mk.inj (Option.some.inj h)
    refine ⟨hne, fun hz ↦ ?_, fun c hc ↦ ?_⟩
    · exact zero_notMem_cstr s (List.mem_of_mem_drop ((List.takeWhile_prefix _).subset hz))
    · simpa using List.mem_takeWhile_imp hc

/-- The text behind a token, without the character that ended it. -/
theorem behind_append (before tok rest : List UInt8) :
    behind (before ++ (tok ++ rest)) before.length tok = rest.drop 1 := by
  rw [behind, ← List.append_assoc, ← List.length_append, ← List.drop_drop, List.drop_left]

theorem strSplit_word {w rest : List UInt8} (hw : IsWord w) (k : ℕ)
    (hrest : ∀ c ∈ rest.head?, c = 0 ∨ c ∈ [61, 32]) :
    strSplit (List.replicate k 32 ++ (w ++ rest)) = some (k, w) := by
  have hblanks : ∀ c ∈ List.replicate k (32 : UInt8), c = 32 := fun c hc ↦ List.eq_of_mem_replicate hc
  have hz : 0 ∉ List.replicate k 32 ++ w := fun h ↦
    (List.mem_append.1 h).elim (fun h ↦ absurd (hblanks 0 h) (by decide)) hw.noNul
  have hword (c : UInt8) (hc : c ∈ w) : c ∉ [61, 32] := fun hd ↦ by
    rcases List.mem_pair.1 hd with rfl | rfl
    · exact hw.noEquals hc
    · exact hw.noBlank hc
  have htok : strtok [61, 32] (List.replicate k 32 ++ (w ++ rest)) =
      some ((List.replicate k (32 : UInt8)).length, w) :=
    strtok_append (fun c hc ↦ by simp [hblanks c hc]) hz hw.ne_nil hword hrest
  rw [strSplit, htok, Option.map_some, List.length_replicate, List.take_of_length_le hw.length_le]

theorem behind_word (k : ℕ) (w rest : List UInt8) :
    behind (List.replicate k 32 ++ (w ++ rest)) k w = rest.drop 1 := by
  have h := behind_append (List.replicate k 32) w rest
  rwa [List.length_replicate] at h

theorem isWord_key {k : Key} (hk : k ≠ .other) : IsWord k.chars := by
  cases k with
  | other => exact absurd rfl hk
  | srvid => exact ⟨by decide, by decide, by decide, by decide, by decide⟩
  | srvnum => exact ⟨by decide, by decide, by decide, by decide, by decide⟩
  | rqaddr => exact ⟨by decide, by decide, by decide, by decide, by decide⟩
  | replyq => exact ⟨by decide, by decide, by decide, by decide, by decide⟩
  | srvparm => exact ⟨by decide, by decide, by decide, by decide, by decide⟩

theorem ofText_chars (k : Key) : Key.ofText k.chars = k := by
  cases k <;> decide

/-- The text of an `int` is a sign and digits. -/
theorem isWord_sprintfd (v : IntVal) : IsWord (sprintfd v) := by
  have hlt : v.val.natAbs < 10 ^ 10 := by
    have h0 := v.2.1
    have h1 := v.2.2
    omega
  have hlen : (natText v.val.natAbs).length ≤ 10 := natText_length_le (by decide) hlt
  have hne : natText v.val.natAbs ≠ [] := fun h ↦ by
    have hscan := scanDigits_natText v.val.natAbs
    rw [natText] at h
    split at h
    · cases h
    · next h0 =>
      rw [List.map_eq_nil_iff, List.reverse_eq_nil_iff, Nat.digits_eq_nil_iff_eq_zero] at h
      exact h0 h
  have hchar (c : UInt8) (hc : isDigit c = false) (h45 : c ≠ 45) : c ∉ sprintfd v := fun hmem ↦ by
    rw [isDigit_of_mem_sprintfd hmem h45] at hc
    cases hc
  refine ⟨?_, ?_, hchar 0 (by decide) (by decide), hchar 32 (by decide) (by decide),
    hchar 61 (by decide) (by decide)⟩
  · rw [sprintfd]
    split
    · exact List.cons_ne_nil _ _
    · exact hne
  · rw [sprintfd]
    split
    · rw [List.length_cons]
      omega
    · omega

/-- An unquoted value. -/
theorem Field.isWord_val {f : Field} (hf : f.key ≠ .srvparm) : IsWord f.val := by
  cases f with
  | srvid v => exact isWord_sprintfd v
  | srvnum v => exact isWord_sprintfd v
  | rqaddr a =>
    exact ⟨a.ne_nil, a.length_le.trans (by decide), a.noNul, a.noBlank, a.noEquals⟩
  | replyq yes =>
    cases yes with
    | true => exact ⟨by decide, by decide, by decide, by decide, by decide⟩
    | false => exact ⟨by decide, by decide, by decide, by decide, by decide⟩
  | srvparm t => exact absurd rfl hf

theorem Field.exists_srvparm {f : Field} (hf : f.key = .srvparm) : ∃ t, f = .srvparm t := by
  cases f with
  | srvparm t => exact ⟨t, rfl⟩
  | srvid v => cases hf
  | srvnum v => cases hf
  | rqaddr a => cases hf
  | replyq yes => cases hf

theorem Field.key_ne_other (f : Field) : f.key ≠ .other := by
  cases f <;> exact Key.noConfusion

theorem Field.shown_eq_val {f : Field} (hf : f.key ≠ .srvparm) : f.shown = f.val := by
  cases f with
  | srvparm t => exact absurd rfl hf
  | srvid v => rfl
  | srvnum v => rfl
  | rqaddr a => rfl
  | replyq yes => rfl

/-! ### The loop of `register_server` -/

/-- One pass over a key with an unquoted value. -/
theorem parmLoop_value {fuel : ℕ} {r : SrvParm} {p key val : List UInt8} {rc rc' : ℕ} {k : Key}
    (hp : strSplit p = some (rc, key)) (hkey : Key.ofText key = k) (ho : k ≠ .other)
    (hq : k ≠ .srvparm) (hval : strSplit (behind p rc key) = some (rc', val)) :
    parmLoop (fuel + 1) r p =
      parmLoop fuel (r.assign val k) (behind (behind p rc key) rc' val) := by
  rw [parmLoop, hp]
  dsimp only
  rw [hkey]
  cases k with
  | other => exact absurd rfl ho
  | srvparm => exact absurd rfl hq
  | srvid => simp only [hval]
  | srvnum => simp only [hval]
  | rqaddr => simp only [hval]
  | replyq => simp only [hval]

/-- **An unquoted field** is read with the character behind it. -/
theorem parmLoop_field {f : Field} (hf : f.key ≠ .srvparm) (fuel k : ℕ) (r : SrvParm)
    {rest : List UInt8} (hrest : ∀ c ∈ rest.head?, c = 0 ∨ c = 32) :
    parmLoop (fuel + 1) r (List.replicate k 32 ++ (f.chars ++ rest)) =
      parmLoop fuel (r.assign f.val f.key) (rest.drop 1) := by
  have hkey := isWord_key f.key_ne_other
  have hval := f.isWord_val hf
  have hsplit : List.replicate k 32 ++ (f.chars ++ rest) =
      List.replicate k 32 ++ (f.key.chars ++ 61 :: (f.val ++ rest)) := by
    rw [Field.chars, Field.shown_eq_val hf, List.append_assoc, List.cons_append]
  have hbehind : behind (List.replicate k 32 ++ (f.key.chars ++ 61 :: (f.val ++ rest))) k f.key.chars =
      List.replicate 0 32 ++ (f.val ++ rest) := by
    rw [behind_word]
    rfl
  have hrest' (c : UInt8) (hc : c ∈ rest.head?) : c = 0 ∨ c ∈ [61, 32] :=
    (hrest c hc).imp_right fun h ↦ by simp [h]
  have hread : strSplit (List.replicate k 32 ++ (f.key.chars ++ 61 :: (f.val ++ rest))) =
      some (k, f.key.chars) := strSplit_word hkey k (by simp)
  rw [hsplit, parmLoop_value hread (ofText_chars f.key) f.key_ne_other hf
    (hbehind ▸ strSplit_word hval 0 hrest'), hbehind, behind_word]

theorem takeWhile_quote {s : List UInt8} (hz : 0 ∉ s) (hq : 34 ∉ s) (rest : List UInt8) :
    (cstr (s ++ 34 :: rest)).takeWhile (· ≠ 34) = s := by
  have hne (c : UInt8) (hc : c ∈ s) : decide (c ≠ 34) = true := decide_eq_true fun h ↦ hq (h ▸ hc)
  rw [cstr_append hz, cstr_cons_of_ne (by decide), List.takeWhile_append_of_pos hne]
  simp

theorem behindQuote_append {s : List UInt8} (hz : 0 ∉ s) (hq : 34 ∉ s) (rest : List UInt8) :
    behindQuote (s ++ 34 :: rest) = some rest := by
  have hmem : 34 ∈ cstr (s ++ 34 :: rest) := by
    rw [cstr_append hz, cstr_cons_of_ne (by decide)]
    simp
  rw [behindQuote, if_pos hmem, takeWhile_quote hz hq, ← List.drop_drop, List.drop_left]
  rfl

/-- The key of a quoted field, and what the first `strchr` is given. -/
theorem strSplit_srvparm (k : ℕ) (q : List UInt8) :
    strSplit (List.replicate k 32 ++ (Key.srvparm.chars ++ 61 :: q)) = some (k, Key.srvparm.chars) ∧
      behind (List.replicate k 32 ++ (Key.srvparm.chars ++ 61 :: q)) k Key.srvparm.chars = q :=
  ⟨strSplit_word (isWord_key (by decide)) k (by simp), behind_word k _ _⟩

/-- **A quoted field** is read up to its second quote. -/
theorem parmLoop_srvparm (t : Quoted) (fuel k : ℕ) (r : SrvParm) (rest : List UInt8) :
    parmLoop (fuel + 1) r (List.replicate k 32 ++ ((Field.srvparm t).chars ++ rest)) =
      parmLoop fuel (r.assign t.chars .srvparm) rest := by
  have hsplit : List.replicate k 32 ++ ((Field.srvparm t).chars ++ rest) =
      List.replicate k 32 ++ (Key.srvparm.chars ++ 61 :: 34 :: (t.chars ++ 34 :: rest)) := by
    simp [Field.chars, Field.shown, Field.key]
  obtain ⟨hkey, hbehind⟩ := strSplit_srvparm k (34 :: (t.chars ++ 34 :: rest))
  have hopen : behindQuote (34 :: (t.chars ++ 34 :: rest)) = some (t.chars ++ 34 :: rest) :=
    behindQuote_append (s := []) List.not_mem_nil List.not_mem_nil _
  have hfit : ¬ serverMaxParam + 1 < t.chars.length := by
    have hle := t.length_le
    omega
  rw [hsplit, parmLoop, hkey]
  dsimp only
  rw [hbehind, ofText_chars]
  dsimp only
  rw [hopen]
  dsimp only
  rw [behindQuote_append t.noNul t.noQuote]
  dsimp only
  rw [takeWhile_quote t.noNul t.noQuote, if_neg hfit]

/-- A quoted field that a NUL cuts short is an error. -/
theorem parmLoop_cut {t : List UInt8} (hz : 0 ∉ t) (hq : 34 ∉ t) (fuel : ℕ) (r : SrvParm)
    (rest : List UInt8) :
    parmLoop (fuel + 1) r (Key.srvparm.chars ++ 61 :: 34 :: (t ++ 0 :: rest)) = some (-2, r) := by
  obtain ⟨hkey, hbehind⟩ := strSplit_srvparm 0 (34 :: (t ++ 0 :: rest))
  rw [List.replicate_zero, List.nil_append] at hkey hbehind
  have hopen : behindQuote (34 :: (t ++ 0 :: rest)) = some (t ++ 0 :: rest) :=
    behindQuote_append (s := []) List.not_mem_nil List.not_mem_nil _
  have hclose : behindQuote (t ++ 0 :: rest) = none := by
    rw [behindQuote, cstr_append_zero hz, if_neg hq]
  rw [parmLoop, hkey]
  dsimp only
  rw [hbehind, ofText_chars]
  dsimp only
  rw [hopen]
  dsimp only
  rw [hclose]

/-- A NUL ends the loop. -/
theorem parmLoop_nul (fuel : ℕ) (r : SrvParm) {p : List UInt8} (hp : ∀ c ∈ p.head?, c = 0) :
    parmLoop fuel r p = some (0, r) := by
  have hsplit : strSplit p = none := by
    have hstr : cstr p = [] := by
      cases p with
      | nil => rfl
      | cons c cs =>
        rw [hp c rfl]
        exact cstr_cons_zero cs
    simp [strSplit, strtok, hstr]
  cases fuel with
  | zero => rfl
  | succ fuel => rw [parmLoop, hsplit]

/-- The values of the fields, one after the other. -/
def SrvParm.assignAll (r : SrvParm) (fs : List Field) : SrvParm :=
  fs.foldl (fun r f ↦ r.assign f.val f.key) r

theorem head_renderFields (parts : List (ℕ × Field)) : ∀ c ∈ (renderFields parts).head?, c = 32 := by
  cases parts with
  | nil => simp [renderFields]
  | cons p parts => simp [renderFields, List.replicate_succ]

theorem renderFields_cons (k : ℕ) (f : Field) (parts : List (ℕ × Field)) :
    renderFields ((k, f) :: parts) = List.replicate (k + 1) 32 ++ (f.chars ++ renderFields parts) := by
  simp [renderFields]

/-- **The fields behind the first one**, with or without the first blank in front of them. -/
theorem parmLoop_fields {parts : List (ℕ × Field)} {fuel : ℕ} (h : parts.length < fuel) (r : SrvParm) :
    parmLoop fuel r (renderFields parts) = some (0, r.assignAll (parts.map Prod.snd)) ∧
      parmLoop fuel r ((renderFields parts).drop 1) =
        some (0, r.assignAll (parts.map Prod.snd)) := by
  induction parts generalizing fuel r with
  | nil => exact ⟨parmLoop_nul fuel r (by simp [renderFields]), parmLoop_nul fuel r (by simp [renderFields])⟩
  | cons p parts ih =>
    obtain ⟨k, f⟩ := p
    obtain ⟨fuel, rfl⟩ := Nat.exists_eq_succ_of_ne_zero (Nat.ne_zero_of_lt h)
    obtain ⟨hall, hdrop⟩ := ih (Nat.lt_of_succ_lt_succ h) (r.assign f.val f.key)
    have hone (j : ℕ) : parmLoop (fuel + 1) r
        (List.replicate j 32 ++ (f.chars ++ renderFields parts)) =
          some (0, r.assignAll (((k, f) :: parts).map Prod.snd)) := by
      by_cases hf : f.key = .srvparm
      · obtain ⟨t, rfl⟩ := Field.exists_srvparm hf
        rw [parmLoop_srvparm]
        exact hall
      · rw [parmLoop_field hf fuel j r fun c hc ↦ .inr (head_renderFields parts c hc)]
        exact hdrop
    rw [renderFields_cons, List.replicate_succ]
    exact ⟨hone (k + 1), hone k⟩

/-! ### What the fields store -/

theorem trimmed_of_noBlank {s : List UInt8} (h : 32 ∉ s) : trimmed s = s := by
  have hne (c : UInt8) (hc : c ∈ s) : isBlank c = false := beq_false_of_ne fun heq ↦ h (heq ▸ hc)
  have hright : s.rdropWhile isBlank = s := List.rdropWhile_eq_self_iff.2 fun hnil ↦ by
    rw [hne _ (List.getLast_mem hnil)]
    exact Bool.false_ne_true
  have hleft : s.dropWhile isBlank = s := List.dropWhile_eq_self_iff.2 fun hlen ↦ by
    rw [hne _ (List.getElem_mem hlen)]
    exact Bool.false_ne_true
  rw [trimmed, hright, hleft]

theorem progName_eq (tok : List UInt8) : progName tok = trimmed (cstr (bufRead tok 0 tuxNameLen)) := by
  rw [progName, cstr_allTrim, cstr_append_singleton_zero]

/-- Of a token without blanks the name is as much as fits. -/
theorem progName_of_token {tok : List UInt8} (hz : 0 ∉ tok) (hb : 32 ∉ tok) :
    progName tok = tok.take tuxNameLen := by
  have hsub : tok.take tuxNameLen ⊆ tok := List.take_subset _ _
  rw [progName_eq, cstr_bufRead_take hz, trimmed_of_noBlank fun h ↦ hb (hsub h)]

theorem progName_of_noBlank {s : List UInt8} (hz : 0 ∉ s) (hb : 32 ∉ s) (hle : s.length ≤ tuxNameLen) :
    progName s = s := by
  rw [progName_of_token hz hb, List.take_of_length_le hle]

/-- A text at the front of a cleared array is the array that holds the text. -/
theorem charField_append_zeros {w : ℕ} (s : List UInt8) {zs : List UInt8}
    (hz : ∀ j, zs.getD j 0 = 0) : charField w (s ++ zs) 0 = charField w s 0 := by
  refine Subtype.ext (bufRead_congr fun k _ ↦ ?_)
  rcases Nat.lt_or_ge (0 + k) s.length with hlt | hge
  · rw [List.getD_append _ _ _ _ hlt]
  · rw [List.getD_append_right _ _ _ _ hge, hz, List.getD_eq_default _ _ hge]

theorem getD_clear (w n j : ℕ) : ((charField w [] 0).toList.drop n).getD j 0 = 0 := by
  have hclear : ((charField w [] 0).toList).getD (n + j) 0 = 0 := by
    show (bufRead [] 0 w).getD (n + j) 0 = 0
    rw [getD_bufRead]
    simp
  rw [List.getD_eq_getElem?_getD, List.getElem?_drop, ← List.getD_eq_getElem?_getD, hclear]

theorem strcpyField_clear {w : ℕ} {s : List UInt8} (hz : 0 ∉ s) :
    strcpyField (charField w [] 0) s = charField w s 0 := by
  rw [strcpyField, cstr_eq_self hz]
  refine charField_append_zeros s fun j ↦ ?_
  cases j with
  | zero => rfl
  | succ j => exact getD_clear w _ j

theorem strncpyField_clear {w : ℕ} (s : List UInt8) :
    strncpyField (charField w [] 0) s = charField w s 0 :=
  charField_append_zeros s (getD_clear w _)

/-- Assignments to two keys can be made in any order. -/
theorem SrvParm.assign_comm {k k' : Key} (h : k ≠ k') (r : SrvParm) (v v' : List UInt8) :
    (r.assign v k).assign v' k' = (r.assign v' k').assign v k := by
  cases k <;> cases k' <;> first | exact absurd rfl h | rfl

namespace SrvRecord

variable (rec : SrvRecord)

theorem mem_fields {rec : SrvRecord} {f : Field} :
    f ∈ rec.fields ↔ match f with
      | .srvid v => rec.srvid = some v
      | .srvnum v => rec.srvnum = some v
      | .rqaddr a => rec.rqaddr = some a
      | .replyq yes => rec.replyq = some yes
      | .srvparm t => rec.srvparm = some t := by
  cases f <;> simp [fields]

/-- A record has at most one field of each key. -/
theorem nodup_keys : (rec.fields.map Field.key).Nodup := by
  have hone {α : Type} (o : Option α) (F : α → Field) (k : Key) (hF : ∀ a, (F a).key = k) :
      ((o.map F).toList.map Field.key).Sublist [k] := by
    cases o with
    | none => exact List.nil_sublist _
    | some a => simp [hF a]
  have hsub : (rec.fields.map Field.key).Sublist
      ([Key.srvid] ++ [Key.srvnum] ++ [Key.rqaddr] ++ [Key.replyq] ++ [Key.srvparm]) := by
    simp only [fields, List.map_append]
    exact ((((hone rec.srvid Field.srvid .srvid fun _ ↦ rfl).append
      (hone rec.srvnum Field.srvnum .srvnum fun _ ↦ rfl)).append
      (hone rec.rqaddr Field.rqaddr .rqaddr fun _ ↦ rfl)).append
      (hone rec.replyq Field.replyq .replyq fun _ ↦ rfl)).append
      (hone rec.srvparm Field.srvparm .srvparm fun _ ↦ rfl)
  exact List.Nodup.sublist hsub (by decide)

/-- **The order of the fields** does not matter. -/
theorem assignAll_perm {fs : List Field} (h : fs.Perm rec.fields) (r : SrvParm) :
    r.assignAll fs = r.assignAll rec.fields := by
  refine h.foldl_eq' (fun f hf g hg r ↦ ?_) r
  by_cases hkey : f.key = g.key
  · have heq := List.inj_on_of_nodup_map ((h.map Field.key).nodup_iff.2 rec.nodup_keys) hf hg hkey
    rw [heq]
  · exact r.assign_comm hkey f.val g.val

theorem assignAll_append (r : SrvParm) (fs gs : List Field) :
    r.assignAll (fs ++ gs) = (r.assignAll fs).assignAll gs :=
  List.foldl_append

section Values

variable (r : SrvParm)

theorem assignAll_srvid (o : Option IntVal) :
    r.assignAll (o.map Field.srvid).toList =
      { r with svrid := o.elim r.svrid fun v ↦ some v.val } := by
  cases o with
  | none => rfl
  | some v => exact congrArg (fun n ↦ { r with svrid := some n }) (atoi_sprintfd v.2.1 v.2.2)

theorem assignAll_srvnum (o : Option IntVal) :
    r.assignAll (o.map Field.srvnum).toList = { r with pidTot := o.elim r.pidTot Subtype.val } := by
  cases o with
  | none => rfl
  | some v => exact congrArg (fun n ↦ { r with pidTot := n }) (atoi_sprintfd v.2.1 v.2.2)

theorem assignAll_rqaddr (o : Option Address) :
    r.assignAll (o.map Field.rqaddr).toList =
      { r with svcName := o.elim r.svcName fun a ↦ strcpyField r.svcName a.chars } := by
  cases o with
  | none => rfl
  | some a =>
    exact congrArg (fun s ↦ { r with svcName := strcpyField r.svcName s })
      (progName_of_noBlank a.noNul a.noBlank a.length_le)

theorem assignAll_replyq (o : Option Bool) :
    r.assignAll (o.map Field.replyq).toList =
      { r with rspQ := o.elim r.rspQ fun yes ↦ if yes then svrReplyNeed else svrReplyNoneed } := by
  cases o with
  | none => rfl
  | some yes => cases yes <;> rfl

theorem assignAll_srvparm (o : Option Quoted) :
    r.assignAll (o.map Field.srvparm).toList =
      { r with parm := o.elim r.parm fun t ↦ strncpyField r.parm t.chars } := by
  cases o with
  | none => rfl
  | some t => rfl

end Values

/-- **The values of a record** make the entry what the record asks for. -/
theorem store_assignAll (e : SvrTab) :
    ((SrvParm.defaults rec.name.chars).assignAll rec.fields).store e = rec.entry e := by
  have hsvc : (rec.rqaddr.elim (charField 33 [] 0) fun a ↦ strcpyField (charField 33 [] 0) a.chars) =
      charField 33 (rec.rqaddr.elim [] Address.chars) 0 := by
    cases rec.rqaddr with
    | none => rfl
    | some a => exact strcpyField_clear a.noNul
  have hparm : (rec.srvparm.elim (charField 129 [] 0) fun t ↦
      strncpyField (charField 129 [] 0) t.chars) =
        charField 129 (rec.srvparm.elim [] Quoted.chars) 0 := by
    cases rec.srvparm with
    | none => rfl
    | some t => exact strncpyField_clear t.chars
  have hid (o : Option IntVal) : (o.elim none fun v ↦ some v.val).getD e.svrid =
      o.elim e.svrid Subtype.val ∧ (o.elim none fun v ↦ some v.val).elim e.msgType msgTypeOf =
        o.elim e.msgType fun v ↦ msgTypeOf v := by
    cases o with
    | none => exact ⟨rfl, rfl⟩
    | some v => exact ⟨rfl, rfl⟩
  simp only [fields, assignAll_append, assignAll_srvid, assignAll_srvnum, assignAll_rqaddr,
    assignAll_replyq, assignAll_srvparm, SrvParm.defaults, SrvParm.store, entry, hsvc, hparm, hid]

end SrvRecord

/-! ### The first field -/

theorem Field.chars_ne_nil (f : Field) : f.chars ≠ [] := by
  rw [Field.chars]
  exact List.append_ne_nil_of_right_ne_nil _ (List.cons_ne_nil _ _)

/-- Only a quoted value can have a blank or an odd character in it. -/
theorem Field.notMem_chars {f : Field} {c : UInt8} (h : c = 0 ∨ c = 32)
    (hval : c ∉ f.val) : c ∉ f.chars := by
  have hkey : c ∉ f.key.chars := by
    rcases h with rfl | rfl
    · exact (isWord_key f.key_ne_other).noNul
    · exact (isWord_key f.key_ne_other).noBlank
  have hshown : c ∉ f.shown := by
    cases f with
    | srvparm t =>
      have hval : c ∉ t.chars := hval
      rcases h with rfl | rfl
      · simp [Field.shown, hval]
      · simp [Field.shown, hval]
    | srvid v => exact hval
    | srvnum v => exact hval
    | rqaddr a => exact hval
    | replyq yes => exact hval
  have hne : c ≠ 61 := by
    rcases h with rfl | rfl
    · decide
    · decide
  simp [Field.chars, hkey, hshown, hne]

section Line

variable {name : List UInt8} (hz : 0 ∉ name) (hne : name ≠ []) (hb : 32 ∉ name)
include hz hne hb

/-- The name is taken off the line with one blank. -/
theorem strtok_name (rest : List UInt8) (hrest : ∀ c ∈ rest.head?, c = 32) :
    strtok [32] (name ++ rest) = some (0, name) ∧ behind (name ++ rest) 0 name = rest.drop 1 := by
  have htok : strtok [32] ([] ++ (name ++ rest)) = some (([] : List UInt8).length, name) :=
    strtok_append (by simp) hz hne (fun c hc h ↦ hb (List.mem_singleton.1 h ▸ hc))
      fun c hc ↦ .inr (by simp [hrest c hc])
  exact ⟨htok, behind_append [] name rest⟩

theorem lineName_name (rest : List UInt8) (hrest : ∀ c ∈ rest.head?, c = 32) :
    lineName (name ++ rest) = some (progName name) := by
  rw [lineName, (strtok_name hz hne hb rest hrest).1]
  rfl

/-- A line with a name only. -/
theorem parmText_name : parmText name = none := by
  obtain ⟨htok, hbehind⟩ := strtok_name hz hne hb [] (by simp)
  rw [List.append_nil] at htok hbehind
  rw [parmText, htok]
  dsimp only [Option.bind_some]
  rw [hbehind]
  rfl

/-- `strtok` stores a NUL behind the first token of the fields. -/
theorem parmText_first {tok rest : List UInt8} (k : ℕ) (htz : 0 ∉ tok) (htne : tok ≠ [])
    (htb : 32 ∉ tok) (hrest : ∀ c ∈ rest.head?, c = 32) :
    parmText (name ++ (List.replicate (k + 1) 32 ++ (tok ++ rest))) =
      some (tok ++ 0 :: rest.drop 1) := by
  have hblank : ∀ c ∈ List.replicate k (32 : UInt8), c = 32 := fun c hc ↦ List.eq_of_mem_replicate hc
  obtain ⟨htok, hbehind⟩ := strtok_name hz hne hb (List.replicate (k + 1) 32 ++ (tok ++ rest))
    (by simp [List.replicate_succ])
  have hfirst : strtok [32] (List.replicate k 32 ++ (tok ++ rest)) =
      some ((List.replicate k (32 : UInt8)).length, tok) := by
    refine strtok_append (fun c hc ↦ by simp [hblank c hc]) (fun h ↦ ?_) htne
      (fun c hc h ↦ htb (List.mem_singleton.1 h ▸ hc)) fun c hc ↦ .inr (by simp [hrest c hc])
    exact (List.mem_append.1 h).elim (fun h ↦ absurd (hblank 0 h) (by decide)) htz
  have hdrop : (List.replicate (k + 1) 32 ++ (tok ++ rest)).drop 1 =
      List.replicate k 32 ++ (tok ++ rest) := rfl
  rw [parmText, htok]
  dsimp only [Option.bind_some]
  rw [hbehind, hdrop, hfirst, Option.map_some, behind_append]

end Line

namespace Field

/-- What `parseLine` makes of the fields, by the first of them. -/
def parsed (r : SrvParm) : List Field → Option (ℤ × SrvParm)
  | [] => none
  | srvparm t :: _ =>
    if 32 ∈ t.chars then some (-2, r) else some (0, r.assign t.chars .srvparm)
  | fs => some (0, r.assignAll fs)

theorem parsed_of_unquoted {f : Field} (hf : f.key ≠ .srvparm) (r : SrvParm) (fs : List Field) :
    parsed r (f :: fs) = some (0, r.assignAll (f :: fs)) := by
  cases f with
  | srvparm t => exact absurd rfl hf
  | srvid v => rfl
  | srvnum v => rfl
  | rqaddr a => rfl
  | replyq yes => rfl

end Field

theorem length_renderFields (parts : List (ℕ × Field)) :
    parts.length ≤ (renderFields parts).length := by
  induction parts with
  | nil => exact Nat.zero_le _
  | cons p parts ih =>
    obtain ⟨k, f⟩ := p
    rw [renderFields_cons, List.length_append, List.length_append, List.length_replicate,
      List.length_cons]
    omega

section FirstField

variable {name : ProgName} (hb : 32 ∉ name.chars)
include hb

/-- The text that the loop starts with goes up to the first blank of the fields. -/
theorem parseLine_first {tok rest : List UInt8} (k : ℕ) (htz : 0 ∉ tok) (htne : tok ≠ [])
    (htb : 32 ∉ tok) (hrest : ∀ c ∈ rest.head?, c = 32) :
    parseLine (name.chars ++ (List.replicate (k + 1) 32 ++ (tok ++ rest))) =
      parmLoop ((tok ++ 0 :: rest.drop 1).length + 1) (.defaults name.chars)
        (tok ++ 0 :: rest.drop 1) := by
  have hname := lineName_name name.noNul name.ne_nil hb (List.replicate (k + 1) 32 ++ (tok ++ rest))
    (by simp [List.replicate_succ])
  rw [progName_of_noBlank name.noNul hb name.length_le] at hname
  rw [parseLine, hname, Option.bind_some,
    parmText_first name.noNul name.ne_nil hb k htz htne htb hrest, Option.bind_some]

theorem parseLine_unquoted {f : Field} (hf : f.key ≠ .srvparm) (k : ℕ) (parts : List (ℕ × Field)) :
    parseLine (name.chars ++ renderFields ((k, f) :: parts)) =
      some (0, (SrvParm.defaults name.chars).assignAll (f :: parts.map Prod.snd)) := by
  have hval := f.isWord_val hf
  have hlen := length_renderFields parts
  have hfuel : parts.length < (f.chars ++ 0 :: (renderFields parts).drop 1).length := by
    rw [List.length_append, List.length_cons, List.length_drop]
    have hpos := List.length_pos_of_ne_nil f.chars_ne_nil
    omega
  have hnul (c : UInt8) (hc : c ∈ (0 :: (renderFields parts).drop 1).head?) : c = 0 ∨ c = 32 :=
    .inl (by simpa using hc.symm)
  have hfirst := parmLoop_field hf (f.chars ++ 0 :: (renderFields parts).drop 1).length 0
    (.defaults name.chars) hnul
  rw [renderFields_cons, parseLine_first hb k (f.notMem_chars (.inl rfl) hval.noNul) f.chars_ne_nil
    (f.notMem_chars (.inr rfl) hval.noBlank) (head_renderFields parts)]
  exact hfirst.trans (parmLoop_fields hfuel _).2

theorem parseLine_quoted {t : Quoted} (ht : 32 ∉ t.chars) (k : ℕ) (parts : List (ℕ × Field)) :
    parseLine (name.chars ++ renderFields ((k, .srvparm t) :: parts)) =
      some (0, (SrvParm.defaults name.chars).assign t.chars .srvparm) := by
  have hfirst := parmLoop_srvparm t ((Field.srvparm t).chars ++ 0 :: (renderFields parts).drop 1).length
    0 (.defaults name.chars) (0 :: (renderFields parts).drop 1)
  have hz : 0 ∉ (Field.srvparm t).chars := Field.notMem_chars (.inl rfl) t.noNul
  have hblank : 32 ∉ (Field.srvparm t).chars := Field.notMem_chars (.inr rfl) ht
  rw [renderFields_cons, parseLine_first hb k hz (Field.chars_ne_nil _) hblank
    (head_renderFields parts)]
  exact hfirst.trans (parmLoop_nul _ _ (by simp))

theorem parseLine_cut {t : Quoted} (ht : 32 ∈ t.chars) (k : ℕ) (parts : List (ℕ × Field)) :
    parseLine (name.chars ++ renderFields ((k, .srvparm t) :: parts)) =
      some (-2, .defaults name.chars) := by
  obtain ⟨before, behind, heq, hnot⟩ := List.eq_append_cons_of_mem ht
  have hz : 0 ∉ before := fun h ↦ t.noNul (heq ▸ List.mem_append_left _ h)
  have hq : 34 ∉ before := fun h ↦ t.noQuote (heq ▸ List.mem_append_left _ h)
  have hsplit : renderFields ((k, .srvparm t) :: parts) = List.replicate (k + 1) 32 ++
      ((Key.srvparm.chars ++ 61 :: 34 :: before) ++
        32 :: (behind ++ 34 :: renderFields parts)) := by
    rw [renderFields_cons]
    simp [Field.chars, Field.shown, Field.key, heq]
  have hkey := isWord_key (k := .srvparm) (by decide)
  rw [hsplit, parseLine_first hb k (by simp [hkey.noNul, hz]) (by simp) (by simp [hkey.noBlank, hnot])
    (by simp)]
  have hcut := parmLoop_cut hz hq ((Key.srvparm.chars ++ 61 :: 34 :: before) ++
    0 :: (behind ++ 34 :: renderFields parts)).length (.defaults name.chars)
    (behind ++ 34 :: renderFields parts)
  rw [List.append_assoc] at hcut ⊢
  exact hcut

/-- **The line of a record.** Everything is read if the first field is unquoted; a quoted first field
is read alone, or is an error. -/
theorem parseLine_render (parts : List (ℕ × Field)) :
    parseLine (name.chars ++ renderFields parts) =
      Field.parsed (.defaults name.chars) (parts.map Prod.snd) := by
  cases parts with
  | nil =>
    have hname := lineName_name name.noNul name.ne_nil hb [] (by simp)
    rw [renderFields, List.flatMap_nil, List.append_nil, parseLine,
      parmText_name name.noNul name.ne_nil hb]
    rw [List.append_nil] at hname
    rw [hname]
    rfl
  | cons p parts =>
    obtain ⟨k, f⟩ := p
    rw [List.map_cons]
    by_cases hf : f.key = .srvparm
    · obtain ⟨t, rfl⟩ := Field.exists_srvparm hf
      by_cases ht : 32 ∈ t.chars
      · rw [parseLine_cut hb ht, Field.parsed, if_pos ht]
      · rw [parseLine_quoted hb ht, Field.parsed, if_neg ht]
    · rw [parseLine_unquoted hb hf, Field.parsed_of_unquoted hf]

end FirstField

/-! ### Registration -/

/-- A field that says what the entry holds without it. -/
def Field.IsMoot (e : SvrTab) : Field → Prop
  | .srvid v => e.svrid = v ∧ e.msgType = msgTypeOf v
  | .srvnum v => v.val = 5
  | .rqaddr _ => False
  | .replyq yes => yes = true
  | .srvparm _ => False

/-- The scan sees what counts in the fields: there is one, and if the first is quoted it has no blank
in it and the others say nothing new. -/
def Field.Seen (e : SvrTab) : List Field → Prop
  | [] => False
  | .srvparm t :: rest => 32 ∉ t.chars ∧ ∀ f ∈ rest, f.IsMoot e
  | _ => True

theorem Field.seen_of_unquoted {f : Field} (hf : f.key ≠ .srvparm) (e : SvrTab) (fs : List Field) :
    Field.Seen e (f :: fs) := by
  cases f with
  | srvparm t => exact absurd rfl hf
  | srvid v => trivial
  | srvnum v => trivial
  | rqaddr a => trivial
  | replyq yes => trivial

/-- A program name read from a line is a string of at least one and at most `TUX_NAME_LEN` characters
without a blank. -/
theorem lineName_spec {buf name : List UInt8} (h : lineName buf = some name) :
    name ≠ [] ∧ 32 ∉ name ∧ 0 ∉ name ∧ name.length ≤ tuxNameLen := by
  obtain ⟨⟨rc, tok⟩, htok, rfl⟩ := Option.map_eq_some_iff.1 h
  obtain ⟨hne, hz, hdelim⟩ := strtok_spec htok
  have hsub : tok.take tuxNameLen ⊆ tok := List.take_subset _ _
  rw [progName_of_token hz fun hb ↦ hdelim 32 hb List.mem_cons_self]
  refine ⟨?_, fun hb ↦ hdelim 32 (hsub hb) List.mem_cons_self, fun h0 ↦ hz (hsub h0),
    List.length_take_le _ _⟩
  rw [Ne, List.take_eq_nil_iff]
  simp [hne, tuxNameLen]

theorem SrvParm.assign_name (r : SrvParm) (val : List UInt8) (k : Key) :
    (r.assign val k).name = r.name := by
  cases k <;> rfl

/-- Where `register_server` stored a line, the entry has a name without a blank. -/
theorem name_of_registerServer {exec : List UInt8 → Bool} {e e' : SvrTab} {buf : List UInt8} {rc : ℤ}
    (h : registerServer exec e buf = some (rc, e')) (hrc : rc ≤ 0) :
    ∃ name, name ≠ [] ∧ 32 ∉ name ∧ 0 ∉ name ∧ name.length ≤ tuxNameLen ∧
      e'.name = charField 33 name 0 := by
  obtain ⟨rfl, -⟩ | ⟨r, hr, rfl⟩ := of_registerServer h
  · exact absurd hrc (by decide)
  · obtain ⟨name, hname, hparm⟩ := Option.bind_eq_some_iff.1 hr
    obtain ⟨p, -, hp⟩ := Option.bind_eq_some_iff.1 hparm
    obtain ⟨hne, hb, hz, hle⟩ := lineName_spec hname
    exact ⟨name, hne, hb, hz, hle,
      (parmLoop_keeps (fun r val k hr ↦ (r.assign_name val k).trans hr) hp rfl).1⟩

/-- A name of at most `TUX_NAME_LEN` characters is read back from its array. -/
theorem charField_name_inj {s t : List UInt8} (hs : 0 ∉ s) (ht : 0 ∉ t) (hls : s.length ≤ tuxNameLen)
    (hlt : t.length ≤ tuxNameLen) (h : charField 33 s 0 = charField 33 t 0) : s = t := by
  have hfit : tuxNameLen ≤ 33 := by decide
  have hbytes : bufRead s 0 33 = bufRead t 0 33 := congrArg Subtype.val h
  rw [← cstr_bufRead hs (hls.trans hfit), hbytes, cstr_bufRead ht (hlt.trans hfit)]

theorem Rendering.isRegistered_iff {rec : SrvRecord} (r : Rendering rec) {n : ℕ}
    (exec : List UInt8 → Bool) (tSvrTab : Fin n → SvrTab) (svrnum : Fin n) :
    r.IsRegistered exec tSvrTab svrnum ↔
      registerServer exec (tSvrTab svrnum) r.line = some (0, rec.entry (tSvrTab svrnum)) := by
  rw [IsRegistered, registerServerAt]
  constructor
  · intro h
    obtain ⟨⟨rc, e'⟩, hreg, heq⟩ := Option.map_eq_some_iff.1 h
    obtain ⟨rfl, htab⟩ := Prod.mk.inj heq
    rw [hreg]
    exact congrArg (fun e ↦ some (0, e)) (Function.update_injective tSvrTab svrnum htab)
  · intro h
    rw [h, Option.map_some]

/-- What moot fields ask for. -/
theorem SrvRecord.entry_of_moot (rec : SrvRecord) {e : SvrTab}
    (h : ∀ f ∈ rec.fields, f.key ≠ .srvparm → f.IsMoot e) :
    rec.srvid.elim e.svrid Subtype.val = e.svrid ∧
      (rec.srvid.elim e.msgType fun v ↦ msgTypeOf v) = e.msgType ∧
      rec.srvnum.elim 5 Subtype.val = 5 ∧ rec.rqaddr = none ∧
      (rec.replyq.elim svrReplyNeed fun yes ↦ if yes then svrReplyNeed else svrReplyNoneed) =
        svrReplyNeed := by
  refine ⟨?_, ?_, ?_, ?_, ?_⟩
  · cases hv : rec.srvid with
    | none => rfl
    | some v => exact (h (.srvid v) (mem_fields.2 hv) nofun).1.symm
  · cases hv : rec.srvid with
    | none => rfl
    | some v => exact (h (.srvid v) (mem_fields.2 hv) nofun).2.symm
  · cases hv : rec.srvnum with
    | none => rfl
    | some v => exact h (.srvnum v) (mem_fields.2 hv) nofun
  · cases hv : rec.rqaddr with
    | none => rfl
    | some a => exact (h (.rqaddr a) (mem_fields.2 hv) nofun).elim
  · cases hv : rec.replyq with
    | none => rfl
    | some yes =>
      have hyes : yes = true := h (.replyq yes) (mem_fields.2 hv) nofun
      rw [hyes]
      rfl

/-- What is stored of a quoted field alone is what the record asks for when the other fields are
moot. -/
theorem SrvRecord.store_srvparm_iff {rec : SrvRecord} {t : Quoted} {rest : List Field}
    (h : (Field.srvparm t :: rest).Perm rec.fields) (e : SvrTab) :
    ((SrvParm.defaults rec.name.chars).assign t.chars .srvparm).store e = rec.entry e ↔
      ∀ f ∈ rest, f.IsMoot e := by
  have hparm : rec.srvparm = some t := mem_fields.1 (h.subset List.mem_cons_self)
  have hkeys := (h.map Field.key).nodup_iff.2 rec.nodup_keys
  constructor
  · intro heq f hf
    have hmem := mem_fields.1 (h.subset (List.mem_cons_of_mem _ hf))
    cases f with
    | srvid v =>
      have hid := congrArg (fun e' ↦ (e'.svrid, e'.msgType)) heq
      simpa [entry, SrvParm.store, SrvParm.assign, SrvParm.defaults, hmem, Field.IsMoot] using hid
    | srvnum v =>
      have htot := congrArg SvrTab.pidTot heq
      simpa [entry, SrvParm.store, SrvParm.assign, SrvParm.defaults, hmem, Field.IsMoot, eq_comm]
        using htot
    | rqaddr a =>
      have hsvc : charField 33 [] 0 = charField 33 a.chars 0 := by
        simpa [entry, SrvParm.store, SrvParm.assign, SrvParm.defaults, hmem] using
          congrArg (fun e' ↦ e'.svcName) heq
      exact a.ne_nil (charField_name_inj List.not_mem_nil a.noNul (Nat.zero_le _) a.length_le hsvc).symm
    | replyq yes =>
      have hrsp := congrArg SvrTab.rspQ heq
      cases yes with
      | true => rfl
      | false =>
        simp [entry, SrvParm.store, SrvParm.assign, SrvParm.defaults, hmem, svrReplyNeed,
          svrReplyNoneed] at hrsp
    | srvparm t' => exact absurd (List.mem_map_of_mem hf) (List.nodup_cons.1 hkeys).1
  · intro hmoot
    have hrest (f : Field) (hf : f ∈ rec.fields) (hne : f.key ≠ .srvparm) : f.IsMoot e := by
      rcases List.mem_cons.1 (h.symm.subset hf) with rfl | hrest
      · exact absurd rfl hne
      · exact hmoot f hrest
    have hcopy : strncpyField (charField 129 [] 0) t.chars = charField 129 t.chars 0 :=
      strncpyField_clear t.chars
    obtain ⟨hid, hmsg, hnum, haddr, hreply⟩ := rec.entry_of_moot hrest
    simp only [entry, SrvParm.store, SrvParm.assign, SrvParm.defaults, hid, hmsg, hnum, haddr, hreply,
      hparm, hcopy, Option.elim_none, Option.elim_some, Option.getD_none]

/-- **`register_server`** registers a rendering of a record exactly when the name has no blank in it
and the scan sees what counts in the fields. -/
theorem register_server_registers_iff {rec : SrvRecord} (r : Rendering rec) {n : ℕ}
    {exec : List UInt8 → Bool} (hexec : exec rec.name.chars = true) (tSvrTab : Fin n → SvrTab)
    (svrnum : Fin n) :
    r.IsRegistered exec tSvrTab svrnum ↔ 32 ∉ rec.name.chars ∧
      Field.Seen (tSvrTab svrnum) (r.parts.map Prod.snd) := by
  rw [Rendering.isRegistered_iff]
  by_cases hb : 32 ∈ rec.name.chars
  · refine iff_of_false (fun h ↦ ?_) fun h ↦ h.1 hb
    obtain ⟨name, -, hnb, hz, hle, hname⟩ := name_of_registerServer h le_rfl
    have heq : rec.name.chars = name :=
      charField_name_inj rec.name.noNul hz rec.name.length_le hle hname
    exact hnb (heq ▸ hb)
  · rw [and_iff_right hb]
    have hname := lineName_name rec.name.noNul rec.name.ne_nil hb (renderFields r.parts)
      (head_renderFields r.parts)
    rw [progName_of_noBlank rec.name.noNul hb rec.name.length_le] at hname
    have hline : registerServer exec (tSvrTab svrnum) r.line =
        (Field.parsed (.defaults rec.name.chars) (r.parts.map Prod.snd)).map fun p ↦
          (p.1, p.2.store (tSvrTab svrnum)) := by
      rw [registerServer, Rendering.line, hname, Option.bind_some,
        if_neg (by rw [hexec]; exact Bool.true_eq_false.mp), parseLine_render hb]
    rw [hline]
    have hperm := r.perm
    generalize r.parts.map Prod.snd = fs at hperm
    match fs, hperm with
    | [], _ => exact iff_of_false nofun id
    | f :: rest, hperm =>
      by_cases hf : f.key = .srvparm
      · -- a quoted field is read alone, if at all
        obtain ⟨t, rfl⟩ := Field.exists_srvparm hf
        rw [Field.parsed, Field.Seen]
        by_cases ht : 32 ∈ t.chars
        · rw [if_pos ht]
          exact iff_of_false (by simp) fun h ↦ h.1 ht
        · rw [if_neg ht, and_iff_right ht, ← SrvRecord.store_srvparm_iff hperm]
          simp
      · refine iff_of_true ?_ (Field.seen_of_unquoted hf (tSvrTab svrnum) rest)
        rw [Field.parsed_of_unquoted hf, rec.assignAll_perm hperm, Option.map_some,
          rec.store_assignAll]

/-- The program `sdping` with the parameter `-l 1` and no reply queue. -/
def pingRecord : SrvRecord where
  name := ⟨text "sdping", by decide, by decide, by decide⟩
  srvid := none
  srvnum := none
  rqaddr := none
  replyq := some false
  srvparm := some ⟨text "-l 1", by decide, by decide, by decide⟩

/-- The two fields of `pingRecord` in the order of `parts`, one blank in front of each. -/
def pingParts : List (ℕ × Field) :=
  pingRecord.fields.map fun f ↦ (0, f)

theorem ping_registered :
    (⟨pingParts, List.Perm.refl _, by decide +kernel⟩ : Rendering pingRecord).IsRegistered
      (fun _ ↦ true) (fun _ : Fin 2 ↦ .clear) 1 :=
  (register_server_registers_iff _ rfl _ _).2 ⟨by decide +kernel, trivial⟩

/-- The line `sdping SRVPARM="-l 1" REPLYQ=N` is not registered. -/
theorem quoted_first_not_registered :
    ¬ ∀ (rec : SrvRecord) (r : Rendering rec) (n : ℕ) (exec : List UInt8 → Bool)
      (tSvrTab : Fin n → SvrTab) (svrnum : Fin n), exec rec.name.chars = true →
        r.IsRegistered exec tSvrTab svrnum := fun h ↦ by
  have hreg := h pingRecord ⟨pingParts.reverse, List.Perm.swap _ _ _, by decide +kernel⟩ 2
    (fun _ ↦ true) (fun _ ↦ .clear) 1 rfl
  rw [Rendering.isRegistered_iff] at hreg
  have hrc := congrArg (Option.map Prod.fst) hreg
  revert hrc
  decide +kernel

end Sunda
