import Sunda.Base.Words
import Sunda.Main.Governor.ServerRecord

/-!
# The command line of a server process

`server_start_pid` (`Main/Governor.c`) prints the pid index and the server id in front of the parameter of
the entry. In the child, `server_load` puts the program name and the process id in front of that, and
`make_argv` splits the result at the blanks (`pubfun/tux/tuxcmd.c`). `main` of the server
(`pubfun/tux/tuxmain.c`) compares the process id with its own and takes the index and the server id from
where they stood.

The text is built in two arrays of 129 characters and the pointers in one of 30, the NULL behind the last
one included, and nothing is checked: an outcome `none` is a write beyond one of them. `RightTrim` removes
tabs and line ends at the end of the text, `strtok` splits at blanks alone.

`makeArgv_eq` says what the splitting makes of any string, and `commandLine_iff` for which entries, of all
that `register_server` can fill, the command line arrives in the child as it was meant.
-/

namespace Sunda

open Bytes Decimal Words

/-! ### The parent and the child -/

/-- The number of pointers in the array of `make_argv`. -/
def argvSize : ℕ := 30

/-- `param` in `server_start_pid`, an array of `SERVER_MAX_PARAM + 1` characters. -/
def startParam (e : SvrTab) (pidIndex : ℤ) : Option (List UInt8) :=
  let param := sprintfd pidIndex ++ [32, 32] ++ sprintfd e.svrid ++ [32, 32] ++ cstr e.parm.toList
  if param.length ≤ serverMaxParam then some param else none

/-- `buf` in the child of `server_load`, an array of the same size. -/
def loadBuf (tskname arg : List UInt8) (getpid : ℤ) : Option (List UInt8) :=
  let buf := tskname ++ [32] ++ sprintfd getpid ++ [32] ++ arg
  if buf.length ≤ serverMaxParam then some buf else none

/-- The loop of `make_argv` with `i` pointers stored, the string `buf` left and the NULL stored last. -/
def makeArgvLoop : ℕ → ℕ → List UInt8 → Option (List (List UInt8))
  | 0, _, _ => none
  | fuel + 1, i, buf =>
    if argvSize ≤ i then none
    else
      match strtok [32] buf with
      | none => some []
      | some (rc, p) => (makeArgvLoop fuel (i + 1) (behind buf rc p)).map (p :: ·)

/-- `make_argv(buf, 1)`. Every pass leaves a shorter string, so its length is fuel enough. -/
def makeArgv (buf : List UInt8) : Option (List (List UInt8)) :=
  let s := cstr (rightTrim (buf ++ [0]))
  makeArgvLoop (s.length + 1) 0 s

/-- The arguments with which the child `getpid` of the start of entry `e` at `pidIndex` calls `execvp`. -/
def childArgv (e : SvrTab) (pidIndex getpid : ℤ) : Option (List (List UInt8)) :=
  (startParam e pidIndex).bind fun param ↦
    (loadBuf (cstr e.name.toList) param getpid).bind makeArgv

/-- `main` in front of `ipc_connect`: `svc_pos` and `svrid`, or `none` for a return of -1. -/
def tuxmain (argv : List (List UInt8)) (getpid : ℤ) : Option (ℤ × ℤ) :=
  if argv.length < 4 then none
  else if atol (argv.getD 1 []) ≠ getpid then none
  else some (atoi (argv.getD 2 []), atoi (argv.getD 3 []))

/-! ### Splitting -/

/-- `strtok` at blanks takes the first word. -/
theorem words_eq_strtok {s : List UInt8} (hz : 0 ∉ s) :
    words isBlank s =
      (strtok [32] s).elim [] fun r ↦ r.2 :: words isBlank (behind s r.1 r.2) := by
  have hin : (fun c : UInt8 ↦ decide (c ∈ [32])) = isBlank := funext fun c ↦ by
    rw [isBlank, Bool.eq_iff_iff]
    simp
  have hnotin : (fun c : UInt8 ↦ decide (c ∉ [32])) = (!isBlank ·) := funext fun c ↦ by
    rw [isBlank, Bool.eq_iff_iff]
    simp
  have hsplit := List.takeWhile_append_dropWhile (p := isBlank) (l := s)
  have hdrop : s.drop (s.takeWhile isBlank).length = s.dropWhile isBlank :=
    calc s.drop (s.takeWhile isBlank).length
        = (s.takeWhile isBlank ++ s.dropWhile isBlank).drop (s.takeWhile isBlank).length := by rw [hsplit]
      _ = s.dropWhile isBlank := List.drop_left
  rw [words_step, strtok, cstr_eq_self hz, hin, hnotin, hdrop]
  dsimp only
  split
  · rfl
  · rw [Option.elim_some, behind, ← hdrop, List.drop_drop, ← Nat.add_assoc]

/-- **The loop** stores the words and the NULL, if there is room for them. -/
theorem makeArgvLoop_eq {fuel i : ℕ} {s : List UInt8} (hz : 0 ∉ s) (hfuel : s.length < fuel)
    (hi : i ≤ argvSize) :
    makeArgvLoop fuel i s =
      if i + (words isBlank s).length < argvSize then some (words isBlank s) else none := by
  induction fuel generalizing i s with
  | zero => omega
  | succ fuel ih =>
    rw [makeArgvLoop, words_eq_strtok hz]
    by_cases hfull : argvSize ≤ i
    · rw [if_pos hfull, if_neg (by omega)]
    · rw [if_neg hfull]
      cases htok : strtok [32] s with
      | none => simp [Nat.lt_of_not_le hfull]
      | some r =>
        obtain ⟨rc, tok⟩ := r
        have hlt := strtok_lt htok
        have hrest : 0 ∉ behind s rc tok := fun h0 ↦ hz (List.mem_of_mem_drop h0)
        have hcount : i + ((words isBlank (behind s rc tok)).length + 1) =
            i + 1 + (words isBlank (behind s rc tok)).length := by omega
        dsimp only
        rw [ih hrest (by omega) (by omega)]
        simp only [Option.elim_some, List.length_cons, hcount]
        split <;> rfl

/-- **`make_argv`** gives the words of the string without the white space at its end. -/
theorem makeArgv_eq {buf : List UInt8} (hz : 0 ∉ buf) :
    makeArgv buf =
      if (words isBlank (buf.rdropWhile isWhite)).length < argvSize then
        some (words isBlank (buf.rdropWhile isWhite))
      else none := by
  have hz' : 0 ∉ buf.rdropWhile isWhite := fun h0 ↦ hz ((List.rdropWhile_prefix _ _).subset h0)
  rw [makeArgv, cstr_rightTrim, cstr_append_singleton_zero, cstr_eq_self hz]
  rw [makeArgvLoop_eq hz' (Nat.lt_succ_self _) (Nat.zero_le _), Nat.zero_add]

/-! ### The words of the command line -/

/-- A text that is one argument. -/
structure IsArg (w : List UInt8) : Prop where
  ne_nil : w ≠ []
  noNul : 0 ∉ w
  noBlank : 32 ∉ w

theorem IsArg.words_eq {w : List UInt8} (h : IsArg w) : words isBlank w = [w] :=
  words_eq_singleton h.ne_nil fun _ hc ↦ beq_false_of_ne fun heq ↦ h.noBlank (heq ▸ hc)

theorem isArg_sprintfd (v : IntVal) : IsArg (sprintfd v) :=
  ⟨(isWord_sprintfd v).ne_nil, (isWord_sprintfd v).noNul, (isWord_sprintfd v).noBlank⟩

/-- The text in front of the parameter, with as many blanks as the functions write. -/
def frontText (w₁ w₂ w₃ w₄ : List UInt8) : List UInt8 :=
  w₁ ++ [32] ++ w₂ ++ [32] ++ w₃ ++ [32, 32] ++ w₄ ++ [32, 32]

section Front

variable {w₁ w₂ w₃ w₄ : List UInt8} (h₁ : IsArg w₁) (h₂ : IsArg w₂) (h₃ : IsArg w₃) (h₄ : IsArg w₄)

include h₁ h₂ h₃ h₄

theorem words_frontText_append (t : List UInt8) :
    words isBlank (frontText w₁ w₂ w₃ w₄ ++ t) = w₁ :: w₂ :: w₃ :: w₄ :: words isBlank t := by
  have h32 : isBlank 32 = true := rfl
  simp only [frontText, List.append_assoc, List.cons_append, List.nil_append]
  rw [words_append_cons h32, words_append_cons h32, words_append_cons h32, words_cons_of_sep h32,
    words_append_cons h32, words_cons_of_sep h32, h₁.words_eq, h₂.words_eq, h₃.words_eq, h₄.words_eq]
  rfl

/-- `RightTrim` gets into the text in front of the parameter only as far as its last blanks. -/
theorem words_rdropWhile_frontText_append (hlast : ∀ c ∈ w₄, isWhite c = false) (t : List UInt8) :
    words isBlank ((frontText w₁ w₂ w₃ w₄ ++ t).rdropWhile isWhite) =
      w₁ :: w₂ :: w₃ :: w₄ :: words isBlank (t.rdropWhile isWhite) := by
  rw [rdropWhile_append]
  split
  · next hnil =>
    have hself : w₄.rdropWhile isWhite = w₄ := List.rdropWhile_eq_self_iff.2 fun hne ↦ by
      rw [hlast _ (List.getLast_mem hne)]
      exact Bool.false_ne_true
    have htrim : (frontText w₁ w₂ w₃ w₄).rdropWhile isWhite =
        w₁ ++ [32] ++ w₂ ++ [32] ++ w₃ ++ [32, 32] ++ w₄ := by
      rw [frontText, rdropWhile_append, if_pos (by decide), rdropWhile_append, hself,
        if_neg h₄.ne_nil]
    have hblanks := (words_append_eq_iff (p := isBlank)
      (w₁ ++ [32] ++ w₂ ++ [32] ++ w₃ ++ [32, 32] ++ w₄) [32, 32]).2 (by simp [isBlank])
    rw [htrim, hnil, ← hblanks, ← words_frontText_append h₁ h₂ h₃ h₄ [], List.append_nil, frontText]
  · exact words_frontText_append h₁ h₂ h₃ h₄ _

end Front

/-- The entry has a program name without blanks, and its id is an `int`. -/
structure SvrTab.Named (e : SvrTab) : Prop where
  isArg : IsArg (cstr e.name.toList)
  intRange : IntRange e.svrid

/-- The number of characters of the command line. -/
def commandLength (e : SvrTab) (pidIndex getpid : ℤ) : ℕ :=
  (cstr e.name.toList).length + (sprintfd getpid).length + (sprintfd pidIndex).length +
    (sprintfd e.svrid).length + (cstr e.parm.toList).length + 6

/-- The two arrays together, in terms of the text in front of the parameter. -/
theorem childArgv_eq_makeArgv (e : SvrTab) (pidIndex getpid : ℤ) :
    childArgv e pidIndex getpid =
      if commandLength e pidIndex getpid ≤ serverMaxParam then
        makeArgv (frontText (cstr e.name.toList) (sprintfd getpid) (sprintfd pidIndex)
          (sprintfd e.svrid) ++ cstr e.parm.toList)
      else none := by
  have hbuf : (cstr e.name.toList ++ [32] ++ sprintfd getpid ++ [32] ++ (sprintfd pidIndex ++
      [32, 32] ++ sprintfd e.svrid ++ [32, 32] ++ cstr e.parm.toList)).length =
      commandLength e pidIndex getpid := by
    simp only [List.length_append, List.length_cons, List.length_nil, commandLength]
    omega
  have hparam : (sprintfd pidIndex ++ [32, 32] ++ sprintfd e.svrid ++ [32, 32] ++
      cstr e.parm.toList).length ≤ commandLength e pidIndex getpid := by
    simp only [List.length_append, List.length_cons, List.length_nil, commandLength]
    omega
  by_cases hfit : commandLength e pidIndex getpid ≤ serverMaxParam
  · simp only [childArgv, startParam, loadBuf, if_pos (hparam.trans hfit), Option.bind_some, hbuf,
      if_pos hfit]
    simp only [frontText, List.append_assoc]
  · simp only [childArgv, startParam, loadBuf, if_neg hfit]
    split
    · simp only [Option.bind_some, hbuf, if_neg hfit, Option.bind_none]
    · rfl

/-- **What the child gets**: the name, the three numbers and the words of the parameter without the white
space at its end, if the arrays are long enough. -/
theorem childArgv_eq {e : SvrTab} (he : e.Named) (pidIndex getpid : IntVal) :
    childArgv e pidIndex getpid =
      if commandLength e pidIndex getpid ≤ serverMaxParam ∧
          (words isBlank ((cstr e.parm.toList).rdropWhile isWhite)).length + 4 < argvSize then
        some (cstr e.name.toList :: sprintfd getpid :: sprintfd pidIndex :: sprintfd e.svrid ::
          words isBlank ((cstr e.parm.toList).rdropWhile isWhite))
      else none := by
  have hid := isArg_sprintfd ⟨e.svrid, he.intRange⟩
  have hpid := isArg_sprintfd getpid
  have hidx := isArg_sprintfd pidIndex
  have hlast (c : UInt8) (hc : c ∈ sprintfd e.svrid) : isWhite c = false := by
    rcases eq_or_ne c 45 with rfl | hne
    · rfl
    · have hdigit := isDigit_of_mem_sprintfd hc hne
      by_contra hwhite
      rw [Bool.not_eq_false] at hwhite
      have hspace : isDigit c = false := by
        simp only [isWhite, Bool.or_eq_true, beq_iff_eq] at hwhite
        rcases hwhite with ((rfl | rfl) | rfl) | rfl <;> rfl
      rw [hspace] at hdigit
      cases hdigit
  have hz : 0 ∉ frontText (cstr e.name.toList) (sprintfd getpid) (sprintfd pidIndex)
      (sprintfd e.svrid) ++ cstr e.parm.toList := by
    simp [frontText, he.isArg.noNul, hpid.noNul, hidx.noNul, hid.noNul, zero_notMem_cstr]
  rw [childArgv_eq_makeArgv, makeArgv_eq hz,
    words_rdropWhile_frontText_append he.isArg hpid hidx hid hlast, ← ite_and]
  rfl

/-- `main` accepts such arguments. -/
theorem tuxmain_eq (name : List UInt8) (getpid pidIndex svrid : IntVal) (rest : List (List UInt8)) :
    tuxmain (name :: sprintfd getpid :: sprintfd pidIndex :: sprintfd svrid :: rest) getpid =
      some (pidIndex.val, svrid.val) := by
  have hpid : atol (sprintfd getpid) = getpid :=
    atol_sprintfd (by have := getpid.2.1; omega) (by have := getpid.2.2; omega)
  simp [tuxmain, hpid, atoi_sprintfd pidIndex.2.1 pidIndex.2.2, atoi_sprintfd svrid.2.1 svrid.2.2]

/-! ### Entries of the configuration file -/

/-- Whatever line `register_server` stored, the entry is one that can be started by name. -/
theorem named_of_registerServer {exec : List UInt8 → Bool} {e e' : SvrTab} {buf : List UInt8} {rc : ℤ}
    (h : registerServer exec e buf = some (rc, e')) (hrc : rc ≤ 0) (he : IntRange e.svrid) :
    e'.Named := by
  obtain ⟨name, hne, hb, hz, hle, hname⟩ := name_of_registerServer h hrc
  have hread : cstr e'.name.toList = name := by
    rw [hname]
    exact cstr_bufRead hz (hle.trans (by decide))
  refine ⟨hread ▸ ⟨hne, hz, hb⟩, ?_⟩
  obtain ⟨-, rfl⟩ | ⟨r, hr, rfl⟩ := of_registerServer h
  · exact he
  · show IntRange (r.svrid.getD e.svrid)
    cases hid : r.svrid with
    | none => exact he
    | some v => exact intRange_of_parseLine hr v hid

/-- What is claimed of a start of the entry `e` in the pid entry `pidIndex` by a child `getpid`: nothing is
written beyond an array, the arguments are the program name, the three numbers and the words of the
parameter, and `main` takes the index and the id from them. -/
def CommandLineArrives (e : SvrTab) (pidIndex getpid : ℤ) : Prop :=
  ∃ argv, childArgv e pidIndex getpid = some argv ∧
    argv = cstr e.name.toList :: sprintfd getpid :: sprintfd pidIndex :: sprintfd e.svrid ::
      words isBlank (cstr e.parm.toList) ∧
    tuxmain argv getpid = some (pidIndex, e.svrid)

/-- The command line fits: its characters into the arrays of 129, its words and the NULL into the array of
30, and the parameter has no tab or line end among the white space at its end. -/
structure CommandLineFits (e : SvrTab) (pidIndex getpid : ℤ) : Prop where
  chars : commandLength e pidIndex getpid ≤ serverMaxParam
  args : (words isBlank (cstr e.parm.toList)).length ≤ 25
  tail : ∀ c ∈ (cstr e.parm.toList).rtakeWhile isWhite, isBlank c = true

/-- `RightTrim` keeps the words of the parameter exactly when it removes blanks only. -/
theorem words_rdropWhile_isWhite_iff (s : List UInt8) :
    words isBlank (s.rdropWhile isWhite) = words isBlank s ↔
      ∀ c ∈ s.rtakeWhile isWhite, isBlank c = true := by
  have hsplit : s.rdropWhile isWhite ++ s.rtakeWhile isWhite = s := by
    rw [List.rdropWhile, List.rtakeWhile, ← List.reverse_append, List.takeWhile_append_dropWhile,
      List.reverse_reverse]
  rw [← words_append_eq_iff, hsplit, eq_comm]

theorem commandLineArrives_iff {e : SvrTab} (he : e.Named) (pidIndex getpid : IntVal) :
    CommandLineArrives e pidIndex getpid ↔ CommandLineFits e pidIndex getpid := by
  rw [CommandLineArrives, childArgv_eq he]
  constructor
  · rintro ⟨argv, hargv, rfl, -⟩
    split at hargv
    · next hfit =>
      have hwords := Option.some.inj hargv
      simp only [List.cons.injEq, true_and] at hwords
      rw [hwords, argvSize] at hfit
      exact ⟨hfit.1, by omega, (words_rdropWhile_isWhite_iff _).1 hwords⟩
    · cases hargv
  · rintro ⟨hchars, hargs, htail⟩
    have hwords := (words_rdropWhile_isWhite_iff _).2 htail
    have hroom : (words isBlank (cstr e.parm.toList)).length + 4 < argvSize := by
      rw [argvSize]
      omega
    rw [hwords, if_pos ⟨hchars, hroom⟩]
    exact ⟨_, rfl, rfl, tuxmain_eq _ getpid pidIndex ⟨e.svrid, he.intRange⟩ _⟩

/-- **The command line of a configured server** arrives in the child if and only if it fits. -/
theorem commandLine_iff {exec : List UInt8 → Bool} {e e' : SvrTab} {buf : List UInt8} {rc : ℤ}
    (h : registerServer exec e buf = some (rc, e')) (hrc : rc ≤ 0)
    (he : IntRange e.svrid) (pidIndex getpid : IntVal) :
    CommandLineArrives e' pidIndex getpid ↔ CommandLineFits e' pidIndex getpid :=
  commandLineArrives_iff (named_of_registerServer h hrc he) pidIndex getpid

theorem commandLine_short :
    ∃ e, registerServer (fun _ ↦ true) .clear (shortLine 97 49 50) = some (0, e) ∧
      CommandLineArrives e 1 100 := by
  have hline : (registerServer (fun _ ↦ true) .clear (shortLine 97 49 50)).map (fun r ↦
      (r.1, r.2.svrid, cstr r.2.name.toList, cstr r.2.parm.toList)) = some (0, 1, [97], []) := by
    decide +kernel
  obtain ⟨⟨rc, e⟩, hreg, heq⟩ := Option.map_eq_some_iff.1 hline
  simp only [Prod.mk.injEq] at heq
  obtain ⟨rfl, hid, hname, hparm⟩ := heq
  refine ⟨e, hreg, (commandLine_iff hreg le_rfl ⟨by decide, by decide⟩ ⟨1, by decide⟩ ⟨100, by decide⟩).2
    ⟨?_, ?_, ?_⟩⟩
  · show commandLength e 1 100 ≤ serverMaxParam
    rw [commandLength, hid, hname, hparm]
    decide +kernel
  · rw [hparm, words_nil]
    decide
  · rw [hparm, List.rtakeWhile_nil]
    simp

/-- `a SRVID=1 SRVPARM="x x … x "`, with 26 words. -/
def manyWordsLine : List UInt8 :=
  text "a SRVID=1 SRVPARM=" ++ 34 :: ((List.replicate 26 [120, 32]).flatten ++ [34])

/-- A parameter of 26 words: the NULL behind the arguments is written behind the array. -/
theorem many_words_overrun :
    ¬ ∀ (buf : List UInt8) (e : SvrTab) (pidIndex getpid : IntVal), (cstr buf).length ≤ 512 →
      registerServer (fun _ ↦ true) .clear buf = some (0, e) →
      (cstr e.parm.toList).length ≤ serverMaxParam → CommandLineArrives e pidIndex getpid := fun h ↦ by
  have hline : (registerServer (fun _ ↦ true) .clear manyWordsLine).map (fun r ↦
      (r.1, (childArgv r.2 1 100).isSome, (cstr r.2.parm.toList).length)) = some (0, false, 52) := by
    decide +kernel
  obtain ⟨⟨rc, e⟩, hreg, heq⟩ := Option.map_eq_some_iff.1 hline
  simp only [Prod.mk.injEq] at heq
  obtain ⟨rfl, hnone, hlen⟩ := heq
  have hparm : (cstr e.parm.toList).length ≤ serverMaxParam := by
    rw [hlen]
    decide
  obtain ⟨argv, hargv, -⟩ := h manyWordsLine e ⟨1, by decide⟩ ⟨100, by decide⟩ (by decide +kernel) hreg
    hparm
  have hsome : (childArgv e 1 100).isSome = true := by
    rw [hargv]
    rfl
  rw [hnone] at hsome
  cases hsome

end Sunda
