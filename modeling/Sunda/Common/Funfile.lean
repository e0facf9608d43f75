import Sunda.Base.Lines
import Sunda.Common.Funstr

/-!
# Reading the configuration file

The functions of `pubfun/common/funfile.c`. A line is read with `fgets`, which keeps the newline, into
a cleared array of 513 bytes, and trimmed with `AllTrim`, which removes blanks only. So the string of
a terminated line still ends with its newline (`cfNextline_line`), and the string of an unterminated
last line comes together with the end-of-file flag (`cfNextline_tail`). The loop that looks for a
parameter tests that flag behind every line, the one it stops at included.

`seekParm_hit` and `seekParm_miss` say what that loop finds in a `TextFile`: the first terminated line
it can stop at, and never the unterminated one.

`cf_locatenum` copies to an array of 25 bytes without a length. An outcome `none` of the model is a
copy that leaves it.
-/

namespace Sunda

open Bytes Decimal Lines

/-! ### The functions -/

/-- `sizeof(line)`. -/
def lineSize : ℕ := 513

/-- A `FILE *` open for reading. -/
structure CfFile extends Stream UInt8 where
  content : List UInt8

/-- `cf_open` of a file that is there. -/
def cfOpen (content : List UInt8) : CfFile where
  toStream := .opened content
  content := content

/-- `cf_nextline` into a cleared line. Where `fgets` has nothing to read the line stays cleared. -/
def cfNextline (f : CfFile) : List UInt8 × CfFile :=
  let r := gets 10 (lineSize - 1) f.toStream
  (allTrim (bufRead r.1 0 lineSize), { f with toStream := r.2 })

/-- `cf_rewind`. -/
def cfRewind (f : CfFile) : CfFile :=
  cfOpen f.content

/-- The test of a line against `pname`. A name of more than 512 characters makes the source look
behind the line; it differs from the line before that. -/
def isParm (pname line : List UInt8) : Bool :=
  (line.getD pname.length 0 == 0 || line.getD pname.length 0 == 32) &&
    line.take pname.length == pname

/-- The loop of `cf_locate` and of `cf_nextparm`, with the line last read. -/
def seekLoop (pname : List UInt8) : ℕ → CfFile → List UInt8 → List UInt8 × CfFile
  | 0, f, line => (line, f)
  | fuel + 1, f, line =>
    if f.eof then (line, f)
    else
      let r := cfNextline f
      if r.1.getD 0 0 = 35 then seekLoop pname fuel r.2 r.1
      else if isParm pname r.1 then r
      else seekLoop pname fuel r.2 r.1

/-- The loop from a position in the file; every pass reads a character or the end. -/
def seekParm (pname : List UInt8) (f : CfFile) : List UInt8 × CfFile :=
  seekLoop pname (f.rest.length + 1) f []

/-- `cf_locate`: the return value with the array behind `value`. -/
def cfLocate (pname : List UInt8) (f : CfFile) (value : List UInt8) :
    Option (ℤ × List UInt8) × CfFile :=
  let r := seekParm pname (cfRewind f)
  if r.2.eof then (some (-1, value), r.2)
  else
    let s := cstr (r.1.drop pname.length)
    if value.length ≤ s.length then (none, r.2)
    else (some (0, allTrim (s ++ 0 :: value.drop (s.length + 1))), r.2)

/-- `cf_locatenum`: `some v` is the return value 0 with `v` stored, `none` is -1. -/
def cfLocatenum (pname : List UInt8) (f : CfFile) : Option (Option ℤ) × CfFile :=
  let r := cfLocate pname f (List.replicate 25 0)
  (r.1.map fun (rc, buf) ↦
    if rc < 0 then none
    else if isDigitBuf buf (cstr buf).length = false then none
    else some (atoi buf), r.2)

/-- `cf_nextparm`: `some value` is the return value 0, `none` is -1. -/
def cfNextparm (pname : List UInt8) (f : CfFile) : Option (List UInt8) × CfFile :=
  let r := seekParm pname f
  if r.2.eof then (none, r.2)
  else
    let len := pname.length
    let line := rightTrim (r.1.take len ++ leftTrim (r.1.drop len))
    (some (cstr (line.drop len)), r.2)

/-- What `n` calls of `cf_nextparm` in a row return. -/
def nextparms (pname : List UInt8) : ℕ → CfFile → List (Option (List UInt8))
  | 0, _ => []
  | n + 1, f => (cfNextparm pname f).1 :: nextparms pname n (cfNextparm pname f).2

/-! ### Configuration files -/

/-- A line without its newline. -/
structure Line where
  chars : List UInt8
  noNul : 0 ∉ chars
  noNewline : 10 ∉ chars
  length_le : chars.length ≤ 511

/-- The lines ended by a newline, and what stands behind the last newline. -/
structure TextFile where
  lines : List Line
  tail : Line

namespace TextFile

def bytes (file : TextFile) : List UInt8 :=
  textOf 10 (file.lines.map Line.chars) file.tail.chars

/-- Every line, the unterminated one included. -/
def all (file : TextFile) : List (List UInt8) :=
  file.lines.map Line.chars ++ [file.tail.chars]

end TextFile

/-- A parameter name: a C string. -/
structure ParmName where
  chars : List UInt8
  noNul : 0 ∉ chars

/-- A line without the blanks in front of it. -/
def lead (l : List UInt8) : List UInt8 :=
  l.dropWhile isBlank

/-- `s` is no comment and starts with `name`, with a blank or nothing behind it. -/
def HasKey (name s : List UInt8) : Prop :=
  s.head? ≠ some 35 ∧ name <+: s ∧ (s[name.length]? = none ∨ s[name.length]? = some 32)

instance (name s : List UInt8) : Decidable (HasKey name s) :=
  inferInstanceAs (Decidable (_ ∧ _ ∧ _))

/-- `l` is no comment and starts with `name` and a blank. -/
def IsParmLine (name l : List UInt8) : Prop :=
  (lead l).head? ≠ some 35 ∧ name ++ [32] <+: lead l

instance (name l : List UInt8) : Decidable (IsParmLine name l) :=
  inferInstanceAs (Decidable (_ ∧ _))

/-! ### One line -/

/-- The newline is not a blank, so `AllTrim` removes nothing in front of it. -/
theorem trimmed_newline (s : List UInt8) : trimmed (s ++ [10]) = lead s ++ [10] := by
  rw [trimmed, List.rdropWhile_concat_neg _ _ _ (by decide), lead, List.dropWhile_append]
  split
  · next hnil => rw [List.isEmpty_iff.1 hnil]; rfl
  · rfl

theorem cfNextline_line (l : Line) (xs content : List UInt8) :
    cstr (cfNextline ⟨.opened (l.chars ++ 10 :: xs), content⟩).1 = lead l.chars ++ [10] ∧
      (cfNextline ⟨.opened (l.chars ++ 10 :: xs), content⟩).2 = ⟨.opened xs, content⟩ := by
  have hlen := l.length_le
  have hgets : gets 10 (lineSize - 1) (.opened (l.chars ++ 10 :: xs)) =
      (l.chars ++ [10], .opened xs) :=
    gets_line l.noNewline (by rw [lineSize]; omega) xs
  have hz : (0 : UInt8) ∉ l.chars ++ [10] := by
    simpa using l.noNul
  have hfit : (l.chars ++ [10]).length ≤ lineSize := by
    rw [List.length_append, List.length_singleton, lineSize]
    omega
  simp only [cfNextline, hgets]
  refine ⟨?_, trivial⟩
  rw [cstr_allTrim, cstr_bufRead hz hfit, trimmed_newline]

theorem cfNextline_tail (l : Line) (content : List UInt8) :
    (cfNextline ⟨.opened l.chars, content⟩).2 = ⟨.ended, content⟩ := by
  have hlen := l.length_le
  have hgets : gets 10 (lineSize - 1) (.opened l.chars) = (l.chars, .ended) :=
    gets_tail l.noNewline (by rw [lineSize]; omega)
  simp only [cfNextline, hgets]

/-- The loop stops at a line whose string has the key. -/
theorem hasKey_iff (name : ParmName) (line : List UInt8) :
    HasKey name.chars (cstr line) ↔ line.getD 0 0 ≠ 35 ∧ isParm name.chars line = true := by
  have hhead : (cstr line).head? = some 35 ↔ line.getD 0 0 = 35 := by
    cases line with
    | nil => simp [cstr]
    | cons c cs =>
      by_cases hc : c = 0
      · subst hc
        simp [cstr_cons_zero]
      · simp [cstr_cons_of_ne hc]
  have hpre : name.chars <+: cstr line ↔ name.chars <+: line := by
    refine ⟨fun h ↦ h.trans (List.takeWhile_prefix _), ?_⟩
    rintro ⟨rest, rfl⟩
    rw [cstr_append name.noNul]
    exact List.prefix_append _ _
  have hnext (rest : List UInt8) :
      ((cstr rest)[0]? = none ∨ (cstr rest)[0]? = some 32) ↔
        (rest.getD 0 0 = 0 ∨ rest.getD 0 0 = 32) := by
    cases rest with
    | nil => simp [cstr]
    | cons c cs =>
      by_cases hc : c = 0
      · subst hc
        simp [cstr_cons_zero]
      · simp [cstr_cons_of_ne hc, hc]
  have htake : name.chars <+: line ↔ line.take name.chars.length = name.chars :=
    List.prefix_iff_eq_take.trans eq_comm
  rw [HasKey, isParm, Ne, hhead, hpre, Bool.and_eq_true, Bool.or_eq_true, beq_iff_eq, beq_iff_eq,
    beq_iff_eq, ← htake, and_comm (b := name.chars <+: line)]
  refine and_congr_right fun _ ↦ and_congr_right ?_
  rintro ⟨rest, rfl⟩
  rw [cstr_append name.noNul, List.getElem?_append_right le_rfl, Nat.sub_self,
    List.getD_append_right _ _ _ _ le_rfl, Nat.sub_self]
  exact hnext rest

/-! ### The loop -/

/-- A file with these lines left to read. -/
def leftToRead (lines : List Line) (tail : Line) (content : List UInt8) : CfFile :=
  ⟨.opened (textOf 10 (lines.map Line.chars) tail.chars), content⟩

/-- The end-of-file flag ends the loop. -/
theorem seekLoop_eof (name : List UInt8) (fuel : ℕ) {f : CfFile} (h : f.eof = true)
    (line : List UInt8) : seekLoop name fuel f line = (line, f) := by
  cases fuel with
  | zero => rfl
  | succ fuel => rw [seekLoop, if_pos h]

/-- More fuel than characters changes nothing. -/
theorem seekLoop_fuel (name : List UInt8) {fuel : ℕ} (f : CfFile) (line : List UInt8)
    (h : f.rest.length < fuel) :
    seekLoop name fuel f line = seekLoop name (f.rest.length + 1) f line := by
  induction fuel using Nat.strong_induction_on generalizing f line with
  | _ fuel ih =>
    -- both sides make the same pass, and end or go on with fewer characters
    have hgo (line : List UInt8) : seekLoop name (fuel - 1) (cfNextline f).2 line =
        seekLoop name f.rest.length (cfNextline f).2 line := by
      have hread : (cfNextline f).2.eof = true ∨ (cfNextline f).2.rest.length < f.rest.length :=
        gets_lt (Nat.succ_pos 511) f.toStream
      rcases hread with hend | hlt
      · rw [seekLoop_eof name _ hend, seekLoop_eof name _ hend]
      · rcases eq_or_ne (fuel - 1) f.rest.length with heq | hne
        · rw [heq]
        · rw [ih (fuel - 1) (by omega) _ line (hlt.trans (by omega)), ih f.rest.length h _ line hlt]
    obtain ⟨k, rfl⟩ := Nat.exists_eq_succ_of_ne_zero (show fuel ≠ 0 by omega)
    rw [Nat.succ_sub_one] at hgo
    rw [seekLoop, seekLoop]
    dsimp only
    rw [hgo]

/-- One pass over a terminated line. -/
theorem seekLoop_line (name : ParmName) (fuel : ℕ) (l : Line) (lines : List Line) (tail : Line)
    (content line : List UInt8) :
    ∃ line', cstr line' = lead l.chars ++ [10] ∧
      seekLoop name.chars (fuel + 1) (leftToRead (l :: lines) tail content) line =
        if HasKey name.chars (lead l.chars ++ [10]) then (line', leftToRead lines tail content)
        else seekLoop name.chars fuel (leftToRead lines tail content) line' := by
  obtain ⟨hstr, hrest⟩ := cfNextline_line l (textOf 10 (lines.map Line.chars) tail.chars) content
  have hf : leftToRead (l :: lines) tail content =
      ⟨.opened (l.chars ++ 10 :: textOf 10 (lines.map Line.chars) tail.chars), content⟩ := by
    rw [leftToRead, List.map_cons, textOf_cons]
  rw [← hf] at hstr hrest
  refine ⟨_, hstr, ?_⟩
  have hkey := hasKey_iff name (cfNextline (leftToRead (l :: lines) tail content)).1
  rw [hstr] at hkey
  rw [seekLoop, if_neg (by rw [hf]; exact Bool.false_ne_true)]
  dsimp only
  by_cases hcomment : (cfNextline (leftToRead (l :: lines) tail content)).1.getD 0 0 = 35
  · rw [if_pos hcomment, if_neg fun h ↦ (hkey.1 h).1 hcomment, hrest]
    rfl
  · rw [if_neg hcomment]
    by_cases hparm : isParm name.chars (cfNextline (leftToRead (l :: lines) tail content)).1 = true
    · rw [if_pos hparm, if_pos (hkey.2 ⟨hcomment, hparm⟩)]
      exact Prod.ext rfl hrest
    · rw [if_neg hparm, if_neg fun h ↦ hparm (hkey.1 h).2, hrest]
      rfl

/-- **The loop** stops at the first terminated line that has the key. -/
theorem seekLoop_hit (name : ParmName) {before : List Line} {l : Line} {fuel : ℕ}
    (hbefore : ∀ l' ∈ before, ¬ HasKey name.chars (lead l'.chars ++ [10]))
    (hl : HasKey name.chars (lead l.chars ++ [10])) (hfuel : before.length < fuel)
    (lines : List Line) (tail : Line) (content line : List UInt8) :
    ∃ line', cstr line' = lead l.chars ++ [10] ∧
      seekLoop name.chars fuel (leftToRead (before ++ l :: lines) tail content) line =
        (line', leftToRead lines tail content) := by
  induction before generalizing fuel line with
  | nil =>
    obtain ⟨k, rfl⟩ := Nat.exists_eq_succ_of_ne_zero (Nat.ne_zero_of_lt hfuel)
    obtain ⟨line', hstr, hstep⟩ := seekLoop_line name k l lines tail content line
    exact ⟨line', hstr, by rw [List.nil_append, hstep, if_pos hl]⟩
  | cons b before ih =>
    obtain ⟨k, rfl⟩ := Nat.exists_eq_succ_of_ne_zero (Nat.ne_zero_of_lt hfuel)
    obtain ⟨line', -, hstep⟩ := seekLoop_line name k b (before ++ l :: lines) tail content line
    rw [List.cons_append, hstep, if_neg (hbefore b List.mem_cons_self)]
    exact ih (fun l' hl' ↦ hbefore l' (List.mem_cons_of_mem b hl')) (Nat.lt_of_succ_lt_succ hfuel)
      line'

/-- **The loop** runs to the end of the file where no terminated line has the key, whatever stands
behind the last newline. -/
theorem seekLoop_miss (name : ParmName) {lines : List Line} {fuel : ℕ}
    (hlines : ∀ l ∈ lines, ¬ HasKey name.chars (lead l.chars ++ [10])) (hfuel : lines.length < fuel)
    (tail : Line) (content line : List UInt8) :
    (seekLoop name.chars fuel (leftToRead lines tail content) line).2 = ⟨.ended, content⟩ := by
  induction lines generalizing fuel line with
  | nil =>
    obtain ⟨k, rfl⟩ := Nat.exists_eq_succ_of_ne_zero (Nat.ne_zero_of_lt hfuel)
    have hrest : (cfNextline (leftToRead [] tail content)).2 = ⟨.ended, content⟩ :=
      cfNextline_tail tail content
    rw [seekLoop, if_neg (by exact Bool.false_ne_true)]
    dsimp only
    rw [hrest, seekLoop_eof name.chars k rfl]
    split
    · rfl
    · split
      · exact hrest
      · rfl
  | cons l lines ih =>
    obtain ⟨k, rfl⟩ := Nat.exists_eq_succ_of_ne_zero (Nat.ne_zero_of_lt hfuel)
    obtain ⟨line', -, hstep⟩ := seekLoop_line name k l lines tail content line
    rw [hstep, if_neg (hlines l List.mem_cons_self)]
    exact ih (fun l' hl' ↦ hlines l' (List.mem_cons_of_mem l hl')) (Nat.lt_of_succ_lt_succ hfuel)
      line'

/-! ### Finding a parameter -/

/-- The first terminated line that the loop can stop at. -/
def firstStop (name : ParmName) (lines : List Line) : Option Line :=
  lines.find? fun l ↦ HasKey name.chars (lead l.chars ++ [10])

theorem firstStop_eq_some {name : ParmName} {lines : List Line} {l : Line}
    (h : firstStop name lines = some l) :
    HasKey name.chars (lead l.chars ++ [10]) ∧ ∃ before behind, lines = before ++ l :: behind ∧
      ∀ l' ∈ before, ¬ HasKey name.chars (lead l'.chars ++ [10]) := by
  obtain ⟨hkey, before, behind, hlines, hbefore⟩ := List.find?_eq_some_iff_append.1 h
  exact ⟨by simpa using hkey, before, behind, hlines, by simpa using hbefore⟩

theorem firstStop_eq_none {name : ParmName} {lines : List Line} (h : firstStop name lines = none) :
    ∀ l ∈ lines, ¬ HasKey name.chars (lead l.chars ++ [10]) := by
  simpa [firstStop] using h

/-- The loop has passes enough for every line and for what stands behind the last one. -/
theorem length_lt_leftToRead (lines : List Line) (tail : Line) (content : List UInt8) :
    lines.length < (leftToRead lines tail content).rest.length + 1 :=
  Nat.lt_succ_of_le <| by
    have h := length_le_textOf 10 (lines.map Line.chars) tail.chars
    rwa [List.length_map] at h

theorem seekParm_hit (name : ParmName) {before : List Line} {l : Line}
    (hbefore : ∀ l' ∈ before, ¬ HasKey name.chars (lead l'.chars ++ [10]))
    (hl : HasKey name.chars (lead l.chars ++ [10])) (lines : List Line) (tail : Line)
    (content : List UInt8) :
    ∃ line, cstr line = lead l.chars ++ [10] ∧
      seekParm name.chars (leftToRead (before ++ l :: lines) tail content) =
        (line, leftToRead lines tail content) := by
  have hlen := length_lt_leftToRead (before ++ l :: lines) tail content
  rw [List.length_append] at hlen
  exact seekLoop_hit name hbefore hl (by omega) lines tail content []

theorem seekParm_miss (name : ParmName) {lines : List Line}
    (hlines : ∀ l ∈ lines, ¬ HasKey name.chars (lead l.chars ++ [10])) (tail : Line)
    (content : List UInt8) :
    (seekParm name.chars (leftToRead lines tail content)).2 = ⟨.ended, content⟩ :=
  seekLoop_miss name hlines (length_lt_leftToRead lines tail content) tail content []

/-! ### The key of a line -/

/-- The loop stops at a terminated line with the name and a blank behind it, or with nothing but the
name, the newline included. -/
theorem hasKey_newline_iff (name s : List UInt8) :
    HasKey name (s ++ [10]) ↔ s.head? ≠ some 35 ∧ (name = s ++ [10] ∨ name ++ [32] <+: s) := by
  have hhead : (s ++ [10]).head? = some 35 ↔ s.head? = some 35 := by
    cases s with
    | nil => decide
    | cons c s => rfl
  rw [HasKey, Ne, hhead, List.prefix_concat_iff]
  refine and_congr_right fun _ ↦ ?_
  by_cases hname : name = s ++ [10]
  · simp [hname]
  · rw [or_iff_right hname, or_iff_right hname]
    constructor
    · rintro ⟨⟨rest, rfl⟩, hnext⟩
      rw [List.append_assoc, List.getElem?_append_right le_rfl, Nat.sub_self] at hnext
      cases rest with
      | nil => simp at hnext
      | cons c rest =>
        obtain rfl : c = 32 := by simpa using hnext
        exact ⟨rest, by simp⟩
    · rintro ⟨rest, rfl⟩
      exact ⟨⟨32 :: rest, by simp⟩, .inr (by simp)⟩

/-! ### `cf_nextparm` -/

/-- Behind the name, the two trims leave the text without the white space at its ends. The second one
starts at the end of the line and comes as far as the name only if nothing else is left. -/
theorem cstr_drop_trims (name : ParmName) {line rest : List UInt8}
    (h : cstr line = name.chars ++ rest) :
    cstr ((rightTrim (line.take name.chars.length ++ leftTrim (line.drop name.chars.length))).drop
      name.chars.length) = trimWhite rest := by
  obtain ⟨r, rfl⟩ : name.chars <+: line :=
    (List.prefix_append name.chars rest).trans (h ▸ List.takeWhile_prefix _)
  rw [cstr_append name.noNul, List.append_cancel_left_eq] at h
  rw [List.take_left, List.drop_left, rightTrim, cstr_append name.noNul, cstr_leftTrim, h, trimWhite]
  have hleft : cstr (leftTrim r) = rest.dropWhile isWhite := by rw [cstr_leftTrim, h]
  rw [rdropWhile_append]
  split
  · next hnil =>
    have hnone := rdropWhile_dropWhile_eq_nil hnil
    have hle := (List.rdropWhile_prefix isWhite name.chars).length_le
    rw [hnil]
    rcases Nat.lt_or_eq_of_le hle with hlt | heq
    · -- the NUL is stored inside the name
      have hdrop (xs : List UInt8) {k n : ℕ} (hk : k < n) (hx : n ≤ xs.length) :
          (xs.take k ++ 0 :: xs.drop (k + 1)).drop n = xs.drop n := by
        rw [List.drop_append, List.length_take, List.drop_eq_nil_of_le (by simp; omega),
          List.nil_append, show n - min k xs.length = n - k - 1 + 1 by omega, List.drop_succ_cons,
          List.drop_drop]
        congr 1
        omega
      rw [hdrop _ hlt (by simp), List.drop_left, hleft, hnone]
    · rw [heq, List.take_left, List.drop_left, cstr_cons_zero]
  · next hne =>
    have hpre : (rest.dropWhile isWhite).rdropWhile isWhite <+: leftTrim r :=
      (List.rdropWhile_prefix _ _).trans (hleft ▸ List.takeWhile_prefix _)
    have hz : (0 : UInt8) ∉ (rest.dropWhile isWhite).rdropWhile isWhite := fun h0 ↦
      zero_notMem_cstr (leftTrim r) (hleft ▸ (List.rdropWhile_prefix _ _).subset h0)
    rw [List.length_append, List.take_length_add_append, ← List.prefix_iff_eq_take.1 hpre,
      List.append_assoc, List.drop_left, cstr_append_zero hz]

/-- What a call returns for a terminated line, `none` where it does not stop. -/
def parmRead (name : ParmName) (l : Line) : Option (List UInt8) :=
  if HasKey name.chars (lead l.chars ++ [10]) then
    some (trimWhite ((lead l.chars ++ [10]).drop name.chars.length))
  else none

/-- **One call** that finds a line. -/
theorem cfNextparm_hit (name : ParmName) {before : List Line} {l : Line}
    (hbefore : ∀ l' ∈ before, ¬ HasKey name.chars (lead l'.chars ++ [10]))
    (hl : HasKey name.chars (lead l.chars ++ [10])) (lines : List Line) (tail : Line)
    (content : List UInt8) :
    cfNextparm name.chars (leftToRead (before ++ l :: lines) tail content) =
      (parmRead name l, leftToRead lines tail content) := by
  obtain ⟨line, hstr, hseek⟩ := seekParm_hit name hbefore hl lines tail content
  have hsplit : cstr line = name.chars ++ (lead l.chars ++ [10]).drop name.chars.length := by
    rw [hstr]
    exact (List.prefix_append_drop hl.2.1)
  rw [cfNextparm, hseek, if_neg (by exact Bool.false_ne_true), parmRead, if_pos hl]
  exact congrArg (fun v ↦ (some v, leftToRead lines tail content)) (cstr_drop_trims name hsplit)

/-- **One call** that finds none, at the end of the file too. -/
theorem cfNextparm_miss (name : ParmName) {lines : List Line}
    (hlines : ∀ l ∈ lines, ¬ HasKey name.chars (lead l.chars ++ [10])) (tail : Line)
    (content : List UInt8) :
    cfNextparm name.chars (leftToRead lines tail content) = (none, ⟨.ended, content⟩) := by
  have hseek := seekParm_miss name hlines tail content
  rw [cfNextparm, hseek]
  rfl

theorem cfNextparm_ended (name content : List UInt8) :
    cfNextparm name ⟨.ended, content⟩ = (none, ⟨.ended, content⟩) :=
  rfl

theorem nextparms_ended (name content : List UInt8) (n : ℕ) :
    nextparms name n ⟨.ended, content⟩ = List.replicate n none := by
  induction n with
  | zero => rfl
  | succ n ih => rw [nextparms, cfNextparm_ended, ih, List.replicate_succ]

/-- **A run of calls** returns what the terminated lines give, in their order, and then -1. -/
theorem nextparms_leftToRead (name : ParmName) (lines : List Line) (tail : Line)
    (content : List UInt8) (k : ℕ) :
    nextparms name.chars ((lines.filterMap (parmRead name)).length + k)
        (leftToRead lines tail content) =
      (lines.filterMap (parmRead name)).map some ++ List.replicate k none := by
  have hnone {ls : List Line} (h : ∀ l ∈ ls, ¬ HasKey name.chars (lead l.chars ++ [10])) :
      ls.filterMap (parmRead name) = [] :=
    List.filterMap_eq_nil_iff.2 fun l hl ↦ if_neg (h l hl)
  induction hn : lines.length using Nat.strong_induction_on generalizing lines with
  | _ n ih =>
    cases hstop : firstStop name lines with
    | none =>
      have hlines := firstStop_eq_none hstop
      rw [hnone hlines, List.length_nil, Nat.zero_add, List.map_nil, List.nil_append]
      cases k with
      | zero => rfl
      | succ k =>
        rw [nextparms, cfNextparm_miss name hlines, nextparms_ended, List.replicate_succ]
    | some l =>
      obtain ⟨hkey, before, behind, rfl, hbefore⟩ := firstStop_eq_some hstop
      have hread : (before ++ l :: behind).filterMap (parmRead name) =
          trimWhite ((lead l.chars ++ [10]).drop name.chars.length) ::
            behind.filterMap (parmRead name) := by
        rw [List.filterMap_append, hnone hbefore, List.nil_append, List.filterMap_cons_some]
        rw [parmRead, if_pos hkey]
      have hlt : behind.length < n := by
        rw [← hn, List.length_append, List.length_cons]
        omega
      rw [hread, List.length_cons, Nat.add_right_comm, nextparms,
        cfNextparm_hit name hbefore hkey behind, ih _ hlt behind rfl, parmRead, if_pos hkey,
        List.map_cons, List.cons_append]

/-- What a line sets a parameter to: the trimmed text behind the name. -/
def parmOf (name l : List UInt8) : Option (List UInt8) :=
  if IsParmLine name l then some (trimWhite ((lead l).drop name.length)) else none

namespace TextFile

/-- What the lines of the file set a parameter to. -/
def parms (file : TextFile) (name : ParmName) : List (List UInt8) :=
  file.all.filterMap (parmOf name.chars)

/-- Repeated calls from the start of the file enumerate `parms`, and go on with -1. -/
def Enumerates (file : TextFile) (name : ParmName) : Prop :=
  ∀ k, nextparms name.chars ((file.parms name).length + k) (cfOpen file.bytes) =
    (file.parms name).map some ++ List.replicate k none

theorem parms_eq (file : TextFile) (name : ParmName) :
    file.parms name =
      file.lines.filterMap (fun l ↦ parmOf name.chars l.chars) ++
        (parmOf name.chars file.tail.chars).toList := by
  have htail : [file.tail.chars].filterMap (parmOf name.chars) =
      (parmOf name.chars file.tail.chars).toList := by
    cases h : parmOf name.chars file.tail.chars <;> simp [h]
  rw [parms, all, List.filterMap_append, List.filterMap_map, htail]
  rfl

end TextFile

/-- A name with a newline in it stands in no line. -/
theorem not_isParmLine {name : List UInt8} (h : 10 ∈ name) (l : Line) :
    ¬ IsParmLine name l.chars := fun hl ↦
  l.noNewline <| (List.dropWhile_suffix isBlank).subset <|
    hl.2.subset (List.mem_append_left _ h)

/-- The call returns what the line sets the parameter to, unless the line with its newline is the
name. -/
theorem parmRead_eq {name : ParmName} {l : Line}
    (h : (lead l.chars).head? ≠ some 35 → name.chars ≠ lead l.chars ++ [10]) :
    parmRead name l = parmOf name.chars l.chars := by
  have hkey : HasKey name.chars (lead l.chars ++ [10]) ↔ IsParmLine name.chars l.chars := by
    rw [hasKey_newline_iff]
    exact and_congr_right fun hun ↦ or_iff_right (h hun)
  rw [parmRead, parmOf]
  by_cases hl : IsParmLine name.chars l.chars
  · have hle := hl.2.length_le
    rw [List.length_append, List.length_singleton] at hle
    have hwhite (c : UInt8) (hc : c ∈ [10]) : isWhite c = true := by
      rw [List.mem_singleton.1 hc]
      rfl
    rw [if_pos hl, if_pos (hkey.2 hl), List.drop_append_of_le_length (by omega),
      trimWhite_append hwhite]
  · rw [if_neg hl, if_neg fun hk ↦ hl (hkey.1 hk)]

/-- Two enumerations of one run are the same. -/
theorem eq_of_map_some_append {xs ys : List (List UInt8)} {m n : ℕ}
    (h : xs.map some ++ List.replicate m none = ys.map some ++ List.replicate n none) : xs = ys := by
  simpa [List.filterMap_append, List.filterMap_map, List.filterMap_replicate] using
    congrArg (List.filterMap id) h

/-- **`cf_nextparm`** enumerates a parameter exactly when the file does not end with an unterminated
line of it, and the name is no line together with its newline. -/
theorem cf_nextparm_enumerates_iff (file : TextFile) (name : ParmName) :
    file.Enumerates name ↔ ¬ IsParmLine name.chars file.tail.chars ∧
      ∀ l ∈ file.lines, (lead l.chars).head? ≠ some 35 → name.chars ≠ lead l.chars ++ [10] := by
  have hrun := nextparms_leftToRead name file.lines file.tail file.bytes
  set reads := file.lines.filterMap (parmRead name) with hreads
  constructor
  · intro h
    have heq : file.parms name = reads := by
      refine eq_of_map_some_append (m := reads.length) (n := (file.parms name).length) ?_
      rw [← h, ← hrun, Nat.add_comm]
      rfl
    rw [TextFile.parms_eq] at heq
    refine ⟨fun htail ↦ ?_, fun l hl hun hname ↦ ?_⟩
    · -- the terminated lines give the same values, and the last line gives one more
      have hsame : reads = file.lines.filterMap fun l ↦ parmOf name.chars l.chars :=
        List.filterMap_congr fun l _ ↦ parmRead_eq fun _ hname ↦
          not_isParmLine (hname ▸ by simp) file.tail htail
      rw [hsame, parmOf, if_pos htail] at heq
      simp at heq
    · -- no line sets such a parameter, and the call stops at this one
      have hnl : 10 ∈ name.chars := hname ▸ by simp
      have hread : parmRead name l ≠ none := by
        rw [parmRead, if_pos ((hasKey_newline_iff _ _).2 ⟨hun, .inl hname⟩)]
        exact Option.some_ne_none _
      have hparm (l' : Line) : parmOf name.chars l'.chars = none :=
        if_neg (not_isParmLine hnl l')
      have hempty : reads = [] := by
        rw [← heq, hparm, List.filterMap_eq_nil_iff.2 fun l' _ ↦ hparm l']
        rfl
      exact hread (List.filterMap_eq_nil_iff.1 (hreads ▸ hempty) l hl)
  · rintro ⟨htail, hlines⟩ k
    have heq : file.parms name = reads := by
      rw [TextFile.parms_eq, parmOf, if_neg htail, Option.toList_none, List.append_nil]
      exact List.filterMap_congr fun l hl ↦ (parmRead_eq (hlines l hl)).symm
    rw [heq, ← hrun]
    rfl

/-- The last server of a file that does not end with a newline is never read. -/
theorem last_server_not_read :
    ¬ ∀ (file : TextFile) (name : ParmName), name.chars ≠ [] → file.Enumerates name := fun h ↦ by
  have := h ⟨[], ⟨text "tsk.task sdping", by decide, by decide, by decide⟩⟩
    ⟨text "tsk.task", by decide⟩ (by decide) 0
  revert this
  decide +kernel

/-! ### `cf_locatenum` -/

/-- `l` is the name, blanks, a number of one to nine digits and blanks. -/
def IsNumberLine (name l : List UInt8) (v : ℤ) : Prop :=
  ∃ blanks digits rest, lead l = name ++ (blanks ++ (digits ++ rest)) ∧
    (blanks ≠ [] ∧ ∀ c ∈ blanks, isBlank c = true) ∧
    (digits ≠ [] ∧ digits.length ≤ 9 ∧ ∀ c ∈ digits, isDigit c = true) ∧
    (∀ c ∈ rest, isBlank c = true) ∧ v = scanDigits 0 digits

namespace TextFile

/-- The first uncommented line with that key. -/
def firstKeyLine (file : TextFile) (name : ParmName) : Option (List UInt8) :=
  file.all.find? fun l ↦ HasKey name.chars (lead l)

/-- The number of the first line with that key is returned if that line is a number line, and
otherwise -1. -/
def LocatesNumber (file : TextFile) (name : ParmName) (r : Option (Option ℤ)) : Prop :=
  (∀ l v, file.firstKeyLine name = some l → IsNumberLine name.chars l v → r = some (some v)) ∧
    ((∀ l v, file.firstKeyLine name = some l → ¬ IsNumberLine name.chars l v) → r = some none)

end TextFile

/-- **`cf_locate`** where the loop stops at no line. -/
theorem cfLocate_miss {file : TextFile} {name : ParmName} (h : firstStop name file.lines = none)
    (pos : Stream UInt8) (value : List UInt8) :
    (cfLocate name.chars ⟨pos, file.bytes⟩ value).1 = some (-1, value) := by
  have hseek := seekParm_miss name (firstStop_eq_none h) file.tail file.bytes
  have hrewind : cfRewind ⟨pos, file.bytes⟩ = leftToRead file.lines file.tail file.bytes := rfl
  rw [cfLocate, hrewind, hseek, if_pos (by rfl)]

/-- **`cf_locate`** copies what stands behind the name, the newline included, and trims it. -/
theorem cfLocate_hit {file : TextFile} {name : ParmName} {l : Line}
    (h : firstStop name file.lines = some l) (pos : Stream UInt8) (value : List UInt8) :
    (cfLocate name.chars ⟨pos, file.bytes⟩ value).1 =
      let s := (lead l.chars ++ [10]).drop name.chars.length
      if value.length ≤ s.length then none
      else some (0, allTrim (s ++ 0 :: value.drop (s.length + 1))) := by
  obtain ⟨hkey, before, behind, hlines, hbefore⟩ := firstStop_eq_some h
  obtain ⟨line, hstr, hseek⟩ := seekParm_hit name hbefore hkey behind file.tail file.bytes
  have hrewind : cfRewind ⟨pos, file.bytes⟩ =
      leftToRead (before ++ l :: behind) file.tail file.bytes := by
    rw [← hlines]
    rfl
  obtain ⟨rest, hrest⟩ := hkey.2.1
  obtain ⟨r, rfl⟩ : name.chars <+: line :=
    (hstr ▸ hkey.2.1).trans (List.takeWhile_prefix _)
  have hbehind : cstr r = rest := List.append_cancel_left <| by
    rw [← cstr_append name.noNul, hstr, hrest]
  rw [cfLocate, hrewind, hseek, if_neg (by exact Bool.false_ne_true), ← hrest]
  dsimp only
  rw [List.drop_left, List.drop_left, hbehind]
  split
  · rfl
  · rfl

theorem Line.zero_notMem_lead (l : Line) : (0 : UInt8) ∉ lead l.chars ++ [10] := fun h ↦ by
  rcases List.mem_append.1 h with h | h
  · exact l.noNul ((List.dropWhile_suffix isBlank).subset h)
  · exact absurd (List.mem_singleton.1 h) (by decide)

theorem isDigitBuf_cstr (buf : List UInt8) :
    isDigitBuf buf (cstr buf).length = (cstr buf).all isDigit := by
  have hpre : cstr buf <+: buf := List.takeWhile_prefix _
  rw [isDigitBuf, ← List.prefix_iff_eq_take.1 hpre]

/-- **`cf_locatenum`** reads what stands behind the name in the first line it stops at. Its newline is
copied with it and is not trimmed, so it is no number. -/
theorem cfLocatenum_eq (file : TextFile) (name : ParmName) (pos : Stream UInt8) :
    (cfLocatenum name.chars ⟨pos, file.bytes⟩).1 =
      match firstStop name file.lines with
      | none => some none
      | some l =>
        if 24 + name.chars.length < (lead l.chars ++ [10]).length then none
        else if name.chars = lead l.chars ++ [10] then some (some 0)
        else some none := by
  rw [cfLocatenum]
  cases hstop : firstStop name file.lines with
  | none =>
    rw [cfLocate_miss hstop]
    rfl
  | some l =>
    obtain ⟨hkey, -⟩ := firstStop_eq_some hstop
    rw [cfLocate_hit hstop]
    dsimp only
    rw [List.length_drop, List.length_replicate]
    by_cases hlong : 24 + name.chars.length < (lead l.chars ++ [10]).length
    · rw [if_pos hlong, if_pos (by omega)]
      rfl
    rw [if_neg hlong, if_neg (by omega), Option.map_some]
    dsimp only
    rw [if_neg (by decide), isDigitBuf_cstr]
    by_cases hname : name.chars = lead l.chars ++ [10]
    · rw [if_pos hname, hname, Nat.sub_self, List.drop_length]
      decide +kernel
    · obtain ⟨rest, hrest⟩ := ((hasKey_newline_iff _ _).1 hkey).2.resolve_left hname
      have hbehind : (lead l.chars ++ [10]).drop name.chars.length = 32 :: rest ++ [10] := by
        rw [← hrest, List.append_assoc, List.append_assoc, List.drop_left]
        rfl
      have hz : (0 : UInt8) ∉ 32 :: rest ++ [10] := fun h0 ↦
        l.zero_notMem_lead (List.mem_of_mem_drop (hbehind ▸ h0))
      have hdigit : (lead (32 :: rest) ++ [10]).all isDigit = false :=
        List.all_eq_false.2 ⟨10, List.mem_append_right _ List.mem_cons_self, by decide⟩
      rw [if_neg hname, hbehind, cstr_allTrim, cstr_append_zero hz, trimmed_newline, hdigit]
      rfl

/-- The key of a number line is a name without a newline. -/
theorem IsNumberLine.noNewline {file : TextFile} {name l : List UInt8} {v : ℤ}
    (h : IsNumberLine name l v) (hl : l ∈ file.all) : 10 ∉ name := fun hname ↦ by
  obtain ⟨blanks, digits, rest, hlead, -⟩ := h
  have hin : 10 ∈ lead l := by
    rw [hlead]
    exact List.mem_append_left _ hname
  have hmem : 10 ∈ l := (List.dropWhile_suffix isBlank).subset hin
  rcases List.mem_append.1 hl with hl | hl
  · obtain ⟨l', -, rfl⟩ := List.mem_map.1 hl
    exact l'.noNewline hmem
  · rw [List.mem_singleton.1 hl] at hmem
    exact file.tail.noNewline hmem

/-- No number is read, whatever the file says. -/
theorem cfLocatenum_ne_some (file : TextFile) (name : ParmName) (hname : 10 ∉ name.chars)
    (pos : Stream UInt8) (v : ℤ) :
    (cfLocatenum name.chars ⟨pos, file.bytes⟩).1 ≠ some (some v) := fun h ↦ by
  rw [cfLocatenum_eq] at h
  cases hstop : firstStop name file.lines with
  | none => simp [hstop] at h
  | some l =>
    rw [hstop] at h
    dsimp only at h
    rw [if_neg fun heq : name.chars = lead l.chars ++ [10] ↦ hname (heq ▸ by simp)] at h
    split at h <;> simp at h

/-- **`cf_locatenum`** does what a file's number lines ask for exactly where they ask for nothing: the
first line with the key is no number line, and where the loop stops at a line, 1 to 24 characters
stand behind the name, the newline included. -/
theorem cf_locatenum_locates_iff (file : TextFile) (name : ParmName) (pos : Stream UInt8) :
    file.LocatesNumber name (cfLocatenum name.chars ⟨pos, file.bytes⟩).1 ↔
      (∀ l v, file.firstKeyLine name = some l → ¬ IsNumberLine name.chars l v) ∧
        ∀ l, firstStop name file.lines = some l →
          name.chars.length ≤ (lead l.chars).length ∧
            (lead l.chars).length < name.chars.length + 24 := by
  constructor
  · rintro ⟨hnumber, hother⟩
    have hnone (l : List UInt8) (v : ℤ) (hl : file.firstKeyLine name = some l) :
        ¬ IsNumberLine name.chars l v := fun hv ↦
      cfLocatenum_ne_some file name (hv.noNewline (List.mem_of_find?_eq_some hl)) pos v
        (hnumber l v hl hv)
    refine ⟨hnone, fun l hl ↦ ?_⟩
    have hr := hother hnone
    rw [cfLocatenum_eq, hl] at hr
    dsimp only at hr
    split at hr
    · cases hr
    · next hshort =>
      split at hr
      · cases hr
      · next hne =>
        have hpre := ((hasKey_newline_iff _ _).1 (firstStop_eq_some hl).1).2.resolve_left hne
        have hle := hpre.length_le
        rw [List.length_append, List.length_singleton] at hle hshort
        omega
  · rintro ⟨hnone, hstop⟩
    refine ⟨fun l v hl hv ↦ absurd hv (hnone l v hl), fun _ ↦ ?_⟩
    rw [cfLocatenum_eq]
    cases hl : firstStop name file.lines with
    | none => rfl
    | some l =>
      obtain ⟨hle, hlt⟩ := hstop l hl
      have hlen : (lead l.chars ++ [10]).length = (lead l.chars).length + 1 := List.length_append
      dsimp only
      rw [if_neg (by omega), if_neg fun heq ↦ by rw [heq] at hle; omega]

/-- The file `sd.svrnum 5`, with its newline, does not set the number of services. -/
theorem svrnum_not_read :
    ¬ ∀ (file : TextFile) (name : ParmName) (pos : Stream UInt8),
      file.LocatesNumber name (cfLocatenum name.chars ⟨pos, file.bytes⟩).1 := fun h ↦ by
  have hnumber : IsNumberLine (text "sd.svrnum") (text "sd.svrnum 5") 5 :=
    ⟨[32], [53], [], by decide, ⟨by decide, by simp [isBlank]⟩,
      ⟨by decide, by decide, by simp [isDigit]⟩, by simp, by decide⟩
  have hread := (h ⟨[⟨text "sd.svrnum 5", by decide, by decide, by decide⟩],
    ⟨[], by decide, by decide, by decide⟩⟩ ⟨text "sd.svrnum", by decide⟩ (.opened [])).1
    (text "sd.svrnum 5") 5 (by decide) hnumber
  revert hread
  decide +kernel

/-! ### The settings of `sys_start` -/

/-- The settings that `sys_start` reads before it creates the shared memory. -/
structure SysParam where
  nsvrnum : ℤ
  npidnum : ℤ
  nmsglen : ℤ
  nreqQue : ℤ
  nrspQue : ℤ
  deriving DecidableEq

def defReqQue : ℤ := 601107
def defRspQue : ℤ := 601117

/-- One setting: the number in the file where it is positive, and otherwise the default. -/
def sysSetting (pname : String) (dflt : ℤ) (f : CfFile) : Option ℤ × CfFile :=
  let r := cfLocatenum (text pname) f
  (r.1.map fun n ↦ n.elim dflt fun n ↦ if n ≤ 0 then dflt else n, r.2)

/-- The settings read by `sys_start`, one after the other. -/
def sysParam (f : CfFile) : Option SysParam :=
  let svrnum := sysSetting "sd.svrnum" 80 f
  let pidnum := sysSetting "sd.pidnum" 800 svrnum.2
  let msglen := sysSetting "sd.maxmsglen" 4096 pidnum.2
  let reqQue := sysSetting "sd.req_que" defReqQue msglen.2
  let rspQue := sysSetting "sd.rsp_que" defRspQue reqQue.2
  svrnum.1.bind fun nsvrnum ↦ pidnum.1.bind fun npidnum ↦ msglen.1.bind fun nmsglen ↦
    reqQue.1.bind fun nreqQue ↦ rspQue.1.map fun nrspQue ↦
      { nsvrnum, npidnum, nmsglen, nreqQue, nrspQue }

def SysParam.defaults : SysParam where
  nsvrnum := 80
  npidnum := 800
  nmsglen := 4096
  nreqQue := defReqQue
  nrspQue := defRspQue

theorem seekLoop_content (name : List UInt8) (fuel : ℕ) (f : CfFile) (line : List UInt8) :
    (seekLoop name fuel f line).2.content = f.content := by
  induction fuel generalizing f line with
  | zero => rfl
  | succ fuel ih =>
    have hread : (cfNextline f).2.content = f.content := rfl
    rw [seekLoop]
    split
    · rfl
    · dsimp only
      split
      · rw [ih, hread]
      · split
        · exact hread
        · rw [ih, hread]

theorem cfLocatenum_content (name : List UInt8) (f : CfFile) :
    (cfLocatenum name f).2.content = f.content := by
  have hseek : (seekParm name (cfRewind f)).2.content = f.content := by
    rw [seekParm, seekLoop_content, cfRewind, cfOpen]
  simpa only [cfLocatenum, cfLocate, apply_ite Prod.snd, ite_self] using hseek

/-- A setting is the default, wherever the file stands. -/
theorem sysSetting_eq (file : TextFile) (pname : String) (dflt : ℤ)
    (hz : 0 ∉ text pname) (hnl : 10 ∉ text pname) {f : CfFile} (hf : f.content = file.bytes) :
    (sysSetting pname dflt f).2.content = file.bytes ∧
      ∀ n, (sysSetting pname dflt f).1 = some n → n = dflt := by
  constructor
  · simpa only [sysSetting, cfLocatenum_content] using hf
  · intro n hn
    simp only [sysSetting, Option.map_eq_some_iff] at hn
    obtain ⟨r, hr, rfl⟩ := hn
    cases r with
    | none => rfl
    | some v =>
      have hne := cfLocatenum_ne_some file ⟨text pname, hz⟩ hnl f.toStream v
      rw [← hf] at hne
      exact absurd hr hne

/-- **`sys_start`** starts with the default of every setting, whatever the configuration file says. -/
theorem sysParam_eq_defaults (file : TextFile) {r : SysParam}
    (h : sysParam (cfOpen file.bytes) = some r) : r = .defaults := by
  have hopen : (cfOpen file.bytes).content = file.bytes := by rw [cfOpen]
  obtain ⟨hc1, h1⟩ := sysSetting_eq file "sd.svrnum" 80 (by decide) (by decide) hopen
  obtain ⟨hc2, h2⟩ := sysSetting_eq file "sd.pidnum" 800 (by decide) (by decide) hc1
  obtain ⟨hc3, h3⟩ := sysSetting_eq file "sd.maxmsglen" 4096 (by decide) (by decide) hc2
  obtain ⟨hc4, h4⟩ := sysSetting_eq file "sd.req_que" defReqQue (by decide) (by decide) hc3
  obtain ⟨-, h5⟩ := sysSetting_eq file "sd.rsp_que" defRspQue (by decide) (by decide) hc4
  simp only [sysParam, Option.bind_eq_some_iff, Option.map_eq_some_iff] at h
  obtain ⟨svrnum, e1, pidnum, e2, msglen, e3, reqQue, e4, rspQue, e5, rfl⟩ := h
  rw [h1 _ e1, h2 _ e2, h3 _ e3, h4 _ e4, h5 _ e5, SysParam.defaults]

end Sunda
