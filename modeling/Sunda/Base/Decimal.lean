import Mathlib.Data.Nat.Digits.Defs
import Mathlib.Data.List.TakeWhile
import Mathlib.Data.Nat.Digits.Lemmas
import Mathlib.Tactic.Ring

/-!
# Decimal text: `sprintf("%0*d", width, v)` and `atoi`

The C library's conversions between an integer and its decimal text, over byte lists.

`sprintf0d` pads with zeros to at least `width` characters, a minus sign included; a number that
needs more characters is not truncated. `atoi` is glibc's `(int) strtol(s, NULL, 10)`: it skips
white space, takes an optional sign and the longest run of digits (an empty run is zero), saturates
to the range of `long` and keeps the low 32 bits. `atol` keeps the `long`.

`atoi_sprintf0d` is the round trip for every non-negative `int`, at every width.

`Numeral s v` says what the conversions look for at the front of a text, without saying how it is
scanned; `reads_iff_atoi` is what `atoi` makes of a text that has no numeral there.
-/

namespace Decimal

/-- The character of a decimal digit. -/
def digitChar (d : ℕ) : UInt8 :=
  UInt8.ofNat (48 + d)

/-- `isdigit`. -/
def isDigit (c : UInt8) : Bool :=
  48 ≤ c.toNat && c.toNat ≤ 57

/-- `isspace` in the C locale. -/
def isSpace (c : UInt8) : Bool :=
  c.toNat == 32 || (9 ≤ c.toNat && c.toNat ≤ 13)

/-- The decimal digits of a natural number, most significant first. -/
def natText (n : ℕ) : List UInt8 :=
  if n = 0 then [48] else (Nat.digits 10 n).reverse.map digitChar

/-- `sprintf("%0*d", width, v)`. -/
def sprintf0d (width : ℕ) (v : ℤ) : List UInt8 :=
  if v < 0 then
    45 :: (List.replicate (width - 1 - (natText v.natAbs).length) 48 ++ natText v.natAbs)
  else
    List.replicate (width - (natText v.natAbs).length) 48 ++ natText v.natAbs

/-- `sprintf("%d", v)`. -/
def sprintfd (v : ℤ) : List UInt8 :=
  if v < 0 then 45 :: natText v.natAbs else natText v.natAbs

/-- `sprintf("%*d", width, v)`: filled up with blanks. -/
def sprintfwd (width : ℕ) (v : ℤ) : List UInt8 :=
  List.replicate (width - (sprintfd v).length) 32 ++ sprintfd v

/-- The value of the leading run of digits, on top of the value `acc` read so far. -/
def scanDigits : ℕ → List UInt8 → ℕ
  | acc, [] => acc
  | acc, c :: cs => if isDigit c then scanDigits (10 * acc + (c.toNat - 48)) cs else acc

/-- Saturation to the range of a 64-bit `long`, as `strtol` does. -/
def clampLong (v : ℤ) : ℤ :=
  max (-2 ^ 63) (min (2 ^ 63 - 1) v)

/-- An optional sign and the digits behind it. -/
def signedDigits : List UInt8 → ℤ
  | 43 :: t => scanDigits 0 t
  | 45 :: t => -scanDigits 0 t
  | t => scanDigits 0 t

/-- `atoi`. The text ends at the end of the list or at a NUL, whichever comes first: neither is a
digit. -/
def atoi (s : List UInt8) : ℤ :=
  (BitVec.ofInt 32 (clampLong (signedDigits (s.dropWhile isSpace)))).toInt

/-- `atol`. -/
def atol (s : List UInt8) : ℤ :=
  clampLong (signedDigits (s.dropWhile isSpace))

/-! ### Digits -/

theorem toNat_digitChar {d : ℕ} (h : d < 10) : (digitChar d).toNat = 48 + d := by
  rw [digitChar, UInt8.toNat_ofNat']
  omega

theorem isDigit_digitChar {d : ℕ} (h : d < 10) : isDigit (digitChar d) = true := by
  rw [isDigit, toNat_digitChar h]
  simp; omega

/-- Scanning the characters of digits computes their base-ten value. -/
theorem scanDigits_map_digitChar (acc : ℕ) {ds : List ℕ} (h : ∀ d ∈ ds, d < 10) :
    scanDigits acc (ds.map digitChar) = ds.foldl (fun a d ↦ 10 * a + d) acc := by
  induction ds generalizing acc with
  | nil => rfl
  | cons d ds ih =>
    have hd : d < 10 := h d (List.mem_cons_self ..)
    rw [List.map_cons, scanDigits, isDigit_digitChar hd, if_pos rfl, toNat_digitChar hd,
      Nat.add_sub_cancel_left, ih _ fun e he ↦ h e (List.mem_cons_of_mem d he), List.foldl_cons]

theorem scanDigits_natText (n : ℕ) : scanDigits 0 (natText n) = n := by
  by_cases hn : n = 0
  · subst hn; rfl
  · rw [natText, if_neg hn, scanDigits_map_digitChar 0 fun d hd ↦
      Nat.digits_lt_base (by omega) (List.mem_reverse.1 hd), List.foldl_reverse]
    conv_rhs => rw [← Nat.ofDigits_digits 10 n, Nat.ofDigits_eq_foldr]
    congr 1
    funext d a
    simp [Nat.add_comm]

/-- Leading zeros do not change the value. -/
theorem scanDigits_replicate_zero (k : ℕ) (s : List UInt8) :
    scanDigits 0 (List.replicate k 48 ++ s) = scanDigits 0 s := by
  induction k with
  | zero => rfl
  | succ k ih =>
    rw [List.replicate_succ, List.cons_append, scanDigits, if_pos (by decide)]
    exact ih

/-! ### Text of a number -/

/-- Different numbers have different texts. -/
theorem natText_injective : Function.Injective natText := fun m n h ↦ by
  rw [← scanDigits_natText m, h, scanDigits_natText]

theorem natText_length_le_iff {n w : ℕ} (hw : 0 < w) : (natText n).length ≤ w ↔ n < 10 ^ w := by
  by_cases hn : n = 0
  · rw [natText, if_pos hn, hn]
    exact iff_of_true hw (by positivity)
  · rw [natText, if_neg hn, List.length_map, List.length_reverse]
    exact Nat.digits_length_le_iff (by omega) n

theorem natText_length_le {n w : ℕ} (hw : 0 < w) (h : n < 10 ^ w) : (natText n).length ≤ w :=
  (natText_length_le_iff hw).2 h

theorem isDigit_of_mem_natText {n : ℕ} {c : UInt8} (h : c ∈ natText n) : isDigit c = true := by
  by_cases hn : n = 0
  · rw [natText, if_pos hn, List.mem_singleton] at h
    subst h; decide
  · rw [natText, if_neg hn, List.mem_map] at h
    obtain ⟨d, hd, rfl⟩ := h
    exact isDigit_digitChar (Nat.digits_lt_base (by omega) (List.mem_reverse.1 hd))

/-- A non-negative number that fits the width has exactly that many characters. -/
theorem sprintf0d_length {w n : ℕ} (hw : 0 < w) (h : n < 10 ^ w) :
    (sprintf0d w n).length = w := by
  have hlen : (natText n).length ≤ w := natText_length_le hw h
  rw [sprintf0d, if_neg (by omega), List.length_append, List.length_replicate, Int.natAbs_natCast]
  omega

/-- There are never fewer characters than the width says. -/
theorem le_sprintf0d_length (w n : ℕ) : w ≤ (sprintf0d w n).length := by
  rw [sprintf0d, if_neg (by omega), List.length_append, List.length_replicate]
  omega

theorem isDigit_of_mem_sprintf0d {w n : ℕ} {c : UInt8} (h : c ∈ sprintf0d w n) :
    isDigit c = true := by
  rw [sprintf0d, if_neg (by omega), Int.natAbs_natCast, List.mem_append] at h
  rcases h with h | h
  · rw [List.eq_of_mem_replicate h]; decide
  · exact isDigit_of_mem_natText h

/-! ### Reading it back -/

/-- Text made of digits has neither white space nor a sign in front. -/
theorem signedDigits_of_isDigit {s : List UInt8} (h : ∀ c ∈ s, isDigit c = true) :
    signedDigits (s.dropWhile isSpace) = scanDigits 0 s := by
  match s with
  | [] => rfl
  | c :: cs =>
    have hc : isDigit c = true := h c (List.mem_cons_self ..)
    have hsp : isSpace c = false := by
      simp only [isDigit, isSpace, Bool.and_eq_true, decide_eq_true_eq] at hc ⊢
      simp; omega
    rw [List.dropWhile_cons, hsp, if_neg (by decide), signedDigits.eq_def]
    split
    · next heq => rw [(List.cons.inj heq).1] at hc; exact absurd hc (by decide)
    · next heq => rw [(List.cons.inj heq).1] at hc; exact absurd hc (by decide)
    · rfl

/-- `atoi` of a number in the range of an `int`. -/
theorem atoi_of_signedDigits {s : List UInt8} {v : ℤ} (h : signedDigits (s.dropWhile isSpace) = v)
    (h0 : -2 ^ 31 ≤ v) (h1 : v < 2 ^ 31) : atoi s = v := by
  have hclamp : clampLong v = v := by
    rw [clampLong]
    omega
  rw [atoi, h, hclamp, BitVec.toInt_ofInt, Int.bmod_def]
  omega

/-- So `atoi` scans it directly. -/
theorem atoi_of_isDigit {s : List UInt8} (h : ∀ c ∈ s, isDigit c = true)
    (hlt : scanDigits 0 s < 2 ^ 31) : atoi s = scanDigits 0 s :=
  atoi_of_signedDigits (signedDigits_of_isDigit h) (by omega) (by exact_mod_cast hlt)

/-- Digits are worth less than the next power of ten. -/
theorem scanDigits_lt (acc : ℕ) (s : List UInt8) : scanDigits acc s < (acc + 1) * 10 ^ s.length := by
  induction s generalizing acc with
  | nil =>
    rw [scanDigits, List.length_nil, pow_zero]
    omega
  | cons c cs ih =>
    have hpow : (acc + 1) * 10 ^ (c :: cs).length = (10 * acc + 10) * 10 ^ cs.length := by
      rw [List.length_cons]
      ring
    rw [hpow, scanDigits]
    split
    · next hc =>
      have hdigit : c.toNat - 48 ≤ 9 := by
        simp only [isDigit, Bool.and_eq_true, decide_eq_true_eq] at hc
        omega
      exact (ih _).trans_le (Nat.mul_le_mul_right _ (by omega))
    · have hpos : 0 < 10 ^ cs.length := by positivity
      nlinarith

/-- So is a number with a sign. -/
theorem abs_signedDigits_lt (s : List UInt8) :
    -10 ^ s.length < signedDigits s ∧ signedDigits s < 10 ^ s.length := by
  have hscan (t : List UInt8) (ht : t.length ≤ s.length) : (scanDigits 0 t : ℤ) < 10 ^ s.length := by
    have hlt := scanDigits_lt 0 t
    rw [Nat.zero_add, Nat.one_mul] at hlt
    exact_mod_cast hlt.trans_le (Nat.pow_le_pow_right (by decide) ht)
  have hpos : (0 : ℤ) < 10 ^ s.length := by positivity
  rw [signedDigits.eq_def]
  split
  · next t =>
    have := hscan t (Nat.le_succ _)
    omega
  · next t =>
    have := hscan t (Nat.le_succ _)
    omega
  · have := hscan s le_rfl
    omega

/-- A number of at most nine characters is less than the next power of ten. -/
theorem atoi_lt {s : List UInt8} (h : s.length ≤ 9) : atoi s < 10 ^ s.length := by
  obtain ⟨hlo, hhi⟩ := abs_signedDigits_lt (s.dropWhile isSpace)
  have hdrop : (s.dropWhile isSpace).length ≤ s.length := (List.dropWhile_suffix _).length_le
  have hle : (10 : ℤ) ^ (s.dropWhile isSpace).length ≤ 10 ^ s.length :=
    pow_le_pow_right₀ (by decide) hdrop
  have hmax : (10 : ℤ) ^ s.length ≤ 10 ^ 9 := pow_le_pow_right₀ (by decide) h
  rw [atoi_of_signedDigits rfl (by omega) (by omega)]
  omega

/-- **Round trip.** The zero-padded text of a non-negative `int` reads back as the number. -/
theorem atoi_sprintf0d (w : ℕ) {n : ℕ} (h : n < 2 ^ 31) : atoi (sprintf0d w n) = n := by
  have hscan : scanDigits 0 (sprintf0d w n) = n := by
    rw [sprintf0d, if_neg (by omega), scanDigits_replicate_zero, Int.natAbs_natCast,
      scanDigits_natText]
  rw [atoi_of_isDigit (fun c hc ↦ isDigit_of_mem_sprintf0d hc) (by omega), hscan]

/-- The text of a number has its value. -/
theorem signedDigits_sprintfd (v : ℤ) : signedDigits ((sprintfd v).dropWhile isSpace) = v := by
  rw [sprintfd]
  split
  · show signedDigits (45 :: natText v.natAbs) = v
    rw [signedDigits, scanDigits_natText]
    omega
  · rw [signedDigits_of_isDigit fun c hc ↦ isDigit_of_mem_natText hc, scanDigits_natText]
    omega

/-- The text of a number is made of a sign and digits. -/
theorem isDigit_of_mem_sprintfd {v : ℤ} {c : UInt8} (h : c ∈ sprintfd v) (hc : c ≠ 45) :
    isDigit c = true := by
  rw [sprintfd] at h
  split at h
  · exact isDigit_of_mem_natText ((List.mem_cons.1 h).resolve_left hc)
  · exact isDigit_of_mem_natText h

/-- Different numbers have different texts. -/
theorem sprintfd_injective : Function.Injective sprintfd := fun v w h ↦ by
  rw [← signedDigits_sprintfd v, h, signedDigits_sprintfd]

/-- **Round trip** of an `int`. -/
theorem atoi_sprintfd {v : ℤ} (h0 : -2 ^ 31 ≤ v) (h1 : v < 2 ^ 31) : atoi (sprintfd v) = v :=
  atoi_of_signedDigits (signedDigits_sprintfd v) h0 h1

/-- **Round trip** of a `long`. -/
theorem atol_sprintfd {v : ℤ} (h0 : -2 ^ 63 ≤ v) (h1 : v < 2 ^ 63) : atol (sprintfd v) = v := by
  rw [atol, signedDigits_sprintfd, clampLong]
  omega

/-! ### Texts of digits -/

theorem scanDigits_append {s : List UInt8} (hs : ∀ c ∈ s, isDigit c = true) {t : List UInt8}
    (ht : ∀ c ∈ t, isDigit c = true) (acc : ℕ) :
    scanDigits acc (s ++ t) = scanDigits acc s * 10 ^ t.length + scanDigits 0 t := by
  induction s generalizing acc with
  | nil =>
    rw [List.nil_append, scanDigits]
    induction t generalizing acc with
    | nil => simp [scanDigits]
    | cons c t ih =>
      have hc : isDigit c = true := ht c List.mem_cons_self
      have ht' : ∀ d ∈ t, isDigit d = true := fun d hd ↦ ht d (List.mem_cons_of_mem c hd)
      rw [scanDigits, if_pos hc, scanDigits, if_pos hc, ih ht' (10 * acc + _),
        ih ht' (10 * 0 + _), List.length_cons, pow_succ]
      ring
  | cons c s ih =>
    rw [List.cons_append, scanDigits, if_pos (hs c List.mem_cons_self), scanDigits,
      if_pos (hs c List.mem_cons_self), ih fun d hd ↦ hs d (List.mem_cons_of_mem c hd)]

/-- The first digit counts for as many powers of ten as there are digits behind it. -/
theorem scanDigits_cons {c : UInt8} {s : List UInt8} (hc : isDigit c = true)
    (hs : ∀ d ∈ s, isDigit d = true) :
    scanDigits 0 (c :: s) = (c.toNat - 48) * 10 ^ s.length + scanDigits 0 s := by
  have happ := scanDigits_append (s := [c]) (by simpa using hc) hs 0
  rw [List.singleton_append] at happ
  rw [happ, scanDigits, if_pos hc, scanDigits, Nat.mul_zero, Nat.zero_add]

/-- Texts of digits of one length are told apart by their values. -/
theorem scanDigits_inj {s t : List UInt8} (hlen : s.length = t.length)
    (hs : ∀ c ∈ s, isDigit c = true) (ht : ∀ c ∈ t, isDigit c = true)
    (h : scanDigits 0 s = scanDigits 0 t) : s = t := by
  induction s generalizing t with
  | nil => exact (List.length_eq_zero_iff.1 hlen.symm).symm
  | cons c s ih =>
    obtain ⟨d, t, rfl⟩ := List.exists_cons_of_length_eq_add_one hlen.symm
    have hc := hs c List.mem_cons_self
    have hd := ht d List.mem_cons_self
    have hs' : ∀ x ∈ s, isDigit x = true := fun x hx ↦ hs x (List.mem_cons_of_mem c hx)
    have ht' : ∀ x ∈ t, isDigit x = true := fun x hx ↦ ht x (List.mem_cons_of_mem d hx)
    have hlen' : s.length = t.length := Nat.succ.inj hlen
    rw [scanDigits_cons hc hs', scanDigits_cons hd ht', hlen'] at h
    have hlt := scanDigits_lt 0 s
    have hlt' := scanDigits_lt 0 t
    rw [Nat.zero_add, Nat.one_mul] at hlt hlt'
    rw [hlen'] at hlt
    have hhead : c.toNat - 48 = d.toNat - 48 := by
      have hdiv := congrArg (· / 10 ^ t.length) h
      have hpos : 0 < 10 ^ t.length := by positivity
      simp only [Nat.mul_comm _ (10 ^ t.length), Nat.mul_add_div hpos, Nat.div_eq_of_lt hlt,
        Nat.div_eq_of_lt hlt', Nat.add_zero] at hdiv
      exact hdiv
    simp only [isDigit, Bool.and_eq_true, decide_eq_true_eq] at hc hd
    have hcd : c = d := UInt8.toNat_inj.1 (by omega)
    rw [hhead, Nat.add_left_cancel_iff] at h
    rw [hcd, ih hlen' hs' ht' h]

theorem scanDigits_sprintf0d (w n : ℕ) : scanDigits 0 (sprintf0d w n) = n := by
  rw [sprintf0d, if_neg (by omega), scanDigits_replicate_zero, Int.natAbs_natCast,
    scanDigits_natText]

/-- A text of digits is the padded text of its value. -/
theorem eq_sprintf0d {s : List UInt8} (hs : ∀ c ∈ s, isDigit c = true) (hpos : 0 < s.length) :
    s = sprintf0d s.length (scanDigits 0 s : ℕ) := by
  have hlt := scanDigits_lt 0 s
  rw [Nat.zero_add, Nat.one_mul] at hlt
  exact scanDigits_inj (sprintf0d_length hpos hlt).symm hs
    (fun c hc ↦ isDigit_of_mem_sprintf0d hc) (scanDigits_sprintf0d _ _).symm

/-- Blanks in front of digits are as good as zeros. -/
theorem atoi_replicate_blank (k : ℕ) {s : List UInt8} (h : ∀ c ∈ s, isDigit c = true) :
    atoi (List.replicate k 32 ++ s) = atoi (List.replicate k 48 ++ s) := by
  have hblanks : (List.replicate k 32 ++ s).dropWhile isSpace = s.dropWhile isSpace := by
    induction k with
    | zero => rfl
    | succ k ih =>
      rw [List.replicate_succ, List.cons_append, List.dropWhile_cons, if_pos (by decide), ih]
  have hzeros : ∀ c ∈ List.replicate k 48 ++ s, isDigit c = true := by
    intro c hc
    rcases List.mem_append.1 hc with hc | hc
    · rw [List.eq_of_mem_replicate hc]
      decide
    · exact h c hc
  rw [atoi, atoi, hblanks, signedDigits_of_isDigit h, signedDigits_of_isDigit hzeros,
    scanDigits_replicate_zero]

/-- **Round trip** of a `long` that was filled up with blanks. -/
theorem atol_sprintfwd (w : ℕ) {v : ℤ} (h0 : -2 ^ 63 ≤ v) (h1 : v < 2 ^ 63) :
    atol (sprintfwd w v) = v := by
  have hblanks : (sprintfwd w v).dropWhile isSpace = (sprintfd v).dropWhile isSpace := by
    rw [sprintfwd]
    induction w - (sprintfd v).length with
    | zero => rfl
    | succ k ih =>
      rw [List.replicate_succ, List.cons_append, List.dropWhile_cons, if_pos (by decide), ih]
  rw [atol, hblanks, ← atol, atol_sprintfd h0 h1]

/-- The digits end at a NUL. -/
theorem scanDigits_append_zero (acc : ℕ) (s rest : List UInt8) :
    scanDigits acc (s ++ 0 :: rest) = scanDigits acc s := by
  induction s generalizing acc with
  | nil => rfl
  | cons c s ih =>
    rw [List.cons_append, scanDigits, scanDigits]
    split
    · exact ih _
    · rfl

theorem signedDigits_append_zero (s rest : List UInt8) :
    signedDigits (s ++ 0 :: rest) = signedDigits s := by
  cases s with
  | nil => rfl
  | cons c s =>
    rw [List.cons_append, signedDigits.eq_def, signedDigits.eq_def (c :: s)]
    by_cases hplus : c = 43
    · subst hplus
      exact congrArg _ (scanDigits_append_zero 0 s rest)
    · by_cases hminus : c = 45
      · subst hminus
        exact congrArg (fun n : ℕ ↦ -(n : ℤ)) (scanDigits_append_zero 0 s rest)
      · simp only [List.cons.injEq, hplus, hminus, false_and, imp_self, implies_true]
        exact congrArg _ (scanDigits_append_zero 0 (c :: s) rest)

/-- `atol` reads up to the NUL. -/
theorem atol_append_zero (s rest : List UInt8) : atol (s ++ 0 :: rest) = atol s := by
  have hdrop : (s ++ 0 :: rest).dropWhile isSpace = s.dropWhile isSpace ++ 0 :: rest := by
    induction s with
    | nil => rfl
    | cons c s ih =>
      rw [List.cons_append, List.dropWhile_cons, List.dropWhile_cons]
      split
      · exact ih
      · rfl
  rw [atol, atol, hdrop, signedDigits_append_zero]

/-! ### What a text begins with -/

/-- `s` begins, behind white space, with a sign or none and digits that no further digit follows,
of value `v`. -/
def Numeral (s : List UInt8) (v : ℤ) : Prop :=
  ∃ blanks sign digits rest, s = blanks ++ (sign ++ (digits ++ rest)) ∧
    (∀ c ∈ blanks, isSpace c = true) ∧ (sign = [] ∨ sign = [43] ∨ sign = [45]) ∧
    digits ≠ [] ∧ (∀ c ∈ digits, isDigit c = true) ∧ (∀ c ∈ rest.head?, isDigit c = false) ∧
    v = if sign = [45] then -(scanDigits 0 digits : ℤ) else scanDigits 0 digits

/-- `v` is the value of the numeral that `s` begins with, zero where there is none. -/
def Reads (s : List UInt8) (v : ℤ) : Prop :=
  Numeral s v ∨ v = 0 ∧ ∀ w, ¬Numeral s w

theorem scanDigits_append_rest {digits rest : List UInt8} (hd : ∀ c ∈ digits, isDigit c = true)
    (hr : ∀ c ∈ rest.head?, isDigit c = false) (acc : ℕ) :
    scanDigits acc (digits ++ rest) = scanDigits acc digits := by
  induction digits generalizing acc with
  | nil =>
    cases rest with
    | nil => rfl
    | cons c rest =>
      have hc : isDigit c = false := hr c rfl
      simp [scanDigits, hc]
  | cons c digits ih =>
    rw [List.cons_append, scanDigits, scanDigits,
      ih fun d hd' ↦ hd d (List.mem_cons_of_mem c hd')]

theorem isSpace_of_isDigit {c : UInt8} (h : isDigit c = true) : isSpace c = false := by
  simp only [isDigit, isSpace, Bool.and_eq_true, decide_eq_true_eq] at h ⊢
  simp; omega

/-- The scan finds the numeral. -/
theorem Numeral.signedDigits {s : List UInt8} {v : ℤ} (h : Numeral s v) :
    signedDigits (s.dropWhile isSpace) = v := by
  obtain ⟨blanks, sign, digits, rest, rfl, hb, hsign, hne, hd, hr, rfl⟩ := h
  have hdrop : (blanks ++ (sign ++ (digits ++ rest))).dropWhile isSpace =
      (sign ++ (digits ++ rest)).dropWhile isSpace := by
    rw [List.dropWhile_append, List.dropWhile_eq_nil_iff.2 hb, List.isEmpty_nil, if_pos rfl]
  have hscan := scanDigits_append_rest hd hr 0
  obtain ⟨c, ds, rfl⟩ := List.exists_cons_of_ne_nil hne
  have hc : isDigit c = true := hd c List.mem_cons_self
  rw [hdrop]
  rcases hsign with rfl | rfl | rfl
  · rw [List.nil_append, List.cons_append, List.dropWhile_cons, isSpace_of_isDigit hc,
      if_neg (by decide), if_neg (by decide), ← hscan, Decimal.signedDigits.eq_def]
    split
    · next heq => rw [(List.cons.inj heq).1] at hc; exact absurd hc (by decide)
    · next heq => rw [(List.cons.inj heq).1] at hc; exact absurd hc (by decide)
    · rfl
  · rw [List.singleton_append, List.dropWhile_cons, if_neg (by decide), if_neg (by decide), ← hscan]
    rfl
  · rw [List.singleton_append, List.dropWhile_cons, if_neg (by decide), if_pos rfl, ← hscan]
    rfl

/-- A value other than zero comes from a numeral. -/
theorem numeral_of_signedDigits {s : List UInt8} (h : signedDigits (s.dropWhile isSpace) ≠ 0) :
    Numeral s (signedDigits (s.dropWhile isSpace)) := by
  -- the digits that follow the white space and the sign
  have hsplit : ∃ sign t, s.dropWhile isSpace = sign ++ t ∧
      (sign = [] ∨ sign = [43] ∨ sign = [45]) ∧ signedDigits (s.dropWhile isSpace) =
        if sign = [45] then -(scanDigits 0 t : ℤ) else scanDigits 0 t := by
    rw [signedDigits.eq_def]
    split
    · next t heq => exact ⟨[43], t, heq, Or.inr (Or.inl rfl), rfl⟩
    · next t heq => exact ⟨[45], t, heq, Or.inr (Or.inr rfl), rfl⟩
    · exact ⟨[], _, rfl, Or.inl rfl, rfl⟩
  obtain ⟨sign, t, ht, hsign, hval⟩ := hsplit
  have htake : t.takeWhile isDigit ++ t.dropWhile isDigit = t := List.takeWhile_append_dropWhile
  have hd : ∀ c ∈ t.takeWhile isDigit, isDigit c = true := fun c hc ↦ List.mem_takeWhile_imp hc
  have hr : ∀ c ∈ (t.dropWhile isDigit).head?, isDigit c = false := by
    intro c hc
    have hnot := List.head?_dropWhile_not isDigit t
    rw [Option.mem_def.1 hc] at hnot
    exact Bool.eq_false_iff.2 (by simpa using hnot)
  have hscan : scanDigits 0 t = scanDigits 0 (t.takeWhile isDigit) := by
    conv_lhs => rw [← htake]
    exact scanDigits_append_rest hd hr 0
  refine ⟨s.takeWhile isSpace, sign, t.takeWhile isDigit, t.dropWhile isDigit, ?_,
    fun c hc ↦ List.mem_takeWhile_imp hc, hsign, ?_, hd, hr, ?_⟩
  · rw [htake, ← ht, List.takeWhile_append_dropWhile]
  · intro hnil
    rw [hval, hscan, hnil] at h
    simp [scanDigits] at h
  · rw [hval, hscan]

/-- **What `atoi` returns**, for a text that cannot exceed an `int`. -/
theorem reads_iff_atoi {s : List UInt8} (hs : s.length ≤ 9) (v : ℤ) : Reads s v ↔ atoi s = v := by
  have hatoi : atoi s = signedDigits (s.dropWhile isSpace) := by
    obtain ⟨hlo, hhi⟩ := abs_signedDigits_lt (s.dropWhile isSpace)
    have hdrop : (s.dropWhile isSpace).length ≤ s.length := (List.dropWhile_suffix _).length_le
    have hmax : (10 : ℤ) ^ (s.dropWhile isSpace).length ≤ 10 ^ 9 :=
      pow_le_pow_right₀ (by decide) (hdrop.trans hs)
    exact atoi_of_signedDigits rfl (by omega) (by omega)
  rw [hatoi]
  constructor
  · rintro (h | ⟨rfl, hnone⟩)
    · exact h.signedDigits
    · by_contra hne
      exact hnone _ (numeral_of_signedDigits hne)
  · rintro rfl
    by_cases hzero : signedDigits (s.dropWhile isSpace) = 0
    · by_cases hnum : ∃ w, Numeral s w
      · obtain ⟨w, hw⟩ := hnum
        exact Or.inl (by rw [hw.signedDigits]; exact hw)
      · exact Or.inr ⟨hzero, fun w hw ↦ hnum ⟨w, hw⟩⟩
    · exact Or.inl (numeral_of_signedDigits hzero)

/-- A text of digits that reads as a number is the padded text of that number. -/
theorem eq_sprintf0d_of_reads {s : List UInt8} {n w : ℕ} (hs : ∀ c ∈ s, isDigit c = true)
    (hw : s.length = w) (hpos : 0 < w) (hle : w ≤ 9) (h : Reads s n) : s = sprintf0d w n := by
  have hlt := scanDigits_lt 0 s
  rw [Nat.zero_add, Nat.one_mul] at hlt
  have hmax : (10 : ℕ) ^ s.length ≤ 10 ^ 9 := Nat.pow_le_pow_right (by decide) (by omega)
  rw [reads_iff_atoi (by omega), atoi_of_isDigit hs (by omega)] at h
  rw [← h, ← hw]
  exact eq_sprintf0d hs (by omega)

end Decimal
