import Sunda.Base.Decimal
import Sunda.Base.Bytes
import Sunda.Base.Getopt

/-!
# The remote side of the long connection

`comm_init` and the accept loop of `comm/C002/C002.c`. The option `-i` gives the address of the one
peer: a client that connects from another address is turned away, and the process opens its own
connection to that address in turn. Addresses are compared as texts, the option's with the one that
`inet_ntoa` writes.

The option is copied with `strncpy(gsCltIP, optarg, 12)`, and the text of an address has up to 15
characters. So the peer is the configured one iff the text has at most 12 (`peer_exact_iff`); a
longer one is cut off, and where its beginning is an address itself, that host is let in.
-/

namespace Sunda.C002

open Bytes Decimal

/-- `struct in_addr`. -/
@[ext]
structure Ipv4 where
  a : UInt8
  b : UInt8
  c : UInt8
  d : UInt8
  deriving DecidableEq

/-- `inet_ntoa`. -/
def inetNtoa (p : Ipv4) : List UInt8 :=
  natText p.a.toNat ++ ch '.' :: (natText p.b.toNat ++ ch '.' ::
    (natText p.c.toNat ++ ch '.' :: natText p.d.toNat))

/-- The static variables that `comm_init` sets. -/
structure Settings where
  gSvrId : ℤ
  giLocPort : ℤ
  gsCltIP : List UInt8
  giRmtPort : ℤ
  deriving DecidableEq

/-- The option string of `comm_init`. -/
def optstring : List UInt8 := text "p:i:o:"

/-- One pass of the option loop. -/
def onOption (s : Settings) : Getopt.Item → Settings
  | .arg c optarg =>
    if c = ch 'p' then { s with giLocPort := atoi optarg }
    else if c = ch 'i' then { s with gsCltIP := strncpy s.gsCltIP optarg 12 }
    else if c = ch 'o' then { s with giRmtPort := atoi optarg }
    else s
  | _ => s

/-- `comm_init`, in the process `pid`, with the result of `ipc_connect`. `none` is the return value
-1. -/
def commInit (posixlyCorrect : Bool) (pid ipcConnect : ℤ) (argv : List (List UInt8)) :
    Option Settings :=
  if argv.length < 4 then none
  else if atol (argv.getD 1 []) ≠ pid then none
  else
    let s : Settings :=
      { gSvrId := atoi (argv.getD 3 []), giLocPort := 0, gsCltIP := List.replicate 25 0,
        giRmtPort := 0 }
    let s := (Getopt.getopt posixlyCorrect optstring (argv.drop 3)).foldl onOption s
    if ipcConnect ≠ 0 then none else some s

/-- The accept loop of `main`, over the outcomes of `AcceptSocket` in order: a failure, or the
address of the client. The result is the number of the pass that leaves the loop. -/
def acceptLoop (gsCltIP : List UInt8) : List (Option Ipv4) → Option ℕ
  | [] => none
  | none :: rest => (acceptLoop gsCltIP rest).map (· + 1)
  | some p :: rest =>
    -- the texts differ: the connection is closed and the loop goes on
    if cstr gsCltIP ≠ inetNtoa p then (acceptLoop gsCltIP rest).map (· + 1) else some 0

/-- The address with which `main` calls `OpenSocket`. -/
def openSocketAddr (s : Settings) : List UInt8 :=
  cstr s.gsCltIP

/-! ### Dotted decimals -/

theorem dot_notMem_natText (n : ℕ) : ch '.' ∉ natText n := fun h ↦
  absurd (isDigit_of_mem_natText h) (by decide)

/-- Different addresses have different texts. -/
theorem inetNtoa_injective : Function.Injective inetNtoa := by
  intro p q h
  obtain ⟨ha, h⟩ := append_sep_inj (dot_notMem_natText _) (dot_notMem_natText _) h
  obtain ⟨hb, h⟩ := append_sep_inj (dot_notMem_natText _) (dot_notMem_natText _) h
  obtain ⟨hc, hd⟩ := append_sep_inj (dot_notMem_natText _) (dot_notMem_natText _) h
  exact Ipv4.ext (UInt8.toNat_inj.mp (natText_injective ha))
    (UInt8.toNat_inj.mp (natText_injective hb)) (UInt8.toNat_inj.mp (natText_injective hc))
    (UInt8.toNat_inj.mp (natText_injective hd))

theorem zero_notMem_inetNtoa (p : Ipv4) : (0 : UInt8) ∉ inetNtoa p := by
  have hdigits : ∀ n, (0 : UInt8) ∉ natText n := fun n h ↦
    absurd (isDigit_of_mem_natText h) (by decide)
  have hdot : (0 : UInt8) ≠ ch '.' := by decide
  simp only [inetNtoa, List.mem_append, List.mem_cons, hdigits, hdot, or_self, not_false_iff]

/-! ### The configured peer -/

theorem onOption_i (s : Settings) (v : List UInt8) :
    onOption s (.arg (ch 'i') v) = { s with gsCltIP := strncpy s.gsCltIP v 12 } := by
  rw [onOption, if_neg (by decide), if_pos rfl]

theorem onOption_other {s : Settings} {i : Getopt.Item} (hi : ∀ v, i ≠ .arg (ch 'i') v) :
    (onOption s i).gsCltIP = s.gsCltIP := by
  cases i with
  | arg c v =>
    have hc : c ≠ ch 'i' := by
      rintro rfl
      exact hi v rfl
    rw [onOption, if_neg hc]
    split_ifs <;> rfl
  | flag c => rfl
  | bad c => rfl

/-- No pass writes behind the twelfth byte. -/
theorem onOption_drop (s : Settings) (i : Getopt.Item) :
    (onOption s i).gsCltIP.drop 12 = s.gsCltIP.drop 12 := by
  by_cases hi : ∃ v, i = .arg (ch 'i') v
  · obtain ⟨v, rfl⟩ := hi
    rw [onOption_i]
    exact drop_strncpy v
  · rw [onOption_other fun v hv ↦ hi ⟨v, hv⟩]

theorem foldl_onOption_drop (is : List Getopt.Item) (s : Settings) :
    (is.foldl onOption s).gsCltIP.drop 12 = s.gsCltIP.drop 12 := by
  induction is generalizing s with
  | nil => rfl
  | cons i is ih => rw [List.foldl_cons, ih, onOption_drop]

/-- The first twelve bytes are those that the last `-i` wrote. -/
theorem foldl_onOption_take {is : List Getopt.Item} {v : List UInt8}
    (hi : Getopt.lastArg (ch 'i') is = some v) (s : Settings) :
    (is.foldl onOption s).gsCltIP.take 12 = (cstr v ++ List.replicate 12 0).take 12 := by
  have hlast := Getopt.foldl_lastArg (f := onOption) (g := fun s ↦ s.gsCltIP.take 12)
    (R := fun v bs ↦ bs = (cstr v ++ List.replicate 12 0).take 12) (c := ch 'i')
    (fun s v ↦ by rw [onOption_i]; exact take_strncpy s.gsCltIP v 12)
    (fun s i hother ↦ by rw [onOption_other hother]) is s
  exact hlast.1 v hi

/-- What the option loop leaves in `gsCltIP`: the last `-i`, cut off. -/
theorem cstr_gsCltIP {posixlyCorrect : Bool} {pid ipcConnect : ℤ} {argv : List (List UInt8)}
    {s : Settings} (h : commInit posixlyCorrect pid ipcConnect argv = some s) {v : List UInt8}
    (hi : Getopt.lastArg (ch 'i') (Getopt.getopt posixlyCorrect optstring (argv.drop 3)) =
      some v) : cstr s.gsCltIP = (cstr v).take 12 := by
  rw [commInit] at h
  split_ifs at h with hargc hpid hipc
  rw [← Option.some.inj h]
  have htail := foldl_onOption_drop (Getopt.getopt posixlyCorrect optstring (argv.drop 3))
    { gSvrId := atoi (argv.getD 3 []), giLocPort := 0, gsCltIP := List.replicate 25 0,
      giRmtPort := 0 }
  have hbuf : ∀ bs : List UInt8, bs.take 12 = (cstr v ++ List.replicate 12 0).take 12 →
      bs.drop 12 = (List.replicate 25 0).drop 12 → cstr bs = (cstr v).take 12 := by
    intro bs htake hdrop
    rw [← List.take_append_drop 12 bs, htake, hdrop]
    exact cstr_strncpy rfl v
  exact hbuf _ (foldl_onOption_take hi _) htail

/-- The accept loop waits for the first client with the text in `gsCltIP`. -/
theorem acceptLoop_of_cstr {gsCltIP : List UInt8} {a : Ipv4} (h : cstr gsCltIP = inetNtoa a)
    (outcomes : List (Option Ipv4)) :
    acceptLoop gsCltIP outcomes = outcomes.findIdx? (· == some a) := by
  induction outcomes with
  | nil => rfl
  | cons o rest ih =>
    rw [List.findIdx?_cons]
    cases o with
    | none => rw [acceptLoop, ih]; rfl
    | some p =>
      rw [acceptLoop, ih, h]
      by_cases hp : p = a
      · subst hp
        simp
      · have htext : inetNtoa a ≠ inetNtoa p := fun heq ↦ hp (inetNtoa_injective heq).symm
        have hbeq : (some p == some a) = false := by simpa using hp
        rw [if_pos htext, hbeq]
        rfl

/-- **The peer is exactly the configured address iff its text has at most 12 characters**: the loop
is left with the first client that has this address, and `OpenSocket` gets the same text. -/
theorem peer_exact_iff {posixlyCorrect : Bool} {pid ipcConnect : ℤ} {argv : List (List UInt8)}
    {s : Settings} (h : commInit posixlyCorrect pid ipcConnect argv = some s) {a : Ipv4}
    (hi : Getopt.lastArg (ch 'i') (Getopt.getopt posixlyCorrect optstring (argv.drop 3)) =
      some (inetNtoa a)) (outcomes : List (Option Ipv4)) :
    (acceptLoop s.gsCltIP outcomes = outcomes.findIdx? (· == some a) ∧
        openSocketAddr s = inetNtoa a) ↔
      (inetNtoa a).length ≤ 12 := by
  have hip : cstr s.gsCltIP = (inetNtoa a).take 12 := by
    rw [cstr_gsCltIP h hi, cstr_eq_self (zero_notMem_inetNtoa a)]
  constructor
  · rintro ⟨-, hopen⟩
    rw [openSocketAddr, hip] at hopen
    have hlen := congrArg List.length hopen
    rw [List.length_take] at hlen
    omega
  · intro hlen
    rw [List.take_of_length_le hlen] at hip
    exact ⟨acceptLoop_of_cstr hip outcomes, hip⟩

/-- Configured with `10.0.0.1`, it turns `10.0.0.2` away and takes the client after it. -/
theorem peer_exact_iff_short :
    acceptLoop (text "10.0.0.1" ++ List.replicate 17 0)
      [some ⟨10, 0, 0, 2⟩, none, some ⟨10, 0, 0, 1⟩] = some 2 := by
  have hinit : commInit false 7 0 [text "C002", text "7", text "0", text "3", text "-p", text "80",
      text "-i", text "10.0.0.1", text "-o90"] =
        some ⟨3, 80, text "10.0.0.1" ++ List.replicate 17 0, 90⟩ := rfl
  have hlast : Getopt.lastArg (ch 'i') (Getopt.getopt false optstring [text "3", text "-p",
      text "80", text "-i", text "10.0.0.1", text "-o90"]) = some (inetNtoa ⟨10, 0, 0, 1⟩) := by
    decide
  exact ((peer_exact_iff hinit hlast _).mpr (by decide)).1

/-- Configured with `10.100.100.100`, it takes the client `10.100.100.1`. -/
theorem accepts_cut_off_address :
    ¬ ∀ (posixlyCorrect : Bool) (pid ipcConnect : ℤ) (argv : List (List UInt8)) (s : Settings)
      (a : Ipv4) (outcomes : List (Option Ipv4)),
      commInit posixlyCorrect pid ipcConnect argv = some s →
      Getopt.lastArg (ch 'i') (Getopt.getopt posixlyCorrect optstring (argv.drop 3)) =
        some (inetNtoa a) →
      acceptLoop s.gsCltIP outcomes = outcomes.findIdx? (· == some a) ∧
        openSocketAddr s = inetNtoa a := by
  intro hall
  have hloop := (hall false 7 0
    [text "C002", text "7", text "0", text "3", text "-i", text "10.100.100.100"]
    ⟨3, 0, text "10.100.100.1" ++ List.replicate 13 0, 0⟩ ⟨10, 100, 100, 100⟩
    [some ⟨10, 100, 100, 1⟩] rfl (by decide)).1
  exact absurd hloop (by decide)

end Sunda.C002
