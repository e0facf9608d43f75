import Sunda.Base.Decimal
import Sunda.Base.Bytes
import Sunda.Base.Getopt
import Sunda.Comm.Commserver.Table

/-!
# The start of the connection server

`comm_init` of `comm/commserver/commserver.c`: the arguments that the governor passes, and the
options behind them. `num`, the number of shards, is the argument of `-n`, which is checked and cut
down to the size of the table in that branch of the option loop and nowhere else. Every descriptor
is mapped to its shard by `fd % num`.

`num` has static storage, so without an option `-n` it is 0: `comm_init` still returns 0, and the
first remainder is a division by zero. This is the only way in which it can go wrong
(`shardArithmetic_iff`).
-/

namespace Sunda.Commserver

open Bytes Decimal

/-- The static variables that `comm_init` sets. -/
structure Settings where
  giSvrId : ℤ
  port : ℤ
  num : ℤ
  idletime : ℤ
  deriving DecidableEq

/-- The option string of `comm_init`. -/
def optstring : List UInt8 := text "p:n:t:"

/-- One pass of the option loop. `none` is the `return -1` for a bad number of shards. -/
def onOption (s : Settings) : Getopt.Item → Option Settings
  | .arg c optarg =>
    if c = ch 'p' then some { s with port := atoi optarg }
    else if c = ch 'n' then
      if atoi optarg ≤ 0 then none
      else if atoi optarg ≥ maxTreadNum then some { s with num := maxTreadNum }
      else some { s with num := atoi optarg }
    else if c = ch 't' then some { s with idletime := atoi optarg }
    else some s
  | _ => some s

/-- `comm_init`, in the process `pid`, with the result of `ipc_connect`: the settings and the cleared
table where it returns 0, `none` where it returns -1. -/
def commInit (posixlyCorrect : Bool) (pid ipcConnect : ℤ) (argv : List (List UInt8)) :
    Option (Settings × WordMem) :=
  if argv.length < 4 then none
  else if atol (argv.getD 1 []) ≠ pid then none
  else
    let s : Settings :=
      { giSvrId := atoi (argv.getD 3 []), port := 0, num := 0, idletime := 0 }
    ((Getopt.getopt posixlyCorrect optstring (argv.drop 2)).foldlM onOption s).bind fun s ↦
      if ipcConnect ≠ 0 then none else some (s, Sunda.commInit s.num.toNat)

/-- `fd % num`. `none` is the division by zero. -/
def shardIndex (num fd : ℤ) : Option ℤ :=
  if num = 0 then none else some (fd.tmod num)

/-- The number of shards is within the table, and so is the shard of every descriptor. -/
structure ShardArithmetic (num : ℤ) : Prop where
  one_le : 1 ≤ num
  le_max : num ≤ maxTreadNum
  index : ∀ fd : ℕ, shardIndex num fd = some ↑(fd % num.toNat) ∧ fd % num.toNat < maxTreadNum

theorem shardArithmetic_of_bounds {num : ℤ} (h₁ : 1 ≤ num) (h₂ : num ≤ maxTreadNum) :
    ShardArithmetic num where
  one_le := h₁
  le_max := h₂
  index := by
    intro fd
    have hnum : ((num.toNat : ℕ) : ℤ) = num := Int.toNat_of_nonneg (by omega)
    have hlt : fd % num.toNat < num.toNat := Nat.mod_lt _ (by omega)
    refine ⟨?_, by omega⟩
    rw [shardIndex, if_neg (by omega), Int.tmod_eq_emod_of_nonneg (Int.natCast_nonneg fd),
      Int.natCast_emod, hnum]

/-- What an option `-n` that is accepted leaves in `num`. -/
theorem onOption_n {s s' : Settings} {v : List UInt8}
    (h : onOption s (.arg (ch 'n') v) = some s') : 1 ≤ s'.num ∧ s'.num ≤ maxTreadNum := by
  rw [onOption, if_neg (by decide), if_pos rfl] at h
  split_ifs at h with hneg hmax
  · obtain rfl := Option.some.inj h
    show 1 ≤ (maxTreadNum : ℤ) ∧ (maxTreadNum : ℤ) ≤ maxTreadNum
    exact ⟨by decide, le_refl _⟩
  · obtain rfl := Option.some.inj h
    show 1 ≤ atoi v ∧ atoi v ≤ maxTreadNum
    omega

/-- No other option touches it. -/
theorem onOption_other {s s' : Settings} {i : Getopt.Item} (hi : ∀ v, i ≠ .arg (ch 'n') v)
    (h : onOption s i = some s') : s'.num = s.num := by
  cases i with
  | arg c v =>
    have hc : c ≠ ch 'n' := by
      rintro rfl
      exact hi v rfl
    rw [onOption, if_neg hc] at h
    split_ifs at h <;> (obtain rfl := Option.some.inj h; rfl)
  | flag c => rw [← Option.some.inj h]
  | bad c => rw [← Option.some.inj h]

/-- **Wherever `comm_init` returns 0, the shard arithmetic is defined iff an option `-n` was
read.** -/
theorem shardArithmetic_iff {posixlyCorrect : Bool} {pid ipcConnect : ℤ}
    {argv : List (List UInt8)} {s : Settings} {clientCtrl : WordMem}
    (h : commInit posixlyCorrect pid ipcConnect argv = some (s, clientCtrl)) :
    ShardArithmetic s.num ↔
      ∃ v, Getopt.Item.arg (ch 'n') v ∈
        Getopt.getopt posixlyCorrect optstring (argv.drop 2) := by
  rw [commInit] at h
  split_ifs at h with hargc hpid hipc
  · obtain ⟨s₁, -, hret⟩ := Option.bind_eq_some_iff.mp h
    exact absurd hret (Option.some_ne_none _).symm
  obtain ⟨s₁, hloop, hret⟩ := Option.bind_eq_some_iff.mp h
  obtain rfl : s₁ = s := congrArg Prod.fst (Option.some.inj hret)
  obtain ⟨hsome, hnone⟩ := Getopt.foldlM_lastArg (g := Settings.num)
    (R := fun _ num ↦ 1 ≤ num ∧ num ≤ maxTreadNum) (fun _ _ _ ↦ onOption_n)
    (fun _ _ _ hi ↦ onOption_other hi) hloop
  rw [← Getopt.exists_lastArg_iff]
  constructor
  · intro harith
    by_contra hno
    -- without the option `num` has its static value
    have hzero : s₁.num = 0 := hnone (Option.eq_none_iff_forall_ne_some.mpr fun v hv ↦ hno ⟨v, hv⟩)
    have := harith.one_le
    omega
  · rintro ⟨v, hv⟩
    exact shardArithmetic_of_bounds (hsome v hv).1 (hsome v hv).2

/-- Started by process number 7 with `-p 8080 -n 64 -n 4`, the last number of shards counts. -/
theorem shardArithmetic_iff_four : ShardArithmetic 4 := by
  have hinit : commInit false 7 0 [text "commserver", text "7", text "0", text "3", text "-p",
      text "8080", text "-n64", text "-n", text "4"] =
        some (⟨3, 8080, 4, 0⟩, Sunda.commInit 4) := rfl
  exact (shardArithmetic_iff hinit).mpr ⟨text "4", by decide⟩

/-- Without the option `-n` it starts, and the first remainder divides by zero. -/
theorem commInit_without_n :
    ¬ ∀ (posixlyCorrect : Bool) (pid ipcConnect : ℤ) (argv : List (List UInt8)) (s : Settings)
      (clientCtrl : WordMem),
      commInit posixlyCorrect pid ipcConnect argv = some (s, clientCtrl) →
        ShardArithmetic s.num := by
  intro hall
  have harith := hall false 7 0 [text "commserver", text "7", text "0", text "3", text "-p",
    text "8080"] ⟨3, 8080, 0, 0⟩ (Sunda.commInit 0) rfl
  exact absurd harith.one_le (by decide)

end Sunda.Commserver
