import Mathlib.Data.List.Basic

/-!
# `getopt`

The option scanner of the C library, for short options. `getopt` yields the results of the calls
that a program's option loop makes, in order, up to the one that returns -1.

An argument that starts with a dash and has more characters is a cluster of options; an option that
takes an argument takes the rest of its cluster or, where nothing is left of it, the whole next
element of the vector, whatever that is. `--` ends the scan. Other arguments are skipped, as the GNU
scanner does by permuting them to the end, or end the scan where `POSIXLY_CORRECT` is set.

An option loop is a fold over the results. `foldlM_lastArg` is the rule for one that keeps the
argument of an option: whatever the other options do, what counts is the last occurrence.
-/

namespace Getopt

/-- What one call of `getopt` returns. -/
inductive Item where
  /-- The option `c`, with `optarg`. -/
  | arg (c : UInt8) (optarg : List UInt8)
  /-- The option `c`, which takes no argument. -/
  | flag (c : UInt8)
  /-- `'?'`, for an unknown option, or one without its argument. -/
  | bad (c : UInt8)
  deriving DecidableEq

/-- What `optstring` says about a character: `some true` for an option with an argument,
`some false` for one without, `none` for a character that is no option. -/
def wantsArg (optstring : List UInt8) (c : UInt8) : Option Bool :=
  if c = 58 ∨ c = 59 then none
  else
    match optstring.dropWhile (· ≠ c) with
    | [] => none
    | _ :: rest => some (rest.head? == some 58)

/-- The options of a cluster, and the one at its end that takes the next element as its argument. -/
def cluster (optstring : List UInt8) : List UInt8 → List Item × Option UInt8
  | [] => ([], none)
  | c :: cs =>
    match wantsArg optstring c with
    | none => (.bad c :: (cluster optstring cs).1, (cluster optstring cs).2)
    | some false => (.flag c :: (cluster optstring cs).1, (cluster optstring cs).2)
    | some true => if cs = [] then ([], some c) else ([.arg c cs], none)

/-- The scan, with the option that waits for its argument. -/
def scan (posixlyCorrect : Bool) (optstring : List UInt8) :
    Option UInt8 → List (List UInt8) → List Item
  | none, [] => []
  | some c, [] => [.bad c]
  | some c, a :: rest => .arg c a :: scan posixlyCorrect optstring none rest
  | none, [45, 45] :: _ => []
  | none, (45 :: c :: cs) :: rest =>
    (cluster optstring (c :: cs)).1 ++
      scan posixlyCorrect optstring (cluster optstring (c :: cs)).2 rest
  | none, _ :: rest => if posixlyCorrect then [] else scan posixlyCorrect optstring none rest

/-- The results of the calls of `getopt(argc, argv, optstring)` up to the one that returns -1. The
first element of the vector is the program's name. -/
def getopt (posixlyCorrect : Bool) (optstring : List UInt8) (argv : List (List UInt8)) :
    List Item :=
  scan posixlyCorrect optstring none argv.tail

/-! ### Option loops -/

/-- The argument of the last occurrence of the option `c`. -/
def lastArg (c : UInt8) : List Item → Option (List UInt8)
  | [] => none
  | .arg c' v :: is => (lastArg c is).or (if c' = c then some v else none)
  | _ :: is => lastArg c is

theorem lastArg_cons_arg (c : UInt8) (v : List UInt8) (is : List Item) :
    lastArg c (.arg c v :: is) = (lastArg c is).or (some v) := by
  rw [lastArg, if_pos rfl]

theorem lastArg_cons_other {c : UInt8} {i : Item} (h : ∀ v, i ≠ .arg c v) (is : List Item) :
    lastArg c (i :: is) = lastArg c is := by
  cases i with
  | arg c' v =>
    have hne : c' ≠ c := by
      rintro rfl
      exact h v rfl
    rw [lastArg, if_neg hne, Option.or_none]
  | flag c' => rfl
  | bad c' => rfl

/-- An option is read at all iff it has a last occurrence. -/
theorem exists_lastArg_iff {c : UInt8} {is : List Item} :
    (∃ v, lastArg c is = some v) ↔ ∃ v, Item.arg c v ∈ is := by
  induction is with
  | nil => simp [lastArg]
  | cons i is ih =>
    by_cases hi : ∃ v, i = .arg c v
    · obtain ⟨v, rfl⟩ := hi
      rw [lastArg_cons_arg]
      refine ⟨fun _ ↦ ⟨v, List.mem_cons_self⟩, fun _ ↦ ?_⟩
      cases lastArg c is with
      | none => exact ⟨v, rfl⟩
      | some w => exact ⟨w, rfl⟩
    · have hother : ∀ v, i ≠ .arg c v := fun v hv ↦ hi ⟨v, hv⟩
      rw [lastArg_cons_other hother, ih]
      refine exists_congr fun v ↦ ?_
      rw [List.mem_cons]
      exact ⟨Or.inr, fun h ↦ h.resolve_left (hother v).symm⟩

/-- **The last occurrence counts.** In a loop in which the option `c` leaves a value `g s` that is
related to its argument, and in which nothing else touches that value, the value after the loop is
the one left by the last `c`, or the one from before the loop where there is no `c`. -/
theorem foldlM_lastArg {σ β : Type*} {f : σ → Item → Option σ} {g : σ → β}
    {R : List UInt8 → β → Prop} {c : UInt8}
    (harg : ∀ s v s', f s (.arg c v) = some s' → R v (g s'))
    (hother : ∀ s i s', (∀ v, i ≠ .arg c v) → f s i = some s' → g s' = g s)
    {is : List Item} {s s' : σ} (h : is.foldlM f s = some s') :
    (∀ v, lastArg c is = some v → R v (g s')) ∧ (lastArg c is = none → g s' = g s) := by
  induction is generalizing s with
  | nil =>
    obtain rfl : s = s' := Option.some.inj h
    exact ⟨fun _ hv ↦ absurd hv (Option.some_ne_none _).symm, fun _ ↦ rfl⟩
  | cons i is ih =>
    rw [List.foldlM_cons] at h
    obtain ⟨s₁, hstep, hrest⟩ := Option.bind_eq_some_iff.mp h
    obtain ⟨hsome, hnone⟩ := ih hrest
    by_cases hi : ∃ v, i = .arg c v
    · obtain ⟨v, rfl⟩ := hi
      rw [lastArg_cons_arg]
      -- this occurrence counts unless a later one does
      cases hlast : lastArg c is with
      | none =>
        rw [hlast] at hnone
        refine ⟨fun w hw ↦ ?_, fun hw ↦ absurd hw (Option.some_ne_none _)⟩
        obtain rfl : v = w := Option.some.inj hw
        rw [hnone rfl]
        exact harg s v s₁ hstep
      | some w => exact ⟨fun w' hw ↦ hsome w' (hlast.trans hw), fun hw ↦ absurd hw (Option.some_ne_none _)⟩
    · have hi' : ∀ v, i ≠ .arg c v := fun v hv ↦ hi ⟨v, hv⟩
      rw [lastArg_cons_other hi']
      exact ⟨hsome, fun hlast ↦ (hnone hlast).trans (hother s i s₁ hi' hstep)⟩

/-- The same for a loop that never returns early. -/
theorem foldl_lastArg {σ β : Type*} {f : σ → Item → σ} {g : σ → β} {R : List UInt8 → β → Prop}
    {c : UInt8} (harg : ∀ s v, R v (g (f s (.arg c v))))
    (hother : ∀ s i, (∀ v, i ≠ .arg c v) → g (f s i) = g s) (is : List Item) (s : σ) :
    (∀ v, lastArg c is = some v → R v (g (is.foldl f s))) ∧
      (lastArg c is = none → g (is.foldl f s) = g s) := by
  have hfold : is.foldlM (fun s i ↦ some (f s i)) s = some (is.foldl f s) :=
    List.foldlM_pure ..
  refine foldlM_lastArg (fun s v s' h ↦ ?_) (fun s i s' hi h ↦ ?_) hfold
  · rw [← Option.some.inj h]
    exact harg s v
  · rw [← Option.some.inj h]
    exact hother s i hi

end Getopt
