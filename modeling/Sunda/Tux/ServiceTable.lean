import Sunda.Base.Guarded
import Sunda.Base.SlotMap
import Sunda.Tux.Tuxmgr

/-!
# The service table

`tux_advertise` and `tux_unadvertise` (`pubfun/tux/tuxmgr.c`) on the table that `sys_start` prepared: every
slot has the free mark -1 in its flags and no name. What they are meant to keep is a finite map from names,
as far as they are compared, to handlers.

The marks are not set alike. A slot that is taken gets the flags 0, as the assignment of `SVC_INUSE` is a
comparison; a slot that is released keeps them, so it is never taken again. And a slot without a name, free
or released, is what a search for the empty name finds, except for the first free slot, which a search
that looks for one passes over. Where no free slot is left, the new entry is written in front of the table.

`service_table_refines` says what remains: the table stands for the map, and the functions do what the
map's operations do, as long as a new name finds a free slot and the empty name is not mistaken for a slot
without a name. Any other call goes wrong.
-/

namespace Sunda

open Bytes SlotMap

/-! ### The table -/

def sysEmatch : ℤ := -2007

/-- `service_tab_t` with all its fields; the `NULL` of a handler is 0. -/
structure SvcTab extends ServiceTab where
  svrid : ℤ

/-- A slot behind `sys_start`. -/
def SvcTab.start : SvcTab := ⟨⟨-1, charField 33 [] 0, 0⟩, 0⟩

/-- A slot that was cleared with `memset`. -/
def SvcTab.zero : SvcTab := ⟨⟨0, charField 33 [] 0, 0⟩, 0⟩

/-- `sys_start`, on `nsvrnum` slots. -/
def sysStartSvc (nsvrnum : ℕ) : List SvcTab := List.replicate nsvrnum .start

/-- `tux_find_service`, as in `tuxFindService`. -/
def findService (tab : List SvcTab) (svrName : List UInt8) (pos : ℤ) : Option ℕ × ℤ :=
  findServiceLoop svrName (tab.map SvcTab.toServiceTab) 0 pos

/-- A call: its return value, what it stored in `tux_errno`, the table behind it, and the index of the slot
that it wrote. -/
structure SvcCall where
  rc : ℤ
  errno : Option ℤ
  tab : List SvcTab
  written : Option ℤ

/-- Assignment to a slot; an index in front of the table is another part of the shared memory. -/
def setSlot (tab : List SvcTab) (pos : ℤ) (e : SvcTab) : List SvcTab :=
  if pos < 0 then tab else tab.set pos.toNat e

/-- The entry that `tux_new_service` makes. -/
def newSlot (svrName : List UInt8) (sdFun : ℕ) : SvcTab :=
  { SvcTab.zero with name := charField 33 ((cstr svrName).take tuxNameLen) 0, sdFun := sdFun }

/-- `tux_new_service`. -/
def tuxNewService (tab : List SvcTab) (svrName : List UInt8) (sdFun : ℕ) : SvcCall :=
  match findService tab svrName (-1) with
  | (some rc, _) =>
    if (tab[rc]?.map fun e ↦ e.sdFun) = some sdFun then ⟨rc, none, tab, none⟩
    else ⟨-1, some sysEmatch, tab, none⟩
  | (none, pos) => ⟨pos, none, setSlot tab pos (newSlot svrName sdFun), some pos⟩

/-- `tux_del_service`. -/
def tuxDelService (tab : List SvcTab) (svrName : List UInt8) : SvcCall :=
  match findService tab svrName (-1) with
  | (some rc, _) => ⟨0, none, tab.set rc .zero, some rc⟩
  | (none, _) => ⟨-1, some sysNoent, tab, none⟩

/-- `find_svrno_by_service`. -/
def findSvrnoByService (tSvrTab : List ServerTab) (svrName : List UInt8) : Option ℕ :=
  tSvrTab.findIdx? fun e ↦ strncmpEq tuxNameLen e.svcName.toList svrName

/-- `tux_advertise`, attached. -/
def tuxAdvertise (tSvrTab : List ServerTab) (tab : List SvcTab) (svrName : Option (List UInt8))
    (sdFun : ℕ) : SvcCall :=
  match svrName with
  | none => ⟨-1, some sysInval, tab, none⟩
  | some svrName =>
    if sdFun = 0 then ⟨-1, some sysInval, tab, none⟩
    else
      match findSvrnoByService tSvrTab svrName with
      | none => ⟨-1, some sysSystem, tab, none⟩
      | some svrno =>
        let r := tuxNewService tab svrName sdFun
        if r.rc < 0 then r
        else { r with rc := 0, tab := r.tab.modify r.rc.toNat fun e ↦ { e with svrid := svrno } }

/-- `tux_unadvertise`, attached. -/
def tuxUnadvertise (tab : List SvcTab) (svrName : Option (List UInt8)) : SvcCall :=
  match svrName with
  | none => ⟨-1, some sysInval, tab, none⟩
  | some svrName => tuxDelService tab svrName

/-! ### The map -/

/-- A name, as far as it is compared. -/
def svcKey (svrName : List UInt8) : List UInt8 := (cstr svrName).take tuxNameLen

/-- The name in a slot. -/
def ServiceTab.key (e : ServiceTab) : List UInt8 := svcKey e.name.toList

/-- The advertised names with their handlers. -/
abbrev SvcMap := Finmap fun _ : List UInt8 ↦ ℕ

/-- What a slot holds. -/
def ServiceTab.held (e : ServiceTab) : Option (List UInt8 × ℕ) :=
  if e.sdFun = 0 then none else some (e.key, e.sdFun)

/-- The calls with their arguments, and the server table that `tux_advertise` finds. -/
inductive SvcAct
  | advertise (tSvrTab : List ServerTab) (svrName : List UInt8) (sdFun : ℕ)
  | unadvertise (svrName : List UInt8)

/-- A server entry offers the name. -/
def Offered (tSvrTab : List ServerTab) (k : List UInt8) : Prop :=
  ∃ e ∈ tSvrTab, svcKey e.svcName.toList = k

instance (tSvrTab : List ServerTab) (k : List UInt8) : Decidable (Offered tSvrTab k) :=
  inferInstanceAs (Decidable (∃ e ∈ tSvrTab, svcKey e.svcName.toList = k))

/-- A call on the table. -/
def svcCall (tab : List SvcTab) : SvcAct → SvcCall
  | .advertise tSvrTab svrName sdFun => tuxAdvertise tSvrTab tab (some svrName) sdFun
  | .unadvertise svrName => tuxUnadvertise tab (some svrName)

/-- What the call is to do with a map of at most `nsvrnum` names, and what it is to return. A name that no
server offers cannot be advertised, and an advertised name keeps its handler. -/
def svcSpec (nsvrnum : ℕ) (m : SvcMap) : SvcAct → ℤ × SvcMap
  | .advertise tSvrTab svrName sdFun =>
    if Offered tSvrTab (svcKey svrName) then
      match m.lookup (svcKey svrName) with
      | some f => (if f = sdFun then 0 else -1, m)
      | none => if m.keys.card < nsvrnum then (0, m.insert (svcKey svrName) sdFun) else (-1, m)
    else (-1, m)
  | .unadvertise svrName =>
    if svcKey svrName ∈ m then (0, m.erase (svcKey svrName)) else (-1, m)

/-- The slots stand for the map: the ones that hold something hold its names with their handlers, the
others have no name, and a slot with the free mark is one of the others. -/
structure TableStands (tab : List ServiceTab) (m : SvcMap) : Prop where
  represents : Represents (tab.map ServiceTab.held) m
  nameless : ∀ e ∈ tab, e.sdFun = 0 → e.key = []
  unused : ∀ e ∈ tab, e.flags = -1 → e.sdFun = 0

/-- The slots that a search compares. -/
def seen (tab : List ServiceTab) (pos : ℤ) : List ServiceTab :=
  if pos < 0 then tab.eraseP fun e ↦ e.flags = -1 else tab

/-- The first slot with the name among them, if there is one. -/
def seenFirst (tab : List ServiceTab) (pos : ℤ) (k : List UInt8) : Option ServiceTab :=
  (seen tab pos).find? fun e ↦ e.key = k

/-- The empty name is not mistaken for a slot without a name: of the slots that a search compares, the first
one without a name, if there is one, has a handler. -/
def Clear (tab : List ServiceTab) (pos : ℤ) (k : List UInt8) : Prop :=
  k = [] → ∀ e, seenFirst tab pos [] = some e → e.sdFun ≠ 0

/-! ### Searching -/

theorem strncmpEq_key (e : ServiceTab) (svrName : List UInt8) :
    strncmpEq tuxNameLen e.name.toList svrName = decide (e.key = svcKey svrName) := by
  rw [Bool.eq_iff_iff, strncmpEq_iff, decide_eq_true_iff]
  rfl

/-- How a search can end. -/
inductive FoundService (tab : List ServiceTab) (k : List UInt8) (pos : ℤ) (i : ℕ) : Option ℕ × ℤ → Prop
  /-- A slot with the name. -/
  | found {pre post : List ServiceTab} {e : ServiceTab} {p : ℤ} : tab = pre ++ e :: post →
    seenFirst tab pos k = some e → FoundService tab k pos i (some (i + pre.length), p)
  /-- No slot with the name, but a free one. -/
  | free {pre post : List ServiceTab} {e : ServiceTab} : pos < 0 → tab = pre ++ e :: post → e.flags = -1 →
    seenFirst tab pos k = none →
    FoundService tab k pos i (none, (i + pre.length : ℕ))
  /-- Neither of them, or a search that does not look for a free one. -/
  | none : (pos < 0 → ∀ e ∈ tab, e.flags ≠ -1) →
    seenFirst tab pos k = none → FoundService tab k pos i (none, pos)

theorem seen_cons_free {e : ServiceTab} (es : List ServiceTab) {pos : ℤ} (h : e.flags = -1 ∧ pos < 0) :
    seen (e :: es) pos = es := by
  rw [seen, if_pos h.2]
  simp [h.1]

theorem seen_cons {e : ServiceTab} (es : List ServiceTab) {pos : ℤ} (h : ¬ (e.flags = -1 ∧ pos < 0)) :
    seen (e :: es) pos = e :: seen es pos := by
  rw [seen, seen]
  split
  · next hpos => rw [List.eraseP_cons_of_neg (by simpa using fun hf ↦ h ⟨hf, hpos⟩)]
  · rfl

/-- **`tux_find_service`**: how it ends. -/
theorem foundService (tab : List ServiceTab) (svrName : List UInt8) (i : ℕ) (pos : ℤ) :
    FoundService tab (svcKey svrName) pos i
      (findServiceLoop svrName tab i pos) := by
  induction tab generalizing i pos with
  | nil => exact .none (fun _ ↦ List.forall_mem_nil _) (by simp [seenFirst, seen])
  | cons e es ih =>
    rw [findServiceLoop, strncmpEq_key]
    by_cases hfree : e.flags = -1 ∧ pos < 0
    · rw [if_pos hfree]
      have hseen : seen es (i : ℤ) = es := if_neg (by omega)
      have hcons := seen_cons_free es hfree
      cases hes : findServiceLoop svrName es (i + 1) i with
      | mk r p =>
        have hrec := ih (i + 1) i
        rw [hes] at hrec
        cases hrec with
        | @found pre post x _ hsplit hfind =>
          rw [seenFirst, hseen] at hfind
          have hi : i + 1 + pre.length = i + (e :: pre).length := by
            rw [List.length_cons]
            omega
          rw [hi]
          exact .found (by rw [hsplit]; rfl) (by rw [seenFirst, hcons, hfind])
        | free hneg => omega
        | none _ hfind =>
          rw [seenFirst, hseen] at hfind
          have hi : (i : ℤ) = (i + ([] : List ServiceTab).length : ℕ) := by simp
          rw [hi]
          exact .free hfree.2 rfl hfree.1 (by rw [seenFirst, hcons, hfind])
    · rw [if_neg hfree]
      have hcons := seen_cons es hfree
      by_cases hkey : e.key = svcKey svrName
      · rw [if_pos (decide_eq_true hkey)]
        exact @FoundService.found _ _ _ _ [] _ _ _ rfl
          (by rw [seenFirst, hcons, List.find?_cons_of_pos (by simpa using hkey)])
      · rw [if_neg (by simpa using hkey)]
        have hskip : seenFirst (e :: es) pos (svcKey svrName) = seenFirst es pos (svcKey svrName) := by
          rw [seenFirst, hcons, List.find?_cons_of_neg (by simpa using hkey)]
          rfl
        cases hes : findServiceLoop svrName es (i + 1) pos with
        | mk r p =>
          have hrec := ih (i + 1) pos
          rw [hes] at hrec
          have hi (pre : List ServiceTab) : i + 1 + pre.length = i + (e :: pre).length := by
            rw [List.length_cons]
            omega
          cases hrec with
          | @found pre post x _ hsplit hfind =>
            rw [hi]
            exact .found (by rw [hsplit]; rfl) (hskip.trans hfind)
          | @free pre post x hneg hsplit hx hfind =>
            rw [hi]
            exact .free hneg (by rw [hsplit]; rfl) hx (hskip.trans hfind)
          | none hnone hfind =>
            exact .none (fun hneg ↦ List.forall_mem_cons.2 ⟨fun hf ↦ hfree ⟨hf, hneg⟩, hnone hneg⟩)
              (hskip.trans hfind)

/-! ### What a search is worth -/

theorem mem_of_seenFirst {tab : List ServiceTab} {pos : ℤ} {k : List UInt8} {e : ServiceTab}
    (h : seenFirst tab pos k = some e) : e ∈ tab ∧ e.key = k := by
  refine ⟨?_, by simpa using List.find?_some h⟩
  have hmem := List.mem_of_find?_eq_some h
  rw [seen] at hmem
  split at hmem
  · exact List.mem_of_mem_eraseP hmem
  · exact hmem

theorem key_ne_of_seenFirst {tab : List ServiceTab} {pos : ℤ} {k : List UInt8} {e : ServiceTab}
    (h : seenFirst tab pos k = none) (he : e ∈ tab) (hflags : e.flags ≠ -1) : e.key ≠ k := by
  have hmem : e ∈ seen tab pos := by
    rw [seen]
    split
    · exact (List.mem_eraseP_of_neg (by simpa using hflags)).2 he
    · exact he
  simpa using List.find?_eq_none.1 h e hmem

section Stands

variable {tab pre post : List ServiceTab} {m : SvcMap} {e : ServiceTab} {k : List UInt8}

/-- A slot with a handler has its name in the map. -/
theorem TableStands.lookup_of_mem (h : TableStands tab m) (he : e ∈ tab) (hf : e.sdFun ≠ 0) :
    m.lookup e.key = some e.sdFun := by
  refine (h.represents.mem_iff _ _).1 (List.mem_map.2 ⟨e, he, ?_⟩)
  rw [ServiceTab.held, if_neg hf]

/-- A name in the map is in a slot with its handler. -/
theorem TableStands.exists_of_lookup (h : TableStands tab m) {f : ℕ} (hk : m.lookup k = some f) :
    ∃ e ∈ tab, e.key = k ∧ e.sdFun = f ∧ e.sdFun ≠ 0 := by
  obtain ⟨e, he, heq⟩ := List.mem_map.1 ((h.represents.mem_iff k f).2 hk)
  rw [ServiceTab.held] at heq
  split at heq
  · cases heq
  · next hf =>
    obtain ⟨rfl, rfl⟩ := Prod.mk.inj (Option.some.inj heq)
    exact ⟨e, he, rfl, rfl, hf⟩

/-- The slot that a search finds has the handler of the name, or no handler; then the name is empty. If it
finds none, the name is not in the map. -/
theorem TableStands.seenFirst_cases (h : TableStands tab m) (pos : ℤ) (k : List UInt8) :
    (∃ e, seenFirst tab pos k = some e ∧ e.sdFun ≠ 0 ∧ m.lookup k = some e.sdFun) ∨
    (∃ e, seenFirst tab pos k = some e ∧ e.sdFun = 0 ∧ k = []) ∨
    (seenFirst tab pos k = none ∧ m.lookup k = none) := by
  cases hs : seenFirst tab pos k with
  | some e =>
    obtain ⟨he, rfl⟩ := mem_of_seenFirst hs
    by_cases hf : e.sdFun = 0
    · exact .inr (.inl ⟨e, rfl, hf, h.nameless e he hf⟩)
    · exact .inl ⟨e, rfl, hf, h.lookup_of_mem he hf⟩
  | none =>
    refine .inr (.inr ⟨rfl, ?_⟩)
    cases hk : m.lookup k with
    | none => rfl
    | some f =>
      obtain ⟨e, he, hkey, -, hf⟩ := h.exists_of_lookup hk
      exact absurd hkey (key_ne_of_seenFirst hs he fun hflags ↦ hf (h.unused e he hflags))

/-- A lookup of the name is right exactly when it is clear. -/
theorem TableStands.map_seenFirst_iff (h : TableStands tab m) (pos : ℤ) (k : List UInt8) :
    (seenFirst tab pos k).map ServiceTab.sdFun = m.lookup k ↔ Clear tab pos k := by
  rcases h.seenFirst_cases pos k with ⟨e, hs, hf, hk⟩ | ⟨e, hs, hf, rfl⟩ | ⟨hs, hk⟩
  · rw [hs, hk]
    refine iff_of_true rfl ?_
    rintro rfl e' hs'
    rw [hs] at hs'
    exact Option.some.inj hs' ▸ hf
  · rw [hs, Option.map_some, hf]
    refine iff_of_false (fun hk ↦ ?_) fun hc ↦ hc rfl e hs hf
    obtain ⟨e', -, -, h0, hf'⟩ := h.exists_of_lookup hk.symm
    exact hf' h0
  · rw [hs, hk]
    refine iff_of_true rfl ?_
    rintro rfl e' hs'
    rw [hs] at hs'
    cases hs'

/-- The slot and the rest of the table, once a call has written the slot. -/
theorem TableStands.set (h : TableStands (pre ++ e :: post) m) {e' : ServiceTab} {m' : SvcMap}
    (hrep : Represents ((pre ++ e' :: post).map ServiceTab.held) m') (hname : e'.sdFun = 0 → e'.key = [])
    (hflags : e'.flags ≠ -1) : TableStands (pre ++ e' :: post) m' := by
  refine ⟨hrep, fun x hx ↦ ?_, fun x hx ↦ ?_⟩
  · rcases List.mem_append.1 hx with hpre | hpost
    · exact h.nameless x (List.mem_append_left _ hpre)
    · rcases List.mem_cons.1 hpost with rfl | hpost
      · exact hname
      · exact h.nameless x (List.mem_append_right _ (List.mem_cons_of_mem _ hpost))
  · rcases List.mem_append.1 hx with hpre | hpost
    · exact h.unused x (List.mem_append_left _ hpre)
    · rcases List.mem_cons.1 hpost with rfl | hpost
      · exact fun hx ↦ absurd hx hflags
      · exact h.unused x (List.mem_append_right _ (List.mem_cons_of_mem _ hpost))

/-- A handler in a free slot, under a new name. -/
theorem TableStands.fill (h : TableStands (pre ++ e :: post) m) (he : e.flags = -1) {e' : ServiceTab}
    (hk : e'.key ∉ m) (hf : e'.sdFun ≠ 0) (hflags : e'.flags ≠ -1) :
    TableStands (pre ++ e' :: post) (m.insert e'.key e'.sdFun) := by
  have h0 : e.sdFun = 0 := h.unused e (by simp) he
  have hrep := h.represents
  rw [List.map_append, List.map_cons, ServiceTab.held, if_pos h0] at hrep
  refine h.set ?_ (fun h' ↦ absurd h' hf) hflags
  rw [List.map_append, List.map_cons, ServiceTab.held, if_neg hf]
  exact hrep.fill hk _

/-- A slot with a handler is released. -/
theorem TableStands.release (h : TableStands (pre ++ e :: post) m) (hf : e.sdFun ≠ 0) {e' : ServiceTab}
    (hf' : e'.sdFun = 0) (hname : e'.key = []) (hflags : e'.flags ≠ -1) :
    TableStands (pre ++ e' :: post) (m.erase e.key) := by
  have hrep := h.represents
  rw [List.map_append, List.map_cons, ServiceTab.held, if_neg hf] at hrep
  refine h.set ?_ (fun _ ↦ hname) hflags
  rw [List.map_append, List.map_cons, ServiceTab.held, if_pos hf']
  exact hrep.clear

end Stands

/-! ### One call -/

/-- The table without the server numbers. -/
def svcView (tab : List SvcTab) : List ServiceTab := tab.map SvcTab.toServiceTab

/-- How a search of `tux_new_service` or `tux_del_service` ends, on a table that stands for a map. -/
inductive Searched (tab : List ServiceTab) (m : SvcMap) (k : List UInt8) : Option ℕ × ℤ → Prop
  | held {pre post : List ServiceTab} {e : ServiceTab} {p : ℤ} : tab = pre ++ e :: post → e.key = k →
    e.sdFun ≠ 0 → m.lookup k = some e.sdFun → Clear tab (-1) k → Searched tab m k (some pre.length, p)
  /-- The empty name, found in a slot without a handler. -/
  | blank {pre post : List ServiceTab} {e : ServiceTab} {p : ℤ} : tab = pre ++ e :: post →
    e.sdFun = 0 → k = [] → ¬ Clear tab (-1) k → Searched tab m k (some pre.length, p)
  | free {pre post : List ServiceTab} {e : ServiceTab} : tab = pre ++ e :: post → e.flags = -1 →
    m.lookup k = none → Clear tab (-1) k → Searched tab m k (none, pre.length)
  | full : (∀ e ∈ tab, e.flags ≠ -1) → m.lookup k = none → Clear tab (-1) k → Searched tab m k (none, -1)

theorem TableStands.searched {tab : List ServiceTab} {m : SvcMap} (h : TableStands tab m)
    (svrName : List UInt8) :
    Searched tab m (svcKey svrName) (findServiceLoop svrName tab 0 (-1)) := by
  have hclear := h.map_seenFirst_iff (-1) (svcKey svrName)
  have hcases := h.seenFirst_cases (-1) (svcKey svrName)
  cases hr : findServiceLoop svrName tab 0 (-1) with
  | mk r p =>
    have hfound := foundService tab svrName 0 (-1)
    rw [hr] at hfound
    cases hfound with
    | @found pre post e _ hsplit hfirst =>
      rw [Nat.zero_add]
      rcases hcases with ⟨e', hs, hf, hk⟩ | ⟨e', hs, hf, hk⟩ | ⟨hs, -⟩
      · obtain rfl := Option.some.inj (hfirst.symm.trans hs)
        exact .held hsplit (mem_of_seenFirst hs).2 hf hk (hclear.1 (by rw [hs, hk]; rfl))
      · obtain rfl := Option.some.inj (hfirst.symm.trans hs)
        exact .blank hsplit hf hk fun hc ↦ hc hk _ (hk ▸ hs) hf
      · rw [hfirst] at hs
        cases hs
    | @free pre post e _ hsplit he hfirst =>
      rw [Nat.zero_add]
      rcases hcases with ⟨e', hs, -⟩ | ⟨e', hs, -⟩ | ⟨hs, hk⟩
      · rw [hfirst] at hs
        cases hs
      · rw [hfirst] at hs
        cases hs
      · exact .free hsplit he hk (hclear.1 (by rw [hs, hk]; rfl))
    | none hfree hfirst =>
      rcases hcases with ⟨e', hs, -⟩ | ⟨e', hs, -⟩ | ⟨hs, hk⟩
      · rw [hfirst] at hs
        cases hs
      · rw [hfirst] at hs
        cases hs
      · exact .full (hfree (by omega)) hk (hclear.1 (by rw [hs, hk]; rfl))

theorem key_charField {k : List UInt8} (svrName : List UInt8) (hk : svcKey svrName = k) :
    svcKey (charField 33 k 0).toList = k := by
  subst hk
  have hlen : (svcKey svrName).length ≤ tuxNameLen := by
    rw [svcKey, List.length_take]
    omega
  have hzero : (0 : UInt8) ∉ svcKey svrName := fun h ↦
    zero_notMem_cstr svrName (List.mem_of_mem_take h)
  show (cstr (bufRead (svcKey svrName) 0 33)).take tuxNameLen = _
  rw [cstr_bufRead hzero (hlen.trans (by decide)), List.take_of_length_le hlen]

theorem key_newSlot (svrName : List UInt8) (sdFun : ℕ) :
    (newSlot svrName sdFun).key = svcKey svrName :=
  key_charField svrName rfl

theorem key_zero : SvcTab.zero.key = [] := by decide

/-- A table that was written at the slot behind `pre`. -/
theorem svcView_set {tab : List SvcTab} {pre post : List ServiceTab} {e : ServiceTab}
    (h : svcView tab = pre ++ e :: post) (e' : SvcTab) :
    svcView (tab.set pre.length e') = pre ++ e'.toServiceTab :: post := by
  rw [svcView, List.map_set, ← svcView, h]
  simp

theorem svcView_modify (tab : List SvcTab) (i : ℕ) (svrno : ℤ) :
    svcView (tab.modify i fun e ↦ { e with svrid := svrno }) = svcView tab := by
  refine List.ext_getElem? fun j ↦ ?_
  rw [svcView, svcView, List.getElem?_map, List.getElem?_map, List.getElem?_modify,
    Option.map_eq_map, Option.map_map]
  congr 1
  funext e
  simp only [Function.comp_apply]
  split <;> rfl

/-- The table and the map that it is to stand for. -/
structure SvcState where
  tab : List SvcTab
  map : SvcMap

/-- The call does what the operation of the map does: it returns the same, writes inside the table if it
writes, leaves the table as it is if it fails, and the table stands for the new map. -/
structure CallRight (nsvrnum : ℕ) (s : SvcState) (a : SvcAct) : Prop where
  rc : (svcCall s.tab a).rc = (svcSpec nsvrnum s.map a).1
  inside : ∀ i, (svcCall s.tab a).written = some i → 0 ≤ i ∧ i < nsvrnum
  failed : (svcCall s.tab a).rc ≠ 0 → (svcCall s.tab a).tab = s.tab
  stands : TableStands (svcView (svcCall s.tab a).tab) (svcSpec nsvrnum s.map a).2

/-- What a call needs: a free slot for a new name, and that the empty name is clear. The latter is not needed
by a second `tux_advertise` with another handler, which fails anyway. -/
def SvcGuard (s : SvcState) : SvcAct → Prop
  | .advertise tSvrTab svrName sdFun =>
    Offered tSvrTab (svcKey svrName) →
      (s.map.lookup (svcKey svrName) = none → ∃ e ∈ s.tab, e.flags = -1) ∧
      (Clear (svcView s.tab) (-1) (svcKey svrName) ∨
        ∃ f, f ≠ sdFun ∧ s.map.lookup (svcKey svrName) = some f)
  | .unadvertise svrName => Clear (svcView s.tab) (-1) (svcKey svrName)

/-- The invariant: the table has its size and stands for the map. -/
structure SvcOk (nsvrnum : ℕ) (s : SvcState) : Prop where
  length : s.tab.length = nsvrnum
  stands : TableStands (svcView s.tab) s.map

theorem findSvrno_isSome_iff (tSvrTab : List ServerTab) (svrName : List UInt8) :
    (findSvrnoByService tSvrTab svrName).isSome ↔ Offered tSvrTab (svcKey svrName) := by
  rw [findSvrnoByService, List.findIdx?_isSome, List.any_eq_true]
  refine exists_congr fun e ↦ and_congr_right fun _ ↦ ?_
  exact strncmpEq_iff _ _ _

section Calls

variable {nsvrnum : ℕ} {s : SvcState}

/-- With a slot that holds nothing the map has room. -/
theorem SvcOk.card_lt (h : SvcOk nsvrnum s) {e : ServiceTab} (he : e ∈ svcView s.tab)
    (hf : e.sdFun = 0) : s.map.keys.card < nsvrnum := by
  have hnone : none ∈ (svcView s.tab).map ServiceTab.held :=
    List.mem_map.2 ⟨e, he, by rw [ServiceTab.held, if_pos hf]⟩
  have hcard := h.stands.represents.card_lt hnone
  rwa [List.length_map, svcView, List.length_map, h.length] at hcard

theorem SvcOk.length_lt (h : SvcOk nsvrnum s) {pre post : List ServiceTab} {e : ServiceTab}
    (hsplit : svcView s.tab = pre ++ e :: post) : pre.length < nsvrnum := by
  have hlen := congrArg List.length hsplit
  rw [svcView, List.length_map, h.length, List.length_append, List.length_cons] at hlen
  omega

theorem tab_getElem?_of_split {tab : List SvcTab} {pre post : List ServiceTab} {e : ServiceTab}
    (h : svcView tab = pre ++ e :: post) : (tab[pre.length]?.map fun e ↦ e.sdFun) = some e.sdFun := by
  have hget : (svcView tab)[pre.length]? = some e := by rw [h]; simp
  rw [svcView, List.getElem?_map] at hget
  obtain ⟨x, hx, rfl⟩ := Option.map_eq_some_iff.1 hget
  rw [hx]
  rfl

theorem exists_free_iff {tab : List SvcTab} :
    (∃ e ∈ tab, e.flags = -1) ↔ ∃ e ∈ svcView tab, e.flags = -1 := by
  simp [svcView]

/-- A call that leaves the table as it is, and is to leave the map as it is. -/
theorem SvcOk.callRight_of_same (h : SvcOk nsvrnum s) {a : SvcAct} {rc : ℤ} {errno : Option ℤ}
    (hcall : svcCall s.tab a = ⟨rc, errno, s.tab, none⟩)
    (hspec : svcSpec nsvrnum s.map a = (rc, s.map)) : CallRight nsvrnum s a := by
  refine ⟨by rw [hcall, hspec], fun i hi ↦ ?_, fun _ ↦ by rw [hcall], ?_⟩
  · rw [hcall] at hi
    cases hi
  · rw [hcall, hspec]
    exact h.stands

/-- A call that stores in a slot of the table, after which the table stands for the new map. -/
theorem SvcOk.callRight_of_store (h : SvcOk nsvrnum s) {a : SvcAct} {pre post : List ServiceTab}
    {e : ServiceTab} (hsplit : svcView s.tab = pre ++ e :: post) {tab' : List SvcTab} {m' : SvcMap}
    (hcall : svcCall s.tab a = ⟨0, none, tab', some pre.length⟩)
    (hspec : svcSpec nsvrnum s.map a = (0, m')) (hst : TableStands (svcView tab') m') :
    CallRight nsvrnum s a := by
  refine ⟨by rw [hcall, hspec], fun i hi ↦ ?_, fun hrc ↦ absurd (by rw [hcall]) hrc, ?_⟩
  · have hlt := h.length_lt hsplit
    rw [hcall] at hi
    rw [← Option.some.inj hi]
    omega
  · rw [hcall, hspec]
    exact hst

/-- Where another slot was released, the name still stands in the table. -/
theorem SvcOk.not_stands_of_blank (h : SvcOk nsvrnum s) {k : List UInt8} {pre post : List ServiceTab}
    {e : ServiceTab} (hsplit : svcView s.tab = pre ++ e :: post) (hf : e.sdFun = 0) (hmem : k ∈ s.map) :
    ¬ TableStands (pre ++ SvcTab.zero.toServiceTab :: post) (s.map.erase k) := fun hst ↦ by
  obtain ⟨f, hlookup⟩ := Finmap.mem_iff.1 hmem
  obtain ⟨x, hx, hxkey, -, hxf⟩ := h.stands.exists_of_lookup hlookup
  have hx' : x ∈ pre ++ SvcTab.zero.toServiceTab :: post := by
    rw [hsplit] at hx
    rcases List.mem_append.1 hx with hx | hx
    · exact List.mem_append_left _ hx
    · rcases List.mem_cons.1 hx with rfl | hx
      · exact absurd hf hxf
      · exact List.mem_append_right _ (List.mem_cons_of_mem _ hx)
  have hnot := hst.lookup_of_mem hx' hxf
  rw [hxkey, Finmap.lookup_erase] at hnot
  cases hnot

/-- **`tux_unadvertise`** is right exactly when the name is clear. -/
theorem callRight_unadvertise_iff (h : SvcOk nsvrnum s) (svrName : List UInt8) :
    CallRight nsvrnum s (.unadvertise svrName) ↔ SvcGuard s (.unadvertise svrName) := by
  have hsearch := h.stands.searched svrName
  have hdel : svcCall s.tab (.unadvertise svrName) = tuxDelService s.tab svrName := rfl
  rw [tuxDelService, findService, ← svcView] at hdel
  rw [SvcGuard]
  cases hr : findServiceLoop svrName (svcView s.tab) 0 (-1) with
  | mk r p =>
    rw [hr] at hsearch hdel
    cases hsearch with
    | @held pre post e _ hsplit hkey hf hk hc =>
      refine iff_of_true ?_ hc
      have hcall : svcCall s.tab (.unadvertise svrName) =
          ⟨0, none, s.tab.set pre.length .zero, some pre.length⟩ := hdel
      have hspec : svcSpec nsvrnum s.map (.unadvertise svrName) =
          (0, s.map.erase (svcKey svrName)) := if_pos (Finmap.mem_of_lookup_eq_some hk)
      refine h.callRight_of_store hsplit hcall hspec ?_
      have hst := h.stands
      rw [hsplit] at hst
      rw [svcView_set hsplit, ← hkey]
      exact hst.release hf rfl key_zero (by decide)
    | @blank pre post e _ hsplit hf hk hc =>
      refine iff_of_false (fun hright ↦ ?_) hc
      have hcall : svcCall s.tab (.unadvertise svrName) =
          ⟨0, none, s.tab.set pre.length .zero, some pre.length⟩ := hdel
      by_cases hmem : svcKey svrName ∈ s.map
      · -- the name stays in the table, behind the slot that was released instead
        have hspec : svcSpec nsvrnum s.map (.unadvertise svrName) =
            (0, s.map.erase (svcKey svrName)) := if_pos hmem
        have hst := hright.stands
        rw [hcall, hspec, svcView_set hsplit] at hst
        exact h.not_stands_of_blank hsplit hf hmem hst
      · have hspec : svcSpec nsvrnum s.map (.unadvertise svrName) = (-1, s.map) := if_neg hmem
        have hrc := hright.rc
        rw [hcall, hspec] at hrc
        exact absurd hrc (show (0 : ℤ) ≠ -1 by decide)
    | free _ _ hk hc =>
      exact iff_of_true (h.callRight_of_same hdel (if_neg (Finmap.lookup_eq_none.1 hk))) hc
    | full _ hk hc =>
      exact iff_of_true (h.callRight_of_same hdel (if_neg (Finmap.lookup_eq_none.1 hk))) hc

/-- A name that no server offers is refused. -/
theorem callRight_of_not_offered (h : SvcOk nsvrnum s) {tSvrTab : List ServerTab}
    {svrName : List UInt8} {sdFun : ℕ} (hf : sdFun ≠ 0) (hoff : ¬ Offered tSvrTab (svcKey svrName)) :
    CallRight nsvrnum s (.advertise tSvrTab svrName sdFun) := by
  have hnone : findSvrnoByService tSvrTab svrName = none := by
    rwa [← findSvrno_isSome_iff, Option.not_isSome_iff_eq_none] at hoff
  have hcall : svcCall s.tab (.advertise tSvrTab svrName sdFun) =
      ⟨-1, some sysSystem, s.tab, none⟩ := by
    simp only [svcCall, tuxAdvertise, if_neg hf, hnone]
  exact h.callRight_of_same hcall (if_neg hoff)

/-- `tux_advertise` behind `find_svrno_by_service`, when `tux_new_service` fails. -/
theorem svcCall_of_neg {tab : List SvcTab} {tSvrTab : List ServerTab} {svrName : List UInt8}
    {sdFun : ℕ} (hf : sdFun ≠ 0) (hoff : Offered tSvrTab (svcKey svrName)) {r : SvcCall}
    (hnew : tuxNewService tab svrName sdFun = r) (hr : r.rc < 0) :
    svcCall tab (.advertise tSvrTab svrName sdFun) = r := by
  obtain ⟨svrno, hno⟩ := Option.isSome_iff_exists.1 ((findSvrno_isSome_iff _ _).2 hoff)
  simp only [svcCall, tuxAdvertise, if_neg hf, hno, hnew, if_pos hr]

/-- And when it does not: the number of the server is stored in the slot. -/
theorem svcCall_of_nonneg {tab : List SvcTab} {tSvrTab : List ServerTab} {svrName : List UInt8}
    {sdFun : ℕ} (hf : sdFun ≠ 0) (hoff : Offered tSvrTab (svcKey svrName)) {r : SvcCall}
    (hnew : tuxNewService tab svrName sdFun = r) (hr : 0 ≤ r.rc) :
    ∃ tab', svcCall tab (.advertise tSvrTab svrName sdFun) = { r with rc := 0, tab := tab' } ∧
      svcView tab' = svcView r.tab := by
  obtain ⟨svrno, hno⟩ := Option.isSome_iff_exists.1 ((findSvrno_isSome_iff _ _).2 hoff)
  refine ⟨r.tab.modify r.rc.toNat fun e ↦ { e with svrid := svrno }, ?_, svcView_modify _ _ _⟩
  simp only [svcCall, tuxAdvertise, if_neg hf, hno, hnew, if_neg (Int.not_lt.2 hr)]

/-- `tux_new_service` finds a slot. -/
theorem tuxNewService_of_some {tab : List SvcTab} {svrName : List UInt8} (sdFun : ℕ)
    {pre post : List ServiceTab} {e : ServiceTab} {p : ℤ} (hsplit : svcView tab = pre ++ e :: post)
    (hr : findServiceLoop svrName (svcView tab) 0 (-1) = (some pre.length, p)) :
    tuxNewService tab svrName sdFun =
      if e.sdFun = sdFun then ⟨pre.length, none, tab, none⟩ else ⟨-1, some sysEmatch, tab, none⟩ := by
  rw [tuxNewService, findService, ← svcView, hr]
  dsimp only
  rw [tab_getElem?_of_split hsplit]
  simp only [Option.some.injEq]

/-- `tux_new_service` finds none. -/
theorem tuxNewService_of_none {tab : List SvcTab} {svrName : List UInt8} (sdFun : ℕ) {p : ℤ}
    (hr : findServiceLoop svrName (svcView tab) 0 (-1) = (none, p)) :
    tuxNewService tab svrName sdFun =
      ⟨p, none, setSlot tab p (newSlot svrName sdFun), some p⟩ := by
  rw [tuxNewService, findService, ← svcView, hr]

section Advertise

variable {tSvrTab : List ServerTab} {svrName : List UInt8} {sdFun : ℕ} {pre post : List ServiceTab}
  {e : ServiceTab} {p : ℤ}

/-- What is asked of an offered name that is in the map. -/
theorem svcSpec_of_some (hoff : Offered tSvrTab (svcKey svrName)) {m : SvcMap} {f : ℕ}
    (hk : m.lookup (svcKey svrName) = some f) :
    svcSpec nsvrnum m (.advertise tSvrTab svrName sdFun) = (if f = sdFun then 0 else -1, m) := by
  simp only [svcSpec, if_pos hoff, hk]

/-- And of one that is not, when the map has room. -/
theorem svcSpec_of_none (hoff : Offered tSvrTab (svcKey svrName)) {m : SvcMap}
    (hk : m.lookup (svcKey svrName) = none) (hroom : m.keys.card < nsvrnum) :
    svcSpec nsvrnum m (.advertise tSvrTab svrName sdFun) =
      (0, m.insert (svcKey svrName) sdFun) := by
  simp only [svcSpec, if_pos hoff, hk, if_pos hroom]

/-- The search finds the slot of the name. -/
theorem SvcOk.callRight_of_held (h : SvcOk nsvrnum s) (hf : sdFun ≠ 0)
    (hoff : Offered tSvrTab (svcKey svrName)) (hsplit : svcView s.tab = pre ++ e :: post)
    (hr : findServiceLoop svrName (svcView s.tab) 0 (-1) = (some pre.length, p))
    (hk : s.map.lookup (svcKey svrName) = some e.sdFun) :
    CallRight nsvrnum s (.advertise tSvrTab svrName sdFun) := by
  have hnew := tuxNewService_of_some sdFun hsplit hr
  have hspec : svcSpec nsvrnum s.map (.advertise tSvrTab svrName sdFun) =
      (if e.sdFun = sdFun then 0 else -1, s.map) := svcSpec_of_some hoff hk
  by_cases heq : e.sdFun = sdFun
  · rw [if_pos heq] at hnew hspec
    obtain ⟨tab', hadv, hview⟩ := svcCall_of_nonneg hf hoff hnew (Int.natCast_nonneg _)
    refine ⟨by rw [hadv, hspec], fun i hi ↦ ?_, fun hrc ↦ absurd (by rw [hadv]) hrc, ?_⟩
    · rw [hadv] at hi
      cases hi
    · rw [hadv, hspec, hview]
      exact h.stands
  · rw [if_neg heq] at hnew hspec
    exact h.callRight_of_same (svcCall_of_neg hf hoff hnew (show (-1 : ℤ) < 0 by decide)) hspec

/-- The search finds a slot without a handler: the call fails, which is right only for a name that has
another handler. -/
theorem SvcOk.callRight_blank_iff (h : SvcOk nsvrnum s) (hf : sdFun ≠ 0)
    (hoff : Offered tSvrTab (svcKey svrName)) (hsplit : svcView s.tab = pre ++ e :: post)
    (hr : findServiceLoop svrName (svcView s.tab) 0 (-1) = (some pre.length, p)) (he : e.sdFun = 0) :
    CallRight nsvrnum s (.advertise tSvrTab svrName sdFun) ↔
      ∃ f, f ≠ sdFun ∧ s.map.lookup (svcKey svrName) = some f := by
  have hnew := tuxNewService_of_some sdFun hsplit hr
  rw [he, if_neg hf.symm] at hnew
  have hadv := svcCall_of_neg hf hoff hnew (show (-1 : ℤ) < 0 by decide)
  constructor
  · intro hright
    have hrc := hright.rc
    cases hk : s.map.lookup (svcKey svrName) with
    | none =>
      have hroom : s.map.keys.card < nsvrnum := h.card_lt (by rw [hsplit]; simp) he
      rw [hadv, svcSpec_of_none hoff hk hroom] at hrc
      exact absurd hrc (show (-1 : ℤ) ≠ 0 by decide)
    | some f =>
      refine ⟨f, fun heq ↦ ?_, rfl⟩
      rw [hadv, svcSpec_of_some hoff hk, if_pos heq] at hrc
      exact absurd hrc (show (-1 : ℤ) ≠ 0 by decide)
  · rintro ⟨f, hne, hk⟩
    have hspec : svcSpec nsvrnum s.map (.advertise tSvrTab svrName sdFun) =
        (if f = sdFun then 0 else -1, s.map) := svcSpec_of_some hoff hk
    rw [if_neg hne] at hspec
    exact h.callRight_of_same hadv hspec

/-- The search finds a free slot for a new name. -/
theorem SvcOk.callRight_of_free (h : SvcOk nsvrnum s) (hf : sdFun ≠ 0)
    (hoff : Offered tSvrTab (svcKey svrName)) (hsplit : svcView s.tab = pre ++ e :: post)
    (hr : findServiceLoop svrName (svcView s.tab) 0 (-1) = (none, (pre.length : ℤ)))
    (he : e.flags = -1) (hk : s.map.lookup (svcKey svrName) = none) :
    CallRight nsvrnum s (.advertise tSvrTab svrName sdFun) := by
  have hmem : e ∈ svcView s.tab := by rw [hsplit]; simp
  have hroom := h.card_lt hmem (h.stands.unused e hmem he)
  obtain ⟨tab', hadv, hview⟩ :=
    svcCall_of_nonneg hf hoff (tuxNewService_of_none sdFun hr) (Int.natCast_nonneg _)
  refine h.callRight_of_store hsplit hadv (svcSpec_of_none hoff hk hroom) ?_
  have hst := h.stands
  rw [hsplit] at hst
  have hkey := key_newSlot svrName sdFun
  have hfill : TableStands (pre ++ (newSlot svrName sdFun).toServiceTab :: post)
      (s.map.insert (newSlot svrName sdFun).key sdFun) :=
    hst.fill he (hkey ▸ Finmap.lookup_eq_none.1 hk) hf (show (0 : ℤ) ≠ -1 by decide)
  have hset : setSlot s.tab pre.length (newSlot svrName sdFun) =
      s.tab.set pre.length (newSlot svrName sdFun) := if_neg (by omega)
  rw [hview, hset, svcView_set hsplit, ← hkey]
  exact hfill

end Advertise

/-- **`tux_advertise`** is right exactly when a new name finds a free slot and the empty name is clear. -/
theorem callRight_advertise_iff (h : SvcOk nsvrnum s) {tSvrTab : List ServerTab}
    {svrName : List UInt8} {sdFun : ℕ} (hf : sdFun ≠ 0) :
    CallRight nsvrnum s (.advertise tSvrTab svrName sdFun) ↔
      SvcGuard s (.advertise tSvrTab svrName sdFun) := by
  by_cases hoff : Offered tSvrTab (svcKey svrName)
  swap
  · exact iff_of_true (callRight_of_not_offered h hf hoff) fun hoff' ↦ absurd hoff' hoff
  have hsearch := h.stands.searched svrName
  simp only [SvcGuard, exists_free_iff]
  cases hr : findServiceLoop svrName (svcView s.tab) 0 (-1) with
  | mk r p =>
    rw [hr] at hsearch
    cases hsearch with
    | held hsplit hkey he hk hc =>
      refine iff_of_true (h.callRight_of_held hf hoff hsplit hr hk) fun _ ↦ ⟨fun hnone ↦ ?_, .inl hc⟩
      rw [hk] at hnone
      cases hnone
    | blank hsplit he hk hc =>
      rw [h.callRight_blank_iff hf hoff hsplit hr he]
      constructor
      · rintro ⟨f, hne, hk⟩
        refine fun _ ↦ ⟨fun hnone ↦ ?_, .inr ⟨f, hne, hk⟩⟩
        rw [hk] at hnone
        cases hnone
      · exact fun hguard ↦ (hguard hoff).2.resolve_left hc
    | @free _ _ e hsplit he hk hc =>
      have hmem : e ∈ svcView s.tab := by rw [hsplit]; simp
      exact iff_of_true (h.callRight_of_free hf hoff hsplit hr he hk)
        fun _ ↦ ⟨fun _ ↦ ⟨e, hmem, he⟩, .inl hc⟩
    | full hnone hk hc =>
      -- the new slot would be written in front of the table
      have hadv := svcCall_of_neg hf hoff (tuxNewService_of_none sdFun hr)
        (show (-1 : ℤ) < 0 by decide)
      refine iff_of_false (fun hright ↦ ?_) fun hguard ↦ ?_
      · have hin := hright.inside (-1) (by rw [hadv])
        omega
      · obtain ⟨e, he, hflags⟩ := (hguard hoff).1 hk
        exact hnone e he hflags

end Calls

/-! ### Runs -/

/-- A handler is not `NULL`. -/
def SvcAct.NonNull : SvcAct → Prop
  | .advertise _ _ sdFun => sdFun ≠ 0
  | .unadvertise _ => True

instance (a : SvcAct) : Decidable a.NonNull := by
  cases a <;> unfold SvcAct.NonNull <;> infer_instance

/-- A call on the table, beside the operation of the map. -/
def svcStep (nsvrnum : ℕ) (s : SvcState) (a : SvcAct) : Option SvcState :=
  if a.NonNull then some ⟨(svcCall s.tab a).tab, (svcSpec nsvrnum s.map a).2⟩ else none

/-- The calls behind `sys_start`. -/
def svcSystem (nsvrnum : ℕ) : Guarded SvcState SvcAct :=
  .ofFn (fun s ↦ s = ⟨sysStartSvc nsvrnum, ∅⟩) (svcStep nsvrnum)

/-- A slot holds a name; the empty name needs a handler to be one. -/
def HoldsName (e : ServiceTab) (k : List UInt8) : Prop :=
  e.key = k ∧ (k = [] → e.sdFun ≠ 0)

/-- What `tux_find_service` finds has the handler of the name, and it finds nothing for other names. -/
def LookupRight (s : SvcState) (svrName : List UInt8) (pos : ℤ) : Prop :=
  (((findService s.tab svrName pos).1.bind fun i ↦ (svcView s.tab)[i]?).map fun e ↦ e.sdFun) =
    s.map.lookup (svcKey svrName)

/-- `sys_start` prepares a table that stands for the empty map. -/
theorem svcOk_start (nsvrnum : ℕ) : SvcOk nsvrnum ⟨sysStartSvc nsvrnum, ∅⟩ := by
  have hview : svcView (sysStartSvc nsvrnum) = List.replicate nsvrnum SvcTab.start.toServiceTab :=
    List.map_replicate
  refine ⟨List.length_replicate, ?_, ?_, ?_⟩
  · show Represents ((svcView (sysStartSvc nsvrnum)).map ServiceTab.held) ∅
    rw [hview, List.map_replicate]
    exact represents_replicate nsvrnum
  · intro e he _
    rw [hview] at he
    rw [List.eq_of_mem_replicate he]
    decide
  · intro e he _
    rw [hview] at he
    rw [List.eq_of_mem_replicate he]
    rfl

theorem callRight_iff {nsvrnum : ℕ} {s : SvcState} (h : SvcOk nsvrnum s) {a : SvcAct}
    (ha : a.NonNull) : CallRight nsvrnum s a ↔ SvcGuard s a := by
  cases a with
  | advertise tSvrTab svrName sdFun => exact callRight_advertise_iff h ha
  | unadvertise svrName => exact callRight_unadvertise_iff h svrName

/-- No call changes the number of slots. -/
theorem length_svcCall (tab : List SvcTab) (a : SvcAct) : (svcCall tab a).tab.length = tab.length := by
  have hnew (svrName : List UInt8) (sdFun : ℕ) :
      (tuxNewService tab svrName sdFun).tab.length = tab.length := by
    rw [tuxNewService]
    split
    · split <;> rfl
    · show (setSlot tab _ _).length = _
      rw [setSlot]
      split
      · rfl
      · exact List.length_set
  cases a with
  | advertise tSvrTab svrName sdFun =>
    simp only [svcCall, tuxAdvertise]
    split
    · rfl
    · split
      · rfl
      · split
        · exact hnew svrName sdFun
        · rw [List.length_modify, hnew]
  | unadvertise svrName =>
    simp only [svcCall, tuxUnadvertise, tuxDelService]
    split
    · exact List.length_set
    · rfl

theorem svcOk_of_reach {nsvrnum : ℕ} {s : SvcState} (h : (svcSystem nsvrnum).Reach SvcGuard s) :
    SvcOk nsvrnum s := by
  refine h.invariant (I := SvcOk nsvrnum) ?_ ?_
  · rintro _ rfl
    exact svcOk_start nsvrnum
  · intro s a s' hs hG hstep
    replace hstep : svcStep nsvrnum s a = some s' := hstep
    rw [svcStep] at hstep
    split at hstep
    · next ha =>
      obtain rfl := Option.some.inj hstep
      exact ⟨(length_svcCall s.tab a).trans hs.length, ((callRight_iff hs ha).2 hG).stands⟩
    · cases hstep

/-- Two slots that hold the same name are one. -/
theorem TableStands.holdsName_inj {tab : List ServiceTab} {m : SvcMap} (h : TableStands tab m)
    {i j : ℕ} {e e' : ServiceTab} {k : List UInt8} (hi : tab[i]? = some e) (hj : tab[j]? = some e')
    (he : HoldsName e k) (he' : HoldsName e' k) : i = j := by
  have hfun {x : ServiceTab} {l : ℕ} (hx : tab[l]? = some x) (hk : HoldsName x k) : x.sdFun ≠ 0 :=
    fun h0 ↦ hk.2 (hk.1 ▸ h.nameless x (List.mem_of_getElem? hx) h0) h0
  by_contra hne
  obtain ⟨hlt, rfl⟩ := List.getElem?_eq_some_iff.1 hi
  have hrep := h.represents
  have hsplit : tab = tab.take i ++ tab[i] :: tab.drop (i + 1) := by
    rw [List.getElem_cons_drop, List.take_append_drop]
  have hother : e' ∈ tab.take i ++ tab.drop (i + 1) := by
    rw [← List.eraseIdx_eq_take_drop_succ, List.mem_eraseIdx_iff_getElem?]
    exact ⟨j, fun h ↦ hne h.symm, hj⟩
  rw [hsplit, List.map_append, List.map_cons, ServiceTab.held, if_neg (hfun hi he)] at hrep
  refine hrep.notMem_of_split ?_
  rw [← List.map_append]
  refine mem_keys.2 ⟨e'.sdFun, List.mem_map.2 ⟨e', hother, ?_⟩⟩
  rw [ServiceTab.held, if_neg (hfun hj he'), he'.1, he.1]

/-- **`tux_find_service`** is right exactly when the name is clear. -/
theorem lookupRight_iff {nsvrnum : ℕ} {s : SvcState} (h : SvcOk nsvrnum s) (svrName : List UInt8)
    (pos : ℤ) : LookupRight s svrName pos ↔ Clear (svcView s.tab) pos (svcKey svrName) := by
  rw [← h.stands.map_seenFirst_iff, LookupRight, findService, ← svcView]
  have hfound := foundService (svcView s.tab) svrName 0 pos
  cases hr : findServiceLoop svrName (svcView s.tab) 0 pos with
  | mk r p =>
    rw [hr] at hfound
    cases hfound with
    | @found pre post e _ hsplit hfirst =>
      have hget : (svcView s.tab)[0 + pre.length]? = some e := by
        rw [hsplit]
        simp
      rw [Option.bind_some, hget, hfirst]
    | free _ _ _ hfirst => rw [hfirst, Option.bind_none]
    | none _ hfirst => rw [hfirst, Option.bind_none]

/-- **The service table.** In every run of calls that find a free slot for a new name and do not take the
empty name for a slot without a name: at most one slot holds a name, a lookup is right exactly when its name
is clear, and the next call is right exactly when it meets the same condition. -/
theorem service_table_refines {nsvrnum : ℕ} {s : SvcState}
    (h : (svcSystem nsvrnum).Reach SvcGuard s) :
    (∀ (k : List UInt8) (i j : ℕ) (e e' : ServiceTab), (svcView s.tab)[i]? = some e →
      (svcView s.tab)[j]? = some e' → HoldsName e k → HoldsName e' k → i = j) ∧
    (∀ svrName pos, LookupRight s svrName pos ↔ Clear (svcView s.tab) pos (svcKey svrName)) ∧
    ∀ a : SvcAct, a.NonNull → (CallRight nsvrnum s a ↔ SvcGuard s a) :=
  have hok := svcOk_of_reach h
  ⟨fun _ _ _ _ _ hi hj he he' ↦ hok.stands.holdsName_inj hi hj he he',
    fun svrName pos ↦ lookupRight_iff hok svrName pos, fun _ ha ↦ callRight_iff hok ha⟩

/-- A server that offers the services `a` and `b`. -/
def abServers : List ServerTab :=
  [⟨1, charField 33 [97] 0, .idle, 300001, 20⟩, ⟨2, charField 33 [98] 0, .idle, 300002, 20⟩]

/-- In a table of one slot, `a` is advertised and found. -/
theorem service_table_refines_one :
    ∃ s, (svcSystem 1).Reach SvcGuard s ∧ LookupRight s [97] (-1) ∧
      (findService s.tab [97] (-1)).1 = some 0 := by
  have hstart : (svcSystem 1).Reach SvcGuard ⟨sysStartSvc 1, ∅⟩ := .init rfl
  have hguard : SvcGuard ⟨sysStartSvc 1, ∅⟩ (.advertise abServers [97] 7) := fun _ ↦
    ⟨fun _ ↦ ⟨.start, by simp [sysStartSvc], rfl⟩, .inl fun h ↦ absurd h (by decide)⟩
  have hreach : (svcSystem 1).Reach SvcGuard _ := .step hstart hguard rfl
  exact ⟨_, hreach, ((service_table_refines hreach).2.1 _ _).2 fun h ↦ absurd h (by decide), by decide⟩

/-- Behind the release of `a` nothing is advertised, and yet `b` finds no slot. -/
theorem released_slot_not_reused :
    ∃ s, (svcSystem 1).Reach Guarded.always s ∧ s.map.keys.card = 0 ∧
      ¬ CallRight 1 s (.advertise abServers [98] 8) := by
  obtain ⟨s, hs, hcard, hwritten⟩ : ∃ s, Guarded.runFn (Guarded.guardFn Guarded.always (svcStep 1))
      ⟨sysStartSvc 1, ∅⟩ [.advertise abServers [97] 7, .unadvertise [97]] = some s ∧
        s.map.keys.card = 0 ∧ (svcCall s.tab (.advertise abServers [98] 8)).written = some (-1) :=
    ⟨_, rfl, by decide, by decide⟩
  refine ⟨s, Guarded.reach_of_runFn (.init rfl) hs, hcard, fun hright ↦ ?_⟩
  have hin := hright.inside (-1) hwritten
  omega

end Sunda
