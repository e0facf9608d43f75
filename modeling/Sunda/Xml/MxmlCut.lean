import Sunda.Xml.MxmlRoundTrip

/-!
# A document that is cut off

`mxmlSaveString` writes as much of a document as there is room for. What `mxmlLoadString` makes of the rest:

* `gather_append`, `mxmlParseElement_append`, ...: a loop that ends within a string does the same in a longer
  one;
* `loadTag_cut`, `loadTag_close_cut`: a tag that is cut off is an error, or is taken for a name that is shorter;
* `cutElement`, `cutNodes`: nodes that are cut off, by induction on the node as in `readsNode`. With two nodes
  open at the end, nothing is returned;
* `mxmlLoadString_cut`: the document is not read, or read as a whole, or nothing is in the nodes under its top.
-/

namespace Sunda

open Bytes

/-! ### A loop that ends within a string -/

/-- Within a string that can be written, there is no `EOF` but at its end. -/
theorem mxmlStringGetc_none {s rest : List UInt8} (hs : PlainString s)
    (h : mxmlStringGetc s = (none, rest)) : s = [] ∧ rest = [] := by
  cases s with
  | nil => exact ⟨rfl, (Prod.mk.inj h).2.symm⟩
  | cons d s =>
    rw [mxmlStringGetc_cons (hs d List.mem_cons_self)] at h
    cases h

theorem PlainString.tail {c : UInt8} {s : List UInt8} (h : PlainString (c :: s)) : PlainString s :=
  (plainString_cons.1 h).2

section Append

variable {s : List UInt8} (w : List UInt8)

theorem entityLoop_append (entity : List UInt8) {c : UInt8} {name rest : List UInt8}
    (h : entityLoop entity s = (some c, name, rest)) :
    entityLoop entity (s ++ w) = (some c, name, rest ++ w) := by
  fun_induction entityLoop entity s with
  | case1 => cases h
  | case2 entity s d rest' hd hstop =>
    obtain ⟨rfl, hdata⟩ := mxmlStringGetc_some hd
    rw [List.cons_append, entityLoop_cons hdata, if_pos hstop]
    cases h
    rfl
  | case3 entity s d rest' hd hstop hlen ih =>
    obtain ⟨rfl, hdata⟩ := mxmlStringGetc_some hd
    rw [List.cons_append, entityLoop_cons hdata, if_neg hstop, if_pos hlen, ih h]
  | case4 entity s d rest' hd hstop hlen =>
    obtain ⟨rfl, hdata⟩ := mxmlStringGetc_some hd
    rw [List.cons_append, entityLoop_cons hdata, if_neg hstop, if_neg hlen]
    cases h
    rfl

theorem mxmlGetEntity_append {e : ℕ} {rest : List UInt8} (h : mxmlGetEntity s = (some e, rest)) :
    mxmlGetEntity (s ++ w) = (some e, rest ++ w) := by
  rw [mxmlGetEntity] at h
  split_ifs at h with hsemi hbad
  · cases h
  · have hloop := entityLoop_append w [] (Prod.ext hsemi rfl : entityLoop [] s = (some (ch ';'), _))
    cases h
    rw [mxmlGetEntity, hloop]
    simp [hbad]
  · cases h

theorem gather_append {stop : UInt8 → Bool} {buf : List UInt8} {c : UInt8} {b rest : List UInt8}
    (h : gather stop buf s = some (some c, b, rest)) :
    gather stop buf (s ++ w) = some (some c, b, rest ++ w) := by
  fun_induction gather stop buf s with
  | case1 => cases h
  | case2 buf s d rest' hd hstop =>
    obtain ⟨rfl, hdata⟩ := mxmlStringGetc_some hd
    rw [List.cons_append, gather_cons hdata, if_pos hstop]
    cases h
    rfl
  | case3 => cases h
  | case4 buf s rest' e rest'' he hd hstop ih =>
    obtain ⟨rfl, hdata⟩ := mxmlStringGetc_some hd
    rw [List.cons_append, gather_cons hdata, if_neg hstop, if_pos rfl, mxmlGetEntity_append w he]
    exact ih h
  | case5 buf s d rest' hd hstop hamp ih =>
    obtain ⟨rfl, hdata⟩ := mxmlStringGetc_some hd
    rw [List.cons_append, gather_cons hdata, if_neg hstop, if_neg hamp]
    rw [mxmlAddChar_toNat] at ih h
    exact ih h

theorem gatherTag_append {buf : List UInt8} {c : UInt8} {b rest : List UInt8}
    (h : gatherTag buf s = some (some c, b, rest)) :
    gatherTag buf (s ++ w) = some (some c, b, rest ++ w) := by
  fun_induction gatherTag buf s with
  | case1 => cases h
  | case2 buf s d rest' hd hstop =>
    obtain ⟨rfl, hdata⟩ := mxmlStringGetc_some hd
    rw [List.cons_append, gatherTag_cons hdata, if_pos hstop]
    cases h
    rfl
  | case3 => cases h
  | case4 => cases h
  | case5 buf s rest' e rest'' he hd hstop hlt ih =>
    obtain ⟨rfl, hdata⟩ := mxmlStringGetc_some hd
    rw [List.cons_append, gatherTag_cons hdata, if_neg hstop, if_neg hlt, if_pos rfl,
      mxmlGetEntity_append w he]
    exact ih h
  | case6 buf s d rest' hd hstop hlt hamp hstart =>
    obtain ⟨rfl, hdata⟩ := mxmlStringGetc_some hd
    rw [mxmlAddChar_toNat] at hstart h
    rw [List.cons_append, gatherTag_cons hdata, if_neg hstop, if_neg hlt, if_neg hamp, if_pos hstart]
    cases h
    rfl
  | case7 buf s d rest' hd hstop hlt hamp hstart ih =>
    obtain ⟨rfl, hdata⟩ := mxmlStringGetc_some hd
    rw [mxmlAddChar_toNat] at hstart h ih
    rw [List.cons_append, gatherTag_cons hdata, if_neg hstop, if_neg hlt, if_neg hamp, if_neg hstart]
    exact ih h

theorem gatherQuoted_append {quote : UInt8} {buf : List UInt8} {c : UInt8} {b rest : List UInt8}
    (h : gatherQuoted quote buf s = some (some c, b, rest)) : c = quote := by
  fun_induction gatherQuoted quote buf s with
  | case1 => cases h
  | case2 => cases h
  | case3 =>
    cases h
    rfl
  | case4 _ _ _ _ _ _ _ _ ih => exact ih h
  | case5 =>
    cases h
    rfl
  | case6 _ _ _ _ _ _ _ ih => exact ih h

theorem skipSpace_append {c : Option UInt8} {d : UInt8} {rest : List UInt8}
    (h : skipSpace c s = (some d, rest)) : skipSpace c (s ++ w) = (some d, rest ++ w) := by
  fun_induction skipSpace c s with
  | case1 => cases h
  | case2 => cases h
  | case3 s c hspace e rest' he ih =>
    obtain ⟨rfl, hdata⟩ := mxmlStringGetc_some he
    rw [List.cons_append, skipSpace_cons hdata, if_pos hspace]
    exact ih h
  | case4 s c hspace =>
    cases h
    rw [skipSpace.eq_def]
    exact if_neg hspace

/-- The name of an attribute that a value follows. -/
theorem attrName_append {c d : UInt8} {name rest : List UInt8} (h : attrName c s = some (some d, name, rest))
    (hd : isQuote d = false) : attrName c (s ++ w) = some (some d, name, rest ++ w) := by
  rw [attrName] at h ⊢
  split
  · next hc =>
    rw [if_pos hc] at h
    rw [gatherQuoted_append h, hc] at hd
    cases hd
  · next hc =>
    rw [if_neg hc] at h
    exact gather_append w h

/-- The first character of a value is there. -/
theorem attrValue_some {r : Option UInt8 × List UInt8 × List UInt8} (h : attrValue s = some r) :
    ∃ c rest d rest', mxmlStringGetc s = (some c, rest) ∧ skipSpace (some c) rest = (some d, rest') := by
  rw [attrValue] at h
  split at h
  · cases h
  · next d rest' hskip =>
    cases hc : mxmlStringGetc s with
    | mk c rest =>
      cases c with
      | none =>
        rw [hc, skipSpace] at hskip
        cases hskip
      | some c =>
        rw [hc] at hskip
        exact ⟨c, rest, d, rest', rfl, hskip⟩

theorem attrValue_append {c : UInt8} {value rest : List UInt8} (h : attrValue s = some (some c, value, rest)) :
    attrValue (s ++ w) = some (some c, value, rest ++ w) := by
  obtain ⟨d, rest', e, rest'', hd, hskip⟩ := attrValue_some h
  obtain ⟨rfl, hdata⟩ := mxmlStringGetc_some hd
  rw [attrValue, mxmlStringGetc_cons hdata, hskip] at h
  rw [List.cons_append, attrValue, mxmlStringGetc_cons hdata, skipSpace_append w hskip]
  dsimp only at h ⊢
  split
  · next hq =>
    rw [if_pos hq] at h
    exact gather_append w h
  · next hq =>
    rw [if_neg hq] at h
    exact gather_append w h

/-- An attribute: its name, the `=` and its value. -/
theorem parseAttr_some {node : MxmlNode} {c : UInt8} {r : MxmlNode × Option UInt8 × List UInt8}
    (h : parseAttr node c s = some r) : ∃ e name rest rest' v,
      attrName c s = some (some e, name, rest) ∧ (mxmlElementGetAttr node name).isSome = false ∧
      skipSpace (some e) rest = (some (ch '='), rest') ∧ attrValue rest' = some v ∧
      r = (mxmlElementSetAttr node name v.2.1, v.1, v.2.2) := by
  obtain ⟨⟨e, name, rest⟩, hname, h⟩ := Option.bind_eq_some_iff.1 h
  dsimp only at h
  split at h
  · cases h
  · next hnew =>
    split at h
    · next d rest' hskip =>
      split at h
      · next heq =>
        subst heq
        obtain ⟨v, hv, rfl⟩ := Option.map_eq_some_iff.1 h
        cases e with
        | none =>
          rw [skipSpace] at hskip
          cases hskip
        | some e => exact ⟨e, name, rest, rest', v, hname, by simpa using hnew, hskip, hv, rfl⟩
      · cases h
    · cases h

/-- A name in quotes is not followed by `=`. -/
theorem isQuote_of_skipSpace {e : UInt8} {rest rest' : List UInt8}
    (h : skipSpace (some e) rest = (some (ch '='), rest')) : isQuote e = false := by
  rw [skipSpace.eq_def] at h
  dsimp only at h
  split at h
  · next hspace =>
    simp only [mxmlIsspace, Bool.or_eq_true, decide_eq_true_eq] at hspace
    rcases hspace with ((rfl | rfl) | rfl) | rfl <;> decide
  · obtain ⟨h, -⟩ := Prod.mk.inj h
    rw [Option.some.inj h]
    decide

theorem parseAttr_append {node node' : MxmlNode} {c d : UInt8} {rest : List UInt8}
    (h : parseAttr node c s = some (node', some d, rest)) :
    parseAttr node c (s ++ w) = some (node', some d, rest ++ w) := by
  obtain ⟨e, name, rest', rest'', v, hname, hnew, hskip, hvalue, hr⟩ := parseAttr_some h
  obtain ⟨f, value, tail⟩ := v
  cases hr
  rw [parseAttr, attrName_append w hname (isQuote_of_skipSpace hskip)]
  dsimp only [Option.bind_some]
  rw [hnew, if_neg Bool.false_ne_true, skipSpace_append w hskip]
  dsimp only
  rw [if_pos rfl, attrValue_append w hvalue]
  rfl

theorem gather_none (hs : PlainString s) {stop : UInt8 → Bool} {buf b rest : List UInt8}
    (h : gather stop buf s = some (none, b, rest)) : rest = [] := by
  fun_induction gather stop buf s with
  | case1 buf s rest' hc =>
    cases h
    exact (mxmlStringGetc_none hs hc).2
  | case2 => cases h
  | case3 => cases h
  | case4 buf s rest' e rest'' he hc _ ih =>
    exact ih (fun d hd ↦ hs d (((mxmlGetEntity_suffix he).trans (mxmlStringGetc_suffix hc)).subset hd)) h
  | case5 buf s c rest' hc _ _ ih => exact ih (fun d hd ↦ hs d ((mxmlStringGetc_suffix hc).subset hd)) h

/-- Without a character behind the value, nothing is left. -/
theorem parseAttr_none (hs : PlainString s) {node node' : MxmlNode} {c : UInt8} {rest : List UInt8}
    (h : parseAttr node c s = some (node', none, rest)) : rest = [] := by
  obtain ⟨e, name, rest', rest'', v, hname, -, hskip, hvalue, hr⟩ := parseAttr_some h
  obtain ⟨f, value, tail⟩ := v
  cases hr
  have hsuffix : rest'' <:+ s := (skipSpace_suffix hskip).trans (attrName_suffix hname)
  obtain ⟨d, r, g, r', hd, hskip'⟩ := attrValue_some hvalue
  have hsuffix' : r' <:+ s := (skipSpace_suffix hskip').trans ((mxmlStringGetc_suffix hd).trans hsuffix)
  have hplain : PlainString r' := fun x hx ↦ hs x (hsuffix'.subset hx)
  rw [attrValue, hd, hskip'] at hvalue
  dsimp only at hvalue
  split at hvalue
  · exact gather_none hplain hvalue
  · exact gather_none hplain hvalue

theorem tagEnd_append {rest : List UInt8} (h : tagEnd s = some rest) : tagEnd (s ++ w) = some (rest ++ w) := by
  rw [tagEnd] at h
  split at h
  · next c rest' hc =>
    obtain ⟨rfl, hdata⟩ := mxmlStringGetc_some hc
    split at h
    · next hgt =>
      cases h
      rw [List.cons_append, tagEnd, mxmlStringGetc_cons hdata]
      exact if_pos hgt
    · cases h
  · cases h

/-- **The attributes of an element that end within a string.** -/
theorem mxmlParseElement_append (hs : PlainString s) {node node' : MxmlNode} {c : UInt8} {rest : List UInt8}
    (h : mxmlParseElement node s = some (c, node', rest)) :
    mxmlParseElement node (s ++ w) = some (c, node', rest ++ w) := by
  have hend {c : UInt8} {node : MxmlNode} {s : List UInt8} {r : UInt8 × MxmlNode × List UInt8}
      (h : ((tagEnd s).map fun rest ↦ (c, node, rest)) = some r) :
      ((tagEnd (s ++ w)).map fun rest ↦ (c, node, rest)) = some (r.1, r.2.1, r.2.2 ++ w) := by
    obtain ⟨rest, hrest, rfl⟩ := Option.map_eq_some_iff.1 h
    rw [tagEnd_append w hrest]
    rfl
  fun_induction mxmlParseElement node s with
  | case1 => cases h
  | case2 node s c rest hc hspace ih =>
    obtain ⟨rfl, hdata⟩ := mxmlStringGetc_some hc
    rw [List.cons_append, mxmlParseElement_cons hdata, if_pos hspace]
    exact ih hs.tail h
  | case3 node s c rest hc hspace hslash =>
    obtain ⟨rfl, hdata⟩ := mxmlStringGetc_some hc
    rw [List.cons_append, mxmlParseElement_cons hdata, if_neg hspace, if_pos hslash]
    exact hend h
  | case4 => cases h
  | case5 node s rest hc hspace hslash hlt =>
    obtain ⟨rfl, hdata⟩ := mxmlStringGetc_some hc
    cases h
    rw [List.cons_append, mxmlParseElement_cons hdata, if_neg hspace, if_neg hslash, if_neg hlt, if_pos rfl]
  | case6 => cases h
  | case7 node s c rest hc hspace hslash hlt hgt node' c' rest' hattr hslash' =>
    obtain ⟨rfl, hdata⟩ := mxmlStringGetc_some hc
    rw [List.cons_append, mxmlParseElement_cons hdata, if_neg hspace, if_neg hslash, if_neg hlt, if_neg hgt,
      parseAttr_append w hattr]
    dsimp only
    rw [if_pos hslash']
    exact hend h
  | case8 node s c rest hc hspace hslash hlt hgt node' rest' hattr hslash' =>
    obtain ⟨rfl, hdata⟩ := mxmlStringGetc_some hc
    cases h
    rw [List.cons_append, mxmlParseElement_cons hdata, if_neg hspace, if_neg hslash, if_neg hlt, if_neg hgt,
      parseAttr_append w hattr]
    dsimp only
    rw [if_neg hslash', if_pos rfl]
  | case9 node s c rest hc hspace hslash hlt hgt node' c' rest' hattr hslash' hgt' ih =>
    obtain ⟨rfl, hdata⟩ := mxmlStringGetc_some hc
    rw [List.cons_append, mxmlParseElement_cons hdata, if_neg hspace, if_neg hslash, if_neg hlt, if_neg hgt,
      parseAttr_append w hattr]
    dsimp only
    rw [if_neg hslash', if_neg hgt']
    exact ih (fun d hd ↦ hs.tail d ((parseAttr_suffix hattr).subset hd)) h
  | case10 node s c rest hc hspace hslash hlt hgt node' rest' hattr ih =>
    -- nothing is left behind the value
    obtain ⟨rfl, hdata⟩ := mxmlStringGetc_some hc
    rw [parseAttr_none hs.tail hattr, mxmlParseElement.eq_def] at h
    cases h

end Append

/-! ### Cut inside of nodes -/

theorem add_parents_length {st : MxmlLoad} (node : MxmlContent) :
    (st.add node).parents.length = st.parents.length := by
  rw [MxmlLoad.add]
  split <;> simp_all

theorem loadText_parents_length (st : MxmlLoad) (c : UInt8) :
    (loadText st c).parents.length = st.parents.length := by
  rw [loadText]
  split_ifs <;> simp [add_parents_length]

/-- With two nodes open, nothing is returned. -/
theorem result_of_deep {st : MxmlLoad} (h : 2 ≤ st.parents.length) : st.result = none := by
  rw [MxmlLoad.result]
  split
  · next heq =>
    rw [heq] at h
    exact absurd h (by decide)
  · next heq =>
    rw [heq] at h
    exact absurd h (by simp)
  · rfl

/-- A string without a tag. -/
theorem mxmlLoadData_of_notMem_lt {st : MxmlLoad} {s : List UInt8} (hdeep : 2 ≤ st.parents.length)
    (hs : ch '<' ∉ s) : mxmlLoadData st s = none := by
  fun_induction mxmlLoadData st s with
  | case1 st s rest hc => exact result_of_deep hdeep
  | case2 => rfl
  | case3 st s c rest hc st' hstep =>
    obtain ⟨rfl, -⟩ := mxmlStringGetc_some hc
    have hne : c ≠ ch '<' := fun h ↦ hs (by rw [h]; exact List.mem_cons_self)
    rw [loadChar, if_neg hne] at hstep
    split_ifs at hstep
    split at hstep <;> cases hstep
  | case4 st s c rest hc st' rest' hstep ih =>
    obtain ⟨rfl, -⟩ := mxmlStringGetc_some hc
    have hsuffix := loadChar_suffix hstep
    have hlength : st'.parents.length = st.parents.length := by
      have hne : c ≠ ch '<' := fun h ↦ hs (by rw [h]; exact List.mem_cons_self)
      rw [loadChar, if_neg hne] at hstep
      split_ifs at hstep
      · split at hstep
        · cases hstep
        · cases hstep
          exact loadText_parents_length st _
      · cases hstep
        exact loadText_parents_length st _
      · cases hstep
        exact loadText_parents_length st _
    exact ih (hlength ▸ hdeep) fun h ↦ hs (List.mem_cons_of_mem c (hsuffix.subset h))

theorem lt_notMem_writeString (s : List UInt8) : ch '<' ∉ mxmlWriteString s := by
  intro h
  obtain ⟨c, -, h⟩ := List.mem_flatMap.1 h
  rcases mxmlWriteChar_cases c with ⟨name, hname, hwrite⟩ | ⟨hwrite, -, hlt, -⟩
  · rw [hwrite, List.mem_cons, List.mem_append, List.mem_singleton] at h
    rcases h with h | h | h
    · exact absurd h (by decide)
    · exact absurd ((entityChar_getName hname).1 _ h) (by decide)
    · exact absurd h (by decide)
  · rw [hwrite, List.mem_singleton] at h
    exact hlt h.symm

theorem lt_notMem_writeText (whitespace : Bool) (string : List UInt8) (col : ℕ) :
    ch '<' ∉ (mxmlWriteNode (.text whitespace string) col).1 := by
  rw [mxmlWriteNode, List.mem_append]
  rintro (h | h)
  · split_ifs at h
    · exact absurd (List.mem_singleton.1 h) (by decide)
    · exact absurd (List.mem_singleton.1 h) (by decide)
    · cases h
  · exact lt_notMem_writeString string h

/-- What is in front of the end of two strings, one behind the other. -/
theorem prefix_append_cases {u s t : List UInt8} (h : u <+: s ++ t) :
    u <+: s ∨ ∃ c v, u = s ++ c :: v ∧ c :: v <+: t := by
  rcases List.prefix_or_prefix_of_prefix h (List.prefix_append s t) with hu | ⟨v, rfl⟩
  · exact .inl hu
  · cases v with
    | nil => exact .inl (by rw [List.append_nil])
    | cons c v => exact .inr ⟨c, v, rfl, (List.prefix_append_right_inj s).1 h⟩

/-- A name that is cut off. -/
theorem loadTag_name {name u : List UInt8} (hname : PlainName name) (hu : u <+: name) (st : MxmlLoad) :
    loadTag st u = .done (st.add (.element u [] [])) := by
  cases u with
  | nil =>
    rw [loadTag, gatherTag.eq_def]
    rfl
  | cons c u =>
    have hplain : PlainName (c :: u) := by
      obtain ⟨t, rfl⟩ := hu
      exact ⟨fun d hd ↦ hname.1 d (List.mem_append_left t hd), hname.2⟩
    obtain ⟨hdata, hspace, hlt, hgt, hslash, hamp⟩ := isNameChar_iff.1 (hplain.1 c List.mem_cons_self)
    obtain ⟨⟨hq, hbang⟩, -⟩ : (c ≠ ch '?' ∧ c ≠ ch '!') ∧ isQuote c = false := by
      have hhead := hplain.2
      simp_all [isPlainHead]
    have hg : gatherTag [] (c :: u) = some (none, c :: u, []) := by
      have hloop := gatherTag_name hq hbang (fun d hd ↦ hplain.1 d (List.mem_cons_of_mem c hd)) [] []
      rw [List.append_nil] at hloop
      rw [gatherTag_cons hdata, if_neg (by simp [hspace, hgt]), if_neg hlt, if_neg hamp, List.nil_append,
        isTagStart_eq_false hq hbang, if_neg Bool.false_ne_true, hloop, gatherTag.eq_def]
      rfl
    rw [loadTag_open hplain hg]
    rfl

/-- **A tag of an element that is cut off** is an error or an element without anything in it. -/
theorem loadTag_cut {name : List UInt8} (hname : PlainName name) {d : UInt8} {tail : List UInt8}
    (hd : IsSep d ∨ d = ch '>' ∧ tail = []) {st st' : MxmlLoad}
    (hfull : loadTag st (name ++ d :: tail) = .more st' []) (htail : PlainString tail) {u : List UInt8}
    (hu : u <+: name ++ d :: tail) (hne : u ≠ name ++ d :: tail) :
    loadTag st u = .error ∨ loadTag st u = .done (st.add (.element u [] [])) := by
  rcases prefix_append_cases hu with hu | ⟨e, v, rfl, hv⟩
  · exact .inr (loadTag_name hname hu st)
  obtain ⟨rfl, hv'⟩ := List.cons_prefix_cons.1 hv
  rcases hd with hsep | ⟨rfl, rfl⟩
  · left
    obtain ⟨w, rfl⟩ := hv'
    have hspace : mxmlIsspace e || decide (e = ch '>') := by rw [hsep.isSpace, Bool.true_or]
    rw [loadTag_open hname (gatherTag_plainName hname hsep.isData hspace _), loadOpen,
      if_pos hsep.isSpace] at hfull
    rw [loadTag_open hname (gatherTag_plainName hname hsep.isData hspace v), loadOpen, if_pos hsep.isSpace]
    cases hparse : mxmlParseElement (.new name) v with
    | none => rfl
    | some r =>
      -- the tag would end where it is cut off
      obtain ⟨c, node, rest⟩ := r
      rw [mxmlParseElement_append w (fun x hx ↦ htail x (List.mem_append_left w hx)) hparse] at hfull
      have hrest : rest ++ w = [] := by
        dsimp only at hfull
        rw [opened] at hfull
        split at hfull <;> exact (LoadStep.more.inj hfull).2
      rw [(List.append_eq_nil_iff.1 hrest).2, List.append_nil] at hne
      exact absurd rfl hne
  · rw [List.prefix_nil.1 hv'] at hne
    exact absurd rfl hne

theorem gatherTag_none {s : List UInt8} (hs : PlainString s) {buf b rest : List UInt8}
    (h : gatherTag buf s = some (none, b, rest)) : rest = [] := by
  fun_induction gatherTag buf s with
  | case1 buf s rest' hc =>
    cases h
    exact (mxmlStringGetc_none hs hc).2
  | case2 => cases h
  | case3 => cases h
  | case4 => cases h
  | case5 buf s rest' e rest'' he hc _ _ ih =>
    exact ih (fun d hd ↦ hs d (((mxmlGetEntity_suffix he).trans (mxmlStringGetc_suffix hc)).subset hd)) h
  | case6 => cases h
  | case7 buf s c rest' hc _ _ _ _ ih => exact ih (fun d hd ↦ hs d ((mxmlStringGetc_suffix hc).subset hd)) h

/-- What is in the buffer stays there. -/
theorem gatherTag_prefix {buf s : List UInt8} {r : Option UInt8 × List UInt8 × List UInt8}
    (h : gatherTag buf s = some r) : buf <+: r.2.1 := by
  fun_induction gatherTag buf s with
  | case1 =>
    cases h
    exact List.prefix_rfl
  | case2 =>
    cases h
    exact List.prefix_rfl
  | case3 => cases h
  | case4 => cases h
  | case5 _ _ _ _ _ _ _ _ _ ih => exact (List.prefix_append _ _).trans (ih h)
  | case6 =>
    cases h
    exact List.prefix_append _ _
  | case7 _ _ _ _ _ _ _ _ _ ih => exact (List.prefix_append _ _).trans (ih h)

/-- **A close tag that is cut off** is an error, an element without anything in it, or closes the parent. -/
theorem loadTag_close_cut {name : List UInt8} (hname : PlainName name) {st : MxmlLoad} {parent : MxmlOpen}
    {parents : List MxmlOpen} (hst : st.parents = parent :: parents) {u : List UInt8}
    (hu : u <+: ch '/' :: mxmlWriteString name) :
    loadTag st u = .error ∨ loadTag st u = .done (st.add (.element [] [] [])) ∨
      loadTag st u = .more ({ st with parents := parents }.add parent.content) [] := by
  cases u with
  | nil =>
    refine .inr (.inl ?_)
    rw [loadTag, gatherTag.eq_def]
    rfl
  | cons c u =>
    obtain ⟨rfl, w, hw⟩ := List.cons_prefix_cons.1 hu
    have hplain : PlainString u := fun d hd ↦ plainString_writeString hname.plainString d
      (hw ▸ List.mem_append_left w hd)
    have hslash (s : List UInt8) : gatherTag [] (ch '/' :: s) = gatherTag [ch '/'] s := by
      rw [gatherTag_cons isData_slash, if_neg (by decide), if_neg (by decide), if_neg (by decide),
        if_neg (by decide)]
      rfl
    have hfull : gatherTag [ch '/'] (u ++ (w ++ [ch '>'])) = some (some (ch '>'), ch '/' :: name, []) := by
      rw [← List.append_assoc, hw, gatherTag_writeString (by decide) (by decide) hname.1,
        gatherTag_cons isData_gt, if_pos (by simp)]
      rfl
    cases hg : gatherTag [ch '/'] u with
    | none =>
      rw [loadTag, hslash, hg]
      exact .inl rfl
    | some r =>
      obtain ⟨c, buf, rest⟩ := r
      cases c with
      | some c =>
        -- the name would end where it is cut off
        rw [gatherTag_append (w ++ [ch '>']) hg] at hfull
        simp at hfull
      | none =>
        obtain ⟨t, ht⟩ := gatherTag_prefix hg
        dsimp only at ht
        obtain rfl := gatherTag_none hplain hg
        rw [← ht] at hg
        rw [loadTag_slash ((hslash u).trans hg), loadClose, hst]
        dsimp only
        split
        · rw [skipTag]
          exact .inr (.inr rfl)
        · exact .inl rfl

theorem mxmlLoadData_nil (st : MxmlLoad) : mxmlLoadData st [] = st.result := by
  rw [mxmlLoadData.eq_def]
  rfl

section Tag

variable {st : MxmlLoad} {s : List UInt8}

theorem mxmlLoadData_error (h : loadTag (loadText st (ch '<')) s = .error) :
    mxmlLoadData st (ch '<' :: s) = none := by
  rw [mxmlLoadData_cons isData_lt, loadChar, if_pos rfl, h]

theorem mxmlLoadData_done {st' : MxmlLoad} (h : loadTag (loadText st (ch '<')) s = .done st') :
    mxmlLoadData st (ch '<' :: s) = st'.result := by
  rw [mxmlLoadData_cons isData_lt, loadChar, if_pos rfl, h]

end Tag

/-- What comes of an element that is cut off, under the nodes that are open: nothing, an element without
anything in it, or the whole element. -/
def CutElement (elem : MxmlContent) (st base : MxmlLoad) (u : List UInt8) : Prop :=
  u = [] ∨ mxmlLoadData st u = none ∨
    (∃ v, mxmlLoadData st u = (base.add (.element v [] [])).result) ∨
    mxmlLoadData st u = (base.add elem).result

/-- What ends the tag of an element. -/
theorem writeAttrs_ends {attrs : List (List UInt8 × List UInt8)} (h : PlainAttrs attrs) (col : ℕ) :
    (∃ d tail, (mxmlWriteAttrs attrs col).1 ++ text " />" = d :: tail ∧ IsSep d ∧ PlainString tail) ∧
      ∃ d tail, (mxmlWriteAttrs attrs col).1 ++ text ">" = d :: tail ∧ (IsSep d ∨ d = ch '>' ∧ tail = []) ∧
        PlainString tail := by
  obtain ⟨hempty, hgt, -⟩ := plainString_ends
  have hattrs := plainString_writeAttrs h col
  cases attrs with
  | nil => exact ⟨⟨_, _, rfl, .inl rfl, hempty.tail⟩, _, _, rfl, .inr ⟨rfl, rfl⟩, hgt.tail⟩
  | cons a attrs =>
    obtain ⟨sep, col', hsep, hwrite⟩ := mxmlWriteAttrs_cons a.1 a.2 attrs col
    rw [hwrite] at hattrs ⊢
    exact ⟨⟨sep, _, rfl, hsep, plainString_append.2 ⟨hattrs.tail, hempty⟩⟩, sep, _, rfl, .inl hsep,
      plainString_append.2 ⟨hattrs.tail, hgt⟩⟩

/-- Under a parent, two nodes are open. -/
theorem deep_of_loadText {st : MxmlLoad} {parent parent' : MxmlOpen} {parents : List MxmlOpen}
    {first : Option MxmlContent} (h : loadText st (ch '<') = inside parent (parent' :: parents) first) :
    2 ≤ st.parents.length := by
  rw [← loadText_parents_length st (ch '<'), h]
  exact Nat.le_add_left 2 parents.length

section CutElement

variable {name : List UInt8} (hname : PlainName name) {st base : MxmlLoad}
  (hst : loadText st (ch '<') = base)

include hname hst

/-- The cut is in the tag of an element. -/
theorem mxmlLoadData_cut_open {tail : List UInt8} {d : UInt8} (hd : IsSep d ∨ d = ch '>' ∧ tail = [])
    (htail : PlainString tail) {st' : MxmlLoad} (hfull : loadTag base (name ++ d :: tail) = .more st' [])
    {u : List UInt8} (hu : u <+: name ++ d :: tail) :
    mxmlLoadData st (ch '<' :: u) = none ∨
      (∃ v, mxmlLoadData st (ch '<' :: u) = (base.add (.element v [] [])).result) ∨
      mxmlLoadData st (ch '<' :: u) = st'.result := by
  by_cases hne : u = name ++ d :: tail
  · rw [hne, mxmlLoadData_lt st (by rw [hst]; exact hfull), mxmlLoadData_nil]
    exact .inr (.inr rfl)
  · rcases loadTag_cut hname hd hfull htail hu hne with herror | hdone
    · exact .inl (mxmlLoadData_error (by rw [hst]; exact herror))
    · exact .inr (.inl ⟨u, mxmlLoadData_done (by rw [hst]; exact hdone)⟩)

/-- The cut is in the close tag. -/
theorem mxmlLoadData_cut_close {parent parent' : MxmlOpen} {parents : List MxmlOpen}
    {first : Option MxmlContent} (hbase : base = inside parent (parent' :: parents) first)
    (hparent : parent.name = name) {u : List UInt8}
    (hu : u <+: text "</" ++ mxmlWriteString name ++ text ">") :
    mxmlLoadData st u = none ∨
      mxmlLoadData st u = (MxmlLoad.add ⟨parent' :: parents, first, false, []⟩ parent.content).result := by
  have hdeep := deep_of_loadText (hst.trans hbase)
  have hclose : text "</" ++ mxmlWriteString name ++ text ">" =
      ch '<' :: (ch '/' :: mxmlWriteString name ++ [ch '>']) := by
    have happend := endTag_append name []
    rwa [List.append_nil] at happend
  rw [hclose] at hu
  subst hbase
  cases u with
  | nil => exact .inl ((mxmlLoadData_nil st).trans (result_of_deep hdeep))
  | cons c u =>
    obtain ⟨rfl, hu'⟩ := List.cons_prefix_cons.1 hu
    have hparents : (loadText st (ch '<')).parents = parent :: parent' :: parents := by
      rw [hst]
      rfl
    have hend (h : loadTag (loadText st (ch '<')) u = .more
        ({ loadText st (ch '<') with parents := parent' :: parents }.add parent.content) []) :
        mxmlLoadData st (ch '<' :: u) =
          (MxmlLoad.add ⟨parent' :: parents, first, false, []⟩ parent.content).result := by
      rw [mxmlLoadData_lt st h, mxmlLoadData_nil, hst]
      rfl
    rcases prefix_append_cases hu' with hu' | ⟨c, v, rfl, hv⟩
    · rcases loadTag_close_cut hname hparents hu' with herror | hdone | hmore
      · exact .inl (mxmlLoadData_error herror)
      · rw [mxmlLoadData_done hdone, result_of_deep]
        · exact .inl rfl
        · rw [add_parents_length, loadText_parents_length]
          exact hdeep
      · exact .inr (hend hmore)
    · obtain ⟨rfl, hv'⟩ := List.cons_prefix_cons.1 hv
      obtain rfl := List.prefix_nil.1 hv'
      exact .inr (hend (loadTag_close hname.1 hparents hparent []))

end CutElement

mutual

/-- **An element that is cut off.** -/
theorem cutElement : ∀ {node : MxmlContent}, PlainNode node → (∀ w s, node ≠ .text w s) →
    ∀ (st : MxmlLoad) (parents : List MxmlOpen) (first : Option MxmlContent) (col : ℕ) {u : List UInt8},
      parents ≠ [] → loadText st (ch '<') = ⟨parents, first, false, []⟩ →
      u <+: (mxmlWriteNode node col).1 → CutElement node st ⟨parents, first, false, []⟩ u
  | .text w s, _, hne => absurd rfl (hne w s)
  | .element name attrs child, hplain, _ => by
    intro st parents first col u hparents hst hu
    obtain ⟨hname, hattrs, hchild⟩ := hplain
    obtain ⟨q, ps, rfl⟩ := List.exists_cons_of_ne_nil hparents
    obtain ⟨⟨d, tail, htext, hsep, htail⟩, d', tail', htext', hsep', htail'⟩ :=
      writeAttrs_ends hattrs (col + (name.length + 1))
    cases u with
    | nil => exact .inl rfl
    | cons c u =>
      refine .inr ?_
      by_cases hempty : child = []
      · rw [hempty, mxmlWriteNode_empty hname, htext] at hu
        obtain ⟨rfl, hu'⟩ := List.cons_prefix_cons.1 hu
        have hfull := loadTag_empty hname ⟨q :: ps, first, false, []⟩ [] hattrs (col + (name.length + 1))
        rw [List.append_nil, htext] at hfull
        rw [hempty]
        exact mxmlLoadData_cut_open hname hst (.inl hsep) htail hfull hu'
      · obtain ⟨col', hcol, hwrite⟩ := mxmlWriteNode_nonempty hname attrs child col hempty
        rw [hwrite] at hu
        obtain ⟨rfl, hu'⟩ := List.cons_prefix_cons.1 hu
        rw [← List.append_assoc _ (text ">"), htext', ← List.append_assoc name] at hu'
        have hopen (s : List UInt8) : loadTag ⟨q :: ps, first, false, []⟩ (name ++ d' :: tail' ++ s) =
            .more (inside ⟨name, attrs, []⟩ (q :: ps) first) s := by
          have hfull := loadTag_nonempty hname ⟨q :: ps, first, false, []⟩ s hattrs (col + (name.length + 1))
          rwa [← List.append_assoc _ (text ">"), htext', ← List.append_assoc] at hfull
        rcases prefix_append_cases hu' with hu' | ⟨e, v, rfl, hv⟩
        · have hfull := hopen []
          rw [List.append_nil] at hfull
          rcases mxmlLoadData_cut_open hname hst hsep' htail' hfull hu' with h | h | h
          · exact .inl h
          · exact .inr (.inl h)
          · exact .inl (h.trans (result_of_deep (Nat.le_add_left 2 ps.length)))
        rw [mxmlLoadData_lt st (by rw [hst]; exact hopen (e :: v))]
        rcases prefix_append_cases hv with hv | ⟨e', v', hv, hv'⟩
        · exact .inl (cutNodes hchild _ _ q ps first col' (loadText_inside_nil _ _ _)
            (joins_inside _ _ _ hcol child) hv)
        · obtain ⟨st', hread, hst'⟩ := readsNodes hchild (inside ⟨name, attrs, []⟩ (q :: ps) first) _ _ first
            col' (e' :: v') (loadText_inside_nil _ _ _) (joins_inside _ _ _ hcol child)
          rw [hv, hread]
          rcases mxmlLoadData_cut_close hname hst' rfl rfl hv' with h | h
          · exact .inl h
          · exact .inr (.inr h)

/-- **Nodes that are cut off**, with two nodes open. -/
theorem cutNodes : ∀ {nodes : List MxmlContent}, PlainNodes nodes →
    ∀ (st : MxmlLoad) (parent parent' : MxmlOpen) (parents : List MxmlOpen) (first : Option MxmlContent)
      (col : ℕ) {u : List UInt8}, loadText st (ch '<') = inside parent (parent' :: parents) first →
      Joins st col nodes → u <+: (mxmlWriteNodes nodes col).1 → mxmlLoadData st u = none
  | [], _ => by
    intro st parent parent' parents first col u hst _ hu
    rw [mxmlWriteNodes] at hu
    rw [List.prefix_nil.1 hu, mxmlLoadData_nil, result_of_deep (deep_of_loadText hst)]
  | node :: next, hplain => by
    intro st parent parent' parents first col u hst hjoins hu
    obtain ⟨hnode, hapart, hnext⟩ := hplain
    rw [mxmlWriteNodes] at hu
    cases node with
    | element name attrs child =>
      have hne : ∀ w s, MxmlContent.element name attrs child ≠ .text w s := fun _ _ h ↦ by cases h
      rcases prefix_append_cases hu with hu | ⟨c, v, rfl, hv⟩
      · have hresult (node : MxmlContent) :
            (MxmlLoad.add ⟨parent :: parent' :: parents, first, false, []⟩ node).result = none :=
          result_of_deep (by rw [add_parents_length]; exact Nat.le_add_left 2 parents.length)
        rcases cutElement hnode hne st _ first col (List.cons_ne_nil _ _) hst hu with rfl | h | ⟨v, h⟩ | h
        · rw [mxmlLoadData_nil, result_of_deep (deep_of_loadText hst)]
        · exact h
        · exact h.trans (hresult _)
        · exact h.trans (hresult _)
      · rw [readsNode hnode hne st (parent :: parent' :: parents) first col _ hst]
        exact cutNodes hnext _ (parent.push [.element name attrs child]) parent' parents first _
          (loadText_inside_nil _ _ _) (joins_inside _ _ _ (mxmlWriteNode_col_pos hnode.1 attrs child col) next) hv
    | text whitespace string =>
      rcases prefix_append_cases hu with hu | ⟨c, v, rfl, hv⟩
      · exact mxmlLoadData_of_notMem_lt (deep_of_loadText hst) fun h ↦
          lt_notMem_writeText whitespace string col (hu.subset h)
      · rw [readsText hnode hst hjoins _]
        exact cutNodes hnext _ _ parent' parents first _ (loadText_inside hapart.readable parent _ first)
          (joins_text hapart parent _ first col) hv

end

/-! ### Cut documents -/

/-- Nothing stands in the nodes under the top. -/
def Bare : MxmlContent → Prop
  | .element _ _ child => ∀ node ∈ child, ∃ name, node = .element name [] []
  | .text .. => True

/-- A processing instruction that is cut off. -/
theorem gatherRaw_of_notMem_gt {isEnd : List UInt8 → Bool} {buf s : List UInt8} (h : ch '>' ∉ s) :
    gatherRaw isEnd buf s = none := by
  fun_induction gatherRaw isEnd buf s with
  | case1 => rfl
  | case2 buf s c rest hc hgt =>
    obtain ⟨rfl, -⟩ := mxmlStringGetc_some hc
    rw [Bool.and_eq_true, decide_eq_true_eq] at hgt
    exact absurd (hgt.1 ▸ List.mem_cons_self) h
  | case3 buf s c rest hc _ ih =>
    obtain ⟨rfl, -⟩ := mxmlStringGetc_some hc
    exact ih fun hmem ↦ h (List.mem_cons_of_mem c hmem)

theorem loadTag_directive_cut {name u : List UInt8} (h : PlainDirective name) (hu : u <+: name)
    (st : MxmlLoad) : loadTag st u = .error ∨ loadTag st u = .done (st.add (.element [] [] [])) := by
  cases u with
  | nil =>
    right
    rw [loadTag, gatherTag.eq_def]
    rfl
  | cons c u =>
    left
    obtain ⟨body, rfl, hbody⟩ := h
    obtain ⟨rfl, hu'⟩ := List.cons_prefix_cons.1 hu
    have hgt : ch '>' ∉ u := fun hmem ↦ by
      rcases List.mem_append.1 (hu'.subset hmem) with h | h
      · exact (hbody _ h).2 rfl
      · exact absurd (List.mem_singleton.1 h) (by decide)
    have hg : gatherTag [] (ch '?' :: u) = some (some (ch '?'), [ch '?'], u) := by
      rw [gatherTag_cons isData_question, if_neg (by decide), if_neg (by decide), if_neg (by decide),
        if_pos (by decide)]
      rfl
    rw [loadTag, hg]
    dsimp only
    rw [if_neg (by decide), if_neg (by decide), if_pos (by decide), gatherRaw_of_notMem_gt hgt]

/-- **A document that is cut off** is not read, or read as a whole, or without anything in it. -/
theorem mxmlLoadString_cut {name : List UInt8} (hname : PlainDirective name) {elem : MxmlContent}
    (helem : PlainNode elem) (hne : ∀ w s, elem ≠ .text w s) {u : List UInt8}
    (hu : u <+: mxmlSaveText (.element name [] [elem])) :
    mxmlLoadString u = none ∨ mxmlLoadString u = some (.element name [] [elem]) ∨
      ∃ doc, mxmlLoadString u = some doc ∧ Bare doc := by
  have hplain : PlainNodes [elem] := by
    refine ⟨helem, ?_, trivial⟩
    cases elem with
    | element => trivial
    | text w s => exact absurd rfl (hne w s)
  have hdoc : PlainDocument (.element name [] [elem]) := by
    refine .inl ⟨hname, rfl, hplain, fun h ↦ ?_⟩
    rw [List.getLast?_singleton] at h
    exact hne _ _ (Option.some.inj h)
  obtain ⟨col, hcol, hwrite⟩ := mxmlWriteNode_directive hname [elem] 0
  have hinit : loadText ⟨[], none, false, []⟩ (ch '<') = ⟨[], none, false, []⟩ := by rfl
  have hwhole := mxmlLoadString_mxmlSaveText hdoc
  have hnodes : (mxmlWriteNodes [elem] col).1 = (mxmlWriteNode elem col).1 := by
    rw [mxmlWriteNodes, mxmlWriteNodes, List.append_nil]
  have hpos : 0 < (mxmlWriteNodes [elem] col).2 :=
    mxmlWriteNodes_col_pos hplain (fun h ↦ hne _ _ (by simpa using h)) fun _ ↦ hcol
  rw [mxmlSaveText, hwrite] at hu hwhole
  rw [if_pos hpos, hnodes, List.cons_append, List.append_assoc, List.cons_append] at hu hwhole
  rw [mxmlLoadString]
  cases u with
  | nil => exact .inl (mxmlLoadData_nil _)
  | cons c u =>
    obtain ⟨rfl, hu'⟩ := List.cons_prefix_cons.1 hu
    rcases prefix_append_cases hu' with hu' | ⟨d, v, rfl, hv⟩
    · rcases loadTag_directive_cut hname hu' ⟨[], none, false, []⟩ with herror | hdone
      · exact .inl (mxmlLoadData_error (by rw [hinit]; exact herror))
      · refine .inr (.inr ⟨.element [] [] [], ?_, fun node hnode ↦ by cases hnode⟩)
        rw [mxmlLoadData_done (by rw [hinit]; exact hdone)]
        rfl
    obtain ⟨rfl, hv'⟩ := List.cons_prefix_cons.1 hv
    rw [mxmlLoadData_lt _ (by rw [hinit]; exact loadTag_directive hname none v)]
    rcases prefix_append_cases hv' with hv' | ⟨e, w, rfl, hw⟩
    · rcases cutElement helem hne _ [⟨name, [], []⟩] none col (List.cons_ne_nil _ _)
        (loadText_inside_nil ⟨name, [], []⟩ [] none) hv' with rfl | h | ⟨t, h⟩ | h
      · exact .inr (.inr ⟨.element name [] [], mxmlLoadData_nil _, fun node hnode ↦ by cases hnode⟩)
      · exact .inl h
      · exact .inr (.inr ⟨.element name [] [.element t [] []], h, fun node hnode ↦
          ⟨t, List.mem_singleton.1 hnode⟩⟩)
      · exact .inr (.inl h)
    · obtain ⟨rfl, hw'⟩ := List.cons_prefix_cons.1 hw
      obtain rfl := List.prefix_nil.1 hw'
      rw [mxmlLoadString, mxmlLoadData_lt _ (by rw [hinit]; exact loadTag_directive hname none _)] at hwhole
      exact .inr (.inl hwhole)

end Sunda
