import Mathlib.Data.List.Infix
import Mathlib.Data.Set.Basic

/-!
# Sequences made of whole pieces

A sequence is a **concatenation** of pieces from a set `S`, or such a concatenation with a proper
prefix of one more piece behind it. This is what a channel looks like to which whole messages are
written one after the other, between two messages and during one.

The elements and the pieces are arbitrary, and pieces need not be decodable from the sequence.
-/

namespace Pieces

variable {α : Type*}

/-- A concatenation of members of `S`. -/
def IsConcat (S : Set (List α)) (xs : List α) : Prop :=
  ∃ fs : List (List α), (∀ f ∈ fs, f ∈ S) ∧ xs = fs.flatten

/-- A concatenation of members of `S`, and at most one incomplete member behind it. -/
def IsConcatThenPart (S : Set (List α)) (xs : List α) : Prop :=
  ∃ ys p, IsConcat S ys ∧ xs = ys ++ p ∧ (p = [] ∨ ∃ f ∈ S, p <+: f ∧ p ≠ f)

variable {S S' : Set (List α)} {xs f : List α}

theorem IsConcat.nil : IsConcat S ([] : List α) :=
  ⟨[], by simp, rfl⟩

theorem IsConcat.append (h : IsConcat S xs) (hf : f ∈ S) : IsConcat S (xs ++ f) := by
  obtain ⟨fs, hfs, rfl⟩ := h
  refine ⟨fs ++ [f], fun g hg ↦ ?_, by simp⟩
  rcases List.mem_append.1 hg with hg | hg
  · exact hfs g hg
  · rwa [List.mem_singleton.1 hg]

theorem IsConcat.mono (h : IsConcat S xs) (hS : S ⊆ S') : IsConcat S' xs := by
  obtain ⟨fs, hfs, rfl⟩ := h
  exact ⟨fs, fun f hf ↦ hS (hfs f hf), rfl⟩

theorem IsConcat.thenPart (h : IsConcat S xs) : IsConcatThenPart S xs :=
  ⟨xs, [], h, (List.append_nil xs).symm, .inl rfl⟩

/-- A piece was started and not finished. -/
theorem IsConcat.append_take (h : IsConcat S xs) (hf : f ∈ S) {k : ℕ} (hk : k < f.length) :
    IsConcatThenPart S (xs ++ f.take k) := by
  refine ⟨xs, f.take k, h, rfl, .inr ⟨f, hf, List.take_prefix k f, fun heq ↦ ?_⟩⟩
  have hlen := congrArg List.length heq
  rw [List.length_take] at hlen
  omega

theorem IsConcatThenPart.mono (h : IsConcatThenPart S xs) (hS : S ⊆ S') :
    IsConcatThenPart S' xs := by
  obtain ⟨ys, p, hys, rfl, hp⟩ := h
  refine ⟨ys, p, hys.mono hS, rfl, hp.imp_right ?_⟩
  rintro ⟨f, hf, hpre⟩
  exact ⟨f, hS hf, hpre⟩

/-- A sequence shorter than every piece is a concatenation with an incomplete piece only if it is a
prefix of one. -/
theorem IsConcatThenPart.prefix_of_short (h : IsConcatThenPart S xs) (hne : xs ≠ [])
    (hshort : ∀ f ∈ S, xs.length < f.length) : ∃ f ∈ S, xs <+: f := by
  obtain ⟨ys, p, ⟨fs, hfs, rfl⟩, rfl, hp⟩ := h
  cases fs with
  | nil =>
    obtain rfl | ⟨f, hf, hpre, -⟩ := hp
    · exact absurd rfl hne
    · exact ⟨f, hf, hpre⟩
  | cons g fs =>
    have hlen := hshort g (hfs g List.mem_cons_self)
    simp only [List.flatten_cons, List.length_append] at hlen
    omega

end Pieces
