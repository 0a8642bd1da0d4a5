import Mathlib.Data.List.Nodup
import SandboxPool.Pool.Building

/-!
# What a guest may import

Functions are defined one after another, and the first whose pair of names is taken ends the walk
(`Namespace.Walked`). A namespace holds what was walked past (`Namespace.Holds`), sorted by its
pairs, so that nothing is left of the order of the walk.
-/

namespace SandboxPool

/-! ## The first repetition in a list -/

section Repetition

variable {α : Type} [DecidableEq α] {seen l : List α}

/-- The first value of a list that stands in `seen` or earlier in the list. -/
def firstRepeated (seen : List α) : List α → Option α
  | [] => none
  | a :: rest => if a ∈ seen then some a else firstRepeated (a :: seen) rest

/-- Nothing is repeated in a list without duplicates that avoids what was seen. -/
theorem firstRepeated_eq_none :
    firstRepeated seen l = none ↔ l.Nodup ∧ ∀ a ∈ l, a ∉ seen := by
  induction l generalizing seen with
  | nil => simp [firstRepeated]
  -- What has been seen grows by the head, so the induction leaves it open.
  | cons a rest ih =>
    rw [firstRepeated, List.nodup_cons]
    by_cases hknown : a ∈ seen
    · simp [hknown]
    · rw [if_neg hknown, ih]
      constructor
      · rintro ⟨hdistinct, hapart⟩
        refine ⟨⟨fun hagain => hapart a hagain List.mem_cons_self, hdistinct⟩, ?_⟩
        intro b hmember
        rcases List.mem_cons.mp hmember with rfl | hmember
        · exact hknown
        · exact fun hold => hapart b hmember (List.mem_cons_of_mem _ hold)
      · rintro ⟨⟨hfirst, hdistinct⟩, hapart⟩
        refine ⟨hdistinct, fun b hmember hold => ?_⟩
        rcases List.mem_cons.mp hold with rfl | hold
        · exact hfirst hmember
        · exact hapart b (List.mem_cons_of_mem _ hmember) hold

/-- What stands in front of the first repetition does not repeat anything. -/
theorem firstRepeated_append {before after : List α} {a : α}
    (hnodup : before.Nodup) (hnew : ∀ b ∈ before, b ∉ seen) (hold : a ∈ seen ∨ a ∈ before) :
    firstRepeated seen (before ++ a :: after) = some a := by
  induction before generalizing seen with
  | nil =>
    rw [List.nil_append, firstRepeated, if_pos (hold.resolve_right List.not_mem_nil)]
  | cons b rest ih =>
    obtain ⟨hb, hnodup⟩ := List.nodup_cons.mp hnodup
    rw [List.cons_append, firstRepeated, if_neg (hnew b List.mem_cons_self)]
    refine ih hnodup (fun d hd => ?_) ?_
    · rw [List.mem_cons, not_or]
      exact ⟨fun hsame => hb (hsame ▸ hd), hnew d (List.mem_cons_of_mem b hd)⟩
    · rcases hold with hseen | hbefore
      · exact .inl (List.mem_cons_of_mem b hseen)
      · rcases List.mem_cons.mp hbefore with rfl | hrest
        · exact .inl List.mem_cons_self
        · exact .inr hrest

end Repetition

/-! ## The order of pairs -/

theorem PairLt.irrefl (a : String × String) : ¬ PairLt a a := by
  rintro (h | ⟨-, h⟩)
  · exact String.lt_irrefl _ h
  · exact String.lt_irrefl _ h

theorem PairLt.trans {a b c : String × String} (hab : PairLt a b) (hbc : PairLt b c) :
    PairLt a c := by
  rcases hab with hab | ⟨hsame, hab⟩
  · rcases hbc with hbc | ⟨hsame, -⟩
    · exact .inl (String.lt_trans hab hbc)
    · exact .inl (hsame ▸ hab)
  · rcases hbc with hbc | ⟨hsame', hbc⟩
    · exact .inl (hsame ▸ hbc)
    · exact .inr ⟨hsame.trans hsame', String.lt_trans hab hbc⟩

/-- Of two different pairs one stands before the other. -/
theorem PairLt.of_not {a b : String × String} (hne : a ≠ b) (h : ¬ PairLt a b) : PairLt b a := by
  by_cases hfirst : b.1 < a.1
  · exact .inl hfirst
  have hsame : b.1 = a.1 :=
    String.le_antisymm (String.not_lt.mp fun hlt => h (.inl hlt)) (String.not_lt.mp hfirst)
  refine .inr ⟨hsame, ?_⟩
  by_contra hsecond
  have hless : ¬ a.2 < b.2 := fun hlt => h (.inr ⟨hsame.symm, hlt⟩)
  exact hne (Prod.ext hsame.symm
    (String.le_antisymm (String.not_lt.mp hsecond) (String.not_lt.mp hless)))

namespace Namespace

variable {F : Type} {ns : Namespace F} {i : Import F} {is l : List (Import F)}

/-- Entries in the order of their pairs, each pair once. -/
def Sorted (l : List (Import F)) : Prop := l.Pairwise fun a b => PairLt a.pair b.pair

/-- In sorted entries every pair of names stands once. -/
theorem Sorted.nodup (h : Sorted l) : (l.map Import.pair).Nodup := by
  rw [List.Nodup, List.pairwise_map]
  apply h.imp
  intro a b hlt hsame
  rw [hsame] at hlt
  exact PairLt.irrefl _ hlt

/-- The order leaves no choice. -/
theorem Sorted.eq_of_perm {l' : List (Import F)} (h : Sorted l) (h' : Sorted l') (hp : l.Perm l') :
    l = l' := by
  apply hp.eq_of_pairwise _ h h'
  intro a b _ _ hab hba
  exact absurd (hab.trans hba) (PairLt.irrefl _)

theorem insertEntry_perm (i : Import F) (l : List (Import F)) :
    (insertEntry i l).Perm (i :: l) := by
  induction l with
  | nil => exact .refl _
  | cons e rest ih =>
    rw [insertEntry]
    split
    · exact (ih.cons e).trans (.swap i e rest)
    · exact .refl _

/-- A new pair finds its place among the sorted ones. -/
theorem Sorted.insertEntry (h : Sorted l) (hnew : i.pair ∉ l.map Import.pair) :
    Sorted (insertEntry i l) := by
  induction l with
  | nil => exact List.pairwise_singleton _ i
  | cons e rest ih =>
    obtain ⟨hfirst, hrest⟩ := List.pairwise_cons.mp h
    rw [List.map_cons, List.mem_cons, not_or] at hnew
    rw [Namespace.insertEntry]
    -- The new entry either stands further on or comes first, and there it precedes all the rest.
    split
    · next hbefore =>
      refine List.pairwise_cons.mpr ⟨fun a ha => ?_, ih hrest hnew.2⟩
      rcases List.mem_cons.mp ((insertEntry_perm i rest).mem_iff.mp ha) with rfl | ha
      · exact hbefore
      · exact hfirst a ha
    · next hnot =>
      have hafter : PairLt i.pair e.pair := PairLt.of_not (Ne.symm hnew.1) hnot
      refine List.pairwise_cons.mpr ⟨fun a ha => ?_, h⟩
      rcases List.mem_cons.mp ha with rfl | ha
      · exact hafter
      · exact hafter.trans (hfirst a ha)

/-! ## What a namespace holds -/

/-- A namespace that holds these functions and nothing else: each is found under its pair, and they
are gone through once each, in the order of their pairs. -/
structure Holds (ns : Namespace F) (is : List (Import F)) : Prop where
  found : ∀ group name f, ns.get? group name = some f ↔ ⟨group, name, f⟩ ∈ is
  once : ns.entries.Perm is
  sorted : Sorted ns.entries
  size : ns.size = is.length

/-- A pair leads to one entry at most, so to be found is to be there. -/
theorem get?_eq_some (h : Sorted ns.entries) {group name : String} {f : F} :
    ns.get? group name = some f ↔ ⟨group, name, f⟩ ∈ ns.entries := by
  rw [get?, Option.map_eq_some_iff]
  constructor
  · rintro ⟨⟨group', name', f'⟩, hfind, rfl⟩
    obtain ⟨rfl, rfl⟩ : group' = group ∧ name' = name := by simpa using List.find?_some hfind
    exact List.mem_of_find?_eq_some hfind
  · intro hmem
    have hsome : (ns.entries.find? fun e => e.group = group ∧ e.name = name).isSome :=
      List.find?_isSome.mpr ⟨_, hmem, by simp⟩
    obtain ⟨e, hfind⟩ := Option.isSome_iff_exists.mp hsome
    have hpair : e.pair = (group, name) := by simpa [Import.pair] using List.find?_some hfind
    have hsame : e = ⟨group, name, f⟩ :=
      List.inj_on_of_nodup_map h.nodup (List.mem_of_find?_eq_some hfind) hmem hpair
    exact ⟨e, hfind, congrArg Import.function hsame⟩

/-- A namespace holds its entries, in whatever order they are listed. -/
theorem Holds.of_perm (hperm : ns.entries.Perm is) (hsorted : Sorted ns.entries) : ns.Holds is where
  found _ _ _ := (get?_eq_some hsorted).trans hperm.mem_iff
  once := hperm
  sorted := hsorted
  size := hperm.length_eq

theorem Holds.nodup (h : ns.Holds is) : (is.map Import.pair).Nodup :=
  (h.once.map _).nodup_iff.mp h.sorted.nodup

theorem holds_empty : (empty : Namespace F).Holds [] := .of_perm (.refl _) .nil

/-- A namespace knows the pairs that it holds, and no others. -/
theorem Holds.contains (h : ns.Holds is) (group name : String) :
    ns.contains group name = true ↔ (group, name) ∈ is.map Import.pair := by
  rw [Namespace.contains, Option.isSome_iff_exists, List.mem_map]
  constructor
  · rintro ⟨f, hf⟩
    exact ⟨_, (h.found group name f).mp hf, rfl⟩
  · rintro ⟨⟨group', name', f⟩, hi, hpair⟩
    obtain ⟨rfl, rfl⟩ := Prod.mk.inj hpair
    exact ⟨f, (h.found _ _ f).mpr hi⟩

/-- A pair that is taken is refused, and the namespace stays. -/
theorem Holds.define_taken (h : ns.Holds is) (htaken : i.pair ∈ is.map Import.pair) :
    ns.define i.group i.name i.function = refuse (.duplicateFunction i.group i.name) :=
  if_pos ((h.contains i.group i.name).mpr htaken)

/-- A new pair goes in beside the others. -/
theorem Holds.define_new (h : ns.Holds is) (hnew : i.pair ∉ is.map Import.pair) :
    ∃ ns', ns.define i.group i.name i.function = .ok ns' ∧ ns'.Holds (is ++ [i]) := by
  refine ⟨_, if_neg fun htaken => hnew ((h.contains _ _).mp htaken), .of_perm ?_ ?_⟩
  · exact (insertEntry_perm i ns.entries).trans
      ((h.once.cons i).trans (List.perm_append_singleton i is).symm)
  · exact h.sorted.insertEntry fun hmem => hnew ((h.once.map _).mem_iff.mp hmem)

/-! ## One walk over all that is asked for -/

/-- Defines entries one after another up to the first whose pair is taken; what was defined before
it stays. -/
def defineEach (ns : Namespace F) : List (Import F) → Outcome Unit × Namespace F
  | [] => (.ok (), ns)
  | i :: rest =>
    match ns.define i.group i.name i.function with
    | .ok ns => ns.defineEach rest
    | .error e => (.error e, ns)

/-- Where a walk ends that came past `is` already: behind the last of the entries, or at the first
whose pair is taken. -/
inductive Walked (is : List (Import F)) : List (Import F) → Outcome Unit × Namespace F → Prop
  | through {ns : Namespace F} {rest : List (Import F)} (hholds : ns.Holds (is ++ rest)) :
      Walked is rest (.ok (), ns)
  | stopped {ns : Namespace F} {i : Import F} {before after : List (Import F)}
      (hholds : ns.Holds (is ++ before)) (htaken : i.pair ∈ (is ++ before).map Import.pair) :
      Walked is (before ++ i :: after) (refuse (.duplicateFunction i.group i.name), ns)

/-- What a walk comes to behind its next entry is what it comes to. -/
theorem Walked.step {rest : List (Import F)} {r : Outcome Unit × Namespace F}
    (h : Walked (is ++ [i]) rest r) : Walked is (i :: rest) r := by
  cases h with
  | through hholds => exact .through (by simpa using hholds)
  | @stopped ns j before after hholds htaken =>
    rw [← List.cons_append]
    exact .stopped (by simpa using hholds) (by simpa using htaken)

/-- What has been walked past is what the namespace holds, from the first entry to the end. -/
theorem Holds.walked (h : ns.Holds is) (rest : List (Import F)) :
    Walked is rest (ns.defineEach rest) := by
  induction rest generalizing ns is with
  | nil => exact .through (by rwa [List.append_nil])
  | cons i rest ih =>
    rw [defineEach]
    by_cases htaken : i.pair ∈ is.map Import.pair
    · rw [h.define_taken htaken]
      exact @Walked.stopped F is ns i [] rest (by rwa [List.append_nil]) (by rwa [List.append_nil])
    · obtain ⟨ns', hdefine, hholds⟩ := h.define_new htaken
      rw [hdefine]
      exact (ih hholds).step

/-! ## How a walk ends -/

/-- A walk from nothing comes to its end if no pair is repeated. -/
theorem Walked.ok_iff {r : Outcome Unit × Namespace F} (h : Walked [] is r) :
    r.1 = .ok () ↔ (is.map Import.pair).Nodup := by
  cases h with
  | through hholds => exact ⟨fun _ => hholds.nodup, fun _ => rfl⟩
  | @stopped _ i before after hholds htaken =>
    refine ⟨nofun, fun hnodup => ?_⟩
    rw [List.map_append, List.map_cons] at hnodup
    exact absurd rfl ((List.nodup_append.mp hnodup).2.2 _ htaken _ List.mem_cons_self)

/-- A walk that comes to its end leaves a namespace that holds all. -/
theorem Walked.holds {ns : Namespace F} (h : Walked [] is (.ok (), ns)) : ns.Holds is := by
  cases h with
  | through hholds => exact hholds

/-- A walk that failed did so at the first entry whose pair is that of an earlier one, and the
namespace holds the entries before it. -/
theorem Walked.error {r : Outcome Unit × Namespace F} {e : Failure} (h : Walked [] is r)
    (hfailed : r.1 = .error e) :
    ∃ before i after, is = before ++ i :: after ∧ (before.map Import.pair).Nodup ∧
      i.pair ∈ before.map Import.pair ∧ e = ⟨.duplicateFunction i.group i.name, []⟩ ∧
      r.2.Holds before := by
  cases h with
  | through hholds => cases hfailed
  | @stopped _ i before after hholds htaken =>
    exact ⟨before, i, after, rfl, hholds.nodup, htaken, (Except.error.inj hfailed).symm, hholds⟩

/-- The order of the walk leaves no trace. -/
theorem Holds.eq_of_perm {ns' : Namespace F} {js : List (Import F)} (h : ns.Holds is)
    (h' : ns'.Holds js) (hperm : is.Perm js) : ns = ns' := by
  have hentries : ns.entries = ns'.entries :=
    h.sorted.eq_of_perm h'.sorted (h.once.trans (hperm.trans h'.once.symm))
  cases ns
  cases ns'
  exact congrArg Namespace.mk hentries

/-- A walk is stopped by the first pair that is asked for again, if there is one. -/
theorem Walked.by_repetition {r : Outcome Unit × Namespace F} (h : Walked [] is r) :
    match firstRepeated [] (is.map Import.pair) with
    | some (group, name) => r.1 = refuse (.duplicateFunction group name)
    | none => r.1 = .ok () ∧ r.2.Holds is := by
  cases h with
  | through hholds =>
    rw [List.nil_append] at hholds
    rw [firstRepeated_eq_none.mpr ⟨hholds.nodup, fun _ _ => List.not_mem_nil⟩]
    exact ⟨rfl, hholds⟩
  | stopped hholds htaken =>
    rw [List.nil_append] at hholds htaken
    rw [List.map_append, List.map_cons,
      firstRepeated_append hholds.nodup (fun _ _ => List.not_mem_nil) (.inr htaken)]
    rfl

/-- A namespace that is given up if something failed. -/
def passed (r : Outcome Unit × Namespace F) : Outcome (Namespace F) := r.1.map fun _ => r.2

end Namespace

/-- All these functions are found. -/
def Imports.Offers (imports : Imports) (fs : List (String × String × HostFunction)) : Prop :=
  ∀ e ∈ fs, imports.get? e.1 e.2.1 = some e.2.2

instance (imports : Imports) (fs : List (String × String × HostFunction)) :
    Decidable (imports.Offers fs) :=
  inferInstanceAs (Decidable (∀ e ∈ fs, imports.get? e.1 e.2.1 = some e.2.2))

namespace Capability

open Namespace

/-- Functions as entries of a namespace. -/
def entriesOf (fs : List (String × String × HostFunction)) : List (Import HostFunction) :=
  fs.map fun f => ⟨f.1, f.2.1, f.2.2⟩

/-- Defining all functions is defining each, and keeping the namespace if none was refused. -/
theorem defineAll_eq (imports : Imports) (fs : List (String × String × HostFunction)) :
    defineAll imports fs = passed (imports.defineEach (entriesOf fs)) := by
  induction fs generalizing imports with
  | nil => rfl
  | cons f rest ih =>
    rw [defineAll, entriesOf, List.map_cons, defineEach]
    cases imports.define f.1 f.2.1 f.2.2 with
    | error e => rfl
    | ok imports' => exact ih imports'

end Capability
end SandboxPool
