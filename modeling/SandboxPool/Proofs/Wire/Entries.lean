import Mathlib.Data.List.Perm.Basic
import SandboxPool.Proofs.Wire.Fields

/-!
# A map reads back its entries, in whatever order they were written

Every entry is a message of its own, of which an empty key and an empty value take no bytes. The
reader puts one entry after another into the map, which is where the order of writing is lost: the
entries that have gone in are the same up to their order, and a map keeps them sorted.
-/

namespace SandboxPool.Wire

namespace TextMap

/-- An entry with a new key is one more entry. -/
theorem insertEntry_perm {key value : String} {l : List (String × String)}
    (h : ∀ e ∈ l, e.1 ≠ key) : (insertEntry key value l).Perm ((key, value) :: l) := by
  induction l with
  | nil => exact .refl _
  | cons e l ih =>
    rw [insertEntry]
    split
    · exact .refl _
    · split
      · apply List.Perm.trans (.cons e (ih fun a ha => h a (List.mem_cons_of_mem e ha)))
        exact .swap (key, value) e l
      · next hge hle =>
        exact absurd (String.le_antisymm (String.not_lt.mp hge) (String.not_lt.mp hle))
          (h e List.mem_cons_self)

/-- Entries with different keys are all there once they were put in one after another. -/
theorem foldl_insert_perm (l : List (String × String)) (t : TextMap)
    (h : ((t.entries ++ l).map Prod.fst).Nodup) :
    (l.foldl (fun t e => t.insert e.1 e.2) t).entries.Perm (t.entries ++ l) := by
  induction l generalizing t with
  | nil =>
    rw [List.append_nil]
    exact .refl _
  | cons e l ih =>
    have hmid : (t.entries ++ e :: l).Perm (e :: t.entries ++ l) := List.perm_middle
    have hkeys : ((e :: t.entries ++ l).map Prod.fst).Nodup := (hmid.map _).nodup_iff.mp h
    -- The key is new to the table, so inserting it replaces nothing.
    have hnew : ∀ a ∈ t.entries, a.1 ≠ e.1 := by
      intro a ha heq
      rw [List.cons_append, List.map_cons, List.nodup_cons] at hkeys
      apply hkeys.1
      rw [← heq]
      exact List.mem_map_of_mem (List.mem_append_left l ha)
    have hinsert : (t.insert e.1 e.2).entries.Perm (e :: t.entries) := insertEntry_perm hnew
    have hentries := hinsert.append_right l
    rw [List.foldl_cons]
    exact (ih _ ((hentries.map _).nodup_iff.mpr hkeys)).trans (hentries.trans hmid.symm)

/-- Two maps with the same entries are the same. -/
theorem eq_of_perm {s t : TextMap} (h : s.entries.Perm t.entries) : s = t := by
  have hentries : s.entries = t.entries := by
    apply h.eq_of_pairwise _ s.sorted t.sorted
    intro a b _ _ hab hba
    exact absurd (String.lt_trans hab hba) (String.lt_irrefl _)
  cases s
  cases t
  congr

/-- The keys of a map are different from one another. -/
theorem nodup_keys (t : TextMap) : (t.entries.map Prod.fst).Nodup := by
  rw [List.Nodup, List.pairwise_map]
  apply t.sorted.imp
  intro a b hlt heq
  rw [heq] at hlt
  exact String.lt_irrefl _ hlt

/-- A map is made again from its entries in any order. -/
theorem ofList_of_perm {t : TextMap} {l : List (String × String)} (h : l.Perm t.entries) :
    ofList l = t := by
  apply eq_of_perm
  have hkeys : (l.map Prod.fst).Nodup := (h.map _).nodup_iff.mpr t.nodup_keys
  exact (foldl_insert_perm l empty hkeys).trans h

end TextMap

namespace Field

/-! ## One entry -/

theorem readEntryField_key {budget : Nat} {e : String × String} {s : String}
    (h : (Text.Utf8.encode s).length < 2 ^ 64) (rest : List UInt8) :
    readEntryField budget e (.ofList (Key.write ⟨1, .delimited⟩ ++
      writeDelimited (Text.Utf8.encode s) ++ rest)) = .ok ((s, e.2), .ofList rest) := by
  have htag : ProperTag 1 := by decide
  have hkey := readKey_write htag .delimited (writeDelimited (Text.Utf8.encode s) ++ rest)
  have hread := readText_write h rest
  rw [List.append_assoc]
  simp only [readEntryField, expectWireType, if_pos, bind, Except.bind, hkey, hread]
  rfl

theorem readEntryField_value {budget : Nat} {e : String × String} {s : String}
    (h : (Text.Utf8.encode s).length < 2 ^ 64) (rest : List UInt8) :
    readEntryField budget e (.ofList (Key.write ⟨2, .delimited⟩ ++
      writeDelimited (Text.Utf8.encode s) ++ rest)) = .ok ((e.1, s), .ofList rest) := by
  have htag : ProperTag 2 := by decide
  have hkey := readKey_write htag .delimited (writeDelimited (Text.Utf8.encode s) ++ rest)
  have hread := readText_write h rest
  have hother : ¬ (2 : Nat) = 1 := by omega
  rw [List.append_assoc]
  simp only [readEntryField, expectWireType, if_pos, if_neg hother, bind, Except.bind, hkey, hread]
  rfl

/-- An entry is read back from its bytes, empty texts included. -/
theorem reads_entry (budget : Nat) (e : String × String)
    (hlength : (writeTextField 1 e.1 ++ writeTextField 2 e.2).length < 2 ^ 63) :
    Reads (readEntryField budget) ("", "") (writeTextField 1 e.1 ++ writeTextField 2 e.2) e := by
  rw [List.length_append] at hlength
  have hkey : Reads (readEntryField budget) ("", "") (writeTextField 1 e.1) (e.1, "") :=
    reads_textField (fun hs => by rw [hs]) readEntryField_key (by omega)
  have hvalue : Reads (readEntryField budget) (e.1, "") (writeTextField 2 e.2) e :=
    reads_textField (fun hs => by rw [← hs]) readEntryField_value (by omega)
  exact hkey.append hvalue

theorem length_entry (e : String × String)
    (hlength : (writeTextField 1 e.1 ++ writeTextField 2 e.2).length < 2 ^ 63) :
    entryLength e = (writeTextField 1 e.1 ++ writeTextField 2 e.2).length := by
  rw [List.length_append] at hlength ⊢
  rw [entryLength, length_writeTextField (by decide) (by omega),
    length_writeTextField (by decide) (by omega)]

/-! ## The entries of a map -/

section

variable {M : Type} {tag : Nat} {name : String} {blank : M} {depth : Nat} {get : M → TextMap}
  {set : M → TextMap → M}

theorem length_le_writeEntry (tag : Nat) (e : String × String) :
    (writeTextField 1 e.1 ++ writeTextField 2 e.2).length ≤ (writeEntry tag e).length := by
  simp only [writeEntry, List.length_append]
  omega

/-- One entry goes into the map read so far. -/
theorem read_textMap_entry (hget : ∀ m t, get (set m t) = t)
    (hset : ∀ m t u, set (set m t) u = set m u) {budget : Nat} (hbudget : 1 ≤ budget) (m : M)
    (t : TextMap) (e : String × String) (w : WireType)
    (hlength : (writeEntry tag e).length < 2 ^ 63) (rest : List UInt8) :
    (textMap tag name get set).read budget w (set m t)
      (.ofList (writeVarint (entryLength e) ++ (writeTextField 1 e.1 ++ writeTextField 2 e.2) ++
        rest)) = .ok (set m (t.insert e.1 e.2), .ofList rest) := by
  have hbody := length_le_writeEntry tag e
  have hdeep : ¬ budget = 0 := by omega
  have hread := (reads_entry (budget - 1) e (by omega)).readNested (by omega) rest
  rw [← length_entry e (by omega)] at hread
  rw [List.append_assoc]
  simp only [textMap, if_neg hdeep, bind, Except.bind, hread]
  show Except.ok (set (set m t) ((get (set m t)).insert e.1 e.2), Input.ofList rest) = _
  rw [hget, hset]

theorem reads_entries (htag : ProperTag tag) (hget : ∀ m t, get (set m t) = t)
    (hset : ∀ m t u, set (set m t) u = set m u) {budget : Nat} (hbudget : 1 ≤ budget) (m : M)
    (l : List (String × String)) (t : TextMap)
    (hlength : (l.flatMap (writeEntry tag)).length < 2 ^ 63) :
    Reads ((textMap tag name get set).readKeyed budget) (set m t) (l.flatMap (writeEntry tag))
      (set m (l.foldl (fun t e => t.insert e.1 e.2) t)) := by
  induction l generalizing t with
  | nil => exact .done (set m t)
  | cons e l ih =>
    rw [List.flatMap_cons, List.length_append] at hlength
    rw [List.flatMap_cons, List.foldl_cons]
    refine Reads.append (reads_value (w := .delimited) htag ?_) (ih _ (by omega))
    exact read_textMap_entry hget hset hbudget m t e .delimited (by omega)

/-- The length of a map is that of its entries, each with its key. -/
theorem length_entries (htag : ProperTag tag) (l : List (String × String))
    (hlength : (l.flatMap (writeEntry tag)).length < 2 ^ 63) :
    (l.flatMap (writeEntry tag)).length = keyLength tag * l.length +
      l.foldr (fun e n => delimitedLength (entryLength e) + n) 0 := by
  induction l with
  | nil => rfl
  | cons e l ih =>
    rw [List.flatMap_cons, List.length_append] at hlength ⊢
    have hbody := length_le_writeEntry tag e
    have hentry := length_entry e (by omega)
    have hwritten : (writeEntry tag e).length =
        keyLength tag + delimitedLength (entryLength e) := by
      rw [writeEntry, List.length_append, List.length_append, length_key htag,
        length_writeVarint (by omega), delimitedLength, ← hentry]
    rw [ih (by omega), hwritten, List.length_cons, List.foldr_cons, Nat.mul_succ]
    omega

/-- A map is read back from its entries, in whatever order they were written. -/
theorem faithful_textMap (htag : ProperTag tag) (hget : ∀ m t, get (set m t) = t)
    (hset : ∀ m t u, set (set m t) u = set m u) (hblank : get blank = .empty) :
    (textMap tag name get set).Faithful blank (depth + 1) where
  tag := htag
  reads budget order v m hbudget hm hlength := by
    have hm : set m (get blank) = m := hm
    have hlength : ((order.arrange (get v).entries).flatMap (writeEntry tag)).length < 2 ^ 63 :=
      hlength
    -- Entries are read in the order in which they were written, and the table forgets that order.
    have hread : Reads ((textMap tag name get set).readKeyed budget) (set m .empty) _ _ :=
      reads_entries htag hget hset (by omega) m (order.arrange (get v).entries) .empty hlength
    have hall : (order.arrange (get v).entries).foldl (fun t e => t.insert e.1 e.2) .empty =
        get v := TextMap.ofList_of_perm (order.perm _)
    rw [hall, ← hblank, hm] at hread
    exact hread
  length order v hlength := by
    have hperm := order.perm (get v).entries
    have hlength : ((order.arrange (get v).entries).flatMap (writeEntry tag)).length < 2 ^ 63 :=
      hlength
    show keyLength tag * (get v).entries.length +
        (get v).entries.foldr (fun e n => delimitedLength (entryLength e) + n) 0 =
      ((order.arrange (get v).entries).flatMap (writeEntry tag)).length
    have hcomm : LeftCommutative
        (fun (e : String × String) n => delimitedLength (entryLength e) + n) :=
      ⟨fun _ _ _ => Nat.add_left_comm _ _ _⟩
    rw [length_entries htag _ hlength, hperm.length_eq, hperm.foldr_eq]

end

end Field
end SandboxPool.Wire
