/-!
# Maps from text to text

A map field keeps one value per key. The entries stand in the order of their keys, so that equal
maps are equal values; in what order they are written is up to the writer.
-/

namespace SandboxPool.Wire

/-- A finite map between texts: its entries by ascending key. -/
structure TextMap where
  entries : List (String × String)
  sorted : entries.Pairwise (fun a b => a.1 < b.1) := by simp
  deriving DecidableEq

namespace TextMap

instance : Repr TextMap := ⟨fun m n => reprPrec m.entries n⟩

/-- No entries. -/
def empty : TextMap := { entries := [] }

instance : Inhabited TextMap := ⟨empty⟩

/-- Puts an entry at its place, over an older one with the same key. -/
def insertEntry (key value : String) : List (String × String) → List (String × String)
  | [] => [(key, value)]
  | e :: rest =>
    if key < e.1 then (key, value) :: e :: rest
    else if e.1 < key then e :: insertEntry key value rest
    else (key, value) :: rest

theorem mem_insertEntry {key value : String} {l : List (String × String)} {e : String × String}
    (h : e ∈ insertEntry key value l) : e = (key, value) ∨ e ∈ l := by
  induction l with
  | nil => simpa [insertEntry] using h
  | cons a rest ih =>
    unfold insertEntry at h
    split at h
    · simpa using h
    · split at h
      · rcases List.mem_cons.1 h with h | h
        · exact .inr (by simp [h])
        · exact (ih h).imp id (List.mem_cons_of_mem _)
      · rcases List.mem_cons.1 h with h | h
        · exact .inl h
        · exact .inr (List.mem_cons_of_mem _ h)

/-- Inserting keeps the keys ascending. -/
theorem sorted_insertEntry (key value : String) {l : List (String × String)}
    (h : l.Pairwise (fun a b => a.1 < b.1)) :
    (insertEntry key value l).Pairwise (fun a b => a.1 < b.1) := by
  induction l with
  | nil => simp [insertEntry]
  | cons a rest ih =>
    have hrest := (List.pairwise_cons.1 h).2
    have ha := (List.pairwise_cons.1 h).1
    unfold insertEntry
    split
    · next hlt =>
      refine List.pairwise_cons.2 ⟨fun b hb => ?_, h⟩
      rcases List.mem_cons.1 hb with rfl | hb
      · exact hlt
      · exact String.lt_trans hlt (ha b hb)
    · split
      · next hgt =>
        refine List.pairwise_cons.2 ⟨fun b hb => ?_, ih hrest⟩
        rcases mem_insertEntry hb with rfl | hb
        · exact hgt
        · exact ha b hb
      · next hge hle =>
        have heq : a.1 = key :=
          String.le_antisymm (String.not_lt.1 hge) (String.not_lt.1 hle)
        exact List.pairwise_cons.2 ⟨fun b hb => heq ▸ ha b hb, hrest⟩

/-- The map with one more entry; an older one with the same key goes. -/
def insert (m : TextMap) (key value : String) : TextMap :=
  ⟨insertEntry key value m.entries, sorted_insertEntry key value m.sorted⟩

/-- The map of some entries; of two with the same key the later one counts. -/
def ofList (entries : List (String × String)) : TextMap :=
  entries.foldl (fun m e => m.insert e.1 e.2) empty

/-- The value under a key. -/
def get? (m : TextMap) (key : String) : Option String :=
  (m.entries.find? fun e => e.1 = key).map Prod.snd

end TextMap

/-- An order in which a writer goes through the entries of maps. -/
structure EntryOrder where
  arrange : List (String × String) → List (String × String)
  perm : ∀ entries, (arrange entries).Perm entries

/-- The order of the keys. -/
def EntryOrder.byKey : EntryOrder := ⟨id, fun entries => .refl entries⟩

end SandboxPool.Wire
