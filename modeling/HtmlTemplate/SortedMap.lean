/-!
# Maps with sorted keys

A map from texts to values, kept as the list of its entries in increasing order of the keys. The order
is that of the code points, so two maps with the same entries are equal and print alike.
-/

namespace HtmlTemplate

/-- A finite map from texts, with its entries in increasing order of the keys. -/
structure SortedMap (α : Type) where
  /-- The entries. -/
  entries : List (String × α)
  /-- The keys increase. -/
  sorted : entries.Pairwise (fun left right => left.1 < right.1)
  deriving DecidableEq

namespace SortedMap

variable {α : Type}

/-- The map without entries. -/
def empty : SortedMap α :=
  { entries := [], sorted := List.Pairwise.nil }

instance : Inhabited (SortedMap α) :=
  ⟨empty⟩

/-- Puts an entry in its place among sorted ones, instead of the one with the same key. -/
def insertEntry (key : String) (value : α) : List (String × α) → List (String × α)
  | [] => [(key, value)]
  | entry :: entries =>
      if key < entry.1 then (key, value) :: entry :: entries
      else if key = entry.1 then (key, value) :: entries
      else entry :: insertEntry key value entries

theorem mem_insertEntry {key : String} {value : α} {entries : List (String × α)}
    {entry : String × α} (member : entry ∈ insertEntry key value entries) :
    entry = (key, value) ∨ entry ∈ entries := by
  induction entries with
  | nil => simpa [insertEntry] using member
  | cons first entries hypothesis =>
      simp only [insertEntry] at member
      split at member
      · simpa using member
      · split at member
        · rcases List.mem_cons.1 member with equal | member
          · exact .inl equal
          · exact .inr (List.mem_cons_of_mem _ member)
        · rcases List.mem_cons.1 member with rfl | member
          · exact .inr List.mem_cons_self
          · rcases hypothesis member with equal | member
            · exact .inl equal
            · exact .inr (List.mem_cons_of_mem _ member)

theorem sorted_insertEntry {key : String} {value : α} {entries : List (String × α)}
    (sorted : entries.Pairwise (fun left right => left.1 < right.1)) :
    (insertEntry key value entries).Pairwise (fun left right => left.1 < right.1) := by
  induction entries with
  | nil => simp [insertEntry]
  | cons first entries hypothesis =>
      obtain ⟨above, rest⟩ := List.pairwise_cons.1 sorted
      simp only [insertEntry]
      split
      · next less =>
          refine List.pairwise_cons.2 ⟨?_, sorted⟩
          intro entry member
          rcases List.mem_cons.1 member with rfl | member
          · exact less
          · exact String.lt_trans less (above entry member)
      · next notLess =>
          split
          · next equal =>
              subst equal
              exact List.pairwise_cons.2 ⟨fun entry member => above entry member, rest⟩
          · next notEqual =>
              refine List.pairwise_cons.2 ⟨?_, hypothesis rest⟩
              intro entry member
              rcases mem_insertEntry member with rfl | member
              · rcases Std.lt_trichotomy key first.1 with less | equal | greater
                · exact absurd less notLess
                · exact absurd equal notEqual
                · exact greater
              · exact above entry member

/-- The map with an entry more, or with another value for the key. -/
def insert (map : SortedMap α) (key : String) (value : α) : SortedMap α :=
  { entries := insertEntry key value map.entries, sorted := sorted_insertEntry map.sorted }

/-- The value for a key. -/
def find? (map : SortedMap α) (key : String) : Option α :=
  map.entries.lookup key

/-- Does the map hold the key? -/
def contains (map : SortedMap α) (key : String) : Bool :=
  (map.find? key).isSome

/-- The map without the entry for a key. -/
def erase (map : SortedMap α) (key : String) : SortedMap α :=
  { entries := map.entries.filter fun entry => entry.1 != key
    sorted := List.Pairwise.filter _ map.sorted }

/-- The map with the given entries; of two with one key the later one counts. -/
def ofList (entries : List (String × α)) : SortedMap α :=
  entries.foldl (fun map entry => map.insert entry.1 entry.2) empty

/-- The keys, in increasing order. -/
def keys (map : SortedMap α) : List String :=
  map.entries.map Prod.fst

end SortedMap

end HtmlTemplate
