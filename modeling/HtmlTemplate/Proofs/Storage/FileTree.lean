import HtmlTemplate.Path
import HtmlTemplate.Proofs.Text.Space
import HtmlTemplate.Proofs.Tree.Success
import HtmlTemplate.Storage.FileTree

/-!
# Files lie in directories

A path is followed name by name, and every name but the last is that of a directory. So a file can be put only where
the directory that its path lies in is there, and where it is, making it changes nothing. Unless it is the root or
the working directory, the parent of a path is a part of its text: a slash follows, and behind the slash there is
some name.
-/

namespace HtmlTemplate
namespace Path

/-! ## The directory that a path lies in -/

theorem splitSlashes_eq (path : List Char) : splitSlashes path = path.splitOn '/' := by
  induction path with
  | nil => rfl
  | cons c path hypothesis =>
      obtain ⟨piece, pieces, split, grown⟩ := Text.splitOn_cons '/' c path
      rw [splitSlashes, hypothesis, split, grown]
      simp

theorem splitSlashes_append (path more : List Char) :
    splitSlashes (path ++ '/' :: more) = splitSlashes path ++ splitSlashes more := by
  simp only [splitSlashes_eq, List.splitOn_append_cons_self]

/-- Is there a name, or a point or two, between the slashes of a text? -/
def HasName (path : List Char) : Prop :=
  ∃ piece ∈ splitSlashes path, piece ≠ []

/-- What is left without the last component is empty, or a slash and some name follow it. -/
theorem initial?_source {path before : List Char} (initial : initial? path = some before) :
    before = [] ∨ ∃ more, path = before ++ '/' :: more ∧ HasName more := by
  unfold initial? at initial
  split at initial
  · cases initial
  next last earlier ends =>
  generalize rest : earlier.dropWhile (fun piece => !isComponent piece) = kept at initial
  cases initial
  -- the last component with what is behind the components before it
  let more := (earlier.takeWhile fun piece => !isComponent piece).reverse ++
    last :: ((splitSlashes path).reverse.takeWhile fun piece => !isComponent piece).reverse
  have pieces : splitSlashes path = kept.reverse ++ more := by
    rw [← List.reverse_inj, ← List.takeWhile_append_dropWhile (l := (splitSlashes path).reverse), ends, ← rest]
    simp [more, List.takeWhile_append_dropWhile]
  have source : path = joinSlashes (splitSlashes path) := by
    rw [splitSlashes_eq, joinSlashes, List.intercalate_splitOn]
  have full : more ≠ [] := by simp [more]
  by_cases alone : kept = []
  · exact .inl (by simp [alone, joinSlashes])
  · refine .inr ⟨joinSlashes more, ?_, last, ?_, ?_⟩
    · rw [source, pieces]
      exact Text.intercalate_append (by simpa using alone) full
    · have uncut : ∀ piece ∈ more, '/' ∉ piece := by
        intro piece member
        have among : piece ∈ splitSlashes path := pieces ▸ List.mem_append_right _ member
        exact Text.not_mem_of_mem_splitOn (splitSlashes_eq path ▸ among)
      rw [splitSlashes_eq, joinSlashes, List.splitOn_intercalate '/' uncut full]
      simp [more]
    · rintro rfl
      have component := List.head?_dropWhile_not (fun piece => !isComponent piece) (splitSlashes path).reverse
      rw [ends] at component
      cases component

theorem parent?_source {path parent : String} (lies : parent? path = some parent) :
    parent = "" ∨ parent = "/" ∨ parent = "." ∨
      ∃ more, path.toList = parent.toList ++ '/' :: more ∧ HasName more := by
  unfold parent? at lies
  split at lies
  · next rest source =>
    obtain ⟨before, initial, rfl⟩ := Option.map_eq_some_iff.1 lies
    rcases initial?_source initial with rfl | ⟨more, rfl, name⟩
    · exact .inr (.inl rfl)
    · exact .inr (.inr (.inr ⟨more, by simp [source], name⟩))
  · cases lies
    exact .inl rfl
  · next rest source =>
    split at lies
    · cases lies
      exact .inr (.inr (.inl rfl))
    · next before _ initial =>
      cases lies
      rcases initial?_source initial with rfl | ⟨more, rfl, name⟩
      · contradiction
      · exact .inr (.inr (.inr ⟨more, by simp [source], name⟩))
    · cases lies
      exact .inl rfl
  · obtain ⟨before, initial, rfl⟩ := Option.map_eq_some_iff.1 lies
    rcases initial?_source initial with rfl | ⟨more, source, name⟩
    · exact .inl rfl
    · exact .inr (.inr (.inr ⟨more, by simp [source], name⟩))

end Path

namespace FileTree

variable {tree after : FileTree} {path parent : String}

/-! ## Following names -/

variable {location next : List String} {name : String} {names more : List String} {entry : Option Entry}

theorem follow_cons (full : names ≠ []) :
    tree.follow location (name :: names) = .ok (next, entry) ↔
      ∃ middle, tree.descend location name = .ok (middle, some .directory) ∧
        tree.follow middle names = .ok (next, entry) := by
  obtain ⟨second, others, rfl⟩ := List.exists_cons_of_ne_nil full
  change (tree.descend location name >>= _) = _ ↔ _
  rw [bind_eq_ok_iff]
  constructor
  · rintro ⟨⟨middle, found⟩, descends, followed⟩
    match found with
    | none => cases followed
    | some .directory => exact ⟨middle, descends, followed⟩
    | some (.text _) => cases followed
    | some .binary => cases followed
  · rintro ⟨middle, descends, followed⟩
    exact ⟨_, descends, followed⟩

/-- Names that can be followed further lead to a directory. -/
theorem follow_append (full : more ≠ []) (followed : tree.follow location (names ++ more) = .ok (next, entry)) :
    ∃ middle, tree.follow location names = .ok (middle, some .directory) := by
  induction names generalizing location with
  | nil => exact ⟨location, rfl⟩
  | cons name names hypothesis =>
      obtain ⟨middle, descends, followed⟩ := (follow_cons (List.append_ne_nil_of_right_ne_nil names full)).1 followed
      by_cases last : names = []
      · exact ⟨middle, last ▸ descends⟩
      · obtain ⟨inner, within⟩ := hypothesis followed
        exact ⟨inner, (follow_cons last).2 ⟨middle, descends, within⟩⟩

/-! ## Following paths -/

/-- The names in a path. -/
def namesOf (path : List Char) : List String :=
  ((Path.splitSlashes path).filter fun piece => !piece.isEmpty).map String.ofList

theorem namesOf_append (path more : List Char) : namesOf (path ++ '/' :: more) = namesOf path ++ namesOf more := by
  simp [namesOf, Path.splitSlashes_append]

theorem namesOf_ne_nil {path : List Char} (named : Path.HasName path) : namesOf path ≠ [] := by
  obtain ⟨piece, member, full⟩ := named
  simpa [namesOf] using ⟨piece, member, full⟩

/-- Where a path starts. -/
def startOf (tree : FileTree) (path : List Char) : List String :=
  if path.head? == some '/' then [] else tree.working

/-- Can a path be followed at all? -/
def IsUsable (path : String) : Prop :=
  path ≠ "" ∧ '\x00' ∉ path.toList ∧ path.utf8ByteSize ≤ 4095

theorem target_eq_ok_iff {found : Target} :
    tree.target path = .ok found ↔ IsUsable path ∧ ∃ location entry,
      tree.follow (tree.startOf path.toList) (namesOf path.toList) = .ok (location, entry) ∧
        found = { location, entry, asDirectory := path.toList.getLast? == some '/' } := by
  constructor
  · intro leads
    unfold target at leads
    dsimp only at leads
    split at leads
    · cases leads
    next full =>
    split at leads
    · cases leads
    next noNull =>
    split at leads
    · cases leads
    next short =>
    obtain ⟨⟨location, entry⟩, followed, done⟩ := bind_eq_ok_iff.1 leads
    cases done
    exact ⟨⟨by simpa using full, by simpa using noNull, Nat.le_of_not_lt short⟩, location, entry, followed, rfl⟩
  · rintro ⟨⟨full, noNull, short⟩, location, entry, followed, rfl⟩
    rw [target, if_neg (by simpa using full), if_neg (by simpa using noNull), if_neg (Nat.not_lt.2 short)]
    exact bind_eq_ok_iff.2 ⟨_, followed, rfl⟩

theorem isDirectory_iff :
    tree.isDirectory path = true ↔ IsUsable path ∧ ∃ location,
      tree.follow (tree.startOf path.toList) (namesOf path.toList) = .ok (location, some .directory) := by
  constructor
  · intro there
    unfold isDirectory at there
    split at there
    · next found leads =>
      obtain ⟨usable, location, entry, followed, rfl⟩ := target_eq_ok_iff.1 leads
      have same : entry = some .directory := by simpa using there
      exact ⟨usable, location, same ▸ followed⟩
    · cases there
  · rintro ⟨usable, location, followed⟩
    rw [isDirectory, target_eq_ok_iff.2 ⟨usable, location, _, followed, rfl⟩]
    rfl

/-- Is the directory there that a path lies in? -/
def HasParent (tree : FileTree) (path : String) : Prop :=
  ∀ parent, Path.parent? path = some parent → parent ≠ "" → tree.isDirectory parent = true

/-- A file can be put only where the directory is there that its path lies in. -/
theorem hasParent_of_putFile {file : Entry} (put : tree.putFile path file = .ok after) : tree.HasParent path := by
  intro parent lies full
  obtain ⟨found, leads, -⟩ := bind_eq_ok_iff.1 put
  obtain ⟨⟨-, noNull, short⟩, location, entry, followed, -⟩ := target_eq_ok_iff.1 leads
  rw [isDirectory_iff]
  rcases Path.parent?_source lies with empty | rfl | rfl | ⟨more, source, named⟩
  · exact absurd empty full
  · exact ⟨⟨full, by decide, by decide⟩, [], rfl⟩
  · exact ⟨⟨full, by decide, by decide⟩, tree.working, rfl⟩
  · have joined : path = parent ++ String.ofList ('/' :: more) := by
      rw [← String.toList_inj, source]
      simp
    have start : tree.startOf path.toList = tree.startOf parent.toList := by
      obtain ⟨c, others, first⟩ := List.exists_cons_of_ne_nil (mt String.toList_eq_nil_iff.1 full)
      simp [startOf, source, first]
    rw [start, source, namesOf_append] at followed
    obtain ⟨middle, within⟩ := follow_append (namesOf_ne_nil named) followed
    refine ⟨⟨full, ?_, ?_⟩, middle, within⟩
    · exact fun null => noNull (source ▸ List.mem_append_left _ null)
    · rw [joined, String.utf8ByteSize_append] at short
      exact Nat.le_trans (Nat.le_add_right _ _) short

/-! ## Making directories -/

/-- Where the directory is there, nothing is made. -/
theorem makeDirectories_of_isDirectory (there : tree.isDirectory path = true) :
    makeDirectories path tree = (.ok (), tree) := by
  obtain ⟨usable, location, followed⟩ := isDirectory_iff.1 there
  have present : tree.makeDirectory path = .error .alreadyExists := by
    rw [makeDirectory, target_eq_ok_iff.2 ⟨usable, location, _, followed, rfl⟩]
    rfl
  rw [makeDirectories, makeDirectoriesWithin, if_neg (by simpa using usable.1), present]
  simp [orPresent, there]

end FileTree
end HtmlTemplate
