import HtmlTemplate.Proofs.Tree.Ancestry

/-!
# When edits succeed

For every edit of a tree, the exact conditions under which it is not refused, and the tree that it then
gives. The conditions are stated on lists of children, parent links and paths.
-/

namespace HtmlTemplate

/-- A computation that may be refused gives a value through every one of its steps. -/
theorem bind_eq_ok_iff {ε α β : Type} {first : Except ε α} {next : α → Except ε β} {value : β} :
    (first >>= next) = .ok value ↔ ∃ middle, first = .ok middle ∧ next middle = .ok value := by
  cases first with
  | error fault => simp [bind, Except.bind]
  | ok middle => simp [bind, Except.bind]

/-- Checks one after the other pass if each of them does. -/
theorem check_bind_eq_ok_iff {ε α : Type} {check : Except ε Unit} {next : Except ε α} {value : α} :
    (check >>= fun _ => next) = .ok value ↔ check = .ok () ∧ next = .ok value := by
  cases check with
  | error fault => simp [bind, Except.bind]
  | ok middle => simp [bind, Except.bind]

theorem mapError_eq_ok_iff {ε δ α : Type} {change : ε → δ} {first : Except ε α} {value : α} :
    first.mapError change = .ok value ↔ first = .ok value := by
  cases first <;> simp [Except.mapError]

namespace Tree

variable {tree : Tree}

/-! ## Conditions -/

theorem requireContainer_eq_ok_iff {id : NodeId} {done : Unit} :
    tree.requireContainer id = .ok done ↔ (tree.kind id).isContainer = true := by
  unfold requireContainer
  split <;> simp_all

theorem requireDetached_eq_ok_iff {id : NodeId} {done : Unit} :
    tree.requireDetached id = .ok done ↔ tree.parent id = none := by
  unfold requireDetached
  split <;> simp_all

theorem requireNotAbove_eq_ok_iff (wellFormed : tree.WellFormed) {candidate id : NodeId} {done : Unit} :
    tree.requireNotAbove candidate id = .ok done ↔ ¬tree.OnPath candidate id := by
  rw [← wellFormed.isSelfOrAncestor_iff]
  unfold requireNotAbove
  split <;> simp_all

theorem requireChild_eq_ok_iff {parent child : NodeId} {index : Nat} :
    tree.requireChild parent child = .ok index ↔ tree.indexOf? parent child = some index := by
  unfold requireChild
  split <;> simp_all

theorem requireFresh_eq_ok_iff {seen ids : List NodeId} {done : Unit} :
    tree.requireFresh seen ids = .ok done ↔
      ids.Nodup ∧ ∀ id ∈ ids, tree.parent id = none ∧ id ∉ seen := by
  induction ids generalizing seen with
  | nil => simp [requireFresh]
  | cons id ids hypothesis =>
      simp only [requireFresh, bind_eq_ok_iff, requireDetached_eq_ok_iff, List.contains_iff_mem]
      by_cases repeated : id ∈ seen
      · simp [repeated]
      · rw [if_neg repeated, hypothesis, List.nodup_cons, List.forall_mem_cons]
        constructor
        · rintro ⟨-, detached, distinct, rest⟩
          refine ⟨⟨fun member => (rest id member).2 List.mem_cons_self, distinct⟩,
            ⟨detached, repeated⟩, fun other member => ⟨(rest other member).1, ?_⟩⟩
          exact fun inSeen => (rest other member).2 (List.mem_cons_of_mem id inSeen)
        · rintro ⟨⟨absent, distinct⟩, ⟨detached, -⟩, rest⟩
          refine ⟨(), detached, distinct, fun other member => ⟨(rest other member).1, ?_⟩⟩
          intro inSeen
          rcases List.mem_cons.1 inSeen with rfl | inSeen
          · exact absent member
          · exact (rest other member).2 inSeen

/-! ## Places of children -/

theorem indexOf?_isSome_iff {parent child : NodeId} :
    (∃ index, tree.indexOf? parent child = some index) ↔ child ∈ tree.children parent := by
  rw [← Option.isSome_iff_exists, indexOf?, List.isSome_idxOf?]

theorem getElem?_of_indexOf? {parent child : NodeId} {index : Nat}
    (found : tree.indexOf? parent child = some index) : (tree.children parent)[index]? = some child := by
  obtain ⟨inside, equal, -⟩ := List.findIdx?_eq_some_iff_getElem.1 found
  rw [List.getElem?_eq_getElem inside]
  simpa using equal

theorem mem_of_indexOf? {parent child : NodeId} {index : Nat}
    (found : tree.indexOf? parent child = some index) : child ∈ tree.children parent :=
  indexOf?_isSome_iff.1 ⟨index, found⟩

/-- In a list without repetitions a child is found at the place where it stands. -/
theorem WellFormed.indexOf?_eq_some_iff (wellFormed : tree.WellFormed) {parent child : NodeId}
    {index : Nat} :
    tree.indexOf? parent child = some index ↔ (tree.children parent)[index]? = some child := by
  refine ⟨getElem?_of_indexOf?, fun stands => ?_⟩
  obtain ⟨place, found⟩ := indexOf?_isSome_iff.2 (List.mem_of_getElem? stands)
  have other := getElem?_of_indexOf? found
  obtain ⟨inside, -⟩ := List.getElem?_eq_some_iff.1 stands
  have equal := (wellFormed.nodup parent).getElem_inj_iff.1
    (((List.getElem?_eq_some_iff.1 stands).2).trans (List.getElem?_eq_some_iff.1 other).2.symm)
  rw [found, equal]

/-! ## Edits -/

theorem append_eq_ok_iff (wellFormed : tree.WellFormed) {parent child : NodeId} {next : Tree} :
    tree.append parent child = .ok next ↔
      (tree.kind parent).isContainer = true ∧ tree.parent child = none ∧ ¬tree.OnPath child parent ∧
        next = (tree.setParent (some parent) child).setChildren parent
          (tree.children parent ++ [child]) := by
  simp only [append, bind_eq_ok_iff, requireContainer_eq_ok_iff, requireDetached_eq_ok_iff,
    requireNotAbove_eq_ok_iff wellFormed, pure, Except.pure, Except.ok.injEq, exists_const]
  simp only [eq_comm]

theorem insertBefore_eq_ok_iff (wellFormed : tree.WellFormed) {parent child reference : NodeId}
    {next : Tree} :
    tree.insertBefore parent child reference = .ok next ↔
      ∃ index, tree.indexOf? parent reference = some index ∧ tree.parent child = none ∧
        ¬tree.OnPath child parent ∧
        next = (tree.setParent (some parent) child).setChildren parent
          ((tree.children parent).insertIdx index child) := by
  simp only [insertBefore, bind_eq_ok_iff, requireChild_eq_ok_iff, requireDetached_eq_ok_iff,
    requireNotAbove_eq_ok_iff wellFormed, pure, Except.pure, Except.ok.injEq, exists_const]
  simp only [eq_comm]

theorem remove_eq_ok_iff {parent child : NodeId} {next : Tree} :
    tree.remove parent child = .ok next ↔
      ∃ index, tree.indexOf? parent child = some index ∧
        next = (tree.setChildren parent ((tree.children parent).eraseIdx index)).setParent none child := by
  simp only [remove, bind_eq_ok_iff, requireChild_eq_ok_iff, pure, Except.pure, Except.ok.injEq]
  simp only [eq_comm]

theorem replace_eq_ok_iff (wellFormed : tree.WellFormed) {parent old new : NodeId} {next : Tree} :
    tree.replace parent old new = .ok next ↔
      ∃ index, tree.indexOf? parent old = some index ∧ tree.parent new = none ∧
        ¬tree.OnPath new parent ∧
        next = ((tree.setChildren parent ((tree.children parent).set index new)).setParent none
          old).setParent (some parent) new := by
  simp only [replace, bind_eq_ok_iff, requireChild_eq_ok_iff, requireDetached_eq_ok_iff,
    requireNotAbove_eq_ok_iff wellFormed, pure, Except.pure, Except.ok.injEq, exists_const]
  simp only [eq_comm]

theorem create_eq_ok_iff {position : Position} {kind : Kind} {attributes : List (String × String)}
    {children : List NodeId} {made : NodeId × Tree} :
    tree.create position kind attributes children = .ok made ↔
      ∃ read, kind.check = .ok () ∧
        attributes.mapM (fun (name, raw) => tree.readAttribute position name raw) = .ok read ∧
        (children ≠ [] → kind.isContainer = true) ∧ children.Nodup ∧
        (∀ child ∈ children, tree.parent child = none) ∧
        made = (⟨tree.size⟩,
          (tree.push { kind, attributes := read, children, position }).2.setParents (some ⟨tree.size⟩)
            children) := by
  by_cases childless : children ≠ [] → kind.isContainer = true
  · have allowed : (!kind.isContainer && !children.isEmpty) = false := by
      by_cases empty : children = [] <;> simp_all
    simp only [create, bind_eq_ok_iff, requireKind, mapError_eq_ok_iff, allowed, Bool.false_eq_true,
      if_false, requireFresh_eq_ok_iff, List.not_mem_nil, not_false_eq_true, and_true, pure, Except.pure,
      Except.ok.injEq]
    constructor
    · rintro ⟨⟨⟩, checked, read, attributesRead, -, ⟨distinct, detached⟩, equal⟩
      exact ⟨read, checked, attributesRead, childless, distinct, detached, equal.symm⟩
    · rintro ⟨read, checked, attributesRead, -, distinct, detached, equal⟩
      exact ⟨(), checked, read, attributesRead, (), ⟨distinct, detached⟩, equal.symm⟩
  · have refused : (!kind.isContainer && !children.isEmpty) = true := by
      push Not at childless
      simp [childless]
    constructor
    · intro made
      simp [create, bind_eq_ok_iff, refused, throw, throwThe, MonadExceptOf.throw] at made
    · rintro ⟨-, -, -, allowed, -⟩
      exact absurd allowed childless

theorem setKind_eq_ok_iff {id : NodeId} {kind : Kind} {next : Tree} :
    tree.setKind id kind = .ok next ↔
      kind.check = .ok () ∧ (tree.children id ≠ [] → kind.isContainer = true) ∧
        next = tree.update id fun node => { node with kind } := by
  by_cases childless : tree.children id ≠ [] → kind.isContainer = true
  · have allowed : (!kind.isContainer && !(tree.children id).isEmpty) = false := by
      by_cases empty : tree.children id = [] <;> simp_all
    simp only [setKind, bind_eq_ok_iff, requireKind, mapError_eq_ok_iff, allowed, Bool.false_eq_true,
      if_false, pure, Except.pure, Except.ok.injEq]
    constructor
    · rintro ⟨⟨⟩, checked, equal⟩
      exact ⟨checked, childless, equal.symm⟩
    · rintro ⟨checked, -, equal⟩
      exact ⟨(), checked, equal.symm⟩
  · have refused : (!kind.isContainer && !(tree.children id).isEmpty) = true := by
      push Not at childless
      simp [childless]
    constructor
    · intro made
      simp [setKind, bind_eq_ok_iff, refused, throw, throwThe, MonadExceptOf.throw] at made
    · rintro ⟨-, allowed, -⟩
      exact absurd allowed childless

theorem setAttribute_eq_ok_iff {id : NodeId} {name raw : String} {next : Tree} :
    tree.setAttribute id name raw = .ok next ↔
      ∃ value, tree.readAttribute (tree.node id).position name raw = .ok value ∧
        next = tree.update id fun node => { node with attributes := putAttribute value node.attributes } := by
  simp only [setAttribute, bind_eq_ok_iff, pure, Except.pure, Except.ok.injEq]
  simp only [eq_comm]

end Tree
end HtmlTemplate
